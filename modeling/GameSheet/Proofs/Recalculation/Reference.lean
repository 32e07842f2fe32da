import GameSheet.Proofs.Evaluation.Surroundings
import GameSheet.Proofs.Recalculation.Plain

/-!
# Formula cells by reference

A formula cell is computed by a pass over its sheet, and it is computed where a formula refers to it. Both ways lead to
the same value or the same class of failure if the body of the cell stands alone (`StandsAlone`):
**`Engine.computeSheet_reference`**.

The pass reads a body as the text of a formula: it looks for a marker behind the blanks in front, and it refuses a bare
string literal. A reference parses the body as it is. So the two part where a marker is left in the body, where blanks
around it are no layout, and where it is a string literal.
-/

namespace GameSheet

open Formula

/-! ## Bodies that stand alone -/

/-- Around the body is only layout, no marker is in front of it, and it is more than a string literal. -/
structure StandsAlone (registry : Registry) (body : String) : Prop where
  ends : ∃ before after, body.toList = before ++ (Text.trim body.toList ++ after) ∧ before.all isLayout = true ∧
    after.all isLayout = true
  unmarked : (Text.trim body.toList).head? ≠ some '='
  notText : ∀ e, parse registry body = .ok e → e.isText = false

/-- A failure to parse has the same class at any place. -/
theorem Failure.code_parse_unplaced (e : ParseError) : (parse e.unplaced).code = (parse e).code := by
  cases e <;> rfl

/-- A body that stands alone and cannot be parsed is read with a failure of the same class. -/
theorem StandsAlone.read_error {engine : Engine} {body : String} (h : StandsAlone engine.registry body) {e : ParseError}
    (he : parse engine.registry body = .error e) :
    ∃ f, engine.read body = .error f ∧ f.code = (Failure.parse e).code := by
  obtain ⟨before, after, hbody, hb, ha⟩ := h.ends
  have hparse : unplacedResult Expr.unplaced (parse engine.registry (stripMarker body)) = _ :=
    parse_stripMarker hbody hb ha h.unmarked
  rw [he] at hparse
  cases hp : parse engine.registry (stripMarker body) with
  | ok e' =>
    rw [hp] at hparse
    cases hparse
  | error e' =>
    rw [hp] at hparse
    have hsame : e'.unplaced = e.unplaced := Except.error.inj hparse
    refine ⟨.parse e', ?_, ?_⟩
    · unfold Engine.read
      rw [hp]
      rfl
    · rw [← Failure.code_parse_unplaced e', hsame, Failure.code_parse_unplaced]

/-! ## The text of a reference -/

/-- The formula that refers to a cell by the name of its sheet, the identifier of its row and the name of its column. -/
def referenceText (cell : CellSite) : String :=
  referenceKey ++ "(" ++ literalText cell.site.sheet.name ++ ", " ++ literalText cell.site.row.id ++ ", " ++
    literalText cell.column.name ++ ")"

/-- The reference that the formula makes. -/
def referenceTo (cell : CellSite) : Reference :=
  .cross cell.site.sheet.name (.named cell.site.row.id) cell.column.name 0

/-- The tree of the formula. -/
def referenceTree (cell : CellSite) : Derivation .start :=
  callOf referenceKey.toList (literalOf cell.site.sheet.name)
    [literalOf cell.site.row.id, literalOf cell.column.name]

theorem lexes_referenceText (cell : CellSite) : Lexes (referenceText cell).toList (referenceTree cell).tokens := by
  have hstart : isNameStart 'R' = true := by decide
  have hname : "EF".toList.all isNameChar = true := by decide
  have hcall := lexes_call hstart (List.all_eq_true.1 hname) (lexes_literalText cell.site.sheet.name)
    (.cons (lexes_literalText cell.site.row.id) (.cons (lexes_literalText cell.column.name) .nil))
  simpa [referenceText, referenceTree, referenceKey, furtherText] using hcall

/-- The formula is parsed to the reference. -/
theorem parse_referenceText {registry : Registry} {spec : FunctionSpec}
    (hfind : registry.find? referenceKey = some spec) (haccepts : spec.accepts 3 = true) (cell : CellSite) :
    ∃ e, parse registry (referenceText cell) = .ok e ∧ e.unplaced = .ref (referenceTo cell) := by
  have hphrase : (referenceTree cell).phrase.check registry = .ok (.ref (referenceTo cell)) := by
    have hupper : Text.upper referenceKey = referenceKey := by decide
    rw [referenceTree, callOf_phrase, List.map_cons, List.map_singleton, literalOf_phrase, literalOf_phrase,
      literalOf_phrase, String.ofList_toList]
    show checkCall registry referenceKey [.text _ 0, .text _ 0, .text _ 0] 0 = _
    simp only [checkCall, hfind, List.length_cons, List.length_nil, haccepts, if_true, hupper]
    rfl
  exact unplacedResult_eq_ok_iff.1 ((parse_of_lexes (lexes_referenceText cell)).trans hphrase)

/-- The reference leads to the cell. -/
theorem Scope.target_referenceTo {scope : Scope} {cell : CellSite} (hc : scope.workbook.Contains cell)
    (site : Option RowSite) : scope.target site (referenceTo cell) = .ok cell := by
  have hsheet : scope.workbook.sheetByName? cell.site.sheet.name = some cell.site.sheet :=
    find?_key scope.workbook.names_nodup hc.1
  have hrow : cell.site.sheet.findRow? (.named cell.site.row.id) = some cell.site.index := by
    have hindex : cell.site.sheet.rowIndex? cell.site.row.id = some cell.site.index :=
      Sheet.rowIndex?_id cell.site.index
    rw [Sheet.findRow?, hindex]
    rfl
  have hcolumn : cell.site.sheet.columnByName? cell.column.name = some cell.column :=
    find?_key cell.site.sheet.columnNames_nodup hc.2
  show scope.cellOfSheet _ _ _ = _
  simp only [Scope.cellOfSheet, hsheet, orMissing, bind, Except.bind, hrow, hcolumn]

/-! ## Two ways to a cell -/

namespace Engine

variable {engine : Engine} {w : Workbook} {cell : CellSite} {body : String}

/-- Outcomes that are alike have the same value or the same class of failure. -/
theorem outcomeOf_alike {o o' : Except Failure CellValue} (h : Alike o o') (after after' : Walk) :
    (outcomeOf (o >>= engine.checkResult, after)).value? = (outcomeOf (o' >>= engine.checkResult, after')).value? ∧
      (outcomeOf (o >>= engine.checkResult, after)).code? = (outcomeOf (o' >>= engine.checkResult, after')).code? := by
  rcases h with rfl | ⟨⟨limit, rfl⟩, limit', rfl⟩
  · cases o' >>= engine.checkResult <;> exact ⟨rfl, rfl⟩
  · exact ⟨rfl, rfl⟩

/-- A reference to a formula cell has the value that the body of the cell has, inside the cell. -/
theorem value_referenceTo {scope : Scope} (hc : scope.workbook.Contains cell) (hb : cell.source = .formula body)
    (registry : Registry) (site : Option RowSite) {start : Walk} (hm : start.memo = none) :
    scope.value registry site (.ref (referenceTo cell)) start =
      Eval.within cell.visit (scope.chained registry scope.options.maxDepth body cell.site) start := by
  have hread : scope.value registry site (.ref (referenceTo cell)) =
      Scope.cellValue (scope.chained registry scope.options.maxDepth) cell := by
    show scope.read _ site (referenceTo cell) = _
    rw [Scope.read, Scope.target_referenceTo hc, Eval.ofExcept_ok_bind]
  have hinside : FailsWith (fun f => f.isFinal = false) start.guard
      (Eval.within cell.visit (scope.chained registry scope.options.maxDepth body cell.site)) :=
    .within (fun _ => rfl) (fun _ => rfl) fun inside _ => failsWith_chained scope registry _ inside body cell.site
  rw [hread, Scope.cellValue_formula hb, formulaValue_plain hm, remember_plain (hinside start rfl hm).2.1]

/-- The first level of a chain: the body of a cell is parsed, and what it refers to has the other levels. -/
theorem chained_first (scope : Scope) (registry : Registry) : ∃ room, scope.options.maxDepth = room + 1 ∧
    ∀ body site, scope.chained registry scope.options.maxDepth body site =
      Eval.ofExcept ((parse registry body).mapError .parse) >>= fun e =>
        e.eval registry (scope.read (scope.chained registry room) (some site)) := by
  have hpos := scope.options.maxDepth_pos
  refine ⟨scope.options.maxDepth - 1, (Nat.sub_add_cancel hpos).symm, fun body site => ?_⟩
  rw [← Nat.sub_add_cancel hpos, Scope.chained, Nat.add_sub_cancel]

/-- Inside a cell it is of no account whether its body is evaluated as a formula or as the body of a cell: the
recursion has one level less for the body of a cell, and the guard has no more room. -/
theorem parallel_body (scope : Scope) {registry : Registry} (cell : CellSite) {e : Expr}
    (he : parse registry body = .ok e) :
    Parallel [] ⟨scope.options.maxDepth, []⟩ (Eval.within cell.visit (scope.value registry (some cell.site) e))
      (Eval.within cell.visit (scope.chained registry scope.options.maxDepth body cell.site)) := by
  obtain ⟨room, hroom, hchained⟩ := chained_first scope registry
  rw [hchained, he]
  refine .within List.not_mem_nil fun inside hinside => ?_
  have hdepth : inside.depth = 1 := Guard.depth_enter hinside
  have hlimit : inside.limit = scope.options.maxDepth := by rw [(Guard.enter_ok hinside).2.2]
  have hclosed : scope.Closed registry fun _ => True := fun _ _ _ _ _ _ _ _ _ _ => trivial
  exact parallel_eval hclosed (fun _ _ _ _ => List.not_mem_nil) scope.options.maxDepth room (by omega) (by omega)
    fun _ _ _ _ => trivial

/-- Inside a cell a body that is no expression fails, since there is room for one cell. -/
theorem within_body_error (scope : Scope) {registry : Registry} (cell : CellSite) {e : ParseError}
    (he : parse registry body = .error e) {start : Walk} (hg : start.guard = ⟨scope.options.maxDepth, []⟩) :
    (Eval.within cell.visit (scope.chained registry scope.options.maxDepth body cell.site) start).1 =
      .error (.parse e) := by
  obtain ⟨room, -, hchained⟩ := chained_first scope registry
  have henter := Guard.enter_first (Int.natCast_pos.2 scope.options.maxDepth_pos) cell.visit
  rw [hchained, he, Eval.within_ok (hg ▸ henter)]
  rfl

/-- A pass stops at a body that is no expression. -/
theorem steps_body_error (hc : w.Contains cell) {f : Failure} (hread : engine.read body = .error f) :
    engine.steps (some (contextOf w cell)) body (engine.start none) = (.error f, engine.start none) := by
  rw [steps_contextOf hc]
  exact stepsWith_of_read_error hread _

/-- A pass evaluates a body inside its cell. -/
theorem steps_body (hc : w.Contains cell) {e : Expr} (he : parse engine.registry body = .ok e)
    (htext : e.isText = false) {o : Except Failure CellValue} {after : Walk}
    (hrun : Eval.within cell.visit (Scope.value ⟨w, engine.options⟩ engine.registry (some cell.site) e)
      (engine.start none) = (o, after)) :
    engine.steps (some (contextOf w cell)) body (engine.start none) = (o >>= engine.checkResult, after) := by
  obtain ⟨e₀, hread, he₀⟩ := read_of_parse he htext
  rw [steps_contextOf hc]
  refine stepsWith_of_read_ok hread ?_
  rw [Scope.value_of_unplaced he₀]
  exact hrun

/-- A reference to a formula cell evaluates the body inside the cell, parsed as it is. -/
theorem steps_referenceText (hc : w.Contains cell) (hb : cell.source = .formula body) {spec : FunctionSpec}
    (hfind : engine.registry.find? referenceKey = some spec) (haccepts : spec.accepts 3 = true) {c : Context}
    {site : RowSite} (hw : c.workbook = w) (hsite : c.site = .ok site) (hcolumn : c.column = none)
    {o : Except Failure CellValue} {after : Walk}
    (hrun : Eval.within cell.visit (Scope.chained ⟨w, engine.options⟩ engine.registry engine.options.maxDepth body
      cell.site) (engine.start none) = (o, after)) :
    engine.steps (some c) (referenceText cell) (engine.start none) = (o >>= engine.checkResult, after) := by
  subst hw
  obtain ⟨e, hparse, he⟩ := parse_referenceText hfind haccepts cell
  have htext : e.isText = false := by
    rw [← e.isText_unplaced, he]
    rfl
  have hvalue : Scope.value ⟨c.workbook, engine.options⟩ engine.registry (some site) e (engine.start none) =
      Eval.within cell.visit (Scope.chained ⟨c.workbook, engine.options⟩ engine.registry engine.options.maxDepth body
        cell.site) (engine.start none) :=
    (congrFun (Scope.value_of_unplaced he) _).trans (value_referenceTo hc hb engine.registry (some site) rfl)
  exact steps_of_parse hsite hcolumn hparse htext (hvalue.trans hrun)

/-- **A formula cell and a reference to it** come to the same if the body of the cell stands alone. -/
theorem evaluate_referenceText (hc : w.Contains cell) (hb : cell.source = .formula body)
    (halone : StandsAlone engine.registry body) {spec : FunctionSpec}
    (hfind : engine.registry.find? referenceKey = some spec) (haccepts : spec.accepts 3 = true) {c : Context}
    {site : RowSite} (hw : c.workbook = w) (hsite : c.site = .ok site) (hcolumn : c.column = none) :
    (engine.evaluate (some (contextOf w cell)) body).value? =
        (engine.evaluate (some c) (referenceText cell)).value? ∧
      (engine.evaluate (some (contextOf w cell)) body).code? =
        (engine.evaluate (some c) (referenceText cell)).code? := by
  rcases hrun : Eval.within cell.visit (Scope.chained ⟨w, engine.options⟩ engine.registry engine.options.maxDepth body
    cell.site) (engine.start none) with ⟨o, after⟩
  have hcall := steps_referenceText hc hb hfind haccepts hw hsite hcolumn hrun
  cases he : parse engine.registry body with
  | error e =>
    obtain ⟨f, hread, hcode⟩ := halone.read_error he
    have hfails := within_body_error ⟨w, engine.options⟩ cell he (rfl : (engine.start none).guard = _)
    obtain rfl : o = .error (.parse e) := (congrArg Prod.fst hrun).symm.trans hfails
    rw [evaluate_eq, evaluate_eq, steps_body_error hc hread, hcall]
    exact ⟨rfl, congrArg some hcode⟩
  | ok e =>
    rcases hpass : Eval.within cell.visit (Scope.value ⟨w, engine.options⟩ engine.registry (some cell.site) e)
      (engine.start none) with ⟨p, after'⟩
    obtain ⟨-, p', halike, hrun'⟩ := (parallel_body ⟨w, engine.options⟩ cell he).apply rfl hpass
    rw [Guard.under_nil] at hrun'
    obtain rfl : p' = o := congrArg Prod.fst (hrun'.symm.trans hrun)
    rw [evaluate_eq, evaluate_eq, steps_body hc he (halone.notText e he) hpass, hcall]
    exact outcomeOf_alike halike _ _

end Engine

/-- A sheet is found by its name where no other sheet has the name as its identifier. -/
theorem Workbook.sheet?_name {w : Workbook} (hnames : ∀ s ∈ w.sheets, ∀ t ∈ w.sheets, s.id = t.name → s = t) {s : Sheet}
    (hs : s ∈ w.sheets) : w.sheet? s.name = some s := by
  have hname : w.sheetByName? s.name = some s := find?_key w.names_nodup hs
  cases hid : w.sheetById? s.name with
  | none => simp [Workbook.sheet?, hid, hname]
  | some t =>
    have hkey : t.id = s.name := by simpa using List.find?_some hid
    obtain rfl := hnames t (List.mem_of_find?_eq_some hid) s hs hkey
    simp [Workbook.sheet?, hid]

/-- **A pass over a sheet without a memo and a reference to one of its formula cells**, made anywhere in the workbook,
come to the same value or the same class of failure, if the body of the cell stands alone. -/
theorem Engine.computeSheet_reference (engine : Engine) {spec : FunctionSpec}
    (hfind : engine.registry.find? referenceKey = some spec) (haccepts : spec.accepts 3 = true) {w : Workbook}
    (hnames : ∀ s ∈ w.sheets, ∀ t ∈ w.sheets, s.id = t.name → s = t) {cell : CellSite} (hc : w.Contains cell)
    {body : String} (hb : cell.source = .formula body) (halone : StandsAlone engine.registry body) {sheet : Sheet}
    (hsheet : w.sheet? cell.site.sheet.name = some sheet) {computed : ComputedSheet}
    (h : (engine.computeSheet w sheet false).1 = .ok computed) {c : Context} {site : RowSite} (hw : c.workbook = w)
    (hsite : c.site = .ok site) (hcolumn : c.column = none) :
    ∃ o, (∀ o', (cell.site.row, cell.column, o') ∈ computed.outcomes ↔ o' = o) ∧
      o.value? = (engine.evaluate (some c) (referenceText cell)).value? ∧
        o.code? = (engine.evaluate (some c) (referenceText cell)).code? := by
  rw [Workbook.sheet?_name hnames hc.1] at hsheet
  obtain rfl := Option.some.inj hsheet
  have hrow : cell.site.row ∈ cell.site.sheet.rows := List.getElem_mem _
  exact ⟨_, fun o' => mem_outcomes_iff h hrow hc.2 hb, evaluate_referenceText hc hb halone hfind haccepts hw hsite hcolumn⟩

/-! ## References on the ledger -/

section Ledger

/-- The column of notes. -/
def noteColumn : Column := ⟨"note", "Note", .general, none⟩

/-- A note that is a string literal behind a marker. -/
def literalNote : String := "=\"abc\""

/-- The cell of the note. -/
def literalCell : CellSite := ledgerCell literalNote noteColumn

theorem standsAlone_net : StandsAlone .standard "Net" where
  ends := ⟨[], [], by decide, rfl, rfl⟩
  unmarked := by decide
  notText := by
    intro e he
    rw [parse_net] at he
    cases he
    rfl

theorem ledger_names (note : String) :
    ∀ s ∈ (ledger note).sheets, ∀ t ∈ (ledger note).sheets, s.id = t.name → s = t := by
  intro s hs t ht _
  rw [List.mem_singleton.1 hs, List.mem_singleton.1 ht]

/-- The gross amount of the ledger by the pass and by reference. -/
theorem computeSheet_reference_ledger :
    ∃ o, (∀ o', ((ledgerSheet "paid").rows[0], grossColumn, o') ∈ ComputedSheet.outcomes ⟨ledgerSheet "paid",
        [⟨(ledgerSheet "paid").rows[0], ledgerColumns.zip [.literal (.text "one"), .literal (.text "five"),
          .literal (.text "paid"), .formula (.success (.text "five") []), .formula (.success (.text "five") [])]⟩]⟩ ↔
        o' = o) ∧
      o.value? = (Engine.evaluate {} (some (ledgerContext none)) "REF(\"Books\", \"first\", \"Gross\")").value? ∧
        o.code? = (Engine.evaluate {} (some (ledgerContext none)) "REF(\"Books\", \"first\", \"Gross\")").code? := by
  have haccepts : (Registry.standard.find? referenceKey).map (fun spec => spec.accepts 3) = some true := by decide
  obtain ⟨spec, hfind, hspec⟩ := Option.map_eq_some_iff.1 haccepts
  have hcomputed : (Engine.computeSheet {} (ledger "paid") (ledgerSheet "paid") false).1 =
      .ok ⟨ledgerSheet "paid", [⟨(ledgerSheet "paid").rows[0], ledgerColumns.zip [.literal (.text "one"),
        .literal (.text "five"), .literal (.text "paid"), .formula (.success (.text "five") []),
        .formula (.success (.text "five") [])]⟩]⟩ := by cbv
  have hc : (ledger "paid").Contains (ledgerCell "paid" grossColumn) :=
    ⟨List.mem_singleton.2 rfl, by simp [ledgerCell, ledgerSheet, ledgerColumns]⟩
  exact Engine.computeSheet_reference {} hfind hspec (ledger_names "paid") hc (source_gross "paid") standsAlone_net rfl
    hcomputed rfl rfl rfl

/-- A string literal is refused by the pass and read by a reference. -/
theorem computeSheet_reference_literal : ¬∀ (options : Options) (w : Workbook) (cell : CellSite) (body : String)
    (sheet : Sheet) (computed : ComputedSheet) (c : Context) (site : RowSite) (o : Outcome),
    (∀ s ∈ w.sheets, ∀ t ∈ w.sheets, s.id = t.name → s = t) → w.Contains cell → cell.source = .formula body →
      w.sheet? cell.site.sheet.name = some sheet →
        (Engine.computeSheet ⟨.standard, options⟩ w sheet false).1 = .ok computed → c.workbook = w → c.site = .ok site →
          c.column = none → (cell.site.row, cell.column, o) ∈ computed.outcomes →
            o.value? = (Engine.evaluate ⟨.standard, options⟩ (some c) (referenceText cell)).value? ∧
              o.code? = (Engine.evaluate ⟨.standard, options⟩ (some c) (referenceText cell)).code? := by
  intro h
  have hsource : literalCell.source = .formula "\"abc\"" := by cbv
  have hc : (ledger literalNote).Contains literalCell :=
    ⟨List.mem_singleton.2 rfl, by simp [literalCell, ledgerCell, ledgerSheet, ledgerColumns, noteColumn]⟩
  have hpasses : (Engine.computeSheet {} (ledger literalNote) (ledgerSheet literalNote) false).1.map (fun _ => ()) =
      .ok () := by decide +kernel
  obtain ⟨computed, hcomputed, -⟩ := map_eq_ok_iff.1 hpasses
  have hpass : Engine.evaluate {} (some ⟨ledger literalNote, "books", "first", some "note"⟩) "\"abc\"" =
      .failed .bareText := by decide +kernel
  have hreference : Engine.evaluate {} (some ⟨ledger literalNote, "books", "first", none⟩)
      (referenceText literalCell) = .success (.text "abc") [] := by decide +kernel
  have hrow : literalCell.site.row ∈ (ledgerSheet literalNote).rows := List.mem_singleton.2 rfl
  have hmem := (Engine.mem_outcomes_iff hcomputed hrow hc.2 hsource).2 hpass.symm
  have hsame := h .standard (ledger literalNote) literalCell _ _ _ ⟨ledger literalNote, "books", "first", none⟩ _ _
    (ledger_names _) hc hsource rfl hcomputed rfl rfl rfl hmem
  have hvalue := hsame.1.trans (congrArg Outcome.value? hreference)
  cases hvalue

end Ledger

end GameSheet
