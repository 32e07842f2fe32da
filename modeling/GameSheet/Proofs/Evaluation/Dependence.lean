import GameSheet.Proofs.Evaluation.Composition
import GameSheet.Proofs.Workbook.Twins

/-!
# What a value depends on

The references of an expression name the cells that its value may depend on: the cells they lead to, and in turn the
cells to which the references in the formulas of these cells lead (`Scope.Depends`). Nothing else is read.

**`Engine.evaluate_congr`**: in two workbooks of one shape that agree in the columns by which rows are found and in all
cells that a formula may depend on, the formula has the same outcome, whether it is a value or a failure.

The runs in both workbooks are the same function of the state of the evaluation (`Scope.cellValue_congr`), so cycles,
refused depths, branches that are not evaluated and recoveries need no cases of their own.
-/

namespace GameSheet

open Formula

namespace Scope

/-- The cells that the value of an expression at a row may depend on. -/
inductive Depends (scope : Scope) (registry : Registry) (site : Option RowSite) (e : Expr) : CellSite → Prop
  | direct {r : Reference} {cell : CellSite} :
      r ∈ e.references → scope.target site r = .ok cell → Depends scope registry site e cell
  | chained {cell next : CellSite} {body : String} {formula : Expr} {r : Reference} :
      Depends scope registry site e cell → cell.source = .formula body → parse registry body = .ok formula →
        r ∈ formula.references → scope.target (some cell.site) r = .ok next → Depends scope registry site e next

/-- Some cells with all the cells that their formulas refer to. -/
def Closed (scope : Scope) (registry : Registry) (D : CellSite → Prop) : Prop :=
  ∀ cell body e r next, D cell → cell.source = .formula body → parse registry body = .ok e → r ∈ e.references →
    scope.target (some cell.site) r = .ok next → D next

theorem closed_depends (scope : Scope) (registry : Registry) (site : Option RowSite) (e : Expr) :
    scope.Closed registry (scope.Depends registry site e) :=
  fun _ _ _ _ _ hcell hbody hparse hr hnext => .chained hcell hbody hparse hr hnext

/-! ## Two runs -/

section Runs

variable {options : Options} {registry : Registry} {w w' : Workbook} {D : CellSite → Prop}

/-- Readings of a reference agree if the values of the cells do to which it leads. -/
theorem read_congr (keys : w.SameKeys options w') {site site' : Option RowSite}
    (hsite : Option.Rel (RowTwin w w') site site') {evaluate evaluate' : Evaluator} {r : Reference}
    (hcells : ∀ c c', Scope.target ⟨w, options⟩ site r = .ok c → CellTwin w w' c c' →
      cellValue evaluate c = cellValue evaluate' c') :
    Scope.read ⟨w, options⟩ evaluate site r = Scope.read ⟨w', options⟩ evaluate' site' r :=
  Matched.bind_congr (keys.target hsite r) hcells

/-- The values of corresponding cells agree if those of their bodies do. -/
theorem cellValue_congr {evaluate evaluate' : Evaluator} {c c' : CellSite} (twin : CellTwin w w' c c')
    (agree : w.content? c.key = w'.content? c.key)
    (hbody : ∀ body, c.source = .formula body → evaluate body c.site = evaluate' body c'.site) :
    cellValue evaluate c = cellValue evaluate' c' :=
  cellValue_eq twin.key_eq twin.label_eq (twin.source_eq agree) hbody

/-- The same with any number of levels, in a closed set of cells in which the data agrees. -/
theorem chained_congr (keys : w.SameKeys options w') (closed : Scope.Closed ⟨w, options⟩ registry D)
    (agree : ∀ c, D c → w.content? c.key = w'.content? c.key) (room : Nat) : ∀ {c c' : CellSite},
      CellTwin w w' c c' → D c → cellValue (Scope.chained ⟨w, options⟩ registry room) c =
        cellValue (Scope.chained ⟨w', options⟩ registry room) c' := by
  induction room with
  | zero =>
    intro c c' twin hc
    exact cellValue_congr twin (agree c hc) fun _ _ => rfl
  | succ room ih =>
    intro c c' twin hc
    refine cellValue_congr twin (agree c hc) fun body hb => Eval.bind_congr fun e he => eval_congr fun r hr =>
      read_congr keys (.some twin.site) fun d d' hd htwin => ih htwin ?_
    exact closed c body e r d hc hb (ok_of_mapError he.of_ofExcept) hr hd

/-- The values of an expression at corresponding rows agree if the data agrees in the cells it may depend on. -/
theorem value_congr (keys : w.SameKeys options w') {site site' : Option RowSite}
    (hsite : Option.Rel (RowTwin w w') site site') {e : Expr}
    (agree : ∀ c, Scope.Depends ⟨w, options⟩ registry site e c → w.content? c.key = w'.content? c.key) :
    Scope.value ⟨w, options⟩ registry site e = Scope.value ⟨w', options⟩ registry site' e :=
  eval_congr fun _ hr => read_congr keys hsite fun _ _ hd htwin =>
    chained_congr keys (closed_depends _ _ _ _) agree _ htwin (.direct hr hd)

end Runs

end Scope

/-! ## Formulas -/

namespace Engine

/-- The values of an expression at corresponding rows agree, also inside the cell of a column that it belongs to. -/
theorem valueAt_congr (engine : Engine) {w w' : Workbook} (keys : w.SameKeys engine.options w') {site site' : RowSite}
    (hss : RowTwin w w' site site') (column : Option String) {e : Expr}
    (agree : ∀ c, Scope.Depends ⟨w, engine.options⟩ engine.registry (some site) e c →
      w.content? c.key = w'.content? c.key) :
    engine.valueAt w (some site) column e = engine.valueAt w' (some site') column e := by
  have hvalue := Scope.value_congr keys (.some hss) agree
  cases column with
  | none => exact hvalue
  | some id =>
    refine (hss.ownCell id).bind_congr fun c c' _ htwin => ?_
    rw [htwin.key_eq, htwin.label_eq, hvalue]

/-- **A formula depends on nothing but the cells that its references name, directly or through other formulas.** -/
theorem evaluate_congr (engine : Engine) {w w' : Workbook} (keys : w.SameKeys engine.options w')
    {sheet row : String} {column : Option String} {formula : String}
    (agree : ∀ site e, Context.site ⟨w, sheet, row, column⟩ = .ok site →
      parse engine.registry (stripMarker formula) = .ok e →
        ∀ c, Scope.Depends ⟨w, engine.options⟩ engine.registry (some site) e c →
          w.content? c.key = w'.content? c.key) :
    engine.evaluate (some ⟨w, sheet, row, column⟩) formula = engine.evaluate (some ⟨w', sheet, row, column⟩) formula := by
  have hsteps : engine.steps (some ⟨w, sheet, row, column⟩) formula =
      engine.steps (some ⟨w', sheet, row, column⟩) formula := by
    refine (keys.site sheet row column).some.bind_congr fun site? site?' hfound hss => ?_
    obtain ⟨site, hsite, heq⟩ := bind_eq_ok_iff.1 hfound
    cases heq
    cases hss with
    | some hss =>
      refine Eval.bind_congr fun e he => ?_
      rw [Option.elim_some, Option.elim_some, Option.bind_some, Option.bind_some, engine.valueAt_congr keys hss column
        (agree site e hsite (parse_of_read he.of_ofExcept))]
  simp only [evaluate, evaluateWith, hsteps, start]

end Engine

/-! ## A ledger with a note -/

section Ledger

/-- The note is no key, and no other cell differs. -/
theorem ledger_content? {note note' : String} {c : CellSite} (h : (ledger note).Contains c)
    (hc : c.column.name ≠ "Note") : (ledger note).content? c.key = (ledger note').content? c.key := by
  obtain ⟨hcell, hcolumn⟩ := eq_ledgerCell h
  rw [hcell]
  simp only [ledgerColumns, List.mem_cons, List.not_mem_nil, or_false] at hcolumn
  rcases hcolumn with hcol | hcol | hcol | hcol | hcol
  · rw [hcol]; rfl
  · rw [hcol]; rfl
  · exact absurd (by rw [hcol]) hc
  · rw [hcol]; rfl
  · rw [hcol]; rfl

theorem ledger_sameKeys (note note' : String) : Workbook.SameKeys .standard (ledger note) (ledger note') where
  shape := .cons ⟨rfl, rfl, rfl, rfl⟩ .nil
  keys c hc hfinds := by
    refine ledger_content? hc fun hname => ?_
    obtain ⟨hcell, -⟩ := eq_ledgerCell hc
    rcases hfinds with ⟨hsettings, -⟩ | hkey
    · rw [hcell] at hsettings
      have : "Books" ≠ "Settings" := by decide
      exact absurd hsettings this
    · rw [hname] at hkey
      exact absurd hkey (by decide)

/-- The gross amount depends on the net amount and not on the note. -/
theorem ledger_depends {note : String} {c : CellSite}
    (h : Scope.Depends ⟨ledger note, .standard⟩ .standard (some ⟨ledgerSheet note, ⟨0, Nat.one_pos⟩⟩)
      (.ref (.column "Gross" 0)) c) :
    c = ledgerCell note grossColumn ∨
      c = ledgerCell note netColumn := by
  induction h with
  | direct hr htarget =>
    obtain rfl := List.mem_singleton.1 hr
    cases htarget
    exact .inl rfl
  | chained _ hbody hparse hr htarget ih =>
    rcases ih with rfl | rfl
    · rw [source_gross] at hbody
      cases hbody
      rw [parse_net] at hparse
      cases hparse
      obtain rfl := List.mem_singleton.1 hr
      cases htarget
      exact .inr rfl
    · rw [source_net] at hbody
      cases hbody

/-- A gross amount is the same whatever the note says. -/
theorem evaluate_congr_ledger :
    Engine.evaluate {} (some ⟨ledger "paid", "books", "first", none⟩) "Gross" =
      Engine.evaluate {} (some ⟨ledger "open", "books", "first", none⟩) "Gross" := by
  refine Engine.evaluate_congr {} (ledger_sameKeys _ _) fun site e hsite hparse c hc => ?_
  cases hsite
  have hgross : stripMarker "Gross" = "Gross" := by decide
  rw [hgross, parse_gross] at hparse
  cases hparse
  rcases ledger_depends hc with rfl | rfl
  · rfl
  · rfl

end Ledger

end GameSheet
