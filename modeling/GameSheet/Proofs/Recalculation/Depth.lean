import GameSheet.Proofs.Evaluation.Known
import GameSheet.Proofs.Function.Standard
import GameSheet.Proofs.Recalculation.Memo

/-!
# The depth of a pass with a memo

A sheet whose formulas refer only backwards, to data or to formula cells of the sheet that are computed before them, is
computed with a memo without a chain of more than two cells, however many rows it has: **`computeSheet_shallow`**.

The outcome of a formula is not kept by its own computation, only those of the cells it reads. So a cell is entered
once more by its first reader, and that is the second cell of the chain; what this cell reads was kept when it was
computed for itself. The invariant of the pass is that the memo backs every cell that has been computed (`Backed`).
-/

namespace GameSheet

open Formula

/-! ## The order of a pass -/

/-- The first cell is in the same sheet as the second one and computed before it. -/
def CellSite.Before (d c : CellSite) : Prop :=
  d.site.sheet = c.site.sheet ∧
    (d.site.index.val < c.site.index.val ∨
      d.site.index.val = c.site.index.val ∧
        d.site.sheet.columns.idxOf d.column < c.site.sheet.columns.idxOf c.column)

theorem CellSite.Before.irrefl {d c : CellSite} (h : d.Before c) : d ≠ c := by
  rintro rfl
  rcases h.2 with h | ⟨-, h⟩ <;> exact Nat.lt_irrefl _ h

/-- Every reference in a formula of the sheet leads nowhere, to data, or to a formula cell before its own. -/
def Scope.RefersBack (scope : Scope) (registry : Registry) (sheet : Sheet) : Prop :=
  ∀ cell, scope.workbook.Contains cell → cell.site.sheet = sheet → ∀ body e, cell.source = .formula body →
    parse registry body = .ok e → ∀ r ∈ e.references, ∀ next, scope.target (some cell.site) r = .ok next →
      ∀ body', next.source = .formula body' → next.Before cell

/-- Every integer of the workbook is a number. -/
def Workbook.IntegersFit (w : Workbook) : Prop :=
  ∀ cell, w.Contains cell → ∀ n, cell.site.row.cell cell.column.id = .int n → ∃ x, floatOfInt n = .ok x

section Fit

variable {w : Workbook}

/-- The data of a cell is a value if the integers are numbers. -/
theorem Workbook.IntegersFit.value (h : w.IntegersFit) {cell : CellSite} (hc : w.Contains cell) {raw : RawCell}
    (hs : cell.source = .literal raw) : ∃ v, raw.value = .ok v :=
  (Row.value_of_source hs).2 (h cell hc)

theorem Workbook.IntegersFit.settingName (h : w.IntegersFit) {cell : CellSite} (hc : w.Contains cell) :
    ∃ name, (cell.site.row.cell cell.column.id).settingName = .ok name := by
  cases hraw : cell.site.row.cell cell.column.id with
  | int n =>
    obtain ⟨x, hx⟩ := h cell hc n hraw
    exact ⟨_, by simp only [RawCell.settingName, hx]; rfl⟩
  | _ => exact ⟨_, rfl⟩

/-- If the integers are numbers, a search fails only because something is missing. -/
theorem Workbook.IntegersFit.missing (h : w.IntegersFit) {α : Type} {x : Except Failure α} (hx : Searches w x)
    {f : Failure} (hf : x = .error f) : ∃ m, f = .reference m := by
  refine (hx f hf).resolve_right ?_
  rintro ⟨e, cell, -, hc, he⟩
  obtain ⟨name, hname⟩ := h.settingName hc
  rw [hname] at he
  cases he

/-- A reference that leads nowhere fails in a way that is kept. -/
theorem Workbook.IntegersFit.isKept_target {scope : Scope} (h : scope.workbook.IntegersFit) {site : Option RowSite}
    {r : Reference} {f : Failure} (hf : scope.target site r = .error f) : f.isKept = true := by
  obtain ⟨m, rfl⟩ := h.missing Scope.searches_target hf
  rfl

end Fit

/-! ## One formula -/

namespace Engine

variable {options : Options} {w : Workbook}

/-- The engine with all built-in functions. -/
def standard (options : Options) : Engine := ⟨.standard, options⟩

/-- A formula that refers backwards is computed with a chain of two, and then the memo backs it. -/
theorem value_shallow (hfit : w.IntegersFit) (hdepth : 2 ≤ options.maxDepth) {cell : CellSite} (hc : w.Contains cell)
    {body : String} (hb : cell.source = .formula body) {e : Expr} (he : parse Registry.standard body = .ok e)
    (hback : Scope.RefersBack ⟨w, options⟩ .standard cell.site.sheet) {known : Memo} (hkept : KeepsKept known)
    (hbacks : ∀ d, w.Contains d → d.Before cell → Scope.Backs ⟨w, options⟩ .standard known d) :
    ∃ o after known', Eval.within ⟨cell.key, cell.label⟩ (Scope.value ⟨w, options⟩ .standard (some cell.site) e)
      ((standard options).start (some known)) = (o, after) ∧ Kept o ∧ after.memo = some known' ∧ KeepsKept known' ∧
        Extends known known' ∧ Scope.Backs ⟨w, options⟩ .standard known' cell := by
  have hentered : Guard.enter ⟨options.maxDepth, []⟩ ⟨cell.key, cell.label⟩ =
      .ok ⟨options.maxDepth, [⟨cell.key, cell.label⟩]⟩ := by
    have : options.maxDepth ≠ 0 := by omega
    simp [Guard.enter, Guard.visiting, Guard.depth, this]
  obtain ⟨room, hroom⟩ : ∃ room, options.maxDepth = room + 1 := ⟨options.maxDepth - 1, by omega⟩
  have hreads : ∀ r ∈ e.references, Recorded ⟨w, options⟩ .standard ⟨options.maxDepth, [⟨cell.key, cell.label⟩]⟩
      (fun d => w.Contains d ∧ d.Before cell)
      (Scope.read ⟨w, options⟩ (Scope.chained ⟨w, options⟩ .standard options.maxDepth) (some cell.site) r)
      fun known => Scope.knownRead ⟨w, options⟩ known (some cell.site) r := by
    refine fun r hr => recorded_read (fun f hf => hfit.isKept_target hf) fun next hnext => ?_
    have hcontains : w.Contains next := Scope.contains_of_target (fun s hs => by cases hs; exact hc.1) hnext
    rw [show Scope.chained ⟨w, options⟩ .standard options.maxDepth = Scope.chained ⟨w, options⟩ .standard (room + 1) by
      rw [hroom]]
    refine recorded_cell (fun raw hraw => ?_) fun body' hbody' => ?_
    · obtain ⟨v, hv⟩ := hfit.value hcontains hraw
      rw [hv]
      exact kept_ok v
    · have hbefore := hback cell hc rfl body e hb he r hr next hnext body' hbody'
      have hkey : next.key ≠ cell.key := fun hkey => hbefore.irrefl (Workbook.eq_of_key_eq hcontains hc hkey)
      refine ⟨⟨hcontains, hbefore⟩, ⟨options.maxDepth, [⟨next.key, next.label⟩, ⟨cell.key, cell.label⟩]⟩, ?_⟩
      have hroom' : ¬(room + 1 : Int) ≤ 1 := by omega
      simp [Guard.enter, Guard.visiting, Guard.depth, hkey, hroom, hroom']
  obtain ⟨known', hrecording⟩ := recorded_eval (fun _ => Raised.isKept_standard) e hreads
    { (standard options).start (some known) with guard := ⟨options.maxDepth, [⟨cell.key, cell.label⟩]⟩ } known
    ⟨rfl, rfl, hkept, fun d hd => hbacks d hd.1 hd.2⟩
  refine ⟨_, _, known', Eval.within_ok hentered _, hrecording.outcome, hrecording.prepared.memo,
    hrecording.prepared.kept, hrecording.grown, fun body' hbody' => ⟨_, hrecording.outcome, fun w' => ?_⟩⟩
  obtain rfl : body = body' := Source.formula.inj (hb.symm.trans hbody')
  unfold Scope.knownBody
  rw [he]
  exact hrecording.recorded known' (.refl known') w'

/-- No failure that is kept is about the depth of a chain. -/
theorem code_ne_of_isKept {f : Failure} (h : f.isKept = true) : f.code ≠ "recursion_limit" := by
  cases f with
  | depth limit => cases h
  | parse e => cases e <;> simp [Failure.code]
  | fault function f => cases f <;> simp [Failure.code]
  | _ => simp [Failure.code]

theorem code?_ne_of_kept {r : Except Failure CellValue × Walk} (h : Kept r.1) :
    (outcomeOf r).code? ≠ some "recursion_limit" := by
  rcases r with ⟨o, after⟩
  cases o with
  | ok v => simp [outcomeOf, Outcome.code?, Outcome.failure?]
  | error f => simpa [outcomeOf, Outcome.code?, Outcome.failure?] using code_ne_of_isKept (h f rfl)

theorem kept_checkResult {engine : Engine} {o : Except Failure CellValue} (h : Kept o) :
    Kept (o >>= engine.checkResult) := by
  cases o with
  | error f => exact h
  | ok v =>
    show Kept (engine.checkResult v)
    unfold checkResult
    split
    · split
      · exact kept_error rfl
      · split
        · exact kept_error rfl
        · exact kept_ok _
    · exact kept_ok _

/-- A formula that is no expression has a failure that is kept, and any memo backs it. -/
theorem backs_of_read_error {cell : CellSite} {body : String} (hb : cell.source = .formula body)
    (hplain : stripMarker body = body) {f : Failure} (hf : (standard options).read body = .error f) (known : Memo) :
    f.isKept = true ∧ Scope.Backs ⟨w, options⟩ .standard known cell := by
  unfold Engine.read at hf
  rw [hplain] at hf
  have hbacks : ∀ o, Kept o → (∀ w', (Scope.knownBody ⟨w, options⟩ .standard known body cell.site w').1 = o) →
      Scope.Backs ⟨w, options⟩ .standard known cell := by
    intro o ho h body' hbody'
    obtain rfl : body = body' := Source.formula.inj (hb.symm.trans hbody')
    exact ⟨o, ho, h⟩
  cases hp : parse Registry.standard body with
  | error e =>
    simp only [standard, hp] at hf
    cases hf
    refine ⟨rfl, hbacks (.error (.parse e)) (kept_error rfl) fun w' => ?_⟩
    unfold Scope.knownBody
    rw [hp]
    rfl
  | ok e =>
    simp only [standard, hp] at hf
    cases e with
    | text s position =>
      cases hf
      refine ⟨rfl, hbacks (.ok (.text s)) (kept_ok _) fun w' => ?_⟩
      unfold Scope.knownBody
      rw [hp]
      rfl
    | _ => cases hf

/-- **One formula of a pass**: its chain is not too deep, and afterwards the memo backs its cell too. -/
theorem evaluateWith_shallow (hfit : w.IntegersFit) (hplain : w.PlainBodies) (hdepth : 2 ≤ options.maxDepth)
    {cell : CellSite} (hc : w.Contains cell) {body : String} (hb : cell.source = .formula body)
    (hback : Scope.RefersBack ⟨w, options⟩ .standard cell.site.sheet) {known : Memo} (hkept : KeepsKept known)
    (hbacks : ∀ d, w.Contains d → d.Before cell → Scope.Backs ⟨w, options⟩ .standard known d) :
    ((standard options).evaluateWith (some known) (some (contextOf w cell)) body).1.code? ≠ some "recursion_limit" ∧
      ∃ known', ((standard options).evaluateWith (some known) (some (contextOf w cell)) body).2 = some known' ∧
        KeepsKept known' ∧ Extends known known' ∧ Scope.Backs ⟨w, options⟩ .standard known' cell := by
  have hstrip := hplain.stripMarker_eq hc hb
  simp only [evaluateWith_eq, steps_contextOf hc]
  cases he : (standard options).read body with
  | error f =>
    obtain ⟨hf, hbacked⟩ := backs_of_read_error (w := w) hb hstrip he known
    rw [stepsWith_of_read_error he]
    exact ⟨code?_ne_of_kept (kept_error hf), known, rfl, hkept, .refl known, hbacked⟩
  | ok e =>
    have hparse : parse Registry.standard body = .ok e := by
      have := parse_of_read he
      rwa [hstrip] at this
    obtain ⟨o, after, known', hrun, ho, hmemo, hkept', hgrown, hbacked⟩ :=
      value_shallow hfit hdepth hc hb hparse hback hkept hbacks
    rw [stepsWith_of_read_ok he hrun]
    exact ⟨code?_ne_of_kept (kept_checkResult ho), known', hmemo, hkept', hgrown, hbacked⟩

end Engine

/-! ## The pass -/

section Pass

variable {options : Options} {w : Workbook} {α β : Type}

/-- The pass has a memo that backs some cells. -/
def Backed (options : Options) (w : Workbook) (D : CellSite → Prop) (pass : Pass) : Prop :=
  ∃ known, pass.memo = some known ∧ KeepsKept known ∧ ∀ d, w.Contains d → D d →
    Scope.Backs ⟨w, options⟩ .standard known d

/-- The step of a pass succeeds with what is described, and the memo backs more cells after it. -/
def PassBacks (options : Options) (w : Workbook) (D : CellSite → Prop) (x : PassStep α) (Q : α → Prop)
    (D' : CellSite → Prop) : Prop :=
  ∀ pass, Backed options w D pass → ∃ a pass', x pass = (.ok a, pass') ∧ Q a ∧ Backed options w D' pass'

theorem PassBacks.pure {D D' : CellSite → Prop} {Q : α → Prop} {a : α} (ha : Q a)
    (h : ∀ d, w.Contains d → D' d → D d) : PassBacks options w D (Pure.pure a) Q D' :=
  fun pass ⟨known, hmemo, hkept, hbacks⟩ =>
    ⟨a, pass, rfl, ha, known, hmemo, hkept, fun d hd hD => hbacks d hd (h d hd hD)⟩

theorem PassBacks.mono {D E D' : CellSite → Prop} {Q : α → Prop} {x : PassStep α} (hx : PassBacks options w D x Q D')
    (h : ∀ d, w.Contains d → D d → E d) : PassBacks options w E x Q D' :=
  fun pass ⟨known, hmemo, hkept, hbacks⟩ => hx pass ⟨known, hmemo, hkept, fun d hd hD => hbacks d hd (h d hd hD)⟩

theorem PassBacks.bind {D D' D'' : CellSite → Prop} {Q : α → Prop} {R : β → Prop} {x : PassStep α} {k : α → PassStep β}
    (hx : PassBacks options w D x Q D') (hk : ∀ a, Q a → PassBacks options w D' (k a) R D'') :
    PassBacks options w D (x >>= k) R D'' := by
  intro pass h
  obtain ⟨a, pass', hrun, ha, h'⟩ := hx pass h
  rw [passStep_bind_ok hrun]
  exact hk a ha pass' h'

/-- The cell is no formula whose chain is too deep. -/
def ComputedCell.IsShallow (c : ComputedCell) : Prop :=
  ∀ o, c = .formula o → o.code? ≠ some "recursion_limit"

/-- The cells that have been computed: those of the rows before one, and in that row those of some columns. -/
def Computed (sheet : Sheet) (i : Nat) (columns : List Column) (d : CellSite) : Prop :=
  d.site.sheet = sheet ∧ (d.site.index.val < i ∨ d.site.index.val = i ∧ d.column ∈ columns)

/-- A column before another one is among those in front of it. -/
theorem mem_of_idxOf_lt {front rest : List Column} {c d : Column}
    (h : (front ++ c :: rest).idxOf d < (front ++ c :: rest).idxOf c) : d ∈ front := by
  by_contra hd
  rw [List.idxOf_append_of_notMem hd] at h
  by_cases hc : c ∈ front
  · rw [List.idxOf_append_of_mem hc] at h
    have := List.idxOf_lt_length_of_mem hc
    omega
  · rw [List.idxOf_append_of_notMem hc, List.idxOf_cons_self] at h
    omega

/-- A cell of a row is the one of a column, or it was computed before that column. -/
theorem computed_append {site : RowSite} {front : List Column} {c : Column} {d : CellSite}
    (h : Computed site.sheet site.index (front ++ [c]) d) : Computed site.sheet site.index front d ∨ d = ⟨site, c⟩ := by
  obtain ⟨⟨sheet, index⟩, column⟩ := d
  obtain ⟨hsheet, hlt | ⟨heq, hmem⟩⟩ := h
  · exact .inl ⟨hsheet, .inl hlt⟩
  · rcases List.mem_append.1 hmem with hmem | hmem
    · exact .inl ⟨hsheet, .inr ⟨heq, hmem⟩⟩
    · obtain ⟨sheet', index'⟩ := site
      obtain rfl : sheet = sheet' := hsheet
      obtain rfl : index = index' := Fin.ext heq
      obtain rfl : column = c := List.mem_singleton.1 hmem
      exact .inr rfl

/-- One cell of a pass. -/
theorem computeCell_shallow (hfit : w.IntegersFit) (hplain : w.PlainBodies) (hdepth : 2 ≤ options.maxDepth)
    {cell : CellSite} (hc : w.Contains cell) (hback : Scope.RefersBack ⟨w, options⟩ .standard cell.site.sheet)
    {D : CellSite → Prop} (hD : ∀ d, w.Contains d → d.Before cell → D d) :
    PassBacks options w D ((Engine.standard options).computeCell w cell.site.sheet cell.site.row cell.column)
      ComputedCell.IsShallow (fun d => D d ∨ d = cell) := by
  unfold Engine.computeCell
  cases hs : cell.site.row.source cell.column with
  | literal raw =>
    obtain ⟨v, hv⟩ := hfit.value hc hs
    simp only [hv]
    rintro pass ⟨known, hmemo, hkept, hbacks⟩
    refine ⟨_, pass, rfl, fun o ho => (by cases ho), known, hmemo, hkept, fun d hd hDd => ?_⟩
    rcases hDd with hDd | rfl
    · exact hbacks d hd hDd
    · intro body hb
      cases hs.symm.trans hb
  | formula body =>
    rintro ⟨_, events⟩ ⟨known, rfl, hkept, hbacks⟩
    obtain ⟨hcode, known', hmemo', hkept', hgrown, hbacked⟩ := Engine.evaluateWith_shallow hfit hplain hdepth hc hs
      hback hkept fun d hd hbefore => hbacks d hd (hD d hd hbefore)
    refine ⟨_, _, rfl, fun o ho => ComputedCell.formula.inj ho ▸ hcode, known', hmemo', hkept', fun d hd hDd => ?_⟩
    rcases hDd with hDd | rfl
    · exact (hbacks d hd hDd).mono hgrown
    · exact hbacked

/-- The cells of a row, from some column on. -/
theorem computeCells_shallow (hfit : w.IntegersFit) (hplain : w.PlainBodies) (hdepth : 2 ≤ options.maxDepth)
    {site : RowSite} (hs : site.sheet ∈ w.sheets) (hback : Scope.RefersBack ⟨w, options⟩ .standard site.sheet) :
    ∀ (rest front : List Column), site.sheet.columns = front ++ rest →
      PassBacks options w (Computed site.sheet site.index front)
        ((Engine.standard options).computeCells w site.sheet site.row rest)
        (fun cells => ∀ c ∈ cells, c.2.IsShallow) (Computed site.sheet site.index (front ++ rest))
  | [], front, _ => .pure (by simp) fun d _ hd => by simpa using hd
  | c :: rest, front, hcolumns => by
    have hc : w.Contains ⟨site, c⟩ := ⟨hs, by simp [hcolumns]⟩
    have hearlier : ∀ d, w.Contains d → d.Before ⟨site, c⟩ → Computed site.sheet site.index front d := by
      rintro d - ⟨hsheet, hlt | ⟨heq, hlt⟩⟩
      · exact ⟨hsheet, .inl hlt⟩
      · have hlt : (front ++ c :: rest).idxOf d.column < (front ++ c :: rest).idxOf c := by
          rw [← hcolumns]
          simpa only [hsheet] using hlt
        exact ⟨hsheet, .inr ⟨heq, mem_of_idxOf_lt hlt⟩⟩
    refine (computeCell_shallow hfit hplain hdepth hc hback hearlier).bind fun cell hcell => ?_
    have hrest := computeCells_shallow hfit hplain hdepth hs hback rest (front ++ [c]) (by simp [hcolumns])
    refine (hrest.mono fun d _ hd => computed_append hd).bind fun cells hcells => .pure ?_ fun d _ hd => ?_
    · exact List.forall_mem_cons.2 ⟨hcell, hcells⟩
    · simpa using hd

/-- Some rows, from some row on. -/
theorem computeRows_shallow (hfit : w.IntegersFit) (hplain : w.PlainBodies) (hdepth : 2 ≤ options.maxDepth)
    {sheet : Sheet} (hs : sheet ∈ w.sheets) (hback : Scope.RefersBack ⟨w, options⟩ .standard sheet) :
    ∀ (rest front : List Row), sheet.rows = front ++ rest →
      PassBacks options w (Computed sheet front.length []) ((Engine.standard options).computeRows w sheet rest)
        (fun rows => ∀ r ∈ rows, ∀ c ∈ r.cells, c.2.IsShallow) fun _ => False
  | [], _, _ => .pure (by simp) fun _ _ h => h.elim
  | r :: rest, front, hrows => by
    have hindex : front.length < sheet.rows.length := by simp [hrows]
    have hrow : RowSite.row ⟨sheet, ⟨front.length, hindex⟩⟩ = r := by
      have := List.getElem_of_eq hrows hindex
      simpa [RowSite.row] using this
    let site : RowSite := ⟨sheet, ⟨front.length, hindex⟩⟩
    have hsite : site.sheet ∈ w.sheets := hs
    have hcells := computeCells_shallow hfit hplain hdepth hsite hback sheet.columns [] rfl
    rw [hrow] at hcells
    have hrest := computeRows_shallow hfit hplain hdepth hs hback rest (front ++ [r]) (by simp [hrows])
    refine hcells.bind fun cells hc => (hrest.mono fun d hd h => ?_).bind fun rows hr => .pure ?_ fun _ _ h => h
    · obtain ⟨hsheet, hlt | ⟨-, hmem⟩⟩ := h
      · refine ⟨hsheet, ?_⟩
        rw [List.length_append, List.length_singleton] at hlt
        rcases Nat.lt_succ_iff_lt_or_eq.1 hlt with hlt | heq
        · exact .inl hlt
        · exact .inr ⟨heq, by simpa [← hsheet] using hd.2⟩
      · cases hmem
    · exact List.forall_mem_cons.2 ⟨hc, hr⟩

/-- **A sheet that refers backwards is computed in chains of two**: with a memo and a limit of at least two, no formula
of the sheet fails for its depth, whatever the number of rows. -/
theorem computeSheet_shallow (options : Options) (hdepth : 2 ≤ options.maxDepth) {w : Workbook} (hfit : w.IntegersFit)
    (hplain : w.PlainBodies) {sheet : Sheet} (hs : sheet ∈ w.sheets)
    (hback : Scope.RefersBack ⟨w, options⟩ .standard sheet) :
    ∃ computed, ((Engine.standard options).computeSheet w sheet true).1 = .ok computed ∧
      ∀ outcome ∈ computed.outcomes, outcome.2.2.code? ≠ some "recursion_limit" := by
  have hstart : Backed options w (Computed sheet ([] : List Row).length []) ⟨some ∅, []⟩ := by
    refine ⟨∅, rfl, fun _ _ h => by simp at h, fun d _ hd => ?_⟩
    obtain ⟨-, hlt | ⟨-, hmem⟩⟩ := hd
    · exact absurd hlt (Nat.not_lt_zero _)
    · cases hmem
  obtain ⟨rows, pass, hrun, hshallow, -⟩ := computeRows_shallow hfit hplain hdepth hs hback sheet.rows [] rfl _ hstart
  refine ⟨⟨sheet, rows⟩, by simp only [Engine.computeSheet, if_true, hrun], fun outcome houtcome => ?_⟩
  obtain ⟨row, hrow, houtcome⟩ := List.mem_flatMap.1 houtcome
  obtain ⟨⟨column, cell⟩, hcell, houtcome⟩ := List.mem_filterMap.1 houtcome
  cases cell with
  | literal v => cases houtcome
  | formula o =>
    cases houtcome
    exact hshallow row hrow _ hcell o rfl

theorem ledger_integersFit (note : String) : (ledger note).IntegersFit := by
  intro c hc n hn
  obtain ⟨hcell, hcolumn⟩ := eq_ledgerCell hc
  rw [hcell] at hn
  simp only [ledgerColumns, List.mem_cons, List.not_mem_nil, or_false] at hcolumn
  rcases hcolumn with hcol | hcol | hcol | hcol | hcol
  all_goals
    rw [hcol] at hn
    cases hn

/-- Totals refer to gross amounts, which stand before them, and these to data. -/
theorem ledger_refersBack (options : Options) :
    Scope.RefersBack ⟨ledger "paid", options⟩ .standard (ledgerSheet "paid") := by
  intro c hc _ body e hb hparse r hr next hnext body' hbody'
  rcases ledger_bodies hc hb with ⟨rfl, rfl⟩ | ⟨rfl, rfl⟩
  · rw [parse_net] at hparse
    cases hparse
    obtain rfl := List.mem_singleton.1 hr
    cases hnext
    cases (source_net "paid").symm.trans hbody'
  · rw [parse_gross] at hparse
    cases hparse
    obtain rfl := List.mem_singleton.1 hr
    cases hnext
    exact ⟨rfl, .inr ⟨rfl, by decide⟩⟩

/-- The ledger is computed in chains of two. -/
theorem computeSheet_shallow_ledger :
    ∃ computed, ((Engine.standard { maxDepth := 2 }).computeSheet (ledger "paid") (ledgerSheet "paid") true).1 =
        .ok computed ∧
      ∀ outcome ∈ computed.outcomes, outcome.2.2.code? ≠ some "recursion_limit" :=
  computeSheet_shallow { maxDepth := 2 } (Nat.le_refl 2) (ledger_integersFit "paid") ledger_plainBodies
    (List.mem_singleton.2 rfl) (ledger_refersBack _)

end Pass

end GameSheet
