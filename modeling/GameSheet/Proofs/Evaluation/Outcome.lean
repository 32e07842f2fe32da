import GameSheet.Proofs.Evaluation.Composition
import GameSheet.Proofs.Formula.Calls
import GameSheet.Proofs.Workbook.Cells

/-!
# Outcomes and contexts

The outcome of a formula as a value, a class of failure and a message, and the steps that lead to it in a context: the
formula is read, its value is computed at the row of the context, inside the cell of the column that it belongs to if
it belongs to one, and the result is checked (`Engine.steps_of_site`).
-/

namespace GameSheet

open Formula

/-! ## Values without positions -/

namespace Formula

variable {registry : Registry} {read : Reference → Eval CellValue}

mutual

/-- The value of an expression does not depend on positions, if those of its references do not. -/
theorem Expr.eval_unplaced (h : ∀ r, read r.unplaced = read r) : ∀ e : Expr,
    e.unplaced.eval registry read = e.eval registry read
  | .number _ => rfl
  | .text _ _ => rfl
  | .ref r => h r
  | .negate e => by rw [Expr.unplaced, Expr.eval, Expr.eval, Expr.eval_unplaced h e, e.isText_unplaced]
  | .binary op l r => by
    rw [Expr.unplaced, Expr.eval, Expr.eval, Expr.eval_unplaced h l, Expr.eval_unplaced h r, l.isText_unplaced,
      r.isText_unplaced]
  | .call name args _ => by rw [Expr.unplaced, Expr.eval, Expr.eval, Expr.operands_unplaced h args]

/-- The operands that expressions are do not depend on positions. -/
theorem Expr.operands_unplaced (h : ∀ r, read r.unplaced = read r) : ∀ es : List Expr,
    Expr.operands registry read (Expr.unplacedAll es) = Expr.operands registry read es
  | [] => rfl
  | e :: rest => by
    rw [Expr.unplacedAll, Expr.operands, Expr.operands, Expr.eval_unplaced h e, e.isText_unplaced,
      Expr.operands_unplaced h rest]

end

end Formula

namespace Scope

variable {scope : Scope} {registry : Registry} {site : Option RowSite}

/-- A reference leads to the same cell from wherever in a text. -/
theorem target_unplaced (r : Reference) : scope.target site r.unplaced = scope.target site r := by
  cases r <;> rfl

/-- The value of an expression does not depend on positions. -/
theorem value_unplaced (e : Expr) : scope.value registry site e.unplaced = scope.value registry site e :=
  Expr.eval_unplaced (fun _ => by rw [read, read, target_unplaced]) e

/-- Expressions that differ in their positions have one value. -/
theorem value_of_unplaced {e e' : Expr} (h : e.unplaced = e'.unplaced) :
    scope.value registry site e = scope.value registry site e' := by
  rw [← value_unplaced e, h, value_unplaced]

end Scope

/-! ## Outcomes -/

namespace Outcome

/-- The class of the failure, if there is one. -/
def code? (o : Outcome) : Option String :=
  o.failure?.map Failure.code

/-- The failure in words, if there is one. -/
def message? (o : Outcome) : Option String :=
  o.failure?.map Failure.message

/-- An outcome with a class is a failure of the class. -/
theorem exists_failed_of_code? {o : Outcome} {code : String} (h : o.code? = some code) :
    ∃ f, o = .failed f ∧ f.code = code := by
  cases o with
  | success v ws => cases h
  | failed f => exact ⟨f, rfl, Option.some.inj h⟩

end Outcome

namespace Engine

variable {engine : Engine} {w : Workbook}

/-- The outcome at the end of an evaluation. -/
def outcomeOf : Except Failure CellValue × Walk → Outcome
  | (.ok v, after) => .success v after.warnings
  | (.error f, _) => .failed f

theorem evaluateWith_eq (memo : Option Memo) (context : Option Context) (formula : String) :
    engine.evaluateWith memo context formula =
      (outcomeOf (engine.steps context formula (engine.start memo)),
        (engine.steps context formula (engine.start memo)).2.memo) := by
  unfold evaluateWith
  rcases engine.steps context formula (engine.start memo) with ⟨o, after⟩
  cases o <;> rfl

theorem evaluate_eq (context : Option Context) (formula : String) :
    engine.evaluate context formula = outcomeOf (engine.steps context formula (engine.start none)) := by
  rw [evaluate, evaluateWith_eq]

/-- An evaluation that fails ends in the failure. -/
theorem steps_of_evaluate {context : Option Context} {formula : String} {f : Failure}
    (h : engine.evaluate context formula = .failed f) :
    (engine.steps context formula (engine.start none)).1 = .error f := by
  rw [evaluate_eq] at h
  rcases hrun : engine.steps context formula (engine.start none) with ⟨o, after⟩
  rw [hrun] at h
  cases o with
  | ok v => cases h
  | error f' =>
    cases h
    rfl

/-- What becomes of a value or a failure at the end of an evaluation, in some state. -/
theorem checked_apply {step : Eval CellValue} {o : Except Failure CellValue} {start after : Walk}
    (h : step start = (o, after)) :
    (step >>= fun v => Eval.ofExcept (engine.checkResult v)) start = (o >>= engine.checkResult, after) := by
  cases o with
  | ok v =>
    rw [Eval.bind_ok h]
    exact Eval.ofExcept_apply _ after
  | error f => exact Eval.bind_error h

/-- The steps of an evaluation at a known place: the formula is read, its value is computed there, and the result is
checked. -/
def stepsWith (engine : Engine) (formula : String) (value : Expr → Eval CellValue) : Eval CellValue := do
  let e ← Eval.ofExcept (engine.read formula)
  let v ← value e
  Eval.ofExcept (engine.checkResult v)

section StepsWith

variable {formula : String} {value : Expr → Eval CellValue}

/-- A formula that is no expression has the same outcome in every state. -/
theorem stepsWith_of_read_error {f : Failure} (h : engine.read formula = .error f) (start : Walk) :
    engine.stepsWith formula value start = (.error f, start) := by
  rw [stepsWith, h]
  exact Eval.bind_error (Eval.throw_apply f start)

theorem stepsWith_of_read_ok {e : Expr} (h : engine.read formula = .ok e) {start after : Walk}
    {o : Except Failure CellValue} (hrun : value e start = (o, after)) :
    engine.stepsWith formula value start = (o >>= engine.checkResult, after) := by
  rw [stepsWith, h]
  exact checked_apply hrun

end StepsWith

/-! ## Contexts -/

section Steps

variable {context : Context} {formula : String}

theorem mapM_site {site : RowSite} (h : context.site = .ok site) :
    (some context).mapM Context.site = .ok (some site) := by
  show (do return some (← Context.site context)) = _
  rw [h]
  rfl

theorem mapM_site_error {f : Failure} (h : context.site = .error f) :
    (some context).mapM Context.site = .error f := by
  show (do return some (← Context.site context)) = _
  rw [h]
  rfl

/-- Without a context the formula is evaluated nowhere. -/
theorem steps_none (formula : String) :
    engine.steps none formula =
      engine.stepsWith formula (Scope.value ⟨Workbook.empty, engine.options⟩ engine.registry none) := by
  have hmap : (none : Option Context).mapM Context.site = .ok none := rfl
  unfold steps
  rw [hmap, Eval.ofExcept_ok_bind]
  rfl

/-- In a context that leads to a row the formula is evaluated there. -/
theorem steps_of_site {site : RowSite} (h : context.site = .ok site) :
    engine.steps (some context) formula =
      engine.stepsWith formula (engine.valueAt context.workbook (some site) context.column) := by
  unfold steps
  rw [mapM_site h, Eval.ofExcept_ok_bind]
  rfl

/-- In a context that leads nowhere nothing is evaluated. -/
theorem steps_of_site_error {f : Failure} (h : context.site = .error f) :
    engine.steps (some context) formula = throw f := by
  unfold steps
  rw [mapM_site_error h]
  rfl

/-- What is parsed to anything but a bare string literal is read as the same expression. -/
theorem read_of_parse {e : Expr} (h : parse engine.registry formula = .ok e) (htext : e.isText = false) :
    ∃ e', engine.read formula = .ok e' ∧ e'.unplaced = e.unplaced := by
  obtain ⟨e', hparse, he'⟩ := unplacedResult_eq_ok_iff.1 (parse_stripMarker_of_parse h)
  have htext' : e'.isText = false := by rw [← e'.isText_unplaced, he', e.isText_unplaced, htext]
  refine ⟨e', ?_, he'⟩
  unfold read
  rw [hparse]
  show (if e'.isText then _ else _) = _
  rw [htext']
  rfl

/-- A formula that belongs to no column is evaluated inside no cell. -/
theorem valueAt_of_column_none (site : RowSite) (e : Expr) :
    engine.valueAt w (some site) none e = Scope.value ⟨w, engine.options⟩ engine.registry (some site) e :=
  rfl

/-- At a row, and belonging to no column, a formula comes to the checked value of its expression there. -/
theorem steps_of_parse {site : RowSite} {e : Expr} (hsite : context.site = .ok site) (hcolumn : context.column = none)
    (hparse : parse engine.registry formula = .ok e) (htext : e.isText = false) {start after : Walk}
    {o : Except Failure CellValue}
    (hrun : Scope.value ⟨context.workbook, engine.options⟩ engine.registry (some site) e start = (o, after)) :
    engine.steps (some context) formula start = (o >>= engine.checkResult, after) := by
  obtain ⟨e', hread, he'⟩ := read_of_parse hparse htext
  rw [steps_of_site hsite, hcolumn]
  refine stepsWith_of_read_ok hread ?_
  rw [valueAt_of_column_none, Scope.value_of_unplaced he', hrun]

/-- The formula of a column is evaluated inside the cell of the column. -/
theorem valueAt_of_ownCell {site : RowSite} {id : String} {cell : CellSite} (h : ownCell site id = .ok cell)
    (e : Expr) : engine.valueAt w (some site) (some id) e =
      Eval.within ⟨cell.key, cell.label⟩ (Scope.value ⟨w, engine.options⟩ engine.registry (some site) e) := by
  simp only [valueAt, h]
  rfl

theorem valueAt_of_ownCell_error {site : RowSite} {id : String} {f : Failure} (h : ownCell site id = .error f)
    (e : Expr) : engine.valueAt w (some site) (some id) e = throw f := by
  simp only [valueAt, h]
  rfl

theorem ownCell_ok {site : RowSite} {id : String} {cell : CellSite} (h : ownCell site id = .ok cell) :
    cell.site = site ∧ cell.column ∈ site.sheet.columns := by
  obtain ⟨column, hcolumn, h⟩ := bind_eq_ok_iff.1 h
  cases h
  exact ⟨rfl, List.mem_of_find?_eq_some (orMissing_ok hcolumn)⟩

/-- The row of a context is one of its workbook. -/
theorem sheet_mem_of_site {site : RowSite} (h : context.site = .ok site) :
    site.sheet ∈ context.workbook.sheets := by
  obtain ⟨sheet, hsheet, h⟩ := bind_eq_ok_iff.1 h
  obtain ⟨index, -, h⟩ := bind_eq_ok_iff.1 h
  cases h
  have hfound := orMissing_ok hsheet
  unfold Workbook.sheet? at hfound
  cases hid : context.workbook.sheetById? context.sheet with
  | some s =>
    rw [hid] at hfound
    cases hfound
    exact List.mem_of_find?_eq_some hid
  | none =>
    rw [hid] at hfound
    exact List.mem_of_find?_eq_some hfound

/-- The row at which a formula is evaluated is one of the workbook of its context. -/
theorem sheet_mem_of_mapM_site {context : Option Context} {site : Option RowSite}
    (h : context.mapM Context.site = .ok site) :
    ∀ s, site = some s → s.sheet ∈ (context.elim Workbook.empty Context.workbook).sheets := by
  rintro s rfl
  cases context with
  | none => cases h
  | some c =>
    cases hsite : c.site with
    | error f =>
      rw [mapM_site_error hsite] at h
      cases h
    | ok found =>
      rw [mapM_site hsite] at h
      cases h
      exact sheet_mem_of_site hsite

/-- The row of a context is missing, or it is found. -/
theorem searches_mapM_site (context : Option Context) :
    Searches (context.elim Workbook.empty Context.workbook) (context.mapM Context.site) := by
  cases context with
  | none => exact searches_ok none
  | some c => exact (searches_site c).bind fun site _ => searches_ok (some site)

end Steps

end Engine

namespace Context

variable {c : Context} {cell cell' : CellSite}

/-- The cell is the one that a formula belongs to in the context. -/
def Owns (c : Context) (cell : CellSite) : Prop :=
  ∃ site id, c.site = .ok site ∧ c.column = some id ∧ Engine.ownCell site id = .ok cell

/-- A formula belongs to one cell at most. -/
theorem Owns.eq (h : c.Owns cell) (h' : c.Owns cell') : cell = cell' := by
  obtain ⟨site, id, hsite, hid, hcell⟩ := h
  obtain ⟨site', id', hsite', hid', hcell'⟩ := h'
  cases hsite.symm.trans hsite'
  cases hid.symm.trans hid'
  exact Except.ok.inj (hcell.symm.trans hcell')

/-- The cell that a formula belongs to is one of the workbook. -/
theorem Owns.contains (h : c.Owns cell) : c.workbook.Contains cell := by
  obtain ⟨site, id, hsite, -, hcell⟩ := h
  obtain ⟨rfl, hcolumn⟩ := Engine.ownCell_ok hcell
  exact ⟨Engine.sheet_mem_of_site hsite, hcolumn⟩

end Context

end GameSheet
