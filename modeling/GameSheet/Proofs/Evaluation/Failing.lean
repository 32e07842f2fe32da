import GameSheet.Proofs.Evaluation.Confined

/-!
# What evaluations fail with

The failures of a step are all of a kind if those are that arise at one place of a formula (`Ordinary`) and the cycles
that are closed on the way (`FailsWith`). These are confined steps that start without a memo and leave none.

One kind is that of the parts of formulas. A formula as a whole may fail where none of its parts does: it is refused if
it is a bare string literal, and its result is refused if it is NaN or an infinity (`Failure.isFinal`). No part of a
formula fails in such a way (`failsWith_value`).
-/

namespace GameSheet

open Formula

/-- Inside the guard the step fails with failures of the kind only. -/
def FailsWith (F : Failure → Prop) (g : Guard) {α : Type} (x : Eval α) : Prop :=
  ∀ w : Walk, w.guard = g → w.memo = none →
    (x w).2.guard = g ∧ (x w).2.memo = none ∧ ∀ f, (x w).1 = .error f → F f

/-- The kind has all failures that arise at one place of a formula. -/
structure Ordinary (registry : Registry) (F : Failure → Prop) : Prop where
  raised {f : Failure} : Raised registry f → F f
  parse (e : ParseError) : F (.parse e)
  reference (m : Missing) : F (.reference m)
  overflow (e : Overflow) : F (.overflow e)
  depth (limit : Int) : F (.depth limit)

/-- Whether the failure is one of a formula as a whole: that it is a bare string literal, or that its result does not
pass the check. -/
def Failure.isFinal : Failure → Bool
  | bareText | resultNaN | resultInfinite => true
  | _ => false

/-! ## Steps -/

section Steps

variable {registry : Registry} {F : Failure → Prop} {g : Guard}

theorem FailsWith.throw {α : Type} {f : Failure} (hf : F f) : FailsWith F g (throw f : Eval α) :=
  Confined.throw (M := (· = none)) hf

/-- A search fails with any ordinary kind. -/
theorem Ordinary.of_searches (hkind : Ordinary registry F) {w : Workbook} {α : Type} {o : Except Failure α}
    (h : Searches w o) {f : Failure} (hf : o = .error f) : F f := by
  rcases h f hf with ⟨m, rfl⟩ | ⟨e, cell, rfl, -⟩
  · exact hkind.reference m
  · exact hkind.overflow e

/-- The guard refuses a cell for its depth or with a cycle. -/
theorem refused_of_closes {v : Visit} (hdepth : ∀ limit, F (.depth limit))
    (hcloses : v.key ∈ g.visiting → F (.cycle (g.cycleTo v))) {f : Failure} (h : g.enter v = .error f) : F f := by
  rcases Guard.enter_error h with ⟨hmem, rfl⟩ | rfl
  · exact hcloses hmem
  · exact hdepth _

/-- A step inside a cell, if the cycle is of the kind that the cell closes where it waits already. -/
theorem FailsWith.within {v : Visit} {α : Type} {x : Eval α} (hdepth : ∀ limit, F (.depth limit))
    (hcloses : v.key ∈ g.visiting → F (.cycle (g.cycleTo v)))
    (h : ∀ inside, g.enter v = .ok inside → FailsWith F inside x) : FailsWith F g (Eval.within v x) :=
  Confined.within (M := (· = none)) (fun _ => refused_of_closes hdepth hcloses) h

/-- Without a memo a formula cell is computed inside the guard. -/
theorem formulaValue_plain {evaluate : Evaluator} {cell : CellSite} {body : String} {w : Walk} (hm : w.memo = none) :
    Scope.formulaValue evaluate cell body w =
      Eval.remember cell.key (Eval.within cell.visit (evaluate body cell.site)) w :=
  formulaValue_fresh (by simp [Walk.known?, hm])

/-- **A cell fails as its body does**, inside the cell. -/
theorem FailsWith.cell {evaluate : Evaluator} {cell : CellSite} (hkind : Ordinary registry F)
    (hcloses : cell.key ∈ g.visiting → F (.cycle (g.cycleTo cell.visit)))
    (h : ∀ body inside, cell.source = .formula body → g.enter cell.visit = .ok inside →
      FailsWith F inside (evaluate body cell.site)) : FailsWith F g (Scope.cellValue evaluate cell) :=
  Confined.cell (remembers_none F) (fun _ e _ _ => hkind.overflow e)
    (fun _ _ _ => refused_of_closes hkind.depth hcloses) h

/-- **An expression fails as the cells do** to which it leads. -/
theorem FailsWith.expr {scope : Scope} {evaluate : Evaluator} {site : Option RowSite} {e : Expr}
    (hkind : Ordinary registry F) (h : ∀ r ∈ e.references, ∀ cell, scope.target site r = .ok cell →
      FailsWith F g (Scope.cellValue evaluate cell)) : FailsWith F g (e.eval registry (scope.read evaluate site)) :=
  Confined.expr (M := (· = none)) (fun _ hf => hkind.raised hf.raised) (fun _ _ _ hf => hkind.raised hf.raised)
    (fun _ _ _ hf => hkind.of_searches Scope.searches_target hf) h

/-- A body is parsed, and fails as its expression does. -/
theorem FailsWith.body {body : String} {value : Expr → Eval CellValue} (hkind : Ordinary registry F)
    (h : ∀ e, parse registry body = .ok e → FailsWith F g (value e)) :
    FailsWith F g (Eval.ofExcept ((parse registry body).mapError .parse) >>= value) :=
  Confined.body (M := (· = none)) (fun e _ => hkind.parse e) h

/-- A formula that is read, evaluated and checked fails as its expression does, or as a whole. -/
theorem Engine.failsWith_stepsWith {engine : Engine} {formula : String} (hkind : Ordinary engine.registry F)
    (hfinal : ∀ f, f.isFinal = true → F f) {value : Expr → Eval CellValue}
    (h : ∀ e, engine.read formula = .ok e → FailsWith F g (value e)) :
    FailsWith F g (engine.stepsWith formula value) :=
  confined_stepsWith (M := (· = none)) (fun e _ => hkind.parse e) (hfinal _ rfl) (hfinal _ rfl) (hfinal _ rfl) h

end Steps

/-! ## Parts of formulas -/

section Parts

variable {scope : Scope} {registry : Registry}

theorem ordinary_part (registry : Registry) : Ordinary registry fun f => f.isFinal = false where
  raised hf := by cases hf <;> rfl
  parse _ := rfl
  reference _ := rfl
  overflow _ := rfl
  depth _ := rfl

/-- The body of a formula cell fails as a part of a formula does. -/
theorem failsWith_chained (scope : Scope) (registry : Registry) (room : Nat) : ∀ g body site,
    FailsWith (fun f => f.isFinal = false) g (scope.chained registry room body site) := by
  induction room with
  | zero => exact fun _ _ _ => .throw rfl
  | succ room ih =>
    exact fun g body site => .body (ordinary_part registry) fun e _ => .expr (ordinary_part registry) fun _ _ cell _ =>
      .cell (ordinary_part registry) (fun _ => rfl) fun body inside _ _ => ih inside body cell.site

/-- **No part of a formula fails as a formula does as a whole**: results are checked once, at the end. -/
theorem failsWith_value (scope : Scope) (registry : Registry) (site : Option RowSite) (e : Expr) (g : Guard) :
    FailsWith (fun f => f.isFinal = false) g (scope.value registry site e) :=
  .expr (ordinary_part registry) fun _ _ cell _ => .cell (ordinary_part registry) (fun _ => rfl) fun body inside _ _ =>
    failsWith_chained scope registry _ inside body cell.site

end Parts

end GameSheet
