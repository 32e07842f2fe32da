import GameSheet.Proofs.Evaluation.Composition
import GameSheet.Proofs.Workbook.Cells

/-!
# Evaluation without a guard

What a cell is worth does not depend on who asks for it: `Scope.ideal` evaluates cells without a guard and without a
memo, through a bounded number of formula cells. A cell that is given enough levels has an outcome, which more levels
do not change (`Scope.steady_ideal`), or it has none with any number of levels, because it waits for itself.

A guarded run tells of a cell what is the case (`Tells`) if its outcome is the one that the cell has, or if it is a
cycle and the cell has none. So two runs that tell of the same cell match (`Tells.matches`): they give the same value,
or fail for the same reason, or both report a cycle.
-/

namespace GameSheet

open Formula

/-! ## Outcomes that levels cut off -/

/-- An outcome that only says that the levels were too few. -/
def Cut {α : Type} (o : Except Failure α) : Prop :=
  ∃ limit, o = .error (.depth limit)

/-- An outcome that reports a cycle. -/
def Cyclic {α : Type} (o : Except Failure α) : Prop :=
  ∃ path, o = .error (.cycle path)

section Cut

variable {α β : Type}

theorem not_cut_ok (a : α) : ¬Cut (.ok a : Except Failure α) := fun ⟨_, h⟩ => by cases h

theorem not_cut_of_cyclic {o : Except Failure α} (h : Cyclic o) : ¬Cut o := by
  obtain ⟨path, rfl⟩ := h
  rintro ⟨limit, h⟩
  cases h

theorem cut_error {f : Failure} : Cut (.error f : Except Failure α) ↔ Cut (.error f : Except Failure β) := by
  constructor <;> rintro ⟨limit, h⟩ <;> cases h <;> exact ⟨limit, rfl⟩

theorem not_cut_raised {registry : Registry} {f : Failure} (h : Raised registry f) :
    ¬Cut (.error f : Except Failure α) := by
  rintro ⟨limit, heq⟩
  cases heq
  cases h

end Cut

/-! ## Steps that stand for others -/

/-- What the first step gives in some state the second one gives in every state, unless it was cut off. -/
def Outlives {α : Type} (x y : Eval α) : Prop :=
  ∀ w w', ¬Cut (x w).1 → (y w').1 = (x w).1

namespace Outlives

variable {α β : Type}

theorem const {x : Eval α} {o : Except Failure α} {notes : List Warning} (h : x.Only o notes) : Outlives x x := by
  intro w w' _
  rw [h, h]

theorem bind {x y : Eval α} {k l : α → Eval β} (hxy : Outlives x y) (hkl : ∀ a, x.Returns a → Outlives (k a) (l a)) :
    Outlives (x >>= k) (y >>= l) := by
  intro w w' hcut
  rcases hx : x w with ⟨o, after⟩
  rcases hy : y w' with ⟨o', after'⟩
  have hsame : ¬Cut o → o' = o := fun h => by simpa [hx, hy] using hxy w w' (by rwa [hx])
  cases o with
  | error f =>
    rw [Eval.bind_error hx] at hcut ⊢
    cases hsame fun h => hcut (cut_error.1 h)
    rw [Eval.bind_error hy]
  | ok a =>
    cases hsame (not_cut_ok a)
    rw [Eval.bind_ok hx] at hcut ⊢
    rw [Eval.bind_ok hy]
    exact hkl a ⟨w, after, hx⟩ after after' hcut

theorem attempt {x y : Eval α} (hxy : Outlives x y) : Outlives (Eval.attempt x) (Eval.attempt y) := by
  intro w w' hcut
  rcases hx : x w with ⟨o, after⟩
  rcases hy : y w' with ⟨o', after'⟩
  have hsame : ¬Cut o → o' = o := fun h => by simpa [hx, hy] using hxy w w' (by rwa [hx])
  cases o with
  | ok a =>
    cases hsame (not_cut_ok a)
    rw [Eval.attempt_ok hx, Eval.attempt_ok hy]
  | error f =>
    have hf : ¬Cut (.error f : Except Failure α) := by
      rintro ⟨limit, h⟩
      cases h
      exact hcut ⟨limit, by rw [Eval.attempt_error hx]; rfl⟩
    cases hsame hf
    rw [Eval.attempt_error hx, Eval.attempt_error hy]

end Outlives

/-- Standing for another step is kept by all ways of going on. -/
theorem composable_outlives (registry : Registry) :
    Composable registry fun (α : Type) (x : Bool → Eval α) => Outlives (x false) (x true) where
  value a := .const (Eval.only_pure a)
  failure _ := .const (Eval.only_throw _)
  warning note := .const (Eval.only_warn note)
  sequence hx hk := hx.bind fun a ha => hk a ⟨false, ha⟩
  recovery hx := hx.attempt

/-- An expression stands for another reading of it if the readings of its references do. -/
theorem Outlives.eval {registry : Registry} {read read' : Reference → Eval CellValue} (e : Expr)
    (h : ∀ r ∈ e.references, Outlives (read r) (read' r)) :
    Outlives (e.eval registry read) (e.eval registry read') :=
  (composable_outlives registry).eval (fun b => cond b read' read) e h

/-! ## Steps by levels -/

/-- A step for every number of levels, of which more change nothing but that it is cut off. -/
def Steady {α : Type} (x : Nat → Eval α) : Prop :=
  ∀ n m, n ≤ m → Outlives (x n) (x m)

/-- The step ends with so many levels. -/
def Settles {α : Type} (x : Nat → Eval α) (n : Nat) : Prop :=
  ∀ w, ¬Cut (x n w).1

/-- The outcome is that of the step, or it is a cycle and the step never ends. -/
inductive Tells {α : Type} (x : Nat → Eval α) (o : Except Failure α) : Prop
  | settled {n : Nat} : ¬Cut o → (∀ w, (x n w).1 = o) → Tells x o
  | never : Cyclic o → (∀ n, ¬Settles x n) → Tells x o

/-- Two outcomes that are the same or both a cycle. -/
def Matches {α : Type} (o o' : Except Failure α) : Prop :=
  o = o' ∨ Cyclic o ∧ Cyclic o'

section Steady

variable {α β : Type} {x : Nat → Eval α} {o o' : Except Failure α}

/-- A step that has not been cut off in some state has one outcome. -/
theorem Steady.eq_of_not_cut (hx : Steady x) {n m : Nat} (h : n ≤ m) {w : Walk} (hcut : ¬Cut (x n w).1) (w' : Walk) :
    (x m w').1 = (x n w).1 :=
  hx n m h w w' hcut

theorem Steady.settles (hx : Steady x) {n : Nat} {w : Walk} (hcut : ¬Cut (x n w).1) : Settles x n := by
  intro w'
  rwa [hx.eq_of_not_cut (Nat.le_refl n) hcut w']

theorem Steady.const {y : Eval α} {notes : List Warning} (h : y.Only o notes) : Steady fun _ => y :=
  fun _ _ _ => .const h

theorem Tells.not_cut (h : Tells x o) : ¬Cut o := by
  cases h with
  | settled hcut _ => exact hcut
  | never hcyclic _ => exact not_cut_of_cyclic hcyclic

/-- A step that ends has the outcome that is told of it. -/
theorem Tells.eq_of_settles (hx : Steady x) (h : Tells x o) {n : Nat} (hn : Settles x n) (w : Walk) :
    (x n w).1 = o := by
  cases h with
  | never _ hnever => exact absurd hn (hnever n)
  | @settled m hcut ho =>
    have hm : ¬Cut (x m w).1 := by rwa [ho]
    rw [← hx.eq_of_not_cut (Nat.le_max_left n m) (hn w) w, hx.eq_of_not_cut (Nat.le_max_right n m) hm w, ho]

/-- Outcomes told of one step match. -/
theorem Tells.matches (hx : Steady x) (h : Tells x o) (h' : Tells x o') : Matches o o' := by
  cases h with
  | @settled n hcut ho =>
    have hn : Settles x n := fun w => by rwa [ho]
    exact .inl ((ho ⟨⟨0, []⟩, none, []⟩).symm.trans (h'.eq_of_settles hx hn _))
  | never hcyclic hnever =>
    cases h' with
    | @settled n hcut ho => exact absurd (fun w => by rwa [ho]) (hnever n)
    | never hcyclic' _ => exact .inr ⟨hcyclic, hcyclic'⟩

theorem Matches.eq_ok {a : α} (h : Matches (.ok a) o) : o = .ok a := by
  rcases h with h | ⟨⟨path, h⟩, -⟩
  · exact h.symm
  · cases h

theorem Matches.exists_error {f : Failure} (h : Matches (.error f : Except Failure α) o) : ∃ f', o = .error f' := by
  rcases h with h | ⟨-, path, h⟩
  · exact ⟨f, h.symm⟩
  · exact ⟨_, h⟩

theorem Tells.const {y : Eval α} {notes : List Warning} (h : y.Only o notes) (hcut : ¬Cut o) : Tells (fun _ => y) o :=
  .settled (n := 0) hcut fun w => by rw [h]

end Steady

/-! ## The ideal values of cells -/

namespace Scope

variable {scope : Scope} {registry : Registry}

/-- The value of a cell through at most so many formula cells, without a guard and without a memo. -/
def ideal (scope : Scope) (registry : Registry) : Nat → CellSite → Eval CellValue
  | 0, cell =>
    match cell.source with
    | .literal raw => Eval.ofRaw raw
    | .formula _ => throw (.depth scope.options.maxDepth)
  | n + 1, cell =>
    match cell.source with
    | .literal raw => Eval.ofRaw raw
    | .formula body => do
      let e ← Eval.ofExcept ((parse registry body).mapError .parse)
      e.eval registry fun r => do scope.ideal registry n (← Eval.ofExcept (scope.target (some cell.site) r))

/-- The value of the cell that a reference leads to, without a guard and without a memo. -/
def idealRead (scope : Scope) (registry : Registry) (n : Nat) (site : Option RowSite) (r : Reference) :
    Eval CellValue := do
  scope.ideal registry n (← Eval.ofExcept (scope.target site r))

theorem ideal_literal {cell : CellSite} {raw : RawCell} (h : cell.source = .literal raw) (n : Nat) :
    scope.ideal registry n cell = Eval.ofRaw raw := by
  cases n <;> simp only [ideal, h]

theorem ideal_zero {cell : CellSite} {body : String} (h : cell.source = .formula body) :
    scope.ideal registry 0 cell = throw (.depth scope.options.maxDepth) := by
  simp only [ideal, h]


/-- The value of a formula body at a row, without a guard and without a memo. -/
def idealBody (scope : Scope) (registry : Registry) (body : String) (site : RowSite) (n : Nat) : Eval CellValue := do
  let e ← Eval.ofExcept ((parse registry body).mapError .parse)
  e.eval registry (scope.idealRead registry n (some site))

theorem ideal_succ {cell : CellSite} {body : String} (h : cell.source = .formula body) (n : Nat) :
    scope.ideal registry (n + 1) cell = scope.idealBody registry body cell.site n := by
  simp only [ideal, h]
  rfl

theorem outlives_ofExcept {α : Type} (o : Except Failure α) : Outlives (Eval.ofExcept o) (Eval.ofExcept o) :=
  .const (Eval.only_ofExcept o)

theorem outlives_idealBody {n m : Nat}
    (h : ∀ cell, Outlives (scope.ideal registry n cell) (scope.ideal registry m cell)) (body : String)
    (site : RowSite) : Outlives (scope.idealBody registry body site n) (scope.idealBody registry body site m) :=
  (outlives_ofExcept _).bind fun e _ => Outlives.eval e fun _ _ => (outlives_ofExcept _).bind fun cell _ => h cell

/-- More levels change nothing but that an evaluation is cut off. -/
theorem outlives_ideal : ∀ {n m : Nat}, n ≤ m → ∀ cell,
    Outlives (scope.ideal registry n cell) (scope.ideal registry m cell) := by
  intro n
  induction n with
  | zero =>
    intro m _ cell
    cases hs : cell.source with
    | literal raw =>
      rw [ideal_literal hs, ideal_literal hs]
      exact outlives_ofExcept _
    | formula body =>
      rw [ideal_zero hs]
      exact fun w w' hcut => absurd ⟨_, rfl⟩ hcut
  | succ n ih =>
    intro m hm cell
    obtain ⟨m, rfl⟩ : ∃ k, m = k + 1 := ⟨m - 1, by omega⟩
    cases hs : cell.source with
    | literal raw =>
      rw [ideal_literal hs, ideal_literal hs]
      exact outlives_ofExcept _
    | formula body =>
      rw [ideal_succ hs, ideal_succ hs]
      exact outlives_idealBody (ih (by omega)) body cell.site

theorem steady_ideal (cell : CellSite) : Steady fun n => scope.ideal registry n cell :=
  fun _ _ h => outlives_ideal h cell

end Scope

end GameSheet
