import Mathlib.Data.List.TakeWhile
import GameSheet.Proofs.Evaluation.Dependence
import GameSheet.Proofs.Evaluation.Ideal

/-!
# Evaluation in other surroundings

What stands around an evaluation does not matter to it, as long as the evaluation does not reach it:

* cells that are being computed outside, if none of them is read and the guard has room for them (`Guard.under`),
* the number of levels of the recursion, if there are as many as the guard has room.

Two such runs go in parallel (`Parallel`): they leave the same memo and the same warnings, and they have the same
outcome, except that the limit in a refusal for depth is the one of the guard. An expression goes in parallel through
any number of formula cells (`parallel_eval`).
-/

namespace GameSheet

open Formula

/-- Two outcomes that are the same, or both cut off. -/
def Alike {α : Type} (o o' : Except Failure α) : Prop :=
  o' = o ∨ Cut o ∧ Cut o'

/-! ## Cells outside -/

namespace Guard

/-- The guard with more cells being computed outside, and room for them. -/
def under (g : Guard) (outer : List Visit) : Guard :=
  ⟨g.limit + outer.length, g.stack ++ outer⟩

variable {g inside : Guard} {outer : List Visit} {v : Visit}

@[simp] theorem under_nil (g : Guard) : g.under [] = g := by
  simp [under]

theorem visiting_under (g : Guard) (outer : List Visit) :
    (g.under outer).visiting = g.visiting ++ outer.map Visit.key := by
  simp [under, visiting]

theorem leave_under (he : g.enter v = .ok inside) : (inside.under outer).leave = g.under outer := by
  rw [(enter_ok he).2.2]
  rfl

/-- The cycle that a cell closes does not reach the cells outside, unless the cell is one of them. -/
theorem cycleTo_under (h : v.key ∉ outer.map Visit.key) : (g.under outer).cycleTo v = g.cycleTo v := by
  have hdrop : outer.reverse.dropWhile (·.key != v.key) = [] := by
    rw [List.dropWhile_eq_nil_iff]
    intro u hu
    have hne : u.key ≠ v.key := fun heq => h (List.mem_map.2 ⟨u, List.mem_reverse.1 hu, heq⟩)
    simpa using hne
  simp only [cycleTo, under, List.reverse_append, List.dropWhile_append, hdrop, List.isEmpty_nil, if_true]

theorem mem_visiting_under (h : v.key ∉ outer.map Visit.key) :
    v.key ∈ (g.under outer).visiting ↔ v.key ∈ g.visiting := by
  rw [visiting_under, List.mem_append, or_iff_left h]

theorem full_under (g : Guard) (outer : List Visit) :
    (g.under outer).limit ≤ (g.under outer).depth ↔ g.limit ≤ g.depth := by
  simp only [under, depth, List.length_append]
  omega

/-- A cell that is none of the cells outside is entered under them as it is without them. -/
theorem enter_under (h : v.key ∉ outer.map Visit.key) (he : g.enter v = .ok inside) :
    (g.under outer).enter v = .ok (inside.under outer) := by
  obtain ⟨hmem, hroom, rfl⟩ := enter_ok he
  rw [enter, if_neg (mt (mem_visiting_under h).1 hmem), if_neg (mt (full_under g outer).1 (Int.not_le.2 hroom))]
  rfl

/-- A cell that is none of the cells outside is refused under them as it is without them. -/
theorem enter_under_error (h : v.key ∉ outer.map Visit.key) {f : Failure} (he : g.enter v = .error f) :
    ∃ f', (g.under outer).enter v = .error f' ∧ ∀ {α : Type}, Alike (α := α) (.error f) (.error f') := by
  by_cases hmem : v.key ∈ g.visiting
  · rw [enter, if_pos hmem] at he
    refine ⟨_, by rw [enter, if_pos ((mem_visiting_under h).2 hmem)], fun {α} => .inl ?_⟩
    rw [← Except.error.inj he, cycleTo_under h]
  · have hfull : g.limit ≤ g.depth := by
      by_contra hroom
      rw [enter, if_neg hmem, if_neg hroom] at he
      cases he
    rw [enter, if_neg hmem, if_pos hfull] at he
    refine ⟨_, by rw [enter, if_neg (mt (mem_visiting_under h).1 hmem), if_pos ((full_under g outer).2 hfull)],
      fun {α} => .inr ⟨⟨_, by rw [← Except.error.inj he]⟩, ⟨_, rfl⟩⟩⟩

end Guard

/-! ## Parallel runs -/

/-- Two steps of which the second one, under some more cells, does what the first one does without them. -/
def Parallel (outer : List Visit) (g : Guard) {α : Type} (x y : Eval α) : Prop :=
  ∀ w : Walk, w.guard = g → (x w).2.guard = g ∧
    (y { w with guard := g.under outer }).2 = { (x w).2 with guard := g.under outer } ∧
      Alike (x w).1 (y { w with guard := g.under outer }).1

namespace Parallel

variable {outer : List Visit} {g : Guard} {α β : Type} {x y : Eval α} {k l : α → Eval β}

/-- Where the first step ends, the second one ends. -/
theorem apply (h : Parallel outer g x y) {w after : Walk} (hg : w.guard = g) {o : Except Failure α}
    (hx : x w = (o, after)) : after.guard = g ∧ ∃ o', Alike o o' ∧
      y { w with guard := g.under outer } = (o', { after with guard := g.under outer }) := by
  obtain ⟨hguard, hafter, halike⟩ := h w hg
  rw [hx] at hguard hafter halike
  exact ⟨hguard, _, halike, Prod.ext rfl hafter⟩

theorem const {o : Except Failure α} {notes : List Warning} (hx : x.Only o notes) : Parallel outer g x x := by
  intro w hg
  rw [hx w, hx { w with guard := g.under outer }]
  exact ⟨hg, rfl, .inl rfl⟩

theorem bind (hxy : Parallel outer g x y) (hkl : ∀ a, x.Returns a → Parallel outer g (k a) (l a)) :
    Parallel outer g (x >>= k) (y >>= l) := by
  intro w hg
  rcases hx : x w with ⟨o, after⟩
  obtain ⟨hguard, o', halike, hy⟩ := hxy.apply hg hx
  cases o with
  | error f =>
    rw [Eval.bind_error hx]
    rcases halike with rfl | ⟨hcut, limit', rfl⟩
    · rw [Eval.bind_error hy]
      exact ⟨hguard, rfl, .inl rfl⟩
    · rw [Eval.bind_error hy]
      exact ⟨hguard, rfl, .inr ⟨cut_error.1 hcut, limit', rfl⟩⟩
  | ok a =>
    obtain rfl : o' = .ok a := halike.resolve_right fun h => not_cut_ok a h.1
    rw [Eval.bind_ok hx, Eval.bind_ok hy]
    exact hkl a ⟨w, after, hx⟩ after hguard

theorem attempt (hxy : Parallel outer g x y) : Parallel outer g (Eval.attempt x) (Eval.attempt y) := by
  intro w hg
  rcases hx : x w with ⟨o, after⟩
  obtain ⟨hguard, o', halike, hy⟩ := hxy.apply hg hx
  rcases halike with rfl | ⟨⟨limit, rfl⟩, limit', rfl⟩
  · cases o' with
    | ok a =>
      rw [Eval.attempt_ok hx, Eval.attempt_ok hy]
      exact ⟨hguard, rfl, .inl rfl⟩
    | error f =>
      rw [Eval.attempt_error hx, Eval.attempt_error hy]
      exact ⟨hguard, rfl, .inl rfl⟩
  · rw [Eval.attempt_error hx, Eval.attempt_error hy]
    exact ⟨hguard, rfl, .inr ⟨⟨limit, rfl⟩, ⟨limit', rfl⟩⟩⟩

end Parallel

/-- Going in parallel is kept by all ways of going on. -/
theorem composable_parallel (registry : Registry) (outer : List Visit) (g : Guard) :
    Composable registry fun (α : Type) (x : Bool → Eval α) => Parallel outer g (x false) (x true) where
  value a := .const (Eval.only_pure a)
  failure _ := .const (Eval.only_throw _)
  warning note := .const (Eval.only_warn note)
  sequence hx hk := hx.bind fun a ha => hk a ⟨false, ha⟩
  recovery hx := hx.attempt

/-! ## Cells -/

section Cells

variable {outer : List Visit} {g : Guard} {cell : CellSite}

theorem Parallel.within {v : Visit} (hclear : v.key ∉ outer.map Visit.key) {x y : Eval CellValue}
    (h : ∀ inside, g.enter v = .ok inside → Parallel outer inside x y) :
    Parallel outer g (Eval.within v x) (Eval.within v y) := by
  intro w hg
  cases he : g.enter v with
  | error f =>
    obtain ⟨f', he', halike⟩ := Guard.enter_under_error hclear he
    rw [Eval.within_error (hg ▸ he), Eval.within_error he']
    exact ⟨hg, rfl, halike⟩
  | ok inside =>
    obtain ⟨hguard, hafter, halike⟩ := h inside he { w with guard := inside } rfl
    rw [Eval.within_ok (hg ▸ he), Eval.within_ok (Guard.enter_under hclear he)]
    refine ⟨?_, ?_, halike⟩
    · dsimp only
      rw [hguard, Guard.leave_enter he]
    · dsimp only at hafter ⊢
      rw [hafter, Guard.leave_under he]

theorem Parallel.remember {x y : Eval CellValue} (key : CellKey) (h : Parallel outer g x y) :
    Parallel outer g (Eval.remember key x) (Eval.remember key y) := by
  intro w hg
  rcases hx : x w with ⟨o, after⟩
  obtain ⟨hguard, o', halike, hy⟩ := h.apply hg hx
  rcases halike with rfl | ⟨⟨limit, rfl⟩, limit', rfl⟩
  · cases o' with
    | ok a =>
      rw [Eval.remember_ok hx, Eval.remember_ok hy]
      exact ⟨hguard, rfl, .inl rfl⟩
    | error f =>
      rw [Eval.remember_error hx, Eval.remember_error hy]
      cases f.isKept <;> exact ⟨hguard, rfl, .inl rfl⟩
  · rw [Eval.remember_error hx, Eval.remember_error hy]
    exact ⟨hguard, rfl, .inr ⟨⟨limit, rfl⟩, ⟨limit', rfl⟩⟩⟩

/-- **The values of a cell go in parallel if those of its body do**, and the cell is none of those outside. -/
theorem parallel_cell {evaluate evaluate' : Evaluator}
    (hclear : ∀ body, cell.source = .formula body → cell.key ∉ outer.map Visit.key)
    (h : ∀ body inside, cell.source = .formula body → g.enter ⟨cell.key, cell.label⟩ = .ok inside →
      Parallel outer inside (evaluate body cell.site) (evaluate' body cell.site)) :
    Parallel outer g (Scope.cellValue evaluate cell) (Scope.cellValue evaluate' cell) := by
  cases hs : cell.source with
  | literal raw =>
    rw [Scope.cellValue_literal hs, Scope.cellValue_literal hs]
    exact .const (Eval.only_ofExcept _)
  | formula body =>
    intro w hg
    rw [Scope.cellValue_formula hs, Scope.cellValue_formula hs]
    have hsame : ({ w with guard := g.under outer } : Walk).known? cell.key = w.known? cell.key := rfl
    cases hknown : w.known? cell.key with
    | some o =>
      rw [formulaValue_known hknown, formulaValue_known (hsame.trans hknown)]
      exact ⟨hg, rfl, .inl rfl⟩
    | none =>
      rw [formulaValue_fresh hknown, formulaValue_fresh (hsame.trans hknown)]
      exact Parallel.remember cell.key (.within (hclear body hs) fun inside => h body inside hs) w hg

end Cells

/-! ## Expressions -/

section Expressions

variable {scope : Scope} {registry : Registry} {outer : List Visit} {D : CellSite → Prop}

/-- An expression goes in parallel if the bodies of the cells do to which it leads. -/
theorem parallel_expr {g : Guard} {site : Option RowSite} {e : Expr} {evaluate evaluate' : Evaluator}
    (hclear : ∀ cell body, D cell → cell.source = .formula body → cell.key ∉ outer.map Visit.key)
    (hleads : ∀ r ∈ e.references, ∀ cell, scope.target site r = .ok cell → D cell)
    (h : ∀ cell body inside, D cell → cell.source = .formula body → g.enter ⟨cell.key, cell.label⟩ = .ok inside →
      Parallel outer inside (evaluate body cell.site) (evaluate' body cell.site)) :
    Parallel outer g (e.eval registry (scope.read evaluate site)) (e.eval registry (scope.read evaluate' site)) := by
  refine (composable_parallel registry outer g).eval
    (fun i => cond i (scope.read evaluate' site) (scope.read evaluate site)) e fun r hr => ?_
  refine Parallel.bind (.const (Eval.only_ofExcept _)) fun cell hcell => ?_
  have hD := hleads r hr cell hcell.of_ofExcept
  exact parallel_cell (fun body hs => hclear cell body hD hs) fun body inside hs he => h cell body inside hD hs he

/-- **An expression goes in parallel** through any number of formula cells, if none of them is computed outside and
both recursions have as many levels as the guard has room. -/
theorem parallel_eval (hclosed : scope.Closed registry D)
    (hclear : ∀ cell body, D cell → cell.source = .formula body → cell.key ∉ outer.map Visit.key) :
    ∀ (room room' : Nat) {g : Guard} {site : Option RowSite} {e : Expr}, g.limit ≤ g.depth + room →
      g.limit ≤ g.depth + room' → (∀ r ∈ e.references, ∀ cell, scope.target site r = .ok cell → D cell) →
        Parallel outer g (e.eval registry (scope.read (scope.chained registry room) site))
          (e.eval registry (scope.read (scope.chained registry room') site)) := by
  intro room
  induction room with
  | zero =>
    intro room' g site e hroom _ hleads
    refine parallel_expr hclear hleads fun cell body inside _ _ he => ?_
    -- the guard is full
    have := (Guard.enter_ok he).2.1
    omega
  | succ room ih =>
    intro room' g site e hroom hroom' hleads
    refine parallel_expr hclear hleads fun cell body inside hD hs he => ?_
    have hdepth := Guard.depth_enter he
    obtain ⟨-, hfree, hinside⟩ := Guard.enter_ok he
    have hlimit : inside.limit = g.limit := by rw [hinside]
    obtain ⟨room', rfl⟩ : ∃ k, room' = k + 1 := ⟨room' - 1, by omega⟩
    refine Parallel.bind (.const (Eval.only_ofExcept _)) fun e' hparse => ?_
    refine ih room' (by omega) (by omega) fun r hr next hnext => ?_
    exact hclosed cell body e' r next hD hs (ok_of_mapError hparse.of_ofExcept) hr hnext

end Expressions

end GameSheet
