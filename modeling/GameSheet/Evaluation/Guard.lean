import GameSheet.Evaluation.Failure

/-!
# The guard of an evaluation

The cells that are being computed, each because of the one before it. A cell that would be entered again closes a
cycle, and a chain that would grow beyond the limit is refused; in both cases the guard stays as it is.
-/

namespace GameSheet

/-- The cells that are being computed, innermost first, and how many there may be. -/
structure Guard where
  limit : Int
  stack : List Visit := []
  deriving DecidableEq, Repr

namespace Guard

/-- How many cells are being computed. -/
def depth (g : Guard) : Nat :=
  g.stack.length

/-- The cells that are being computed, innermost first. -/
def visiting (g : Guard) : List CellKey :=
  g.stack.map Visit.key

/-- The cycle that a cell closes: from its first entry to the innermost cell, and the cell again. -/
def cycleTo (g : Guard) (v : Visit) : List Visit :=
  g.stack.reverse.dropWhile (·.key != v.key) ++ [v]

/-- The guard inside a cell. -/
def enter (g : Guard) (v : Visit) : Except Failure Guard :=
  if v.key ∈ g.visiting then .error (.cycle (g.cycleTo v))
  else if g.limit ≤ g.depth then .error (.depth g.limit)
  else .ok { g with stack := v :: g.stack }

/-- The guard outside the innermost cell. -/
def leave (g : Guard) : Guard :=
  { g with stack := g.stack.tail }

/-! ## Entering and leaving -/

section Enter

variable {g inside : Guard} {v : Visit}

/-- A cell is entered only where it does not wait for itself and where the guard has room. -/
theorem enter_ok (h : g.enter v = .ok inside) :
    v.key ∉ g.visiting ∧ g.depth < g.limit ∧ inside = { g with stack := v :: g.stack } := by
  unfold enter at h
  split at h
  · cases h
  · next hmem =>
    split at h
    · cases h
    · next hroom => exact ⟨hmem, Int.not_le.1 hroom, (Except.ok.inj h).symm⟩

/-- A cell is refused only where it waits for itself or where the guard is full. -/
theorem enter_error {f : Failure} (h : g.enter v = .error f) :
    v.key ∈ g.visiting ∧ f = .cycle (g.cycleTo v) ∨ f = .depth g.limit := by
  unfold enter at h
  split at h
  · next hmem => exact .inl ⟨hmem, (Except.error.inj h).symm⟩
  · split at h
    · exact .inr (Except.error.inj h).symm
    · cases h

/-- Where nothing is computed there is room for a cell. -/
theorem enter_first {limit : Int} (hroom : 0 < limit) (v : Visit) :
    (Guard.mk limit []).enter v = .ok ⟨limit, [v]⟩ := by
  simp [enter, visiting, depth, Int.not_le.2 hroom]

theorem stack_enter (h : g.enter v = .ok inside) : inside.stack = v :: g.stack := by
  rw [(enter_ok h).2.2]

theorem leave_enter (h : g.enter v = .ok inside) : inside.leave = g := by
  rw [(enter_ok h).2.2]
  rfl

theorem depth_enter (h : g.enter v = .ok inside) : inside.depth = g.depth + 1 := by
  simp [depth, stack_enter h]

theorem visiting_enter (h : g.enter v = .ok inside) : inside.visiting = v.key :: g.visiting := by
  simp [visiting, stack_enter h]

end Enter

end Guard

end GameSheet
