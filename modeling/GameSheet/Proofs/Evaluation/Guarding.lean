import GameSheet.Proofs.Evaluation.Confined

/-!
# The guard over a run

A guard finds the cell that is entered again in a set of keys, and cuts the cycle out of a stack of cells. A guard that
keeps the two apart (`Watch`) has to change both when a cell is entered and when it is left, and each entry remembers
its own key until it is left. Over every run of such moves from an empty guard they stay in step with each other and
with the guard of an evaluation, which has the stack only (`Watch.InStep`); so the keys on the stack are distinct, there
are never more cells than the limit, and a cell that is refused changes nothing (`Watch.Disciplined`).

An evaluation makes such moves in pairs: it leaves the guard as it was, whatever fails and is recovered from on the way
(`guard_eval`).
-/

namespace GameSheet

open Formula

/-! ## Guards with a set -/

/-- A guard that keeps the keys of the cells that are being computed apart from the cells. -/
structure Watch where
  limit : Int
  visiting : Finset CellKey := ∅
  /-- The cells that are being computed, outermost first. -/
  stack : List Visit := []
  /-- The keys of the entries that were not left yet, innermost first. -/
  entries : List CellKey := []

/-- Entering a cell, or leaving the innermost one. -/
inductive Move where
  | enter (v : Visit)
  | leave

namespace Watch

/-- How many cells are being computed. -/
def depth (w : Watch) : Nat :=
  w.stack.length

/-- Enters a cell: whether it is refused, and the guard after that. -/
def enter (w : Watch) (v : Visit) : Except Failure Unit × Watch :=
  if v.key ∈ w.visiting then
    (.error (.cycle (w.stack.drop (w.stack.findIdx (·.key == v.key)) ++ [v])), w)
  else if w.limit ≤ w.depth then (.error (.depth w.limit), w)
  else
    (.ok (), { w with
      visiting := insert v.key w.visiting
      stack := w.stack ++ [v]
      entries := v.key :: w.entries })

/-- Leaves the innermost cell. The entry takes its own key out of the set. -/
def leave (w : Watch) : Watch :=
  match w.entries with
  | [] => w
  | key :: outer => { w with visiting := w.visiting.erase key, stack := w.stack.dropLast, entries := outer }

/-- The guard after a move. -/
def move (w : Watch) : Move → Watch
  | .enter v => (w.enter v).2
  | .leave => w.leave

/-- The guard after some moves. -/
def run (w : Watch) (moves : List Move) : Watch :=
  moves.foldl move w

section Enter

variable {w : Watch} {v : Visit}

theorem enter_of_mem (h : v.key ∈ w.visiting) :
    w.enter v = (.error (.cycle (w.stack.drop (w.stack.findIdx (·.key == v.key)) ++ [v])), w) :=
  if_pos h

theorem enter_of_full (h : v.key ∉ w.visiting) (hfull : w.limit ≤ w.depth) :
    w.enter v = (.error (.depth w.limit), w) := by
  rw [enter, if_neg h, if_pos hfull]

theorem enter_of_room (h : v.key ∉ w.visiting) (hroom : w.depth < w.limit) :
    w.enter v = (.ok (), { w with
      visiting := insert v.key w.visiting
      stack := w.stack ++ [v]
      entries := v.key :: w.entries }) := by
  rw [enter, if_neg h, if_neg (Int.not_le.2 hroom)]

end Enter

end Watch

namespace Guard

/-- The guard after a move; a cell that is refused is not entered. -/
def move (g : Guard) : Move → Guard
  | .enter v =>
    match g.enter v with
    | .ok inside => inside
    | .error _ => g
  | .leave => g.leave

/-- The guard after some moves. -/
def run (g : Guard) (moves : List Move) : Guard :=
  moves.foldl move g

/-- The cells that are being computed are distinct, and there is room for them; there is none below zero. -/
structure Orderly (g : Guard) : Prop where
  nodup : g.visiting.Nodup
  depth_le : g.depth ≤ g.limit.toNat

section Orderly

variable {g inside : Guard} {v : Visit}

theorem Orderly.enter (h : g.Orderly) (he : g.enter v = .ok inside) : inside.Orderly := by
  obtain ⟨hnew, hroom, hinside⟩ := enter_ok he
  refine ⟨?_, ?_⟩
  · rw [visiting_enter he]
    exact List.nodup_cons.2 ⟨hnew, h.nodup⟩
  · rw [depth_enter he, hinside]
    exact Int.lt_toNat.2 hroom

theorem Orderly.leave (h : g.Orderly) : g.leave.Orderly := by
  refine ⟨?_, ?_⟩
  · have htail : g.leave.visiting = g.visiting.tail := List.map_tail
    rw [htail]
    exact h.nodup.tail
  · have hless : g.leave.depth ≤ g.depth := by
      rw [depth, depth, Guard.leave, List.length_tail]
      exact Nat.sub_le _ _
    exact hless.trans h.depth_le

/-- A move keeps a guard orderly. -/
theorem Orderly.move (h : g.Orderly) (m : Move) : (g.move m).Orderly := by
  cases m with
  | leave => exact h.leave
  | enter v =>
    cases he : g.enter v with
    | error f => simpa only [Guard.move, he] using h
    | ok inside => simpa only [Guard.move, he] using h.enter he

/-- **A run keeps a guard orderly.** -/
theorem Orderly.run (h : g.Orderly) (moves : List Move) : (g.run moves).Orderly := by
  induction moves generalizing g with
  | nil => exact h
  | cons m rest ih => exact ih (h.move m)

end Orderly

end Guard

/-! ## Guards in step -/

namespace Watch

/-- The guards have the same cells, and the set has the keys of these. -/
structure InStep (w : Watch) (g : Guard) : Prop where
  limit : w.limit = g.limit
  stack : w.stack = g.stack.reverse
  visiting : ∀ key, key ∈ w.visiting ↔ key ∈ g.visiting
  entries : w.entries = g.visiting

section InStep

variable {w : Watch} {g inside : Guard} {v : Visit}

theorem InStep.depth (h : w.InStep g) : w.depth = g.depth := by
  rw [Watch.depth, h.stack, List.length_reverse, Guard.depth]

/-- What a guard refuses the other one refuses in the same way, and stays as it is. -/
theorem InStep.enter_error (h : w.InStep g) {f : Failure} (he : g.enter v = .error f) : w.enter v = (.error f, w) := by
  unfold Guard.enter at he
  split at he
  · next hmem =>
    have hcycle : g.cycleTo v = w.stack.drop (w.stack.findIdx (·.key == v.key)) ++ [v] := by
      rw [Guard.cycleTo, h.stack, List.dropWhile_eq_drop_findIdx_not]
      simp only [bne, Bool.not_not]
    rw [enter_of_mem ((h.visiting _).2 hmem), ← hcycle, Except.error.inj he]
  · next hnew =>
    split at he
    · next hfull =>
      rw [← h.limit, ← h.depth] at hfull
      rw [enter_of_full (mt (h.visiting _).1 hnew) hfull, h.limit, Except.error.inj he]
    · cases he

/-- What a guard enters the other one enters, too. -/
theorem InStep.enter_ok (h : w.InStep g) (he : g.enter v = .ok inside) :
    (w.enter v).1 = .ok () ∧ (w.enter v).2.InStep inside := by
  obtain ⟨hnew, hroom, hinside⟩ := Guard.enter_ok he
  rw [← h.limit, ← h.depth] at hroom
  rw [enter_of_room (mt (h.visiting _).1 hnew) hroom]
  refine ⟨rfl, ?_, ?_, fun key => ?_, ?_⟩
  · rw [h.limit, hinside]
  · rw [h.stack, Guard.stack_enter he, List.reverse_cons]
  · rw [Finset.mem_insert, h.visiting, Guard.visiting_enter he, List.mem_cons]
  · rw [h.entries, Guard.visiting_enter he]

/-- Guards in step answer alike. -/
theorem InStep.answers (h : w.InStep g) (v : Visit) : (w.enter v).1 = (g.enter v).map fun _ => () := by
  cases he : g.enter v with
  | error f => rw [h.enter_error he]; rfl
  | ok inside => exact (h.enter_ok he).1

/-- Leaving a cell keeps guards in step, since no key is there twice. -/
theorem InStep.leave (h : w.InStep g) (hnodup : g.visiting.Nodup) : w.leave.InStep g.leave := by
  obtain ⟨limit, stack⟩ := g
  cases stack with
  | nil =>
    have hentries : w.entries = [] := h.entries
    have hleave : w.leave = w := by simp only [Watch.leave, hentries]
    rw [hleave]
    exact h
  | cons v outer =>
    have hentries : w.entries = v.key :: outer.map Visit.key := h.entries
    obtain ⟨hout, -⟩ := List.nodup_cons.1 hnodup
    simp only [Watch.leave, hentries]
    refine ⟨h.limit, ?_, fun key => ?_, rfl⟩
    · rw [h.stack, List.reverse_cons, List.dropLast_concat]
      rfl
    · rw [Finset.mem_erase, h.visiting]
      constructor
      · rintro ⟨hne, hmem⟩
        exact (List.mem_cons.1 hmem).resolve_left hne
      · intro hmem
        exact ⟨fun heq => hout (heq ▸ hmem), List.mem_cons_of_mem _ hmem⟩

/-- A move keeps guards in step. -/
theorem InStep.move (h : w.InStep g) (hg : g.Orderly) (m : Move) : (w.move m).InStep (g.move m) := by
  cases m with
  | leave => exact h.leave hg.nodup
  | enter v =>
    cases he : g.enter v with
    | error f => simpa only [Watch.move, Guard.move, h.enter_error he, he] using h
    | ok inside => simpa only [Watch.move, Guard.move, he] using (h.enter_ok he).2

/-- **A run keeps guards in step.** -/
theorem InStep.run (h : w.InStep g) (hg : g.Orderly) (moves : List Move) : (w.run moves).InStep (g.run moves) := by
  induction moves generalizing w g with
  | nil => exact h
  | cons m rest ih => exact ih (h.move hg m) (hg.move m)

end InStep

/-- What is to be said of a guard at any moment. A limit below zero leaves no more room than zero does. -/
structure Disciplined (w : Watch) : Prop where
  /-- The set has the keys of the stack. -/
  visiting : ∀ key, key ∈ w.visiting ↔ key ∈ w.stack.map Visit.key
  nodup : (w.stack.map Visit.key).Nodup
  depth_le : w.depth ≤ w.limit.toNat
  /-- A cell that is entered again closes the cycle from its place on the stack on. -/
  closes : ∀ v, v.key ∈ w.visiting → ∃ outer u inner, w.stack = outer ++ u :: inner ∧ u.key = v.key ∧
    (w.enter v).1 = .error (.cycle (u :: inner ++ [v]))
  /-- Any other cell is refused exactly where the guard is full. -/
  full : ∀ v, v.key ∉ w.visiting → ((w.enter v).1 = .error (.depth w.limit) ↔ w.depth = w.limit.toNat)
  /-- Where there is room it is put on the stack. -/
  enters : ∀ v, v.key ∉ w.visiting → w.depth ≠ w.limit.toNat →
    (w.enter v).1 = .ok () ∧ (w.enter v).2.stack = w.stack ++ [v]
  /-- Where a cell is refused nothing changes. -/
  refused : ∀ v f, (w.enter v).1 = .error f → (w.enter v).2 = w

/-- A list is what is in front of the first element of a kind, this element, and what is behind it. -/
theorem exists_drop_findIdx {stack : List Visit} {key : CellKey} (h : key ∈ stack.map Visit.key) :
    ∃ outer u inner, stack = outer ++ u :: inner ∧ u.key = key ∧
      stack.drop (stack.findIdx (·.key == key)) = u :: inner := by
  obtain ⟨u, hu, hkey⟩ := List.mem_map.1 h
  have hlt : stack.findIdx (·.key == key) < stack.length :=
    List.findIdx_lt_length_of_exists ⟨u, hu, by simp [hkey]⟩
  refine ⟨stack.take (stack.findIdx (·.key == key)), stack[stack.findIdx (·.key == key)],
    stack.drop (stack.findIdx (·.key == key) + 1), ?_, ?_, List.drop_eq_getElem_cons hlt⟩
  · rw [← List.drop_eq_getElem_cons hlt, List.take_append_drop]
  · simpa using List.findIdx_getElem (w := hlt)

theorem InStep.depth_le {w : Watch} {g : Guard} (h : w.InStep g) (hg : g.Orderly) : w.depth ≤ w.limit.toNat := by
  rw [h.depth, h.limit]
  exact hg.depth_le

theorem InStep.mem_keys {w : Watch} {g : Guard} (h : w.InStep g) (key : CellKey) :
    key ∈ w.visiting ↔ key ∈ w.stack.map Visit.key := by
  rw [h.visiting, h.stack, List.map_reverse, List.mem_reverse]
  rfl

/-- **A guard that is in step with an orderly one is disciplined.** -/
theorem InStep.disciplined {w : Watch} {g : Guard} (h : w.InStep g) (hg : g.Orderly) : w.Disciplined where
  visiting := h.mem_keys
  nodup := by
    rw [h.stack, List.map_reverse, List.nodup_reverse]
    exact hg.nodup
  depth_le := h.depth_le hg
  closes v hmem := by
    obtain ⟨outer, u, inner, hstack, hu, hdrop⟩ := exists_drop_findIdx ((h.mem_keys _).1 hmem)
    exact ⟨outer, u, inner, hstack, hu, by rw [enter_of_mem hmem, hdrop]⟩
  full v hnew := by
    rcases Nat.lt_or_ge w.depth w.limit.toNat with hroom | hfull
    · rw [enter_of_room hnew (Int.lt_toNat.1 hroom)]
      exact iff_of_false (fun hout => nomatch hout) hroom.ne
    · rw [enter_of_full hnew (Int.toNat_le.1 hfull)]
      exact iff_of_true rfl (Nat.le_antisymm (h.depth_le hg) hfull)
  enters v hnew hne := by
    rw [enter_of_room hnew (Int.lt_toNat.1 (Nat.lt_of_le_of_ne (h.depth_le hg) hne))]
    exact ⟨rfl, rfl⟩
  refused v f hf := by
    by_cases hmem : v.key ∈ w.visiting
    · rw [enter_of_mem hmem]
    rcases lt_or_ge (w.depth : Int) w.limit with hroom | hfull
    · rw [enter_of_room hmem hroom] at hf
      cases hf
    · rw [enter_of_full hmem hfull]

end Watch

/-! ## Evaluations -/

section Evaluations

variable {scope : Scope} {registry : Registry}

/-- An expression leaves the guard as it was, through any number of formula cells. -/
theorem confined_eval_guard (scope : Scope) (registry : Registry) (room : Nat) : ∀ g site (e : Expr),
    Confined (fun _ => True) (fun _ => True) g (e.eval registry (scope.read (scope.chained registry room) site)) := by
  have hM : Remembers (fun _ => True) fun _ => True := ⟨fun _ _ => trivial, fun _ _ => trivial⟩
  have step : ∀ {room : Nat}, (∀ g body site, Confined (fun _ => True) (fun _ => True) g
      (scope.chained registry room body site)) → ∀ g site (e : Expr),
        Confined (fun _ => True) (fun _ => True) g (e.eval registry (scope.read (scope.chained registry room) site)) :=
    fun hbody g site e => .expr (fun _ _ => trivial) (fun _ _ _ _ => trivial) (fun _ _ _ _ => trivial) fun _ _ cell _ =>
      .cell hM (fun _ _ _ _ => trivial) (fun _ _ _ _ => trivial) fun body inside _ _ => hbody inside body cell.site
  induction room with
  | zero => exact step fun _ _ _ => .throw trivial
  | succ room ih => exact step fun g body site => .body (fun _ _ => trivial) fun e _ => ih g (some site) e

/-- **An evaluation leaves the guard as it was**, with a value and with a failure. -/
theorem guard_eval (scope : Scope) (registry : Registry) (room : Nat) (site : Option RowSite) (e : Expr) (w : Walk) :
    (e.eval registry (scope.read (scope.chained registry room) site) w).2.guard = w.guard :=
  (confined_eval_guard scope registry room w.guard site e w rfl trivial).1

end Evaluations

/-- **The discipline of the guard.** After any moves from an empty guard the set of keys and the stack of cells that are
kept apart agree with each other and with the guard of an evaluation, which answers alike. No cell is on the stack
twice, and there are no more cells than the limit allows; a cell is refused exactly where it closes a cycle, which is
then reported from its place on the stack on, or where the guard is full, and then nothing changes. The evaluation of an
expression, at any row and with any outcome, leaves the guard as it was. -/
theorem guard_disciplined (limit : Int) (moves : List Move) :
    (Watch.run ⟨limit, ∅, [], []⟩ moves).Disciplined ∧
      (Watch.run ⟨limit, ∅, [], []⟩ moves).InStep (Guard.run ⟨limit, []⟩ moves) ∧
      (∀ v, ((Watch.run ⟨limit, ∅, [], []⟩ moves).enter v).1 =
        ((Guard.run ⟨limit, []⟩ moves).enter v).map fun _ => ()) ∧
      ∀ (scope : Scope) (registry : Registry) (room : Nat) (site : Option RowSite) (e : Expr) (w : Walk),
        (e.eval registry (scope.read (scope.chained registry room) site) w).2.guard = w.guard := by
  have hstart : Watch.InStep ⟨limit, ∅, [], []⟩ ⟨limit, []⟩ := ⟨rfl, rfl, fun _ => by simp [Guard.visiting], rfl⟩
  have hempty : Guard.Orderly ⟨limit, []⟩ := ⟨List.nodup_nil, Nat.zero_le _⟩
  have hrun := hstart.run hempty moves
  exact ⟨hrun.disciplined (hempty.run moves), hrun, hrun.answers, guard_eval⟩

end GameSheet
