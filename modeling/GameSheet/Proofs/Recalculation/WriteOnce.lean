import GameSheet.Proofs.Evaluation.Cycles
import GameSheet.Proofs.Evaluation.Writes
import GameSheet.Proofs.Recalculation.Depth

/-!
# Shared memos are written once

Evaluations of any formulas on one workbook, by engines of any kind, may share a memo one after the other
(`Evaluation.sharedMemo`). At no moment between the first and the last of them is an entry of the memo replaced by
another one: what is known once is known for good, and it is the outcome of a formula cell of the workbook, but no
refusal for depth (`Evaluation.writeOnce`).

The moments of the memo are those after the accesses of the evaluations, since nothing else writes into it (`Records`).
-/

namespace GameSheet

/-! ## The moments of a memo -/

section Moments

variable {w : Workbook} {before after : Option Memo} {accesses : List Access}

/-- What is known at a moment is known at all later moments. -/
theorem Records.pairwise (h : Records w before accesses after) :
    (before :: accesses.map Access.memo).Pairwise fun earlier later => ∀ key o, Recalls earlier key o →
      Recalls later key o := by
  induction h with
  | nil => exact List.pairwise_singleton _ _
  | cons ha _ ih =>
    refine List.pairwise_cons.2 ⟨fun later hlater key o hknown => ?_, ih⟩
    have hnext := ha.recalls hknown
    rcases List.mem_cons.1 hlater with rfl | hlater
    · exact hnext
    · exact (List.pairwise_cons.1 ih).1 later hlater key o hnext

/-- The last moment is after the last access. -/
theorem Records.getLast? (h : Records w before accesses after) :
    (before :: accesses.map Access.memo).getLast? = some after := by
  induction h with
  | nil => rfl
  | cons _ _ ih => rw [List.map_cons, List.getLast?_cons_cons, ih]

/-- What is known at a moment was known at first, or is the outcome of a formula cell that is kept. -/
theorem Records.entry (h : Records w before accesses after) {memo : Option Memo}
    (hmemo : memo ∈ before :: accesses.map Access.memo) {key : CellKey} {o : Except Failure CellValue}
    (ho : Recalls memo key o) :
    Recalls before key o ∨
      Kept o ∧ ∃ cell body, w.Contains cell ∧ cell.source = .formula body ∧ cell.key = key := by
  induction h with
  | nil =>
    rw [List.map_nil, List.mem_singleton] at hmemo
    exact .inl (hmemo ▸ ho)
  | @cons before after a rest ha _ ih =>
    rcases List.mem_cons.1 hmemo with rfl | hmemo
    · exact .inl ho
    refine (ih hmemo).elim (fun hknown => ?_) .inr
    cases ha with
    | nothing hsame => exact .inl (hsame ▸ hknown)
    | outcome hwritten hcell hs hkept _ =>
      rw [hwritten] at hknown
      rcases hknown.of_insert with ⟨rfl, rfl⟩ | ⟨-, hknown⟩
      · exact .inr ⟨hkept, _, _, hcell, hs, rfl⟩
      · exact .inl hknown

end Moments

/-! ## Evaluations that share a memo -/

/-- A formula that an engine evaluates, in a context or in none. -/
structure Evaluation where
  engine : Engine
  context : Option Context
  formula : String

namespace Evaluation

/-- The memo after evaluations that share it, one after the other. -/
def sharedMemo : Option Memo → List Evaluation → Option Memo
  | memo, [] => memo
  | memo, call :: rest => sharedMemo (call.engine.evaluateWith memo call.context call.formula).2 rest

/-- The accesses of evaluations that share a memo. -/
def sharedTrail : Option Memo → List Evaluation → List Access
  | _, [] => []
  | memo, call :: rest =>
    call.engine.trail memo call.context call.formula ++
      sharedTrail (call.engine.evaluateWith memo call.context call.formula).2 rest

/-- The memo of evaluations at all moments: empty at first, and then after each access. -/
def moments (calls : List Evaluation) : List (Option Memo) :=
  some ∅ :: (sharedTrail (some ∅) calls).map Access.memo

/-- Nothing but the accesses of the evaluations writes into the memo that they share. -/
theorem records_shared {w : Workbook} : ∀ {calls : List Evaluation} {memo : Option Memo},
    (∀ call ∈ calls, ∀ c ∈ call.context, c.workbook = w) →
      Records w memo (sharedTrail memo calls) (sharedMemo memo calls)
  | [], _, _ => .nil
  | call :: rest, memo, hw => by
    obtain ⟨hcall, hrest⟩ := List.forall_mem_cons.1 hw
    refine Records.append ?_ (records_shared hrest)
    rw [Engine.evaluateWith_eq]
    exact (Engine.keeps_steps call.engine hcall call.formula (call.engine.start memo)).records

/-- **Shared memos are written once.** Over evaluations of any formulas on one workbook that share a memo, empty at
first, what the memo knows of a cell at some moment it knows at every later moment and at the end; and at every moment
what it knows is no refusal for depth, and of a formula cell of the workbook. -/
theorem writeOnce {w : Workbook} {calls : List Evaluation} (hw : ∀ call ∈ calls, ∀ c ∈ call.context, c.workbook = w) :
    ((moments calls).Pairwise fun earlier later => ∀ key o, Recalls earlier key o → Recalls later key o) ∧
      (moments calls).getLast? = some (sharedMemo (some ∅) calls) ∧
        ∀ memo ∈ moments calls, ∀ key o, Recalls memo key o → (∀ f, o = .error f → f.code ≠ "recursion_limit") ∧
          ∃ cell body, w.Contains cell ∧ cell.source = .formula body ∧ cell.key = key := by
  have hrecords : Records w (some ∅) (sharedTrail (some ∅) calls) (sharedMemo (some ∅) calls) := records_shared hw
  refine ⟨hrecords.pairwise, hrecords.getLast?, fun memo hmemo key o ho => ?_⟩
  obtain ⟨hkept, hcell⟩ := (hrecords.entry hmemo ho).resolve_left not_recalls_empty
  exact ⟨fun f hf => Engine.code_ne_of_isKept (hkept f hf), hcell⟩

end Evaluation

/-- Two evaluations in the loop: the first column, and a formula that is tried in the place of its own formula. -/
def loopCalls : List Evaluation :=
  [⟨{}, some ⟨loop, "loop", "first", none⟩, "A"⟩, ⟨{}, some ⟨loop, "loop", "first", some "a"⟩, "IFERROR(B, A)"⟩]

/-- The first column of the loop is kept as a cycle while it is still being computed, and it stays so. -/
theorem writeOnce_loop :
    (∀ call ∈ loopCalls, ∀ c ∈ call.context, c.workbook = loop) ∧
      ((Evaluation.moments loopCalls).Pairwise fun earlier later => ∀ key o, Recalls earlier key o →
        Recalls later key o) ∧
      Recalls (Evaluation.sharedMemo (some ∅) loopCalls) ⟨"loop", "first", "a"⟩ (.error (.cycle
        [⟨⟨"loop", "first", "a"⟩, "Loop!first/A"⟩, ⟨⟨"loop", "first", "b"⟩, "Loop!first/B"⟩,
          ⟨⟨"loop", "first", "a"⟩, "Loop!first/A"⟩])) ∧
      ∃ cell body, loop.Contains cell ∧ cell.source = .formula body ∧ cell.key = ⟨"loop", "first", "a"⟩ := by
  have hw : ∀ call ∈ loopCalls, ∀ c ∈ call.context, c.workbook = loop := by simp [loopCalls]
  have hentry : Recalls (Evaluation.sharedMemo (some ∅) loopCalls) ⟨"loop", "first", "a"⟩ (.error (.cycle
      [⟨⟨"loop", "first", "a"⟩, "Loop!first/A"⟩, ⟨⟨"loop", "first", "b"⟩, "Loop!first/B"⟩,
        ⟨⟨"loop", "first", "a"⟩, "Loop!first/A"⟩])) := by
    unfold Recalls
    cbv
  obtain ⟨hpairwise, hlast, hentries⟩ := Evaluation.writeOnce hw
  exact ⟨hw, hpairwise, hentry, (hentries _ (List.mem_of_getLast? hlast) _ _ hentry).2⟩

end GameSheet
