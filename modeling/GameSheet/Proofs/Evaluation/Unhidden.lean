import GameSheet.Proofs.Evaluation.Chains
import GameSheet.Proofs.Evaluation.Trail

/-!
# Cycles and refusals for depth are not hidden

A cycle and a chain that is too deep are failures of the structure of a workbook (`Failure.isStructural`). Where a cell
that is read ends in one of them, the whole evaluation ends in it, and an evaluation ends in no other ones
(`Engine.evaluateWith_structural`). It makes no difference how deep the cell is nested in operators, arguments,
branches, rescues and other cells, and whether it was computed or known from a memo.

After a structural failure nothing is evaluated any more: no way of going on gives a step after it. So it is enough to
compare a step with its own trail (`Surfaces`). For the body of a cell only one half is needed (`Unhidden`), since the
access to the cell itself is on the trail as well.
-/

namespace GameSheet

open Formula

/-- Whether the failure is one of the structure of a workbook: a cycle, or a chain that is too deep. -/
def Failure.isStructural : Failure → Bool
  | cycle _ | depth _ => true
  | _ => false

namespace Failure

variable {f : Failure}

theorem isStructural_of_code (h : f.code = "cycle_error" ∨ f.code = "recursion_limit") : f.isStructural = true := by
  rcases h with h | h
  · obtain ⟨path, rfl⟩ := exists_cycle_of_code h
    rfl
  · obtain ⟨limit, rfl⟩ := exists_depth_of_code h
    rfl

/-- No formula recovers from a structural failure. -/
theorem isMaskable_of_isStructural (h : f.isStructural = true) : f.isMaskable = false := by
  cases f with
  | cycle path => rfl
  | depth limit => rfl
  | _ => cases h

/-- What an expression raises by itself is not structural. -/
theorem isStructural_of_raised {registry : Registry} (h : Raised registry f) : f.isStructural = false := by
  cases h <;> rfl

/-- What a search fails with is not structural. -/
theorem isStructural_of_searches {w : Workbook} {α : Type} {o : Except Failure α} (h : Searches w o)
    (ho : o = .error f) : f.isStructural = false := by
  rcases h f ho with ⟨m, rfl⟩ | ⟨e, cell, rfl, -⟩ <;> rfl

end Failure

/-! ## Steps -/

/-- In a state, the structural failures of the accesses of a step are those of the step. -/
def SurfacesAt (w : Walk) {α : Type} (x : Eval α) (t : Trail) : Prop :=
  ∀ f, f.isStructural = true → ((∃ a ∈ t w, a.outcome = .error f) ↔ (x w).1 = .error f)

/-- The structural failures of the accesses of a step are those of the step. -/
def Surfaces {α : Type} (x : Eval α) (t : Trail) : Prop :=
  ∀ w, SurfacesAt w x t

/-- The structural failures of the accesses of a step are among those of the step. -/
def Unhidden {α : Type} (x : Eval α) (t : Trail) : Prop :=
  ∀ w, ∀ a ∈ t w, ∀ f, f.isStructural = true → a.outcome = .error f → (x w).1 = .error f

section Steps

variable {α β : Type} {w : Walk} {x : Eval α} {t : Trail} {k : α → Eval β} {next : α → Trail}

theorem Surfaces.unhidden (h : Surfaces x t) : Unhidden x t :=
  fun w a ha f hf hout => (h w f hf).1 ⟨a, ha, hout⟩

/-- A step that reads nothing and has one outcome, no structural failure. -/
theorem SurfacesAt.const {o : Except Failure α} {notes : List Warning} (hx : x.Only o notes)
    (ho : ∀ f, o = .error f → f.isStructural = false) : SurfacesAt w x .quiet := by
  intro f hf
  rw [hx w]
  constructor
  · rintro ⟨a, ha, -⟩
    exact absurd ha List.not_mem_nil
  · intro hout
    rw [ho f hout] at hf
    cases hf

/-- One step after another. After a structural failure there is no other step. -/
theorem SurfacesAt.bind (hx : SurfacesAt w x t)
    (hk : ∀ a after, x w = (.ok a, after) → SurfacesAt after (k a) (next a)) :
    SurfacesAt w (x >>= k) (t.andThen x next) := by
  intro f hf
  have hfirst := hx f hf
  rcases hw : x w with ⟨o, after⟩
  rw [hw] at hfirst
  cases o with
  | error f' =>
    rw [Trail.andThen_error hw, Eval.bind_error hw, hfirst, Except.error.injEq, Except.error.injEq]
  | ok a =>
    rw [Trail.andThen_ok hw, Eval.bind_ok hw, ← hk a after hw f hf]
    have hnone : ¬∃ b ∈ t w, b.outcome = .error f := fun h => nomatch hfirst.1 h
    constructor
    · rintro ⟨b, hb, hout⟩
      rcases List.mem_append.1 hb with hb | hb
      · exact absurd ⟨b, hb, hout⟩ hnone
      · exact ⟨b, hb, hout⟩
    · rintro ⟨b, hb, hout⟩
      exact ⟨b, List.mem_append_right _ hb, hout⟩

/-- A step and one after it that reads nothing. -/
theorem SurfacesAt.last (hx : SurfacesAt w x t)
    (hk : ∀ a after, x w = (.ok a, after) → SurfacesAt after (k a) .quiet) : SurfacesAt w (x >>= k) t := by
  rw [← Trail.andThen_quiet t x]
  exact hx.bind hk

/-- A structural failure is none from which a formula may recover. -/
theorem SurfacesAt.attempt (hx : SurfacesAt w x t) : SurfacesAt w (Eval.attempt x) t := by
  intro f hf
  have hfirst := hx f hf
  rcases hw : x w with ⟨o, after⟩
  rw [hw] at hfirst
  cases o with
  | ok a =>
    rw [Eval.attempt_ok hw, hfirst]
    exact iff_of_false (fun h => nomatch h) fun h => nomatch h
  | error f' =>
    rw [Eval.attempt_error hw, hfirst]
    cases hmask : f'.isMaskable with
    | false => simp only [Bool.false_eq_true, if_false, Except.error.injEq]
    | true =>
      -- the failure is recovered from, so it is another one
      refine iff_of_false (fun h => ?_) fun h => nomatch h
      cases h
      rw [Failure.isMaskable_of_isStructural hf] at hmask
      cases hmask

/-- The failures of a step inside a cell are at least those of the accesses in it. -/
theorem Unhidden.within (h : Unhidden x t) (v : Visit) : Unhidden (Eval.within v x) (.within v t) := by
  intro w a ha f hf hout
  cases he : w.guard.enter v with
  | error refusal =>
    rw [Trail.within_error he] at ha
    exact absurd ha List.not_mem_nil
  | ok inside =>
    rw [Trail.within_ok he] at ha
    rw [Eval.within_ok he]
    exact h _ a ha f hf hout

end Steps

/-- Structural failures surface through all ways of going on. -/
theorem traceable_surfaces (registry : Registry) :
    Traceable registry fun (α : Type) (x : Eval α) (t : Trail) => Surfaces x t where
  quiet hx ho _ := .const hx fun f hf => Failure.isStructural_of_raised (ho f hf)
  sequence hx hk w := (hx w).bind fun a after ha => hk a ⟨w, after, ha⟩ after
  recovery hx w := (hx w).attempt

/-! ## Cells and expressions -/

namespace Scope

variable {scope : Scope} {registry : Registry}

/-- **A structural failure inside a cell is the failure of the cell.** -/
theorem surfaces_cell {evaluate : Evaluator} {inner : BodyTrail} {cell : CellSite}
    (h : ∀ body, cell.source = .formula body → Unhidden (evaluate body cell.site) (inner body cell.site)) :
    Surfaces (cellValue evaluate cell) (cellTrail evaluate inner cell) := by
  intro w f hf
  constructor
  · rintro ⟨a, ha, hout⟩
    rcases List.mem_append.1 ha with ha | ha
    · cases hs : cell.source with
      | literal raw =>
        rw [insideTrail_literal hs] at ha
        exact absurd ha List.not_mem_nil
      | formula body =>
        cases hknown : w.known? cell.key with
        | some o =>
          rw [insideTrail_known hknown] at ha
          exact absurd ha List.not_mem_nil
        | none =>
          rw [insideTrail_fresh hs hknown] at ha
          rw [cellValue_formula hs, formulaValue_fresh hknown, (remember_apply _ _ w).1]
          exact (h body hs).within cell.visit w a ha f hf hout
    · cases List.mem_singleton.1 ha
      exact hout
  · exact fun hout => ⟨_, List.mem_append_right _ (List.mem_singleton_self _), hout⟩

/-- The structural failures of an expression are those of the cells to which it leads, and of what is read inside
these. -/
theorem surfaces_expr {evaluate : Evaluator} {inner : BodyTrail}
    (h : ∀ body site, Unhidden (evaluate body site) (inner body site)) (site : Option RowSite) (e : Expr) :
    Surfaces (e.eval registry (scope.read evaluate site))
      (e.trail registry (scope.read evaluate site) (scope.readTrail evaluate inner site)) := by
  refine (traceable_surfaces registry).eval e fun r _ w => ?_
  refine .bind (.const (Eval.only_ofExcept _) fun f => Failure.isStructural_of_searches searches_target) ?_
  exact fun cell after _ => surfaces_cell (fun body _ => h body cell.site) after

/-- **No structural failure inside a body is hidden**, through any number of formula cells. -/
theorem unhidden_chained (scope : Scope) (registry : Registry) (room : Nat) : ∀ body site,
    Unhidden (scope.chained registry room body site) (scope.chainedTrail registry room body site) := by
  induction room with
  | zero => exact fun _ _ _ a ha => absurd ha List.not_mem_nil
  | succ room ih =>
    intro body site
    refine Surfaces.unhidden fun w => .bind (.const (Eval.only_ofExcept _) fun f hf => ?_) fun e after _ =>
      surfaces_expr ih (some site) e after
    cases hp : parse registry body with
    | ok e => rw [hp] at hf; cases hf
    | error o => rw [hp] at hf; cases hf; rfl

theorem surfaces_value (scope : Scope) (registry : Registry) (site : Option RowSite) (e : Expr) :
    Surfaces (scope.value registry site e) (scope.valueTrail registry site e) :=
  surfaces_expr (unhidden_chained scope registry _) site e

end Scope

/-! ## Evaluations -/

namespace Engine

variable {engine : Engine}

/-- The first cell is always entered, so that the failures inside it are all that there are. -/
theorem surfacesAt_valueAt (workbook : Workbook) (site : Option RowSite) (columnId : Option String) (e : Expr)
    (memo : Option Memo) :
    SurfacesAt (engine.start memo) (engine.valueAt workbook site columnId e)
      (engine.trailAt workbook site columnId e) := by
  have hvalue := Scope.surfaces_value ⟨workbook, engine.options⟩ engine.registry site e
  cases site with
  | none => exact hvalue _
  | some site =>
    cases columnId with
    | none => exact hvalue _
    | some id =>
      refine .bind (.const (Eval.only_ofExcept _) fun f =>
        Failure.isStructural_of_searches (searches_ownCell workbook)) fun cell after hcell f hf => ?_
      rw [Eval.ofExcept_apply] at hcell
      cases (Prod.mk.inj hcell).2
      have he := Guard.enter_first (Int.natCast_pos.2 engine.options.maxDepth_pos) cell.visit
      rw [Trail.within_ok he, show Visit.mk cell.key cell.label = cell.visit from rfl, Eval.within_ok he]
      exact hvalue _ f hf

/-- What is read and what is checked fails with no structural failure. -/
theorem surfacesAt_steps (engine : Engine) (memo : Option Memo) (context : Option Context) (formula : String) :
    SurfacesAt (engine.start memo) (engine.steps context formula) (engine.stepsTrail context formula) := by
  unfold steps stepsTrail
  refine .bind (.const (Eval.only_ofExcept _) fun f =>
    Failure.isStructural_of_searches (searches_mapM_site context)) fun site after hsite => ?_
  rw [Eval.ofExcept_apply] at hsite
  cases (Prod.mk.inj hsite).2
  refine .bind (.const (Eval.only_ofExcept _) fun f hf => ?_) fun e after he => ?_
  · rcases read_error hf with ⟨e, -, rfl⟩ | rfl <;> rfl
  rw [Eval.ofExcept_apply] at he
  cases (Prod.mk.inj he).2
  refine .last (surfacesAt_valueAt _ site _ e memo) fun v after _ => .const (Eval.only_ofExcept _) fun f hf => ?_
  rcases checkResult_error hf with rfl | rfl <;> rfl

/-- **Cycles and refusals for depth are not hidden.** Where a cell that is read during an evaluation, at whatever depth,
ends in a cycle or is refused for its depth, the evaluation ends in this failure; and these are all evaluations that end
so. -/
theorem evaluateWith_structural (engine : Engine) (memo : Option Memo) (context : Option Context) (formula : String)
    {f : Failure} (hcode : f.code = "cycle_error" ∨ f.code = "recursion_limit") :
    (∃ a ∈ engine.trail memo context formula, a.outcome = .error f) ↔
      (engine.evaluateWith memo context formula).1 = .failed f := by
  have hsteps := surfacesAt_steps engine memo context formula f (Failure.isStructural_of_code hcode)
  rw [evaluateWith_eq]
  refine hsteps.trans ?_
  rcases engine.steps context formula (engine.start memo) with ⟨o, after⟩
  cases o with
  | ok v => exact iff_of_false (fun h => nomatch h) fun h => nomatch h
  | error f' => simp only [outcomeOf, Except.error.injEq, Outcome.failed.injEq]

end Engine

/-- In the loop a rescue around a branch does not hide the cycle that its condition closes: a cell was read that ends in
it, and so does the formula. -/
theorem evaluateWith_structural_loop :
    (∃ a ∈ Engine.trail {} (some ∅) (some ⟨loop, "loop", "first", none⟩) "IFERROR(IF(-B, A, A), A)",
      a.outcome = .error (.cycle [⟨⟨"loop", "first", "b"⟩, "Loop!first/B"⟩, ⟨⟨"loop", "first", "a"⟩, "Loop!first/A"⟩,
        ⟨⟨"loop", "first", "b"⟩, "Loop!first/B"⟩])) ∧
      (Engine.evaluateWith {} (some ∅) (some ⟨loop, "loop", "first", none⟩) "IFERROR(IF(-B, A, A), A)").1 =
        .failed (.cycle [⟨⟨"loop", "first", "b"⟩, "Loop!first/B"⟩, ⟨⟨"loop", "first", "a"⟩, "Loop!first/A"⟩,
          ⟨⟨"loop", "first", "b"⟩, "Loop!first/B"⟩]) := by
  have hfailed : (Engine.evaluateWith {} (some ∅) (some ⟨loop, "loop", "first", none⟩) "IFERROR(IF(-B, A, A), A)").1 =
      .failed (.cycle [⟨⟨"loop", "first", "b"⟩, "Loop!first/B"⟩, ⟨⟨"loop", "first", "a"⟩, "Loop!first/A"⟩,
        ⟨⟨"loop", "first", "b"⟩, "Loop!first/B"⟩]) := by cbv
  exact ⟨(Engine.evaluateWith_structural {} (some ∅) _ _ (.inl rfl)).2 hfailed, hfailed⟩

end GameSheet
