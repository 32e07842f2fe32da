import GameSheet.Proofs.Evaluation.Confined
import GameSheet.Proofs.Evaluation.Ideal

/-!
# More room for chains

The limit of the guard decides whether a chain of cells is refused, and nothing else. So a step that is not refused
does the same under a higher limit (`Deepens`): it has the same outcome, and it leaves the same memo and the same
warnings. A refusal anywhere inside a step is the outcome of the whole step, since no formula recovers from it; this is
what lets the relation speak of the outcome only (`Deepens.attempt`).

* **More room changes nothing else** (`Engine.evaluate_deepen`): a formula whose chains are not refused under a limit
  has the same outcome under every higher one.
-/

namespace GameSheet

open Formula

namespace Guard

/-- The guard with another limit. -/
def withLimit (g : Guard) (limit : Int) : Guard :=
  ⟨limit, g.stack⟩

variable {g inside : Guard} {limit : Int} {v : Visit}

/-- A cell that is entered is entered under a higher limit. -/
theorem enter_withLimit (hlimit : g.limit ≤ limit) (h : g.enter v = .ok inside) :
    (g.withLimit limit).enter v = .ok (inside.withLimit limit) := by
  obtain ⟨hmem, hroom, rfl⟩ := enter_ok h
  have hroom' : ¬limit ≤ g.depth := by omega
  have hmem' : v.key ∉ (g.withLimit limit).visiting := hmem
  rw [enter, if_neg hmem', if_neg (show ¬(g.withLimit limit).limit ≤ (g.withLimit limit).depth from hroom')]
  rfl

/-- A cell that waits already is refused as it is under another limit. -/
theorem enter_withLimit_of_mem (limit : Int) (h : v.key ∈ g.visiting) : (g.withLimit limit).enter v = g.enter v := by
  rw [enter, enter, if_pos h, if_pos (show v.key ∈ (g.withLimit limit).visiting from h)]
  rfl

theorem leave_withLimit (h : g.enter v = .ok inside) (limit : Int) :
    (inside.withLimit limit).leave = g.withLimit limit := by
  rw [(enter_ok h).2.2]
  rfl

end Guard

/-! ## Steps under a higher limit -/

/-- Unless the first step is cut off, the second one does under the limit what the first one does. -/
def Deepens (limit : Int) (g : Guard) {α : Type} (x y : Eval α) : Prop :=
  ∀ w : Walk, w.guard = g → (x w).2.guard = g ∧ (¬Cut (x w).1 →
    y { w with guard := g.withLimit limit } = ((x w).1, { (x w).2 with guard := g.withLimit limit }))

namespace Deepens

variable {limit : Int} {g : Guard} {α β : Type} {x y : Eval α} {k l : α → Eval β}

/-- Where the first step ends, the second one ends. -/
theorem apply (h : Deepens limit g x y) {w after : Walk} (hg : w.guard = g) {o : Except Failure α}
    (hx : x w = (o, after)) : after.guard = g ∧
      (¬Cut o → y { w with guard := g.withLimit limit } = (o, { after with guard := g.withLimit limit })) := by
  have hw := h w hg
  rwa [hx] at hw

theorem const {o : Except Failure α} {notes : List Warning} (hx : x.Only o notes) : Deepens limit g x x := by
  intro w hg
  rw [hx w, hx { w with guard := g.withLimit limit }]
  exact ⟨hg, fun _ => rfl⟩

/-- A step that is always cut off is deepened by any step. -/
theorem cut {depth : Int} : Deepens limit g (throw (.depth depth)) y :=
  fun _ hg => ⟨hg, fun h => absurd ⟨depth, rfl⟩ h⟩

theorem bind (hxy : Deepens limit g x y) (hkl : ∀ a, x.Returns a → Deepens limit g (k a) (l a)) :
    Deepens limit g (x >>= k) (y >>= l) := by
  intro w hg
  rcases hx : x w with ⟨o, after⟩
  obtain ⟨hguard, hy⟩ := hxy.apply hg hx
  cases o with
  | error f =>
    rw [Eval.bind_error hx]
    refine ⟨hguard, fun hcut => ?_⟩
    rw [Eval.bind_error (hy fun h => hcut (cut_error.1 h))]
  | ok a =>
    rw [Eval.bind_ok hx, Eval.bind_ok (hy (not_cut_ok a))]
    exact hkl a ⟨w, after, hx⟩ after hguard

/-- No formula recovers from being cut off. -/
theorem attempt (hxy : Deepens limit g x y) : Deepens limit g (Eval.attempt x) (Eval.attempt y) := by
  intro w hg
  rcases hx : x w with ⟨o, after⟩
  obtain ⟨hguard, hy⟩ := hxy.apply hg hx
  cases o with
  | ok a =>
    rw [Eval.attempt_ok hx, Eval.attempt_ok (hy (not_cut_ok a))]
    exact ⟨hguard, fun _ => rfl⟩
  | error f =>
    rw [Eval.attempt_error hx]
    refine ⟨hguard, fun hcut => ?_⟩
    rw [Eval.attempt_error (hy fun ⟨depth, h⟩ => hcut ⟨depth, by cases h; rfl⟩)]

theorem within {v : Visit} (hlimit : g.limit ≤ limit)
    (h : ∀ inside, g.enter v = .ok inside → Deepens limit inside x y) :
    Deepens limit g (Eval.within v x) (Eval.within v y) := by
  intro w hg
  cases he : g.enter v with
  | error f =>
    rw [Eval.within_error (hg ▸ he)]
    refine ⟨hg, fun hcut => ?_⟩
    rcases Guard.enter_error he with ⟨hmem, rfl⟩ | rfl
    · have he' : (g.withLimit limit).enter v = .error (.cycle (g.cycleTo v)) := by
        rw [Guard.enter_withLimit_of_mem limit hmem, he]
      rw [Eval.within_error he']
    · exact absurd ⟨g.limit, rfl⟩ hcut
  | ok inside =>
    rw [Eval.within_ok (hg ▸ he)]
    obtain ⟨hguard, hy⟩ := h inside he { w with guard := inside } rfl
    refine ⟨?_, fun hcut => ?_⟩
    · dsimp only
      rw [hguard, Guard.leave_enter he]
    · have he' : (g.withLimit limit).enter v = .ok (inside.withLimit limit) := Guard.enter_withLimit hlimit he
      rw [Eval.within_ok he']
      dsimp only at hy hcut ⊢
      rw [hy hcut, Guard.leave_withLimit he]

theorem remember {x y : Eval CellValue} (key : CellKey) (hxy : Deepens limit g x y) :
    Deepens limit g (Eval.remember key x) (Eval.remember key y) := by
  intro w hg
  rcases hx : x w with ⟨o, after⟩
  obtain ⟨hguard, hy⟩ := hxy.apply hg hx
  cases o with
  | ok a =>
    rw [Eval.remember_ok hx, Eval.remember_ok (hy (not_cut_ok a))]
    exact ⟨hguard, fun _ => rfl⟩
  | error f =>
    rw [Eval.remember_error hx]
    refine ⟨by cases f.isKept <;> exact hguard, fun hcut => ?_⟩
    rw [Eval.remember_error (hy hcut)]
    cases f.isKept <;> rfl

end Deepens

/-- Doing the same under a higher limit is kept by all ways of going on. -/
theorem composable_deepens (registry : Registry) (limit : Int) (g : Guard) :
    Composable registry fun (α : Type) (x : Bool → Eval α) => Deepens limit g (x false) (x true) where
  value a := .const (Eval.only_pure a)
  failure _ := .const (Eval.only_throw _)
  warning note := .const (Eval.only_warn note)
  sequence hx hk := hx.bind fun a ha => hk a ⟨false, ha⟩
  recovery hx := hx.attempt

/-! ## Expressions -/

section Expressions

variable {limit : Int} {g : Guard} {scope scope' : Scope} {registry : Registry}

/-- The values of a cell are the same under a higher limit if those of its body are. -/
theorem deepens_cell {evaluate evaluate' : Evaluator} {cell : CellSite} (hlimit : g.limit ≤ limit)
    (h : ∀ body inside, g.enter cell.visit = .ok inside →
      Deepens limit inside (evaluate body cell.site) (evaluate' body cell.site)) :
    Deepens limit g (Scope.cellValue evaluate cell) (Scope.cellValue evaluate' cell) := by
  cases hs : cell.source with
  | literal raw =>
    rw [Scope.cellValue_literal hs, Scope.cellValue_literal hs]
    exact .const (Eval.only_ofExcept _)
  | formula body =>
    intro w hg
    rw [Scope.cellValue_formula hs, Scope.cellValue_formula hs]
    have hsame : ({ w with guard := g.withLimit limit } : Walk).known? cell.key = w.known? cell.key := rfl
    cases hknown : w.known? cell.key with
    | some o =>
      rw [formulaValue_known hknown, formulaValue_known (hsame.trans hknown)]
      exact ⟨hg, fun _ => rfl⟩
    | none =>
      rw [formulaValue_fresh hknown, formulaValue_fresh (hsame.trans hknown)]
      exact Deepens.remember cell.key (.within hlimit (h body)) w hg

/-- The values of an expression are the same under a higher limit if those of the bodies of cells are. -/
theorem deepens_expr {evaluate evaluate' : Evaluator} {site : Option RowSite}
    (htarget : ∀ site r, scope'.target site r = scope.target site r) (hlimit : g.limit ≤ limit)
    (h : ∀ (cell : CellSite) body inside, g.enter cell.visit = .ok inside →
      Deepens limit inside (evaluate body cell.site) (evaluate' body cell.site)) (e : Expr) :
    Deepens limit g (e.eval registry (scope.read evaluate site)) (e.eval registry (scope'.read evaluate' site)) := by
  refine (composable_deepens registry limit g).eval
    (fun i => cond i (scope'.read evaluate' site) (scope.read evaluate site)) e fun r _ => ?_
  show Deepens limit g (scope.read evaluate site r) (scope'.read evaluate' site r)
  rw [Scope.read, Scope.read, htarget]
  exact .bind (.const (Eval.only_ofExcept _)) fun cell _ => deepens_cell hlimit (h cell)

/-- **An expression has the same values under a higher limit**, with at least as many levels for its chains. -/
theorem deepens_eval (htarget : ∀ site r, scope'.target site r = scope.target site r) :
    ∀ {room room' : Nat} {g : Guard} {site : Option RowSite} (e : Expr), room ≤ room' → g.limit ≤ limit →
      Deepens limit g (e.eval registry (scope.read (scope.chained registry room) site))
        (e.eval registry (scope'.read (scope'.chained registry room') site)) := by
  intro room
  induction room with
  | zero =>
    intro room' g site e _ hlimit
    exact deepens_expr htarget hlimit (fun _ _ _ _ => .cut) e
  | succ room ih =>
    intro room' g site e hroom hlimit
    obtain ⟨room', rfl⟩ : ∃ k, room' = k + 1 := ⟨room' - 1, by omega⟩
    refine deepens_expr htarget hlimit (fun cell body inside he => ?_) e
    have hinside : inside.limit ≤ limit := by
      rw [(Guard.enter_ok he).2.2]
      exact hlimit
    exact .bind (.const (Eval.only_ofExcept _)) fun e' _ => ih e' (Nat.le_of_succ_le_succ hroom) hinside

end Expressions

/-! ## Evaluations -/

/-- The options with another limit on chains, at least as high. -/
def Options.deepen (options : Options) (depth : Nat) (h : options.maxDepth ≤ depth) : Options :=
  { options with maxDepth := depth, maxDepth_pos := Nat.le_trans options.maxDepth_pos h }

namespace Engine

/-- The engine with another limit on chains, at least as high. -/
def deepen (engine : Engine) (depth : Nat) (h : engine.options.maxDepth ≤ depth) : Engine :=
  ⟨engine.registry, engine.options.deepen depth h⟩

section Deepen

variable {engine : Engine} {depth : Nat} (h : engine.options.maxDepth ≤ depth) {g : Guard}

/-- What a reference leads to does not depend on the limit. -/
theorem target_deepen (w : Workbook) (site : Option RowSite) (r : Reference) :
    Scope.target ⟨w, engine.options.deepen depth h⟩ site r = Scope.target ⟨w, engine.options⟩ site r := by
  cases r <;> rfl

theorem deepens_value (w : Workbook) (site : Option RowSite) (e : Expr) (hlimit : g.limit ≤ depth) :
    Deepens depth g (Scope.value ⟨w, engine.options⟩ engine.registry site e)
      (Scope.value ⟨w, engine.options.deepen depth h⟩ engine.registry site e) :=
  deepens_eval (target_deepen h w) e h hlimit

theorem deepens_valueAt (w : Workbook) (site : Option RowSite) (columnId : Option String) (e : Expr)
    (hlimit : g.limit ≤ depth) :
    Deepens depth g (engine.valueAt w site columnId e) ((engine.deepen depth h).valueAt w site columnId e) := by
  cases site with
  | none => exact deepens_value h w none e hlimit
  | some site =>
    cases columnId with
    | none => exact deepens_value h w (some site) e hlimit
    | some id =>
      refine .bind (.const (Eval.only_ofExcept _)) fun cell _ => .within hlimit fun inside he => ?_
      refine deepens_value h w (some site) e ?_
      rw [(Guard.enter_ok he).2.2]
      exact hlimit

theorem deepens_steps (context : Option Context) (formula : String) (hlimit : g.limit ≤ depth) :
    Deepens depth g (engine.steps context formula) ((engine.deepen depth h).steps context formula) := by
  refine .bind (.const (Eval.only_ofExcept _)) fun site _ => .bind (.const (Eval.only_ofExcept _)) fun e _ => ?_
  exact .bind (deepens_valueAt h _ site _ e hlimit) fun v _ => .const (Eval.only_ofExcept _)

/-- With or without a memo, more room for chains changes neither the outcome nor what is remembered. -/
theorem evaluateWith_deepen (memo : Option Memo) (context : Option Context) (formula : String)
    (hcode : (engine.evaluateWith memo context formula).1.code? ≠ some "recursion_limit") :
    (engine.deepen depth h).evaluateWith memo context formula = engine.evaluateWith memo context formula := by
  obtain ⟨-, hdeep⟩ := deepens_steps h context formula (Int.ofNat_le.2 h) (engine.start memo) rfl
  rw [evaluateWith_eq] at hcode
  rw [evaluateWith_eq, evaluateWith_eq]
  rcases hrun : engine.steps context formula (engine.start memo) with ⟨o, after⟩
  rw [hrun] at hcode hdeep
  have hcut : ¬Cut o := by
    rintro ⟨limit, rfl⟩
    exact hcode rfl
  have hrun' : (engine.deepen depth h).steps context formula ((engine.deepen depth h).start memo) = _ := hdeep hcut
  rw [hrun']
  cases o <;> rfl

/-- **More room changes nothing else.** A formula whose evaluation is not refused for its depth has the same outcome,
with the same warnings and messages, under every higher limit. -/
theorem evaluate_deepen (context : Option Context) (formula : String)
    (hcode : (engine.evaluate context formula).code? ≠ some "recursion_limit") :
    (engine.deepen depth h).evaluate context formula = engine.evaluate context formula :=
  congrArg Prod.fst (evaluateWith_deepen h none context formula hcode)

end Deepen

end Engine

/-- A chain of two formula cells, which a limit of two allows, comes to the same under a limit of nine. -/
theorem evaluate_deepen_ledger :
    (Engine.evaluate ⟨.standard, { maxDepth := 2 }⟩ (some (ledgerContext none)) "Total").code? ≠
        some "recursion_limit" ∧
      (Engine.deepen ⟨.standard, { maxDepth := 2 }⟩ 9 (by decide)).evaluate (some (ledgerContext none)) "Total" =
        Engine.evaluate ⟨.standard, { maxDepth := 2 }⟩ (some (ledgerContext none)) "Total" := by
  have hvalue : Engine.evaluate ⟨.standard, { maxDepth := 2 }⟩ (some (ledgerContext none)) "Total" =
      .success (.text "five") [] := by cbv
  have hcode : (Engine.evaluate ⟨.standard, { maxDepth := 2 }⟩ (some (ledgerContext none)) "Total").code? ≠
      some "recursion_limit" := by
    rw [hvalue]
    exact (Option.some_ne_none _).symm
  exact ⟨hcode, Engine.evaluate_deepen _ _ _ hcode⟩

end GameSheet
