import Mathlib
import GameSheet.Proofs.Evaluation.Composition

/-!
# The built-in functions keep to their declarations

A built-in function that is called with as many arguments as it declares, and with texts exactly where it declares
them, never finds them unsuited (`standard_honest`). So an expression under the standard registry raises nothing that
a memo would not keep (`Raised.isKept_standard`).
-/

namespace GameSheet

open Implementation

/-- The function takes whatever arguments it declares. -/
def FunctionSpec.Honest (f : FunctionSpec) : Prop :=
  ∀ g args, f.implementation = some g → f.accepts args.length = true → f.Suits args → g args ≠ .error .unsuited

/-! ## Functions of numbers -/

theorem numbers?_of_suits {f : FunctionSpec} (hf : f.textArgs = []) : ∀ {args : List Argument}, f.Suits args →
    ∃ xs, numbers? args = some xs ∧ xs.length = args.length
  | [], _ => ⟨[], rfl, rfl⟩
  | .text s :: rest, h => absurd ((h 0 _ rfl).1 ⟨s, rfl⟩) (by simp [hf])
  | .number x :: rest, h => by
    have hrest : f.Suits rest := fun i a ha => by simpa [hf] using h (i + 1) a (by simpa using ha)
    obtain ⟨xs, hxs, hlen⟩ := numbers?_of_suits hf hrest
    exact ⟨x :: xs, by simp [numbers?, hxs], by simp [hlen]⟩

/-- A function of numbers is honest if it is defined for the counts that it declares. -/
theorem FunctionSpec.Honest.ofNumbers {f : FunctionSpec} {g : List Float → Except Fault Float}
    (hg : f.implementation = some (Implementation.ofNumbers g)) (hf : f.textArgs = [])
    (h : ∀ xs : List Float, f.accepts xs.length = true → g xs ≠ .error .unsuited) : f.Honest := by
  intro g' args hg' haccepts hsuits
  obtain rfl : Implementation.ofNumbers g = g' := Option.some.inj (hg.symm.trans hg')
  obtain ⟨xs, hxs, hlen⟩ := numbers?_of_suits hf hsuits
  simp only [Implementation.ofNumbers, hxs]
  exact h xs (hlen ▸ haccepts)

theorem FunctionSpec.Honest.total {f : FunctionSpec} {g : List Float → Option Float}
    (hg : f.implementation = some (Implementation.total g)) (hf : f.textArgs = [])
    (h : ∀ xs : List Float, f.accepts xs.length = true → (g xs).isSome = true) : f.Honest := by
  refine .ofNumbers hg hf fun xs hxs => ?_
  obtain ⟨y, hy⟩ := Option.isSome_iff_exists.1 (h xs hxs)
  simp [hy]

theorem FunctionSpec.Honest.periodic {f : FunctionSpec} {p : Float → Float}
    (hg : f.implementation = some (General.periodic p)) (hf : f.textArgs = [])
    (hone : ∀ n, f.accepts n = true → n = 1) : f.Honest := by
  refine .ofNumbers hg hf fun xs hxs => ?_
  obtain ⟨x, rfl⟩ := List.length_eq_one_iff.1 (hone _ hxs)
  dsimp only
  split_ifs <;> simp

theorem FunctionSpec.Honest.special {f : FunctionSpec} (hf : f.implementation = none) : f.Honest :=
  fun g _ hg _ _ => by rw [hf] at hg; cases hg

/-! ## Functions that take a text -/

theorem FunctionSpec.Suits.number {f : FunctionSpec} {args : List Argument} (h : f.Suits args) {i : Nat} {a : Argument}
    (ha : args[i]? = some a) (hi : i ∉ f.textArgs) : ∃ x, a = .number x := by
  cases a with
  | number x => exact ⟨x, rfl⟩
  | text s => exact absurd ((h i _ ha).1 ⟨s, rfl⟩) hi

theorem FunctionSpec.Suits.text {f : FunctionSpec} {args : List Argument} (h : f.Suits args) {i : Nat} {a : Argument}
    (ha : args[i]? = some a) (hi : i ∈ f.textArgs) : ∃ s, a = .text s :=
  (h i a ha).2 hi

theorem scaleCall_ne {f : FunctionSpec} (hf : f.textArgs = [3]) : ∀ {args : List Argument}, f.Suits args →
    3 ≤ args.length → args.length ≤ 6 → Balance.scaleCall args ≠ .error .unsuited
  | a :: b :: c :: rest, h, _, hmax => by
    obtain ⟨x, rfl⟩ := h.number (i := 0) rfl (by simp [hf])
    obtain ⟨y, rfl⟩ := h.number (i := 1) rfl (by simp [hf])
    obtain ⟨z, rfl⟩ := h.number (i := 2) rfl (by simp [hf])
    match rest, h, hmax with
    | [], _, _ => simp [Balance.scaleCall]
    | [d], h, _ =>
      obtain ⟨s, rfl⟩ := h.text (i := 3) rfl (by simp [hf])
      simp [Balance.scaleCall]
    | [d, e], h, _ =>
      obtain ⟨s, rfl⟩ := h.text (i := 3) rfl (by simp [hf])
      obtain ⟨u, rfl⟩ := h.number (i := 4) rfl (by simp [hf])
      simp [Balance.scaleCall]
    | [d, e, m], h, _ =>
      obtain ⟨s, rfl⟩ := h.text (i := 3) rfl (by simp [hf])
      obtain ⟨u, rfl⟩ := h.number (i := 4) rfl (by simp [hf])
      obtain ⟨v, rfl⟩ := h.number (i := 5) rfl (by simp [hf])
      simp [Balance.scaleCall]
    | _ :: _ :: _ :: _ :: _, _, hmax => exact absurd hmax (by simp only [List.length_cons]; omega)

theorem costCall_ne {f : FunctionSpec} (hf : f.textArgs = [3]) : ∀ {args : List Argument}, f.Suits args →
    2 ≤ args.length → args.length ≤ 4 → Balance.costCall args ≠ .error .unsuited
  | a :: b :: rest, h, _, hmax => by
    obtain ⟨x, rfl⟩ := h.number (i := 0) rfl (by simp [hf])
    obtain ⟨y, rfl⟩ := h.number (i := 1) rfl (by simp [hf])
    match rest, h, hmax with
    | [], _, _ => simp [Balance.costCall]
    | [c], h, _ =>
      obtain ⟨z, rfl⟩ := h.number (i := 2) rfl (by simp [hf])
      simp [Balance.costCall]
    | [c, d], h, _ =>
      obtain ⟨z, rfl⟩ := h.number (i := 2) rfl (by simp [hf])
      obtain ⟨s, rfl⟩ := h.text (i := 3) rfl (by simp [hf])
      simp [Balance.costCall]
    | _ :: _ :: _ :: _, _, hmax => exact absurd hmax (by simp only [List.length_cons]; omega)

/-! ## The functions by category -/

theorem honest_combat : ∀ f ∈ Balance.combat, f.Honest := by
  simp only [Balance.combat, List.forall_mem_cons, List.not_mem_nil, false_imp_iff, implies_true, and_true]
  refine ⟨fun g args hg ha hs => ?_, .total rfl rfl ?_, .total rfl rfl ?_, .total rfl rfl ?_, .total rfl rfl ?_⟩
  · cases hg
    obtain ⟨hmin, hmax⟩ : 3 ≤ args.length ∧ args.length ≤ 6 := by simpa [FunctionSpec.accepts] using ha
    exact scaleCall_ne rfl hs hmin hmax
  all_goals
    intro xs hxs
    rcases xs with _ | ⟨_, _ | ⟨_, _ | ⟨_, _ | ⟨_, _ | ⟨_, _⟩⟩⟩⟩⟩ <;> simp [FunctionSpec.accepts] at hxs ⊢
    omega

theorem honest_economy : ∀ f ∈ Balance.economy, f.Honest := by
  simp only [Balance.economy, List.forall_mem_cons, List.not_mem_nil, false_imp_iff, implies_true, and_true]
  refine ⟨.total rfl rfl ?_, .total rfl rfl ?_, fun g args hg ha hs => ?_, .total rfl rfl ?_, .total rfl rfl ?_,
    .total rfl rfl ?_⟩
  case refine_3 =>
    cases hg
    obtain ⟨hmin, hmax⟩ : 2 ≤ args.length ∧ args.length ≤ 4 := by simpa [FunctionSpec.accepts] using ha
    exact costCall_ne rfl hs hmin hmax
  all_goals
    intro xs hxs
    rcases xs with _ | ⟨_, _ | ⟨_, _ | ⟨_, _ | ⟨_, _ | ⟨_, _⟩⟩⟩⟩⟩ <;> simp [FunctionSpec.accepts] at hxs ⊢ <;> omega

theorem honest_stage : ∀ f ∈ Balance.stage, f.Honest := by
  simp only [Balance.stage, List.forall_mem_cons, List.not_mem_nil, false_imp_iff, implies_true, and_true]
  refine ⟨.total rfl rfl ?_, .total rfl rfl ?_, .total rfl rfl ?_⟩
  all_goals
    intro xs hxs
    rcases xs with _ | ⟨_, _ | ⟨_, _ | ⟨_, _ | ⟨_, _ | ⟨_, _⟩⟩⟩⟩⟩ <;> simp [FunctionSpec.accepts] at hxs ⊢
    omega

theorem honest_interpolation : ∀ f ∈ Balance.interpolation, f.Honest := by
  simp only [Balance.interpolation, List.forall_mem_cons, List.not_mem_nil, false_imp_iff, implies_true, and_true]
  refine ⟨.total rfl rfl ?_, .total rfl rfl ?_, .total rfl rfl ?_, .total rfl rfl ?_, .total rfl rfl ?_,
    .total rfl rfl ?_, .total rfl rfl ?_, .total rfl rfl ?_⟩
  all_goals
    intro xs hxs
    rcases xs with _ | ⟨_, _ | ⟨_, _ | ⟨_, _ | ⟨_, _ | ⟨_, _ | ⟨_, _⟩⟩⟩⟩⟩⟩ <;> simp [FunctionSpec.accepts] at hxs ⊢ <;> omega

theorem round_ne (x places : Float) : General.round x places ≠ .error .unsuited := by
  unfold General.round
  dsimp only
  split_ifs <;> simp

theorem honest_mathematics : ∀ f ∈ General.mathematics, f.Honest := by
  simp only [General.mathematics, List.forall_mem_cons, List.not_mem_nil, false_imp_iff, implies_true, and_true]
  refine ⟨.total rfl rfl ?_, .ofNumbers rfl rfl ?_, .total rfl rfl ?_, .total rfl rfl ?_, .total rfl rfl ?_,
    .total rfl rfl ?_, .total rfl rfl ?_, .total rfl rfl ?_, .total rfl rfl ?_, .total rfl rfl ?_, .total rfl rfl ?_⟩
  all_goals
    intro xs hxs
    rcases xs with _ | ⟨_, _ | ⟨_, _ | ⟨_, _⟩⟩⟩ <;> simp [FunctionSpec.accepts, round_ne] at hxs ⊢

theorem honest_statistics : ∀ f ∈ General.statistics, f.Honest := by
  simp only [General.statistics, List.forall_mem_cons, List.not_mem_nil, false_imp_iff, implies_true, and_true]
  refine ⟨.total rfl rfl ?_, .ofNumbers rfl rfl ?_, .ofNumbers rfl rfl ?_, .ofNumbers rfl rfl ?_⟩
  all_goals
    intro xs hxs
    cases xs <;> simp [General.average]

theorem honest_trigonometry : ∀ f ∈ General.trigonometry, f.Honest := by
  simp only [General.trigonometry, List.forall_mem_cons, List.not_mem_nil, false_imp_iff, implies_true, and_true]
  have one : ∀ n, FunctionSpec.accepts ⟨"", none, 1, some 1, "", "", "", "", []⟩ n = true → n = 1 := fun n hn => by
    obtain ⟨hmin, hmax⟩ : 1 ≤ n ∧ n ≤ 1 := by simpa [FunctionSpec.accepts] using hn
    omega
  refine ⟨.periodic rfl rfl one, .periodic rfl rfl one, .periodic rfl rfl one, .total rfl rfl fun xs hxs => ?_⟩
  cases xs with
  | nil => rfl
  | cons x xs => simp [FunctionSpec.accepts] at hxs

theorem honest_logic : ∀ f ∈ General.logic, f.Honest := by
  simp only [General.logic, List.forall_mem_cons, List.not_mem_nil, false_imp_iff, implies_true, and_true]
  refine ⟨.special rfl, .special rfl, .total rfl rfl ?_, .total rfl rfl ?_, .total rfl rfl ?_⟩
  all_goals
    intro xs hxs
    rcases xs with _ | ⟨_, _ | ⟨_, _⟩⟩ <;> simp [FunctionSpec.accepts] at hxs ⊢

/-- **No built-in function finds arguments unsuited that it declares.** -/
theorem standard_honest : ∀ f ∈ Registry.standard.specs, f.Honest := by
  intro f hf
  simp only [Registry.standard, Balance.functions, General.functions, List.mem_append, List.mem_singleton] at hf
  rcases hf with ((((hf | hf) | hf) | hf) | rfl) | (((hf | hf) | hf) | hf)
  · exact honest_combat f hf
  · exact honest_economy f hf
  · exact honest_stage f hf
  · exact honest_interpolation f hf
  · exact .special rfl
  · exact honest_mathematics f hf
  · exact honest_statistics f hf
  · exact honest_trigonometry f hf
  · exact honest_logic f hf

theorem two_le_of_accepts {key : String} {f : FunctionSpec} {count : Nat} (hf : Registry.standard.find? key = some f)
    (hkey : key = branchKey ∨ key = rescueKey) (ha : f.accepts count = true) : 2 ≤ count := by
  have hmin : (Registry.standard.find? key).map FunctionSpec.minArgs = some 2 := by
    rcases hkey with rfl | rfl
    · decide +kernel
    · decide +kernel
  rw [hf, Option.map_some, Option.some.injEq] at hmin
  simp only [FunctionSpec.accepts, Bool.and_eq_true, decide_eq_true_eq] at ha
  omega

/-- What an expression raises under the standard registry is kept for the other readers of a cell. -/
theorem Raised.isKept_standard {f : Failure} (h : Raised Registry.standard f) : f.isKept = true := by
  cases h with
  | fault hf hg ha hs he =>
    rename_i e
    cases e with
    | unsuited => exact absurd he (standard_honest _ (List.mem_of_find?_eq_some hf) _ _ hg ha hs)
    | _ => rfl
  | tooFew hf hkey ha hcount => exact absurd (two_le_of_accepts hf hkey ha) (by omega)
  | _ => rfl

end GameSheet
