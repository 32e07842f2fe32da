import Mathlib.Data.Nat.Find
import GameSheet.Proofs.Evaluation.Ideal

/-!
# Soundness of the memo

A memo is filled in the middle of evaluations, with failures as well as values, and a cycle is kept as it was found by
whoever entered it. What it holds is right all the same (`SoundMemo`): every entry tells of its cell what the ideal
evaluation gives.

A run with a memo goes in lockstep with a run without one, and both tell of what the ideal evaluations do
(`Lockstep`). The invariant that carries this through cycles is about the cells that are being computed (`Asked`): what
is asked for inside a guard ends with fewer levels than any cell of the guard that ends at all. So a cell that closes a
cycle never ends, and neither does any cell whose value needs it.

* `lockstep_eval` is the statement for expressions, with any number of levels.
* `lockstep_cell` is the step from the body of a cell to the cell: the guard, and what the memo knows and keeps.
-/

namespace GameSheet

open Formula

/-! ## Levels and ways of going on -/

section Ways

variable {α β : Type} {x : Nat → Eval α} {k : Nat → α → Eval β} {n : Nat} {a : α} {f : Failure}

theorem Steady.bind (hx : Steady x) (hk : ∀ a, (∃ n, (x n).Returns a) → Steady fun n => k n a) :
    Steady fun n => x n >>= k n :=
  fun n m h => (hx n m h).bind fun a ha => hk a ⟨n, ha⟩ n m h

theorem Settles.of_bind (h : Settles (fun n => x n >>= k n) n) : Settles x n := by
  intro w hcut
  obtain ⟨limit, ho⟩ := hcut
  exact h w ⟨limit, by dsimp only; rw [Eval.bind_error (Prod.ext ho rfl)]⟩

theorem Settles.of_bind_ok (hk : Steady fun n => k n a) (hx : ∀ w, (x n w).1 = .ok a)
    (h : Settles (fun n => x n >>= k n) n) : Settles (fun n => k n a) n := by
  have hw := h ⟨⟨0, []⟩, none, []⟩
  dsimp only at hw
  rw [Eval.bind_ok (Prod.ext (hx _) rfl)] at hw
  exact hk.settles hw

/-- What is told of a failed step is told of whatever would follow it. -/
theorem Tells.bind_error (h : Tells x (.error f)) : Tells (fun n => x n >>= k n) (.error f) := by
  cases h with
  | @settled n hcut ho =>
    refine .settled (n := n) (fun h => hcut (cut_error.1 h)) fun w => ?_
    rw [Eval.bind_error (Prod.ext (ho w) rfl)]
  | never hcyclic hnever =>
    obtain ⟨path, hpath⟩ := hcyclic
    cases hpath
    exact .never ⟨path, rfl⟩ fun n hs => hnever n hs.of_bind

/-- What is told of the second step is told of both. -/
theorem Tells.bind_ok (hx : Steady x) (hk : Steady fun n => k n a) (h : Tells x (.ok a)) {o : Except Failure β}
    (h' : Tells (fun n => k n a) o) : Tells (fun n => x n >>= k n) o := by
  cases h' with
  | never hcyclic hnever =>
    exact .never hcyclic fun n hs => hnever n (hs.of_bind_ok hk (h.eq_of_settles hx hs.of_bind))
  | @settled m hcut ho =>
    cases h with
    | never hcyclic _ => obtain ⟨path, hpath⟩ := hcyclic; cases hpath
    | @settled n _ ha =>
      have hn : Settles x n := fun w => by rw [ha]; exact not_cut_ok a
      refine .settled (n := max n m) hcut fun w => ?_
      have hmax : (x (max n m) w).1 = .ok a := by
        rw [hx.eq_of_not_cut (Nat.le_max_left n m) (hn w), ha]
      rw [Eval.bind_ok (Prod.ext hmax rfl)]
      have hm : ¬Cut (k m a w).1 := by rwa [ho]
      rw [hk.eq_of_not_cut (Nat.le_max_right n m) hm, ho]

/-- What becomes of the outcome of a step where a formula may recover from it. -/
def recovered : Except Failure α → Except Failure (Option α)
  | .ok a => .ok (some a)
  | .error f => if f.isMaskable then .ok none else .error f

theorem attempt_apply (y : Eval α) (w : Walk) : Eval.attempt y w = (recovered (y w).1, (y w).2) := by
  rcases hy : y w with ⟨o, after⟩
  cases o with
  | ok a => exact Eval.attempt_ok hy
  | error f => exact Eval.attempt_error hy

theorem cut_recovered {o : Except Failure α} : Cut (recovered o) ↔ Cut o := by
  constructor
  · rintro ⟨limit, h⟩
    cases o with
    | ok a => cases h
    | error f =>
      cases hm : f.isMaskable with
      | true => simp [recovered, hm] at h
      | false =>
        simp only [recovered, hm, Bool.false_eq_true, if_false, Except.error.injEq] at h
        exact ⟨limit, by rw [h]⟩
  · rintro ⟨limit, rfl⟩
    exact ⟨limit, rfl⟩

theorem Steady.attempt (hx : Steady x) : Steady fun n => Eval.attempt (x n) :=
  fun n m h => (hx n m h).attempt

theorem settles_attempt : Settles (fun n => Eval.attempt (x n)) n ↔ Settles x n := by
  simp only [Settles, attempt_apply, cut_recovered]

theorem Tells.attempt {o : Except Failure α} (h : Tells x o) : Tells (fun n => Eval.attempt (x n)) (recovered o) := by
  cases h with
  | @settled n hcut ho => exact .settled (n := n) (mt cut_recovered.1 hcut) fun w => by rw [attempt_apply, ho]
  | never hcyclic hnever =>
    obtain ⟨path, rfl⟩ := hcyclic
    exact .never ⟨path, rfl⟩ fun n hs => hnever n (settles_attempt.1 hs)

end Ways

/-! ## Guards and memos -/

section Memo

variable (scope : Scope) (registry : Registry)

/-- Every entry of the memo tells of its cell. -/
def SoundMemo (memo : Option Memo) : Prop :=
  ∀ cell, scope.workbook.Contains cell → ∀ o, memo.bind (·[cell.key]?) = some o →
    Tells (fun n => scope.ideal registry n cell) o

/-- Cells that end with so many levels end with fewer levels than any cell that is being computed. -/
def Below (g : Guard) (n : Nat) : Prop :=
  ∀ cell, scope.workbook.Contains cell → cell.key ∈ g.visiting →
    ∀ m, Settles (fun n => scope.ideal registry n cell) m → n < m

/-- The step is one for which the cells that are being computed wait. -/
def Asked (g : Guard) {α : Type} (x : Nat → Eval α) : Prop :=
  (∀ n, Below scope registry g n) ∨ ∃ n, Below scope registry g n ∧ Settles x n

/-- The end of a guarded run of a step: the guard is as it was, the memo is sound, and the outcome is right unless it
was cut off. -/
structure Told (g : Guard) {α : Type} (x : Nat → Eval α) (r : Except Failure α × Walk) : Prop where
  guard : r.2.guard = g
  sound : SoundMemo scope registry r.2.memo
  tells : Cut r.1 ∨ Tells x r.1

/-- The warnings that one run adds are some of those that another one adds. -/
def FewerWarnings (before after before' after' : Walk) : Prop :=
  ∃ new new', after.warnings = before.warnings ++ new ∧ after'.warnings = before'.warnings ++ new' ∧
    new'.Sublist new

/-- The ends of a run without a memo and of a run with one. -/
structure Agree (g : Guard) {α : Type} (x : Nat → Eval α) (plain memoised : Walk)
    (r r' : Except Failure α × Walk) : Prop where
  plain_told : Told scope registry g x r
  plain_memo : r.2.memo = none
  memoised_told : Told scope registry g x r'
  reached : ¬Cut r.1 → ¬Cut r'.1 ∧ FewerWarnings plain r.2 memoised r'.2

end Memo

/-- The runs that are compared: ideal ones, one without a memo, and one with a memo. -/
inductive Run where
  | ideal (n : Nat)
  | plain
  | memoised

/-- A step whose guarded runs tell of the ideal ones and agree with each other. -/
structure Lockstep (scope : Scope) (registry : Registry) (g : Guard) {α : Type} (x : Run → Eval α) : Prop where
  steady : Steady fun n => x (.ideal n)
  agree : Asked scope registry g (fun n => x (.ideal n)) → ∀ plain memoised : Walk, plain.guard = g →
    plain.memo = none → memoised.guard = g → SoundMemo scope registry memoised.memo →
      Agree scope registry g (fun n => x (.ideal n)) plain memoised (x .plain plain) (x .memoised memoised)

section Lockstep

variable {scope : Scope} {registry : Registry} {g : Guard} {α β : Type}

theorem soundMemo_none : SoundMemo scope registry none := fun _ _ _ h => by cases h

theorem FewerWarnings.trans {w₁ w₂ w₃ w₁' w₂' w₃' : Walk} (h : FewerWarnings w₁ w₂ w₁' w₂')
    (h' : FewerWarnings w₂ w₃ w₂' w₃') : FewerWarnings w₁ w₃ w₁' w₃' := by
  obtain ⟨new, new', h₁, h₂, hsub⟩ := h
  obtain ⟨next, next', h₃, h₄, hsub'⟩ := h'
  exact ⟨new ++ next, new' ++ next', by rw [h₃, h₁, List.append_assoc], by rw [h₄, h₂, List.append_assoc],
    hsub.append hsub'⟩

theorem Asked.of_bind {x : Nat → Eval α} {k : Nat → α → Eval β} (h : Asked scope registry g fun n => x n >>= k n) :
    Asked scope registry g x :=
  h.imp_right fun ⟨n, hn, hs⟩ => ⟨n, hn, hs.of_bind⟩

theorem Asked.of_bind_ok {x : Nat → Eval α} {k : Nat → α → Eval β} {a : α} (hx : Steady x)
    (hk : Steady fun n => k n a) (ha : Tells x (.ok a)) (h : Asked scope registry g fun n => x n >>= k n) :
    Asked scope registry g fun n => k n a :=
  h.imp_right fun ⟨n, hn, hs⟩ => ⟨n, hn, hs.of_bind_ok hk (ha.eq_of_settles hx hs.of_bind)⟩

theorem Asked.of_attempt {x : Nat → Eval α} (h : Asked scope registry g fun n => Eval.attempt (x n)) :
    Asked scope registry g x :=
  h.imp_right fun ⟨n, hn, hs⟩ => ⟨n, hn, settles_attempt.1 hs⟩

/-- A step that only adds warnings. -/
theorem Lockstep.const {y : Eval α} {o : Except Failure α} {notes : List Warning} (hy : y.Only o notes)
    (hcut : ¬Cut o) : Lockstep scope registry g fun _ => y := by
  have htells : Tells (fun _ : Nat => y) o := .const hy hcut
  refine ⟨.const hy, fun _ plain memoised hg hm hg' hsound => ?_⟩
  refine ⟨?_, ?_, ?_, fun _ => ⟨?_, notes, notes, ?_, ?_, .refl _⟩⟩
  · rw [hy]
    exact ⟨hg, hm ▸ soundMemo_none, .inr htells⟩
  · rw [hy]
    exact hm
  · rw [hy]
    exact ⟨hg', hsound, .inr htells⟩
  · rw [hy]
    exact hcut
  · rw [hy]
  · rw [hy]

/-- Where the run without a memo is not cut off both runs come to the same. -/
theorem Agree.matches {x : Nat → Eval α} {plain memoised : Walk} {r r' : Except Failure α × Walk} (hx : Steady x)
    (h : Agree scope registry g x plain memoised r r') (hcut : ¬Cut r.1) : Matches r.1 r'.1 :=
  (h.plain_told.tells.resolve_left hcut).matches hx (h.memoised_told.tells.resolve_left (h.reached hcut).1)

theorem Told.bind {x : Nat → Eval α} {k : Nat → α → Eval β} {y : Eval α} {l : α → Eval β} {w : Walk} (hx : Steady x)
    (hk : ∀ a, y.Returns a → Steady fun n => k n a) (h : Told scope registry g x (y w))
    (h' : ∀ a after, y w = (.ok a, after) → Tells x (.ok a) →
      Told scope registry g (fun n => k n a) (l a after)) :
    Told scope registry g (fun n => x n >>= k n) ((y >>= l) w) := by
  rcases hy : y w with ⟨o, after⟩
  rw [hy] at h
  cases o with
  | error f =>
    rw [Eval.bind_error hy]
    exact ⟨h.guard, h.sound, h.tells.imp cut_error.1 Tells.bind_error⟩
  | ok a =>
    have ha : Tells x (.ok a) := h.tells.resolve_left (not_cut_ok a)
    have hnext := h' a after hy ha
    rw [Eval.bind_ok hy]
    exact ⟨hnext.guard, hnext.sound, hnext.tells.imp_right (ha.bind_ok hx (hk a ⟨w, after, hy⟩))⟩

theorem Told.attempt {x : Nat → Eval α} {y : Eval α} {w : Walk} (h : Told scope registry g x (y w)) :
    Told scope registry g (fun n => Eval.attempt (x n)) (Eval.attempt y w) := by
  rw [attempt_apply]
  exact ⟨h.guard, h.sound, h.tells.imp cut_recovered.2 Tells.attempt⟩

/-- One step after another, from runs in lockstep to runs in lockstep. -/
theorem Lockstep.bind {x : Run → Eval α} {k : Run → α → Eval β} (hx : Lockstep scope registry g x)
    (hk : ∀ a, (∃ i, (x i).Returns a) → Lockstep scope registry g fun i => k i a) :
    Lockstep scope registry g fun i => x i >>= k i := by
  refine ⟨hx.steady.bind fun a ⟨n, ha⟩ => (hk a ⟨_, ha⟩).steady, fun hasked plain memoised hg hm hg' hsound => ?_⟩
  have first := hx.agree hasked.of_bind plain memoised hg hm hg' hsound
  have next : ∀ a, (∃ i, (x i).Returns a) → Tells (fun n => x (.ideal n)) (.ok a) → ∀ p m : Walk, p.guard = g →
      p.memo = none → m.guard = g → SoundMemo scope registry m.memo →
        Agree scope registry g (fun n => k (.ideal n) a) p m (k .plain a p) (k .memoised a m) := fun a ha ht =>
    (hk a ha).agree (hasked.of_bind_ok hx.steady (hk a ha).steady ht)
  -- where the run without a memo goes on, the run with one may be anywhere
  have goesOn : ∀ a after, x .plain plain = (.ok a, after) → ∀ m : Walk, m.guard = g →
      SoundMemo scope registry m.memo →
        Agree scope registry g (fun n => k (.ideal n) a) after m (k .plain a after) (k .memoised a m) := by
    intro a after hy
    have htold := first.plain_told
    have hmemo := first.plain_memo
    rw [hy] at htold hmemo
    exact fun m => next a ⟨_, _, _, hy⟩ (htold.tells.resolve_left (not_cut_ok a)) after m htold.guard hmemo
  refine ⟨?_, ?_, ?_, fun hcut => ?_⟩
  · exact first.plain_told.bind hx.steady (fun a ha => (hk a ⟨_, ha⟩).steady) fun a after hy _ =>
      (goesOn a after hy memoised hg' hsound).plain_told
  · rcases hy : x .plain plain with ⟨o, after⟩
    cases o with
    | error f =>
      have hmemo := first.plain_memo
      rw [hy] at hmemo
      rwa [Eval.bind_error hy]
    | ok a =>
      rw [Eval.bind_ok hy]
      exact (goesOn a after hy memoised hg' hsound).plain_memo
  · refine first.memoised_told.bind hx.steady (fun a ha => (hk a ⟨_, ha⟩).steady) fun a after hy ht => ?_
    have htold := first.memoised_told
    rw [hy] at htold
    exact (next a ⟨_, _, _, hy⟩ ht plain after hg hm htold.guard htold.sound).memoised_told
  · rcases hy : x .plain plain with ⟨o, after⟩
    rcases hy' : x .memoised memoised with ⟨o', after'⟩
    have hfirst : ¬Cut o := fun h => by
      obtain ⟨limit, rfl⟩ := h
      rw [Eval.bind_error hy] at hcut
      exact hcut ⟨limit, rfl⟩
    rw [hy, hy'] at first
    have hmatches := first.matches hx.steady hfirst
    obtain ⟨hcut', hwarnings⟩ := first.reached hfirst
    cases o with
    | error f =>
      obtain ⟨f', rfl⟩ := hmatches.exists_error
      rw [Eval.bind_error hy, Eval.bind_error hy']
      exact ⟨mt cut_error.1 hcut', hwarnings⟩
    | ok a =>
      obtain rfl := hmatches.eq_ok
      rw [Eval.bind_ok hy] at hcut ⊢
      rw [Eval.bind_ok hy']
      have hnext := (goesOn a after hy after' first.memoised_told.guard first.memoised_told.sound).reached hcut
      exact ⟨hnext.1, hwarnings.trans hnext.2⟩

theorem Lockstep.attempt {x : Run → Eval α} (hx : Lockstep scope registry g x) :
    Lockstep scope registry g fun i => Eval.attempt (x i) := by
  refine ⟨hx.steady.attempt, fun hasked plain memoised hg hm hg' hsound => ?_⟩
  have h := hx.agree hasked.of_attempt plain memoised hg hm hg' hsound
  refine ⟨h.plain_told.attempt, ?_, h.memoised_told.attempt, fun hcut => ?_⟩
  · rw [attempt_apply]
    exact h.plain_memo
  · simp only [attempt_apply, cut_recovered] at hcut ⊢
    exact h.reached hcut

/-- Going in lockstep is kept by all ways of going on. -/
theorem composable_lockstep (scope : Scope) (registry : Registry) (g : Guard) :
    Composable registry fun (α : Type) (x : Run → Eval α) => Lockstep scope registry g x where
  value a := .const (Eval.only_pure a) (not_cut_ok a)
  failure h := .const (Eval.only_throw _) (not_cut_raised h)
  warning note := .const (Eval.only_warn note) (not_cut_ok ())
  sequence hx hk := hx.bind hk
  recovery hx := hx.attempt

/-! ## From the body of a cell to the cell -/

section Cells

variable {cell : CellSite} {body : String}

theorem settles_succ (hb : cell.source = .formula body) {n : Nat} :
    Settles (fun n => scope.ideal registry n cell) (n + 1) ↔ Settles (scope.idealBody registry body cell.site) n := by
  simp only [Settles, Scope.ideal_succ hb]

theorem not_settles_zero (hb : cell.source = .formula body) :
    ¬Settles (fun n => scope.ideal registry n cell) 0 := by
  intro h
  refine h ⟨⟨0, []⟩, none, []⟩ ⟨scope.options.maxDepth, ?_⟩
  dsimp only
  rw [Scope.ideal_zero hb, Eval.throw_apply]

/-- What is told of the body of a cell is told of the cell. -/
theorem tells_of_body (hb : cell.source = .formula body) {o : Except Failure CellValue}
    (h : Tells (scope.idealBody registry body cell.site) o) : Tells (fun n => scope.ideal registry n cell) o := by
  cases h with
  | @settled n hcut ho =>
    refine .settled (n := n + 1) hcut fun w => ?_
    rw [Scope.ideal_succ hb]
    exact ho w
  | never hcyclic hnever =>
    refine .never hcyclic fun n hs => ?_
    cases n with
    | zero => exact not_settles_zero hb hs
    | succ n => exact hnever n ((settles_succ hb).1 hs)

/-- A cell that waits for itself never ends. -/
theorem not_settles_of_visiting (hc : scope.workbook.Contains cell) (hmem : cell.key ∈ g.visiting)
    (h : Asked scope registry g fun n => scope.ideal registry n cell) (n : Nat) :
    ¬Settles (fun n => scope.ideal registry n cell) n := by
  intro hs
  rcases h with hall | ⟨m, hm, hs'⟩
  · exact Nat.lt_irrefl n (hall n cell hc hmem n hs)
  · exact Nat.lt_irrefl m (hm cell hc hmem m hs')

/-- Inside a cell its body is asked for: it ends with one level less than the cell, if it ends at all. -/
theorem asked_inside (hc : scope.workbook.Contains cell) (hb : cell.source = .formula body) {inside : Guard}
    (he : g.enter ⟨cell.key, cell.label⟩ = .ok inside)
    (h : Asked scope registry g fun n => scope.ideal registry n cell) :
    Asked scope registry inside (scope.idealBody registry body cell.site) := by
  have hvisiting := Guard.visiting_enter he
  by_cases hs : ∃ n, Settles (fun n => scope.ideal registry n cell) n
  · classical
    obtain ⟨m, hm⟩ : ∃ m, Nat.find hs = m + 1 := by
      refine ⟨Nat.find hs - 1, (Nat.succ_pred_eq_of_ne_zero fun h0 => ?_).symm⟩
      exact not_settles_zero hb (h0 ▸ Nat.find_spec hs)
    have least : ∀ k, Settles (fun n => scope.ideal registry n cell) k → m < k := fun k hk => by
      have := Nat.find_min' hs hk
      omega
    refine .inr ⟨m, fun d hd hmem k hk => ?_, (settles_succ hb).1 (hm ▸ Nat.find_spec hs)⟩
    rw [hvisiting, List.mem_cons] at hmem
    rcases hmem with heq | hmem
    · obtain rfl := Workbook.eq_of_key_eq hd hc heq
      exact least k hk
    · rcases h with hall | ⟨n, hn, hs'⟩
      · exact absurd (hall k d hd hmem k hk) (Nat.lt_irrefl k)
      · exact Nat.lt_trans (least n hs') (hn d hd hmem k hk)
  · refine .inl fun n d hd hmem k hk => ?_
    rw [hvisiting, List.mem_cons] at hmem
    rcases hmem with heq | hmem
    · obtain rfl := Workbook.eq_of_key_eq hd hc heq
      exact absurd ⟨k, hk⟩ hs
    · rcases h with hall | ⟨m, _, hs'⟩
      · exact hall n d hd hmem k hk
      · exact absurd ⟨m, hs'⟩ hs

theorem Told.within (hc : scope.workbook.Contains cell) (hb : cell.source = .formula body) {step : Eval CellValue}
    {w : Walk} (hg : w.guard = g) (hsound : SoundMemo scope registry w.memo)
    (hasked : Asked scope registry g fun n => scope.ideal registry n cell)
    (h : ∀ inside, g.enter ⟨cell.key, cell.label⟩ = .ok inside →
      Told scope registry inside (scope.idealBody registry body cell.site) (step { w with guard := inside })) :
    Told scope registry g (fun n => scope.ideal registry n cell)
      (Eval.within ⟨cell.key, cell.label⟩ step w) := by
  cases he : g.enter ⟨cell.key, cell.label⟩ with
  | error f =>
    rw [Eval.within_error (hg ▸ he)]
    refine ⟨hg, hsound, ?_⟩
    rcases Guard.enter_error he with ⟨hmem, rfl⟩ | rfl
    · exact .inr (.never ⟨_, rfl⟩ (not_settles_of_visiting hc hmem hasked))
    · exact .inl ⟨_, rfl⟩
  | ok inside =>
    have hinside := h inside he
    rw [Eval.within_ok (hg ▸ he)]
    refine ⟨?_, hinside.sound, hinside.tells.imp_right (tells_of_body hb)⟩
    dsimp only
    rw [hinside.guard, Guard.leave_enter he]

/-- Both runs enter a cell, or both are refused. -/
theorem Agree.within (hc : scope.workbook.Contains cell) (hb : cell.source = .formula body)
    {step step' : Eval CellValue} {plain memoised : Walk} (hg : plain.guard = g) (hm : plain.memo = none) (hg' : memoised.guard = g)
    (hsound : SoundMemo scope registry memoised.memo)
    (hasked : Asked scope registry g fun n => scope.ideal registry n cell)
    (h : ∀ inside, g.enter ⟨cell.key, cell.label⟩ = .ok inside →
      Agree scope registry inside (scope.idealBody registry body cell.site) { plain with guard := inside }
        { memoised with guard := inside } (step { plain with guard := inside })
        (step' { memoised with guard := inside })) :
    Agree scope registry g (fun n => scope.ideal registry n cell) plain memoised
      (Eval.within ⟨cell.key, cell.label⟩ step plain) (Eval.within ⟨cell.key, cell.label⟩ step' memoised) := by
  refine ⟨.within hc hb hg (hm ▸ soundMemo_none) hasked fun inside he => (h inside he).plain_told, ?_,
    .within hc hb hg' hsound hasked fun inside he => (h inside he).memoised_told, ?_⟩
  · cases he : g.enter ⟨cell.key, cell.label⟩ with
    | error f => rwa [Eval.within_error (hg ▸ he)]
    | ok inside =>
      rw [Eval.within_ok (hg ▸ he)]
      exact (h inside he).plain_memo
  · cases he : g.enter ⟨cell.key, cell.label⟩ with
    | error f =>
      rw [Eval.within_error (hg ▸ he), Eval.within_error (hg' ▸ he)]
      exact fun hcut => ⟨hcut, [], [], by simp, by simp, .slnil⟩
    | ok inside =>
      rw [Eval.within_ok (hg ▸ he), Eval.within_ok (hg' ▸ he)]
      exact (h inside he).reached

/-! ## Knowing and keeping -/

/-- What is told of a cell may be kept. -/
theorem soundMemo_store (hc : scope.workbook.Contains cell) {w : Walk} (h : SoundMemo scope registry w.memo)
    {o : Except Failure CellValue} (ho : Tells (fun n => scope.ideal registry n cell) o) :
    SoundMemo scope registry (w.store cell.key o).memo := by
  intro d hd o' hknown
  cases hm : w.memo with
  | none => simp [Walk.store, hm] at hknown
  | some memo =>
    simp only [Walk.store, hm, Option.map_some, Option.bind_some, Std.HashMap.getElem?_insert] at hknown
    split at hknown
    · next hkey =>
      cases hknown
      rwa [Workbook.eq_of_key_eq hd hc (by simpa using (beq_iff_eq.1 hkey).symm)]
    · exact h d hd o' (by simpa [hm] using hknown)

theorem Told.remember (hc : scope.workbook.Contains cell) {step : Eval CellValue} {w : Walk}
    (h : Told scope registry g (fun n => scope.ideal registry n cell) (step w)) :
    Told scope registry g (fun n => scope.ideal registry n cell) (Eval.remember cell.key step w) := by
  rcases hs : step w with ⟨o, after⟩
  rw [hs] at h
  cases o with
  | ok v =>
    rw [Eval.remember_ok hs]
    exact ⟨h.guard, soundMemo_store hc h.sound (h.tells.resolve_left (not_cut_ok v)), h.tells⟩
  | error f =>
    rw [Eval.remember_error hs]
    cases hk : f.isKept with
    | false => exact ⟨h.guard, h.sound, h.tells⟩
    | true =>
      have hcut : ¬Cut (.error f : Except Failure CellValue) := by
        rintro ⟨limit, h⟩
        cases h
        cases hk
      exact ⟨h.guard, soundMemo_store hc h.sound (h.tells.resolve_left hcut), h.tells⟩

theorem Agree.remember (hc : scope.workbook.Contains cell) {step step' : Eval CellValue} {plain memoised : Walk}
    (h : Agree scope registry g (fun n => scope.ideal registry n cell) plain memoised (step plain)
      (step' memoised)) :
    Agree scope registry g (fun n => scope.ideal registry n cell) plain memoised
      (Eval.remember cell.key step plain) (Eval.remember cell.key step' memoised) := by
  obtain ⟨houtcome', hwarnings'⟩ := remember_apply cell.key step' memoised
  rw [remember_plain h.plain_memo]
  refine ⟨h.plain_told, h.plain_memo, h.memoised_told.remember hc, fun hcut => ?_⟩
  rw [houtcome']
  obtain ⟨hcut', new, new', hnew, hnew', hsub⟩ := h.reached hcut
  exact ⟨hcut', new, new', hnew, hwarnings'.trans hnew', hsub⟩

/-- The runs of a cell. -/
def cellRun (scope : Scope) (registry : Registry) (evaluate : Evaluator) (cell : CellSite) : Run → Eval CellValue
  | .ideal n => scope.ideal registry n cell
  | _ => Scope.cellValue evaluate cell

/-- The runs of a formula body. -/
def bodyRun (scope : Scope) (registry : Registry) (evaluate : Evaluator) (body : String) (site : RowSite) :
    Run → Eval CellValue
  | .ideal n => scope.idealBody registry body site n
  | _ => evaluate body site

/-- **The runs of a cell go in lockstep if the runs of its body do.** -/
theorem lockstep_cell {evaluate : Evaluator} (hc : scope.workbook.Contains cell)
    (h : ∀ inside body, Lockstep scope registry inside (bodyRun scope registry evaluate body cell.site)) :
    Lockstep scope registry g (cellRun scope registry evaluate cell) := by
  cases hs : cell.source with
  | literal raw =>
    have hraw : ∀ i, cellRun scope registry evaluate cell i = Eval.ofRaw raw := fun i => by
      cases i with
      | ideal n => exact Scope.ideal_literal hs n
      | plain => exact Scope.cellValue_literal hs evaluate
      | memoised => exact Scope.cellValue_literal hs evaluate
    rw [funext hraw]
    refine .const (Eval.only_ofExcept _) ?_
    rintro ⟨limit, hcut⟩
    cases hv : raw.value with
    | ok v => rw [hv] at hcut; cases hcut
    | error e => rw [hv] at hcut; cases hcut
  | formula body =>
    refine ⟨Scope.steady_ideal cell, fun hasked plain memoised hg hm hg' hsound => ?_⟩
    have fresh : ∀ m : Walk, m.guard = g → SoundMemo scope registry m.memo →
        Agree scope registry g (fun n => scope.ideal registry n cell) plain m
          (Eval.remember cell.key (Eval.within ⟨cell.key, cell.label⟩ (evaluate body cell.site)) plain)
          (Eval.remember cell.key (Eval.within ⟨cell.key, cell.label⟩ (evaluate body cell.site)) m) :=
      fun m hgm hsm => .remember hc (.within hc hs hg hm hgm hsm hasked fun inside he =>
        (h inside body).agree (asked_inside hc hs he hasked) _ _ rfl hm rfl hsm)
    have hplain : plain.known? cell.key = none := by simp [Walk.known?, hm]
    simp only [cellRun, Scope.cellValue_formula hs]
    rw [formulaValue_fresh hplain]
    cases hknown : memoised.known? cell.key with
    | none =>
      rw [formulaValue_fresh hknown]
      exact fresh memoised hg' hsound
    | some o =>
      -- the memo answers at once; the run without it is compared with itself
      have self := fresh plain hg (hm ▸ soundMemo_none)
      have htells := hsound cell hc o hknown
      rw [formulaValue_known hknown]
      refine ⟨self.plain_told, self.plain_memo, ⟨hg', hsound, .inr htells⟩, fun hcut => ⟨htells.not_cut, ?_⟩⟩
      obtain ⟨-, new, -, hnew, -, -⟩ := self.reached hcut
      exact ⟨new, [], hnew, by simp, List.nil_sublist _⟩

end Cells

/-! ## Expressions -/

/-- The runs of an expression at a row. -/
def exprRun (scope : Scope) (registry : Registry) (evaluate : Evaluator) (site : RowSite) (e : Expr) :
    Run → Eval CellValue
  | .ideal n => e.eval registry (scope.idealRead registry n (some site))
  | _ => e.eval registry (scope.read evaluate (some site))

/-- The runs of a reference. -/
def readRun (scope : Scope) (registry : Registry) (evaluate : Evaluator) (site : RowSite) :
    Run → Reference → Eval CellValue
  | .ideal n => scope.idealRead registry n (some site)
  | _ => scope.read evaluate (some site)

theorem lockstep_read {evaluate : Evaluator} {site : RowSite} (hsite : site.sheet ∈ scope.workbook.sheets)
    (h : ∀ cell, scope.workbook.Contains cell → Lockstep scope registry g (cellRun scope registry evaluate cell))
    (r : Reference) : Lockstep scope registry g fun i => readRun scope registry evaluate site i r := by
  cases ht : scope.target (some site) r with
  | error f =>
    have hfails : ∀ i, readRun scope registry evaluate site i r = throw f := fun i => by
      cases i <;> simp only [readRun, Scope.idealRead, Scope.read, ht] <;> rfl
    simp only [hfails]
    refine .const (Eval.only_throw f) ?_
    rintro ⟨limit, hcut⟩
    cases hcut
    rcases Scope.searches_target _ ht with ⟨m, h⟩ | ⟨e, _, h, _⟩ <;> cases h
  | ok cell =>
    have hcell := Scope.contains_of_target (fun s hs => by cases hs; exact hsite) ht
    have hreads : ∀ i, readRun scope registry evaluate site i r = cellRun scope registry evaluate cell i :=
      fun i => by cases i <;> simp only [readRun, Scope.idealRead, Scope.read, ht] <;> rfl
    simp only [hreads]
    exact h cell hcell

theorem steady_idealBody (body : String) (site : RowSite) : Steady (scope.idealBody registry body site) :=
  fun _ _ h => Scope.outlives_idealBody (fun cell => Scope.outlives_ideal h cell) body site

/-- Without levels every run of a body is cut off. -/
theorem lockstep_refused (body : String) (site : RowSite) :
    Lockstep scope registry g (bodyRun scope registry (scope.chained registry 0) body site) := by
  have hrefused : ∀ w, scope.chained registry 0 body site w = (.error (.depth scope.options.maxDepth), w) := fun w => by
    unfold Scope.chained
    exact Eval.throw_apply _ w
  refine ⟨steady_idealBody body site, fun _ plain memoised hg hm hg' hsound => ?_⟩
  simp only [bodyRun, hrefused]
  exact ⟨⟨hg, hm ▸ soundMemo_none, .inl ⟨_, rfl⟩⟩, hm, ⟨hg', hsound, .inl ⟨_, rfl⟩⟩, fun hcut => absurd ⟨_, rfl⟩ hcut⟩

/-- The runs of a body go in lockstep if those of its expression do. -/
theorem lockstep_body {room : Nat} {site : RowSite}
    (h : ∀ e, Lockstep scope registry g (exprRun scope registry (scope.chained registry room) site e)) (body : String) :
    Lockstep scope registry g (bodyRun scope registry (scope.chained registry (room + 1)) body site) := by
  have hruns : ∀ i, bodyRun scope registry (scope.chained registry (room + 1)) body site i =
      Eval.ofExcept ((parse registry body).mapError .parse) >>= fun e =>
        exprRun scope registry (scope.chained registry room) site e i := fun i => by cases i <;> rfl
  rw [funext hruns]
  refine Lockstep.bind (.const (Eval.only_ofExcept _) ?_) fun e _ => h e
  rintro ⟨limit, hcut⟩
  cases hp : parse registry body with
  | ok e => rw [hp] at hcut; cases hcut
  | error e => rw [hp] at hcut; cases hcut

/-- **The runs of an expression go in lockstep**, through any number of formula cells. -/
theorem lockstep_eval (room : Nat) : ∀ (g : Guard) (site : RowSite), site.sheet ∈ scope.workbook.sheets → ∀ e : Expr,
    Lockstep scope registry g (exprRun scope registry (scope.chained registry room) site e) := by
  have step : ∀ {room : Nat}, (∀ (inside : Guard) (body : String) (site : RowSite),
      site.sheet ∈ scope.workbook.sheets →
        Lockstep scope registry inside (bodyRun scope registry (scope.chained registry room) body site)) →
      ∀ (g : Guard) (site : RowSite), site.sheet ∈ scope.workbook.sheets → ∀ e : Expr,
        Lockstep scope registry g (exprRun scope registry (scope.chained registry room) site e) := by
    intro room hbody g site hsite e
    have hruns : ∀ i, exprRun scope registry (scope.chained registry room) site e i =
        e.eval registry (readRun scope registry (scope.chained registry room) site i) := fun i => by cases i <;> rfl
    rw [funext hruns]
    exact (composable_lockstep scope registry g).eval (readRun scope registry _ site) e fun r _ =>
      lockstep_read hsite (fun cell hc => lockstep_cell hc fun inside body => hbody inside body cell.site hc.1) r
  induction room with
  | zero => exact step fun _ body site _ => lockstep_refused body site
  | succ room ih => exact step fun inside body site hsite => lockstep_body (ih inside site hsite) body

end Lockstep

end GameSheet
