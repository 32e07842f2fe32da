import Mathlib.Data.List.Forall2
import Mathlib.Data.List.Nodup

/-!
# Keys, searches and traversals

* Where keys are distinct, the entry of a key is found by its key (`find?_key`), in whatever order the entries stand
  (`find?_perm`), and what is looked up under a key is the one value that stands there (`lookup_eq_of_mem`,
  `lookup_of_nodup`).
* A computation in two parts succeeds exactly if both do (`bind_eq_ok_iff`), and one followed by a function if it does
  (`map_eq_ok_iff`).
* A step at each element of a list succeeds exactly if the results go with the elements (`mapM_eq_ok_iff`,
  `mapM_eq_some_iff`), so it does if it does at each element (`exists_forall₂_iff`).
-/

namespace GameSheet

/-- What is decided of each element of a list. -/
theorem forall_mem_of_all {α : Type} {p : α → Prop} [DecidablePred p] {l : List α}
    (h : (l.all fun a => decide (p a)) = true) : ∀ a ∈ l, p a :=
  fun a ha => of_decide_eq_true (List.all_eq_true.1 h a ha)

section Keys

variable {α β : Type} [DecidableEq β] {key : α → β} {l : List α}

theorem find?_key (nodup : (l.map key).Nodup) {a : α} (ha : a ∈ l) : l.find? (key · == key a) = some a := by
  cases hf : l.find? (key · == key a) with
  | none => exact absurd (List.find?_eq_none.1 hf a ha) (by simp)
  | some b =>
    have hk : key b = key a := by simpa using List.find?_some hf
    rw [List.inj_on_of_nodup_map nodup (List.mem_of_find?_eq_some hf) ha hk]

theorem find?_eq_some_iff_of_nodup (nodup : (l.map key).Nodup) {k : β} {a : α} :
    l.find? (key · == k) = some a ↔ a ∈ l ∧ key a = k := by
  constructor
  · intro h
    exact ⟨List.mem_of_find?_eq_some h, by simpa using List.find?_some h⟩
  · rintro ⟨ha, rfl⟩
    exact find?_key nodup ha

/-- Where keys are distinct, the order of the entries does not matter to a search by key. -/
theorem find?_perm {l' : List α} (nodup : (l.map key).Nodup) (h : l.Perm l') (k : β) :
    l.find? (key · == k) = l'.find? (key · == k) := by
  ext a
  rw [find?_eq_some_iff_of_nodup nodup, find?_eq_some_iff_of_nodup ((h.map key).nodup_iff.1 nodup), h.mem_iff]

end Keys

section Lookup

variable {α β : Type} [BEq α] [LawfulBEq α] {l : List (α × β)} {k : α}

theorem mem_of_lookup {v : β} (h : l.lookup k = some v) : (k, v) ∈ l := by
  obtain ⟨before, after, rfl, -⟩ := List.lookup_eq_some_iff.1 h
  simp

/-- The value under a key is the one that every entry with the key has. -/
theorem lookup_eq_of_mem {o : Option β} (hmem : ∀ v, o = some v → (k, v) ∈ l) (hkey : ∀ v, (k, v) ∈ l → o = some v) :
    l.lookup k = o := by
  cases hl : l.lookup k with
  | some v => exact (hkey v (mem_of_lookup hl)).symm
  | none =>
    cases o with
    | none => rfl
    | some v =>
      have hne := List.lookup_eq_none_iff.1 hl (k, v) (hmem v rfl)
      simp at hne

theorem lookup_of_nodup (nodup : (l.map Prod.fst).Nodup) {v : β} (h : (k, v) ∈ l) : l.lookup k = some v := by
  refine lookup_eq_of_mem (fun v' hv' => ?_) fun v' hv' => ?_
  · cases hv'
    exact h
  · exact congrArg some (Prod.ext_iff.1 (List.inj_on_of_nodup_map nodup h hv' rfl)).2

end Lookup

theorem lookup_map_snd {α β γ : Type} [BEq α] (f : β → γ) (l : List (α × β)) (k : α) :
    (l.map fun e => (e.1, f e.2)).lookup k = (l.lookup k).map f := by
  induction l with
  | nil => rfl
  | cons e rest ih =>
    rw [List.map_cons, List.lookup_cons, List.lookup_cons, ih]
    split <;> rfl

theorem bind_eq_ok_iff {ε α β : Type} {found : Except ε α} {next : α → Except ε β} {b : β} :
    (found >>= next) = .ok b ↔ ∃ a, found = .ok a ∧ next a = .ok b := by
  constructor
  · intro h
    cases found with
    | error e => cases h
    | ok a => exact ⟨a, rfl, h⟩
  · rintro ⟨a, rfl, h⟩
    exact h

theorem map_eq_ok_iff {ε α β : Type} {found : Except ε α} {f : α → β} {b : β} :
    found.map f = .ok b ↔ ∃ a, found = .ok a ∧ f a = b := by
  cases found <;> simp [Except.map]

/-! ## Traversals -/

section Traversals

variable {ε α β γ : Type} {R : α → β → Prop} {l : List α}

theorem exists_of_forall₂ {l' : List β} (h : List.Forall₂ R l l') {a : α} (ha : a ∈ l) : ∃ b ∈ l', R a b := by
  induction h with
  | nil => cases ha
  | @cons _ b _ _ hab _ ih =>
    rcases List.mem_cons.1 ha with rfl | ha
    · exact ⟨b, List.mem_cons_self, hab⟩
    · obtain ⟨b', hb', hab'⟩ := ih ha
      exact ⟨b', List.mem_cons_of_mem _ hb', hab'⟩

theorem map_eq_map_of_forall₂ {f : α → γ} {g : β → γ} {l' : List β} (h : List.Forall₂ R l l')
    (hR : ∀ a b, R a b → f a = g b) : l.map f = l'.map g := by
  induction h with
  | nil => rfl
  | cons hab _ ih => rw [List.map_cons, List.map_cons, hR _ _ hab, ih]

theorem exists_forall₂_iff : (∃ xs, List.Forall₂ R l xs) ↔ ∀ a ∈ l, ∃ x, R a x := by
  constructor
  · rintro ⟨xs, h⟩ a ha
    obtain ⟨x, -, hx⟩ := exists_of_forall₂ h ha
    exact ⟨x, hx⟩
  · intro h
    induction l with
    | nil => exact ⟨[], .nil⟩
    | cons a l ih =>
      obtain ⟨⟨x, hx⟩, hl⟩ := List.forall_mem_cons.1 h
      obtain ⟨xs, hxs⟩ := ih hl
      exact ⟨x :: xs, .cons hx hxs⟩

theorem mapM_eq_ok_iff {f : α → Except ε β} {xs : List β} :
    l.mapM f = .ok xs ↔ List.Forall₂ (fun a x => f a = .ok x) l xs := by
  induction l generalizing xs with
  | nil => simp [pure, Except.pure, eq_comm]
  | cons a l ih =>
    rw [List.mapM_cons, bind_eq_ok_iff, List.forall₂_cons_left_iff]
    refine exists_congr fun x => ?_
    rw [bind_eq_ok_iff]
    constructor
    · rintro ⟨hx, more, hmore, h⟩
      exact ⟨more, hx, ih.1 hmore, (Except.ok.inj h).symm⟩
    · rintro ⟨more, hx, hmore, rfl⟩
      exact ⟨hx, more, ih.2 hmore, rfl⟩

variable {f : α → Option β}

theorem mapM_eq_some_iff {xs : List β} : l.mapM f = some xs ↔ List.Forall₂ (fun a x => f a = some x) l xs := by
  induction l generalizing xs with
  | nil => simp [eq_comm]
  | cons a l ih =>
    simp only [List.mapM_cons, Option.bind_eq_bind, Option.bind_eq_some_iff, Option.pure_def, Option.some.injEq,
      List.forall₂_cons_left_iff, ih]
    constructor
    · rintro ⟨x, hx, more, hmore, rfl⟩
      exact ⟨x, more, hx, hmore, rfl⟩
    · rintro ⟨x, more, hx, hmore, rfl⟩
      exact ⟨x, hx, more, hmore, rfl⟩

theorem mapM_eq_none_iff : l.mapM f = none ↔ ∃ a ∈ l, f a = none := by
  induction l with
  | nil => simp
  | cons a l ih =>
    rw [List.mapM_cons, List.exists_mem_cons_iff, ← ih]
    cases f a with
    | none => simp
    | some x => cases l.mapM f <;> simp

end Traversals

end GameSheet
