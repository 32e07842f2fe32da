import GameSheet.Function.Registry
import GameSheet.Proofs.Text.Upper
import Mathlib.Data.List.Nodup

/-!
# Operations on registries

Extending a registry by functions puts each in the place of the one with its key, and the new ones behind, in the order
in which their keys first come (`Registry.Extended`); extending it in two steps is extending it once. Restricting it
keeps the functions with one of the names, in order. Help lists all functions, by category and within one category in
the order of the registry (`Registry.ListedBefore`). **`Registry.operations_lawful`** states all of this for any
registry, names and functions.
-/

namespace GameSheet

section Lists

variable {α : Type} [DecidableEq α]

/-- Distinct elements come in the order of their places. -/
theorem pairwise_idxOf {l : List α} (h : l.Nodup) : l.Pairwise fun a b => l.idxOf a < l.idxOf b := by
  refine List.pairwise_iff_getElem.2 fun i j hi hj hij => ?_
  rw [h.idxOf_getElem i hi, h.idxOf_getElem j hj]
  exact hij

variable {β : Type} (sort : β → α) (xs : List β)

/-- The groups of the elements by their sorts are, one after the other, the elements of these sorts. -/
theorem flatMap_groups_perm {sorts : List α} (h : sorts.Nodup) :
    (sorts.flatMap fun a => xs.filter (sort · == a)).Perm (xs.filter fun x => sorts.contains (sort x)) := by
  induction sorts with
  | nil => simp
  | cons a sorts ih =>
    obtain ⟨ha, hsorts⟩ := List.nodup_cons.1 h
    have hsplit := List.filter_append_perm (sort · == a) (xs.filter fun x => (a :: sorts).contains (sort x))
    rw [List.filter_filter, List.filter_filter] at hsplit
    refine .trans ?_ hsplit
    rw [List.flatMap_cons]
    refine .append (.of_eq (List.filter_congr fun x _ => ?_))
      ((ih hsorts).trans (.of_eq (List.filter_congr fun x _ => ?_)))
    · by_cases hx : sort x = a <;> simp [hx]
    · by_cases hx : sort x = a <;> simp [hx, ha]

/-- One group among the groups of the elements. -/
theorem filter_flatMap_groups {sorts : List α} (h : sorts.Nodup) {a : α} (ha : a ∈ sorts) :
    (sorts.flatMap fun a => xs.filter (sort · == a)).filter (sort · == a) = xs.filter (sort · == a) := by
  induction sorts with
  | nil => cases ha
  | cons b sorts ih =>
    obtain ⟨hb, hsorts⟩ := List.nodup_cons.1 h
    rw [List.flatMap_cons, List.filter_append]
    by_cases hab : a = b
    · subst hab
      have hrest : (sorts.flatMap fun c => xs.filter (sort · == c)).filter (sort · == a) = [] := by
        simp only [List.filter_eq_nil_iff, List.mem_flatMap, List.mem_filter, beq_iff_eq]
        rintro x ⟨c, hc, -, rfl⟩ rfl
        exact hb hc
      rw [hrest, List.append_nil, List.filter_filter]
      simp
    · have hgroup : (xs.filter (sort · == b)).filter (sort · == a) = [] := by
        simp only [List.filter_eq_nil_iff, List.mem_filter, beq_iff_eq]
        rintro x ⟨-, rfl⟩ rfl
        exact hab rfl
      rw [hgroup, List.nil_append, ih hsorts ((List.mem_cons.1 ha).resolve_left hab)]

end Lists

theorem FunctionSpec.upper_key (f : FunctionSpec) : Text.upper f.key = f.key :=
  Text.upper_upper f.name

theorem find?_placeSpec (f : FunctionSpec) (specs : List FunctionSpec) (key : String) :
    (placeSpec f specs).find? (·.key == key) = if f.key = key then some f else specs.find? (·.key == key) := by
  induction specs with
  | nil => by_cases hf : f.key = key <;> simp [placeSpec, hf]
  | cons g rest ih =>
    by_cases hg : g.key = f.key
    · by_cases hf : f.key = key <;> simp [placeSpec, hg, hf]
    · by_cases hf : f.key = key
      · have hgk : g.key ≠ key := hf ▸ hg
        simpa [placeSpec, List.find?_cons, hg, hf, hgk] using ih
      · simp only [placeSpec, if_neg hg, List.find?_cons, ih, if_neg hf]

namespace Registry

variable {r r' : Registry} {specs : List FunctionSpec}

/-! ## Extending -/

/-- A registry is another one extended by functions: their keys that are not there stand behind, each at the place of
its first function, and by a name the last function of the name is found. -/
structure Extended (r : Registry) (specs : List FunctionSpec) (r' : Registry) : Prop where
  keys : r'.keys = r.keys ++ ((specs.map FunctionSpec.key).filter fun key => !r.keys.contains key).eraseDups
  found : ∀ name, r'.find? name = (specs.reverse.find? (·.key == Text.upper name)).or (r.find? name)

theorem keys_place (f : FunctionSpec) (known : f.category ∈ categories) :
    (r.place f known).keys = if f.key ∈ r.keys then r.keys else r.keys ++ [f.key] :=
  keys_placeSpec f r.specs

theorem find?_place (f : FunctionSpec) (known : f.category ∈ categories) (name : String) :
    (r.place f known).find? name = if f.key = Text.upper name then some f else r.find? name :=
  find?_placeSpec f r.specs (Text.upper name)

theorem Extended.nil : Extended r [] r := ⟨by simp, fun _ => rfl⟩

/-- One more function in front of those by which a registry is extended. -/
theorem Extended.cons {f : FunctionSpec} {known : f.category ∈ categories} (h : Extended (r.place f known) specs r') :
    Extended r (f :: specs) r' := by
  constructor
  · rw [h.keys, keys_place, List.map_cons]
    by_cases hf : f.key ∈ r.keys
    · rw [if_pos hf, List.filter_cons_of_neg (by simpa using hf)]
    · rw [if_neg hf, List.filter_cons_of_pos (by simpa using hf), List.eraseDups_cons, List.filter_filter,
        List.append_assoc, List.singleton_append]
      congr 3
      refine List.filter_congr fun key _ => ?_
      by_cases hkey : key = f.key <;> simp [hkey]
  · intro name
    rw [h.found, find?_place, List.reverse_cons, List.find?_append, Option.or_assoc]
    by_cases hf : f.key = Text.upper name <;> simp [hf]

/-- Functions of known categories extend any registry. -/
theorem exists_extend (r : Registry) (h : ∀ f ∈ specs, f.category ∈ categories) : ∃ r', r.extend specs = .ok r' := by
  induction specs generalizing r with
  | nil => exact ⟨r, rfl⟩
  | cons f specs ih =>
    obtain ⟨known, hspecs⟩ := List.forall_mem_cons.1 h
    rw [extend, dif_pos known]
    exact ih (r.place f known) hspecs

theorem extended_of_extend (h : r.extend specs = .ok r') : Extended r specs r' := by
  induction specs generalizing r with
  | nil =>
    obtain rfl : r = r' := Except.ok.inj h
    exact .nil
  | cons f specs ih =>
    rw [extend] at h
    split at h
    case isTrue known => exact .cons (ih h)
    case isFalse => cases h

/-- Extending a registry by two lists of functions is extending it by one and then by the other. -/
theorem extend_append (r : Registry) (specs more : List FunctionSpec) :
    r.extend (specs ++ more) = (r.extend specs).bind fun r' => r'.extend more := by
  induction specs generalizing r with
  | nil => rfl
  | cons f specs ih =>
    rw [List.cons_append, extend, extend]
    split
    case isTrue known => exact ih (r.place f known)
    case isFalse => rfl

theorem specs_subset (r : Registry) (names : List String) :
    (r.subset names).specs = r.specs.filter fun f => (names.map Text.upper).contains f.key :=
  rfl

/-! ## Help -/

/-- A function stands before another in help: its category comes earlier, or they have one category and it comes earlier
in the registry. -/
def ListedBefore (r : Registry) (f g : FunctionSpec) : Prop :=
  categories.idxOf f.category < categories.idxOf g.category ∨
    f.category = g.category ∧ r.keys.idxOf f.key < r.keys.idxOf g.key

theorem nodup_categories : categories.Nodup := by decide

theorem metadata_perm (r : Registry) : r.metadata.Perm r.specs := by
  refine (flatMap_groups_perm FunctionSpec.category r.specs nodup_categories).trans (.of_eq ?_)
  exact List.filter_eq_self.2 fun f hf => by simpa using r.categories_known f hf

theorem pairwise_metadata (r : Registry) : r.metadata.Pairwise r.ListedBefore := by
  refine List.pairwise_flatMap.2 ⟨fun c _ => ?_, ?_⟩
  · have hspecs : r.specs.Pairwise fun f g => r.keys.idxOf f.key < r.keys.idxOf g.key := by
      simpa only [keys, List.pairwise_map] using pairwise_idxOf r.keys_nodup
    refine (hspecs.filter _).imp_of_mem fun {f g} hf hg hfg => .inr ⟨?_, hfg⟩
    have hf : f.category = c := by simpa using (List.mem_filter.1 hf).2
    have hg : g.category = c := by simpa using (List.mem_filter.1 hg).2
    rw [hf, hg]
  · refine (pairwise_idxOf nodup_categories).imp fun {c d} hcd f hf g hg => .inl ?_
    have hf : f.category = c := by simpa using (List.mem_filter.1 hf).2
    have hg : g.category = d := by simpa using (List.mem_filter.1 hg).2
    rwa [hf, hg]

/-- The help for one category is the part of the whole help with this category. -/
theorem metadata_some (r : Registry) (category : String) :
    r.metadata (some category) = r.metadata.filter (·.category == category) := by
  by_cases hc : category ∈ categories
  · exact (filter_flatMap_groups FunctionSpec.category r.specs nodup_categories hc).symm
  · have hno : ∀ f ∈ r.specs, ¬ (f.category == category) = true := fun f hf he =>
      hc (beq_iff_eq.1 he ▸ r.categories_known f hf)
    rw [List.filter_eq_nil_iff.2 fun f hf => hno f (r.metadata_perm.mem_iff.1 hf)]
    exact List.filter_eq_nil_iff.2 hno

/-! ## All operations -/

/-- **The operations on registries are lawful.** The keys are distinct and upper case. Extending by functions of known
categories succeeds and does what `Extended` says, in one step as in two. Restricting keeps the functions with one of
the names in order, and restricting twice those with a name of both kinds. Help is a rearrangement of all functions by
category and then by place, and the help for one category its part. -/
theorem operations_lawful (r : Registry) (names others : List String) (specs more : List FunctionSpec)
    (hspecs : ∀ f ∈ specs, f.category ∈ categories) (hmore : ∀ f ∈ more, f.category ∈ categories) :
    (r.keys.Nodup ∧ ∀ key ∈ r.keys, Text.upper key = key) ∧
    (∃ r₁ r₂, r.extend specs = .ok r₁ ∧ Extended r specs r₁ ∧
      r₁.extend more = .ok r₂ ∧ r.extend (specs ++ more) = .ok r₂) ∧
    (r.subset names).specs = r.specs.filter (fun f => (names.map Text.upper).contains f.key) ∧
    ((r.subset names).subset others).specs =
      r.specs.filter (fun f => (names.map Text.upper).contains f.key && (others.map Text.upper).contains f.key) ∧
    (∀ category, r.metadata (some category) = r.metadata.filter (·.category == category)) ∧
    r.metadata.Perm r.specs ∧ r.metadata.Pairwise r.ListedBefore := by
  obtain ⟨r₁, h₁⟩ := exists_extend r hspecs
  obtain ⟨r₂, h₂⟩ := exists_extend r₁ hmore
  refine ⟨⟨r.keys_nodup, ?_⟩, ⟨r₁, r₂, h₁, extended_of_extend h₁, h₂, ?_⟩, rfl, ?_, r.metadata_some, r.metadata_perm,
    r.pairwise_metadata⟩
  · intro key hkey
    obtain ⟨f, -, rfl⟩ := List.mem_map.1 hkey
    exact f.upper_key
  · rw [extend_append, h₁]
    exact h₂
  · rw [specs_subset, specs_subset, List.filter_filter]
    exact List.filter_congr fun f _ => Bool.and_comm ..

/-- A replaced function keeps its place, new ones come behind in the order of their first ones. -/
theorem operations_lawful_replaced :
    ∃ r', (standard.subset ["if", "Sum", "none"]).extend [
        ⟨"half", none, 1, some 1, "math", "half(x)", "", "", []⟩,
        ⟨"Sum", none, 0, none, "math", "Sum(...)", "", "", []⟩,
        ⟨"double", none, 1, some 1, "stat", "double(x)", "", "", []⟩,
        ⟨"HALF", none, 1, some 2, "stat", "HALF(x)", "", "", []⟩] = .ok r' ∧
      r'.keys = ["SUM", "IF", "HALF", "DOUBLE"] := by
  obtain ⟨-, ⟨r₁, -, h₁, extended, -⟩, -⟩ := operations_lawful (standard.subset ["if", "Sum", "none"]) [] []
    [⟨"half", none, 1, some 1, "math", "half(x)", "", "", []⟩,
      ⟨"Sum", none, 0, none, "math", "Sum(...)", "", "", []⟩,
      ⟨"double", none, 1, some 1, "stat", "double(x)", "", "", []⟩,
      ⟨"HALF", none, 1, some 2, "stat", "HALF(x)", "", "", []⟩] [] (by decide) (by decide)
  exact ⟨r₁, h₁, extended.keys.trans (by decide +kernel)⟩

end Registry

end GameSheet
