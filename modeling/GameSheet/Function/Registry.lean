import GameSheet.Function.Balance
import GameSheet.Function.General

/-!
# The function registry

A registry is the set of functions that formulas may call. Functions are found by their names in upper case, which
are distinct, and keep the order in which their names first came. A function with the name of another replaces it in
place. A registry that is restricted to some names is a smaller language: no formula read under it calls any other
function.

* `Registry.ofSpecs` builds a registry and refuses unknown categories.
* `Registry.subset` and `Registry.extend` restrict and enlarge one.
* `Registry.metadata` lists the functions for help, by category.
-/

namespace GameSheet

/-- Puts a function in the place of the one with its key, or at the end. -/
def placeSpec (f : FunctionSpec) : List FunctionSpec → List FunctionSpec
  | [] => [f]
  | g :: rest => if g.key = f.key then f :: rest else g :: placeSpec f rest

theorem keys_placeSpec (f : FunctionSpec) (specs : List FunctionSpec) :
    (placeSpec f specs).map FunctionSpec.key =
      if f.key ∈ specs.map FunctionSpec.key then specs.map FunctionSpec.key
      else specs.map FunctionSpec.key ++ [f.key] := by
  induction specs with
  | nil => simp [placeSpec]
  | cons g rest ih =>
    by_cases h : g.key = f.key
    · simp [placeSpec, h]
    · have h' : ¬ f.key = g.key := fun e => h e.symm
      by_cases hm : f.key ∈ rest.map FunctionSpec.key <;> simp_all [placeSpec]

theorem nodup_keys_placeSpec {f : FunctionSpec} {specs : List FunctionSpec}
    (h : (specs.map FunctionSpec.key).Nodup) : ((placeSpec f specs).map FunctionSpec.key).Nodup := by
  rw [keys_placeSpec]
  split
  · exact h
  · rename_i hm
    rw [List.nodup_append]
    refine ⟨h, by simp, ?_⟩
    intro a ha b hb
    simp only [List.mem_singleton] at hb
    rintro rfl
    exact hm (hb ▸ ha)

theorem mem_placeSpec {f g : FunctionSpec} {specs : List FunctionSpec} (h : g ∈ placeSpec f specs) :
    g = f ∨ g ∈ specs := by
  induction specs with
  | nil => simpa [placeSpec] using h
  | cons k rest ih =>
    by_cases hk : k.key = f.key
    · simp only [placeSpec, hk, if_true, List.mem_cons] at h
      rcases h with rfl | h <;> simp_all
    · simp only [placeSpec, hk, if_false, List.mem_cons] at h
      rcases h with rfl | h
      · simp
      · rcases ih h with rfl | h <;> simp_all

/-- A function whose category is none of `categories`. -/
structure UnknownCategory where
  category : String
  deriving DecidableEq, Repr

/-- What is wrong, in words. -/
def UnknownCategory.message (e : UnknownCategory) : String :=
  "Unknown function category: " ++ Text.quoted e.category

/-- A set of functions, found by their keys. -/
structure Registry where
  specs : List FunctionSpec
  keys_nodup : (specs.map FunctionSpec.key).Nodup
  categories_known : ∀ f ∈ specs, f.category ∈ categories

namespace Registry

/-- The registry without functions. -/
def empty : Registry := ⟨[], by simp, by simp⟩

/-- The registry with one more function, or with it in the place of the one of its name. -/
def place (r : Registry) (f : FunctionSpec) (known : f.category ∈ categories) : Registry where
  specs := placeSpec f r.specs
  keys_nodup := nodup_keys_placeSpec r.keys_nodup
  categories_known := fun g hg => by
    rcases mem_placeSpec hg with rfl | hg
    · exact known
    · exact r.categories_known g hg

/-- The registry with more functions, placed one after the other. -/
def extend (r : Registry) : List FunctionSpec → Except UnknownCategory Registry
  | [] => .ok r
  | f :: rest =>
    if known : f.category ∈ categories then (r.place f known).extend rest else .error ⟨f.category⟩

/-- The registry of some functions. -/
def ofSpecs (specs : List FunctionSpec) : Except UnknownCategory Registry :=
  empty.extend specs

/-- The function of a name, in any case of letters. -/
def find? (r : Registry) (name : String) : Option FunctionSpec :=
  r.specs.find? fun f => f.key == Text.upper name

/-- Whether a function has the name. -/
def contains (r : Registry) (name : String) : Bool :=
  (r.find? name).isSome

/-- The keys of the functions, in order. -/
def keys (r : Registry) : List String :=
  r.specs.map FunctionSpec.key

/-- The number of functions. -/
def size (r : Registry) : Nat :=
  r.specs.length

/-- The functions with one of the names; names without a function do not matter. -/
def subset (r : Registry) (names : List String) : Registry where
  specs := r.specs.filter fun f => (names.map Text.upper).contains f.key
  keys_nodup := List.Nodup.sublist (List.Sublist.map _ List.filter_sublist) r.keys_nodup
  categories_known := fun f hf => r.categories_known f (List.mem_filter.1 hf).1

/-- The functions of one category, in order. -/
def inCategory (r : Registry) (category : String) : List FunctionSpec :=
  r.specs.filter fun f => f.category == category

/-- The functions by category, or those of one category only. -/
def metadata (r : Registry) (category : Option String := none) : List FunctionSpec :=
  match category with
  | some c => r.inCategory c
  | none => categories.flatMap r.inCategory

/-- A short description of the registry. -/
def summary (r : Registry) : String :=
  "FunctionRegistry(" ++ toString r.size ++ " functions)"

/-- The registry of all built-in functions. -/
def standard : Registry where
  specs := Balance.functions ++ General.functions
  keys_nodup := by decide +kernel
  categories_known := by decide +kernel

end Registry

end GameSheet
