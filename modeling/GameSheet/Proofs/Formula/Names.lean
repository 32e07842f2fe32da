import GameSheet.Formula.Parse
import GameSheet.Proofs.Basics

/-!
# The names of a formula

Which phrases a registry accepts (`Phrase.Fits`), and the tree of a phrase, which no registry changes
(`Phrase.tree`). Both are read off the phrase alone, without an order in which its parts are looked at.

* **Checking** (`Phrase.check_eq_ok_iff`): a phrase is accepted with an expression exactly if its names fit and the
  expression is its tree.
-/

namespace GameSheet

open Text Decimal

/-! ## Registries -/

namespace Registry

/-- A reference, if the registry has it, takes three arguments. -/
def ReferenceTakesThree (registry : Registry) : Prop :=
  ∀ f ∈ registry.specs, f.key = "REF" → ∀ count, f.accepts count = true ↔ count = 3

/-- The built-in reference takes three arguments. -/
theorem standard_referenceTakesThree : standard.ReferenceTakesThree := by
  intro f hf hkey count
  have htable : ∀ f ∈ standard.specs, f.key = "REF" → f.minArgs = 3 ∧ f.maxArgs = some 3 := by decide +kernel
  obtain ⟨hmin, hmax⟩ := htable f hf hkey
  simp only [FunctionSpec.accepts, hmin, hmax, Option.all_some, Bool.and_eq_true, decide_eq_true_eq]
  omega

theorem find?_eq_some_iff {registry : Registry} {callee : String} {f : FunctionSpec} :
    registry.find? callee = some f ↔ f ∈ registry.specs ∧ f.key = upper callee :=
  find?_eq_some_iff_of_nodup registry.keys_nodup

end Registry

namespace Formula

/-! ## Names that fit -/

namespace Phrase

/-- A string literal or a bare name. -/
def IsName : Phrase → Prop
  | text _ _ => True
  | name _ _ => True
  | _ => False

/-- A whole number from zero on. -/
def IsRowNumber : Phrase → Prop
  | number x => isWhole x = true ∧ 0.0 ≤ x
  | _ => False

end Phrase

/-- A call names a function that takes its number of arguments. The arguments of a reference are names; the second
one, which is for the row, may be a number. -/
structure CallFits (registry : Registry) (callee : String) (args : List Phrase) : Prop where
  registered : ∃ f ∈ registry.specs, f.key = upper callee ∧ f.accepts args.length = true
  named : upper callee = "REF" → ∀ i p, args[i]? = some p → p.IsName ∨ (i = 1 ∧ p.IsRowNumber)

mutual

/-- The names in the phrase fit the registry. -/
def Phrase.Fits (registry : Registry) : Phrase → Prop
  | .number _ => True
  | .text _ _ => True
  | .name _ _ => True
  | .dotted qualifier _ _ => qualifier = "PREV" ∨ qualifier = "Settings"
  | .negate operand => operand.Fits registry
  | .binary _ left right => left.Fits registry ∧ right.Fits registry
  | .call callee args _ => CallFits registry callee args ∧ Phrase.AllFit registry args

/-- The names in several phrases fit the registry. -/
def Phrase.AllFit (registry : Registry) : List Phrase → Prop
  | [] => True
  | p :: rest => p.Fits registry ∧ Phrase.AllFit registry rest

end

/-! ## Trees -/

namespace Phrase

/-- The name that an argument of a reference gives. -/
def label : Phrase → String
  | text s _ => s
  | name s _ => s
  | _ => ""

/-- The row that an argument of a reference picks. -/
def row : Phrase → RowSelector
  | number x => .index (truncInt x).toNat
  | p => .named p.label

/-- The reference that three arguments make. -/
def reference (args : List Phrase) (position : Nat) : Reference :=
  .cross (args.getD 0 default).label (args.getD 1 default).row (args.getD 2 default).label position

end Phrase

mutual

/-- The tree of a phrase. -/
def Phrase.tree : Phrase → Expr
  | .number x => .number x
  | .text s position => .text s position
  | .name label position => .ref (.column label position)
  | .dotted qualifier field position =>
    .ref (if qualifier = "PREV" then .previous field position else .setting field position)
  | .negate operand => .negate operand.tree
  | .binary op left right => .binary op left.tree right.tree
  | .call callee args position =>
    if upper callee = "REF" then .ref (Phrase.reference args position)
    else .call (upper callee) (Phrase.trees args) position

/-- The trees of several phrases. -/
def Phrase.trees : List Phrase → List Expr
  | [] => []
  | p :: rest => p.tree :: Phrase.trees rest

end

theorem Phrase.trees_length : (ps : List Phrase) → (Phrase.trees ps).length = ps.length
  | [] => rfl
  | _ :: rest => congrArg (· + 1) (Phrase.trees_length rest)

/-! ## Checking -/

/-- Several phrases around one are accepted exactly if all of them are. -/
theorem Phrase.checkAll_append_cons {registry : Registry} {ps qs : List Phrase} {p : Phrase} {es : List Expr} :
    Phrase.checkAll registry (ps ++ p :: qs) = .ok es ↔ ∃ as e bs, Phrase.checkAll registry ps = .ok as ∧
      p.check registry = .ok e ∧ Phrase.checkAll registry qs = .ok bs ∧ es = as ++ e :: bs := by
  induction ps generalizing es with
  | nil =>
    simp only [List.nil_append, Phrase.checkAll, bind_eq_ok_iff, Except.ok.injEq]
    constructor
    · rintro ⟨e, he, bs, hbs, rfl⟩
      exact ⟨[], e, bs, rfl, he, hbs, rfl⟩
    · rintro ⟨_, e, bs, rfl, he, hbs, rfl⟩
      exact ⟨e, he, bs, hbs, rfl⟩
  | cons q ps ih =>
    simp only [List.cons_append, Phrase.checkAll, bind_eq_ok_iff, ih, Except.ok.injEq]
    constructor
    · rintro ⟨a, ha, _, ⟨as, e, bs, has, he, hbs, rfl⟩, rfl⟩
      exact ⟨a :: as, e, bs, ⟨a, ha, as, has, rfl⟩, he, hbs, rfl⟩
    · rintro ⟨_, e, bs, ⟨a, ha, as, has, rfl⟩, he, hbs, rfl⟩
      exact ⟨a, ha, _, ⟨as, e, bs, has, he, hbs, rfl⟩, rfl⟩

/-- The argument of a reference gives a name if it is one. -/
theorem Phrase.asName?_tree {p : Phrase} {s : String} : p.tree.asName? = some s ↔ p.IsName ∧ s = p.label := by
  cases p with
  | call callee args position =>
    simp only [tree]
    split <;> simp [Expr.asName?, IsName, reference]
  | dotted qualifier field position =>
    simp only [tree]
    split <;> simp [Expr.asName?, IsName]
  | _ => simp [tree, Expr.asName?, IsName, label, eq_comm]

/-- The argument of a reference picks a row if it is a name or a whole number from zero on. -/
theorem Phrase.asRow?_tree {p : Phrase} {r : RowSelector} :
    p.tree.asRow? = some r ↔ (p.IsName ∨ p.IsRowNumber) ∧ r = p.row := by
  cases p with
  | number x =>
    simp only [tree, Expr.asRow?, IsName, IsRowNumber, row, false_or, Bool.and_eq_true, decide_eq_true_eq]
    split
    · rename_i h
      simp [h, eq_comm]
    · rename_i h
      simp [h]
  | call callee args position =>
    simp only [tree]
    split <;> simp [Expr.asRow?, Expr.asName?, IsName, IsRowNumber, reference]
  | dotted qualifier field position =>
    simp only [tree]
    split <;> simp [Expr.asRow?, Expr.asName?, IsName, IsRowNumber]
  | _ => simp [tree, Expr.asRow?, Expr.asName?, IsName, IsRowNumber, row, label, eq_comm]

/-- Three arguments make a reference if each gives its part. -/
theorem crossReference_eq_ok_iff {sheet row column : Expr} {position : Nat} {e : Expr} :
    crossReference [sheet, row, column] position = .ok e ↔ ∃ s r c, sheet.asName? = some s ∧ row.asRow? = some r ∧
      column.asName? = some c ∧ e = .ref (.cross s r c position) := by
  cases hs : sheet.asName? <;> cases hr : row.asRow? <;> cases hc : column.asName? <;>
    simp [crossReference, hs, hr, hc, eq_comm]

/-- A reference is made of three arguments. -/
theorem length_of_crossReference {args : List Expr} {position : Nat} {e : Expr}
    (h : crossReference args position = .ok e) : args.length = 3 := by
  unfold crossReference at h
  split at h
  · rfl
  · cases h

/-- Three phrases make a reference if they are names, or a row number for the second. -/
theorem crossReference_tree_eq_ok_iff {sheet row column : Phrase} {position : Nat} {e : Expr} :
    crossReference [sheet.tree, row.tree, column.tree] position = .ok e ↔
      (sheet.IsName ∧ (row.IsName ∨ row.IsRowNumber) ∧ column.IsName) ∧
        e = .ref (Phrase.reference [sheet, row, column] position) := by
  simp only [crossReference_eq_ok_iff, Phrase.asName?_tree, Phrase.asRow?_tree]
  constructor
  · rintro ⟨s, r, c, ⟨hs, rfl⟩, ⟨hr, rfl⟩, ⟨hc, rfl⟩, rfl⟩
    exact ⟨⟨hs, hr, hc⟩, rfl⟩
  · rintro ⟨⟨hs, hr, hc⟩, rfl⟩
    exact ⟨_, _, _, ⟨hs, rfl⟩, ⟨hr, rfl⟩, ⟨hc, rfl⟩, rfl⟩

/-- Of three arguments each is in its place. -/
theorem callFits_named_iff {a b c : Phrase} :
    (∀ i p, [a, b, c][i]? = some p → p.IsName ∨ (i = 1 ∧ p.IsRowNumber)) ↔
      a.IsName ∧ (b.IsName ∨ b.IsRowNumber) ∧ c.IsName := by
  constructor
  · intro h
    exact ⟨(h 0 a rfl).resolve_right (by simp), (h 1 b rfl).imp id And.right, (h 2 c rfl).resolve_right (by simp)⟩
  · rintro ⟨ha, hb, hc⟩ i p hi
    match i, hi with
    | 0, rfl => exact Or.inl ha
    | 1, rfl => exact hb.imp id fun h => ⟨rfl, h⟩
    | 2, rfl => exact Or.inl hc

section Check

variable {registry : Registry}

/-- A call whose arguments have been checked is accepted if it fits. -/
theorem checkCall_eq_ok_iff (href : registry.ReferenceTakesThree) {callee : String} {args : List Phrase}
    {position : Nat} {e : Expr} :
    checkCall registry callee (Phrase.trees args) position = .ok e ↔
      CallFits registry callee args ∧ e = (Phrase.call callee args position).tree := by
  simp only [checkCall, Phrase.trees_length]
  cases hf : registry.find? callee with
  | none =>
    constructor
    · intro h
      cases h
    · rintro ⟨⟨⟨f, hmem, hkey, _⟩, _⟩, _⟩
      rw [Registry.find?_eq_some_iff.2 ⟨hmem, hkey⟩] at hf
      cases hf
  | some f =>
    obtain ⟨hmem, hkey⟩ := Registry.find?_eq_some_iff.1 hf
    by_cases hacc : f.accepts args.length = true
    · simp only [if_pos hacc]
      by_cases hname : upper callee = "REF"
      · have hlen : args.length = 3 := (href f hmem (hkey.trans hname) _).1 hacc
        obtain ⟨sheet, row, column, rfl⟩ := List.length_eq_three.1 hlen
        have hkeyname : upper callee = referenceKey := hname
        rw [if_pos hkeyname, Phrase.trees, Phrase.trees, Phrase.trees, Phrase.trees, crossReference_tree_eq_ok_iff,
          ← callFits_named_iff, Phrase.tree, if_pos hname]
        exact ⟨fun ⟨hn, he⟩ => ⟨⟨⟨f, hmem, hkey, hacc⟩, fun _ => hn⟩, he⟩, fun ⟨hc, he⟩ => ⟨hc.named hname, he⟩⟩
      · have hne : ¬ upper callee = referenceKey := hname
        rw [if_neg hne, Phrase.tree, if_neg hname]
        constructor
        · intro h
          cases h
          exact ⟨⟨⟨f, hmem, hkey, hacc⟩, fun h => absurd h hname⟩, rfl⟩
        · rintro ⟨_, rfl⟩
          rfl
    · simp only [if_neg hacc]
      constructor
      · intro h
        cases h
      · rintro ⟨⟨⟨g, hg, hgkey, hgacc⟩, _⟩, _⟩
        rw [Registry.find?_eq_some_iff.2 ⟨hg, hgkey⟩] at hf
        cases hf
        exact absurd hgacc hacc

mutual

/-- **Checking**: a phrase is accepted exactly if its names fit, and its expression is its tree. -/
theorem Phrase.check_eq_ok_iff (href : registry.ReferenceTakesThree) : (p : Phrase) → (e : Expr) →
    (p.check registry = .ok e ↔ p.Fits registry ∧ e = p.tree)
  | .number x, e => by simp only [Phrase.check, Phrase.Fits, Phrase.tree, true_and, Except.ok.injEq, eq_comm]
  | .text s position, e => by simp only [Phrase.check, Phrase.Fits, Phrase.tree, true_and, Except.ok.injEq, eq_comm]
  | .name label position, e => by
    simp only [Phrase.check, Phrase.Fits, Phrase.tree, true_and, Except.ok.injEq, eq_comm]
  | .dotted qualifier field position, e => by
    simp only [Phrase.check, Phrase.Fits, Phrase.tree, previousQualifier, settingsQualifier]
    by_cases hp : qualifier = "PREV"
    · simp [hp, eq_comm]
    · by_cases hs : qualifier = "Settings"
      · simp [hs, eq_comm]
      · simp [hp, hs]
  | .negate operand, e => by
    have ih := Phrase.check_eq_ok_iff href operand
    simp only [Phrase.check, Phrase.Fits, Phrase.tree, bind_eq_ok_iff, ih, Except.ok.injEq]
    constructor
    · rintro ⟨a, ⟨hf, rfl⟩, rfl⟩
      exact ⟨hf, rfl⟩
    · rintro ⟨hf, rfl⟩
      exact ⟨_, ⟨hf, rfl⟩, rfl⟩
  | .binary op left right, e => by
    have ihl := Phrase.check_eq_ok_iff href left
    have ihr := Phrase.check_eq_ok_iff href right
    simp only [Phrase.check, Phrase.Fits, Phrase.tree, bind_eq_ok_iff, ihl, ihr, Except.ok.injEq]
    constructor
    · rintro ⟨a, ⟨hl, rfl⟩, b, ⟨hr, rfl⟩, rfl⟩
      exact ⟨⟨hl, hr⟩, rfl⟩
    · rintro ⟨⟨hl, hr⟩, rfl⟩
      exact ⟨_, ⟨hl, rfl⟩, _, ⟨hr, rfl⟩, rfl⟩
  | .call callee args position, e => by
    have ih := Phrase.checkAll_eq_ok_iff href args
    simp only [Phrase.check, Phrase.Fits, bind_eq_ok_iff, ih]
    constructor
    · rintro ⟨es, ⟨hargs, rfl⟩, h⟩
      obtain ⟨hcall, rfl⟩ := (checkCall_eq_ok_iff href).1 h
      exact ⟨⟨hcall, hargs⟩, rfl⟩
    · rintro ⟨⟨hcall, hargs⟩, rfl⟩
      exact ⟨_, ⟨hargs, rfl⟩, (checkCall_eq_ok_iff href).2 ⟨hcall, rfl⟩⟩

theorem Phrase.checkAll_eq_ok_iff (href : registry.ReferenceTakesThree) : (ps : List Phrase) → (es : List Expr) →
    (Phrase.checkAll registry ps = .ok es ↔ Phrase.AllFit registry ps ∧ es = Phrase.trees ps)
  | [], es => by simp only [Phrase.checkAll, Phrase.AllFit, Phrase.trees, true_and, Except.ok.injEq, eq_comm]
  | p :: rest, es => by
    have ihp := Phrase.check_eq_ok_iff href p
    have ihr := Phrase.checkAll_eq_ok_iff href rest
    simp only [Phrase.checkAll, Phrase.AllFit, Phrase.trees, bind_eq_ok_iff, ihp, ihr, Except.ok.injEq]
    constructor
    · rintro ⟨a, ⟨hp, rfl⟩, b, ⟨hr, rfl⟩, rfl⟩
      exact ⟨⟨hp, hr⟩, rfl⟩
    · rintro ⟨⟨hp, hr⟩, rfl⟩
      exact ⟨_, ⟨hp, rfl⟩, _, ⟨hr, rfl⟩, rfl⟩

end

end Check

end Formula

end GameSheet
