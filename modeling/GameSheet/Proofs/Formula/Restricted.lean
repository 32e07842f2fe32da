import GameSheet.Proofs.Formula.Names

/-!
# Formulas of a restricted registry

An expression uses the functions that it calls, and the one of references to other sheets if it has such a reference
(`Expr.callees`); these are read off its calls and references (`Expr.deeds`). Under a registry that is restricted to
some names a body is parsed to a tree exactly if it is parsed to the same tree without the restriction and the tree uses
no functions but those of the names (`parse_subset_iff`).

The restriction is looked at call by call. A call that is accepted stands in the tree under the key it was found by
(`callees_of_checkCall`); the arguments of a reference are names, so that no call is lost with them.
-/

namespace GameSheet

open Text

/-- A restricted registry has the functions of the names. -/
theorem Registry.find?_subset_iff {registry : Registry} {names : List String} {name : String} {f : FunctionSpec} :
    (registry.subset names).find? name = some f ↔ registry.find? name = some f ∧ upper name ∈ names.map upper := by
  simp only [find?_eq_some_iff, subset, List.mem_filter, List.contains_iff_mem]
  constructor
  · rintro ⟨⟨hmem, hname⟩, hkey⟩
    exact ⟨⟨hmem, hkey⟩, hkey ▸ hname⟩
  · rintro ⟨⟨hmem, hkey⟩, hname⟩
    exact ⟨⟨hmem, hkey ▸ hname⟩, hkey⟩

namespace Formula

/-! ## The functions that an expression uses -/

/-- What an expression may do apart from calculating: call a function by its key, or follow a reference. -/
inductive Deed where
  | call (key : String)
  | follow (r : Reference)

/-- The key of the function that is used. Only a reference to another sheet uses one. -/
def Deed.callee? : Deed → Option String
  | .call key => some key
  | .follow (.cross _ _ _ _) => some referenceKey
  | .follow _ => none

mutual

/-- The calls and the references in the expression. -/
def Expr.deeds : Expr → List Deed
  | .number _ => []
  | .text _ _ => []
  | .ref r => [.follow r]
  | .negate e => e.deeds
  | .binary _ l r => l.deeds ++ r.deeds
  | .call key args _ => .call key :: Expr.deedsOfAll args

/-- The calls and the references in several expressions. -/
def Expr.deedsOfAll : List Expr → List Deed
  | [] => []
  | e :: rest => e.deeds ++ Expr.deedsOfAll rest

end

/-- The keys of the functions that the expression uses, which are their names in upper case. -/
def Expr.callees (e : Expr) : List String :=
  e.deeds.filterMap Deed.callee?

/-- The keys of the functions that several expressions use. -/
def Expr.calleesOfAll (es : List Expr) : List String :=
  (Expr.deedsOfAll es).filterMap Deed.callee?

/-- Every function that the expression uses has one of the names, whatever the case of the letters. -/
def Expr.UsesOnly (names : List String) (e : Expr) : Prop :=
  ∀ key ∈ e.callees, key ∈ names.map upper

/-- The same for several expressions. -/
def Expr.AllUseOnly (names : List String) (es : List Expr) : Prop :=
  ∀ key ∈ Expr.calleesOfAll es, key ∈ names.map upper

theorem Expr.calleesOfAll_cons (e : Expr) (rest : List Expr) :
    calleesOfAll (e :: rest) = e.callees ++ calleesOfAll rest :=
  List.filterMap_append

section UsesOnly

variable {names : List String}

theorem Expr.usesOnly_of_nil {e : Expr} (h : e.callees = []) : e.UsesOnly names := by
  simp [UsesOnly, h]

theorem Expr.usesOnly_binary {op : Operator} {l r : Expr} :
    (Expr.binary op l r).UsesOnly names ↔ l.UsesOnly names ∧ r.UsesOnly names := by
  simp only [UsesOnly, callees, deeds, List.filterMap_append]
  exact List.forall_mem_append

theorem Expr.allUseOnly_cons {e : Expr} {rest : List Expr} :
    AllUseOnly names (e :: rest) ↔ e.UsesOnly names ∧ AllUseOnly names rest := by
  simp only [UsesOnly, AllUseOnly, calleesOfAll_cons]
  exact List.forall_mem_append

end UsesOnly

/-! ## The functions of an accepted call -/

theorem callees_of_asName? {e : Expr} {name : String} (h : e.asName? = some name) : e.callees = [] := by
  unfold Expr.asName? at h
  split at h <;> first | rfl | cases h

theorem callees_of_asRow? {e : Expr} {row : RowSelector} (h : e.asRow? = some row) : e.callees = [] := by
  unfold Expr.asRow? at h
  split at h
  · rfl
  · obtain ⟨name, hname, -⟩ := Option.map_eq_some_iff.1 h
    exact callees_of_asName? hname

/-- The arguments of a reference use no functions, and the reference uses its own. -/
theorem callees_of_crossReference {args : List Expr} {position : Nat} {e : Expr}
    (h : crossReference args position = .ok e) : e.callees = [referenceKey] ∧ Expr.calleesOfAll args = [] := by
  unfold crossReference at h
  split at h
  · split at h <;> cases h
    next hsheet hrow hcolumn =>
    refine ⟨rfl, ?_⟩
    simp only [Expr.calleesOfAll_cons, callees_of_asName? hsheet, callees_of_asRow? hrow, callees_of_asName? hcolumn]
    rfl
  · cases h

variable {registry : Registry} {names : List String}

/-- An accepted call uses its function and what its arguments use. -/
theorem callees_of_checkCall {name : String} {args : List Expr} {position : Nat} {e : Expr}
    (h : checkCall registry name args position = .ok e) : e.callees = upper name :: Expr.calleesOfAll args := by
  unfold checkCall at h
  split at h
  · cases h
  · split at h
    · split at h
      · next hname =>
        obtain ⟨he, hargs⟩ := callees_of_crossReference h
        rw [he, hargs, hname]
      · cases h
        rfl
    · cases h

/-- A call is accepted under a restricted registry exactly if it is accepted and its function has one of the names. -/
theorem checkCall_subset_iff {name : String} {args : List Expr} {position : Nat} {e : Expr} :
    checkCall (registry.subset names) name args position = .ok e ↔
      checkCall registry name args position = .ok e ∧ upper name ∈ names.map upper := by
  by_cases hname : upper name ∈ names.map upper
  · have hfind : (registry.subset names).find? name = registry.find? name :=
      Option.ext fun f => by simp [Registry.find?_subset_iff, hname]
    simp only [checkCall, hfind, hname, and_true]
  · have hfind : (registry.subset names).find? name = none :=
      Option.eq_none_iff_forall_ne_some.2 fun f hf => hname (Registry.find?_subset_iff.1 hf).2
    simp only [checkCall, hfind, hname, and_false, reduceCtorEq]

/-! ## Checking and parsing -/

/-- What uses no functions is not restricted. -/
theorem leaf_subset_iff {leaf e : Expr} (h : leaf.callees = []) :
    (.ok leaf : Except ParseError Expr) = .ok e ↔ (.ok leaf : Except ParseError Expr) = .ok e ∧ e.UsesOnly names := by
  simp only [Except.ok.injEq, iff_self_and]
  rintro rfl
  exact Expr.usesOnly_of_nil h

mutual

/-- A phrase is accepted under a restricted registry exactly if it is accepted and uses the names only. -/
theorem Phrase.check_subset_iff : (p : Phrase) → ∀ e, p.check (registry.subset names) = .ok e ↔
    p.check registry = .ok e ∧ e.UsesOnly names
  | .number _, _ => leaf_subset_iff rfl
  | .text _ _, _ => leaf_subset_iff rfl
  | .name _ _, _ => leaf_subset_iff rfl
  | .dotted qualifier field position, e => by
    simp only [Phrase.check, iff_self_and]
    intro h
    split at h
    · cases h
      exact Expr.usesOnly_of_nil rfl
    · split at h <;> cases h
      exact Expr.usesOnly_of_nil rfl
  | .negate operand, e => by
    simp only [Phrase.check, bind_eq_ok_iff, Phrase.check_subset_iff operand, Except.ok.injEq]
    constructor
    · rintro ⟨o, ⟨ho, huses⟩, rfl⟩
      exact ⟨⟨o, ho, rfl⟩, huses⟩
    · rintro ⟨⟨o, ho, rfl⟩, huses⟩
      exact ⟨o, ⟨ho, huses⟩, rfl⟩
  | .binary op left right, e => by
    simp only [Phrase.check, bind_eq_ok_iff, Phrase.check_subset_iff left, Phrase.check_subset_iff right,
      Except.ok.injEq]
    constructor
    · rintro ⟨l, ⟨hl, hlu⟩, r, ⟨hr, hru⟩, rfl⟩
      exact ⟨⟨l, hl, r, hr, rfl⟩, Expr.usesOnly_binary.2 ⟨hlu, hru⟩⟩
    · rintro ⟨⟨l, hl, r, hr, rfl⟩, huses⟩
      obtain ⟨hlu, hru⟩ := Expr.usesOnly_binary.1 huses
      exact ⟨l, ⟨hl, hlu⟩, r, ⟨hr, hru⟩, rfl⟩
  | .call callee args position, e => by
    simp only [Phrase.check, bind_eq_ok_iff, Phrase.checkAll_subset_iff args, checkCall_subset_iff]
    -- what the call uses is its function and what the arguments use
    have huses : ∀ es, checkCall registry callee es position = .ok e →
        (e.UsesOnly names ↔ upper callee ∈ names.map upper ∧ Expr.AllUseOnly names es) := fun es h => by
      simp only [Expr.UsesOnly, Expr.AllUseOnly, callees_of_checkCall h]
      exact List.forall_mem_cons
    constructor
    · rintro ⟨es, ⟨hes, hargs⟩, hcall, hname⟩
      exact ⟨⟨es, hes, hcall⟩, (huses es hcall).2 ⟨hname, hargs⟩⟩
    · rintro ⟨⟨es, hes, hcall⟩, h⟩
      obtain ⟨hname, hargs⟩ := (huses es hcall).1 h
      exact ⟨es, ⟨hes, hargs⟩, hcall, hname⟩

/-- The same for several phrases. -/
theorem Phrase.checkAll_subset_iff : (ps : List Phrase) → ∀ es, Phrase.checkAll (registry.subset names) ps = .ok es ↔
    Phrase.checkAll registry ps = .ok es ∧ Expr.AllUseOnly names es
  | [], es => by
    simp only [Phrase.checkAll, Except.ok.injEq, iff_self_and]
    rintro rfl
    exact List.forall_mem_nil _
  | p :: rest, es => by
    simp only [Phrase.checkAll, bind_eq_ok_iff, Phrase.check_subset_iff p, Phrase.checkAll_subset_iff rest,
      Except.ok.injEq]
    constructor
    · rintro ⟨e, ⟨he, heu⟩, more, ⟨hmore, hmu⟩, rfl⟩
      exact ⟨⟨e, he, more, hmore, rfl⟩, Expr.allUseOnly_cons.2 ⟨heu, hmu⟩⟩
    · rintro ⟨⟨e, he, more, hmore, rfl⟩, huses⟩
      obtain ⟨heu, hmu⟩ := Expr.allUseOnly_cons.1 huses
      exact ⟨e, ⟨he, heu⟩, more, ⟨hmore, hmu⟩, rfl⟩

end

/-- **What a restricted registry parses**: the trees that use no functions but those of the names. -/
theorem parse_subset_iff {body : String} {e : Expr} : parse (registry.subset names) body = .ok e ↔
    parse registry body = .ok e ∧ e.UsesOnly names := by
  simp only [parse, bind_eq_ok_iff, Phrase.check_subset_iff]
  constructor
  · rintro ⟨p, hp, he, huses⟩
    exact ⟨⟨p, hp, he⟩, huses⟩
  · rintro ⟨⟨p, hp, he⟩, huses⟩
    exact ⟨p, hp, he, huses⟩

end Formula

end GameSheet
