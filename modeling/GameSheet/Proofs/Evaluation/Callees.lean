import GameSheet.Proofs.Formula.Names
import GameSheet.Proofs.Function.Standard

/-!
# The calls of parsed formulas

A parsed formula calls nothing but functions of its registry, each with a number of arguments that it takes
(`parse_resolved`). So under the standard registry a call of a parsed formula raises nothing but faults of the function
itself (`Registry.Takes.raises`): the function is known, the number of arguments was checked, a reference to another
sheet is no call, and no function finds its arguments unsuited.
-/

namespace GameSheet

open Formula Text

namespace Registry

/-- The keys under which functions are found are upper case themselves. -/
def UpperKeys (registry : Registry) : Prop :=
  ∀ f ∈ registry.specs, upper f.key = f.key

/-- A call by its key and its number of arguments: a function has the key and takes so many arguments. The key of
references to other sheets is that of no call. -/
structure Takes (registry : Registry) (call : String × Nat) : Prop where
  isCall : call.1 ≠ referenceKey
  registered : ∃ f, registry.find? call.1 = some f ∧ f.key = call.1 ∧ f.accepts call.2 = true

theorem standard_upperKeys : standard.UpperKeys := by
  unfold UpperKeys
  decide +kernel

variable {registry : Registry} {name : String} {f : FunctionSpec}

/-- A function that is found by a name is found by its key. -/
theorem UpperKeys.find?_upper (h : registry.UpperKeys) (hf : registry.find? name = some f) :
    registry.find? (upper name) = some f ∧ f.key = upper name := by
  obtain ⟨hmem, hkey⟩ := find?_eq_some_iff.1 hf
  refine ⟨find?_eq_some_iff.2 ⟨hmem, ?_⟩, hkey⟩
  rw [← hkey, h f hmem]

end Registry

/-! ## Expressions -/

namespace Formula

variable {registry : Registry}

/-- Every call in the expression is one that the registry takes. -/
def Expr.Resolved (registry : Registry) (e : Expr) : Prop :=
  ∀ call ∈ e.calls, registry.Takes call

theorem Expr.resolved_of_no_calls {e : Expr} (h : e.calls = []) : e.Resolved registry := by
  simp [Resolved, h]

/-- A call whose arguments are resolved is resolved as soon as it is accepted. -/
theorem resolved_of_checkCall (h : registry.UpperKeys) {name : String} {args : List Expr} {position : Nat} {e : Expr}
    (hcheck : checkCall registry name args position = .ok e)
    (hargs : ∀ call ∈ Expr.callsOfAll args, registry.Takes call) : e.Resolved registry := by
  unfold checkCall at hcheck
  cases hf : registry.find? name with
  | none =>
    rw [hf] at hcheck
    cases hcheck
  | some f =>
    simp only [hf] at hcheck
    obtain ⟨hfound, hkey⟩ := h.find?_upper hf
    split at hcheck
    · next haccepts =>
      split at hcheck
      · -- a reference has no calls
        unfold crossReference at hcheck
        split at hcheck
        · split at hcheck <;> cases hcheck
          exact Expr.resolved_of_no_calls rfl
        · cases hcheck
      · next hname =>
        cases hcheck
        exact List.forall_mem_cons.2 ⟨⟨hname, f, hfound, hkey, haccepts⟩, hargs⟩
    · cases hcheck

mutual

/-- The calls of a checked phrase are taken by the registry it was checked against. -/
theorem Phrase.check_resolved (h : registry.UpperKeys) : (p : Phrase) → ∀ e, p.check registry = .ok e →
    e.Resolved registry
  | .number _, _, hp => by
    cases hp
    exact Expr.resolved_of_no_calls rfl
  | .text _ _, _, hp => by
    cases hp
    exact Expr.resolved_of_no_calls rfl
  | .name _ _, _, hp => by
    cases hp
    exact Expr.resolved_of_no_calls rfl
  | .dotted qualifier field position, e, hp => by
    rw [Phrase.check] at hp
    split at hp
    · cases hp
      exact Expr.resolved_of_no_calls rfl
    · split at hp <;> cases hp
      exact Expr.resolved_of_no_calls rfl
  | .negate operand, e, hp => by
    rw [Phrase.check] at hp
    obtain ⟨o, ho, hp⟩ := bind_eq_ok_iff.1 hp
    cases hp
    exact operand.check_resolved h o ho
  | .binary op left right, e, hp => by
    rw [Phrase.check] at hp
    obtain ⟨l, hl, hp⟩ := bind_eq_ok_iff.1 hp
    obtain ⟨r, hr, hp⟩ := bind_eq_ok_iff.1 hp
    cases hp
    exact List.forall_mem_append.2 ⟨left.check_resolved h l hl, right.check_resolved h r hr⟩
  | .call callee args position, e, hp => by
    rw [Phrase.check] at hp
    obtain ⟨es, hes, hp⟩ := bind_eq_ok_iff.1 hp
    exact resolved_of_checkCall h hp (Phrase.checkAll_resolved h args es hes)

theorem Phrase.checkAll_resolved (h : registry.UpperKeys) : (ps : List Phrase) → ∀ es,
    Phrase.checkAll registry ps = .ok es → ∀ call ∈ Expr.callsOfAll es, registry.Takes call
  | [], _, hp => by
    cases hp
    exact fun _ hcall => absurd hcall List.not_mem_nil
  | p :: rest, es, hp => by
    rw [Phrase.checkAll] at hp
    obtain ⟨e, he, hp⟩ := bind_eq_ok_iff.1 hp
    obtain ⟨more, hmore, hp⟩ := bind_eq_ok_iff.1 hp
    cases hp
    exact List.forall_mem_append.2 ⟨p.check_resolved h e he, Phrase.checkAll_resolved h rest more hmore⟩

end

/-- **A parsed formula calls only what its registry takes.** -/
theorem parse_resolved (h : registry.UpperKeys) {body : String} {e : Expr} (hp : parse registry body = .ok e) :
    e.Resolved registry := by
  obtain ⟨phrase, -, hcheck⟩ := bind_eq_ok_iff.1 hp
  exact phrase.check_resolved h e hcheck

end Formula

/-! ## What calls raise -/

/-- The special forms among the built-in functions: those that the evaluator handles, and the reference. -/
theorem standard_special {f : FunctionSpec} (hf : f ∈ Registry.standard.specs) (hg : f.implementation = none) :
    f.key = branchKey ∨ f.key = rescueKey ∨ f.key = referenceKey := by
  have htable : ∀ f ∈ Registry.standard.specs, f.implementation.isNone = true →
      f.key = branchKey ∨ f.key = rescueKey ∨ f.key = referenceKey := by decide +kernel
  exact htable f hf (by rw [hg]; rfl)

/-- **A call that the standard registry takes raises nothing but a fault of the function**, and this is not that the
arguments are unsuited. -/
theorem Registry.Takes.raises {call : String × Nat} (h : Registry.standard.Takes call) {f : Failure}
    (hf : CallRaises Registry.standard call.1 call.2 f) : ∃ name e, f = .fault name e ∧ e ≠ .unsuited := by
  obtain ⟨hcall, spec, hfind, hkey, haccepts⟩ := h
  cases hf with
  | noFunction hnone =>
    rw [hfind] at hnone
    cases hnone
  | arity hsome hrejects =>
    cases hfind.symm.trans hsome
    rw [haccepts] at hrejects
    cases hrejects
  | notCallable hsome hg hbranch hrescue =>
    cases hfind.symm.trans hsome
    rw [← hkey] at hbranch hrescue hcall
    rcases standard_special (Registry.find?_eq_some_iff.1 hfind).1 hg with h | h | h
    · exact absurd h hbranch
    · exact absurd h hrescue
    · exact absurd h hcall
  | fault hsome hg ha hsuits he =>
    refine ⟨_, _, rfl, ?_⟩
    rintro rfl
    exact standard_honest _ (Registry.find?_eq_some_iff.1 hsome).1 _ _ hg ha hsuits he
  | tooFew hsome hname ha hcount => exact absurd (two_le_of_accepts hsome hname ha) (by omega)

end GameSheet
