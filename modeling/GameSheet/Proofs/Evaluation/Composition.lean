import GameSheet.Evaluation.Value

/-!
# What evaluation is composed of

The value of an expression is composed of the values of its references by a few ways of going on: giving a value,
raising a failure, noting a warning, doing one step after another, and recovering from a failure. A property of steps
that all of them keep holds of an expression as soon as it holds of its references.

What an expression raises by itself is raised by an operand that is no number or no text (`Unfit`), or by one of its
calls (`CallRaises`). A property may be kept by all that any expression raises under a registry (`Raised`,
`Composable.eval`), or only by what the calls of the expression at hand raise (`Compositional.eval`).

Properties are stated of families of steps, so that several runs of one expression can be compared: the same
expression is read in each of them by a reading of its own, and the runs go on alike as long as they give the same
values.
-/

namespace GameSheet

open Formula

/-- The arguments are texts exactly at the positions where the function takes texts. -/
def FunctionSpec.Suits (f : FunctionSpec) (args : List Argument) : Prop :=
  ∀ i a, args[i]? = some a → ((∃ s, a = .text s) ↔ i ∈ f.textArgs)

/-- What an expression may raise apart from its references. -/
inductive Raised (registry : Registry) : Failure → Prop
  | literalText (role : Role) : Raised registry (.literalText role)
  | textValue (role : Role) (s : String) : Raised registry (.textValue role s)
  | emptyValue (role : Role) : Raised registry (.emptyValue role)
  | notText (role : Role) : Raised registry (.notText role)
  | noFunction {name : String} : registry.find? name = none → Raised registry (.noFunction name)
  | notCallable {key : String} {f : FunctionSpec} :
      registry.find? key = some f → f.implementation = none → Raised registry (.notCallable f.name)
  | arity {key : String} {f : FunctionSpec} {count : Nat} :
      registry.find? key = some f → f.accepts count = false → Raised registry (.arity f.name f.arityText count)
  | fault {key : String} {f : FunctionSpec} {g : Implementation} {args : List Argument} {e : Fault} :
      registry.find? key = some f → f.implementation = some g → f.accepts args.length = true → f.Suits args →
        g args = .error e → Raised registry (.fault f.name e)
  | tooFew {key : String} {f : FunctionSpec} {count : Nat} :
      registry.find? key = some f → key = branchKey ∨ key = rescueKey → f.accepts count = true → count < 2 →
        Raised registry (.fault key .unsuited)

/-- What an operand raises that is not what is needed. -/
inductive Unfit : Failure → Prop
  | literalText (role : Role) : Unfit (.literalText role)
  | textValue (role : Role) (s : String) : Unfit (.textValue role s)
  | emptyValue (role : Role) : Unfit (.emptyValue role)
  | notText (role : Role) : Unfit (.notText role)

/-- What a call of a function with so many arguments raises, apart from its operands. -/
inductive CallRaises (registry : Registry) (key : String) (count : Nat) : Failure → Prop
  | noFunction : registry.find? key = none → CallRaises registry key count (.noFunction key)
  | arity {f : FunctionSpec} : registry.find? key = some f → f.accepts count = false →
      CallRaises registry key count (.arity f.name f.arityText count)
  | notCallable {f : FunctionSpec} : registry.find? key = some f → f.implementation = none → key ≠ branchKey →
      key ≠ rescueKey → CallRaises registry key count (.notCallable f.name)
  | fault {f : FunctionSpec} {g : Implementation} {args : List Argument} {e : Fault} :
      registry.find? key = some f → f.implementation = some g → f.accepts args.length = true → f.Suits args →
        g args = .error e → CallRaises registry key count (.fault f.name e)
  | tooFew {f : FunctionSpec} : registry.find? key = some f → key = branchKey ∨ key = rescueKey →
      f.accepts count = true → count < 2 → CallRaises registry key count (.fault key .unsuited)

theorem Unfit.raised {registry : Registry} {f : Failure} (h : Unfit f) : Raised registry f := by
  cases h with
  | literalText role => exact .literalText role
  | textValue role s => exact .textValue role s
  | emptyValue role => exact .emptyValue role
  | notText role => exact .notText role

theorem CallRaises.raised {registry : Registry} {key : String} {count : Nat} {f : Failure}
    (h : CallRaises registry key count f) : Raised registry f := by
  cases h with
  | noFunction hf => exact .noFunction hf
  | arity hf ha => exact .arity hf ha
  | notCallable hf hg => exact .notCallable hf hg
  | fault hf hg ha hs he => exact .fault hf hg ha hs he
  | tooFew hf hkey ha hcount => exact .tooFew hf hkey ha hcount

namespace Formula

mutual

/-- The calls in the expression: the keys of functions and the numbers of arguments. -/
def Expr.calls : Expr → List (String × Nat)
  | .number _ => []
  | .text _ _ => []
  | .ref _ => []
  | .negate e => e.calls
  | .binary _ l r => l.calls ++ r.calls
  | .call key args _ => (key, args.length) :: Expr.callsOfAll args

/-- The calls in several expressions. -/
def Expr.callsOfAll : List Expr → List (String × Nat)
  | [] => []
  | e :: rest => e.calls ++ Expr.callsOfAll rest

end

end Formula

/-- A value that a step gives in some state. -/
def Eval.Returns {α : Type} (x : Eval α) (a : α) : Prop :=
  ∃ w after, x w = (.ok a, after)

/-- The step has one outcome in every state and changes nothing, but that it adds some warnings. -/
def Eval.Only {α : Type} (x : Eval α) (o : Except Failure α) (notes : List Warning) : Prop :=
  ∀ w, x w = (o, { w with warnings := w.warnings ++ notes })

/-- A property of families of steps that the ways of going on keep. -/
structure Composable (registry : Registry) {ι : Type} (P : (α : Type) → (ι → Eval α) → Prop) : Prop where
  value {α : Type} (a : α) : P α fun _ => pure a
  failure {α : Type} {f : Failure} : Raised registry f → P α fun _ => throw f
  warning (note : Warning) : P Unit fun _ => Eval.warn note
  sequence {α β : Type} {x : ι → Eval α} {k : ι → α → Eval β} :
    P α x → (∀ a, (∃ i, (x i).Returns a) → P β fun i => k i a) → P β fun i => x i >>= k i
  recovery {α : Type} {x : ι → Eval α} : P α x → P (Option α) fun i => Eval.attempt (x i)

/-- A property of families of steps that the ways of going on keep, but for what calls raise. -/
structure Compositional {ι : Type} (P : (α : Type) → (ι → Eval α) → Prop) : Prop where
  value {α : Type} (a : α) : P α fun _ => pure a
  unfit {α : Type} {f : Failure} : Unfit f → P α fun _ => throw f
  warning (note : Warning) : P Unit fun _ => Eval.warn note
  sequence {α β : Type} {x : ι → Eval α} {k : ι → α → Eval β} :
    P α x → (∀ a, (∃ i, (x i).Returns a) → P β fun i => k i a) → P β fun i => x i >>= k i
  recovery {α : Type} {x : ι → Eval α} : P α x → P (Option α) fun i => Eval.attempt (x i)

/-- An operand in every run of a family: a string literal in all of them or in none. -/
structure OperandFamily (ι : Type) where
  isLiteral : Bool
  value : ι → Eval CellValue

namespace OperandFamily

variable {ι : Type}

/-- The operand in one run. -/
def operand (o : OperandFamily ι) (i : ι) : Operand :=
  ⟨o.isLiteral, o.value i⟩

/-- The operands in one run. -/
def operands (os : List (OperandFamily ι)) (i : ι) : List Operand :=
  os.map fun o => o.operand i

@[simp] theorem operands_nil (i : ι) : operands [] i = [] := rfl

@[simp] theorem operands_cons (o : OperandFamily ι) (os : List (OperandFamily ι)) (i : ι) :
    operands (o :: os) i = o.operand i :: operands os i := rfl

@[simp] theorem length_operands (os : List (OperandFamily ι)) (i : ι) : (operands os i).length = os.length := by
  simp [operands]

end OperandFamily

/-! ## Steps with one outcome -/

section Only

variable {α : Type}

theorem Eval.only_ofExcept (o : Except Failure α) : (Eval.ofExcept o).Only o [] := fun w => by simp

theorem Eval.only_pure (a : α) : (pure a : Eval α).Only (.ok a) [] := fun w => by simp

theorem Eval.ofExcept_ok_bind {β : Type} (a : α) (k : α → Eval β) : (Eval.ofExcept (.ok a) >>= k) = k a := rfl

theorem Eval.only_throw (f : Failure) : (throw f : Eval α).Only (.error f) [] := fun w => by simp

theorem Eval.only_warn (note : Warning) : (Eval.warn note).Only (.ok ()) [note] := fun w => by simp

end Only

/-! ## Arguments -/

theorem Eval.Returns.of_bind {α β : Type} {x : Eval α} {k : α → Eval β} {b : β} (h : (x >>= k).Returns b) :
    ∃ a, x.Returns a ∧ (k a).Returns b := by
  obtain ⟨w, after, h⟩ := h
  rcases hx : x w with ⟨o, mid⟩
  cases o with
  | error f => rw [Eval.bind_error hx] at h; cases h
  | ok a =>
    rw [Eval.bind_ok hx] at h
    exact ⟨a, ⟨w, mid, hx⟩, ⟨mid, after, h⟩⟩

theorem Eval.Returns.of_pure {α : Type} {a b : α} (h : (pure a : Eval α).Returns b) : b = a := by
  obtain ⟨w, after, h⟩ := h
  cases h
  rfl

theorem Eval.Returns.of_throw {α : Type} {f : Failure} {b : α} (h : (throw f : Eval α).Returns b) : False := by
  obtain ⟨w, after, h⟩ := h
  cases h

theorem Eval.Returns.of_ofExcept {α : Type} {o : Except Failure α} {a : α} (h : (Eval.ofExcept o).Returns a) :
    o = .ok a := by
  obtain ⟨w, after, h⟩ := h
  rw [Eval.ofExcept_apply] at h
  exact congrArg Prod.fst h

/-- An argument is a text exactly where the function takes one. -/
theorem returns_argument {f : FunctionSpec} {position : Nat} {o : Operand} {a : Argument}
    (h : (o.argument f position).Returns a) : (∃ s, a = .text s) ↔ position ∈ f.textArgs := by
  obtain ⟨v, -, h⟩ := Eval.Returns.of_bind h
  by_cases hp : position ∈ f.textArgs
  · simp only [hp, if_true] at h
    cases v with
    | text s => simp [Eval.Returns.of_pure h, hp]
    | number x => exact (Eval.Returns.of_throw h).elim
    | empty => exact (Eval.Returns.of_throw h).elim
  · simp only [hp, if_false] at h
    obtain ⟨x, -, h⟩ := Eval.Returns.of_bind h
    simp [Eval.Returns.of_pure h, hp]

/-- There is one argument for each operand, a text exactly where the function takes one. -/
theorem returns_argumentsFrom {f : FunctionSpec} : ∀ {os : List Operand} {position : Nat} {args : List Argument},
    (argumentsFrom f position os).Returns args → args.length = os.length ∧
      ∀ i a, args[i]? = some a → ((∃ s, a = .text s) ↔ position + i ∈ f.textArgs)
  | [], position, args, h => by
    cases Eval.Returns.of_pure h
    simp
  | o :: os, position, args, h => by
    obtain ⟨a, ha, h⟩ := Eval.Returns.of_bind h
    obtain ⟨as, has, h⟩ := Eval.Returns.of_bind h
    cases Eval.Returns.of_pure h
    obtain ⟨hlen, hsort⟩ := returns_argumentsFrom has
    refine ⟨by simp [hlen], fun i b hb => ?_⟩
    cases i with
    | zero =>
      cases Option.some.inj hb
      exact returns_argument ha
    | succ i =>
      have := hsort i b (by simpa using hb)
      rwa [Nat.add_right_comm, Nat.add_assoc] at this

namespace Compositional

variable {registry : Registry} {ι : Type} {P : (α : Type) → (ι → Eval α) → Prop}

/-! ## Operands and operators -/

theorem toNumber (h : Compositional P) (role : Role) (v : CellValue) : P Float fun _ => v.toNumber role := by
  cases v with
  | number x => exact h.value x
  | empty => exact h.unfit (.emptyValue role)
  | text s =>
    cases hs : Decimal.numericText? s with
    | none => simpa only [CellValue.toNumber, hs] using h.unfit (.textValue role s)
    | some x => simpa only [CellValue.toNumber, hs] using h.sequence (h.warning (.textAsNumber s)) fun _ _ => h.value x

theorem number (h : Compositional P) (role : Role) {o : OperandFamily ι} (ho : P _ o.value) :
    P Float fun i => (o.operand i).number role := by
  cases hl : o.isLiteral with
  | true => simpa only [Operand.number, OperandFamily.operand, hl, if_true] using h.unfit (.literalText role)
  | false =>
    simpa only [Operand.number, OperandFamily.operand, hl, Bool.false_eq_true, if_false] using
      h.sequence ho fun v _ => h.toNumber role v

theorem negate (h : Compositional P) {o : OperandFamily ι} (ho : P _ o.value) :
    P CellValue fun i => (o.operand i).negate :=
  h.sequence (h.number .sign ho) fun _ _ => h.value _

/-- An operation between two operands. -/
theorem operator (h : Compositional P) (op : Operator) {l r : OperandFamily ι} (hl : P _ l.value)
    (hr : P _ r.value) : P CellValue fun i => op.apply (l.operand i) (r.operand i) := by
  cases he : op.isEquality with
  | true =>
    simp only [Operator.apply, he, if_true]
    refine h.sequence hl fun a _ => h.sequence hr fun b _ => ?_
    cases ht : comparedAsTexts a b with
    | true => simpa only [ht, if_true] using h.value _
    | false =>
      simpa only [ht, Bool.false_eq_true, if_false] using
        h.sequence (h.toNumber (.left op) a) fun x _ => h.sequence (h.toNumber (.right op) b) fun y _ => h.value _
  | false =>
    simp only [Operator.apply, he, Bool.false_eq_true, if_false]
    exact h.sequence (h.number (.left op) hl) fun x _ => h.sequence (h.number (.right op) hr) fun y _ => h.value _

/-! ## Functions -/

/-- The choice between two operands. -/
theorem branch (h : Compositional P) {f : FunctionSpec} (hf : registry.find? branchKey = some f) :
    ∀ {os : List (OperandFamily ι)}, f.accepts os.length = true → (∀ o ∈ os, P _ o.value) →
      (∀ e, CallRaises registry branchKey os.length e → P CellValue fun _ => throw e) →
        P CellValue fun i => chooseBranch (OperandFamily.operands os i)
  | [], ha, _, hraises => hraises _ (.tooFew hf (.inl rfl) ha Nat.two_pos)
  | condition :: branches, ha, hos, hraises => by
    refine h.sequence (h.number _ (hos condition (by simp))) fun x _ => ?_
    cases hx : x != 0.0 with
    | true =>
      match branches, ha, hos, hraises with
      | [], ha, _, hraises => exact hraises _ (.tooFew hf (.inl rfl) ha Nat.one_lt_two)
      | yes :: _, _, hos, _ => exact hos yes (by simp)
    | false =>
      match branches, hos with
      | [], _ => exact h.value _
      | [_], _ => exact h.value _
      | [_, no], hos => exact hos no (by simp)
      | _ :: _ :: _ :: _, _ => exact h.value _

/-- The recovery from a failure. -/
theorem rescue (h : Compositional P) {f : FunctionSpec} (hf : registry.find? rescueKey = some f) :
    ∀ {os : List (OperandFamily ι)}, f.accepts os.length = true → (∀ o ∈ os, P _ o.value) →
      (∀ e, CallRaises registry rescueKey os.length e → P CellValue fun _ => throw e) →
        P CellValue fun i => GameSheet.rescue (OperandFamily.operands os i)
  | [], ha, _, hraises => hraises _ (.tooFew hf (.inr rfl) ha Nat.two_pos)
  | value :: rest, ha, hos, hraises => by
    have fall : P CellValue fun i => fallback (OperandFamily.operands rest i) := by
      match rest, ha, hos, hraises with
      | [], ha, _, hraises => exact hraises _ (.tooFew hf (.inr rfl) ha Nat.one_lt_two)
      | o :: _, _, hos, _ => exact hos o (by simp)
    refine h.sequence (h.recovery (hos value (by simp))) fun v _ => ?_
    match v with
    | none => exact fall
    | some (.text s) => exact h.value _
    | some .empty => exact h.value _
    | some (.number x) =>
      cases hx : x.isNaN with
      | true =>
        simp only [hx, if_true]
        exact fall
      | false =>
        simp only [hx, Bool.false_eq_true, if_false]
        exact h.value _

theorem argument (h : Compositional P) (f : FunctionSpec) (position : Nat) {o : OperandFamily ι}
    (ho : P _ o.value) : P Argument fun i => (o.operand i).argument f position := by
  refine h.sequence ho fun v _ => ?_
  by_cases hp : position ∈ f.textArgs
  · simp only [hp, if_true]
    cases v with
    | text s => exact h.value _
    | number x => exact h.unfit (.notText _)
    | empty => exact h.unfit (.notText _)
  · simp only [hp, if_false]
    exact h.sequence (h.toNumber _ v) fun x _ => h.value _

theorem argumentsFrom (h : Compositional P) (f : FunctionSpec) :
    ∀ (os : List (OperandFamily ι)) (position : Nat), (∀ o ∈ os, P _ o.value) →
      P (List Argument) fun i => GameSheet.argumentsFrom f position (OperandFamily.operands os i)
  | [], _, _ => h.value _
  | o :: os, position, hos =>
    h.sequence (h.argument f position (hos o (by simp))) fun _ _ =>
      h.sequence (argumentsFrom h f os (position + 1) fun o ho => hos o (by simp [ho])) fun _ _ => h.value _

/-- The call of a function. -/
theorem call (h : Compositional P) (key : String) {os : List (OperandFamily ι)}
    (hos : ∀ o ∈ os, P _ o.value)
    (hraises : ∀ e, CallRaises registry key os.length e → P CellValue fun _ => throw e) :
    P CellValue fun i => applyFunction registry key (OperandFamily.operands os i) := by
  cases hf : registry.find? key with
  | none => simpa only [applyFunction, hf] using hraises _ (.noFunction hf)
  | some f =>
    cases ha : f.accepts os.length with
    | false =>
      simpa only [applyFunction, hf, OperandFamily.length_operands, ha, Bool.false_eq_true, if_false] using
        hraises _ (.arity hf ha)
    | true =>
      simp only [applyFunction, hf, OperandFamily.length_operands, ha, if_true]
      by_cases hb : key = branchKey
      · subst hb
        simpa only [if_true] using h.branch hf ha hos hraises
      by_cases hr : key = rescueKey
      · subst hr
        simpa only [hb, if_false, if_true] using h.rescue hf ha hos hraises
      simp only [hb, hr, if_false]
      cases hg : f.implementation with
      | none => exact hraises _ (.notCallable hf hg hb hr)
      | some g =>
        refine h.sequence (h.argumentsFrom f os 0 hos) fun args hargs => ?_
        obtain ⟨i, hargs⟩ := hargs
        obtain ⟨hlen, hsuits⟩ := returns_argumentsFrom hargs
        rw [OperandFamily.length_operands] at hlen
        simp only [Nat.zero_add] at hsuits
        cases he : g args with
        | ok x => exact h.value _
        | error e => exact hraises _ (.fault hf hg (hlen ▸ ha) hsuits he)

/-! ## Expressions -/

variable (read : ι → Reference → Eval CellValue)

/-- The expressions as operands, each run with its own reading of references. -/
def family (registry : Registry) (read : ι → Reference → Eval CellValue) (e : Expr) : OperandFamily ι :=
  ⟨e.isText, fun i => e.eval registry (read i)⟩

theorem operands_family (args : List Expr) (i : ι) :
    Expr.operands registry (read i) args = OperandFamily.operands (args.map (family registry read)) i := by
  induction args with
  | nil => rfl
  | cons e rest ih => simp only [Expr.operands, ih, List.map_cons, OperandFamily.operands_cons]; rfl

/-- What the calls in some expressions raise is kept. -/
def CallsKept (registry : Registry) (P : (α : Type) → (ι → Eval α) → Prop) (calls : List (String × Nat)) : Prop :=
  ∀ call ∈ calls, ∀ e, CallRaises registry call.1 call.2 e → P CellValue fun _ => throw e

theorem CallsKept.append {calls more : List (String × Nat)} (h : CallsKept registry P (calls ++ more)) :
    CallsKept registry P calls ∧ CallsKept registry P more :=
  List.forall_mem_append.1 h

mutual

/-- **What holds of the references of an expression, and of what its calls raise, holds of the expression.** -/
theorem eval (h : Compositional P) : ∀ (e : Expr), (∀ r ∈ e.references, P _ fun i => read i r) →
    CallsKept registry P e.calls → P CellValue fun i => e.eval registry (read i)
  | .number x, _, _ => h.value _
  | .text s _, _, _ => h.value _
  | .ref r, hr, _ => hr r (by simp [Expr.references])
  | .negate e, hr, hc => h.negate (o := family registry read e) (eval h e hr hc)
  | .binary op l r, hr, hc =>
    h.operator op (l := family registry read l) (r := family registry read r)
      (eval h l (fun r hm => hr r (by simp [Expr.references, hm])) hc.append.1)
      (eval h r (fun r hm => hr r (by simp [Expr.references, hm])) hc.append.2)
  | .call key args _, hr, hc => by
    obtain ⟨hcall, hargs⟩ := List.forall_mem_cons.1 hc
    simp only [Expr.eval, operands_family]
    refine h.call key (fun o ho => ?_) ?_
    · obtain ⟨e, he, rfl⟩ := List.mem_map.1 ho
      exact evalAll h args hr hargs e he
    · rwa [List.length_map]

/-- The same for each of several expressions. -/
theorem evalAll (h : Compositional P) : ∀ (args : List Expr),
    (∀ r ∈ Expr.referencesOfAll args, P _ fun i => read i r) → CallsKept registry P (Expr.callsOfAll args) →
      ∀ e ∈ args, P CellValue fun i => e.eval registry (read i)
  | [], _, _, _, he => absurd he List.not_mem_nil
  | e :: rest, hr, hc, e', he => by
    rcases List.mem_cons.1 he with heq | he
    · rw [heq]
      exact eval h e (fun r hm => hr r (by simp [Expr.referencesOfAll, hm])) hc.append.1
    · exact evalAll h rest (fun r hm => hr r (by simp [Expr.referencesOfAll, hm])) hc.append.2 e' he

end

end Compositional

namespace Composable

variable {registry : Registry} {ι : Type} {P : (α : Type) → (ι → Eval α) → Prop}

theorem compositional (h : Composable registry P) : Compositional P where
  value := h.value
  unfit hf := h.failure hf.raised
  warning := h.warning
  sequence := h.sequence
  recovery := h.recovery

/-- **What holds of the references of an expression holds of the expression**, if it holds of all that may be raised
under the registry. -/
theorem eval (read : ι → Reference → Eval CellValue) (h : Composable registry P) (e : Expr)
    (hr : ∀ r ∈ e.references, P _ fun i => read i r) : P CellValue fun i => e.eval registry (read i) :=
  h.compositional.eval read e hr fun _ _ _ hf => h.failure hf.raised

end Composable

/-! ## Cells -/

section Cells

variable {cell : CellSite} {body : String} {w : Walk}

/-- Keeping an outcome changes nothing but the memo. -/
theorem remember_apply (key : CellKey) (step : Eval CellValue) (w : Walk) :
    (Eval.remember key step w).1 = (step w).1 ∧ (Eval.remember key step w).2.warnings = (step w).2.warnings := by
  rcases hs : step w with ⟨o, after⟩
  cases o with
  | ok v =>
    rw [Eval.remember_ok hs]
    exact ⟨rfl, rfl⟩
  | error f =>
    rw [Eval.remember_error hs]
    cases f.isKept <;> exact ⟨rfl, rfl⟩

/-- Without a memo nothing is kept. -/
theorem remember_plain {key : CellKey} {step : Eval CellValue} (h : (step w).2.memo = none) :
    Eval.remember key step w = step w := by
  have hstore : ∀ (after : Walk) o, after.memo = none → after.store key o = after := by
    rintro ⟨guard, memo, warnings⟩ o ⟨⟩
    rfl
  rcases hs : step w with ⟨o, after⟩
  rw [hs] at h
  cases o with
  | ok v => rw [Eval.remember_ok hs, hstore after _ h]
  | error f => rw [Eval.remember_error hs, hstore after _ h, ite_self]

theorem Scope.cellValue_literal {raw : RawCell} (hs : cell.source = .literal raw) (evaluate : Evaluator) :
    Scope.cellValue evaluate cell = Eval.ofRaw raw := by
  simp only [Scope.cellValue, hs]

theorem Scope.cellValue_formula (hs : cell.source = .formula body) (evaluate : Evaluator) :
    Scope.cellValue evaluate cell = Scope.formulaValue evaluate cell body := by
  simp only [Scope.cellValue, hs]

theorem formulaValue_known {evaluate : Evaluator} {o : Except Failure CellValue} (h : w.known? cell.key = some o) :
    Scope.formulaValue evaluate cell body w = (o, w) := by
  have hget : Eval.known? cell.key w = (.ok (some o), w) := by rw [← h]; rfl
  unfold Scope.formulaValue
  rw [Eval.bind_ok hget]
  exact Eval.ofExcept_apply o w

theorem formulaValue_fresh {evaluate : Evaluator} (h : w.known? cell.key = none) :
    Scope.formulaValue evaluate cell body w =
      Eval.remember cell.key (Eval.within ⟨cell.key, cell.label⟩ (evaluate body cell.site)) w := by
  have hget : Eval.known? cell.key w = (.ok none, w) := by rw [← h]; rfl
  unfold Scope.formulaValue
  rw [Eval.bind_ok hget]

end Cells

/-! ## Readings that agree -/

theorem Eval.bind_congr {α β : Type} {x : Eval α} {k l : α → Eval β} (h : ∀ a, x.Returns a → k a = l a) :
    (x >>= k) = x >>= l := by
  funext w
  rcases hx : x w with ⟨o, after⟩
  cases o with
  | error f => rw [Eval.bind_error hx, Eval.bind_error hx]
  | ok a => rw [Eval.bind_ok hx, Eval.bind_ok hx, h a ⟨w, after, hx⟩]

/-- Cells with the same key, label and source have the same value if their bodies do. -/
theorem Scope.cellValue_eq {evaluate evaluate' : Evaluator} {c c' : CellSite} (hkey : c.key = c'.key)
    (hlabel : c.label = c'.label) (hsource : c.source = c'.source)
    (hbody : ∀ body, c.source = .formula body → evaluate body c.site = evaluate' body c'.site) :
    Scope.cellValue evaluate c = Scope.cellValue evaluate' c' := by
  unfold Scope.cellValue
  rw [← hsource]
  cases hb : c.source with
  | literal raw => rfl
  | formula body => simp only [Scope.formulaValue, ← hkey, ← hlabel, hbody body hb]

/-- Being the same in all runs is kept. -/
theorem composable_const (registry : Registry) (ι : Type) :
    Composable registry fun (α : Type) (x : ι → Eval α) => ∀ i j, x i = x j where
  value _ _ _ := rfl
  failure _ _ _ := rfl
  warning _ _ _ := rfl
  sequence hx hk i j := by
    dsimp only
    rw [hx i j]
    exact Eval.bind_congr fun a ha => hk a ⟨j, ha⟩ i j
  recovery hx i j := congrArg Eval.attempt (hx i j)

/-- An expression has one value under readings that agree on its references. -/
theorem eval_congr {registry : Registry} {e : Expr} {read read' : Reference → Eval CellValue}
    (h : ∀ r ∈ e.references, read r = read' r) : e.eval registry read = e.eval registry read' :=
  (composable_const registry Bool).eval (fun b => cond b read read') e
    (fun r hr i j => by cases i <;> cases j <;> simp [h r hr]) true false

end GameSheet
