import GameSheet.Proofs.Evaluation.Callees
import GameSheet.Proofs.Evaluation.Confined
import GameSheet.Proofs.Recalculation.Depth

/-!
# Where evaluations end

An evaluation with the built-in functions ends in a value that may be a result, or in a failure of the formula or of
its workbook (`Failure.isRegular`): **`Engine.evaluateWith_terminal`**. The failures that would be faults of the
evaluation itself do not occur: no call names an unknown function or has a number of arguments that is not taken, since
every expression that is evaluated was parsed (`Expr.Resolved`), no function finds its arguments unsuited, and no
integer is too large if those of the workbook are not.

The failures that a memo knows count as well, as they are told to whoever reads the cell. A memo that earlier calls on
the workbook have left knows regular failures only (`EarlierMemo.regular`).
-/

namespace GameSheet

open Formula

/-! ## Regular failures -/

namespace Failure

/-- The classes of failures in which an evaluation may end. -/
def regularCodes : List String :=
  ["lex_error", "parse_error", "reference_error", "type_error", "math_error", "cycle_error", "recursion_limit"]

/-- Whether the failure is one of the formula or of its workbook, and not of the evaluation itself. -/
def isRegular : Failure → Bool
  | fault _ .unsuited | arity _ _ _ | noFunction _ | notCallable _ | overflow _ => false
  | _ => true

/-- The regular failures are those of the regular classes. -/
theorem code_mem_regularCodes_iff {f : Failure} : f.code ∈ regularCodes ↔ f.isRegular = true := by
  cases f with
  | parse e => cases e <;> simp [code, regularCodes, isRegular]
  | fault function f => cases f <;> simp [code, regularCodes, isRegular]
  | _ => simp [code, regularCodes, isRegular]

theorem isRegular_of_unfit {f : Failure} (h : Unfit f) : f.isRegular = true := by
  cases h <;> rfl

theorem isRegular_of_raises {call : String × Nat} (h : Registry.standard.Takes call) {f : Failure}
    (hf : CallRaises Registry.standard call.1 call.2 f) : f.isRegular = true := by
  obtain ⟨name, e, rfl, he⟩ := h.raises hf
  cases e with
  | unsuited => exact absurd rfl he
  | _ => rfl

theorem isRegular_of_enter {g : Guard} {v : Visit} {f : Failure} (h : g.enter v = .error f) : f.isRegular = true := by
  obtain ⟨-, rfl⟩ | rfl := Guard.enter_error h <;> rfl

end Failure

theorem Workbook.IntegersFit.isRegular {w : Workbook} (h : w.IntegersFit) {α : Type} {x : Except Failure α}
    (hx : Searches w x) {f : Failure} (hf : x = .error f) : f.isRegular = true := by
  obtain ⟨m, rfl⟩ := h.missing hx hf
  rfl

/-- The memo, if there is one, knows regular failures only. -/
def RegularMemo (memo : Option Memo) : Prop :=
  ∀ (known : Memo) (key : CellKey) (f : Failure), memo = some known → known[key]? = some (.error f) →
    f.isRegular = true

theorem remembers_regular : Remembers RegularMemo fun f => f.isRegular = true :=
  remembers_knowsOnly _

/-! ## Outcomes -/

/-- The value may be a result: a number is not NaN, and infinite only if the options allow it. -/
def CellValue.MayResult (options : Options) : CellValue → Prop
  | .number x => x.isNaN = false ∧ (x.isInf = true → options.allowInfinity = true)
  | .text _ => True
  | .empty => True

namespace Outcome

/-- The outcome is a value that may be a result, with no error and no code. -/
structure EndsInValue (options : Options) (o : Outcome) : Prop where
  value : ∃ v, o.value? = some v ∧ v.MayResult options
  message : o.message? = none
  code : o.code? = none

/-- The outcome is an error of a regular class, with no value and no warnings. -/
structure EndsInFailure (o : Outcome) : Prop where
  value : o.value? = none
  message : ∃ text, o.message? = some text
  code : ∃ code ∈ Failure.regularCodes, o.code? = some code
  warnings : o.warnings = []

end Outcome

namespace Engine

variable {options : Options} {w : Workbook} {context : Option Context} {formula : String}

theorem mayResult_of_checkResult {engine : Engine} {v v' : CellValue} (h : engine.checkResult v = .ok v') :
    v'.MayResult engine.options := by
  unfold checkResult at h
  split at h
  · next x =>
    split at h
    · cases h
    · next hnan =>
      split at h
      · cases h
      · next hinfinite =>
        cases h
        exact ⟨by simpa using hnan, fun hx => by simpa [hx] using hinfinite⟩
  · next hnumber =>
    cases h
    cases v with
    | number x => exact absurd rfl (hnumber x)
    | text s => trivial
    | empty => trivial

/-- A value in which an evaluation ends has been checked. -/
theorem mayResult_of_steps {engine : Engine} {v : CellValue} (h : (engine.steps context formula).Returns v) :
    v.MayResult engine.options := by
  obtain ⟨site, -, h⟩ := h.of_bind
  obtain ⟨e, -, h⟩ := h.of_bind
  obtain ⟨unchecked, -, h⟩ := h.of_bind
  exact mayResult_of_checkResult h.of_ofExcept

/-! ## Regular runs -/

/-- Under the standard registry all failures in an expression are regular if its calls are resolved. -/
theorem invariant_regular (scope : Scope) (hfit : scope.workbook.IntegersFit) :
    Invariant scope Registry.standard (fun f => f.isRegular = true) fun _ site e =>
      (∀ s, site = some s → s.sheet ∈ scope.workbook.sheets) ∧ e.Resolved Registry.standard where
  unfit _ hf := Failure.isRegular_of_unfit hf
  calls h call hcall _ hf := Failure.isRegular_of_raises (h.2 call hcall) hf
  missing _ _ hf := hfit.isRegular Scope.searches_target hf
  literal h _ ht hs hv := by
    obtain ⟨v, hok⟩ := hfit.value (Scope.contains_of_target h.1 ht) hs
    rw [hok] at hv
    cases hv
  refused _ _ _ _ he := Failure.isRegular_of_enter he
  malformed _ _ _ _ _ := rfl
  inside h _ ht _ _ hp := by
    refine ⟨fun s hs => ?_, parse_resolved Registry.standard_upperKeys hp⟩
    cases hs
    exact (Scope.contains_of_target h.1 ht).1

theorem outer_regular (hfit : w.IntegersFit) : Outer w fun f => f.isRegular = true where
  search hx hf := hfit.isRegular hx hf
  refused h := Failure.isRegular_of_enter h
  bareText := rfl
  resultNaN := rfl
  resultInfinite := rfl

/-- **All failures of an evaluation are regular**, if those that its memo knows are. -/
theorem confined_regular (options : Options) (hfit : w.IntegersFit) (hcontext : ∀ c ∈ context, c.workbook = w)
    (formula : String) :
    Confined RegularMemo (fun f => f.isRegular = true) ⟨options.maxDepth, []⟩
      ((standard options).steps context formula) := by
  have hplace : (context.elim Workbook.empty Context.workbook).IntegersFit := by
    cases context with
    | none => exact fun _ hc => absurd hc.1 List.not_mem_nil
    | some c =>
      obtain rfl := hcontext c rfl
      exact hfit
  show Confined RegularMemo _ ⟨(standard options).options.maxDepth, []⟩ _
  exact confined_steps rfl (invariant_regular ⟨_, options⟩ hplace) remembers_regular (outer_regular hplace)
    (fun _ _ => rfl) fun site e hsite hparse _ => ⟨hsite, parse_resolved Registry.standard_upperKeys hparse⟩

/-! ## Memos of earlier calls -/

/-- No memo, or one that calls on the workbook have left: calls of any formulas in any contexts of the workbook, or in
none, under whatever options each of them was made. -/
inductive EarlierMemo (w : Workbook) : Option Memo → Prop
  | none : EarlierMemo w none
  | empty : EarlierMemo w (some ∅)
  | call {memo : Option Memo} (options : Options) {context : Option Context} (formula : String) :
      EarlierMemo w memo → (∀ c ∈ context, c.workbook = w) →
        EarlierMemo w ((standard options).evaluateWith memo context formula).2

/-- What earlier calls have left knows regular failures only. -/
theorem EarlierMemo.regular (hfit : w.IntegersFit) {memo : Option Memo} (h : EarlierMemo w memo) :
    RegularMemo memo := by
  induction h with
  | none => exact knowsOnly_none _
  | empty => exact knowsOnly_empty _
  | @call memo options context formula _ hcontext ih =>
    rw [evaluateWith_eq]
    exact (confined_regular options hfit hcontext formula ((standard options).start memo) rfl ih).2.1

/-- **An evaluation ends in a value or in a regular failure**: with the built-in functions, for every formula, every
workbook whose integers are numbers, every context or none, all options, and any memo that earlier calls on the workbook
have left. -/
theorem evaluateWith_terminal (options : Options) {w : Workbook} (hfit : w.IntegersFit) {memo : Option Memo}
    (hmemo : EarlierMemo w memo) {context : Option Context} (hcontext : ∀ c ∈ context, c.workbook = w)
    (formula : String) :
    (((standard options).evaluateWith memo context formula).1.EndsInValue options ∨
      ((standard options).evaluateWith memo context formula).1.EndsInFailure) ∧
    ∀ code ∈ ["argument_error", "formula_error", "internal_error"],
      ((standard options).evaluateWith memo context formula).1.code? ≠ some code := by
  rw [evaluateWith_eq]
  obtain ⟨-, -, hfails⟩ :=
    confined_regular options hfit hcontext formula ((standard options).start memo) rfl (hmemo.regular hfit)
  rcases hrun : (standard options).steps context formula ((standard options).start memo) with ⟨o, after⟩
  cases o with
  | ok v => exact ⟨.inl ⟨⟨v, rfl, mayResult_of_steps ⟨_, _, hrun⟩⟩, rfl, rfl⟩, fun _ _ h => nomatch h⟩
  | error f =>
    have hcode : f.code ∈ Failure.regularCodes := Failure.code_mem_regularCodes_iff.2 (hfails f (by rw [hrun]))
    refine ⟨.inr ⟨rfl, ⟨f.message, rfl⟩, ⟨f.code, hcode, rfl⟩, rfl⟩, fun code hmem heq => ?_⟩
    obtain rfl : f.code = code := Option.some.inj heq
    have hdisjoint : ∀ code ∈ ["argument_error", "formula_error", "internal_error"], code ∉ Failure.regularCodes := by
      decide
    exact hdisjoint _ hmem hcode

end Engine

/-- A formula at the row of the ledger, with the memo that an earlier call there has left. -/
theorem evaluateWith_terminal_ledger :
    ∃ memo, memo = ((Engine.standard {}).evaluateWith (some ∅) (some (ledgerContext none)) "Total").2 ∧
      (ledger "paid").IntegersFit ∧ Engine.EarlierMemo (ledger "paid") memo ∧
        (((Engine.standard {}).evaluateWith memo (some (ledgerContext none)) "Gross + 1").1.EndsInValue {} ∨
          ((Engine.standard {}).evaluateWith memo (some (ledgerContext none)) "Gross + 1").1.EndsInFailure) := by
  have hcontext : ∀ c ∈ some (ledgerContext none), c.workbook = ledger "paid" := fun c hc => by
    cases hc
    rfl
  have hmemo : Engine.EarlierMemo (ledger "paid")
      ((Engine.standard {}).evaluateWith (some ∅) (some (ledgerContext none)) "Total").2 :=
    .call {} "Total" .empty hcontext
  exact ⟨_, rfl, ledger_integersFit "paid", hmemo,
    (Engine.evaluateWith_terminal {} (ledger_integersFit "paid") hmemo hcontext "Gross + 1").1⟩

end GameSheet
