import GameSheet.Proofs.Evaluation.Failing

/-!
# Rescues

`IFERROR(e, 0)` gives zero where `e` fails, unless `e` fails for a cycle, for the depth of a chain or for an internal
error: **`Engine.evaluate_rescued`**. The one other failure that stays is that the result of `e` is infinite. A rescue
looks for failures and for NaN (`fallsBack`), and an infinity is neither inside a formula: only the check of the result
refuses it, and no part of a formula fails as the result of a formula does (`failsWith_value`).
-/

namespace GameSheet

open Formula

/-! ## Falling back -/

/-- Whether a rescue falls back from an outcome. -/
def fallsBack : Except Failure CellValue → Bool
  | .error f => f.isMaskable
  | .ok (.number x) => x.isNaN
  | .ok _ => false

/-- What a rescue makes of the outcome of its first operand. -/
theorem rescue_apply {value other : Operand} {w after : Walk} {o : Except Failure CellValue}
    (h : value.value w = (o, after)) :
    rescue [value, other] w = if fallsBack o then other.value after else (o, after) := by
  cases o with
  | error f =>
    rw [rescue]
    cases hf : f.isMaskable with
    | true =>
      have hattempt : Eval.attempt value.value w = (.ok none, after) := by rw [Eval.attempt_error h, if_pos hf]
      rw [Eval.bind_ok hattempt, fallsBack, hf, if_pos rfl]
      rfl
    | false =>
      have hattempt : Eval.attempt value.value w = (.error f, after) := by rw [Eval.attempt_error h, hf]; rfl
      rw [Eval.bind_error hattempt, fallsBack, hf]
      rfl
  | ok v =>
    rw [rescue, Eval.bind_ok (Eval.attempt_ok h)]
    cases v with
    | number x =>
      cases hx : x.isNaN with
      | true =>
        simp only [fallsBack, hx, if_true]
        rfl
      | false =>
        simp only [fallsBack, hx, Bool.false_eq_true, if_false]
        rfl
    | _ => rfl

/-- The class of a failure tells that a rescue may mask it. -/
theorem Failure.isMaskable_of_code {f : Failure}
    (h : f.code ∉ ["cycle_error", "recursion_limit", "internal_error"]) : f.isMaskable = true := by
  cases f with
  | cycle path => exact absurd List.mem_cons_self h
  | depth limit => exact absurd (.tail _ List.mem_cons_self) h
  | fault function e =>
    cases e with
    | unsuited => exact absurd (.tail _ (.tail _ List.mem_cons_self)) h
    | _ => rfl
  | _ => rfl

/-- An outcome that does not pass the check makes a rescue fall back, unless it is an infinity. -/
theorem Engine.fallsBack_of_refused {engine : Engine} {o : Except Failure CellValue} {f : Failure}
    (hinner : ∀ f, o = .error f → f.isFinal = false) (h : (o >>= engine.checkResult) = .error f)
    (hf : f.isMaskable = true) :
    f ≠ .resultInfinite ∧ fallsBack o = true ∨ f = .resultInfinite ∧ fallsBack o = false := by
  cases o with
  | error f' =>
    cases h
    refine .inl ⟨?_, hf⟩
    rintro rfl
    cases hinner _ rfl
  | ok v =>
    have hcheck : engine.checkResult v = .error f := h
    cases v with
    | number x =>
      cases hnan : x.isNaN with
      | true =>
        simp only [checkResult, hnan, if_true, Except.error.injEq] at hcheck
        exact .inl ⟨by rw [← hcheck]; decide, hnan⟩
      | false =>
        simp only [checkResult, hnan, Bool.false_eq_true, if_false] at hcheck
        split at hcheck
        · exact .inr ⟨(Except.error.inj hcheck).symm, hnan⟩
        · cases hcheck
    | text s => cases hcheck
    | empty => cases hcheck

/-! ## The text of a rescue -/

/-- The formula that gives zero where the body fails. -/
def rescued (body : String) : String :=
  rescueKey ++ "(" ++ body ++ ", 0)"

/-- The tree of a zero. -/
def zeroTree : Derivation .start :=
  .ofAtom (.number ⟨⟨.number, ['0'], 0⟩, rfl⟩)

theorem zeroTree_phrase : zeroTree.phrase = .number 0.0 := rfl

theorem lexes_zero : Lexes ['0'] zeroTree.tokens :=
  .token (by decide) (by decide) .nil

/-- A rescue is parsed to a call with the body and zero. -/
theorem parse_rescued {registry : Registry} {spec : FunctionSpec} (hfind : registry.find? rescueKey = some spec)
    (haccepts : spec.accepts 2 = true) {body : String} {e : Expr} (h : parse registry body = .ok e) :
    ∃ e', parse registry (rescued body) = .ok e' ∧ e'.unplaced = .call rescueKey [e.unplaced, .number 0.0] 0 := by
  obtain ⟨d, hd, hcheck⟩ := exists_lexes_of_parse h
  have hlexes : Lexes (rescued body).toList (callOf rescueKey.toList d [zeroTree]).tokens := by
    have hstart : isNameStart 'I' = true := by decide
    have hname : "FERROR".toList.all isNameChar = true := by decide
    have hcall := lexes_call hstart (List.all_eq_true.1 hname) hd (.cons lexes_zero .nil)
    simpa [rescued, rescueKey, furtherText] using hcall
  have hphrase : (callOf rescueKey.toList d [zeroTree]).phrase.check registry =
      .ok (.call rescueKey [e.unplaced, .number 0.0] 0) := by
    have hupper : Text.upper rescueKey = rescueKey := by decide
    have hother : rescueKey ≠ referenceKey := by decide
    rw [callOf_phrase, Phrase.check, Phrase.checkAll, hcheck, List.map_singleton, zeroTree_phrase,
      String.ofList_toList]
    show checkCall registry rescueKey [e.unplaced, .number 0.0] 0 = _
    simp only [checkCall, hfind, List.length_cons, List.length_nil, haccepts, if_true, hupper, if_neg hother]
  exact unplacedResult_eq_ok_iff.1 ((parse_of_lexes hlexes).trans hphrase)

/-! ## Evaluation of a rescue -/

namespace Engine

variable {engine : Engine} {c : Context} {site : RowSite} {spec : FunctionSpec}

/-- The value of a rescue is what it makes of the outcome of its body. -/
theorem value_rescue (hfind : engine.registry.find? rescueKey = some spec) (haccepts : spec.accepts 2 = true)
    {scope : Scope} {e : Expr} {start after : Walk} {o : Except Failure CellValue}
    (hrun : scope.value engine.registry (some site) e start = (o, after)) :
    scope.value engine.registry (some site) (.call rescueKey [e, .number 0.0] 0) start =
      (if fallsBack o then .ok (.number 0.0) else o, after) := by
  have hbranch : rescueKey ≠ branchKey := by decide
  have hrescue : rescue [⟨e.isText, scope.value engine.registry (some site) e⟩, ⟨false, pure (.number 0.0)⟩] start = _ :=
    rescue_apply hrun
  show applyFunction engine.registry rescueKey
    [⟨e.isText, scope.value engine.registry (some site) e⟩, ⟨false, pure (.number 0.0)⟩] start = _
  simp only [applyFunction, hfind, List.length_cons, List.length_nil, haccepts, if_true, if_neg hbranch, hrescue]
  split <;> rfl

theorem checkResult_zero (engine : Engine) : engine.checkResult (.number 0.0) = .ok (.number 0.0) := by
  have hnan : (0.0 : Float).isNaN = false := by decide
  have hinf : (0.0 : Float).isInf = false := by decide
  simp only [checkResult, hnan, hinf, Bool.false_and, Bool.false_eq_true, if_false]

/-- The rescue of a formula is checked after it is made of the outcome of the formula. -/
theorem steps_rescued (hfind : engine.registry.find? rescueKey = some spec) (haccepts : spec.accepts 2 = true)
    (hsite : c.site = .ok site) (hcolumn : c.column = none) {body : String} {e : Expr}
    (hparse : parse engine.registry body = .ok e) {o : Except Failure CellValue} {after : Walk}
    (hrun : Scope.value ⟨c.workbook, engine.options⟩ engine.registry (some site) e (engine.start none) = (o, after)) :
    engine.steps (some c) (rescued body) (engine.start none) =
      ((if fallsBack o then .ok (.number 0.0) else o) >>= engine.checkResult, after) := by
  obtain ⟨e', hparse', he'⟩ := parse_rescued hfind haccepts hparse
  have htext : e'.isText = false := by
    rw [← e'.isText_unplaced, he']
    rfl
  have hrescue : Scope.value ⟨c.workbook, engine.options⟩ engine.registry (some site) e' (engine.start none) =
      (if fallsBack o then .ok (.number 0.0) else o, after) := by
    rw [← value_rescue hfind haccepts hrun]
    exact congrFun (Scope.value_of_unplaced he') _
  exact steps_of_parse hsite hcolumn hparse' htext hrescue

/-- A failure that may be masked is rescued unless it is that the result is infinite; then the rescue fails as well. -/
theorem evaluate_rescued_of_parse (hfind : engine.registry.find? rescueKey = some spec)
    (haccepts : spec.accepts 2 = true) (hsite : c.site = .ok site) (hcolumn : c.column = none) {body : String}
    {e : Expr} (hparse : parse engine.registry body = .ok e) (htext : e.isText = false) {f : Failure}
    (hfail : engine.evaluate (some c) body = .failed f) (hf : f.isMaskable = true) :
    (f ≠ .resultInfinite → ∃ warnings, engine.evaluate (some c) (rescued body) = .success (.number 0.0) warnings) ∧
      (f = .resultInfinite → engine.evaluate (some c) (rescued body) = .failed f) := by
  rcases hrun : Scope.value ⟨c.workbook, engine.options⟩ engine.registry (some site) e (engine.start none) with ⟨o, after⟩
  have hrefused : (o >>= engine.checkResult) = .error f := by
    rw [← steps_of_evaluate hfail, steps_of_parse hsite hcolumn hparse htext hrun]
  have hinner : ∀ f, o = .error f → f.isFinal = false := by
    have hvalue := failsWith_value ⟨c.workbook, engine.options⟩ engine.registry (some site) e _ (engine.start none) rfl rfl
    rw [hrun] at hvalue
    exact hvalue.2.2
  rw [evaluate_eq, steps_rescued hfind haccepts hsite hcolumn hparse hrun]
  rcases fallsBack_of_refused hinner hrefused hf with ⟨hother, hback⟩ | ⟨rfl, hback⟩
  · rw [hback, if_pos rfl]
    exact ⟨fun _ => ⟨after.warnings, congrArg (fun o => outcomeOf (o, after)) engine.checkResult_zero⟩,
      fun h => absurd h hother⟩
  · rw [hback, if_neg Bool.false_ne_true, hrefused]
    exact ⟨fun h => absurd rfl h, fun _ => rfl⟩

/-- **A rescue gives zero** where its body fails otherwise than for a cycle, for the depth of a chain or for an
internal error; but where the body fails because its result is infinite, the rescue fails as well. -/
theorem evaluate_rescued (options : Options) (hsite : c.site = .ok site) (hcolumn : c.column = none) {body : String}
    {e : Expr} (hparse : parse .standard body = .ok e) (htext : e.isText = false) {f : Failure}
    (hfail : Engine.evaluate ⟨.standard, options⟩ (some c) body = .failed f)
    (hcode : f.code ∉ ["cycle_error", "recursion_limit", "internal_error"]) :
    (f ≠ .resultInfinite →
      ∃ warnings, Engine.evaluate ⟨.standard, options⟩ (some c) (rescued body) = .success (.number 0.0) warnings) ∧
      (f = .resultInfinite → Engine.evaluate ⟨.standard, options⟩ (some c) (rescued body) = .failed f) := by
  have haccepts : (Registry.standard.find? rescueKey).map (fun spec => spec.accepts 2) = some true := by decide
  obtain ⟨spec, hfind, hspec⟩ := Option.map_eq_some_iff.1 haccepts
  exact evaluate_rescued_of_parse hfind hspec hsite hcolumn hparse htext hfail
    (Failure.isMaskable_of_code hcode)

end Engine

/-! ## Rescues on the ledger -/

section Ledger

/-- A text that is no number is rescued. -/
theorem evaluate_rescued_ledger :
    ∃ warnings, Engine.evaluate ⟨.standard, .standard⟩ (some (ledgerContext none)) (rescued "-Net") =
      .success (.number 0.0) warnings := by
  have hparse : parse .standard "-Net" = .ok (.negate (.ref (.column "Net" 1))) := by cbv
  have hfail : Engine.evaluate ⟨.standard, .standard⟩ (some (ledgerContext none)) "-Net" =
      .failed (.textValue .sign "five") := by cbv
  exact (Engine.evaluate_rescued .standard rfl rfl hparse rfl hfail (by decide)).1 (by decide)

/-- The quotient by zero is not rescued: it is an infinity, which fails only as a result. -/
theorem evaluate_rescued_quotient : ¬∀ (options : Options) (c : Context) (site : RowSite) (body : String) (e : Expr)
    (f : Failure), c.site = .ok site → c.column = none → parse .standard body = .ok e → e.isText = false →
      Engine.evaluate ⟨.standard, options⟩ (some c) body = .failed f →
        f.code ∉ ["cycle_error", "recursion_limit", "internal_error"] →
          ∃ warnings, Engine.evaluate ⟨.standard, options⟩ (some c) (rescued body) =
            .success (.number 0.0) warnings := by
  intro h
  have hparse : (parse .standard "1/0").map Expr.isText = .ok false := by decide +kernel
  obtain ⟨e, he, htext⟩ := map_eq_ok_iff.1 hparse
  have hfail : Engine.evaluate ⟨.standard, .standard⟩ (some (ledgerContext none)) "1/0" = .failed .resultInfinite := by
    decide +kernel
  have hrescue : Engine.evaluate ⟨.standard, .standard⟩ (some (ledgerContext none)) (rescued "1/0") =
      .failed .resultInfinite := by decide +kernel
  obtain ⟨warnings, hzero⟩ := h .standard (ledgerContext none) _ _ e _ rfl rfl he htext hfail (by decide)
  rw [hrescue] at hzero
  cases hzero

end Ledger

end GameSheet
