import GameSheet.CommandLine.Run
import GameSheet.Proofs.Data.Characters
import GameSheet.Proofs.Data.Json
import GameSheet.Proofs.Evaluation.Terminal
import GameSheet.Proofs.Options.Heeded

/-!
# Results printed as JSON

What the command `eval` prints with `--json` is a JSON object in the sense of RFC 8259 that tells the outcome, unless
the result is infinite (**`CommandLine.runEval_json`**). It is infinite only where the options allow infinities; then
the word for it is no JSON (`Outcome.not_isJson_infinite`). The text has no sequences that style it, so nothing of it
is left out when it is printed (`Data.JsonText.withoutStyling`).

Nothing of this depends on the formats of the files that the options and the workbook come from, nor on how the words of
a command line are taken apart.
-/

namespace GameSheet

open Data

/-! ## Texts without styling -/

theorem Text.dropStyling_of_notMem {cs : List Char} (h : Text.escapeChar ∉ cs) (kept : List Char) :
    Text.dropStyling kept [] .outside cs = cs.reverse ++ kept := by
  induction cs generalizing kept with
  | nil => rfl
  | cons c cs ih =>
    rw [List.mem_cons, not_or] at h
    have hstep : Text.StyleState.outside.step c = .outside := by rw [Text.StyleState.step, if_neg (Ne.symm h.1)]
    rw [Text.dropStyling, hstep]
    dsimp only
    rw [if_neg (by simp), ih h.2, List.reverse_cons, List.append_assoc, List.singleton_append]

/-- Nothing is left out of a JSON text. -/
theorem Data.JsonText.withoutStyling {extended : Bool} {standIn : Nat → Char} {p : Part} {s : String}
    (h : JsonText extended standIn p s.toList) : Text.withoutStyling s = s := by
  have hescape : Text.escapeChar ∉ s.toList := fun hmem => by
    rcases h.orderly.characters _ hmem with hlow | hblank
    · exact absurd hlow (by decide)
    · exact absurd hblank (by decide)
  rw [Text.withoutStyling, Text.dropStyling_of_notMem hescape, List.append_nil, List.reverse_reverse,
    String.ofList_toList]

/-! ## Outcomes as data -/

namespace Outcome

/-- Whether the outcome is an infinite number. -/
def isInfinite : Outcome → Bool
  | success (.number x) _ => x.isInf
  | _ => false

/-- The data tells the result: the finite number or the text that was computed, and null if the result is empty or there
is none. -/
def ToldBy (o : Outcome) (d : Data) : Prop :=
  match o with
  | success (.number x) _ => x.isFinite = true ∧ d = .float x
  | success (.text s) _ => d = .text s
  | success .empty _ => d = .null
  | failed _ => d = .null

/-- The text is a JSON object in the sense of RFC 8259 that tells the outcome, and is read back so. -/
structure InJson (o : Outcome) (cs : List Char) : Prop where
  isJson : IsJson cs o.toData
  readBack : Data.ofJson? cs = some o.toData
  keys : ∃ entries, o.toData = .mapping entries ∧ entries.map Prod.fst = ["value", "error", "error_code", "warnings"]
  value : ∃ d, o.toData.get? "value" = some d ∧ o.ToldBy d

/-- What is printed of the outcome as JSON is a JSON object exactly if the outcome is not infinite, which it is only
where the options allow it, and tells the outcome then. -/
structure PrintedAsJson (options : Options) (o : Outcome) (cs : List Char) : Prop where
  isJson_iff : (∃ entries, IsJson cs (.mapping entries)) ↔ o.isInfinite = false
  inJson : o.isInfinite = false → o.InJson cs
  allowed : o.isInfinite = true → options.allowInfinity = true

variable {o : Outcome}

theorem exact_textOrNull (s : Option String) : (Event.textOrNull s).Exact := by
  cases s with
  | none => exact .null
  | some s => exact .text s

theorem exact_warnings (o : Outcome) : (Data.list (o.warnings.map fun w => .text w.message)).Exact := by
  refine .list fun d hd => ?_
  obtain ⟨w, -, rfl⟩ := List.mem_map.1 hd
  exact .text _

theorem keyed_toData (o : Outcome) : o.toData.Keyed := by
  have hvalue : o.valueData.Keyed := by
    unfold valueData
    split
    · exact .float _
    · exact .text _
    · exact .null
  refine .mapping (by simp) ?_
  simp only [List.forall_mem_cons]
  exact ⟨hvalue, (exact_textOrNull _).keyed, (exact_textOrNull _).keyed, o.exact_warnings.keyed, List.forall_mem_nil _⟩

theorem finite_toData (h : o.valueData.Finite) : o.toData.Finite := by
  refine .mapping ?_
  simp only [List.forall_mem_cons]
  exact ⟨h, .of_exact (exact_textOrNull _), .of_exact (exact_textOrNull _), .of_exact o.exact_warnings,
    List.forall_mem_nil _⟩

/-- The value of an outcome tells it, if a number is finite. -/
theorem toldBy_valueData (h : o.valueData.Finite) : o.ToldBy o.valueData := by
  cases o with
  | failed f => rfl
  | success v ws =>
    cases v with
    | number x => exact ⟨h.of_float, rfl⟩
    | text s => rfl
    | empty => rfl

/-- **An outcome with a finite number, or with none, is written as JSON.** -/
theorem inJson_jsonLines (h : o.valueData.Finite) : o.InJson (o.toData.jsonLines.toList ++ ['\n']) := by
  have hline : Blank ['\n'] := List.forall_mem_singleton.2 (by decide)
  have hjson := isJson_jsonLines o.keyed_toData (finite_toData h) hline
  exact ⟨hjson, hjson.ofJson?, ⟨_, rfl, rfl⟩, _, rfl, toldBy_valueData h⟩

/-- **An infinite result is written as no JSON.** -/
theorem not_isJson_infinite (h : o.isInfinite = true) (after : List Char) (d : Data) :
    ¬IsJson (o.toData.jsonLines.toList ++ after) d := by
  obtain ⟨x, ws, rfl, hx⟩ : ∃ x ws, o = success (.number x) ws ∧ x.isFinite = false := by
    unfold isInfinite at h
    split at h
    · next x ws => exact ⟨x, ws, rfl, by rw [Decimal.isFinite_eq, h, Bool.not_true, Bool.and_false]⟩
    · cases h
  obtain ⟨negative, c, word, hword, hupper, hc⟩ := exists_capital hx
  obtain ⟨tail, htext⟩ := toList_jsonLines_mapping "value" (.float x) _
  have hvalue : ((Data.float x).jsonLinesAt 1).toList = minus negative ++ c :: word := hword
  obtain ⟨front, hfront⟩ : ∃ front, front =
      '\x7b' :: ((lineBreak 1).toList ++ ((jsonString "value" ++ ": ").toList ++ minus negative)) := ⟨_, rfl⟩
  have hclosed : front.foldl Place.next .outside = .outside := by
    rw [hfront]
    cases negative <;> decide
  have hsplit : (success (.number x) ws).toData.jsonLines.toList ++ after = front ++ c :: (word ++ tail ++ after) := by
    rw [toData, valueData, htext, hvalue, hfront]
    simp only [List.append_assoc, List.cons_append]
  rw [hsplit]
  exact not_isJson_of_capital hclosed hupper hc d

end Outcome

namespace Engine

variable {engine : Engine} {context : Option Context} {formula : String}

/-- A value that comes of a formula has been checked. -/
theorem mayResult_of_evaluate {v : CellValue} {ws : List Warning}
    (h : engine.evaluate context formula = .success v ws) : v.MayResult engine.options := by
  rw [evaluate_eq] at h
  rcases hrun : engine.steps context formula (engine.start none) with ⟨o, after⟩
  rw [hrun] at h
  cases o with
  | ok v' =>
    cases h
    exact mayResult_of_steps ⟨_, _, hrun⟩
  | error f => cases h

/-- A number that comes of a formula is finite, unless it is infinite and the options allow infinities. -/
theorem finite_or_infinite (engine : Engine) (context : Option Context) (formula : String) :
    ((engine.evaluate context formula).isInfinite = false → (engine.evaluate context formula).valueData.Finite) ∧
      ((engine.evaluate context formula).isInfinite = true → engine.options.allowInfinity = true) := by
  cases hevaluate : engine.evaluate context formula with
  | failed f => exact ⟨fun _ => .null, nofun⟩
  | success v ws =>
    have hresult := mayResult_of_evaluate hevaluate
    cases v with
    | text s => exact ⟨fun _ => .text s, nofun⟩
    | empty => exact ⟨fun _ => .null, nofun⟩
    | number x =>
      refine ⟨fun hinfinite => .float ?_, hresult.2⟩
      have hinf : x.isInf = false := hinfinite
      rw [Decimal.isFinite_eq, hresult.1, hinf]
      rfl

end Engine

/-! ## The command -/

namespace CommandLine

theorem toList_printOutcome (o : Outcome) : (printOutcome true o).out.toList = o.toData.jsonLines.toList ++ ['\n'] :=
  String.toList_append

/-- An outcome is printed as it is written. -/
theorem withoutStyling_printOutcome (o : Outcome) :
    Text.withoutStyling (printOutcome true o).out = (printOutcome true o).out := by
  have hline : Blank ['\n'] := List.forall_mem_singleton.2 (by decide)
  have hjson : JsonText true replacement (.element o.toData.reread) (printOutcome true o).out.toList := by
    rw [toList_printOutcome]
    refine jsonText_jsonLines o.keyed_toData (fun hextended => ?_) hline
    cases hextended
  exact hjson.withoutStyling

/-- The outcome of a formula is told by the JSON text that is printed of it, unless it is infinite. -/
theorem printedAsJson (engine : Engine) (context : Option Context) (formula : String) :
    (engine.evaluate context formula).PrintedAsJson engine.options
      (printOutcome true (engine.evaluate context formula)).out.toList := by
  obtain ⟨hfinite, hallowed⟩ := engine.finite_or_infinite context formula
  generalize engine.evaluate context formula = o at hfinite hallowed ⊢
  rw [toList_printOutcome]
  have hwritten : o.isInfinite = false → o.InJson (o.toData.jsonLines.toList ++ ['\n']) := fun h =>
    Outcome.inJson_jsonLines (hfinite h)
  refine ⟨⟨?_, fun h => ?_⟩, hwritten, hallowed⟩
  · rintro ⟨entries, hentries⟩
    by_contra hinfinite
    rw [Bool.not_eq_false] at hinfinite
    exact Outcome.not_isJson_infinite hinfinite _ _ hentries
  · obtain ⟨entries, hentries, -⟩ := (hwritten h).keys
    exact ⟨entries, hentries ▸ (hwritten h).isJson⟩

/-- **What is printed of a formula with the option for JSON** is a JSON object in the sense of RFC 8259 that tells the
result, for every formula, in every workbook, sheet and row and under all options, exactly if the result is not
infinite. The command prints this text for every request for it, if the options and the context that are asked for can
be had. -/
theorem runEval_json {r : EvalRequest} (hjson : r.json = true) :
    (∀ (engine : Engine) (context : Option Context),
      (engine.evaluate context r.formula).PrintedAsJson engine.options
        (printOutcome r.json (engine.evaluate context r.formula)).out.toList) ∧
      ∀ (files : Files) (options : Options) (context : Option Context), loadOptions files r.config = .ok options →
        requestedContext files r = .ok context → ∃ p, runEval files r = .ok p ∧ p.plain.out = p.out ∧
          p.out = (printOutcome r.json ((Engine.standard options).evaluate context r.formula)).out := by
  rw [hjson]
  refine ⟨fun engine context => printedAsJson engine context r.formula,
    fun files options context hoptions hcontext => ?_⟩
  have hrun : runEval files r = .ok { printOutcome true ((Engine.standard options).evaluate context r.formula) with
      journal := journalOf options (((Engine.standard options).evaluate context r.formula).report context
        r.formula).toList } := by
    rw [runEval, hoptions, hcontext, hjson]
    rfl
  exact ⟨_, hrun, withoutStyling_printOutcome _, rfl⟩

/-! ## Under options that allow infinities -/

/-- A file of options that allow infinities. -/
def boundless : Files :=
  writtenOptions "allow_infinity: true\n" [("allow_infinity", .bool true)]

/-- The request for a formula under these options, as JSON. -/
def boundlessRequest (formula : String) : EvalRequest where
  formula := formula
  workbook := none
  sheet := none
  row := none
  config := some optionsFileName
  json := true

/-- The text that is printed for a value. -/
def printedValue (value : String) : String :=
  "\x7b\n  \"value\": " ++ value ++ ",\n  \"error\": null,\n  \"error_code\": null,\n  \"warnings\": []\n\x7d\n"

theorem loadOptions_boundless :
    loadOptions boundless (some optionsFileName) = .ok { allowInfinity := true } := by
  rw [loadOptions, boundless, Options.load_eq (text?_writtenOptions _ _) (document_writtenOptions _ _)]
  rfl

/-- A quotient that is rounded to a float is told. -/
theorem runEval_json_third :
    (Outcome.PrintedAsJson { allowInfinity := true } ((Engine.standard { allowInfinity := true }).evaluate none "1/3")
      (printedValue "0.3333333333333333").toList) ∧
      ∃ p, runEval boundless (boundlessRequest "1/3") = .ok p ∧ p.plain.out = printedValue "0.3333333333333333" := by
  obtain ⟨hprinted, hrun⟩ := @runEval_json (boundlessRequest "1/3") rfl
  have htext : (printOutcome true ((Engine.standard { allowInfinity := true }).evaluate none "1/3")).out =
      printedValue "0.3333333333333333" := by decide +kernel
  obtain ⟨p, hp, hplain, hout⟩ := hrun boundless _ none loadOptions_boundless rfl
  exact ⟨htext ▸ hprinted (.standard { allowInfinity := true }) none, p, hp, hplain.trans (hout.trans htext)⟩

/-- A quotient by zero is infinite, and what is printed of it is no JSON. -/
theorem not_isJson_quotient : ¬∀ (files : Files) (r : EvalRequest) (p : Printed),
    r.json = true → runEval files r = .ok p → ∃ entries, IsJson p.plain.out.toList (.mapping entries) := by
  intro h
  obtain ⟨p, hp, hout⟩ : ∃ p, runEval boundless (boundlessRequest "1/0") = .ok p ∧
      p.plain.out = printedValue "Infinity" := by
    have hrun : (runEval boundless (boundlessRequest "1/0")).toOption.map (·.plain.out) =
        some (printedValue "Infinity") := by decide +kernel
    cases hp : runEval boundless (boundlessRequest "1/0") with
    | error stop =>
      rw [hp] at hrun
      cases hrun
    | ok p =>
      rw [hp] at hrun
      exact ⟨p, rfl, Option.some.inj hrun⟩
  obtain ⟨entries, hentries⟩ := h _ _ p rfl hp
  have hsplit : (printedValue "Infinity").toList =
      "\x7b\n  \"value\": ".toList ++ 'I' :: ("nfinity,\n  \"error\": null,\n  \"error_code\": null,\n  " ++
        "\"warnings\": []\n\x7d\n").toList := by decide +kernel
  rw [hout, hsplit] at hentries
  exact not_isJson_of_capital (by decide) (by decide) (by decide) _ hentries

end CommandLine

end GameSheet
