import GameSheet.Proofs.Formula.Acceptance
import GameSheet.Proofs.Formula.Viable

/-!
# Where a formula goes wrong

A text is cut from left to right into tokens and layout (`Cuts`), until neither a token nor layout stands where the
cutting has come to (`StopsAt`). It is a sentence if it is cut to its end and its tokens are a sentence. Any other text
either stops behind viable tokens, or goes wrong at a token or at its end (`isSentence_or_stops_or_goesWrong`), and the
reading tells which (`readPhrase_of_stopsAt`, `failsAt_of_goesWrongAt`).

* **The place of an error** (`parse_error_located`): a misfit character counts if the tokens in front of it are viable.
  Otherwise the error of a text that is no sentence stands at the first token with which the tokens are no longer
  viable, or at the end of the text. Names count in sentences only.
-/

namespace GameSheet.Formula

open GameSheet.Text

/-! ## Cutting a text -/

/-- Cutting tokens and layout off the front of a text that starts at an offset gives the tokens and leaves the rest,
which starts where the cutting stops. -/
inductive Cuts : Nat → List Char → List Token → Nat → List Char → Prop
  | refl (offset : Nat) (cs : List Char) : Cuts offset cs [] offset cs
  | layout {offset stop : Nat} {c : Char} {cs rest : List Char} {tokens : List Token} (hc : isLayout c = true)
      (h : Cuts (offset + 1) cs tokens stop rest) : Cuts offset (c :: cs) tokens stop rest
  | token {offset stop : Nat} {c : Char} {cs chars tail rest : List Char} {kind : TokenKind} {tokens : List Token}
      (hc : isLayout c = false) (ht : tokenAt? (c :: cs) = some (kind, chars, tail))
      (h : Cuts (offset + chars.length) tail tokens stop rest) :
      Cuts offset (c :: cs) (⟨kind, chars, offset⟩ :: tokens) stop rest

/-- Neither a token nor layout stands at the start of the text. -/
def Stuck : List Char → Prop
  | [] => False
  | c :: cs => isLayout c = false ∧ tokenAt? (c :: cs) = none

/-- After the tokens, the text goes on with a character at which neither a token nor layout stands. -/
def StopsAt (cs : List Char) (tokens : List Token) (m : Misfit) : Prop :=
  ∃ rest, Cuts 0 cs tokens m.position (m.char :: rest) ∧ Stuck (m.char :: rest)

section Cuts

variable {offset stop : Nat} {cs rest : List Char} {tokens before after : List Token}

/-- What is cut off the front is what the scan starts with. -/
theorem Cuts.scanFrom_eq (h : Cuts offset cs tokens stop rest) :
    scanFrom offset cs = (tokens ++ (scanFrom stop rest).1, (scanFrom stop rest).2) := by
  induction h with
  | refl => rfl
  | layout hc _ ih => rw [scanFrom_layout hc, ih]
  | token hc ht _ ih => rw [scanFrom_token hc ht, ih, List.cons_append]

/-- What the scan starts with can be cut off the front. -/
theorem exists_cuts (h : (scanFrom offset cs).1 = before ++ after) : ∃ stop rest, Cuts offset cs before stop rest := by
  fun_induction scanFrom offset cs generalizing before with
  | case1 offset =>
    obtain ⟨rfl, _⟩ := List.append_eq_nil_iff.1 h.symm
    exact ⟨offset, [], .refl offset []⟩
  | case2 offset c rest hc ih =>
    obtain ⟨stop, tail, hcuts⟩ := ih h
    exact ⟨stop, tail, .layout hc hcuts⟩
  | case3 offset c rest hc kind chars tail ht tokens misfit hscan ih =>
    cases before with
    | nil => exact ⟨offset, c :: rest, .refl offset _⟩
    | cons t before =>
      obtain ⟨rfl, htokens⟩ := List.cons.inj h
      rw [hscan] at ih
      obtain ⟨stop, tail, hcuts⟩ := ih htokens
      exact ⟨stop, tail, .token (by simpa using hc) ht hcuts⟩
  | case4 offset c rest hc ht =>
    obtain ⟨rfl, _⟩ := List.append_eq_nil_iff.1 h.symm
    exact ⟨offset, c :: rest, .refl offset _⟩

/-- The scan stops where the cutting does. -/
theorem scanFrom_eq_some_iff {m : Misfit} : scanFrom offset cs = (tokens, some m) ↔
    ∃ rest, Cuts offset cs tokens m.position (m.char :: rest) ∧ Stuck (m.char :: rest) := by
  constructor
  · intro h
    fun_induction scanFrom offset cs generalizing tokens with
    | case1 => cases h
    | case2 offset c rest hc ih =>
      obtain ⟨tail, hcuts, hstuck⟩ := ih h
      exact ⟨tail, .layout hc hcuts, hstuck⟩
    | case3 offset c rest hc kind chars tail ht found misfit hscan ih =>
      cases h
      obtain ⟨tail, hcuts, hstuck⟩ := ih hscan
      exact ⟨tail, .token (by simpa using hc) ht hcuts, hstuck⟩
    | case4 offset c rest hc ht =>
      cases h
      exact ⟨rest, .refl offset _, by simpa using hc, ht⟩
  · rintro ⟨rest, hcuts, hlayout, htoken⟩
    rw [hcuts.scanFrom_eq, scanFrom_misfit hlayout htoken, List.append_nil]

end Cuts

theorem stopsAt_iff {cs : List Char} {tokens : List Token} {m : Misfit} :
    StopsAt cs tokens m ↔ scan cs = (tokens, some m) :=
  scanFrom_eq_some_iff.symm

/-! ## Sentences and errors of a text -/

/-- The text consists of tokens that are a sentence, and layout. -/
def IsSentence (cs : List Char) : Prop :=
  ∃ tokens, tokenize cs = .ok tokens ∧ Sentence tokens

/-- Where the tokens of a text are no longer viable, or where it ends too early. -/
inductive GoesWrongAt (cs : List Char) : Nat → Prop
  /-- The tokens in front of this one are viable, but not together with it. -/
  | token {before : List Token} {t : Token} {stop : Nat} {rest : List Char}
      (hcuts : Cuts 0 cs (before ++ [t]) stop rest)
      (hbefore : Viable before) (ht : ¬Viable (before ++ [t])) : GoesWrongAt cs t.position
  /-- All tokens are viable, but are no sentence. -/
  | ending {tokens : List Token} (htokens : tokenize cs = .ok tokens) (hviable : Viable tokens)
      (hsentence : ¬Sentence tokens) : GoesWrongAt cs cs.length

/-- The fault is one of a name: of a prefix, of a function, of the number of its arguments or of what they are. -/
def SyntaxFault.IsAboutNames : SyntaxFault → Prop
  | unknownQualifier _ | unknownFunction _ | arity _ _ _ | referenceArgument _ => True
  | empty | unmatchedParenthesis | unexpectedEnd | unexpectedToken _ => False

/-- The result of a reading that fails at a place, for a reason that is no name. -/
def FailsAt (result : Except ParseError Phrase) (position : Nat) : Prop :=
  ∃ fault, result = .error (.fault fault position) ∧ ¬fault.IsAboutNames

theorem failsAt_wrongToken (t : Token) : FailsAt (.error (wrongToken t)) t.position := by
  unfold wrongToken
  split
  · exact ⟨_, rfl, not_false⟩
  · exact ⟨_, rfl, not_false⟩

section Reading

variable {cs : List Char}

theorem spelled_of_scan {tokens : List Token} {misfit : Option Misfit} (h : scan cs = (tokens, misfit)) :
    ∀ t ∈ tokens, t.Spelled := by
  intro t ht
  have hmem : t ∈ (scan cs).1 := by rwa [h]
  exact spelled_of_mem_scan hmem

/-- **A text is a sentence, stops behind viable tokens, or goes wrong.** -/
theorem isSentence_or_stops_or_goesWrong (cs : List Char) :
    IsSentence cs ∨ (∃ m tokens, StopsAt cs tokens m ∧ Viable tokens) ∨ ∃ position, GoesWrongAt cs position := by
  rcases hscan : scan cs with ⟨tokens, misfit⟩
  have hspelled := spelled_of_scan hscan
  cases hsteps : Reading.start.steps tokens with
  | error t =>
    -- the tokens up to the one at which the reading stops are the shortest that are not viable
    obtain ⟨before, after, r, rfl, hr, hnone⟩ := Reading.steps_eq_error hsteps
    rw [← List.singleton_append, ← List.append_assoc] at hscan hspelled
    obtain ⟨hfirst, _⟩ := List.forall_mem_append.1 hspelled
    obtain ⟨stop, rest, hcuts⟩ := exists_cuts (congrArg Prod.fst hscan)
    refine Or.inr (Or.inr ⟨t.position, .token hcuts ?_ ?_⟩)
    · exact (viable_iff (List.forall_mem_append.1 hfirst).1).2 ⟨r, hr⟩
    · rw [viable_iff hfirst, Reading.steps_append hr]
      rintro ⟨next, hnext⟩
      rw [Reading.steps, hnone] at hnext
      cases hnext
  | ok r =>
    have hviable : Viable tokens := (viable_iff hspelled).2 ⟨r, hsteps⟩
    cases misfit with
    | some m => exact Or.inr (Or.inl ⟨m, tokens, stopsAt_iff.2 hscan, hviable⟩)
    | none =>
      have htokens := tokenize_eq_ok_iff.2 hscan
      by_cases hs : Sentence tokens
      · exact Or.inl ⟨tokens, htokens, hs⟩
      · exact Or.inr (Or.inr ⟨cs.length, .ending htokens hviable hs⟩)

variable (hcs : cs.all isBlank = false)

include hcs

theorem readPhrase_of_stopsAt {m : Misfit} {tokens : List Token} (h : StopsAt cs tokens m) (hviable : Viable tokens) :
    readPhrase cs = .error (.misfit m) := by
  have hscan := stopsAt_iff.1 h
  obtain ⟨r, hr⟩ := (viable_iff (spelled_of_scan hscan)).1 hviable
  simp only [readPhrase, hcs, hscan, hr, Bool.false_eq_true, if_false]

theorem failsAt_of_goesWrongAt {position : Nat} (h : GoesWrongAt cs position) : FailsAt (readPhrase cs) position := by
  cases h with
  | token hcuts hbefore ht =>
    rename_i before t stop rest
    have hscan : scan cs = (before ++ [t] ++ (scanFrom stop rest).1, (scanFrom stop rest).2) := hcuts.scanFrom_eq
    have hspelled := (List.forall_mem_append.1 (spelled_of_scan hscan)).1
    obtain ⟨r, hr⟩ := (viable_iff (List.forall_mem_append.1 hspelled).1).1 hbefore
    have hnone : r.step t = none := by
      cases hstep : r.step t with
      | none => rfl
      | some next =>
        exact absurd ((viable_iff hspelled).2 ⟨next, by rw [Reading.steps_append hr, Reading.steps_single hstep]⟩) ht
    have hsteps : Reading.start.steps (before ++ [t] ++ (scanFrom stop rest).1) = .error t := by
      rw [List.append_assoc, Reading.steps_append hr, List.singleton_append, Reading.steps, hnone]
    simp only [readPhrase, hcs, hscan, hsteps, Bool.false_eq_true, if_false]
    exact failsAt_wrongToken t
  | ending htokens hviable hsentence =>
    rename_i tokens
    have hscan := tokenize_eq_ok_iff.1 htokens
    have hspelled := spelled_of_scan hscan
    obtain ⟨r, hr⟩ := (viable_iff hspelled).1 hviable
    simp only [readPhrase, hcs, hscan, hr, Bool.false_eq_true, if_false]
    cases hf : r.finish with
    | ok p => exact absurd ((sentence_iff hspelled).2 ⟨r, p, hr, hf⟩) hsentence
    | error u => cases u <;> exact ⟨_, rfl, not_false⟩

end Reading

/-! ## Errors of names -/

/-- The error is a fault of a name. -/
def ParseError.IsAboutNames : ParseError → Prop
  | misfit _ => False
  | fault f _ => f.IsAboutNames

section Names

variable {registry : Registry} {e : ParseError}

theorem crossReference_error {args : List Expr} {position : Nat} (h : crossReference args position = .error e) :
    e.IsAboutNames := by
  unfold crossReference at h
  split at h
  · split at h <;> cases h <;> trivial
  · cases h
    trivial

theorem checkCall_error {name : String} {args : List Expr} {position : Nat}
    (h : checkCall registry name args position = .error e) : e.IsAboutNames := by
  unfold checkCall at h
  split at h
  · cases h
    trivial
  · split at h
    · split at h
      · exact crossReference_error h
      · cases h
    · cases h
      trivial

/-- A computation whose errors are all about names goes on to another one. -/
theorem isAboutNames_bind {α β : Type} {x : Except ParseError α} {f : α → Except ParseError β}
    (hx : ∀ e, x = .error e → e.IsAboutNames) (hf : ∀ a e, f a = .error e → e.IsAboutNames) :
    ∀ e, (x >>= f) = .error e → e.IsAboutNames := by
  cases x with
  | error d =>
    intro e h
    cases h
    exact hx d rfl
  | ok a => exact hf a

mutual

/-- The errors of a check are faults of names. -/
theorem Phrase.check_error : (p : Phrase) → ∀ e, p.check registry = .error e → e.IsAboutNames
  | .number _, _, h => by cases h
  | .text _ _, _, h => by cases h
  | .name _ _, _, h => by cases h
  | .dotted qualifier field position, e, h => by
    rw [Phrase.check] at h
    split at h
    · cases h
    · split at h <;> cases h
      trivial
  | .negate operand, e, h => by
    rw [Phrase.check] at h
    exact isAboutNames_bind operand.check_error (fun _ _ h => by cases h) e h
  | .binary op left right, e, h => by
    rw [Phrase.check] at h
    exact isAboutNames_bind left.check_error
      (fun _ => isAboutNames_bind right.check_error fun _ _ h => by cases h) e h
  | .call callee args position, e, h => by
    rw [Phrase.check] at h
    exact isAboutNames_bind (Phrase.checkAll_error args) (fun _ _ h => checkCall_error h) e h

theorem Phrase.checkAll_error : (ps : List Phrase) → ∀ e, Phrase.checkAll registry ps = .error e → e.IsAboutNames
  | [], _, h => by cases h
  | p :: rest, e, h => by
    rw [Phrase.checkAll] at h
    exact isAboutNames_bind p.check_error
      (fun _ => isAboutNames_bind (Phrase.checkAll_error rest) fun _ _ h => by cases h) e h

end

end Names

/-! ## The place of an error -/

section Parse

variable {registry : Registry} {body : String} {e : ParseError}

theorem parse_of_readPhrase_error (h : readPhrase body.toList = .error e) : parse registry body = .error e := by
  rw [parse, h]
  rfl

theorem isAboutNames_of_isSentence (hs : IsSentence body.toList) (h : parse registry body = .error e) :
    e.IsAboutNames := by
  obtain ⟨tokens, htokens, _, d, rfl⟩ := hs
  rw [parse, readPhrase_of_tokenize htokens] at h
  exact d.phrase.check_error e h

end Parse

/-- **The place of an error**, for every registry and every body that is not blank.

* A misfit character is the error exactly if the text stops at it and the tokens in front of it are viable.
* If that is not so, and the body is no sentence, the error is a fault, and its position is the place at which the body
  goes wrong: that of the first token with which the tokens are no longer viable, or the length of the body.
* A fault of a name is an error of sentences only. -/
theorem parse_error_located (registry : Registry) (body : String) (hbody : body.toList.all isBlank = false) :
    (∀ m, parse registry body = .error (.misfit m) ↔ ∃ tokens, StopsAt body.toList tokens m ∧ Viable tokens) ∧
    ((¬∃ m tokens, StopsAt body.toList tokens m ∧ Viable tokens) → ¬IsSentence body.toList →
      ∃ fault position, parse registry body = .error (.fault fault position) ∧
        ∀ place, GoesWrongAt body.toList place ↔ place = position) ∧
    ∀ fault position, parse registry body = .error (.fault fault position) → fault.IsAboutNames →
      IsSentence body.toList := by
  have place_of_goesWrong : ∀ {position}, GoesWrongAt body.toList position →
      ∃ fault, parse registry body = .error (.fault fault position) ∧ ¬fault.IsAboutNames := fun h =>
    (failsAt_of_goesWrongAt hbody h).imp fun _ hfault => ⟨parse_of_readPhrase_error hfault.1, hfault.2⟩
  refine ⟨fun m => ⟨fun h => ?_, ?_⟩, fun hstops hsentence => ?_, fun fault position h hnames => ?_⟩
  · rcases isSentence_or_stops_or_goesWrong body.toList with hs | ⟨m', tokens, hm, hviable⟩ | ⟨position, hwrong⟩
    · exact absurd (isAboutNames_of_isSentence hs h) not_false
    · rw [parse_of_readPhrase_error (readPhrase_of_stopsAt hbody hm hviable)] at h
      cases h
      exact ⟨tokens, hm, hviable⟩
    · obtain ⟨fault, hfault, _⟩ := place_of_goesWrong hwrong
      rw [hfault] at h
      cases h
  · rintro ⟨tokens, hm, hviable⟩
    exact parse_of_readPhrase_error (readPhrase_of_stopsAt hbody hm hviable)
  · rcases isSentence_or_stops_or_goesWrong body.toList with hs | hm | ⟨position, hwrong⟩
    · exact absurd hs hsentence
    · exact absurd hm hstops
    · obtain ⟨fault, hfault, _⟩ := place_of_goesWrong hwrong
      refine ⟨fault, position, hfault, fun place => ⟨fun hplace => ?_, fun hplace => hplace ▸ hwrong⟩⟩
      obtain ⟨fault', hfault', _⟩ := place_of_goesWrong hplace
      rw [hfault] at hfault'
      cases hfault'
      rfl
  · rcases isSentence_or_stops_or_goesWrong body.toList with hs | ⟨m, tokens, hm, hviable⟩ | ⟨place, hwrong⟩
    · exact hs
    · rw [parse_of_readPhrase_error (readPhrase_of_stopsAt hbody hm hviable)] at h
      cases h
    · obtain ⟨fault', hfault, hother⟩ := place_of_goesWrong hwrong
      rw [hfault] at h
      cases h
      exact absurd hnames hother

theorem parse_error_located_sample : "Net # 2".toList.all isBlank = false ∧
    ∃ tokens, StopsAt "Net # 2".toList tokens ⟨4, '#'⟩ ∧ Viable tokens := by
  have hbody : "Net # 2".toList.all isBlank = false := by decide
  have herror : parse Registry.standard "Net # 2" = .error (.misfit ⟨4, '#'⟩) := by cbv
  exact ⟨hbody, ((parse_error_located Registry.standard "Net # 2" hbody).1 _).1 herror⟩

end GameSheet.Formula
