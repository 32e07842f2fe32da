import GameSheet.Proofs.Basics
import GameSheet.Proofs.Formula.Completeness
import GameSheet.Proofs.Formula.Soundness
import GameSheet.Proofs.Formula.Spacing

/-!
# Texts of calls

A text is spelled as a parse tree if it consists of the tokens of the tree and layout. It is then parsed to the phrase
of the tree, its names checked (`parse_of_lexes`), and what is parsed is spelled as some tree (`exists_lexes_of_parse`).
So texts of formulas are put together to texts of calls (`lexes_call`, `parse_callText`) or put in parentheses
(`Lexes.parenthesized`), and the blanks around a formula, which its marker is looked for behind, are of no account
(`parse_stripMarker`).

A text is written as a string literal with a backslash before quotes and backslashes (`lexes_literalText`), and read
back (`unescape_literalText`).
-/

namespace GameSheet.Formula

open GameSheet.Text GameSheet.Decimal

variable {registry : Registry}

/-! ## Trees and texts -/

/-- The tree that an atom is by itself. -/
def Derivation.ofAtom (d : Derivation .atom) : Derivation .start :=
  .single .comparison (.single .addition (.single .multiplication (.unsigned (.bare d))))

/-- The tokens of a formula are read to its phrase. -/
theorem readScanned_tokens (d : Derivation .start) (ht : ∀ t ∈ d.tokens, t.Readable) :
    readScanned (d.tokens, none) = .ok d.phrase := by
  obtain ⟨r, hr, hf⟩ := d.read ht
  simp only [readScanned, hr, hf]

/-- What is read to a phrase is the tokens of a formula. -/
theorem exists_derivation_of_readScanned {s : List Token × Option Misfit} {p : Phrase} (h : readScanned s = .ok p) :
    ∃ d : Derivation .start, s = (d.tokens, none) ∧ d.phrase = p := by
  obtain ⟨tokens, misfit⟩ := s
  unfold readScanned at h
  split at h
  · cases h
  · cases h
  · next reading hsteps hmisfit =>
    obtain rfl : misfit = none := hmisfit
    cases hf : reading.finish with
    | ok q =>
      simp only [hf, Except.ok.injEq] at h
      obtain ⟨d, hd, hphrase⟩ := exists_derivation_of_read hsteps hf
      exact ⟨d, by rw [hd], hphrase.trans h⟩
    | error u =>
      simp only [hf] at h
      cases u <;> cases h

/-- **A text that is spelled as a tree is parsed to its phrase.** -/
theorem parse_of_lexes {body : String} {d : Derivation .start} (h : Lexes body.toList d.tokens) :
    unplacedResult Expr.unplaced (parse registry body) = d.phrase.check registry := by
  rw [parse_unplaced (h.not_blank d.tokens_ne_nil), h, readScanned_tokens d h.readable]
  rfl

theorem unplacedResult_eq_ok_iff {α : Type} {u : α → α} {x : Except ParseError α} {b : α} :
    unplacedResult u x = .ok b ↔ ∃ a, x = .ok a ∧ u a = b := by
  have hmap : unplacedResult u x = .ok b ↔ x.map u = .ok b := by
    unfold unplacedResult
    cases x.map u <;> simp [Except.mapError]
  exact hmap.trans map_eq_ok_iff

/-- A blank text is no formula. -/
theorem parse_of_blank {body : String} (h : body.toList.all isBlank = true) :
    parse registry body = .error (.fault .empty 0) := by
  rw [parse, readPhrase, if_pos h]
  rfl

/-- Texts with the same tokens and the same misfit are parsed to the same. -/
theorem parse_of_scans {a b : String} (hblank : a.toList.all isBlank = b.toList.all isBlank)
    (h : unplacedScan (scan a.toList) = unplacedScan (scan b.toList)) :
    unplacedResult Expr.unplaced (parse registry a) = unplacedResult Expr.unplaced (parse registry b) := by
  cases hb : b.toList.all isBlank with
  | true => rw [parse_of_blank hb, parse_of_blank (hblank.trans hb)]
  | false => rw [parse_unplaced hb, parse_unplaced (hblank.trans hb), h]

/-- **What is parsed is spelled as some tree.** -/
theorem exists_lexes_of_parse {body : String} {e : Expr} (h : parse registry body = .ok e) :
    ∃ d : Derivation .start, Lexes body.toList d.tokens ∧ d.phrase.check registry = .ok e.unplaced := by
  have hblank : body.toList.all isBlank = false := by
    cases hb : body.toList.all isBlank with
    | false => rfl
    | true =>
      rw [parse_of_blank hb] at h
      cases h
  have hparse : unplacedResult Expr.unplaced (parse registry body) = _ := parse_unplaced hblank
  rw [h] at hparse
  obtain ⟨p, hp, hcheck⟩ := bind_eq_ok_iff.1 hparse.symm
  obtain ⟨d, hd, rfl⟩ := exists_derivation_of_readScanned hp
  exact ⟨d, hd, hcheck⟩

/-- The text of a number is parsed to the number. -/
theorem parse_number {s : String} {t : Terminal .number} (h : Lexes s.toList [t.1]) :
    parse registry s = .ok (.number t.1.number) := by
  have hlexes : Lexes s.toList (Derivation.ofAtom (.number t)).tokens := h
  have hphrase : unplacedResult Expr.unplaced (parse registry s) = .ok (.number t.1.number) := parse_of_lexes hlexes
  obtain ⟨e, hparse, he⟩ := unplacedResult_eq_ok_iff.1 hphrase
  cases e with
  | number x =>
    obtain rfl : x = t.1.number := by simpa [Expr.unplaced] using he
    exact hparse
  | _ => cases he

/-! ## The marker -/

/-- What is parsed does not depend on layout around it. -/
theorem parse_layout {body inner : String} {before after : List Char}
    (h : body.toList = before ++ (inner.toList ++ after)) (hb : before.all isLayout = true)
    (ha : after.all isLayout = true) :
    unplacedResult Expr.unplaced (parse registry body) = unplacedResult Expr.unplaced (parse registry inner) := by
  refine parse_of_scans ?_ (by rw [h, unplacedScan_layout hb ha])
  rw [h, List.all_append, List.all_append, all_isBlank_of_layout hb, all_isBlank_of_layout ha, Bool.true_and,
    Bool.and_true]

/-- A body that layout alone surrounds, and no marker starts, is what its marker is stripped to. -/
theorem parse_stripMarker {body : String} {before after : List Char}
    (h : body.toList = before ++ (trim body.toList ++ after)) (hb : before.all isLayout = true)
    (ha : after.all isLayout = true) (hmarker : (trim body.toList).head? ≠ some '=') :
    unplacedResult Expr.unplaced (parse registry (stripMarker body)) =
      unplacedResult Expr.unplaced (parse registry body) := by
  have hstrip : stripMarker body = String.ofList (trim body.toList) := by
    unfold stripMarker
    split
    · next heq => exact absurd (by rw [heq]; rfl) hmarker
    · rfl
  rw [hstrip]
  exact (parse_layout (by rw [String.toList_ofList]; exact h) hb ha).symm

/-- The token of a marker. -/
theorem tokenAt?_marker (rest : List Char) :
    ∃ more tail, tokenAt? ('=' :: rest) = some (.operator, '=' :: more, tail) := by
  rw [tokenAt?_markChar (by decide) (by decide) (by decide)]
  cases rest with
  | nil => exact ⟨[], [], rfl⟩
  | cons b rest =>
    simp only [markToken?]
    split
    · exact ⟨[b], rest, rfl⟩
    · exact ⟨[], b :: rest, rfl⟩

/-- No formula starts with a marker. -/
theorem not_lexes_marker {rest : List Char} {d : Derivation .start} : ¬Lexes ('=' :: rest) d.tokens := by
  intro h
  obtain ⟨chars, tail, htoken⟩ := tokenAt?_marker rest
  obtain ⟨more, hmore⟩ := h.exists_cons (by decide) htoken
  have hread := readScanned_tokens d h.readable
  rw [hmore] at hread
  simp [readScanned, Reading.start, Reading.steps, Reading.step, Reading.stepOperand] at hread

/-- A formula is parsed as what its marker is stripped to. -/
theorem parse_stripMarker_of_parse {body : String} {e : Expr} (h : parse registry body = .ok e) :
    unplacedResult Expr.unplaced (parse registry (stripMarker body)) = .ok e.unplaced := by
  obtain ⟨d, hd, -⟩ := exists_lexes_of_parse h
  obtain ⟨before, after, hbody, hb, ha⟩ := hd.exists_layout
  rw [parse_stripMarker hbody hb ha, h]
  · rfl
  · intro hmarker
    obtain ⟨rest, hrest⟩ := List.head?_eq_some_iff.1 hmarker
    have hinner : Lexes (trim body.toList) d.tokens := by
      rw [Lexes, ← unplacedScan_layout hb ha, ← hbody]
      exact hd
    rw [hrest] at hinner
    exact not_lexes_marker hinner

/-! ## Calls -/

/-- The text of the arguments after the first one, and the closing parenthesis. -/
def furtherText : List (List Char) → List Char
  | [] => [')']
  | cs :: rest => ',' :: ' ' :: (cs ++ furtherText rest)

/-- The trees of some formulas as the arguments after the first one. -/
def Further.ofList : List (Derivation .start) → Further
  | [] => .none
  | d :: rest => .more ⟨⟨.comma, [','], 0⟩, rfl⟩ d (Further.ofList rest)

@[simp] theorem Further.phrases_ofList (ds : List (Derivation .start)) :
    (Further.ofList ds).phrases = ds.map Derivation.phrase := by
  induction ds with
  | nil => rfl
  | cons d rest ih =>
    rw [List.map_cons, ← ih]
    rfl

/-- The tree of a call. -/
def callOf (name : List Char) (first : Derivation .start) (rest : List (Derivation .start)) : Derivation .start :=
  .ofAtom (.call ⟨⟨.identifier, name, 0⟩, rfl⟩ ⟨⟨.leftParen, ['('], 0⟩, rfl⟩ (.some first (.ofList rest))
    ⟨⟨.rightParen, [')'], 0⟩, rfl⟩)

theorem callOf_phrase (name : List Char) (first : Derivation .start) (rest : List (Derivation .start)) :
    (callOf name first rest).phrase = .call (String.ofList name) (first.phrase :: rest.map Derivation.phrase) 0 := by
  rw [← Further.phrases_ofList]
  rfl

/-- The tree of a formula in parentheses. -/
def Derivation.parenthesized (d : Derivation .start) : Derivation .start :=
  .ofAtom (.group ⟨⟨.leftParen, ['('], 0⟩, rfl⟩ d ⟨⟨.rightParen, [')'], 0⟩, rfl⟩)

/-- A mark that starts no longer one is a token. -/
theorem tokenAt?_short {c : Char} {kind : TokenKind} (hkind : shortTokens.lookup c = some kind)
    (hstart : isNameStart c = false) (hdigit : isDigit c = false) (hother : c ≠ '.' ∧ c ≠ '"')
    (hlong : ∀ o ∈ longOperators, o.head? ≠ some c) (rest : List Char) :
    tokenAt? (c :: rest) = some (kind, [c], rest) := by
  rw [tokenAt?_markChar hstart hdigit hother]
  cases rest with
  | nil => simp only [markToken?, hkind, Option.map_some]
  | cons b rest =>
    have hcontains : ¬longOperators.contains [c, b] = true := fun h => hlong _ (List.contains_iff_mem.1 h) rfl
    simp only [markToken?, hkind, if_neg hcontains, Option.map_some]

theorem tokenAt?_opening (rest : List Char) : tokenAt? ('(' :: rest) = some (.leftParen, ['('], rest) :=
  tokenAt?_short rfl (by decide) (by decide) (by decide) (by decide) rest

theorem tokenAt?_closing (rest : List Char) : tokenAt? (')' :: rest) = some (.rightParen, [')'], rest) :=
  tokenAt?_short rfl (by decide) (by decide) (by decide) (by decide) rest

theorem tokenAt?_comma (rest : List Char) : tokenAt? (',' :: rest) = some (.comma, [','], rest) :=
  tokenAt?_short rfl (by decide) (by decide) (by decide) (by decide) rest

/-- The name of a call is a token. -/
theorem tokenAt?_callee {name : List Char} (h : Word name) (rest : List Char) :
    tokenAt? (name ++ '(' :: rest) = some (.identifier, name, '(' :: rest) := by
  have hopening : ∀ x ∈ ('(' :: rest).head?, isNameChar x = false := by
    rintro x ⟨⟩
    decide
  exact tokenAt?_name (by simp [nameToken?, h.nameAt?_end hopening])

theorem divided_furtherText (texts : List (List Char)) : Divided (furtherText texts) := by
  cases texts <;> (intro c hc; cases hc; decide)

/-- The text of the arguments after the first one. -/
theorem lexes_furtherText {texts : List (List Char)} {ds : List (Derivation .start)}
    (h : List.Forall₂ (fun cs d => Lexes cs d.tokens) texts ds) :
    Lexes (furtherText texts) ((Further.ofList ds).tokens ++ [⟨.rightParen, [')'], 0⟩]) := by
  induction h with
  | nil => exact .token (by decide) (tokenAt?_closing []) .nil
  | @cons cs d texts ds hd hrest ih =>
    have hnext := (hd.append (divided_furtherText texts) ih).layout (c := ' ') (by decide)
    have htext := hnext.token (c := ',') (by decide) (tokenAt?_comma _)
    rw [← List.append_assoc] at htext
    exact htext

theorem isLayout_of_isNameStart {c : Char} (h : isNameStart c = true) : isLayout c = false := by
  rw [Bool.eq_false_iff]
  intro hl
  have hblank := isBlank_of_isLayout hl
  rw [isBlank_of_isNameStart h] at hblank
  cases hblank

/-- **The text of a call** is spelled as the call of what its arguments are spelled as. -/
theorem lexes_call {c : Char} {cs first : List Char} {texts : List (List Char)} {d : Derivation .start}
    {ds : List (Derivation .start)} (hc : isNameStart c = true) (hcs : ∀ x ∈ cs, isNameChar x = true)
    (hfirst : Lexes first d.tokens) (hrest : List.Forall₂ (fun cs d => Lexes cs d.tokens) texts ds) :
    Lexes (c :: cs ++ '(' :: (first ++ furtherText texts)) (callOf (c :: cs) d ds).tokens := by
  have hargs := hfirst.append (divided_furtherText texts) (lexes_furtherText hrest)
  have hopened := hargs.token (c := '(') (by decide) (tokenAt?_opening _)
  have htext := hopened.token (isLayout_of_isNameStart hc) (tokenAt?_callee (.mk hc hcs) _)
  rw [← List.append_assoc] at htext
  exact htext

section CallTexts

variable {name : String} {texts : List String} {es : List Expr}

/-- The text of the arguments, and the closing parenthesis. -/
def argumentsText : List (List Char) → List Char
  | [] => [')']
  | cs :: rest => cs ++ furtherText rest

/-- The text of a call. -/
def callText (name : String) (texts : List String) : String :=
  String.ofList (name.toList ++ '(' :: argumentsText (texts.map String.toList))

/-- The trees of some formulas as the arguments of a call. -/
def Arguments.ofList : List (Derivation .start) → Arguments
  | [] => .none
  | d :: rest => .some d (.ofList rest)

/-- The tree of a call with any number of arguments. -/
def callTree (name : List Char) (ds : List (Derivation .start)) : Derivation .start :=
  .ofAtom (.call ⟨⟨.identifier, name, 0⟩, rfl⟩ ⟨⟨.leftParen, ['('], 0⟩, rfl⟩ (.ofList ds)
    ⟨⟨.rightParen, [')'], 0⟩, rfl⟩)

theorem callTree_phrase (name : List Char) (ds : List (Derivation .start)) :
    (callTree name ds).phrase = .call (String.ofList name) (ds.map Derivation.phrase) 0 := by
  cases ds with
  | nil => rfl
  | cons d rest => exact callOf_phrase name d rest

theorem lexes_callTree {name : List Char} {texts : List (List Char)} {ds : List (Derivation .start)} (hname : Word name)
    (h : List.Forall₂ (fun cs d => Lexes cs d.tokens) texts ds) :
    Lexes (name ++ '(' :: argumentsText texts) (callTree name ds).tokens := by
  obtain ⟨hc, hcs⟩ := hname
  cases h with
  | nil =>
    have hclosed : Lexes ['(', ')'] [⟨.leftParen, ['('], 0⟩, ⟨.rightParen, [')'], 0⟩] :=
      (Lexes.nil.token (by decide) (tokenAt?_closing [])).token (by decide) (tokenAt?_opening _)
    exact hclosed.token (isLayout_of_isNameStart hc) (tokenAt?_callee (.mk hc hcs) _)
  | cons hfirst hrest => exact lexes_call hc hcs hfirst hrest

/-- **The text of a call** is parsed to what the call is of what its arguments are parsed to. -/
theorem parse_callText (hname : Word name.toList)
    (hargs : List.Forall₂ (fun text e => parse registry text = .ok e) texts es) :
    unplacedResult Expr.unplaced (parse registry (callText name texts)) =
      checkCall registry name (Expr.unplacedAll es) 0 := by
  have htrees : ∃ ds : List (Derivation .start),
      List.Forall₂ (fun cs d => Lexes cs d.tokens) (texts.map String.toList) ds ∧
        Phrase.checkAll registry (ds.map Derivation.phrase) = .ok (Expr.unplacedAll es) := by
    induction hargs with
    | nil => exact ⟨[], .nil, rfl⟩
    | cons hparse _ ih =>
      obtain ⟨d, hd, hcheck⟩ := exists_lexes_of_parse hparse
      obtain ⟨ds, hds, hall⟩ := ih
      refine ⟨d :: ds, .cons hd hds, ?_⟩
      rw [List.map_cons, Phrase.checkAll, hcheck, hall]
      rfl
  obtain ⟨ds, hds, hcheck⟩ := htrees
  have hlexes : Lexes (callText name texts).toList (callTree name.toList ds).tokens := by
    rw [callText, String.toList_ofList]
    exact lexes_callTree hname hds
  rw [parse_of_lexes hlexes, callTree_phrase, String.ofList_toList, Phrase.check, hcheck]
  rfl

/-- If a function takes so many arguments, and makes no reference of them, the call is one of the function. -/
theorem parse_callText_of_find? {f : FunctionSpec} (hname : Word name.toList) (hfind : registry.find? name = some f)
    (haccepts : f.accepts texts.length = true) (hother : Text.upper name ≠ referenceKey)
    (hargs : List.Forall₂ (fun text e => parse registry text = .ok e) texts es) :
    ∃ e, parse registry (callText name texts) = .ok e ∧
      e.unplaced = .call (Text.upper name) (Expr.unplacedAll es) 0 := by
  have hlength : (Expr.unplacedAll es).length = texts.length := by
    rw [Expr.unplacedAll_eq_map, List.length_map, hargs.length_eq]
  have hcall : checkCall registry name (Expr.unplacedAll es) 0 =
      .ok (.call (Text.upper name) (Expr.unplacedAll es) 0) := by
    simp only [checkCall, hfind, hlength, haccepts, if_true, if_neg hother]
  exact unplacedResult_eq_ok_iff.1 ((parse_callText hname hargs).trans hcall)

end CallTexts

/-- A text in parentheses is spelled as the tree of the text in parentheses. -/
theorem Lexes.parenthesized {cs : List Char} {d : Derivation .start} (h : Lexes cs d.tokens) :
    Lexes ('(' :: (cs ++ [')'])) d.parenthesized.tokens := by
  have hdivided : Divided [')'] := by
    rintro c ⟨⟩
    decide
  exact (h.append hdivided (Lexes.nil.token (by decide) (tokenAt?_closing []))).token (by decide) (tokenAt?_opening _)

/-! ## String literals -/

/-- The characters with a backslash before quotes and backslashes. -/
def escaped : List Char → List Char
  | [] => []
  | c :: rest => if c = '"' ∨ c = '\\' then '\\' :: c :: escaped rest else c :: escaped rest

/-- The text as a string literal. -/
def literalText (s : String) : String :=
  String.ofList ('"' :: (escaped s.toList ++ ['"']))

/-- The tree of a string literal. -/
def literalOf (s : String) : Derivation .start :=
  .ofAtom (.string ⟨⟨.string, '"' :: (escaped s.toList ++ ['"']), 0⟩, rfl⟩)

/-- The token of a string literal. -/
def literalToken (s : String) : Terminal .string :=
  ⟨⟨.string, '"' :: (escaped s.toList ++ ['"']), 0⟩, rfl⟩

theorem quotable_escaped (cs : List Char) : Quotable (escaped cs) := by
  induction cs with
  | nil => exact .nil
  | cons c cs ih =>
    rw [escaped]
    split
    · next hc =>
      refine .escape ?_ ih
      rintro rfl
      revert hc
      decide
    · next hc => exact .plain (fun h => hc (.inl h)) (fun h => hc (.inr h)) ih

theorem unescapeInside_escaped (cs : List Char) : unescapeInside (escaped cs) = cs := by
  induction cs with
  | nil => rfl
  | cons c cs ih =>
    by_cases hc : c = '"' ∨ c = '\\'
    · have hletters : c ≠ 'n' ∧ c ≠ 't' := by rcases hc with rfl | rfl <;> decide
      simp [escaped, if_pos hc, unescapeInside, hletters, ih]
    · have hslash : c ≠ '\\' := fun h => hc (.inr h)
      rw [escaped, if_neg hc, unescapeInside, ih]
      exact fun c' rest' heq _ => hslash heq

theorem literalText_toList (s : String) : (literalText s).toList = '"' :: (escaped s.toList ++ ['"']) := by
  rw [literalText, String.toList_ofList]

/-- **A text is read back from its string literal.** -/
theorem unescape_literalText (s : String) : unescape (literalText s).toList = s.toList := by
  have hinside : (escaped s.toList ++ ['"']).dropLast = escaped s.toList := List.dropLast_concat
  rw [literalText_toList, unescape, List.drop_one, List.tail_cons, hinside, unescapeInside_escaped]

theorem literalOf_phrase (s : String) : (literalOf s).phrase = .text s 0 := by
  show Phrase.text (String.ofList (unescape ('"' :: (escaped s.toList ++ ['"'])))) 0 = _
  rw [← literalText_toList, unescape_literalText, String.ofList_toList]

/-- A string literal is a token, whatever follows. -/
theorem tokenAt?_literalText (s : String) (rest : List Char) :
    tokenAt? ((literalText s).toList ++ rest) = some (.string, (literalText s).toList, rest) := by
  rw [literalText_toList, List.cons_append, List.append_assoc, List.singleton_append, tokenAt?_quote,
    (quotable_escaped s.toList).stringTail?_append rest]
  rfl

theorem lexes_literalText (s : String) : Lexes (literalText s).toList (literalOf s).tokens := by
  have htoken := tokenAt?_literalText s []
  rw [List.append_nil, literalText_toList] at htoken
  rw [literalText_toList]
  exact .token (by decide) htoken .nil

end GameSheet.Formula
