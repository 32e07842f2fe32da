import GameSheet.Formula.Token
import GameSheet.Proofs.Decimal.Numeral

/-!
# The shapes of tokens

What the characters of a token may be, for each sort of token and without a word about how texts are scanned (`Lexeme`).
The token at the start of a text is the longest lexeme there:

* a token is a lexeme of its sort (`lexeme_of_tokenAt?`), and a token by itself (`tokenAt?_alone`);
* where a lexeme stands, a token starts that is no shorter (`Lexeme.exists_tokenAt?`), so that a token is at least as
  long as any lexeme at its place (`length_le_of_lexeme`).

Therefore a token that ends within the beginning of a text is found in that beginning by itself (`tokenAt?_beginning`).
-/

namespace GameSheet.Formula

open GameSheet.Text GameSheet.Decimal

/-! ## Shapes -/

/-- A letter or an underscore, and letters, digits and underscores. -/
inductive Word : List Char → Prop
  | mk {c : Char} {cs : List Char} (hc : isNameStart c = true) (hcs : ∀ x ∈ cs, isNameChar x = true) : Word (c :: cs)

/-- What may stand between the quotes of a string literal: a backslash takes the character after it along, which is no
line feed; quotes and backslashes stand nowhere else. -/
inductive Quotable : List Char → Prop
  | nil : Quotable []
  | plain {c : Char} {cs : List Char} (hquote : c ≠ '"') (hslash : c ≠ '\\') (h : Quotable cs) : Quotable (c :: cs)
  | escape {c : Char} {cs : List Char} (hline : c ≠ '\n') (h : Quotable cs) : Quotable ('\\' :: c :: cs)

/-- The lexemes of each sort of token. -/
inductive Lexeme : TokenKind → List Char → Prop
  | number {n : Numeral} (h : n.InOrder isDigit) : Lexeme .number n.chars
  | identifier {cs : List Char} (h : Word cs) : Lexeme .identifier cs
  | dotted {qualifier field : List Char} (hq : Word qualifier) (hf : Word field) :
      Lexeme .dottedIdentifier (qualifier ++ '.' :: field)
  | string {inside : List Char} (h : Quotable inside) : Lexeme .string ('"' :: (inside ++ ['"']))
  | operator {cs : List Char} (h : cs ∈ longOperators) : Lexeme .operator cs
  | mark {c : Char} {kind : TokenKind} (h : (c, kind) ∈ shortTokens) : Lexeme kind [c]

/-! ## Tokens are lexemes -/

theorem word_of_nameAt? {cs name rest : List Char} (h : nameAt? cs = some (name, rest)) : Word name := by
  unfold nameAt? at h
  split at h
  · split at h
    · next hstart =>
      cases h
      exact .mk hstart fun x hx => List.mem_takeWhile_imp hx
    · cases h
  · cases h

theorem lexeme_of_nameToken? {cs chars rest : List Char} {kind : TokenKind}
    (h : nameToken? cs = some (kind, chars, rest)) : Lexeme kind chars := by
  unfold nameToken? at h
  split at h
  · cases h
  · next hname =>
    split at h
    · next hfield =>
      cases h
      exact .dotted (word_of_nameAt? hname) (word_of_nameAt? hfield)
    · cases h
      exact .identifier (word_of_nameAt? hname)
  · next hname =>
    cases h
    exact .identifier (word_of_nameAt? hname)

theorem quotable_of_stringTail? {cs body rest : List Char} (h : stringTail? cs = some (body, rest)) :
    ∃ inside, body = inside ++ ['"'] ∧ Quotable inside := by
  fun_induction stringTail? cs generalizing body with
  | case1 =>
    cases h
    exact ⟨[], rfl, .nil⟩
  | case2 => cases h
  | case3 c tail hc ih =>
    obtain ⟨⟨b, r⟩, hb, heq⟩ := Option.map_eq_some_iff.1 h
    cases heq
    obtain ⟨inside, rfl, hinside⟩ := ih hb
    exact ⟨'\\' :: c :: inside, rfl, .escape hc hinside⟩
  | case4 => cases h
  | case5 c tail hquote hescape hc ih =>
    obtain ⟨⟨b, r⟩, hb, heq⟩ := Option.map_eq_some_iff.1 h
    cases heq
    obtain ⟨inside, rfl, hinside⟩ := ih hb
    exact ⟨c :: inside, rfl, .plain (fun hq => hquote hq) hc hinside⟩
  | case6 => cases h

/-- A mark is one that the tables list. -/
theorem mem_of_markToken? {cs chars rest : List Char} {kind : TokenKind}
    (h : markToken? cs = some (kind, chars, rest)) :
    (kind = .operator ∧ chars ∈ longOperators) ∨ ∃ c, chars = [c] ∧ (c, kind) ∈ shortTokens := by
  have short : ∀ {c : Char} {tail : List Char},
      (shortTokens.lookup c).map (fun k => (k, [c], tail)) = some (kind, chars, rest) →
        ∃ c, chars = [c] ∧ (c, kind) ∈ shortTokens := fun {c tail} hc => by
    obtain ⟨k, hk, heq⟩ := Option.map_eq_some_iff.1 hc
    cases heq
    obtain ⟨before, after, htable, -⟩ := List.lookup_eq_some_iff.1 hk
    exact ⟨c, rfl, htable ▸ List.mem_append_right before List.mem_cons_self⟩
  unfold markToken? at h
  split at h
  · split at h
    · next hcontains =>
      cases h
      exact .inl ⟨rfl, List.contains_iff_mem.1 hcontains⟩
    · exact .inr (short h)
  · exact .inr (short h)
  · cases h

/-- **A token is a lexeme of its sort.** -/
theorem lexeme_of_tokenAt? {cs chars rest : List Char} {kind : TokenKind}
    (h : tokenAt? cs = some (kind, chars, rest)) : Lexeme kind chars := by
  unfold tokenAt? at h
  split at h
  · next hname =>
    cases h
    exact lexeme_of_nameToken? hname
  · split at h
    · next hnumeral =>
      cases h
      exact .number (Numeral.inOrder_of_scan hnumeral)
    · split at h
      · obtain ⟨⟨body, more⟩, hbody, heq⟩ := Option.map_eq_some_iff.1 h
        cases heq
        obtain ⟨inside, rfl, hinside⟩ := quotable_of_stringTail? hbody
        exact .string hinside
      · rcases mem_of_markToken? h with ⟨rfl, hmem⟩ | ⟨c, rfl, hmem⟩
        · exact .operator hmem
        · exact .mark hmem

/-! ## How a token is found -/

theorem nameToken?_eq_none {cs : List Char} (h : ∀ c ∈ cs.head?, isNameStart c = false) : nameToken? cs = none := by
  have hname : nameAt? cs = none := by
    cases cs with
    | nil => rfl
    | cons c cs => simp [nameAt?, h c rfl]
  rw [nameToken?, hname]

theorem tokenAt?_name {cs : List Char} {token : TokenKind × List Char × List Char} (h : nameToken? cs = some token) :
    tokenAt? cs = some token := by
  simp only [tokenAt?, h]

theorem tokenAt?_numeral {cs rest : List Char} {n : Numeral} (hname : nameToken? cs = none)
    (h : Numeral.scan isDigit cs = some (n, rest)) : tokenAt? cs = some (.number, n.chars, rest) := by
  simp only [tokenAt?, hname, h]

theorem tokenAt?_quote (cs : List Char) :
    tokenAt? ('"' :: cs) = (stringTail? cs).map fun (body, rest) => (.string, '"' :: body, rest) := by
  have hname : nameToken? ('"' :: cs) = none := by
    have hstart : isNameStart '"' = false := by decide
    simp [nameToken?, nameAt?, hstart]
  have hnumeral : Numeral.scan isDigit ('"' :: cs) = none := by
    have hdigit : isDigit '"' = false := by decide
    simp [Numeral.scan, Numeral.scanFraction, hdigit]
  simp only [tokenAt?, hname, hnumeral]

theorem tokenAt?_mark {cs : List Char} (hname : nameToken? cs = none) (hnumeral : Numeral.scan isDigit cs = none)
    (hquote : cs.head? ≠ some '"') : tokenAt? cs = markToken? cs := by
  simp only [tokenAt?, hname, hnumeral]
  split
  · exact absurd rfl hquote
  · rfl

/-- A character that starts no name, no numeral and no string literal is a mark. -/
theorem tokenAt?_markChar {c : Char} (hstart : isNameStart c = false) (hdigit : isDigit c = false)
    (hother : c ≠ '.' ∧ c ≠ '"') (rest : List Char) : tokenAt? (c :: rest) = markToken? (c :: rest) := by
  refine tokenAt?_mark (by simp [nameToken?, nameAt?, hstart]) ?_ (fun h => hother.2 (Option.some.inj h))
  simp [Numeral.scan, Numeral.scanFraction, hdigit, hother.1]

/-! ## A token starts where a lexeme stands -/

theorem Word.nameAt?_append {cs : List Char} (h : Word cs) (d : List Char) :
    nameAt? (cs ++ d) = some (cs ++ d.takeWhile isNameChar, d.dropWhile isNameChar) := by
  obtain ⟨hc, hcs⟩ := h
  simp only [List.cons_append, nameAt?, if_pos hc, List.takeWhile_append_of_pos hcs, List.dropWhile_append_of_pos hcs]

/-- A name ends where a character follows that is none of names. -/
theorem Word.nameAt?_end {cs d : List Char} (h : Word cs) (hd : ∀ c ∈ d.head?, isNameChar c = false) :
    nameAt? (cs ++ d) = some (cs, d) := by
  obtain ⟨hc, hcs⟩ := h
  have hspan := span_digits hcs hd
  simp only [List.cons_append, nameAt?, if_pos hc, hspan.1, hspan.2]

theorem Word.nameAt?_point {cs : List Char} (h : Word cs) (d : List Char) :
    nameAt? (cs ++ '.' :: d) = some (cs, '.' :: d) := by
  refine h.nameAt?_end ?_
  rintro c ⟨⟩
  decide

/-- Where a name stands a token of names stands that is no shorter. -/
theorem exists_nameToken? {cs name rest : List Char} (h : nameAt? cs = some (name, rest)) :
    ∃ kind chars more, nameToken? cs = some (kind, chars, more) ∧ name.length ≤ chars.length := by
  unfold nameToken?
  rw [h]
  cases rest with
  | nil => exact ⟨.identifier, name, [], rfl, le_rfl⟩
  | cons c rest =>
    by_cases hc : c = '.'
    · subst hc
      cases hfield : nameAt? rest with
      | none => exact ⟨.identifier, name, '.' :: rest, by simp [hfield], le_rfl⟩
      | some found =>
        obtain ⟨field, more⟩ := found
        exact ⟨.dottedIdentifier, name ++ '.' :: field, more, by simp [hfield], by simp⟩
    · exact ⟨.identifier, name, c :: rest, by simp [hc], le_rfl⟩

/-- No digit is in a class if none of the table of digits is. -/
theorem eq_false_of_isDigit {p : Char → Bool}
    (htable : ∀ start ∈ digitZeros, ∀ i < 10, p (Char.ofNat (start + i)) = false) {c : Char} (h : isDigit c = true) :
    p c = false := by
  obtain ⟨value, hvalue⟩ := Option.isSome_iff_exists.1 h
  obtain ⟨start, hfind, rfl⟩ := Option.map_eq_some_iff.1 hvalue
  have hmem := List.mem_of_find?_eq_some hfind
  have hrange := List.find?_some hfind
  simp only [Bool.and_eq_true, decide_eq_true_eq] at hrange
  have hc := htable start hmem (c.toNat - start) (by omega)
  rwa [Nat.add_sub_cancel' hrange.1, Char.ofNat_toNat] at hc

theorem isNameStart_of_isDigit {c : Char} (h : isDigit c = true) : isNameStart c = false :=
  eq_false_of_isDigit (by decide +kernel) h

/-- No name stands where a numeral does. -/
theorem nameToken?_numeral {n : Numeral} (hn : n.InOrder isDigit) (d : List Char) :
    nameToken? (n.chars ++ d) = none := by
  refine nameToken?_eq_none fun c hc => ?_
  rcases Numeral.head_chars hn d c hc with hdigit | rfl
  · exact isNameStart_of_isDigit hdigit
  · decide

theorem Quotable.stringTail?_append {inside : List Char} (h : Quotable inside) (d : List Char) :
    stringTail? (inside ++ '"' :: d) = some (inside ++ ['"'], d) := by
  induction h with
  | nil => simp [stringTail?]
  | plain hquote hslash _ ih =>
    rw [List.cons_append, stringTail?.eq_3 _ _ (fun hq => hquote hq) (fun x xs hs _ => hslash hs), if_neg hslash, ih]
    rfl
  | escape hline _ ih =>
    rw [List.cons_append, List.cons_append, stringTail?.eq_2, if_neg hline, ih]
    rfl

/-- **Where a lexeme stands a token starts that is no shorter.** -/
theorem Lexeme.exists_tokenAt? {kind : TokenKind} {cs : List Char} (h : Lexeme kind cs) (d : List Char) :
    ∃ kind' chars rest, tokenAt? (cs ++ d) = some (kind', chars, rest) ∧ cs.length ≤ chars.length := by
  cases h with
  | number hn =>
    obtain ⟨n', rest, hscan, hlength⟩ := Numeral.scan_append_chars digitClass_isDigit hn d
    exact ⟨.number, n'.chars, rest, tokenAt?_numeral (nameToken?_numeral hn d) hscan, hlength⟩
  | identifier hword =>
    obtain ⟨kind', chars, rest, htoken, hlength⟩ := exists_nameToken? (hword.nameAt?_append d)
    rw [List.length_append] at hlength
    exact ⟨kind', chars, rest, tokenAt?_name htoken, by omega⟩
  | @dotted qualifier field hq hf =>
    have hname := hq.nameAt?_point (field ++ d)
    have htoken : nameToken? (qualifier ++ '.' :: (field ++ d)) = some (.dottedIdentifier,
        qualifier ++ '.' :: (field ++ d.takeWhile isNameChar), d.dropWhile isNameChar) := by
      simp only [nameToken?, hname, hf.nameAt?_append d]
    refine ⟨_, _, _, by rw [List.append_assoc]; exact tokenAt?_name htoken, ?_⟩
    simp
  | @string inside hinside =>
    refine ⟨.string, '"' :: (inside ++ ['"']), d, ?_, le_rfl⟩
    rw [List.cons_append, List.append_assoc, List.singleton_append, tokenAt?_quote, hinside.stringTail?_append]
    rfl
  | operator ho =>
    simp only [longOperators, List.mem_cons, List.not_mem_nil, or_false] at ho
    rcases ho with rfl | rfl | rfl | rfl | rfl <;>
    · refine ⟨.operator, _, d, ?_, le_rfl⟩
      rw [List.cons_append, tokenAt?_markChar (by decide) (by decide) (by decide)]
      rfl
  | @mark c kind hc =>
    have hshort : ∀ p ∈ shortTokens, shortTokens.lookup p.1 = some p.2 ∧ isNameStart p.1 = false ∧
        isDigit p.1 = false ∧ p.1 ≠ '.' ∧ p.1 ≠ '"' := by decide +kernel
    obtain ⟨hlookup, hstart, hdigit, hother⟩ := hshort _ hc
    rw [List.singleton_append, tokenAt?_markChar hstart hdigit hother]
    cases d with
    | nil => exact ⟨kind, [c], [], by simp only [markToken?, hlookup, Option.map_some], le_rfl⟩
    | cons b d =>
      by_cases hlong : longOperators.contains [c, b] = true
      · exact ⟨.operator, [c, b], d, by simp only [markToken?, if_pos hlong], by simp⟩
      · exact ⟨kind, [c], b :: d, by simp only [markToken?, if_neg hlong, hlookup, Option.map_some], le_rfl⟩

/-- **The longest lexeme is taken**: no lexeme that a text starts with is longer than its first token. -/
theorem length_le_of_lexeme {kind kind' : TokenKind} {cs chars rest lexeme : List Char}
    (h : tokenAt? cs = some (kind, chars, rest)) (hl : Lexeme kind' lexeme) (hcs : lexeme <+: cs) :
    lexeme.length ≤ chars.length := by
  obtain ⟨d, rfl⟩ := hcs
  obtain ⟨_, chars', _, h', hlength⟩ := hl.exists_tokenAt? d
  rw [h] at h'
  cases h'
  exact hlength

/-- Where no token starts no lexeme stands. -/
theorem not_lexeme_of_tokenAt? {kind : TokenKind} {cs lexeme : List Char} (h : tokenAt? cs = none)
    (hcs : lexeme <+: cs) : ¬Lexeme kind lexeme := by
  intro hl
  obtain ⟨d, rfl⟩ := hcs
  obtain ⟨_, _, _, h', _⟩ := hl.exists_tokenAt? d
  rw [h] at h'
  cases h'

/-! ## Tokens by themselves -/

/-- Two words with a point between them are one token. -/
theorem tokenAt?_dotted {qualifier field : List Char} (hq : Word qualifier) (hf : Word field) :
    tokenAt? (qualifier ++ '.' :: field) = some (.dottedIdentifier, qualifier ++ '.' :: field, []) := by
  have hfield := hf.nameAt?_append []
  simp only [List.append_nil, List.takeWhile_nil, List.dropWhile_nil] at hfield
  exact tokenAt?_name (by simp only [nameToken?, hq.nameAt?_point field, hfield])

/-- **The characters of a token are a token by themselves.** -/
theorem tokenAt?_alone {cs chars rest : List Char} {kind : TokenKind} (h : tokenAt? cs = some (kind, chars, rest)) :
    tokenAt? chars = some (kind, chars, []) := by
  cases lexeme_of_tokenAt? h with
  | number hn =>
    have hname := nameToken?_numeral hn []
    rw [List.append_nil] at hname
    exact tokenAt?_numeral hname (Numeral.scan_chars digitClass_isDigit hn)
  | identifier hword =>
    have hname := hword.nameAt?_append []
    simp only [List.append_nil, List.takeWhile_nil, List.dropWhile_nil] at hname
    exact tokenAt?_name (by simp only [nameToken?, hname])
  | dotted hq hf => exact tokenAt?_dotted hq hf
  | string hinside =>
    rw [tokenAt?_quote, hinside.stringTail?_append []]
    rfl
  | operator ho =>
    have hlong : ∀ o ∈ longOperators, tokenAt? o = some (.operator, o, []) := by decide +kernel
    exact hlong _ ho
  | @mark c _ hc =>
    have hshort : ∀ p ∈ shortTokens, tokenAt? [p.1] = some (p.2, [p.1], []) := by decide +kernel
    exact hshort (c, kind) hc

/-- **A token that ends within the beginning of a text is the token of the beginning.** -/
theorem tokenAt?_beginning {kind : TokenKind} {chars u v : List Char}
    (h : tokenAt? (chars ++ (u ++ v)) = some (kind, chars, u ++ v)) :
    tokenAt? (chars ++ u) = some (kind, chars, u) := by
  obtain ⟨kind', chars', rest, htoken, hlength⟩ := (lexeme_of_tokenAt? h).exists_tokenAt? u
  have happend := (tokenAt?_append htoken).1
  have hle : chars'.length ≤ chars.length := length_le_of_lexeme h (lexeme_of_tokenAt? htoken)
    ⟨rest ++ v, by rw [← List.append_assoc, ← happend, List.append_assoc]⟩
  obtain ⟨rfl, rfl⟩ := List.append_inj happend (le_antisymm hlength hle)
  have hkind := tokenAt?_alone h
  rw [tokenAt?_alone htoken] at hkind
  cases hkind
  exact htoken

end GameSheet.Formula
