import GameSheet.Decimal.Reading

/-!
# Tokens of a formula

A formula text is a sequence of tokens with layout (space, tab, form feed, carriage return, line feed) between
them. This file says what a token is and reads the one at the start of a text; `Formula/Scan.lean` reads a whole
text.

The classes of first characters are disjoint, except that an operator of one character may start one of two,
and a name may start a dotted name: the longer one wins.
-/

namespace GameSheet.Formula

open GameSheet.Text GameSheet.Decimal

/-- The sorts of tokens. -/
inductive TokenKind where
  | number
  | identifier
  | dottedIdentifier
  | string
  | operator
  | leftParen
  | rightParen
  | comma
  deriving DecidableEq, Repr

/-- A token: its sort, its characters, and the offset of the first of them in the formula. -/
structure Token where
  kind : TokenKind
  chars : List Char
  position : Nat
  deriving DecidableEq, Repr

/-- The text of a token. -/
def Token.text (t : Token) : String :=
  String.ofList t.chars

/-! ## Character classes -/

/-- A character that may stand between tokens. -/
def isLayout (c : Char) : Bool :=
  c = ' ' || c = '\t' || c = '\n' || c = '\r' || c = '\x0c'

/-- A character that starts a name: an ASCII letter or an underscore. -/
def isNameStart (c : Char) : Bool :=
  ('A' ≤ c && c ≤ 'Z') || ('a' ≤ c && c ≤ 'z') || c = '_'

/-- A character of a name: also an ASCII digit. -/
def isNameChar (c : Char) : Bool :=
  isNameStart c || isAsciiDigit c

/-! ## Token shapes -/

/-- The longest name at the start of the text and the rest. -/
def nameAt? : List Char → Option (List Char × List Char)
  | c :: rest =>
    if isNameStart c then some (c :: rest.takeWhile isNameChar, rest.dropWhile isNameChar) else none
  | [] => none

/-- The name at the start of the text, with the point and the name after it if there is one. -/
def nameToken? (cs : List Char) : Option (TokenKind × List Char × List Char) :=
  match nameAt? cs with
  | none => none
  | some (name, '.' :: rest) =>
    match nameAt? rest with
    | some (field, rest) => some (.dottedIdentifier, name ++ '.' :: field, rest)
    | none => some (.identifier, name, '.' :: rest)
  | some (name, rest) => some (.identifier, name, rest)

/-- The characters of a string literal after its opening quote, up to the closing one, and the rest. A backslash
takes the character after it along, unless that is a line feed. -/
def stringTail? : List Char → Option (List Char × List Char)
  | '"' :: rest => some (['"'], rest)
  | '\\' :: c :: rest =>
    if c = '\n' then none else (stringTail? rest).map fun (body, rest) => ('\\' :: c :: body, rest)
  | c :: rest => if c = '\\' then none else (stringTail? rest).map fun (body, rest) => (c :: body, rest)
  | [] => none

/-- The operators of two characters. -/
def longOperators : List (List Char) :=
  [['>', '='], ['<', '='], ['=', '='], ['!', '='], ['<', '>']]

/-- The tokens of one character and their sorts. -/
def shortTokens : List (Char × TokenKind) :=
  [('+', .operator), ('-', .operator), ('*', .operator), ('/', .operator), ('^', .operator), ('=', .operator),
    ('<', .operator), ('>', .operator), ('(', .leftParen), (')', .rightParen), (',', .comma)]

/-- The operator or punctuation mark at the start of the text. -/
def markToken? : List Char → Option (TokenKind × List Char × List Char)
  | a :: b :: rest =>
    if longOperators.contains [a, b] then some (.operator, [a, b], rest)
    else (shortTokens.lookup a).map fun kind => (kind, [a], b :: rest)
  | [a] => (shortTokens.lookup a).map fun kind => (kind, [a], [])
  | [] => none

/-- The token at the start of the text: its sort, its characters and the rest. -/
def tokenAt? (cs : List Char) : Option (TokenKind × List Char × List Char) :=
  match nameToken? cs with
  | some token => some token
  | none =>
    match Numeral.scan isDigit cs with
    | some (n, rest) => some (.number, n.chars, rest)
    | none =>
      match cs with
      | '"' :: rest => (stringTail? rest).map fun (body, rest) => (.string, '"' :: body, rest)
      | _ => markToken? cs

/-! ## A token and the rest make up the text -/

theorem nameAt?_append {cs name rest : List Char} (h : nameAt? cs = some (name, rest)) :
    cs = name ++ rest ∧ name ≠ [] := by
  cases cs with
  | nil => simp [nameAt?] at h
  | cons c tail =>
    by_cases hc : isNameStart c = true
    · simp only [nameAt?, hc, if_true, Option.some.injEq, Prod.mk.injEq] at h
      obtain ⟨rfl, rfl⟩ := h
      simp [List.takeWhile_append_dropWhile]
    · simp [nameAt?, hc] at h

theorem nameToken?_append {cs token rest : List Char} {kind : TokenKind}
    (h : nameToken? cs = some (kind, token, rest)) : cs = token ++ rest ∧ token ≠ [] := by
  unfold nameToken? at h
  split at h
  · simp at h
  · rename_i name tail heq
    obtain ⟨rfl, hne⟩ := nameAt?_append heq
    split at h
    · rename_i field more hfield
      obtain ⟨rfl, _⟩ := nameAt?_append hfield
      simp only [Option.some.injEq, Prod.mk.injEq] at h
      obtain ⟨rfl, rfl, rfl⟩ := h
      simp
    · simp only [Option.some.injEq, Prod.mk.injEq] at h
      obtain ⟨rfl, rfl, rfl⟩ := h
      simp [hne]
  · rename_i name tail _ heq
    obtain ⟨rfl, hne⟩ := nameAt?_append heq
    simp only [Option.some.injEq, Prod.mk.injEq] at h
    obtain ⟨rfl, rfl, rfl⟩ := h
    simp [hne]

theorem stringTail?_append {cs body rest : List Char} (h : stringTail? cs = some (body, rest)) :
    cs = body ++ rest := by
  fun_induction stringTail? cs generalizing body with
  | case1 =>
    simp only [Option.some.injEq, Prod.mk.injEq] at h
    obtain ⟨rfl, rfl⟩ := h
    rfl
  | case2 => simp at h
  | case3 c tail hc ih =>
    obtain ⟨⟨b, r⟩, hb, heq⟩ := Option.map_eq_some_iff.1 h
    simp only [Prod.mk.injEq] at heq
    obtain ⟨rfl, rfl⟩ := heq
    simp [ih hb]
  | case4 => simp at h
  | case5 c tail _ _ hc ih =>
    obtain ⟨⟨b, r⟩, hb, heq⟩ := Option.map_eq_some_iff.1 h
    simp only [Prod.mk.injEq] at heq
    obtain ⟨rfl, rfl⟩ := heq
    simp [ih hb]
  | case6 => simp at h

theorem markToken?_append {cs token rest : List Char} {kind : TokenKind}
    (h : markToken? cs = some (kind, token, rest)) : cs = token ++ rest ∧ token ≠ [] := by
  unfold markToken? at h
  split at h
  · split at h
    · simp only [Option.some.injEq, Prod.mk.injEq] at h
      obtain ⟨_, rfl, rfl⟩ := h
      simp
    · obtain ⟨_, _, heq⟩ := Option.map_eq_some_iff.1 h
      simp only [Prod.mk.injEq] at heq
      obtain ⟨_, rfl, rfl⟩ := heq
      simp
  · obtain ⟨_, _, heq⟩ := Option.map_eq_some_iff.1 h
    simp only [Prod.mk.injEq] at heq
    obtain ⟨_, rfl, rfl⟩ := heq
    simp
  · simp at h

/-- A token is what the text starts with, and it is not empty. -/
theorem tokenAt?_append {cs token rest : List Char} {kind : TokenKind}
    (h : tokenAt? cs = some (kind, token, rest)) : cs = token ++ rest ∧ token ≠ [] := by
  unfold tokenAt? at h
  split at h
  · rename_i t heq
    cases Option.some.inj h
    exact nameToken?_append heq
  · split at h
    · rename_i n more heq
      simp only [Option.some.injEq, Prod.mk.injEq] at h
      obtain ⟨_, rfl, rfl⟩ := h
      exact ⟨Numeral.scan_append heq, Numeral.chars_ne_nil heq⟩
    · split at h
      · obtain ⟨⟨b, r⟩, hb, heq⟩ := Option.map_eq_some_iff.1 h
        simp only [Prod.mk.injEq] at heq
        obtain ⟨_, rfl, rfl⟩ := heq
        simp [stringTail?_append hb]
      · exact markToken?_append h

theorem length_lt_of_tokenAt? {cs token rest : List Char} {kind : TokenKind}
    (h : tokenAt? cs = some (kind, token, rest)) : rest.length < cs.length := by
  obtain ⟨rfl, hne⟩ := tokenAt?_append h
  have := List.length_pos_iff.2 hne
  simp
  omega

end GameSheet.Formula
