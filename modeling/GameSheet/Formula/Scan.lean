import GameSheet.Formula.Token

/-!
# Scanning a formula

`scan` cuts a text into its tokens, up to the end or up to the first offset at which neither a token nor layout
stands. `unescape` gives the text that a string literal denotes, `stripMarker` the formula in the text of a cell.
-/

namespace GameSheet.Formula

/-- A character at which no token starts, and its offset. -/
structure Misfit where
  position : Nat
  char : Char
  deriving DecidableEq, Repr

/-- The tokens of the text from an offset on, and the character that stopped the scan, if one did. -/
def scanFrom (position : Nat) (cs : List Char) : List Token × Option Misfit :=
  match cs with
  | [] => ([], none)
  | c :: rest =>
    if isLayout c then scanFrom (position + 1) rest
    else
      match _h : tokenAt? (c :: rest) with
      | some (kind, chars, tail) =>
        let (tokens, misfit) := scanFrom (position + chars.length) tail
        (⟨kind, chars, position⟩ :: tokens, misfit)
      | none => ([], some ⟨position, c⟩)
termination_by cs.length
decreasing_by
  · simp
  · exact length_lt_of_tokenAt? _h

/-- The tokens of a text, and the character that stopped the scan, if one did. -/
def scan (cs : List Char) : List Token × Option Misfit :=
  scanFrom 0 cs

/-- The tokens of a text, if it consists of tokens and layout. -/
def tokenize (cs : List Char) : Except Misfit (List Token) :=
  match scan cs with
  | (tokens, none) => .ok tokens
  | (_, some misfit) => .error misfit

/-! ## The marker of a formula -/

/-- The text of a cell without the blanks around it and without the marker of a formula. -/
def stripMarker (text : String) : String :=
  match Text.trim text.toList with
  | '=' :: body => String.ofList body
  | body => String.ofList body

/-! ## String literals -/

/-- The text that the inside of a string literal denotes: after a backslash `n` is a line feed, `t` a tab, and any
other character itself. A backslash at the very end is kept. -/
def unescapeInside : List Char → List Char
  | '\\' :: c :: rest => (if c = 'n' then '\n' else if c = 't' then '\t' else c) :: unescapeInside rest
  | c :: rest => c :: unescapeInside rest
  | [] => []

/-- The text that a string literal denotes; its first and last character are the quotes. -/
def unescape (literal : List Char) : List Char :=
  unescapeInside (literal.drop 1).dropLast

theorem scanFrom_nil (position : Nat) : scanFrom position [] = ([], none) := by
  simp [scanFrom]

theorem scanFrom_layout {position : Nat} {c : Char} {rest : List Char} (h : isLayout c = true) :
    scanFrom position (c :: rest) = scanFrom (position + 1) rest := by
  rw [scanFrom]
  simp [h]

theorem scanFrom_token {position : Nat} {c : Char} {rest chars tail : List Char} {kind : TokenKind}
    (h : isLayout c = false) (ht : tokenAt? (c :: rest) = some (kind, chars, tail)) :
    scanFrom position (c :: rest) = (⟨kind, chars, position⟩ :: (scanFrom (position + chars.length) tail).1,
      (scanFrom (position + chars.length) tail).2) := by
  rw [scanFrom]
  simp only [h, Bool.false_eq_true, if_false]
  split
  · rename_i heq
    rw [ht] at heq
    simp only [Option.some.injEq, Prod.mk.injEq] at heq
    obtain ⟨rfl, rfl, rfl⟩ := heq
    rfl
  · rename_i heq
    rw [ht] at heq
    cases heq

theorem scanFrom_misfit {position : Nat} {c : Char} {rest : List Char} (h : isLayout c = false)
    (ht : tokenAt? (c :: rest) = none) : scanFrom position (c :: rest) = ([], some ⟨position, c⟩) := by
  rw [scanFrom]
  simp only [h, Bool.false_eq_true, if_false]
  split
  · rename_i heq
    rw [ht] at heq
    cases heq
  · rfl

end GameSheet.Formula
