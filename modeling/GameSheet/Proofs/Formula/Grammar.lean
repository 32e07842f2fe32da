import GameSheet.Formula.Reading

/-!
# The grammar of formulas

From the loosest level to the tightest:

    comparison     → addition       | comparison (> | < | >= | <= | = | == | != | <>) addition
    addition       → multiplication | addition (+ | -) multiplication
    multiplication → unary          | multiplication (* | /) unary
    unary          → power          | - unary | + unary
    power          → atom           | atom ^ unary
    atom           → NUMBER | STRING | NAME ( arguments ) | DOTTED | NAME | ( comparison )
    arguments      → ε | comparison further
    further        → ε | , comparison further

A `Derivation` is a parse tree of this grammar; its constructors are the productions, where the first three levels
share theirs (`Chain`). The grammar knows nothing of how a text is read.

* `Derivation.tokens`: the leaves of a parse tree, from left to right.
* `Derivation.phrase`: the phrase that it stands for.
* `Nonterminal.reach`: which operators go on with a phrase of a nonterminal.
-/

namespace GameSheet.Formula

open GameSheet.Text GameSheet.Decimal

/-! ## Symbols -/

/-- The levels of left-associative operators. -/
inductive Chain where
  | comparison
  | addition
  | multiplication
  deriving DecidableEq, Repr

/-- The nonterminals that stand for formulas. -/
inductive Nonterminal where
  | chain (c : Chain)
  | unary
  | power
  | atom
  deriving DecidableEq, Repr

/-- What a whole formula is. -/
abbrev Nonterminal.start : Nonterminal := .chain .comparison

namespace Chain

/-- What stands between the operators of a level. -/
def operand : Chain → Nonterminal
  | comparison => .chain addition
  | addition => .chain multiplication
  | multiplication => .unary

/-- The operators of a level: how they are written and how they are read. -/
def operators : Chain → List (List Char × Operator)
  | comparison =>
    [(['>'], .gt), (['<'], .lt), (['>', '='], .ge), (['<', '='], .le), (['='], .eq), (['=', '='], .eq),
      (['!', '='], .ne), (['<', '>'], .ne)]
  | addition => [(['+'], .add), (['-'], .sub)]
  | multiplication => [(['*'], .mul), (['/'], .div)]

/-- How tightly the operators of a level bind. -/
def level : Chain → Nat
  | comparison => 1
  | addition => 2
  | multiplication => 3

end Chain

/-- A token of a sort. -/
def Terminal (kind : TokenKind) : Type :=
  { t : Token // t.kind = kind }

/-- An operator token with a spelling. -/
def Mark (chars : List Char) : Type :=
  { t : Token // t.kind = .operator ∧ t.chars = chars }

/-- An operator of a level. -/
structure Link (c : Chain) where
  token : Token
  op : Operator
  isOperator : token.kind = .operator
  spells : (token.chars, op) ∈ c.operators

/-! ## Parse trees -/

mutual

/-- The parse trees of a nonterminal. -/
inductive Derivation : Nonterminal → Type
  | single (c : Chain) (operand : Derivation c.operand) : Derivation (.chain c)
  | joined (c : Chain) (left : Derivation (.chain c)) (link : Link c) (right : Derivation c.operand) :
      Derivation (.chain c)
  | unsigned (operand : Derivation .power) : Derivation .unary
  | minus (sign : Mark ['-']) (operand : Derivation .unary) : Derivation .unary
  | plus (sign : Mark ['+']) (operand : Derivation .unary) : Derivation .unary
  | bare (base : Derivation .atom) : Derivation .power
  | raised (base : Derivation .atom) (mark : Mark ['^']) (exponent : Derivation .unary) : Derivation .power
  | number (t : Terminal .number) : Derivation .atom
  | string (t : Terminal .string) : Derivation .atom
  | call (callee : Terminal .identifier) (opening : Terminal .leftParen) (args : Arguments)
      (closing : Terminal .rightParen) : Derivation .atom
  | dotted (t : Terminal .dottedIdentifier) : Derivation .atom
  | name (t : Terminal .identifier) : Derivation .atom
  | group (opening : Terminal .leftParen) (inner : Derivation .start) (closing : Terminal .rightParen) :
      Derivation .atom

/-- The parse trees of the arguments of a call. -/
inductive Arguments : Type
  | none
  | some (first : Derivation .start) (rest : Further)

/-- The parse trees of the arguments after the first. -/
inductive Further : Type
  | none
  | more (comma : Terminal .comma) (next : Derivation .start) (rest : Further)

end

mutual

/-- The tokens at the leaves. -/
@[simp] def Derivation.tokens : {n : Nonterminal} → Derivation n → List Token
  | _, .single _ operand => operand.tokens
  | _, .joined _ left link right => left.tokens ++ link.token :: right.tokens
  | _, .unsigned operand => operand.tokens
  | _, .minus sign operand => sign.1 :: operand.tokens
  | _, .plus sign operand => sign.1 :: operand.tokens
  | _, .bare base => base.tokens
  | _, .raised base mark exponent => base.tokens ++ mark.1 :: exponent.tokens
  | _, .number t => [t.1]
  | _, .string t => [t.1]
  | _, .call callee opening args closing => callee.1 :: opening.1 :: (args.tokens ++ [closing.1])
  | _, .dotted t => [t.1]
  | _, .name t => [t.1]
  | _, .group opening inner closing => opening.1 :: (inner.tokens ++ [closing.1])

/-- The tokens at the leaves. -/
@[simp] def Arguments.tokens : Arguments → List Token
  | .none => []
  | .some first rest => first.tokens ++ rest.tokens

/-- The tokens at the leaves. -/
@[simp] def Further.tokens : Further → List Token
  | .none => []
  | .more comma next rest => comma.1 :: (next.tokens ++ rest.tokens)

end

/-- The number that a token denotes. -/
def Token.number (t : Token) : Float :=
  match Numeral.ofChars? isDigit t.chars with
  | some n => n.value
  | none => 0.0

/-- A number token is a numeral. -/
def Token.Readable (t : Token) : Prop :=
  t.kind = .number → ∃ n, Numeral.ofChars? isDigit t.chars = some n

/-- The name before the point of a dotted name. -/
def Token.qualifier (t : Token) : String :=
  String.ofList (t.chars.takeWhile (· != '.'))

/-- The name after the point of a dotted name. -/
def Token.field (t : Token) : String :=
  String.ofList ((t.chars.dropWhile (· != '.')).drop 1)

mutual

/-- The phrase of a parse tree: single operands, plus signs and parentheses leave no trace, an operator is what its
spelling is read as, and a position is that of the first token. -/
@[simp] def Derivation.phrase : {n : Nonterminal} → Derivation n → Phrase
  | _, .single _ operand => operand.phrase
  | _, .joined _ left link right => .binary link.op left.phrase right.phrase
  | _, .unsigned operand => operand.phrase
  | _, .minus _ operand => .negate operand.phrase
  | _, .plus _ operand => operand.phrase
  | _, .bare base => base.phrase
  | _, .raised base _ exponent => .binary .pow base.phrase exponent.phrase
  | _, .number t => .number t.1.number
  | _, .string t => .text (String.ofList (unescape t.1.chars)) t.1.position
  | _, .call callee _ args _ => .call callee.1.text args.phrases callee.1.position
  | _, .dotted t => .dotted t.1.qualifier t.1.field t.1.position
  | _, .name t => .name t.1.text t.1.position
  | _, .group _ inner _ => inner.phrase

/-- The phrases of the arguments. -/
@[simp] def Arguments.phrases : Arguments → List Phrase
  | .none => []
  | .some first rest => first.phrase :: rest.phrases

/-- The phrases of the arguments after the first. -/
@[simp] def Further.phrases : Further → List Phrase
  | .none => []
  | .more _ next rest => next.phrase :: rest.phrases

end

/-! ## Operators and levels -/

/-- The operators of a level are read as the table of operators says, and bind as the level does. -/
theorem Chain.operators_spec (c : Chain) :
    ∀ o ∈ c.operators, Operator.ofChars? o.1 = some o.2 ∧ o.2.level = c.level := by
  cases c <;> decide

/-- The operators of a level are those that bind as it does. -/
theorem Chain.mem_operators {c : Chain} {chars : List Char} {op : Operator} :
    (chars, op) ∈ c.operators ↔ Operator.ofChars? chars = some op ∧ op.level = c.level := by
  refine ⟨c.operators_spec (chars, op), fun ⟨h, hl⟩ => ?_⟩
  unfold Operator.ofChars? at h
  split at h <;> cases h <;> cases c <;> first | exact absurd hl (by decide) | simp [Chain.operators]

/-- The level from which on an operator goes on with a phrase of the nonterminal. -/
def Nonterminal.reach : Nonterminal → Nat
  | .chain c => c.level
  | .unary => signLevel
  | .power => signLevel
  | .atom => 6

theorem Chain.level_lt_reach_operand (c : Chain) : c.level < c.operand.reach := by
  cases c <;> decide

theorem Operator.level_lt_six (op : Operator) : op.level < 6 := by
  cases op <;> decide

namespace Link

variable {c : Chain}

theorem read (link : Link c) : Operator.ofChars? link.token.chars = some link.op :=
  (Chain.mem_operators.1 link.spells).1

theorem level (link : Link c) : link.op.level = c.level :=
  (Chain.mem_operators.1 link.spells).2

/-- The token tells how the operator is read. -/
theorem ext_token {l l' : Link c} (h : l.token = l'.token) : l = l' := by
  have hop : l.op = l'.op := by
    have hl := l.read
    rw [h, l'.read] at hl
    exact (Option.some.inj hl).symm
  cases l
  cases l'
  cases h
  cases hop
  rfl

end Link

theorem Mark.read {chars : List Char} {op : Operator} (m : Mark chars) (h : Operator.ofChars? chars = some op) :
    Operator.ofChars? m.1.chars = some op := by
  rw [m.2.2, h]

/-! ## First tokens -/

/-- The sorts of tokens that a phrase of the nonterminal may start with: no closing parenthesis, and an operator only
as a sign. -/
def Nonterminal.Starts (n : Nonterminal) (kind : TokenKind) : Prop :=
  kind ≠ .rightParen ∧ (n = .power ∨ n = .atom → kind ≠ .operator)

/-- A phrase has a first token. -/
theorem Derivation.first : {n : Nonterminal} → (d : Derivation n) →
    ∃ t rest, d.tokens = t :: rest ∧ n.Starts t.kind
  | _, .single c operand => by
    obtain ⟨t, rest, h, hk, _⟩ := operand.first
    exact ⟨t, rest, h, hk, by simp⟩
  | _, .joined c left link right => by
    obtain ⟨t, rest, h, hk⟩ := left.first
    exact ⟨t, rest ++ link.token :: right.tokens, by simp [Derivation.tokens, h], hk⟩
  | _, .unsigned operand => by
    obtain ⟨t, rest, h, hk, _⟩ := operand.first
    exact ⟨t, rest, h, hk, by simp⟩
  | _, .minus sign operand => ⟨sign.1, operand.tokens, rfl, by simp [Nonterminal.Starts, sign.2.1]⟩
  | _, .plus sign operand => ⟨sign.1, operand.tokens, rfl, by simp [Nonterminal.Starts, sign.2.1]⟩
  | _, .bare base => by
    obtain ⟨t, rest, h, hk, ho⟩ := base.first
    exact ⟨t, rest, h, hk, fun _ => ho (Or.inr rfl)⟩
  | _, .raised base mark exponent => by
    obtain ⟨t, rest, h, hk, ho⟩ := base.first
    exact ⟨t, rest ++ mark.1 :: exponent.tokens, by simp [Derivation.tokens, h], hk, fun _ => ho (Or.inr rfl)⟩
  | _, .number t => ⟨t.1, [], rfl, by simp [Nonterminal.Starts, t.2]⟩
  | _, .string t => ⟨t.1, [], rfl, by simp [Nonterminal.Starts, t.2]⟩
  | _, .call callee opening args closing => ⟨callee.1, _, rfl, by simp [Nonterminal.Starts, callee.2]⟩
  | _, .dotted t => ⟨t.1, [], rfl, by simp [Nonterminal.Starts, t.2]⟩
  | _, .name t => ⟨t.1, [], rfl, by simp [Nonterminal.Starts, t.2]⟩
  | _, .group opening inner closing => ⟨opening.1, _, rfl, by simp [Nonterminal.Starts, opening.2]⟩

/-- No phrase is empty. -/
theorem Derivation.tokens_ne_nil {n : Nonterminal} (d : Derivation n) : d.tokens ≠ [] := by
  obtain ⟨t, rest, h, _⟩ := d.first
  simp [h]

end GameSheet.Formula
