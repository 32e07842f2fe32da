import GameSheet.Formula.Phrase

/-!
# Reading phrases

Tokens are read from left to right into a stack of what is still open to the left: parentheses, calls, signs and
operators that wait for their right operand. One token is one step, and a step fails exactly at the first token
with which the text can no longer be completed to a formula; so an error is located as early as possible.

* `Reading.step` takes one token.
* `Reading.finish` ends the text.
* `phraseOf` reads a whole text, in which the first misfit character or wrong token counts.
-/

namespace GameSheet.Formula

/-- What waits to the left of the reading point. -/
inductive Pending where
  /-- An open parenthesis. -/
  | group
  /-- An open call with the arguments that are complete, last first. -/
  | call (name : String) (position : Nat) (done : List Phrase)
  /-- A minus sign. -/
  | negate
  /-- A plus sign, which changes nothing. -/
  | keep
  /-- An operator and its left operand. -/
  | infixed (op : Operator) (left : Phrase)

/-- Where the reading stands, with what is open, innermost first. -/
inductive Reading where
  /-- An operand must follow. -/
  | operand (pending : List Pending)
  /-- A name was read: it is an operand unless a parenthesis makes it a call. -/
  | named (name : String) (position : Nat) (pending : List Pending)
  /-- An operand was read. -/
  | complete (value : Phrase) (pending : List Pending)

/-- Completes what binds at least as tightly as `level`: signs and operators that wait for `value`. -/
def collapse (level : Nat) (value : Phrase) : List Pending → Phrase × List Pending
  | .negate :: pending =>
    if level ≤ signLevel then collapse level (.negate value) pending else (value, .negate :: pending)
  | .keep :: pending =>
    if level ≤ signLevel then collapse level value pending else (value, .keep :: pending)
  | .infixed op left :: pending =>
    if level ≤ op.level then collapse level (.binary op left value) pending
    else (value, .infixed op left :: pending)
  | pending => (value, pending)

/-- How tightly what is open must bind to be completed before an operator: left-associative operators complete
their own level, `^` completes nothing. -/
def closingLevel : Operator → Nat
  | .pow => 6
  | op => op.level

namespace Reading

/-- The reading after a token, when an operand must follow. -/
def stepOperand (pending : List Pending) (t : Token) : Option Reading :=
  match t.kind with
  | .identifier => some (named t.text t.position pending)
  | .leftParen => some (operand (.group :: pending))
  | .rightParen =>
    match pending with
    | .call name position [] :: pending => some (complete (.call name [] position) pending)
    | _ => none
  | .operator =>
    if t.chars = ['-'] then some (operand (.negate :: pending))
    else if t.chars = ['+'] then some (operand (.keep :: pending))
    else none
  | _ => (Phrase.ofToken? t).map fun value => complete value pending

/-- The reading after a token, when an operand was read. -/
def stepComplete (value : Phrase) (pending : List Pending) (t : Token) : Option Reading :=
  match t.kind with
  | .operator =>
    (Operator.ofChars? t.chars).map fun op =>
      let (left, pending) := collapse (closingLevel op) value pending
      operand (.infixed op left :: pending)
  | .rightParen =>
    match collapse 0 value pending with
    | (value, .group :: pending) => some (complete value pending)
    | (value, .call name position done :: pending) =>
      some (complete (.call name (value :: done).reverse position) pending)
    | _ => none
  | .comma =>
    match collapse 0 value pending with
    | (value, .call name position done :: pending) => some (operand (.call name position (value :: done) :: pending))
    | _ => none
  | _ => none

/-- The reading after one more token; nothing if no formula goes on with it. -/
def step : Reading → Token → Option Reading
  | operand pending, t => stepOperand pending t
  | named name position pending, t =>
    if t.kind = .leftParen then some (operand (.call name position [] :: pending))
    else stepComplete (.name name position) pending t
  | complete value pending, t => stepComplete value pending t

/-- Why a text cannot end where it does. -/
inductive Unfinished where
  /-- A closing parenthesis could follow. -/
  | parenthesis
  /-- An operand must follow. -/
  | operand
  deriving DecidableEq, Repr

/-- The phrase that was read, if the text may end here. -/
def finish : Reading → Except Unfinished Phrase
  | operand (.call _ _ [] :: _) => .error .parenthesis
  | operand _ => .error .operand
  | named name position pending => finishValue (.name name position) pending
  | complete value pending => finishValue value pending
where
  /-- Completes all that is open around the last operand. -/
  finishValue (value : Phrase) (pending : List Pending) : Except Unfinished Phrase :=
    match collapse 0 value pending with
    | (value, []) => .ok value
    | _ => .error .parenthesis

/-- The reading after all the tokens, or the first token with which no formula goes on. -/
def steps (r : Reading) : List Token → Except Token Reading
  | [] => .ok r
  | t :: rest =>
    match r.step t with
    | some next => next.steps rest
    | none => .error t

/-- The reading of an empty text. -/
def start : Reading := operand []

end Reading

end GameSheet.Formula
