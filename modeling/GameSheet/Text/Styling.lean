/-!
# Styling

A text for a terminal may hold sequences that set colours and move the cursor: an escape character, an opening
bracket, digits and marks, and a letter. Where a text does not go to a terminal they are left out
(`Text.withoutStyling`); what only starts like such a sequence stays.
-/

namespace GameSheet.Text

/-- The character that starts a sequence. -/
def escapeChar : Char := '\x1b'

/-- A character between the bracket and the letter of a sequence. -/
def isStyleParameter (c : Char) : Bool :=
  c = ';' || c = '?' || c.isDigit

/-- How far a sequence has come. -/
inductive StyleState where
  | outside
  /-- After the escape character. -/
  | escaped
  /-- After the bracket. -/
  | inside
  deriving DecidableEq, Repr

/-- The state after one more character, and whether it goes on with the sequence at hand or ends it. -/
def StyleState.step (s : StyleState) (c : Char) : StyleState :=
  if c = escapeChar then .escaped
  else
    match s with
    | .escaped => if c = '[' then .inside else .outside
    | .inside => if isStyleParameter c then .inside else .outside
    | .outside => .outside

/-- What is left of some characters, last first: `kept` is left of those before, and `held` are those of the sequence
at hand, both last first. -/
def dropStyling (kept held : List Char) (s : StyleState) : List Char → List Char
  | [] => held ++ kept
  | c :: rest =>
    match s.step c with
    | .escaped => dropStyling (held ++ kept) [c] .escaped rest
    | .inside => dropStyling kept (c :: held) .inside rest
    | .outside =>
      if s = .inside && c.isAlpha then dropStyling kept [] .outside rest
      else dropStyling (c :: held ++ kept) [] .outside rest

/-- The text without the sequences that style it. -/
def withoutStyling (s : String) : String :=
  String.ofList (dropStyling [] [] .outside s.toList).reverse

end GameSheet.Text
