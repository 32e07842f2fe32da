/-!
# Arguments

The words of a command line: options, which start with a dash, and operands, in any order. An option is a flag, or
takes a value, which follows it as the next word or after an equals sign in the same word. After two dashes alone
every word is an operand.

Only the program takes words apart; what is said of a command starts from what it is asked for.
-/

namespace GameSheet.CommandLine

/-- An option of a command. -/
structure OptionSpec where
  name : String
  takesValue : Bool
  deriving DecidableEq, Repr

/-- What the words say: the flags, the values of options in the order given, and the operands. -/
structure Arguments where
  flags : List String := []
  values : List (String × String) := []
  operands : List String := []
  deriving DecidableEq, Repr

namespace Arguments

/-- Whether a flag is given. -/
def has (a : Arguments) (flag : String) : Bool :=
  a.flags.contains flag

/-- The value that is given to an option last. -/
def value? (a : Arguments) (name : String) : Option String :=
  a.values.reverse.lookup name

/-- The arguments with one more flag before. -/
def withFlag (flag : String) (a : Arguments) : Arguments :=
  { a with flags := flag :: a.flags }

/-- The arguments with one more value before. -/
def withValue (name value : String) (a : Arguments) : Arguments :=
  { a with values := (name, value) :: a.values }

/-- The arguments with one more operand before. -/
def withOperand (operand : String) (a : Arguments) : Arguments :=
  { a with operands := operand :: a.operands }

/-- Whether a word stands for an option: a dash alone does not. -/
def isOption (word : String) : Bool :=
  match word.toList with
  | '-' :: _ :: _ => true
  | _ => false

/-- The name of the option in a word, and the value after an equals sign. -/
def optionParts (word : String) : String × Option String :=
  let cs := word.toList
  let name := String.ofList (cs.takeWhile (· != '='))
  match cs.dropWhile (· != '=') with
  | [] => (name, none)
  | _ :: value => (name, some (String.ofList value))

/-- The arguments that some words give to a command with certain options; nothing if an option is unknown, lacks its
value or has one that it does not take. Without `mixed` the first operand ends the options. -/
def ofWords? (specs : List OptionSpec) (mixed : Bool) : List String → Option Arguments
  | [] => some {}
  | "--" :: rest => some { operands := rest }
  | [word] =>
    if isOption word then
      let (name, value) := optionParts word
      match specs.find? (·.name == name), value with
      | some ⟨_, true⟩, some v => some (withValue name v {})
      | some ⟨_, false⟩, none => some (withFlag name {})
      | _, _ => none
    else some { operands := [word] }
  | word :: next :: rest =>
    if isOption word then
      let (name, value) := optionParts word
      match specs.find? (·.name == name), value with
      | some ⟨_, true⟩, some v => (ofWords? specs mixed (next :: rest)).map (withValue name v)
      | some ⟨_, true⟩, none => (ofWords? specs mixed rest).map (withValue name next)
      | some ⟨_, false⟩, none => (ofWords? specs mixed (next :: rest)).map (withFlag name)
      | _, _ => none
    else if mixed then (ofWords? specs mixed (next :: rest)).map (withOperand word)
    else some { operands := word :: next :: rest }

end Arguments

end GameSheet.CommandLine
