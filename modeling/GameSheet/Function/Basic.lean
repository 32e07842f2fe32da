import GameSheet.Text.Quoted
import GameSheet.Text.Upper

/-!
# Functions of the formula language

A function is described by its name, its accepted argument counts, the help shown to users and its implementation.
An implementation takes numbers, and texts at the positions that are declared for them, and gives a number or a
fault. Functions without an implementation are special forms: the parser or the evaluator handles them.
-/

namespace GameSheet

/-- An argument of a function. -/
inductive Argument where
  | number (x : Float)
  | text (s : String)
  deriving DecidableEq

/-- Why a function gives no number. -/
inductive Fault where
  | divisionByZero
  | infinityToInteger
  | nanToInteger
  | outsideDomain
  | noLeast
  | noGreatest
  /-- The arguments do not have the number or the sorts that the function declares. -/
  | unsuited
  deriving DecidableEq, Repr

namespace Fault

/-- What went wrong, in words. -/
def message : Fault → String
  | divisionByZero => "float division by zero"
  | infinityToInteger => "cannot convert float infinity to integer"
  | nanToInteger => "cannot convert float NaN to integer"
  | outsideDomain => "math domain error"
  | noLeast => "min() arg is an empty sequence"
  | noGreatest => "max() arg is an empty sequence"
  | unsuited => "unsuited arguments"

end Fault

/-- What a function computes. -/
abbrev Implementation := List Argument → Except Fault Float

namespace Implementation

/-- The numbers that the arguments are, if none is a text. -/
def numbers? : List Argument → Option (List Float)
  | [] => some []
  | .number x :: rest => (numbers? rest).map (x :: ·)
  | .text _ :: _ => none

/-- A function of numbers only that may have a fault. -/
def ofNumbers (f : List Float → Except Fault Float) : Implementation := fun args =>
  match numbers? args with
  | some xs => f xs
  | none => .error .unsuited

/-- A function of numbers only, defined for some counts of them. -/
def total (f : List Float → Option Float) : Implementation :=
  ofNumbers fun xs => (f xs).elim (.error .unsuited) .ok

/-- A function of one number. -/
def unary (f : Float → Float) : Implementation :=
  total fun
    | [x] => some (f x)
    | _ => none

/-- A function of two numbers. -/
def binary (f : Float → Float → Float) : Implementation :=
  total fun
    | [x, y] => some (f x y)
    | _ => none

/-- A function of three numbers. -/
def ternary (f : Float → Float → Float → Float) : Implementation :=
  total fun
    | [x, y, z] => some (f x y z)
    | _ => none

end Implementation

/-- A function of the formula language. -/
structure FunctionSpec where
  /-- The name, by which formulas call it in any case of letters. -/
  name : String
  /-- What it computes; nothing for a special form. -/
  implementation : Option Implementation
  /-- The least number of arguments. -/
  minArgs : Nat
  /-- The greatest number of arguments, if there is one. -/
  maxArgs : Option Nat
  /-- The category it is listed under. -/
  category : String
  /-- A call with named arguments, for users. -/
  signature : String
  /-- A call with values, for users. -/
  sample : String := ""
  /-- What it computes, in a few words. -/
  description : String := ""
  /-- The positions of the arguments that must be texts, from zero on. -/
  textArgs : List Nat := []

namespace FunctionSpec

/-- The name in upper case, by which the function is found. -/
def key (f : FunctionSpec) : String :=
  Text.upper f.name

/-- Whether a call may have this many arguments. -/
def accepts (f : FunctionSpec) (count : Nat) : Bool :=
  f.minArgs ≤ count && f.maxArgs.all (count ≤ ·)

/-- The accepted argument counts, in words. -/
def arityText (f : FunctionSpec) : String :=
  match f.maxArgs with
  | none => "at least " ++ toString f.minArgs
  | some n => if f.minArgs = n then "exactly " ++ toString n else toString f.minArgs ++ "-" ++ toString n

/-- What is wrong with a call of this many arguments, in words. -/
def arityMessage (shown : String) (arity : String) (count : Nat) : String :=
  shown ++ " requires " ++ arity ++ " arguments, got " ++ toString count

end FunctionSpec

/-- The categories in the order in which help lists them. -/
def categories : List String :=
  ["combat", "economy", "stage", "util", "ref", "math", "stat", "trig", "logic"]

end GameSheet
