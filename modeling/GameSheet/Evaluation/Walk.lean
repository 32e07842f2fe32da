import GameSheet.Evaluation.Guard
import GameSheet.Options
import Std.Data.HashMap

/-!
# The state of an evaluation

While a formula is evaluated, a guard knows the cells that are being computed, a memo may know the outcomes of cells
that were computed before, and warnings are collected. A step of an evaluation takes this state and gives a value or
a failure together with the state after it: what was remembered or warned about stays, also after a failure.

* `within` computes a cell inside the guard.
* `remember` keeps the outcome of a cell for its other readers.
* `attempt` goes on after a failure from which a formula may recover.
-/

namespace GameSheet

/-- The outcomes of formula cells that were computed before. -/
abbrev Memo := Std.HashMap CellKey (Except Failure CellValue)

/-- A note about an evaluation that succeeded all the same. -/
inductive Warning where
  /-- A text that holds a numeral was used as a number. -/
  | textAsNumber (s : String)
  deriving DecidableEq, Repr

/-- The note in words. -/
def Warning.message : Warning → String
  | textAsNumber s => "text " ++ Text.quoted s ++ " used as a number"

/-- The state of an evaluation. -/
structure Walk where
  guard : Guard
  memo : Option Memo := none
  warnings : List Warning := []

namespace Walk

/-- What the memo knows of a cell. -/
def known? (w : Walk) (key : CellKey) : Option (Except Failure CellValue) :=
  w.memo.bind (·[key]?)

/-- The state with the outcome of a cell in the memo, if there is a memo. -/
def store (w : Walk) (key : CellKey) (outcome : Except Failure CellValue) : Walk :=
  { w with memo := w.memo.map (·.insert key outcome) }

end Walk

/-- A step of an evaluation. -/
abbrev Eval (α : Type) := ExceptT Failure (StateM Walk) α

namespace Eval

/-- The step that gives a known outcome. -/
def ofExcept {α : Type} : Except Failure α → Eval α
  | .ok x => pure x
  | .error f => throw f

/-- The value of raw data. -/
def ofRaw (raw : RawCell) : Eval CellValue :=
  ofExcept (raw.value.mapError .overflow)

/-- Notes a warning. -/
def warn (note : Warning) : Eval Unit :=
  modify fun w => { w with warnings := w.warnings ++ [note] }

/-- What the memo knows of a cell. -/
def known? (key : CellKey) : Eval (Option (Except Failure CellValue)) :=
  return (← get).known? key

/-- A step inside a cell: the guard is entered before and left after it, whatever its outcome. -/
def within {α : Type} (v : Visit) (step : Eval α) : Eval α := fun w =>
  match w.guard.enter v with
  | .error f => (.error f, w)
  | .ok inside =>
    let (outcome, after) := step { w with guard := inside }
    (outcome, { after with guard := after.guard.leave })

/-- A step whose outcome is kept as that of a cell, if it is one to keep. -/
def remember (key : CellKey) (step : Eval CellValue) : Eval CellValue := fun w =>
  match step w with
  | (.ok value, after) => (.ok value, after.store key (.ok value))
  | (.error f, after) => (.error f, if f.isKept then after.store key (.error f) else after)

/-- The value of a step, or nothing after a failure from which a formula may recover. -/
def attempt {α : Type} (step : Eval α) : Eval (Option α) := fun w =>
  match step w with
  | (.ok x, after) => (.ok (some x), after)
  | (.error f, after) => (if f.isMaskable then .ok none else .error f, after)

/-! ## Steps in a state -/

section Steps

variable {α β : Type} {w after : Walk} {f : Failure}

@[simp] theorem pure_apply (a : α) (w : Walk) : (pure a : Eval α) w = (.ok a, w) := rfl

@[simp] theorem throw_apply (f : Failure) (w : Walk) : (throw f : Eval α) w = (.error f, w) := rfl

@[simp] theorem warn_apply (note : Warning) (w : Walk) :
    warn note w = (.ok (), { w with warnings := w.warnings ++ [note] }) := rfl

@[simp] theorem ofExcept_apply (o : Except Failure α) (w : Walk) : ofExcept o w = (o, w) := by
  cases o <;> rfl

theorem bind_ok {x : Eval α} {k : α → Eval β} {a : α} (h : x w = (.ok a, after)) : (x >>= k) w = k a after := by
  show (ExceptT.bind x k) w = _
  simp [ExceptT.bind, ExceptT.mk, bind, StateT.bind, h, ExceptT.bindCont]

theorem bind_error {x : Eval α} {k : α → Eval β} (h : x w = (.error f, after)) :
    (x >>= k) w = (.error f, after) := by
  show (ExceptT.bind x k) w = _
  simp [ExceptT.bind, ExceptT.mk, bind, StateT.bind, h, ExceptT.bindCont]
  rfl

theorem attempt_ok {x : Eval α} {a : α} (h : x w = (.ok a, after)) : attempt x w = (.ok (some a), after) := by
  simp [attempt, h]

theorem attempt_error {x : Eval α} (h : x w = (.error f, after)) :
    attempt x w = (if f.isMaskable then .ok none else .error f, after) := by
  simp [attempt, h]

theorem within_ok {v : Visit} {inside : Guard} (h : w.guard.enter v = .ok inside) (step : Eval α) :
    within v step w = ((step { w with guard := inside }).1,
      { (step { w with guard := inside }).2 with guard := (step { w with guard := inside }).2.guard.leave }) := by
  simp only [within, h]
  rfl

theorem within_error {v : Visit} (h : w.guard.enter v = .error f) (step : Eval α) :
    within v step w = (.error f, w) := by
  simp only [within, h]

theorem remember_ok {key : CellKey} {step : Eval CellValue} {value : CellValue} (h : step w = (.ok value, after)) :
    remember key step w = (.ok value, after.store key (.ok value)) := by
  simp only [remember, h]

theorem remember_error {key : CellKey} {step : Eval CellValue} (h : step w = (.error f, after)) :
    remember key step w = (.error f, if f.isKept then after.store key (.error f) else after) := by
  simp only [remember, h]

end Steps

end Eval

end GameSheet
