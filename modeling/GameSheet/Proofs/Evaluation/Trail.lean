import GameSheet.Proofs.Evaluation.Confined

/-!
# What an evaluation reads

An evaluation reads cells: those to which the references of its formula lead, and inside a formula cell those to which
its body leads. The trail of an evaluation is the list of these accesses (`Engine.trail`), each with the outcome of the
cell and with the memo at that moment, in the order in which they come to an end; the accesses inside a cell come before
the one to the cell itself.

A trail follows the evaluation from node to node (`Expr.trail`). What is not evaluated leaves nothing on it: the branch
that is not chosen, the fallback that is not needed, and whatever would come after a failure. The memo changes where an
access ends and nowhere else, so the memos on the trail are all that there are.

A property of steps with their trails that is kept by doing one step after another and by recovering from a failure
holds of an expression as soon as it holds of its references (`Traceable.eval`).
-/

namespace GameSheet

open Formula

/-! ## Trails -/

/-- A cell that was read, its outcome, and the memo after that. -/
structure Access where
  cell : CellSite
  outcome : Except Failure CellValue
  memo : Option Memo

/-- The accesses of a step, from the state in which it starts. -/
abbrev Trail := Walk → List Access

namespace Trail

/-- The trail of a step that reads nothing. -/
def quiet : Trail := fun _ => []

/-- The accesses of a step and of what comes after it, if it succeeds. -/
def andThen {α : Type} (t : Trail) (x : Eval α) (next : α → Trail) : Trail := fun w =>
  t w ++
    match x w with
    | (.ok a, after) => next a after
    | (.error _, _) => []

/-- The accesses of a step inside a cell; there are none if the guard refuses the cell. -/
def within (v : Visit) (t : Trail) : Trail := fun w =>
  match w.guard.enter v with
  | .ok inside => t { w with guard := inside }
  | .error _ => []

section Steps

variable {α : Type} {t : Trail} {x : Eval α} {next : α → Trail} {w after : Walk}

@[simp] theorem quiet_apply (w : Walk) : quiet w = [] := rfl

theorem andThen_ok {a : α} (h : x w = (.ok a, after)) : t.andThen x next w = t w ++ next a after := by
  simp only [andThen, h]

theorem andThen_error {f : Failure} (h : x w = (.error f, after)) : t.andThen x next w = t w := by
  simp only [andThen, h, List.append_nil]

theorem andThen_quiet (t : Trail) (x : Eval α) : (t.andThen x fun _ => quiet) = t := by
  funext w
  rcases hx : x w with ⟨o, after⟩
  cases o with
  | ok a => rw [andThen_ok hx, quiet_apply, List.append_nil]
  | error f => rw [andThen_error hx]

theorem within_ok {v : Visit} {inside : Guard} (h : w.guard.enter v = .ok inside) :
    within v t w = t { w with guard := inside } := by
  simp only [within, h]

theorem within_error {v : Visit} {f : Failure} (h : w.guard.enter v = .error f) : within v t w = [] := by
  simp only [within, h]

end Steps

end Trail

/-! ## Operands -/

/-- An operand and the accesses of its evaluation. -/
structure Traced where
  operand : Operand
  trail : Trail

namespace Traced

/-- The accesses where a number is needed. A string literal is refused before it is evaluated. -/
def numberTrail (o : Traced) : Trail :=
  if o.operand.isLiteral then .quiet else o.trail

/-- The accesses of an operation: those of the left operand, and if that is fit those of the right one. -/
def operatorTrail (op : Operator) (left right : Traced) : Trail :=
  if op.isEquality then left.trail.andThen left.operand.value fun _ => right.trail
  else left.numberTrail.andThen (left.operand.number (.left op)) fun _ => right.numberTrail

/-- The accesses of a choice: those of the condition and of the branch that is chosen. -/
def branchTrail : List Traced → Trail
  | [] => .quiet
  | condition :: branches =>
    condition.numberTrail.andThen (condition.operand.number (.argument branchKey 1)) fun x =>
      if x != 0.0 then
        match branches with
        | yes :: _ => yes.trail
        | [] => .quiet
      else
        match branches with
        | [_, no] => no.trail
        | _ => .quiet

/-- The accesses of the operand that a rescue may fall back to. -/
def fallbackTrail : List Traced → Trail
  | [] => .quiet
  | o :: _ => o.trail

/-- The accesses of a rescue: those of the first operand, and if it does not come to a number or a text, those of the
fallback. -/
def rescueTrail : List Traced → Trail
  | [] => .quiet
  | value :: rest =>
    value.trail.andThen (Eval.attempt value.operand.value) fun
      | some (.number x) => if x.isNaN then fallbackTrail rest else .quiet
      | some _ => .quiet
      | none => fallbackTrail rest

/-- The accesses of the arguments of a function from a position on, up to the first one that is unfit. -/
def argumentsTrail (f : FunctionSpec) (position : Nat) : List Traced → Trail
  | [] => .quiet
  | o :: rest => o.trail.andThen (o.operand.argument f position) fun _ => argumentsTrail f (position + 1) rest

/-- The accesses of the call of a function by its key. -/
def callTrail (registry : Registry) (key : String) (operands : List Traced) : Trail :=
  match registry.find? key with
  | none => .quiet
  | some f =>
    if f.accepts operands.length then
      if key = branchKey then branchTrail operands
      else if key = rescueKey then rescueTrail operands
      else
        match f.implementation with
        | none => .quiet
        | some _ => argumentsTrail f 0 operands
    else .quiet

end Traced

/-! ## Expressions and cells -/

namespace Formula

mutual

/-- The accesses of an expression whose references are read in some way, with some accesses. -/
def Expr.trail (registry : Registry) (read : Reference → Eval CellValue) (reads : Reference → Trail) : Expr → Trail
  | .number _ => .quiet
  | .text _ _ => .quiet
  | .ref r => reads r
  | .negate e => Traced.numberTrail ⟨⟨e.isText, e.eval registry read⟩, e.trail registry read reads⟩
  | .binary op l r =>
    Traced.operatorTrail op ⟨⟨l.isText, l.eval registry read⟩, l.trail registry read reads⟩
      ⟨⟨r.isText, r.eval registry read⟩, r.trail registry read reads⟩
  | .call name args _ => Traced.callTrail registry name (Expr.tracedAll registry read reads args)

/-- The operands that some expressions are, with their accesses. -/
def Expr.tracedAll (registry : Registry) (read : Reference → Eval CellValue) (reads : Reference → Trail) :
    List Expr → List Traced
  | [] => []
  | e :: rest =>
    ⟨⟨e.isText, e.eval registry read⟩, e.trail registry read reads⟩ :: Expr.tracedAll registry read reads rest

end

end Formula

/-- The accesses of the evaluation of a formula body at a row. -/
abbrev BodyTrail := String → RowSite → Trail

namespace Scope

/-- The accesses inside a cell. There are none if it holds data, if the memo knows it, or if the guard refuses it. -/
def insideTrail (inner : BodyTrail) (cell : CellSite) : Trail := fun w =>
  match cell.source, w.known? cell.key with
  | .formula body, none => Trail.within cell.visit (inner body cell.site) w
  | _, _ => []

section Inside

variable {inner : BodyTrail} {cell : CellSite} {w : Walk}

theorem insideTrail_literal {raw : RawCell} (hs : cell.source = .literal raw) : insideTrail inner cell w = [] := by
  simp only [insideTrail, hs]

theorem insideTrail_known {o : Except Failure CellValue} (h : w.known? cell.key = some o) :
    insideTrail inner cell w = [] := by
  unfold insideTrail
  rw [h]
  split
  · next hk => cases hk
  · rfl

theorem insideTrail_fresh {body : String} (hs : cell.source = .formula body) (h : w.known? cell.key = none) :
    insideTrail inner cell w = Trail.within cell.visit (inner body cell.site) w := by
  simp only [insideTrail, hs, h]

end Inside

/-- The accesses of reading a cell: those inside it, and the one to the cell. -/
def cellTrail (evaluate : Evaluator) (inner : BodyTrail) (cell : CellSite) : Trail := fun w =>
  insideTrail inner cell w ++ [⟨cell, (cellValue evaluate cell w).1, (cellValue evaluate cell w).2.memo⟩]

/-- The accesses of reading the cell that a reference leads to. -/
def readTrail (scope : Scope) (evaluate : Evaluator) (inner : BodyTrail) (site : Option RowSite) (r : Reference) :
    Trail :=
  Trail.quiet.andThen (Eval.ofExcept (scope.target site r)) (cellTrail evaluate inner)

/-- The accesses of a formula body, through at most so many formula cells that wait for each other. -/
def chainedTrail (scope : Scope) (registry : Registry) : Nat → BodyTrail
  | 0, _, _ => .quiet
  | room + 1, body, site =>
    Trail.quiet.andThen (Eval.ofExcept ((parse registry body).mapError .parse))
      fun e => e.trail registry (scope.read (scope.chained registry room) site)
        (scope.readTrail (scope.chained registry room) (scope.chainedTrail registry room) site)

/-- The accesses of an expression at a row, or nowhere. -/
def valueTrail (scope : Scope) (registry : Registry) (site : Option RowSite) (e : Expr) : Trail :=
  e.trail registry (scope.read (scope.chained registry scope.options.maxDepth) site)
    (scope.readTrail (scope.chained registry scope.options.maxDepth)
      (scope.chainedTrail registry scope.options.maxDepth) site)

end Scope

namespace Engine

/-- The accesses of an expression, inside the cell of the column that it belongs to. -/
def trailAt (engine : Engine) (workbook : Workbook) (site : Option RowSite) (columnId : Option String) (e : Expr) :
    Trail :=
  let trail := Scope.valueTrail ⟨workbook, engine.options⟩ engine.registry site e
  match site, columnId with
  | some site, some id =>
    Trail.quiet.andThen (Eval.ofExcept (ownCell site id)) fun cell => Trail.within cell.visit trail
  | _, _ => trail

/-- The accesses of the evaluation of a formula. -/
def stepsTrail (engine : Engine) (context : Option Context) (formula : String) : Trail :=
  Trail.quiet.andThen (Eval.ofExcept (context.mapM Context.site)) fun site =>
    Trail.quiet.andThen (Eval.ofExcept (engine.read formula)) fun e =>
      (engine.trailAt (context.elim Workbook.empty Context.workbook) site (context.bind Context.column) e)

/-- The accesses of the evaluation of a formula that starts with a memo. -/
def trail (engine : Engine) (memo : Option Memo) (context : Option Context) (formula : String) : List Access :=
  engine.stepsTrail context formula (engine.start memo)

end Engine

/-! ## Ways of going on -/

/-- A property of steps with their trails that the ways of going on keep. -/
structure Traceable (registry : Registry) (P : (α : Type) → Eval α → Trail → Prop) : Prop where
  quiet {α : Type} {x : Eval α} {o : Except Failure α} {notes : List Warning} :
    x.Only o notes → (∀ f, o = .error f → Raised registry f) → P α x .quiet
  sequence {α β : Type} {x : Eval α} {t : Trail} {k : α → Eval β} {next : α → Trail} :
    P α x t → (∀ a, x.Returns a → P β (k a) (next a)) → P β (x >>= k) (t.andThen x next)
  recovery {α : Type} {x : Eval α} {t : Trail} : P α x t → P (Option α) (Eval.attempt x) t

namespace Traceable

variable {registry : Registry} {P : (α : Type) → Eval α → Trail → Prop}

/-! ### Operands and operators -/

theorem value (h : Traceable registry P) {α : Type} (a : α) : P α (pure a) .quiet :=
  h.quiet (Eval.only_pure a) fun _ hf => nomatch hf

theorem failure (h : Traceable registry P) {α : Type} {f : Failure} (hf : Raised registry f) :
    P α (throw f) .quiet :=
  h.quiet (Eval.only_throw f) fun _ heq => Except.error.inj heq ▸ hf

/-- A step followed by one that reads nothing. -/
theorem last (h : Traceable registry P) {α β : Type} {x : Eval α} {t : Trail} {k : α → Eval β} (hx : P α x t)
    (hk : ∀ a, x.Returns a → P β (k a) .quiet) : P β (x >>= k) t := by
  rw [← Trail.andThen_quiet t x]
  exact h.sequence hx hk

/-- Steps that read nothing are composed of each other as all steps are. -/
theorem composable_quiet (h : Traceable registry P) :
    Composable registry fun (α : Type) (x : Unit → Eval α) => P α (x ()) .quiet where
  value := h.value
  failure := h.failure
  warning note := h.quiet (Eval.only_warn note) fun _ hf => nomatch hf
  sequence hx hk := h.last hx fun a ha => hk a ⟨(), ha⟩
  recovery hx := h.recovery hx

theorem toNumber (h : Traceable registry P) (role : Role) (v : CellValue) : P Float (v.toNumber role) .quiet :=
  h.composable_quiet.compositional.toNumber role v

theorem number (h : Traceable registry P) (role : Role) {o : Traced} (ho : P _ o.operand.value o.trail) :
    P Float (o.operand.number role) o.numberTrail := by
  cases hl : o.operand.isLiteral with
  | true => simpa only [Operand.number, Traced.numberTrail, hl, if_true] using h.failure (.literalText role)
  | false =>
    simpa only [Operand.number, Traced.numberTrail, hl, Bool.false_eq_true, if_false] using
      h.last ho fun v _ => h.toNumber role v

/-- An operation between two operands. -/
theorem operator (h : Traceable registry P) (op : Operator) {l r : Traced} (hl : P _ l.operand.value l.trail)
    (hr : P _ r.operand.value r.trail) :
    P CellValue (op.apply l.operand r.operand) (Traced.operatorTrail op l r) := by
  cases he : op.isEquality with
  | true =>
    simp only [Operator.apply, Traced.operatorTrail, he, if_true]
    refine h.sequence hl fun a _ => h.last hr fun b _ => ?_
    cases ht : comparedAsTexts a b with
    | true => simpa only [ht, if_true] using h.value _
    | false =>
      simpa only [ht, Bool.false_eq_true, if_false] using
        h.last (h.toNumber (.left op) a) fun x _ => h.last (h.toNumber (.right op) b) fun y _ => h.value _
  | false =>
    simp only [Operator.apply, Traced.operatorTrail, he, Bool.false_eq_true, if_false]
    exact h.sequence (h.number (.left op) hl) fun x _ => h.last (h.number (.right op) hr) fun y _ => h.value _

/-! ### Functions -/

/-- The choice between two operands. -/
theorem branch (h : Traceable registry P) {f : FunctionSpec} (hf : registry.find? branchKey = some f) :
    ∀ {os : List Traced}, f.accepts os.length = true → (∀ o ∈ os, P _ o.operand.value o.trail) →
      P CellValue (chooseBranch (os.map Traced.operand)) (Traced.branchTrail os)
  | [], ha, _ => h.failure (.tooFew hf (.inl rfl) ha Nat.two_pos)
  | condition :: branches, ha, hos => by
    refine h.sequence (h.number _ (hos condition (by simp))) fun x _ => ?_
    cases hx : x != 0.0 with
    | true =>
      match branches, ha, hos with
      | [], ha, _ => exact h.failure (.tooFew hf (.inl rfl) ha Nat.one_lt_two)
      | yes :: _, _, hos => exact hos yes (by simp)
    | false =>
      match branches, hos with
      | [], _ => exact h.value _
      | [_], _ => exact h.value _
      | [_, no], hos => exact hos no (by simp)
      | _ :: _ :: _ :: _, _ => exact h.value _

/-- The recovery from a failure. -/
theorem rescue (h : Traceable registry P) {f : FunctionSpec} (hf : registry.find? rescueKey = some f) :
    ∀ {os : List Traced}, f.accepts os.length = true → (∀ o ∈ os, P _ o.operand.value o.trail) →
      P CellValue (GameSheet.rescue (os.map Traced.operand)) (Traced.rescueTrail os)
  | [], ha, _ => h.failure (.tooFew hf (.inr rfl) ha Nat.two_pos)
  | value :: rest, ha, hos => by
    have fall : P CellValue (fallback (rest.map Traced.operand)) (Traced.fallbackTrail rest) := by
      match rest, ha, hos with
      | [], ha, _ => exact h.failure (.tooFew hf (.inr rfl) ha Nat.one_lt_two)
      | o :: _, _, hos => exact hos o (by simp)
    refine h.sequence (h.recovery (hos value (by simp))) fun v _ => ?_
    match v with
    | none => exact fall
    | some (.text s) => exact h.value _
    | some .empty => exact h.value _
    | some (.number x) =>
      cases hx : x.isNaN with
      | true =>
        simp only [hx, if_true]
        exact fall
      | false =>
        simp only [hx, Bool.false_eq_true, if_false]
        exact h.value _

theorem argument (h : Traceable registry P) (f : FunctionSpec) (position : Nat) {o : Traced}
    (ho : P _ o.operand.value o.trail) : P Argument (o.operand.argument f position) o.trail := by
  refine h.last ho fun v _ => ?_
  by_cases hp : position ∈ f.textArgs
  · simp only [hp, if_true]
    cases v with
    | text s => exact h.value _
    | number x => exact h.failure (.notText _)
    | empty => exact h.failure (.notText _)
  · simp only [hp, if_false]
    exact h.last (h.toNumber _ v) fun x _ => h.value _

theorem argumentsFrom (h : Traceable registry P) (f : FunctionSpec) :
    ∀ (os : List Traced) (position : Nat), (∀ o ∈ os, P _ o.operand.value o.trail) →
      P (List Argument) (GameSheet.argumentsFrom f position (os.map Traced.operand))
        (Traced.argumentsTrail f position os)
  | [], _, _ => h.value _
  | o :: os, position, hos =>
    h.sequence (h.argument f position (hos o (by simp))) fun _ _ =>
      h.last (argumentsFrom h f os (position + 1) fun o ho => hos o (by simp [ho])) fun _ _ => h.value _

/-- The call of a function. -/
theorem call (h : Traceable registry P) (key : String) {os : List Traced}
    (hos : ∀ o ∈ os, P _ o.operand.value o.trail) :
    P CellValue (applyFunction registry key (os.map Traced.operand)) (Traced.callTrail registry key os) := by
  cases hf : registry.find? key with
  | none => simpa only [applyFunction, Traced.callTrail, hf] using h.failure (.noFunction hf)
  | some f =>
    cases ha : f.accepts os.length with
    | false =>
      simpa only [applyFunction, Traced.callTrail, hf, List.length_map, ha, Bool.false_eq_true, if_false] using
        h.failure (.arity hf ha)
    | true =>
      simp only [applyFunction, Traced.callTrail, hf, List.length_map, ha, if_true]
      by_cases hb : key = branchKey
      · subst hb
        simpa only [if_true] using h.branch hf ha hos
      by_cases hr : key = rescueKey
      · subst hr
        simpa only [hb, if_false, if_true] using h.rescue hf ha hos
      simp only [hb, hr, if_false]
      cases hg : f.implementation with
      | none => exact h.failure (.notCallable hf hg)
      | some g =>
        refine h.last (h.argumentsFrom f os 0 hos) fun args hargs => ?_
        obtain ⟨hlen, hsuits⟩ := returns_argumentsFrom hargs
        rw [List.length_map] at hlen
        simp only [Nat.zero_add] at hsuits
        cases he : g args with
        | ok x => exact h.value _
        | error e => exact h.failure (.fault hf hg (hlen ▸ ha) hsuits he)

/-! ### Expressions -/

variable {read : Reference → Eval CellValue} {reads : Reference → Trail}

/-- The operands that are traced are those of the evaluation. -/
theorem operands_eq (registry : Registry) (read : Reference → Eval CellValue) (reads : Reference → Trail)
    (args : List Expr) :
    Expr.operands registry read args = (Expr.tracedAll registry read reads args).map Traced.operand := by
  induction args with
  | nil => rfl
  | cons e rest ih => simp only [Expr.operands, Expr.tracedAll, List.map_cons, ih]

mutual

/-- **What holds of the references of an expression with their trails holds of the expression with its trail.** -/
theorem eval (h : Traceable registry P) : ∀ (e : Expr), (∀ r ∈ e.references, P _ (read r) (reads r)) →
    P CellValue (e.eval registry read) (e.trail registry read reads)
  | .number x, _ => h.value _
  | .text s _, _ => h.value _
  | .ref r, hr => hr r (by simp [Expr.references])
  | .negate e, hr =>
    h.last (h.number .sign (o := ⟨⟨e.isText, e.eval registry read⟩, e.trail registry read reads⟩) (eval h e hr))
      fun _ _ => h.value _
  | .binary op l r, hr =>
    h.operator op (l := ⟨⟨l.isText, l.eval registry read⟩, l.trail registry read reads⟩)
      (r := ⟨⟨r.isText, r.eval registry read⟩, r.trail registry read reads⟩)
      (eval h l fun r hm => hr r (by simp [Expr.references, hm]))
      (eval h r fun r hm => hr r (by simp [Expr.references, hm]))
  | .call key args _, hr => by
    simp only [Expr.eval, operands_eq registry read reads]
    exact h.call key (evalAll h args hr)

/-- The same for each of several expressions. -/
theorem evalAll (h : Traceable registry P) : ∀ (args : List Expr),
    (∀ r ∈ Expr.referencesOfAll args, P _ (read r) (reads r)) →
      ∀ o ∈ Expr.tracedAll registry read reads args, P _ o.operand.value o.trail
  | [], _, _, ho => absurd ho List.not_mem_nil
  | e :: rest, hr, o, ho => by
    rcases List.mem_cons.1 ho with rfl | ho
    · exact eval h e fun r hm => hr r (by simp [Expr.referencesOfAll, hm])
    · exact evalAll h rest (fun r hm => hr r (by simp [Expr.referencesOfAll, hm])) o ho

end

end Traceable

end GameSheet
