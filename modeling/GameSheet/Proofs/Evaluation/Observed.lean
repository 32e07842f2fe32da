import GameSheet.Proofs.Evaluation.Composition
import GameSheet.Proofs.Formula.Restricted
import GameSheet.Proofs.Workbook.Cells

/-!
# Observed evaluations

An observer is told of every call and of every reference when an evaluation comes to it, before a function is applied
or a cell is read, and may do anything that a step of an evaluation may do: raise a failure, say, or leave a note
(`Observer`). The observed evaluation is the evaluation with these steps put in (`Engine.observed`).

* An observer that does nothing at the calls and references of the formulas of a registry changes nothing
  (`observed_eq_steps`).
* **A restricted registry is a sandbox** (`Registry.subset_sandbox`): it parses the trees that use no functions but
  those of the names, and an observer that may act at anything else never acts. So no evaluation comes to such a call
  or reference, also not inside the cells that it computes on its way.
-/

namespace GameSheet

open Formula

/-- A step that is taken before a function is called or a reference is followed. -/
abbrev Observer := Deed → Eval Unit

/-! ## Evaluations with an observer -/

namespace Formula

mutual

/-- The value of an expression in front of an observer. -/
def Expr.observed (observe : Observer) (registry : Registry) (read : Reference → Eval CellValue) :
    Expr → Eval CellValue
  | .number x => pure (.number x)
  | .text s _ => pure (.text s)
  | .ref r => do
    observe (.follow r)
    read r
  | .negate e => (Operand.mk e.isText (e.observed observe registry read)).negate
  | .binary op l r =>
    op.apply (Operand.mk l.isText (l.observed observe registry read))
      (Operand.mk r.isText (r.observed observe registry read))
  | .call key args _ => do
    observe (.call key)
    applyFunction registry key (Expr.observedOperands observe registry read args)

/-- The operands that some expressions are in front of an observer. -/
def Expr.observedOperands (observe : Observer) (registry : Registry) (read : Reference → Eval CellValue) :
    List Expr → List Operand
  | [] => []
  | e :: rest => Operand.mk e.isText (e.observed observe registry read) ::
      Expr.observedOperands observe registry read rest

end

end Formula

namespace Scope

/-- The value of a formula body in front of an observer, through at most so many formula cells. -/
def observedChain (scope : Scope) (observe : Observer) (registry : Registry) : Nat → Evaluator
  | 0, _, _ => throw (.depth scope.options.maxDepth)
  | room + 1, body, site => do
    let e ← Eval.ofExcept ((parse registry body).mapError .parse)
    e.observed observe registry (scope.read (scope.observedChain observe registry room) site)

/-- The value of an expression at a row, or nowhere, in front of an observer. -/
def observedValue (scope : Scope) (observe : Observer) (registry : Registry) (site : Option RowSite) (e : Expr) :
    Eval CellValue :=
  e.observed observe registry (scope.read (scope.observedChain observe registry scope.options.maxDepth) site)

end Scope

namespace Engine

/-- The value of an expression inside the cell of the column that it belongs to, in front of an observer. -/
def observedAt (engine : Engine) (observe : Observer) (workbook : Workbook) (site : Option RowSite)
    (columnId : Option String) (e : Expr) : Eval CellValue :=
  let step := Scope.observedValue ⟨workbook, engine.options⟩ observe engine.registry site e
  match site, columnId with
  | some site, some id => do
    let cell ← Eval.ofExcept (ownCell site id)
    Eval.within ⟨cell.key, cell.label⟩ step
  | _, _ => step

/-- The steps of an evaluation in front of an observer. -/
def observed (engine : Engine) (observe : Observer) (context : Option Context) (formula : String) : Eval CellValue := do
  let site ← Eval.ofExcept (context.mapM Context.site)
  let e ← Eval.ofExcept (engine.read formula)
  let v ← engine.observedAt observe (context.elim Workbook.empty Context.workbook) site (context.bind Context.column) e
  Eval.ofExcept (engine.checkResult v)

end Engine

/-! ## Silent observers -/

/-- The observer does nothing at any call or reference of a formula of the registry. -/
def Observer.SilentOn (observe : Observer) (registry : Registry) : Prop :=
  ∀ body e, parse registry body = .ok e → ∀ d ∈ e.deeds, observe d = pure ()

section Silent

variable {observe : Observer} {registry : Registry}

mutual

/-- An observer that does nothing at the calls and references of an expression does not change its value. -/
theorem Formula.Expr.observed_eq_eval {read : Reference → Eval CellValue} : (e : Expr) →
    (∀ d ∈ e.deeds, observe d = pure ()) → e.observed observe registry read = e.eval registry read
  | .number _, _ => rfl
  | .text _ _, _ => rfl
  | .ref r, h => by
    rw [Expr.observed, Expr.eval, h (.follow r) (List.mem_singleton_self _), pure_bind]
  | .negate e, h => by rw [Expr.observed, Expr.eval, Expr.observed_eq_eval e h]
  | .binary op l r, h => by
    obtain ⟨hl, hr⟩ := List.forall_mem_append.1 h
    rw [Expr.observed, Expr.eval, Expr.observed_eq_eval l hl, Expr.observed_eq_eval r hr]
  | .call key args _, h => by
    obtain ⟨hcall, hargs⟩ := List.forall_mem_cons.1 h
    rw [Expr.observed, Expr.eval, hcall, pure_bind, Expr.observedOperands_eq_operands args hargs]

/-- The same for the operands that some expressions are. -/
theorem Formula.Expr.observedOperands_eq_operands {read : Reference → Eval CellValue} : (es : List Expr) →
    (∀ d ∈ Expr.deedsOfAll es, observe d = pure ()) →
      Expr.observedOperands observe registry read es = Expr.operands registry read es
  | [], _ => rfl
  | e :: rest, h => by
    obtain ⟨he, hrest⟩ := List.forall_mem_append.1 h
    rw [Expr.observedOperands, Expr.operands, Expr.observed_eq_eval e he, Expr.observedOperands_eq_operands rest hrest]

end

variable (hsilent : observe.SilentOn registry)

include hsilent

/-- Chained formulas are read under the same registry. -/
theorem observedChain_eq_chained (scope : Scope) (room : Nat) :
    scope.observedChain observe registry room = scope.chained registry room := by
  induction room with
  | zero => rfl
  | succ room ih =>
    funext body site
    rw [Scope.observedChain, Scope.chained, ih]
    cases hparse : parse registry body with
    | error e => rfl
    | ok e => exact Expr.observed_eq_eval e (hsilent body e hparse)

theorem observedAt_eq_valueAt {engine : Engine} (hregistry : engine.registry = registry) {workbook : Workbook}
    {site : Option RowSite} {columnId : Option String} {e : Expr} (he : ∀ d ∈ e.deeds, observe d = pure ()) :
    engine.observedAt observe workbook site columnId e = engine.valueAt workbook site columnId e := by
  subst hregistry
  have hvalue : Scope.observedValue ⟨workbook, engine.options⟩ observe engine.registry site e =
      Scope.value ⟨workbook, engine.options⟩ engine.registry site e := by
    rw [Scope.observedValue, Scope.value, observedChain_eq_chained hsilent, Expr.observed_eq_eval e he]
  cases site <;> cases columnId <;> simp only [Engine.observedAt, Engine.valueAt, hvalue]

/-- **An observer that does nothing changes nothing.** -/
theorem observed_eq_steps {engine : Engine} (hregistry : engine.registry = registry) (context : Option Context)
    (formula : String) : engine.observed observe context formula = engine.steps context formula := by
  unfold Engine.observed Engine.steps
  refine Eval.bind_congr fun site _ => Eval.bind_congr fun e he => ?_
  have hparse := Engine.parse_of_read he.of_ofExcept
  rw [hregistry] at hparse
  rw [observedAt_eq_valueAt hsilent hregistry (hsilent _ e hparse)]

end Silent

/-! ## The sandbox -/

/-- The deed uses no function, or one of the names. -/
def Formula.Deed.Permitted (names : List String) (d : Deed) : Prop :=
  ∀ key ∈ d.callee?, key ∈ names.map Text.upper

theorem Formula.Expr.UsesOnly.permitted {names : List String} {e : Expr} (h : e.UsesOnly names) :
    ∀ d ∈ e.deeds, d.Permitted names :=
  fun _ hd key hkey => h key (List.mem_filterMap.2 ⟨_, hd, hkey⟩)

/-- The formulas of a restricted registry do nothing that is not permitted. -/
theorem Observer.silentOn_subset {observe : Observer} {registry : Registry} {names : List String}
    (h : ∀ d : Deed, d.Permitted names → observe d = pure ()) : observe.SilentOn (registry.subset names) :=
  fun _ _ hparse d hd => h d ((parse_subset_iff.1 hparse).2.permitted d hd)

/-- **A restricted registry is a sandbox.**

* It parses a body to a tree exactly if the registry does and each function that the tree uses has one of the names,
  whatever the case of the letters. A reference to another sheet uses `REF`.
* No evaluation under it does anything else. An observer that is told of every call before the function is applied, and
  of every reference before its cell is looked for, and that does nothing where the names permit it, changes no
  evaluation, in whatever state and with whatever memo it starts; this holds for one that raises an alarm, or takes a
  note, at everything that is not permitted. -/
theorem Registry.subset_sandbox (registry : Registry) (names : List String) :
    (∀ body e, parse (registry.subset names) body = .ok e ↔
      parse registry body = .ok e ∧ ∀ key ∈ e.callees, key ∈ names.map Text.upper) ∧
    ∀ observe : Observer, (∀ d : Deed, d.Permitted names → observe d = pure ()) →
      ∀ engine : Engine, engine.registry = registry.subset names → ∀ context formula,
        engine.observed observe context formula = engine.steps context formula :=
  ⟨fun _ _ => parse_subset_iff, fun _ hobserve _ hregistry context formula =>
    observed_eq_steps (Observer.silentOn_subset hobserve) hregistry context formula⟩

/-- An observer that raises an alarm at every function but `IF`. -/
def branchAlarm : Observer := fun d =>
  match d.callee? with
  | none => pure ()
  | some key => if key = branchKey then pure () else throw (.noFunction key)

/-- Where nothing but `IF` is permitted the alarm is never raised. It is raised in front of the reference in a branch
where everything is permitted. -/
theorem Registry.subset_sandbox_branch :
    (∃ e, parse (Registry.standard.subset ["if"]) "If(Net, Tax, Net)" = .ok e) ∧
    (∀ e, parse (Registry.standard.subset ["if"]) "IF(1, REF(Items, first, Net))" ≠ .ok e) ∧
    (∀ context formula, Engine.observed ⟨Registry.standard.subset ["if"], .standard⟩ branchAlarm context formula =
      Engine.steps ⟨Registry.standard.subset ["if"], .standard⟩ context formula) ∧
    (Engine.observed {} branchAlarm none "IF(1, REF(Items, first, Net))" (Engine.start {} none)).1 =
      .error (.noFunction referenceKey) := by
  obtain ⟨hparse, hobserve⟩ := Registry.subset_sandbox .standard ["if"]
  have hnames : ["if"].map Text.upper = [branchKey] := by decide
  obtain ⟨e, he, hcallees⟩ : ∃ e, parse .standard "If(Net, Tax, Net)" = .ok e ∧ e.callees = [branchKey] :=
    map_eq_ok_iff.1 (by decide +kernel)
  obtain ⟨e', he', hcallees'⟩ : ∃ e, parse .standard "IF(1, REF(Items, first, Net))" = .ok e ∧
      e.callees = [branchKey, referenceKey] := map_eq_ok_iff.1 (by decide +kernel)
  refine ⟨⟨e, (hparse _ _).2 ⟨he, by simp [hnames, hcallees]⟩⟩, fun t ht => ?_, hobserve branchAlarm ?_ _ rfl,
    by decide +kernel⟩
  · obtain ⟨ht, hkeys⟩ := (hparse _ _).1 ht
    cases he'.symm.trans ht
    have hmem := hkeys referenceKey (by simp [hcallees'])
    rw [hnames] at hmem
    exact absurd hmem (by decide)
  · intro d hd
    unfold branchAlarm
    cases hkey : d.callee? with
    | none => rfl
    | some key =>
      have hmem := hd key hkey
      rw [hnames, List.mem_singleton] at hmem
      simp only [hmem, if_true]

end GameSheet
