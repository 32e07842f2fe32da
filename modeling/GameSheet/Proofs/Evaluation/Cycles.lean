import Mathlib.Data.List.Chain
import Mathlib.Data.List.TakeWhile
import GameSheet.Proofs.Evaluation.Failing

/-!
# Reported cycles are cycles

A cycle that an evaluation reports is one of the workbook (`Engine.evaluate_cycle`): the path comes back to the cell it
starts from, and the formula that is evaluated for each cell of it has a reference that leads to the next one.

The path is cut out of what is being computed when a cell is entered again. The invariant is that the guard is a trace
(`Traces`): its cells are computed each because the formula of the one outside it refers to it. A step that starts with
such a guard leaves it as it was, and a cycle that it fails with is one (`Reported`), whatever was evaluated and
recovered from before. All ways of going on keep this, so only reading a cell is left to look at: a cell that waits
already closes the trace to a cycle, and any other cell prolongs it.
-/

namespace GameSheet

open Formula

namespace Scope

/-- The formula that is evaluated for the first cell has a reference that leads to the second one. -/
def Refers (scope : Scope) (evaluated : CellSite → Expr → Prop) (c d : CellSite) : Prop :=
  ∃ e, evaluated c e ∧ ∃ r ∈ e.references, scope.target (some c.site) r = .ok d

/-- Cells of the workbook that come back to the first one, each referring to the next. -/
structure IsCycle (scope : Scope) (evaluated : CellSite → Expr → Prop) (cells : List CellSite) : Prop where
  two_le : 2 ≤ cells.length
  closed : cells.head? = cells.getLast?
  contains : ∀ c ∈ cells, scope.workbook.Contains c
  refers : cells.IsChain (scope.Refers evaluated)

end Scope

/-! ## Guards as traces -/

section Traces

variable (scope : Scope) (registry : Registry) (evaluated : CellSite → Expr → Prop)

/-- The cells that are being computed, innermost first: the formula of each refers to the one inside it. For a cell
that is not among them its own formula is what will be evaluated. -/
structure Traces (g : Guard) (cells : List CellSite) : Prop where
  stack : g.stack = cells.map CellSite.visit
  contains : ∀ c ∈ cells, scope.workbook.Contains c
  refers : cells.IsChain fun c d => scope.Refers evaluated d c
  stored : ∀ d body e, scope.workbook.Contains d → d.key ∉ g.visiting → d.source = .formula body →
    parse registry body = .ok e → evaluated d e

/-- The innermost cell, if there is one, refers to the cell. -/
def Leads (cells : List CellSite) (d : CellSite) : Prop :=
  ∀ c ∈ cells.head?, scope.Refers evaluated c d

/-- If the failure is a cycle, it is one of the workbook. -/
def Reported (f : Failure) : Prop :=
  ∀ path, f = .cycle path → ∃ cells, path = cells.map CellSite.visit ∧ scope.IsCycle evaluated cells

end Traces

section Guards

variable {scope : Scope} {registry : Registry} {evaluated : CellSite → Expr → Prop} {g : Guard} {cells : List CellSite}
  {d : CellSite}

theorem Traces.visiting (h : Traces scope registry evaluated g cells) : g.visiting = cells.map CellSite.key := by
  rw [Guard.visiting, h.stack, List.map_map]
  rfl

/-- A cell of the workbook whose key waits is one of the trace. -/
theorem Traces.mem_of_visiting (h : Traces scope registry evaluated g cells) (hd : scope.workbook.Contains d)
    (hmem : d.key ∈ g.visiting) : d ∈ cells := by
  rw [h.visiting] at hmem
  obtain ⟨c, hc, hkey⟩ := List.mem_map.1 hmem
  rwa [← Workbook.eq_of_key_eq (h.contains c hc) hd hkey]

/-- From the first entry of a cell on the trace starts with the cell. -/
theorem Traces.exists_dropWhile_eq (h : Traces scope registry evaluated g cells) (hd : scope.workbook.Contains d)
    (hmem : d ∈ cells) : ∃ inner, cells.reverse.dropWhile (fun c => c.key != d.key) = d :: inner := by
  cases hdrop : cells.reverse.dropWhile (fun c => c.key != d.key) with
  | nil =>
    rw [List.dropWhile_eq_nil_iff] at hdrop
    simpa using hdrop d (List.mem_reverse.2 hmem)
  | cons c inner =>
    have hhead := List.head?_dropWhile_not (fun c => c.key != d.key) cells.reverse
    rw [hdrop] at hhead
    have hc : c ∈ cells := by
      refine List.mem_reverse.1 ((List.dropWhile_suffix fun c => c.key != d.key).subset ?_)
      rw [hdrop]
      exact List.mem_cons_self
    have hkey : c.key = d.key := by simpa using hhead
    exact ⟨inner, by rw [Workbook.eq_of_key_eq (h.contains c hc) hd hkey]⟩

/-- **A cell that is entered again closes a cycle**, which is what the guard reports. -/
theorem Traces.isCycle_cycleTo (h : Traces scope registry evaluated g cells) (hd : scope.workbook.Contains d)
    (hmem : d.key ∈ g.visiting) (hleads : Leads scope evaluated cells d) :
    ∃ path, g.cycleTo d.visit = path.map CellSite.visit ∧ scope.IsCycle evaluated path := by
  obtain ⟨inner, hdrop⟩ := h.exists_dropWhile_eq hd (h.mem_of_visiting hd hmem)
  have hsuffix : d :: inner <:+ cells.reverse := hdrop ▸ List.dropWhile_suffix _
  have hchain : (d :: inner).IsChain (scope.Refers evaluated) :=
    (List.isChain_reverse.2 h.refers).suffix hsuffix
  -- the innermost cell of the trace is the last one of the part that is cut out
  have hlast : (d :: inner).getLast? = cells.head? := by
    obtain ⟨outer, houter⟩ := hsuffix
    rw [← List.getLast?_reverse, ← houter, List.getLast?_append_of_ne_nil _ (List.cons_ne_nil d inner)]
  refine ⟨d :: inner ++ [d], ?_, ⟨by simp, by rw [List.getLast?_concat]; rfl, ?_, ?_⟩⟩
  · rw [Guard.cycleTo, h.stack, ← List.map_reverse, List.dropWhile_map]
    rw [List.map_append, ← hdrop]
    rfl
  · intro c hc
    rcases List.mem_append.1 hc with hc | hc
    · exact h.contains c (List.mem_reverse.1 (hsuffix.subset hc))
    · rwa [List.mem_singleton.1 hc]
  · refine hchain.append (List.isChain_singleton d) fun c hc d' hd' => ?_
    rw [hlast] at hc
    cases hd'
    exact hleads c hc

/-- **A cell that is entered prolongs the trace.** -/
theorem Traces.enter (h : Traces scope registry evaluated g cells) (hd : scope.workbook.Contains d)
    (hleads : Leads scope evaluated cells d) {inside : Guard} (he : g.enter d.visit = .ok inside) :
    Traces scope registry evaluated inside (d :: cells) := by
  have hvisiting := Guard.visiting_enter he
  refine ⟨?_, List.forall_mem_cons.2 ⟨hd, h.contains⟩, List.isChain_cons.2 ⟨hleads, h.refers⟩, ?_⟩
  · rw [Guard.stack_enter he, h.stack, List.map_cons]
  · intro c body e hc hmem
    rw [hvisiting, List.mem_cons, not_or] at hmem
    exact h.stored c body e hc hmem.2

end Guards

/-! ## Expressions -/

section Runs

variable {scope : Scope} {registry : Registry} {evaluated : CellSite → Expr → Prop} {g : Guard} {cells : List CellSite}

/-- What arises at one place of a formula is no cycle. -/
theorem ordinary_reported (scope : Scope) (registry : Registry) (evaluated : CellSite → Expr → Prop) :
    Ordinary registry (Reported scope evaluated) where
  raised hf path h := by
    subst h
    cases hf
  parse _ _ h := nomatch h
  reference _ _ h := nomatch h
  overflow _ _ h := nomatch h
  depth _ _ h := nomatch h

/-- The innermost cell of the trace refers to all cells to which the expression leads from the site. -/
def LeadsFrom (scope : Scope) (evaluated : CellSite → Expr → Prop) (cells : List CellSite) (site : Option RowSite)
    (e : Expr) : Prop :=
  ∀ r ∈ e.references, ∀ d, scope.target site r = .ok d → Leads scope evaluated cells d

/-- The expression that is evaluated for a cell leads from its row to cells that it refers to. -/
theorem leadsFrom_evaluated {c : CellSite} {e : Expr} (h : evaluated c e) :
    LeadsFrom scope evaluated (c :: cells) (some c.site) e := by
  intro r hr d hd c' hc'
  cases hc'
  exact ⟨e, h, r, hr, hd⟩

/-- An expression reports cycles only if the bodies of the cells do to which it leads. -/
theorem reportsCycles_expr {evaluate : Evaluator} {site : Option RowSite} {e : Expr}
    (htraces : Traces scope registry evaluated g cells) (hsite : ∀ s, site = some s → s.sheet ∈ scope.workbook.sheets)
    (hleads : LeadsFrom scope evaluated cells site e)
    (h : ∀ d body inside, scope.workbook.Contains d → Leads scope evaluated cells d → d.source = .formula body →
      g.enter d.visit = .ok inside → FailsWith (Reported scope evaluated) inside (evaluate body d.site)) :
    FailsWith (Reported scope evaluated) g (e.eval registry (scope.read evaluate site)) := by
  have hkind := ordinary_reported scope registry evaluated
  refine .expr hkind fun r hr d ht => .cell hkind (fun hmem path hpath => ?_) fun body inside hs he => ?_
  · cases hpath
    exact htraces.isCycle_cycleTo (Scope.contains_of_target hsite ht) hmem (hleads r hr d ht)
  · exact h d body inside (Scope.contains_of_target hsite ht) (hleads r hr d ht) hs he

/-- **An expression reports cycles only**, through any number of formula cells. -/
theorem reportsCycles_eval (room : Nat) : ∀ {g : Guard} {cells : List CellSite} {site : Option RowSite} {e : Expr},
    Traces scope registry evaluated g cells → (∀ s, site = some s → s.sheet ∈ scope.workbook.sheets) →
      LeadsFrom scope evaluated cells site e →
        FailsWith (Reported scope evaluated) g (e.eval registry (scope.read (scope.chained registry room) site)) := by
  have hkind := ordinary_reported scope registry evaluated
  induction room with
  | zero =>
    intro g cells site e htraces hsite hleads
    exact reportsCycles_expr htraces hsite hleads fun d body inside _ _ _ _ => .throw (hkind.depth _)
  | succ room ih =>
    intro g cells site e htraces hsite hleads
    refine reportsCycles_expr htraces hsite hleads fun d body inside hd hleads hs he => .body hkind fun e' hparse => ?_
    refine ih (htraces.enter hd hleads he) (fun s hsite => ?_) (leadsFrom_evaluated ?_)
    · cases hsite
      exact hd.1
    · exact htraces.stored d body e' hd (Guard.enter_ok he).1 hs hparse

end Runs

/-! ## The report of an evaluation -/

theorem Failure.exists_cycle_of_code {f : Failure} (h : f.code = "cycle_error") : ∃ path, f = .cycle path := by
  unfold Failure.code at h
  split at h <;> first | exact ⟨_, rfl⟩ | simp at h

theorem Failure.message_cycle (path : List Visit) :
    (cycle path).message = "circular reference: " ++ " -> ".intercalate (path.map Visit.label) :=
  rfl

namespace Engine

variable {engine : Engine} {context : Option Context} {formula : String}

/-- The formula that is evaluated for a cell: for the cell that the given formula belongs to, the given formula, and
for any other formula cell its body. -/
inductive Evaluated (engine : Engine) (context : Option Context) (formula : String) : CellSite → Expr → Prop
  | given {c : Context} {cell : CellSite} {e : Expr} :
      context = some c → c.Owns cell → engine.read formula = .ok e → Evaluated engine context formula cell e
  | stored {cell : CellSite} {body : String} {e : Expr} :
      (∀ c, context = some c → ¬c.Owns cell) → cell.source = .formula body → parse engine.registry body = .ok e →
        Evaluated engine context formula cell e

/-- An empty guard is a trace where the formula belongs to no cell. -/
theorem traces_nil {w : Workbook} (h : ∀ c, context = some c → ∀ cell, ¬c.Owns cell) (limit : Int) :
    Traces ⟨w, engine.options⟩ engine.registry (engine.Evaluated context formula) ⟨limit, []⟩ [] where
  stack := rfl
  contains := fun _ h => absurd h List.not_mem_nil
  refers := .nil
  stored := fun d _ _ _ _ hs he => .stored (fun c hc => h c hc d) hs he

/-- Inside the cell that the formula belongs to the guard is a trace. -/
theorem traces_own {c : Context} {own : CellSite} (hown : c.Owns own) {limit : Int} {inside : Guard}
    (he : Guard.enter ⟨limit, []⟩ own.visit = .ok inside) :
    Traces ⟨c.workbook, engine.options⟩ engine.registry (engine.Evaluated (some c) formula) inside [own] where
  stack := Guard.stack_enter he
  contains := List.forall_mem_singleton.2 hown.contains
  refers := List.isChain_singleton own
  stored := fun d _ _ hd hmem hs hparse => by
    refine .stored (fun c' hc' hd' => hmem ?_) hs hparse
    cases hc'
    rw [Guard.visiting_enter he, hd'.eq hown]
    exact List.mem_cons_self

/-- Outside all cells an expression reports cycles only. -/
theorem reportsCycles_outside {w : Workbook} (howns : ∀ c, context = some c → ∀ cell, ¬c.Owns cell)
    {site : Option RowSite} (hsite : ∀ s, site = some s → s.sheet ∈ w.sheets) (limit : Int) (e : Expr) :
    FailsWith (Reported ⟨w, engine.options⟩ (engine.Evaluated context formula)) ⟨limit, []⟩
      (Scope.value ⟨w, engine.options⟩ engine.registry site e) :=
  reportsCycles_eval _ (traces_nil howns limit) hsite fun _ _ _ _ _ hc => by cases hc

/-- Inside the cell that the formula belongs to its expression reports cycles only. -/
theorem reportsCycles_inside {c : Context} {own : CellSite} (hown : c.Owns own) {e : Expr}
    (he : engine.read formula = .ok e) (limit : Int) :
    FailsWith (Reported ⟨c.workbook, engine.options⟩ (engine.Evaluated (some c) formula)) ⟨limit, []⟩
      (Eval.within own.visit (Scope.value ⟨c.workbook, engine.options⟩ engine.registry (some own.site) e)) := by
  refine .within (fun _ _ h => nomatch h) (fun hmem => absurd hmem List.not_mem_nil) fun inside henter => ?_
  refine reportsCycles_eval _ (traces_own hown henter) (fun s hs => ?_) (leadsFrom_evaluated (.given rfl hown he))
  cases hs
  exact hown.contains.1

/-- The formula of a call reports cycles only, in the cell that it belongs to or in none. -/
theorem reportsCycles_valueAt {c : Context} {site : RowSite} (hsite : c.site = .ok site) {e : Expr}
    (he : engine.read formula = .ok e) :
    FailsWith (Reported ⟨c.workbook, engine.options⟩ (engine.Evaluated (some c) formula)) ⟨engine.options.maxDepth, []⟩
      (engine.valueAt c.workbook (some site) c.column e) := by
  cases hid : c.column with
  | none =>
    refine reportsCycles_outside (fun c' hc' cell hcell => ?_) (fun s hs => ?_) _ e
    · obtain ⟨_, id, _, hid', _⟩ := hcell
      cases hc'
      rw [hid] at hid'
      cases hid'
    · cases hs
      exact sheet_mem_of_site hsite
  | some id =>
    cases hcell : ownCell site id with
    | error f =>
      rw [valueAt_of_ownCell_error hcell]
      exact .throw ((ordinary_reported _ engine.registry _).of_searches (searches_ownCell c.workbook) hcell)
    | ok own =>
      rw [valueAt_of_ownCell hcell]
      obtain ⟨rfl, -⟩ := ownCell_ok hcell
      exact reportsCycles_inside ⟨_, id, hsite, hid, hcell⟩ he _

/-- **An evaluation reports cycles only.** -/
theorem reportsCycles_steps (engine : Engine) (context : Option Context) (formula : String) :
    FailsWith
      (Reported ⟨context.elim Workbook.empty Context.workbook, engine.options⟩ (engine.Evaluated context formula))
      ⟨engine.options.maxDepth, []⟩ (engine.steps context formula) := by
  have hkind := ordinary_reported ⟨context.elim Workbook.empty Context.workbook, engine.options⟩ engine.registry
    (engine.Evaluated context formula)
  have hfinal : ∀ f, f.isFinal = true → Reported ⟨context.elim Workbook.empty Context.workbook, engine.options⟩
      (engine.Evaluated context formula) f := by
    rintro _ hf path rfl
    cases hf
  cases context with
  | none =>
    rw [steps_none]
    refine failsWith_stepsWith hkind hfinal fun e _ => ?_
    exact reportsCycles_outside (fun c h => by cases h) (fun s h => by cases h) _ e
  | some c =>
    cases hsite : c.site with
    | error f =>
      rw [steps_of_site_error hsite]
      exact .throw (hkind.of_searches (searches_site c) hsite)
    | ok site =>
      rw [steps_of_site hsite]
      exact failsWith_stepsWith hkind hfinal fun e he => reportsCycles_valueAt hsite he

/-- **Reported cycles are cycles.** Where the evaluation of a formula fails with a cycle, the failure names cells of the
workbook of which the first is also the last, and the formula that is evaluated for each of them has a reference that
leads from its row to the next one. -/
theorem evaluate_cycle (engine : Engine) (context : Option Context) (formula : String) {f : Failure}
    (h : engine.evaluate context formula = .failed f) (hcode : f.code = "cycle_error") :
    ∃ cells : List CellSite,
      f.message = "circular reference: " ++ " -> ".intercalate (cells.map CellSite.label) ∧
        Scope.IsCycle ⟨context.elim Workbook.empty Context.workbook, engine.options⟩
          (engine.Evaluated context formula) cells := by
  obtain ⟨path, rfl⟩ := Failure.exists_cycle_of_code hcode
  have hcycles := (reportsCycles_steps engine context formula (engine.start none) rfl rfl).2.2
  obtain ⟨cells, rfl, hcycle⟩ := hcycles _ (steps_of_evaluate h) path rfl
  refine ⟨cells, ?_, hcycle⟩
  rw [Failure.message_cycle, List.map_map]
  rfl

end Engine

/-! ## A loop -/

section Loop

/-- A sheet of one row whose two columns refer to each other. -/
def loopSheet : Sheet where
  id := "loop"
  name := "Loop"
  columns := [⟨"a", "A", .formula, some "=B"⟩, ⟨"b", "B", .formula, some "=A"⟩]
  rows := [⟨"first", []⟩]
  columnNames_nodup := by decide
  columnIds_nodup := by decide
  rowIds_nodup := by simp

/-- The workbook of the loop. -/
def loop : Workbook := ⟨[loopSheet], by simp, by simp⟩

theorem evaluate_loop : Engine.evaluate {} (some ⟨loop, "loop", "first", none⟩) "IFERROR(B, A)" =
    .failed (.cycle [⟨⟨"loop", "first", "b"⟩, "Loop!first/B"⟩, ⟨⟨"loop", "first", "a"⟩, "Loop!first/A"⟩,
      ⟨⟨"loop", "first", "b"⟩, "Loop!first/B"⟩]) := by cbv

/-- A formula that reaches the loop through its second column reports the loop from there on. -/
theorem evaluate_cycle_loop : ∃ cells : List CellSite,
    Failure.message (.cycle [⟨⟨"loop", "first", "b"⟩, "Loop!first/B"⟩, ⟨⟨"loop", "first", "a"⟩, "Loop!first/A"⟩,
      ⟨⟨"loop", "first", "b"⟩, "Loop!first/B"⟩]) =
        "circular reference: " ++ " -> ".intercalate (cells.map CellSite.label) ∧
      Scope.IsCycle ⟨loop, .standard⟩ (Engine.Evaluated {} (some ⟨loop, "loop", "first", none⟩) "IFERROR(B, A)") cells :=
  Engine.evaluate_cycle {} (some ⟨loop, "loop", "first", none⟩) "IFERROR(B, A)" evaluate_loop rfl

end Loop

end GameSheet
