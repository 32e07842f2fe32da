import Mathlib.Data.List.FinRange
import Mathlib.Data.List.Perm.Subperm
import Mathlib.Data.List.ProdSigma
import GameSheet.Proofs.Evaluation.Cycles

/-!
# Refused chains are long

An evaluation that is refused for its depth has come through a chain of formula cells that is longer than the limit
(`Engine.evaluate_depth`): the formula refers to the first of them, the body of each refers to the next one, and no cell
is there twice. So a workbook with no more formula cells than the limit is never refused, whatever cycles it has.

The chain is what is being computed when the last cell is refused. The invariant is that the cells in the guard are such
a chain (`Descends`). A cell that waits already is refused for its cycle before its depth is looked at, so the cell that
is refused for its depth is a new one and prolongs the chain; and the guard is full then, so that the chain has one cell
more than the limit allows.
-/

namespace GameSheet

open Formula

/-- A cell is refused for its depth only where it does not wait for itself and where the guard is full. -/
theorem Guard.enter_depth {g : Guard} {v : Visit} {limit : Int} (h : g.enter v = .error (.depth limit)) :
    v.key ∉ g.visiting ∧ g.limit ≤ g.depth := by
  unfold enter at h
  split at h
  · cases h
  · next hmem =>
    split at h
    · next hfull => exact ⟨hmem, hfull⟩
    · cases h

/-! ## Chains of formula cells -/

/-- The cell is a formula cell, and its body is parsed to the expression. -/
def Stores (registry : Registry) (c : CellSite) (e : Expr) : Prop :=
  ∃ body, c.source = .formula body ∧ parse registry body = .ok e

/-- Distinct formula cells of the workbook: the expression at the row has a reference that leads to the first one, and
the body of each has a reference that leads from its row to the next one. -/
structure Scope.IsChainFrom (scope : Scope) (registry : Registry) (site : RowSite) (e : Expr)
    (cells : List CellSite) : Prop where
  contains : ∀ c ∈ cells, scope.workbook.Contains c
  formulas : ∀ c ∈ cells, ∃ body, c.source = .formula body
  distinct : (cells.map CellSite.key).Nodup
  starts : ∀ c ∈ cells.head?, ∃ r ∈ e.references, scope.target (some site) r = .ok c
  refers : cells.IsChain (scope.Refers (Stores registry))

section Chains

variable {scope : Scope} {registry : Registry} {site : RowSite} {e : Expr} {cells : List CellSite} {d : CellSite}

/-- The cell may come next in the chain. -/
def Scope.Continues (scope : Scope) (registry : Registry) (site : RowSite) (e : Expr) (cells : List CellSite)
    (d : CellSite) : Prop :=
  (∀ c ∈ cells.getLast?, scope.Refers (Stores registry) c d) ∧
    (cells = [] → ∃ r ∈ e.references, scope.target (some site) r = .ok d)

theorem Scope.isChainFrom_nil : scope.IsChainFrom registry site e [] where
  contains := List.forall_mem_nil _
  formulas := List.forall_mem_nil _
  distinct := List.nodup_nil
  starts := fun _ h => nomatch h
  refers := .nil

/-- **A new formula cell prolongs a chain.** -/
theorem Scope.IsChainFrom.concat (h : scope.IsChainFrom registry site e cells) (hd : scope.workbook.Contains d)
    {body : String} (hs : d.source = .formula body) (hnew : d.key ∉ cells.map CellSite.key)
    (hnext : scope.Continues registry site e cells d) : scope.IsChainFrom registry site e (cells ++ [d]) where
  contains := List.forall_mem_append.2 ⟨h.contains, List.forall_mem_singleton.2 hd⟩
  formulas := List.forall_mem_append.2 ⟨h.formulas, List.forall_mem_singleton.2 ⟨body, hs⟩⟩
  distinct := by
    rw [List.map_append, List.map_singleton]
    exact List.nodup_append.2 ⟨h.distinct, List.nodup_singleton _, fun a ha b hb => by
      rw [List.mem_singleton.1 hb]
      exact fun heq => hnew (heq ▸ ha)⟩
  starts := by
    intro c hc
    cases cells with
    | nil =>
      cases hc
      exact hnext.2 rfl
    | cons b cells => exact h.starts c hc
  refers := h.refers.append (List.isChain_singleton d) fun c hc d' hd' => by
    cases hd'
    exact hnext.1 c hc

end Chains

/-! ## The guard as a chain -/

/-- The cells that are being computed, outermost first, are a chain from the expression, and there is room for them. -/
structure Descends (scope : Scope) (registry : Registry) (site : RowSite) (e : Expr) (g : Guard)
    (cells : List CellSite) : Prop where
  stack : g.stack.reverse = cells.map CellSite.visit
  limit : g.limit = scope.options.maxDepth
  room : cells.length ≤ scope.options.maxDepth
  chain : scope.IsChainFrom registry site e cells

/-- If the failure is a refusal for depth, there is a chain with one cell more than the limit allows. -/
def RefusedChain (scope : Scope) (registry : Registry) (site : RowSite) (e : Expr) (f : Failure) : Prop :=
  ∀ limit, f = .depth limit →
    ∃ cells, cells.length = scope.options.maxDepth + 1 ∧ scope.IsChainFrom registry site e cells

/-- Where an expression is evaluated, the cells to which it leads continue the chain in the guard. -/
def OnChain (scope : Scope) (registry : Registry) (site : RowSite) (e : Expr) (g : Guard) (place : Option RowSite)
    (e' : Expr) : Prop :=
  (∀ s, place = some s → s.sheet ∈ scope.workbook.sheets) ∧
    ∃ cells, Descends scope registry site e g cells ∧
      ∀ r ∈ e'.references, ∀ d, scope.target place r = .ok d → scope.Continues registry site e cells d

section Guards

variable {scope : Scope} {registry : Registry} {site : RowSite} {e : Expr} {g : Guard} {cells : List CellSite}
  {d : CellSite} {body : String}

namespace Descends

theorem depth (h : Descends scope registry site e g cells) : g.depth = cells.length := by
  rw [Guard.depth, ← List.length_reverse, h.stack, List.length_map]

theorem mem_visiting (h : Descends scope registry site e g cells) {key : CellKey} :
    key ∈ g.visiting ↔ key ∈ cells.map CellSite.key := by
  rw [Guard.visiting, ← List.mem_reverse, ← List.map_reverse, h.stack, List.map_map]
  rfl

/-- A cell that is entered prolongs the chain in the guard. -/
theorem enter (h : Descends scope registry site e g cells) (hd : scope.workbook.Contains d)
    (hs : d.source = .formula body) (hnext : scope.Continues registry site e cells d) {inside : Guard}
    (he : g.enter d.visit = .ok inside) : Descends scope registry site e inside (cells ++ [d]) := by
  obtain ⟨hnew, hroom, rfl⟩ := Guard.enter_ok he
  rw [h.depth, h.limit] at hroom
  refine ⟨?_, h.limit, ?_, h.chain.concat hd hs (mt h.mem_visiting.2 hnew) hnext⟩
  · rw [List.reverse_cons, h.stack, List.map_append, List.map_singleton]
  · rw [List.length_append, List.length_singleton]
    omega

/-- **A cell that is refused for its depth ends a chain that is too long.** -/
theorem refused (h : Descends scope registry site e g cells) (hd : scope.workbook.Contains d)
    (hs : d.source = .formula body) (hnext : scope.Continues registry site e cells d) {limit : Int}
    (he : g.enter d.visit = .error (.depth limit)) :
    (cells ++ [d]).length = scope.options.maxDepth + 1 ∧ scope.IsChainFrom registry site e (cells ++ [d]) := by
  obtain ⟨hnew, hfull⟩ := Guard.enter_depth he
  rw [h.depth, h.limit] at hfull
  have hroom := h.room
  refine ⟨?_, h.chain.concat hd hs (mt h.mem_visiting.2 hnew) hnext⟩
  rw [List.length_append, List.length_singleton]
  omega

end Descends

/-- **The cells in the guard are a chain wherever an expression is evaluated.** -/
theorem invariant_onChain (scope : Scope) (registry : Registry) (site : RowSite) (e : Expr) :
    Invariant scope registry (RefusedChain scope registry site e) (OnChain scope registry site e) where
  unfit f hf limit h := by
    subst h
    cases hf
  calls _ _ _ f hf limit h := by
    subst h
    cases hf
  missing _ _ ht limit h := by
    subst h
    rcases Scope.searches_target _ ht with ⟨m, h⟩ | ⟨o, c, h, -⟩ <;> cases h
  literal _ _ _ _ _ _ h := nomatch h
  refused := by
    rintro g place e' r d body f ⟨hplace, cells, hcells, hnext⟩ hr ht hs he limit rfl
    exact ⟨_, hcells.refused (Scope.contains_of_target hplace ht) hs (hnext r hr d ht) he⟩
  malformed _ _ _ _ _ _ h := nomatch h
  inside := by
    rintro g place e' r d body inside e'' ⟨hplace, cells, hcells, hnext⟩ hr ht hs he hparse
    have hd := Scope.contains_of_target hplace ht
    refine ⟨?_, _, hcells.enter hd hs (hnext r hr d ht) he, fun r' hr' d' ht' => ⟨fun c hc => ?_, fun hnil => ?_⟩⟩
    · rintro _ ⟨⟩
      exact hd.1
    · rw [List.getLast?_concat] at hc
      cases hc
      exact ⟨e'', ⟨body, hs, hparse⟩, r', hr', ht'⟩
    · exact absurd hnil (List.concat_ne_nil d cells)

end Guards

/-! ## The formula cells of a workbook -/

/-- Whether the cell is computed from a formula. -/
def CellSite.isFormula (c : CellSite) : Bool :=
  match c.source with
  | .formula _ => true
  | .literal _ => false

theorem CellSite.isFormula_iff {c : CellSite} : c.isFormula = true ↔ ∃ body, c.source = .formula body := by
  unfold isFormula
  cases hs : c.source with
  | formula body => simp
  | literal raw => simp

/-- The formula cells of a sheet. -/
def Sheet.formulaCells (s : Sheet) : List CellSite :=
  (((List.finRange s.rows.length).product s.columns).map fun (index, column) => ⟨⟨s, index⟩, column⟩).filter
    CellSite.isFormula

/-- The formula cells of a workbook. -/
def Workbook.formulaCells (w : Workbook) : List CellSite :=
  w.sheets.flatMap Sheet.formulaCells

theorem Sheet.mem_formulaCells {s : Sheet} {c : CellSite} :
    c ∈ s.formulaCells ↔ c.site.sheet = s ∧ c.column ∈ s.columns ∧ c.isFormula = true := by
  rw [formulaCells, List.mem_filter, List.mem_map]
  constructor
  · rintro ⟨⟨⟨index, column⟩, hmem, rfl⟩, hformula⟩
    exact ⟨rfl, (List.mem_product.1 hmem).2, hformula⟩
  · rintro ⟨rfl, hcolumn, hformula⟩
    exact ⟨⟨(c.site.index, c.column), List.mem_product.2 ⟨List.mem_finRange _, hcolumn⟩, rfl⟩, hformula⟩

theorem Workbook.mem_formulaCells {w : Workbook} {c : CellSite} :
    c ∈ w.formulaCells ↔ w.Contains c ∧ ∃ body, c.source = .formula body := by
  rw [formulaCells, List.mem_flatMap, ← CellSite.isFormula_iff]
  constructor
  · rintro ⟨s, hs, hc⟩
    obtain ⟨rfl, hcolumn, hformula⟩ := Sheet.mem_formulaCells.1 hc
    exact ⟨⟨hs, hcolumn⟩, hformula⟩
  · rintro ⟨⟨hs, hcolumn⟩, hformula⟩
    exact ⟨c.site.sheet, hs, Sheet.mem_formulaCells.2 ⟨rfl, hcolumn, hformula⟩⟩

/-- A chain has no more cells than the workbook has formula cells. -/
theorem Scope.IsChainFrom.length_le {scope : Scope} {registry : Registry} {site : RowSite} {e : Expr}
    {cells : List CellSite} (h : scope.IsChainFrom registry site e cells) :
    cells.length ≤ scope.workbook.formulaCells.length := by
  refine (h.distinct.of_map.subperm fun c hc => ?_).length_le
  exact Workbook.mem_formulaCells.2 ⟨h.contains c hc, h.formulas c hc⟩

/-! ## Evaluations that are refused -/

theorem Failure.exists_depth_of_code {f : Failure} (h : f.code = "recursion_limit") : ∃ limit, f = .depth limit := by
  unfold Failure.code at h
  split at h <;> first | exact ⟨_, rfl⟩ | simp at h

namespace Engine

variable {engine : Engine} {context : Context} {formula : String}

/-- What is refused at a row, where the formula belongs to no column, has come through a chain. -/
theorem confined_refusedChain {site : RowSite} (hsite : context.site = .ok site) (hcolumn : context.column = none)
    {e : Expr} (he : engine.read formula = .ok e) :
    Confined (· = none) (RefusedChain ⟨context.workbook, engine.options⟩ engine.registry site e)
      ⟨engine.options.maxDepth, []⟩ (engine.steps (some context) formula) := by
  have hstart : OnChain ⟨context.workbook, engine.options⟩ engine.registry site e ⟨engine.options.maxDepth, []⟩
      (some site) e := by
    refine ⟨fun s hs => ?_, [], ⟨rfl, rfl, Nat.zero_le _, Scope.isChainFrom_nil⟩, fun r hr d ht => ?_⟩
    · cases hs
      exact sheet_mem_of_site hsite
    · exact ⟨fun _ h => (nomatch h), fun _ => ⟨r, hr, ht⟩⟩
  rw [steps_of_site hsite, hcolumn]
  refine confined_stepsWith (fun _ _ _ h => nomatch h) (fun _ h => nomatch h) (fun _ h => nomatch h)
    (fun _ h => nomatch h) fun e' he' => ?_
  cases he.symm.trans he'
  rw [valueAt_of_column_none]
  refine (invariant_onChain _ _ site e).confined_eval (remembers_none _) _ ?_ hstart
  exact Int.le_add_of_nonneg_left (Int.natCast_nonneg _)

/-- What is refused for its depth has come through a chain of one cell more than the limit. -/
theorem exists_chain_of_refused (hcolumn : context.column = none)
    (hcode : (engine.evaluate (some context) formula).code? = some "recursion_limit") :
    ∃ site e cells, context.site = .ok site ∧ engine.read formula = .ok e ∧
      cells.length = engine.options.maxDepth + 1 ∧
        Scope.IsChainFrom ⟨context.workbook, engine.options⟩ engine.registry site e cells := by
  obtain ⟨f, hfailed, hcode⟩ := Outcome.exists_failed_of_code? hcode
  obtain ⟨limit, rfl⟩ := Failure.exists_depth_of_code hcode
  have hrun := steps_of_evaluate hfailed
  cases hsite : context.site with
  | error f =>
    -- a context that leads nowhere misses something
    rw [steps_of_site_error hsite, Eval.throw_apply] at hrun
    cases hrun
    obtain ⟨m, h⟩ | ⟨o, c, h, -⟩ := searches_site context _ hsite <;> cases h
  | ok site =>
    cases he : engine.read formula with
    | error f =>
      rw [steps_of_site hsite, stepsWith_of_read_error he] at hrun
      cases hrun
      obtain ⟨o, -, h⟩ | h := read_error he <;> cases h
    | ok e =>
      obtain ⟨cells, hlength, hcells⟩ :=
        (confined_refusedChain hsite hcolumn he (engine.start none) rfl rfl).2.2 _ hrun limit rfl
      exact ⟨site, e, cells, rfl, rfl, hlength, hcells⟩

/-- **Refused chains are long.** Where a formula that belongs to no column is refused for its depth at a row, there are
distinct formula cells, one more than the limit, of which the formula refers to the first and each refers to the next.
So nothing is refused in a workbook with no more formula cells than the limit. -/
theorem evaluate_depth (engine : Engine) (context : Context) (hcolumn : context.column = none) (formula : String) :
    ((engine.evaluate (some context) formula).code? = some "recursion_limit" →
      ∃ site e cells, context.site = .ok site ∧ engine.read formula = .ok e ∧
        cells.length = engine.options.maxDepth + 1 ∧
          Scope.IsChainFrom ⟨context.workbook, engine.options⟩ engine.registry site e cells) ∧
    (context.workbook.formulaCells.length ≤ engine.options.maxDepth →
      (engine.evaluate (some context) formula).code? ≠ some "recursion_limit") := by
  refine ⟨exists_chain_of_refused hcolumn, fun hfew hcode => ?_⟩
  obtain ⟨site, e, cells, -, -, hlength, hcells⟩ := exists_chain_of_refused hcolumn hcode
  have hle : cells.length ≤ context.workbook.formulaCells.length := hcells.length_le
  omega

end Engine

/-- Under a limit of one, a formula that refers to the totals of the ledger is refused: the totals and the gross amounts
are a chain of two. -/
theorem evaluate_depth_ledger : (ledgerContext none).column = none ∧
    ∃ site e cells, (ledgerContext none).site = .ok site ∧
      Engine.read ⟨.standard, { maxDepth := 1 }⟩ "Total" = .ok e ∧ cells.length = 2 ∧
        Scope.IsChainFrom ⟨ledger "paid", { maxDepth := 1 }⟩ .standard site e cells := by
  have hcode : (Engine.evaluate ⟨.standard, { maxDepth := 1 }⟩ (some (ledgerContext none)) "Total").code? =
      some "recursion_limit" := by cbv
  exact ⟨rfl, (Engine.evaluate_depth ⟨.standard, { maxDepth := 1 }⟩ (ledgerContext none) rfl "Total").1 hcode⟩

end GameSheet
