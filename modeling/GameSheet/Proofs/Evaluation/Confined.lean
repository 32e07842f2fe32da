import GameSheet.Proofs.Evaluation.Outcome

/-!
# Runs that keep to a kind of failures

A kind is a property of failures. A step is confined to a kind (`Confined`) if it fails with failures of the kind only,
whenever it starts inside a guard and with a memo of some sort; it leaves the guard as it was, and a memo of the sort.
So what is known of the guard and of the memo holds in front of every step.

All ways of going on keep this. What is left to look at is what an expression raises by itself, where its references
lead, and the cells there. An invariant that speaks of all of these, and that holds again inside every cell that is
entered (`Invariant`), confines an expression through any number of formula cells (`Invariant.confined_eval`). There are
as many levels of the recursion as the guard has room, so the recursion does not run out. A formula is confined with its
expression, at any row of the workbook or nowhere (`Engine.confined_steps`).
-/

namespace GameSheet

open Formula

/-- The cell as a guard knows it. -/
def CellSite.visit (c : CellSite) : Visit := ⟨c.key, c.label⟩

/-- Inside the guard, and with a memo of the sort, the step fails with failures of the kind only. -/
def Confined (M : Option Memo → Prop) (F : Failure → Prop) (g : Guard) {α : Type} (x : Eval α) : Prop :=
  ∀ w : Walk, w.guard = g → M w.memo →
    (x w).2.guard = g ∧ M (x w).2.memo ∧ ∀ f, (x w).1 = .error f → F f

/-- The memos of the sort know failures of the kind only, and more of these may be kept in them. -/
structure Remembers (M : Option Memo → Prop) (F : Failure → Prop) : Prop where
  known {memo : Memo} {key : CellKey} {f : Failure} : M (some memo) → memo[key]? = some (.error f) → F f
  store {memo : Memo} {key : CellKey} {o : Except Failure CellValue} :
    M (some memo) → (∀ f, o = .error f → F f) → M (some (memo.insert key o))

/-- Where there is no memo nothing is known. -/
theorem remembers_none (F : Failure → Prop) : Remembers (· = none) F where
  known h := nomatch h
  store h := nomatch h

/-- The memo, if there is one, knows failures of the kind only. -/
def KnowsOnly (F : Failure → Prop) (memo : Option Memo) : Prop :=
  ∀ (known : Memo) (key : CellKey) (f : Failure), memo = some known → known[key]? = some (.error f) → F f

theorem remembers_knowsOnly (F : Failure → Prop) : Remembers (KnowsOnly F) F where
  known h hget := h _ _ _ rfl hget
  store {memo key o} h ho := by
    rintro _ key' f ⟨⟩ hget
    rw [Std.HashMap.getElem?_insert] at hget
    split at hget
    · exact ho f (Option.some.inj hget)
    · exact h _ _ _ rfl hget

theorem knowsOnly_none (F : Failure → Prop) : KnowsOnly F none := by
  rintro known key f ⟨⟩

theorem knowsOnly_empty (F : Failure → Prop) : KnowsOnly F (some ∅) := by
  rintro _ key f ⟨⟩ hget
  simp at hget

/-! ## Ways of going on -/

namespace Confined

variable {M : Option Memo → Prop} {F : Failure → Prop} {g : Guard} {α β : Type} {x : Eval α} {k : α → Eval β}

theorem const {o : Except Failure α} {notes : List Warning} (hx : x.Only o notes) (ho : ∀ f, o = .error f → F f) :
    Confined M F g x := by
  intro w hg hm
  rw [hx]
  exact ⟨hg, hm, ho⟩

theorem throw {f : Failure} (hf : F f) : Confined M F g (throw f : Eval α) :=
  .const (Eval.only_throw f) fun _ h => Except.error.inj h ▸ hf

theorem bind (hx : Confined M F g x) (hk : ∀ a, x.Returns a → Confined M F g (k a)) : Confined M F g (x >>= k) := by
  intro w hg hm
  obtain ⟨hguard, hmemo, hfails⟩ := hx w hg hm
  rcases hw : x w with ⟨o, after⟩
  rw [hw] at hguard hmemo hfails
  cases o with
  | error f =>
    rw [Eval.bind_error hw]
    exact ⟨hguard, hmemo, fun _ h => Except.error.inj h ▸ hfails f rfl⟩
  | ok a =>
    rw [Eval.bind_ok hw]
    exact hk a ⟨w, after, hw⟩ after hguard hmemo

theorem attempt (hx : Confined M F g x) : Confined M F g (Eval.attempt x) := by
  intro w hg hm
  obtain ⟨hguard, hmemo, hfails⟩ := hx w hg hm
  rcases hw : x w with ⟨o, after⟩
  rw [hw] at hguard hmemo hfails
  cases o with
  | ok a =>
    rw [Eval.attempt_ok hw]
    exact ⟨hguard, hmemo, fun _ h => nomatch h⟩
  | error f =>
    rw [Eval.attempt_error hw]
    refine ⟨hguard, hmemo, fun f' h => ?_⟩
    -- nothing but the failure itself comes out of an attempt
    cases hmask : f.isMaskable with
    | true => simp [hmask] at h
    | false =>
      simp only [hmask, Bool.false_eq_true, if_false, Except.error.injEq] at h
      exact h ▸ hfails f rfl

/-- A step inside a cell, if the failure is of the kind with which the guard refuses the cell. -/
theorem within {v : Visit} (hrefused : ∀ f, g.enter v = .error f → F f)
    (h : ∀ inside, g.enter v = .ok inside → Confined M F inside x) : Confined M F g (Eval.within v x) := by
  intro w hg hm
  cases he : g.enter v with
  | error f =>
    rw [Eval.within_error (hg ▸ he)]
    exact ⟨hg, hm, fun _ h => Except.error.inj h ▸ hrefused f he⟩
  | ok inside =>
    obtain ⟨hguard, hmemo, hfails⟩ := h inside he { w with guard := inside } rfl hm
    rw [Eval.within_ok (hg ▸ he)]
    refine ⟨?_, hmemo, hfails⟩
    dsimp only
    rw [hguard, Guard.leave_enter he]

/-- What is kept of a step is of the kind. -/
theorem remember (hM : Remembers M F) {x : Eval CellValue} (key : CellKey) (h : Confined M F g x) :
    Confined M F g (Eval.remember key x) := by
  have hstore : ∀ (after : Walk) (o : Except Failure CellValue), M after.memo → (∀ f, o = .error f → F f) →
      M (after.store key o).memo := by
    rintro ⟨guard, memo, warnings⟩ o hm ho
    cases memo with
    | none => exact hm
    | some memo => exact hM.store hm ho
  intro w hg hm
  obtain ⟨hguard, hmemo, hfails⟩ := h w hg hm
  rcases hw : x w with ⟨o, after⟩
  rw [hw] at hguard hmemo hfails
  cases o with
  | ok v =>
    rw [Eval.remember_ok hw]
    exact ⟨hguard, hstore after _ hmemo hfails, hfails⟩
  | error f =>
    rw [Eval.remember_error hw]
    cases f.isKept with
    | true => exact ⟨hguard, hstore after _ hmemo hfails, hfails⟩
    | false => exact ⟨hguard, hmemo, hfails⟩

/-- **A cell fails as its body does**, inside the cell, unless the memo knows it. -/
theorem cell {evaluate : Evaluator} {cell : CellSite} (hM : Remembers M F)
    (hliteral : ∀ raw e, cell.source = .literal raw → raw.value = .error e → F (.overflow e))
    (hrefused : ∀ body f, cell.source = .formula body → g.enter cell.visit = .error f → F f)
    (h : ∀ body inside, cell.source = .formula body → g.enter cell.visit = .ok inside →
      Confined M F inside (evaluate body cell.site)) : Confined M F g (Scope.cellValue evaluate cell) := by
  cases hs : cell.source with
  | literal raw =>
    rw [Scope.cellValue_literal hs]
    refine .const (Eval.only_ofExcept _) fun f hf => ?_
    cases hv : raw.value with
    | ok v => rw [hv] at hf; cases hf
    | error e => rw [hv] at hf; cases hf; exact hliteral raw e hs hv
  | formula body =>
    intro w hg hm
    rw [Scope.cellValue_formula hs]
    cases hknown : w.known? cell.key with
    | some o =>
      rw [formulaValue_known hknown]
      refine ⟨hg, hm, fun f hf => ?_⟩
      obtain ⟨memo, hmemo, hget⟩ := Option.bind_eq_some_iff.1 hknown
      rw [hmemo] at hm
      cases hf
      exact hM.known hm hget
    | none =>
      rw [formulaValue_fresh hknown]
      exact remember hM cell.key (.within (hrefused body · hs) fun inside => h body inside hs) w hg hm

/-- A body is parsed, and fails as its expression does. -/
theorem body {registry : Registry} {body : String} {value : Expr → Eval CellValue}
    (hparse : ∀ e, parse registry body = .error e → F (.parse e))
    (h : ∀ e, parse registry body = .ok e → Confined M F g (value e)) :
    Confined M F g (Eval.ofExcept ((parse registry body).mapError .parse) >>= value) := by
  refine .bind (.const (Eval.only_ofExcept _) fun f hf => ?_) fun e he => h e (ok_of_mapError he.of_ofExcept)
  cases hp : parse registry body with
  | ok e => rw [hp] at hf; cases hf
  | error e => rw [hp] at hf; cases hf; exact hparse e hp

end Confined

section Steps

variable {M : Option Memo → Prop} {F : Failure → Prop} {g : Guard}

/-- Being confined is kept by all ways of going on. -/
theorem compositional_confined (hunfit : ∀ f, Unfit f → F f) (g : Guard) :
    Compositional fun (α : Type) (x : Unit → Eval α) => Confined M F g (x ()) where
  value a := .const (Eval.only_pure a) fun _ h => nomatch h
  unfit hf := .throw (hunfit _ hf)
  warning note := .const (Eval.only_warn note) fun _ h => nomatch h
  sequence hx hk := hx.bind fun a ha => hk a ⟨(), ha⟩
  recovery hx := hx.attempt

/-- **An expression fails as its calls and its references do.** -/
theorem Confined.expr {registry : Registry} {scope : Scope} {evaluate : Evaluator} {site : Option RowSite} {e : Expr}
    (hunfit : ∀ f, Unfit f → F f)
    (hcalls : ∀ call ∈ e.calls, ∀ f, CallRaises registry call.1 call.2 f → F f)
    (hmissing : ∀ r ∈ e.references, ∀ f, scope.target site r = .error f → F f)
    (h : ∀ r ∈ e.references, ∀ cell, scope.target site r = .ok cell →
      Confined M F g (Scope.cellValue evaluate cell)) :
    Confined M F g (e.eval registry (scope.read evaluate site)) := by
  refine (compositional_confined hunfit g).eval (fun _ => scope.read evaluate site) e (fun r hr => ?_)
    fun call hc f hf => .throw (hcalls call hc f hf)
  exact .bind (.const (Eval.only_ofExcept _) (hmissing r hr)) fun cell hcell => h r hr cell hcell.of_ofExcept

end Steps

/-! ## Invariants -/

/-- What holds wherever an expression is evaluated, so that it fails with failures of the kind only: what its calls
raise is of the kind, and what its references lead to; and in a cell that is entered it holds again. -/
structure Invariant (scope : Scope) (registry : Registry) (F : Failure → Prop)
    (I : Guard → Option RowSite → Expr → Prop) : Prop where
  unfit : ∀ f, Unfit f → F f
  calls {g site e} : I g site e → ∀ call ∈ e.calls, ∀ f, CallRaises registry call.1 call.2 f → F f
  missing {g site e r f} : I g site e → r ∈ e.references → scope.target site r = .error f → F f
  literal {g site e r d raw o} : I g site e → r ∈ e.references → scope.target site r = .ok d →
    d.source = .literal raw → raw.value = .error o → F (.overflow o)
  refused {g site e r d body f} : I g site e → r ∈ e.references → scope.target site r = .ok d →
    d.source = .formula body → g.enter d.visit = .error f → F f
  malformed {g site e r d body o} : I g site e → r ∈ e.references → scope.target site r = .ok d →
    d.source = .formula body → parse registry body = .error o → F (.parse o)
  inside {g site e r d body within e'} : I g site e → r ∈ e.references → scope.target site r = .ok d →
    d.source = .formula body → g.enter d.visit = .ok within → parse registry body = .ok e' →
      I within (some d.site) e'

namespace Invariant

variable {M : Option Memo → Prop} {F : Failure → Prop} {scope : Scope} {registry : Registry}
  {I : Guard → Option RowSite → Expr → Prop}

/-- One level: an expression is confined if the bodies are of the cells that it enters. -/
theorem confined_expr (h : Invariant scope registry F I) (hM : Remembers M F) {evaluate : Evaluator} {g : Guard}
    {site : Option RowSite} {e : Expr} (hI : I g site e)
    (hbody : ∀ r ∈ e.references, ∀ d body inside, scope.target site r = .ok d → d.source = .formula body →
      g.enter d.visit = .ok inside → Confined M F inside (evaluate body d.site)) :
    Confined M F g (e.eval registry (scope.read evaluate site)) := by
  refine .expr h.unfit (h.calls hI) (fun r hr f => h.missing hI hr) fun r hr d ht => .cell hM ?_ ?_ ?_
  · exact fun raw o => h.literal hI hr ht
  · exact fun body f => h.refused hI hr ht
  · exact fun body inside => hbody r hr d body inside ht

/-- **An expression is confined where the invariant holds**, with as many levels as the guard has room. -/
theorem confined_eval (h : Invariant scope registry F I) (hM : Remembers M F) :
    ∀ (room : Nat) {g : Guard} {site : Option RowSite} {e : Expr}, g.limit ≤ g.depth + room → I g site e →
      Confined M F g (e.eval registry (scope.read (scope.chained registry room) site)) := by
  intro room
  induction room with
  | zero =>
    intro g site e hroom hI
    refine h.confined_expr hM hI fun r hr d body inside ht hs he => ?_
    -- the guard is full
    have := (Guard.enter_ok he).2.1
    omega
  | succ room ih =>
    intro g site e hroom hI
    refine h.confined_expr hM hI fun r hr d body inside ht hs he =>
      .body (fun o => h.malformed hI hr ht hs) fun e' hp => ?_
    refine ih ?_ (h.inside hI hr ht hs he hp)
    have hdepth := Guard.depth_enter he
    have hlimit : inside.limit = g.limit := by rw [(Guard.enter_ok he).2.2]
    omega

end Invariant

/-! ## Formulas -/

namespace Engine

variable {engine : Engine} {formula : String} {M : Option Memo → Prop} {F : Failure → Prop} {g : Guard}

/-- What is not read is no formula or a bare string literal. -/
theorem read_error {f : Failure} (h : engine.read formula = .error f) :
    (∃ e, parse engine.registry (stripMarker formula) = .error e ∧ f = .parse e) ∨ f = .bareText := by
  unfold read at h
  cases hp : parse engine.registry (stripMarker formula) with
  | error e =>
    rw [hp] at h
    exact .inl ⟨e, rfl, (Except.error.inj h).symm⟩
  | ok e =>
    rw [hp] at h
    change (if e.isText then (Except.error Failure.bareText) else Except.ok e) = _ at h
    split at h
    · exact .inr (Except.error.inj h).symm
    · cases h

/-- A result that is refused is NaN or infinite. -/
theorem checkResult_error {v : CellValue} {f : Failure} (h : engine.checkResult v = .error f) :
    f = .resultNaN ∨ f = .resultInfinite := by
  unfold checkResult at h
  split at h
  · split at h
    · exact .inl (Except.error.inj h).symm
    · split at h
      · exact .inr (Except.error.inj h).symm
      · cases h
  · cases h

/-- A formula that is read, evaluated and checked fails as its expression does, or as a whole. -/
theorem confined_stepsWith (hparse : ∀ e, parse engine.registry (stripMarker formula) = .error e → F (.parse e))
    (htext : F .bareText) (hnan : F .resultNaN) (hinfinite : F .resultInfinite) {value : Expr → Eval CellValue}
    (h : ∀ e, engine.read formula = .ok e → Confined M F g (value e)) :
    Confined M F g (engine.stepsWith formula value) := by
  refine .bind (.const (Eval.only_ofExcept _) fun f hf => ?_) fun e he =>
    .bind (h e he.of_ofExcept) fun v _ => .const (Eval.only_ofExcept _) fun f hf => ?_
  · rcases read_error hf with ⟨e, he, rfl⟩ | rfl
    · exact hparse e he
    · exact htext
  · rcases checkResult_error hf with rfl | rfl
    · exact hnan
    · exact hinfinite

end Engine

/-- The kind has the failures that arise around an expression: those of a search in the workbook, those with which the
guard refuses a cell, and those of a formula as a whole. -/
structure Outer (w : Workbook) (F : Failure → Prop) : Prop where
  search {α : Type} {x : Except Failure α} {f : Failure} : Searches w x → x = .error f → F f
  refused {g : Guard} {v : Visit} {f : Failure} : g.enter v = .error f → F f
  bareText : F .bareText
  resultNaN : F .resultNaN
  resultInfinite : F .resultInfinite

namespace Engine

variable {engine : Engine} {formula : String} {M : Option Memo → Prop} {F : Failure → Prop} {w : Workbook}
  {I : Guard → Option RowSite → Expr → Prop}

/-- An expression is evaluated in the cell of its column or in none. -/
theorem confined_valueAt (hinv : Invariant ⟨w, engine.options⟩ engine.registry F I) (hM : Remembers M F)
    (hF : Outer w F) {site : Option RowSite} {e : Expr} (hI : ∀ g, I g site e) (column : Option String) :
    Confined M F ⟨engine.options.maxDepth, []⟩ (engine.valueAt w site column e) := by
  have hvalue : ∀ g : Guard, g.limit = engine.options.maxDepth →
      Confined M F g (Scope.value ⟨w, engine.options⟩ engine.registry site e) := by
    intro g hlimit
    -- the recursion has a level for each cell that the limit allows, whatever the guard has entered
    refine hinv.confined_eval hM _ ?_ (hI g)
    rw [hlimit]
    exact Int.le_add_of_nonneg_left (Int.natCast_nonneg _)
  match site, column with
  | none, _ => exact hvalue _ rfl
  | some _, none => exact hvalue _ rfl
  | some s, some id =>
    refine .bind (.const (Eval.only_ofExcept _) fun f => hF.search (searches_ownCell w)) fun cell _ => ?_
    refine .within (fun f => hF.refused) fun inside hinside => hvalue inside ?_
    rw [(Guard.enter_ok hinside).2.2]

/-- **A formula is confined where the invariant holds** for its expression, at a row of the workbook or nowhere. -/
theorem confined_steps {context : Option Context} (hcontext : context.elim Workbook.empty Context.workbook = w)
    (hinv : Invariant ⟨w, engine.options⟩ engine.registry F I) (hM : Remembers M F) (hF : Outer w F)
    (hparse : ∀ e, parse engine.registry (stripMarker formula) = .error e → F (.parse e))
    (hI : ∀ site e, (∀ s, site = some s → s.sheet ∈ w.sheets) →
      parse engine.registry (stripMarker formula) = .ok e → ∀ g, I g site e) :
    Confined M F ⟨engine.options.maxDepth, []⟩ (engine.steps context formula) := by
  subst hcontext
  refine .bind (.const (Eval.only_ofExcept _) fun f => hF.search (searches_mapM_site context)) fun site hsite => ?_
  refine confined_stepsWith hparse hF.bareText hF.resultNaN hF.resultInfinite fun e he => ?_
  exact confined_valueAt hinv hM hF (hI site e (sheet_mem_of_mapM_site hsite.of_ofExcept) (parse_of_read he)) _

end Engine

end GameSheet
