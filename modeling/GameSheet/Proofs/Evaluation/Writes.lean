import GameSheet.Proofs.Evaluation.Known
import GameSheet.Proofs.Evaluation.Trail

/-!
# What is written into a memo

The accesses of an evaluation are all that is written into its memo (`Records`): each of them leaves the memo as it is
or keeps its outcome there, that of a formula cell of the workbook, and only if the memo does not know another outcome
of this cell (`Access.Writes`).

A cell may be kept while it is still being computed: what refers back to it is refused with a cycle, and the cycle is
kept as the outcome of the cell. When the cell itself comes to an end, it is kept a second time. The invariant is that
such an early entry is always the failure in which the evaluation is just ending (`Waits`). No formula recovers from it,
so it is what the cell ends in, and the second entry is the first one.
-/

namespace GameSheet

open Formula

/-- The memo knows the outcome of the cell. -/
def Recalls (memo : Option Memo) (key : CellKey) (o : Except Failure CellValue) : Prop :=
  memo.bind (·[key]?) = some o

section Recalls

variable {memo : Option Memo} {key key' : CellKey} {o o' : Except Failure CellValue}

theorem not_recalls_empty : ¬Recalls (some ∅) key o := by
  simp [Recalls]

/-- What is known after an outcome was kept is this outcome, or was known before. -/
theorem Recalls.of_insert (h : Recalls (memo.map (·.insert key o)) key' o') :
    key' = key ∧ o' = o ∨ key' ≠ key ∧ Recalls memo key' o' := by
  cases memo with
  | none => cases h
  | some known =>
    have hget : (known.insert key o)[key']? = some o' := h
    rw [Std.HashMap.getElem?_insert] at hget
    split at hget
    · next heq => exact .inl ⟨(beq_iff_eq.1 heq).symm, (Option.some.inj hget).symm⟩
    · next hne => exact .inr ⟨fun heq => hne (beq_iff_eq.2 heq.symm), hget⟩

/-- What was known is known after an outcome was kept, if no other outcome of the cell was known. -/
theorem Recalls.insert (hsame : ∀ old, Recalls memo key old → old = o) (h : Recalls memo key' o') :
    Recalls (memo.map (·.insert key o)) key' o' := by
  cases memo with
  | none => cases h
  | some known =>
    show (known.insert key o)[key']? = some o'
    rw [Std.HashMap.getElem?_insert]
    split
    · next heq =>
      obtain rfl := beq_iff_eq.1 heq
      rw [hsame o' h]
    · exact h

end Recalls

/-! ## Accesses that write -/

/-- What an access makes of the memo in front of it: nothing, or it keeps the outcome of a formula cell of which no
other outcome is known. -/
inductive Access.Writes (w : Workbook) (before : Option Memo) (a : Access) : Prop
  | nothing : a.memo = before → Access.Writes w before a
  | outcome {body : String} : a.memo = before.map (·.insert a.cell.key a.outcome) → w.Contains a.cell →
      a.cell.source = .formula body → Kept a.outcome → (∀ old, Recalls before a.cell.key old → old = a.outcome) →
        Access.Writes w before a

/-- From one memo to another one by nothing but what some accesses write. -/
inductive Records (w : Workbook) : Option Memo → List Access → Option Memo → Prop
  | nil {memo : Option Memo} : Records w memo [] memo
  | cons {before after : Option Memo} {a : Access} {rest : List Access} :
      a.Writes w before → Records w a.memo rest after → Records w before (a :: rest) after

section Records

variable {w : Workbook} {before middle after : Option Memo} {accesses more : List Access} {a : Access}

theorem Records.append (h : Records w before accesses middle) (h' : Records w middle more after) :
    Records w before (accesses ++ more) after := by
  induction h with
  | nil => exact h'
  | cons ha _ ih => exact .cons ha (ih h')

theorem Records.single (h : a.Writes w before) : Records w before [a] a.memo :=
  .cons h .nil

/-- What is known stays known. -/
theorem Access.Writes.recalls (h : a.Writes w before) {key : CellKey} {o : Except Failure CellValue}
    (hknown : Recalls before key o) : Recalls a.memo key o := by
  cases h with
  | nothing hmemo => rwa [hmemo]
  | outcome hmemo _ _ _ hsame =>
    rw [hmemo]
    exact hknown.insert hsame

end Records

/-! ## Steps -/

/-- If one of the cells was not known and is known after the step, the step ends in a failure from which no formula
recovers, and this is what is known of the cell. -/
def Waits (keys : List CellKey) (before : Option Memo) {α : Type} (r : Except Failure α × Walk) : Prop :=
  ∀ key ∈ keys, (∀ old, ¬Recalls before key old) → ∀ o, Recalls r.2.memo key o →
    ∃ f, f.isMaskable = false ∧ o = .error f ∧ r.1 = .error f

/-- From a state the step leaves the guard as it was, nothing is written into the memo but by its accesses, and of the
cells that are being computed only a failure is written in which the step ends. -/
structure KeepsAt (workbook : Workbook) (w : Walk) {α : Type} (x : Eval α) (t : Trail) : Prop where
  guard : (x w).2.guard = w.guard
  records : Records workbook w.memo (t w) (x w).2.memo
  waits : Waits w.guard.visiting w.memo (x w)

/-- The same from every state. -/
def Keeps (workbook : Workbook) {α : Type} (x : Eval α) (t : Trail) : Prop :=
  ∀ w, KeepsAt workbook w x t

section Steps

variable {workbook : Workbook} {w after : Walk} {α β : Type} {x : Eval α} {t : Trail} {k : α → Eval β}
  {next : α → Trail} {keys : List CellKey} {before : Option Memo}

/-- Nothing has to be said where the memo is the same. -/
theorem Waits.same {r : Except Failure α × Walk} (h : r.2.memo = before) : Waits keys before r := by
  intro key _ hnew o ho
  rw [h] at ho
  exact absurd ho (hnew o)

theorem Waits.subset {keys' : List CellKey} {r : Except Failure α × Walk} (h : Waits keys before r)
    (hsub : ∀ key ∈ keys', key ∈ keys) : Waits keys' before r :=
  fun key hkey => h key (hsub key hkey)

/-- Only the failure of the step matters. -/
theorem Waits.error {f : Failure} (h : Waits keys before ((.error f, after) : Except Failure α × Walk)) :
    Waits keys before ((.error f, after) : Except Failure β × Walk) := by
  intro key hkey hnew o ho
  obtain ⟨f', hmask, hout, heq⟩ := h key hkey hnew o ho
  exact ⟨f', hmask, hout, by rw [Except.error.inj heq]⟩

/-- After a success no cell is known that was not known before. -/
theorem Waits.not_recalls {a : α} (h : Waits keys before ((.ok a, after) : Except Failure α × Walk)) {key : CellKey}
    (hkey : key ∈ keys) (hnew : ∀ old, ¬Recalls before key old) (o : Except Failure CellValue) :
    ¬Recalls after.memo key o := by
  intro ho
  obtain ⟨f, -, -, heq⟩ := h key hkey hnew o ho
  cases heq

theorem KeepsAt.const {o : Except Failure α} {notes : List Warning} (hx : x.Only o notes) :
    KeepsAt workbook w x .quiet := by
  refine ⟨?_, ?_, .same ?_⟩
  · rw [hx]
  · rw [hx]
    exact .nil
  · rw [hx]

/-- One step after another. -/
theorem KeepsAt.bind (hx : KeepsAt workbook w x t)
    (hk : ∀ a after, x w = (.ok a, after) → KeepsAt workbook after (k a) (next a)) :
    KeepsAt workbook w (x >>= k) (t.andThen x next) := by
  obtain ⟨hguard, hrecords, hwaits⟩ := hx
  rcases hw : x w with ⟨o, after⟩
  rw [hw] at hguard hrecords hwaits
  cases o with
  | error f =>
    refine ⟨?_, ?_, ?_⟩
    · rw [Eval.bind_error hw]
      exact hguard
    · rw [Eval.bind_error hw, Trail.andThen_error hw]
      exact hrecords
    · rw [Eval.bind_error hw]
      exact hwaits.error
  | ok a =>
    have hnext := hk a after hw
    refine ⟨?_, ?_, fun key hkey hnew o ho => ?_⟩
    · rw [Eval.bind_ok hw, hnext.guard]
      exact hguard
    · rw [Eval.bind_ok hw, Trail.andThen_ok hw]
      exact hrecords.append hnext.records
    · rw [Eval.bind_ok hw] at ho ⊢
      have hkey' : key ∈ after.guard.visiting := by
        rw [show after.guard = w.guard from hguard]
        exact hkey
      exact hnext.waits key hkey' (hwaits.not_recalls hkey hnew) o ho

/-- A recovery is from a failure that is not the entry of a cell that is being computed. -/
theorem KeepsAt.attempt (hx : KeepsAt workbook w x t) : KeepsAt workbook w (Eval.attempt x) t := by
  obtain ⟨hguard, hrecords, hwaits⟩ := hx
  rw [show x w = ((x w).1, (x w).2) from rfl] at hwaits
  refine ⟨?_, ?_, fun key hkey hnew o ho => ?_⟩
  · rwa [attempt_apply]
  · rwa [attempt_apply]
  · rw [attempt_apply] at ho ⊢
    obtain ⟨f, hmask, hout, heq⟩ := hwaits key hkey hnew o ho
    refine ⟨f, hmask, hout, ?_⟩
    rw [show (x w).1 = .error f from heq]
    simp only [recovered, hmask, Bool.false_eq_true, if_false]

/-- Inside a cell the entry of this cell is a failure of the step as well. -/
theorem KeepsAt.entered {v : Visit} {inside : Guard} (he : w.guard.enter v = .ok inside)
    (h : KeepsAt workbook { w with guard := inside } x t) :
    KeepsAt workbook w (Eval.within v x) (.within v t) ∧
      Waits (v.key :: w.guard.visiting) w.memo (Eval.within v x w) := by
  obtain ⟨hguard, hrecords, hwaits⟩ := h
  have hall : Waits (v.key :: w.guard.visiting) w.memo (Eval.within v x w) := by
    rw [Eval.within_ok he, ← Guard.visiting_enter he]
    exact hwaits
  refine ⟨⟨?_, ?_, hall.subset fun _ => List.mem_cons_of_mem _⟩, hall⟩
  · rw [Eval.within_ok he]
    dsimp only
    rw [hguard, Guard.leave_enter he]
  · rw [Eval.within_ok he, Trail.within_ok he]
    exact hrecords

/-- A step inside a cell; where the cell is refused nothing is written. -/
theorem Keeps.within (h : Keeps workbook x t) (v : Visit) : Keeps workbook (Eval.within v x) (.within v t) := by
  intro w
  cases he : w.guard.enter v with
  | ok inside => exact (KeepsAt.entered he (h _)).1
  | error f =>
    refine ⟨?_, ?_, .same ?_⟩
    · rw [Eval.within_error he]
    · rw [Eval.within_error he, Trail.within_error he]
      exact .nil
    · rw [Eval.within_error he]

/-- All ways of going on keep this. -/
theorem traceable_keeps (registry : Registry) (workbook : Workbook) :
    Traceable registry fun (α : Type) (x : Eval α) (t : Trail) => Keeps workbook x t where
  quiet hx _ _ := .const hx
  sequence hx hk w := (hx w).bind fun a after ha => hk a ⟨w, after, ha⟩ after
  recovery hx w := (hx w).attempt

end Steps

/-! ## Cells and expressions -/

/-- No formula recovers from the refusal of a cell. -/
theorem Guard.isMaskable_of_enter {g : Guard} {v : Visit} {f : Failure} (he : g.enter v = .error f) :
    f.isMaskable = false := by
  rcases enter_error he with ⟨-, rfl⟩ | rfl <;> rfl

section Remember

variable {workbook : Workbook} {w : Walk} {keys : List CellKey} {before : Option Memo} {cell : CellSite}
  {step : Eval CellValue}

/-- A step whose outcome may be kept leaves the memo as it is or puts the outcome there. -/
theorem memo_remember (key : CellKey) (step : Eval CellValue) (w : Walk) :
    (Eval.remember key step w).2.guard = (step w).2.guard ∧
      ((Eval.remember key step w).2.memo = (step w).2.memo ∨
        (Eval.remember key step w).2.memo = (step w).2.memo.map (·.insert key (step w).1) ∧ Kept (step w).1) := by
  rcases hs : step w with ⟨o, after⟩
  cases o with
  | ok v =>
    rw [Eval.remember_ok hs]
    exact ⟨rfl, .inr ⟨rfl, kept_ok v⟩⟩
  | error f =>
    rw [Eval.remember_error hs]
    cases hkept : f.isKept with
    | true => exact ⟨rfl, .inr ⟨rfl, kept_error hkept⟩⟩
    | false => exact ⟨rfl, .inl rfl⟩

/-- To keep the outcome of a cell is a write, if no other outcome of the cell is known by then. -/
theorem Access.writes_remember {body : String} (hc : workbook.Contains cell) (hs : cell.source = .formula body)
    (hsame : ∀ old, Recalls (step w).2.memo cell.key old → old = (step w).1) :
    Access.Writes workbook (step w).2.memo
      ⟨cell, (Eval.remember cell.key step w).1, (Eval.remember cell.key step w).2.memo⟩ := by
  rw [(remember_apply cell.key step w).1]
  rcases (memo_remember cell.key step w).2 with hmemo | ⟨hmemo, hkept⟩
  · exact .nothing hmemo
  · exact .outcome hmemo hc hs hkept hsame

/-- Where the outcome of a cell is kept that is being computed, it has to be a failure from which no formula
recovers. -/
theorem Waits.remember {key : CellKey} (h : Waits keys before (step w))
    (hrefused : key ∈ keys → ∃ f, f.isMaskable = false ∧ (step w).1 = .error f) :
    Waits keys before (Eval.remember key step w) := by
  intro other hother hnew o ho
  rw [(remember_apply key step w).1]
  rcases (memo_remember key step w).2 with hmemo | ⟨hmemo, -⟩
  · rw [hmemo] at ho
    exact h other hother hnew o ho
  · rw [hmemo] at ho
    rcases ho.of_insert with ⟨rfl, rfl⟩ | ⟨-, ho⟩
    · obtain ⟨f, hmask, hf⟩ := hrefused hother
      exact ⟨f, hmask, hf, hf⟩
    · exact h other hother hnew o ho

/-- A cell that is being computed is refused. -/
theorem refused_of_visiting {α : Type} {x : Eval α} {v : Visit} (hmem : v.key ∈ w.guard.visiting) :
    ∃ f, f.isMaskable = false ∧ (Eval.within v x w).1 = .error f := by
  cases he : w.guard.enter v with
  | ok inside => exact absurd hmem (Guard.enter_ok he).1
  | error f => exact ⟨f, Guard.isMaskable_of_enter he, by rw [Eval.within_error he]⟩

end Remember

namespace Scope

section Cells

variable {workbook : Workbook} {evaluate : Evaluator} {inner : BodyTrail} {cell : CellSite} {body : String} {w : Walk}

/-- A cell that is not computed writes nothing. -/
theorem keepsAt_cell_of_same (hsame : (cellValue evaluate cell w).2 = w) (hinside : insideTrail inner cell w = []) :
    KeepsAt workbook w (cellValue evaluate cell) (cellTrail evaluate inner cell) := by
  refine ⟨by rw [hsame], ?_, .same (by rw [hsame])⟩
  rw [cellTrail, hinside]
  exact .single (.nothing (by rw [hsame]))

/-- What is known of a cell when its computation comes to an end is what it ends in. -/
theorem eq_of_recalls_within (h : Keeps workbook (evaluate body cell.site) (inner body cell.site))
    (hnew : ∀ old, ¬Recalls w.memo cell.key old) {old : Except Failure CellValue}
    (hold : Recalls (Eval.within cell.visit (evaluate body cell.site) w).2.memo cell.key old) :
    old = (Eval.within cell.visit (evaluate body cell.site) w).1 := by
  cases he : w.guard.enter cell.visit with
  | error f =>
    rw [Eval.within_error he] at hold
    exact absurd hold (hnew old)
  | ok inside =>
    obtain ⟨f, -, rfl, heq⟩ := (KeepsAt.entered he (h _)).2 cell.key List.mem_cons_self hnew old hold
    exact heq.symm

/-- **A cell that is computed writes its outcome**, and the second time only the same one. -/
theorem keepsAt_cell_of_fresh (hc : workbook.Contains cell) (hs : cell.source = .formula body)
    (hknown : w.known? cell.key = none)
    (h : Keeps workbook (evaluate body cell.site) (inner body cell.site)) :
    KeepsAt workbook w (cellValue evaluate cell) (cellTrail evaluate inner cell) := by
  have hnew : ∀ old, ¬Recalls w.memo cell.key old := fun old hold => nomatch hknown.symm.trans hold
  have hcell : cellValue evaluate cell w =
      Eval.remember cell.key (Eval.within cell.visit (evaluate body cell.site)) w := by
    rw [cellValue_formula hs, formulaValue_fresh hknown]
    rfl
  have hwithin := h.within cell.visit w
  refine ⟨?_, ?_, ?_⟩
  · rw [hcell, (memo_remember _ _ w).1, hwithin.guard]
  · rw [cellTrail, insideTrail_fresh hs hknown, hcell]
    exact hwithin.records.append (.single (Access.writes_remember hc hs fun _ => eq_of_recalls_within h hnew))
  · rw [hcell]
    exact hwithin.waits.remember (refused_of_visiting (v := cell.visit))

/-- Reading a cell writes no more than it should, if the evaluation of its body does not. -/
theorem keeps_cell (hc : workbook.Contains cell)
    (h : ∀ body, cell.source = .formula body → Keeps workbook (evaluate body cell.site) (inner body cell.site)) :
    Keeps workbook (cellValue evaluate cell) (cellTrail evaluate inner cell) := by
  intro w
  cases hs : cell.source with
  | literal raw =>
    refine keepsAt_cell_of_same ?_ (insideTrail_literal hs)
    rw [cellValue_literal hs, Eval.ofRaw, Eval.ofExcept_apply]
  | formula body =>
    cases hknown : w.known? cell.key with
    | none => exact keepsAt_cell_of_fresh hc hs hknown (h body hs)
    | some o =>
      refine keepsAt_cell_of_same ?_ (insideTrail_known hknown)
      rw [cellValue_formula hs, formulaValue_known hknown]

end Cells

section Expressions

variable {scope : Scope} {registry : Registry} {workbook : Workbook}

/-- An expression writes no more than it should, if the bodies of the cells do not. -/
theorem keeps_expr (hworkbook : ∀ c, scope.workbook.Contains c → workbook.Contains c) {evaluate : Evaluator}
    {inner : BodyTrail} (h : ∀ body site, site.sheet ∈ scope.workbook.sheets →
      Keeps workbook (evaluate body site) (inner body site))
    {site : Option RowSite} (hsite : ∀ s, site = some s → s.sheet ∈ scope.workbook.sheets) (e : Expr) :
    Keeps workbook (e.eval registry (scope.read evaluate site))
      (e.trail registry (scope.read evaluate site) (scope.readTrail evaluate inner site)) := by
  refine (traceable_keeps registry workbook).eval e fun r _ w => ?_
  refine .bind (.const (Eval.only_ofExcept _)) fun cell after htarget => ?_
  rw [Eval.ofExcept_apply] at htarget
  have hcell := contains_of_target hsite (congrArg Prod.fst htarget)
  exact keeps_cell (hworkbook cell hcell) (fun body _ => h body cell.site hcell.1) after

/-- **A body writes no more than it should**, through any number of formula cells. -/
theorem keeps_chained (hworkbook : ∀ c, scope.workbook.Contains c → workbook.Contains c) (room : Nat) :
    ∀ body site, site.sheet ∈ scope.workbook.sheets →
      Keeps workbook (scope.chained registry room body site) (scope.chainedTrail registry room body site) := by
  induction room with
  | zero => exact fun _ _ _ _ => .const (Eval.only_throw _)
  | succ room ih =>
    refine fun body site hsite w => .bind (.const (Eval.only_ofExcept _)) fun e after _ => ?_
    exact keeps_expr hworkbook ih (fun s hs => by cases hs; exact hsite) e after

theorem keeps_value (hworkbook : ∀ c, scope.workbook.Contains c → workbook.Contains c) {site : Option RowSite}
    (hsite : ∀ s, site = some s → s.sheet ∈ scope.workbook.sheets) (e : Expr) :
    Keeps workbook (scope.value registry site e) (scope.valueTrail registry site e) :=
  keeps_expr hworkbook (keeps_chained hworkbook _) hsite e

end Expressions

end Scope

/-! ## Evaluations -/

namespace Engine

variable {engine : Engine} {workbook : Workbook}

theorem keeps_valueAt {w : Workbook} (hworkbook : ∀ c, w.Contains c → workbook.Contains c) {site : Option RowSite}
    (hsite : ∀ s, site = some s → s.sheet ∈ w.sheets) (columnId : Option String) (e : Expr) :
    Keeps workbook (engine.valueAt w site columnId e) (engine.trailAt w site columnId e) := by
  have hvalue : Keeps workbook (Scope.value ⟨w, engine.options⟩ engine.registry site e)
      (Scope.valueTrail ⟨w, engine.options⟩ engine.registry site e) := Scope.keeps_value hworkbook hsite e
  match site, columnId with
  | none, _ => exact hvalue
  | some _, none => exact hvalue
  | some site, some id =>
    exact fun start => .bind (.const (Eval.only_ofExcept _)) fun cell after _ => hvalue.within cell.visit after

/-- **An evaluation writes no more than it should.** -/
theorem keeps_steps (engine : Engine) {context : Option Context} (hcontext : ∀ c ∈ context, c.workbook = workbook)
    (formula : String) : Keeps workbook (engine.steps context formula) (engine.stepsTrail context formula) := by
  have hworkbook : ∀ c, (context.elim Workbook.empty Context.workbook).Contains c → workbook.Contains c := by
    cases context with
    | none => exact fun c hc => absurd hc.1 List.not_mem_nil
    | some context => exact fun c hc => hcontext context rfl ▸ hc
  intro start
  unfold steps stepsTrail
  refine .bind (.const (Eval.only_ofExcept _)) fun site after hfound => ?_
  refine .bind (.const (Eval.only_ofExcept _)) fun e after' _ => ?_
  rw [Eval.ofExcept_apply] at hfound
  have hsite := sheet_mem_of_mapM_site (congrArg Prod.fst hfound)
  rw [← Trail.andThen_quiet (engine.trailAt _ _ _ _) (engine.valueAt _ _ _ _)]
  exact .bind (keeps_valueAt hworkbook hsite _ e after') fun v _ _ => .const (Eval.only_ofExcept _)

end Engine

end GameSheet
