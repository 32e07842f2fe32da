import GameSheet.Proofs.Evaluation.Memo
import GameSheet.Proofs.Evaluation.Outcome
import GameSheet.Recalculation

/-!
# A pass with a memo

A pass over a sheet gives the same with and without a memo, as far as the pass without one is not stopped by the limit
of the depth: **`computeSheet_memo`**. The memo only saves work. It may let a formula be computed whose chain would
otherwise be too deep, a cycle may be reported by another path, and a warning about a cell is given to its first reader
alone.

The memo is sound at the start, since it is empty, and each formula keeps it sound, whatever comes of the formula
(`evaluateWith_agree`). So it is sound in front of each formula of the pass.
-/

namespace GameSheet

open Formula

/-! ## Outcomes -/

namespace Outcome

/-- The outcome with a memo says the same as the one without, up to the path of a cycle, with no more warnings. -/
structure Refines (memoised plain : Outcome) : Prop where
  value : memoised.value? = plain.value?
  code : memoised.code? = plain.code?
  message : plain.code? ≠ some "cycle_error" → memoised.message? = plain.message?
  warnings : memoised.warnings.Sublist plain.warnings

theorem Refines.refl (o : Outcome) : o.Refines o :=
  ⟨rfl, rfl, fun _ => rfl, .refl _⟩

/-- Two cycles. -/
theorem Refines.cycle (path path' : List Visit) : (failed (.cycle path')).Refines (failed (.cycle path)) :=
  ⟨rfl, rfl, fun h => absurd rfl h, .refl _⟩

end Outcome

/-- A computed cell of a pass with a memo, next to the one of a pass without, unless the latter was too deep. -/
inductive ComputedCell.Refines : ComputedCell → ComputedCell → Prop
  | literal (v : CellValue) : Refines (.literal v) (.literal v)
  | formula {memoised plain : Outcome} :
      (plain.code? ≠ some "recursion_limit" → memoised.Refines plain) → Refines (.formula memoised) (.formula plain)

/-- A computed row of a pass with a memo, next to the one of a pass without. -/
structure ComputedRow.Refines (memoised plain : ComputedRow) : Prop where
  row : memoised.row = plain.row
  cells : List.Forall₂ (fun m p => m.1 = p.1 ∧ m.2.Refines p.2) memoised.cells plain.cells

/-! ## One formula -/

namespace Engine

variable {engine : Engine} {w : Workbook}

/-- The context of a cell, by identifiers. -/
def contextOf (w : Workbook) (cell : CellSite) : Context :=
  ⟨w, cell.site.sheet.id, cell.site.row.id, some cell.column.id⟩

/-- The formula of a cell is evaluated inside the cell. -/
theorem steps_contextOf {cell : CellSite} (hc : w.Contains cell) (formula : String) :
    engine.steps (some (contextOf w cell)) formula = engine.stepsWith formula fun e =>
      Eval.within ⟨cell.key, cell.label⟩ (Scope.value ⟨w, engine.options⟩ engine.registry (some cell.site) e) := by
  have hsite : Context.site (contextOf w cell) = .ok cell.site := Context.site_of_mem hc.1 cell.site.index _
  rw [steps_of_site hsite, ← funext (valueAt_of_ownCell (ownCell_of_mem hc.2))]
  rfl

/-- The runs of the formula of a cell from the start of an evaluation. -/
theorem agree_start {cell : CellSite} {body : String} (hc : w.Contains cell) (hb : cell.source = .formula body)
    {e : Expr} (he : parse engine.registry body = .ok e) {memo : Option Memo}
    (hsound : SoundMemo ⟨w, engine.options⟩ engine.registry memo) :
    Agree ⟨w, engine.options⟩ engine.registry ⟨engine.options.maxDepth, []⟩
      (fun n => Scope.ideal ⟨w, engine.options⟩ engine.registry n cell) (engine.start none) (engine.start memo)
      (Eval.within ⟨cell.key, cell.label⟩ (Scope.value ⟨w, engine.options⟩ engine.registry (some cell.site) e)
        (engine.start none))
      (Eval.within ⟨cell.key, cell.label⟩ (Scope.value ⟨w, engine.options⟩ engine.registry (some cell.site) e)
        (engine.start memo)) := by
  have hasked : Asked ⟨w, engine.options⟩ engine.registry ⟨engine.options.maxDepth, []⟩
      (fun n => Scope.ideal ⟨w, engine.options⟩ engine.registry n cell) :=
    .inl fun _ _ _ hmem => absurd hmem List.not_mem_nil
  refine .within hc hb rfl rfl rfl hsound hasked fun inside hinside => ?_
  have hbody : Scope.idealBody ⟨w, engine.options⟩ engine.registry body cell.site =
      fun n => exprRun ⟨w, engine.options⟩ engine.registry
        (Scope.chained ⟨w, engine.options⟩ engine.registry engine.options.maxDepth) cell.site e (.ideal n) := by
    funext n
    unfold Scope.idealBody
    rw [he]
    rfl
  have hlevels := asked_inside hc hb hinside hasked
  rw [hbody] at hlevels ⊢
  exact (lockstep_eval _ inside cell.site hc.1 e).agree hlevels _ _ rfl rfl rfl hsound

/-- What comes of runs that agree, from states without warnings: the run with a memo refines the other one, unless that
one is cut off. -/
theorem refines_of_agree {scope : Scope} {g : Guard} {x : Nat → Eval CellValue} (hx : Steady x) {plain memoised : Walk}
    {r r' : Except Failure CellValue × Walk} (h : Agree scope engine.registry g x plain memoised r r')
    (hplain : plain.warnings = []) (hmemoised : memoised.warnings = [])
    (hcode : (outcomeOf (r.1 >>= engine.checkResult, r.2)).code? ≠ some "recursion_limit") :
    (outcomeOf (r'.1 >>= engine.checkResult, r'.2)).Refines (outcomeOf (r.1 >>= engine.checkResult, r.2)) := by
  obtain ⟨o, after⟩ := r
  obtain ⟨o', after'⟩ := r'
  have hcut : ¬Cut o := by
    rintro ⟨limit, rfl⟩
    exact hcode rfl
  obtain ⟨-, new, new', hnew, hnew', hsub⟩ := h.reached hcut
  rw [hplain, List.nil_append] at hnew
  rw [hmemoised, List.nil_append] at hnew'
  rcases h.matches hx hcut with heq | ⟨⟨path, hpath⟩, ⟨path', hpath'⟩⟩
  · obtain rfl : o = o' := heq
    cases o with
    | error f => exact .refl _
    | ok v =>
      cases hv : engine.checkResult v with
      | error f =>
        simp only [bind, Except.bind, hv]
        exact .refl (.failed f)
      | ok v' =>
        simp only [bind, Except.bind, hv, outcomeOf]
        refine ⟨rfl, rfl, fun _ => rfl, ?_⟩
        show after'.warnings.Sublist after.warnings
        rw [show after.warnings = new from hnew, show after'.warnings = new' from hnew']
        exact hsub
  · obtain rfl : o = .error (.cycle path) := hpath
    obtain rfl : o' = .error (.cycle path') := hpath'
    exact .cycle path path'

/-- **Runs of its value that agree make evaluations of a formula that agree**: without a memo there is none
afterwards, a sound memo stays sound, and the outcome with it refines the one without, unless that one is cut off. -/
theorem evaluateWith_of_agree {context : Option Context} {formula : String} {value : Expr → Eval CellValue}
    (hsteps : engine.steps context formula = engine.stepsWith formula value) {memo : Option Memo}
    (hsound : SoundMemo ⟨w, engine.options⟩ engine.registry memo)
    (h : ∀ e, engine.read formula = .ok e → ∃ g x, Steady x ∧ Agree ⟨w, engine.options⟩ engine.registry g x
      (engine.start none) (engine.start memo) (value e (engine.start none)) (value e (engine.start memo))) :
    (engine.evaluateWith none context formula).2 = none ∧
      SoundMemo ⟨w, engine.options⟩ engine.registry (engine.evaluateWith memo context formula).2 ∧
        ((engine.evaluateWith none context formula).1.code? ≠ some "recursion_limit" →
          (engine.evaluateWith memo context formula).1.Refines (engine.evaluateWith none context formula).1) := by
  simp only [evaluateWith_eq, hsteps]
  cases he : engine.read formula with
  | error f =>
    simp only [stepsWith_of_read_error he]
    exact ⟨rfl, hsound, fun _ => .refl _⟩
  | ok e =>
    obtain ⟨g, x, hx, hagree⟩ := h e he
    rw [stepsWith_of_read_ok he rfl, stepsWith_of_read_ok he rfl]
    exact ⟨hagree.plain_memo, hagree.memoised_told.sound, refines_of_agree hx hagree rfl rfl⟩

/-- **A memo changes nothing but the path of a cycle and the number of warnings, and stays sound.** -/
theorem evaluateWith_agree {cell : CellSite} {body : String} (hc : w.Contains cell) (hb : cell.source = .formula body)
    (hplain : stripMarker body = body) {memo : Option Memo}
    (hsound : SoundMemo ⟨w, engine.options⟩ engine.registry memo) :
    (engine.evaluateWith none (some (contextOf w cell)) body).2 = none ∧
      SoundMemo ⟨w, engine.options⟩ engine.registry (engine.evaluateWith memo (some (contextOf w cell)) body).2 ∧
        ((engine.evaluateWith none (some (contextOf w cell)) body).1.code? ≠ some "recursion_limit" →
          (engine.evaluateWith memo (some (contextOf w cell)) body).1.Refines
            (engine.evaluateWith none (some (contextOf w cell)) body).1) :=
  evaluateWith_of_agree (steps_contextOf hc body) hsound fun _ he =>
    ⟨_, _, Scope.steady_ideal cell, agree_start hc hb (hplain ▸ parse_of_read he) hsound⟩

end Engine

/-! ## The pass -/

section Pass

variable {engine : Engine} {w : Workbook} {α β γ δ : Type}

/-- A step of a pass without a memo that succeeds, next to one of a pass with a memo: both give what corresponds, and
the memo stays sound. -/
def PassAgree (engine : Engine) (w : Workbook) (R : β → α → Prop) (x : PassStep α) (y : PassStep β) : Prop :=
  ∀ (p p' : Pass) (a : α) (q : Pass), p.memo = none → SoundMemo ⟨w, engine.options⟩ engine.registry p'.memo →
    x p = (.ok a, q) → q.memo = none ∧ ∃ b q', y p' = (.ok b, q') ∧
      SoundMemo ⟨w, engine.options⟩ engine.registry q'.memo ∧ R b a

theorem passStep_bind_ok {x : PassStep α} {k : α → PassStep β} {p q : Pass} {a : α} (h : x p = (.ok a, q)) :
    (x >>= k) p = k a q := by
  show (ExceptT.bind x k) p = _
  simp [ExceptT.bind, ExceptT.mk, bind, StateT.bind, h, ExceptT.bindCont]

theorem passStep_bind_error {x : PassStep α} {k : α → PassStep β} {p q : Pass} {e : Overflow}
    (h : x p = (.error e, q)) : (x >>= k) p = (.error e, q) := by
  show (ExceptT.bind x k) p = _
  simp [ExceptT.bind, ExceptT.mk, bind, StateT.bind, h, ExceptT.bindCont]
  rfl

theorem PassAgree.pure {R : β → α → Prop} {a : α} {b : β} (h : R b a) :
    PassAgree engine w R (Pure.pure a) (Pure.pure b) := by
  intro p p' a' q hp hp' hx
  cases hx
  exact ⟨hp, b, p', rfl, hp', h⟩

theorem PassAgree.bind {R : β → α → Prop} {S : δ → γ → Prop} {x : PassStep α} {y : PassStep β} {k : α → PassStep γ}
    {l : β → PassStep δ} (hxy : PassAgree engine w R x y) (hkl : ∀ a b, R b a → PassAgree engine w S (k a) (l b)) :
    PassAgree engine w S (x >>= k) (y >>= l) := by
  intro p p' c q hp hp' hrun
  rcases hx : x p with ⟨o, mid⟩
  cases o with
  | error e => rw [passStep_bind_error hx] at hrun; cases hrun
  | ok a =>
    rw [passStep_bind_ok hx] at hrun
    obtain ⟨hmid, b, mid', hy, hmid', hab⟩ := hxy p p' a mid hp hp' hx
    rw [passStep_bind_ok hy]
    exact hkl a b hab mid mid' c q hmid hmid' hrun

variable {sheet : Sheet}

/-- A cell with and without a memo. -/
theorem computeCell_agree (plain : w.PlainBodies) {cell : CellSite} (hc : w.Contains cell) :
    PassAgree engine w ComputedCell.Refines
      (engine.computeCell w cell.site.sheet cell.site.row cell.column)
      (engine.computeCell w cell.site.sheet cell.site.row cell.column) := by
  unfold Engine.computeCell
  cases hs : cell.site.row.source cell.column with
  | literal raw =>
    cases hv : raw.value with
    | ok v => simpa only [hs, hv] using PassAgree.pure (.literal v)
    | error e =>
      intro p p' a q _ _ hrun
      simp only [hv] at hrun
      cases hrun
  | formula body =>
    intro p p' a q hp hp' hrun
    obtain ⟨hnone, hsound, hrefines⟩ := engine.evaluateWith_agree hc hs (plain.stripMarker_eq hc hs) hp'
    obtain ⟨_, events⟩ := p
    cases hp
    cases hrun
    exact ⟨hnone, _, _, rfl, hsound, .formula hrefines⟩

/-- The cells of a row with and without a memo. -/
theorem computeCells_agree (plain : w.PlainBodies) (site : RowSite) (hs : site.sheet ∈ w.sheets) :
    ∀ {columns : List Column}, columns ⊆ site.sheet.columns →
      PassAgree engine w (List.Forall₂ fun m p => m.1 = p.1 ∧ m.2.Refines p.2)
        (engine.computeCells w site.sheet site.row columns) (engine.computeCells w site.sheet site.row columns)
  | [], _ => .pure .nil
  | c :: rest, hcolumns => by
    obtain ⟨hc, hrest⟩ := List.cons_subset.1 hcolumns
    have hcontains : w.Contains ⟨site, c⟩ := ⟨hs, hc⟩
    refine (computeCell_agree plain hcontains).bind fun p m hpm => ?_
    refine (computeCells_agree plain site hs hrest).bind fun ps ms hps => ?_
    exact .pure (.cons ⟨rfl, hpm⟩ hps)

/-- Some rows with and without a memo. -/
theorem computeRows_agree (plain : w.PlainBodies) (hs : sheet ∈ w.sheets) :
    ∀ {rows : List Row}, rows ⊆ sheet.rows →
      PassAgree engine w (List.Forall₂ ComputedRow.Refines) (engine.computeRows w sheet rows)
        (engine.computeRows w sheet rows)
  | [], _ => .pure .nil
  | r :: rest, hrows => by
    obtain ⟨hr, hrest⟩ := List.cons_subset.1 hrows
    obtain ⟨i, rfl⟩ := List.mem_iff_get.1 hr
    refine (computeCells_agree plain ⟨sheet, i⟩ hs (List.Subset.refl _)).bind fun ps ms hps => ?_
    refine (computeRows_agree plain hs hrest).bind fun prs mrs hprs => ?_
    exact .pure (.cons ⟨rfl, hps⟩ hprs)

/-- **A pass with a memo gives every formula cell what a pass without one gives it**, unless the latter refuses it for
its depth: the same value or the same class of failure, in the same words unless it is a cycle, and no warning that the
other pass does not give. -/
theorem computeSheet_memo (engine : Engine) {w : Workbook} (plain : w.PlainBodies) {sheet : Sheet}
    (hs : sheet ∈ w.sheets) {computed : ComputedSheet} (h : (engine.computeSheet w sheet false).1 = .ok computed) :
    ∃ memoised, (engine.computeSheet w sheet true).1 = .ok memoised ∧
      List.Forall₂ ComputedRow.Refines memoised.rows computed.rows := by
  unfold Engine.computeSheet at h ⊢
  have hempty : SoundMemo ⟨w, engine.options⟩ engine.registry (some ∅) := fun _ _ _ hknown => by simp at hknown
  rcases hrun : engine.computeRows w sheet sheet.rows ⟨none, []⟩ with ⟨o, q⟩
  cases o with
  | error e =>
    simp only [Bool.false_eq_true, if_false, hrun] at h
    cases h
  | ok rows =>
    simp only [Bool.false_eq_true, if_false, hrun] at h
    cases h
    obtain ⟨-, rows', q', hrun', -, hrefines⟩ := computeRows_agree plain hs (List.Subset.refl _) ⟨none, []⟩ ⟨some ∅, []⟩
      rows q rfl hempty hrun
    exact ⟨⟨sheet, rows'⟩, by simp only [if_true, hrun'], hrefines⟩

/-- The ledger with a memo, next to what it is without. -/
theorem computeSheet_memo_ledger : ∃ memoised,
    (Engine.computeSheet {} (ledger "paid") (ledgerSheet "paid") true).1 = .ok memoised ∧
      List.Forall₂ ComputedRow.Refines memoised.rows
        [⟨(ledgerSheet "paid").rows[0], ledgerColumns.zip [.literal (.text "one"), .literal (.text "five"),
          .literal (.text "paid"), .formula (.success (.text "five") []), .formula (.success (.text "five") [])]⟩] :=
  have hcomputed : (Engine.computeSheet {} (ledger "paid") (ledgerSheet "paid") false).1 =
      .ok ⟨ledgerSheet "paid", [⟨(ledgerSheet "paid").rows[0], ledgerColumns.zip [.literal (.text "one"),
        .literal (.text "five"), .literal (.text "paid"), .formula (.success (.text "five") []),
        .formula (.success (.text "five") [])]⟩]⟩ := by cbv
  computeSheet_memo {} ledger_plainBodies (List.mem_singleton.2 rfl) hcomputed

end Pass

end GameSheet
