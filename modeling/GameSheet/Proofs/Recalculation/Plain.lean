import GameSheet.Proofs.Evaluation.Cycles
import GameSheet.Proofs.Recalculation.Memo

/-!
# A pass without a memo

A pass over a sheet without a memo computes every cell as if it were the only one: a cell that holds data has it as its
value, and a formula cell has the outcome that its formula has by itself in the context of the cell
(`Engine.mem_outcomes_iff`).

There is no memo in front of each cell, since an evaluation without one makes none.
-/

namespace GameSheet

open Formula

/-! ## Steps of a pass -/

section Steps

variable {α β : Type} {P : α → Prop} {Q : β → Prop} {x : PassStep α} {k : α → PassStep β}

/-- A step of a pass without a memo that succeeds gives something of a kind, and there is no memo after it. -/
def PassGives {α : Type} (P : α → Prop) (x : PassStep α) : Prop :=
  ∀ (p q : Pass) (a : α), p.memo = none → x p = (.ok a, q) → q.memo = none ∧ P a

theorem PassGives.pure {a : α} (h : P a) : PassGives P (Pure.pure a) := by
  intro p q b hp hrun
  cases hrun
  exact ⟨hp, h⟩

theorem PassGives.bind (hx : PassGives P x) (hk : ∀ a, P a → PassGives Q (k a)) : PassGives Q (x >>= k) := by
  intro p q b hp hrun
  rcases hmid : x p with ⟨o, mid⟩
  cases o with
  | error e =>
    rw [passStep_bind_error hmid] at hrun
    cases hrun
  | ok a =>
    rw [passStep_bind_ok hmid] at hrun
    obtain ⟨hmemo, ha⟩ := hx p mid a hp hmid
    exact hk a ha mid q b hmemo hrun

end Steps

namespace Engine

variable {engine : Engine} {w : Workbook} {sheet : Sheet}

/-- An evaluation without a memo makes none. -/
theorem evaluateWith_none (engine : Engine) (context : Option Context) (formula : String) :
    engine.evaluateWith none context formula = (engine.evaluate context formula, none) := by
  have hmemo := (reportsCycles_steps engine context formula (engine.start none) rfl rfl).2.1
  refine Prod.ext rfl ?_
  rw [evaluateWith_eq]
  exact hmemo

/-! ## The pass -/

/-- What becomes of a cell that is computed by itself. -/
def cellAlone (engine : Engine) (w : Workbook) (sheet : Sheet) (row : Row) (column : Column) :
    Except Overflow ComputedCell :=
  match row.source column with
  | .literal raw => raw.value.map .literal
  | .formula body => .ok (.formula (engine.evaluate (some ⟨w, sheet.id, row.id, some column.id⟩) body))

theorem computeCell_plain (row : Row) (column : Column) :
    PassGives (fun cell => engine.cellAlone w sheet row column = .ok cell) (engine.computeCell w sheet row column) := by
  unfold computeCell cellAlone
  cases row.source column with
  | literal raw =>
    dsimp only
    cases raw.value with
    | ok v => exact .pure rfl
    | error e =>
      intro p q a _ hrun
      cases hrun
  | formula body =>
    intro p q a hp hrun
    obtain ⟨_, events⟩ := p
    cases hp
    simp only [computeFormula, evaluateWith_none] at hrun
    cases hrun
    exact ⟨rfl, rfl⟩

theorem computeCells_plain (row : Row) : ∀ columns, PassGives
    (fun cells => cells.map Prod.fst = columns ∧ ∀ p ∈ cells, engine.cellAlone w sheet row p.1 = .ok p.2)
    (engine.computeCells w sheet row columns)
  | [] => .pure ⟨rfl, List.forall_mem_nil _⟩
  | c :: rest =>
    (computeCell_plain row c).bind fun _ hcell => (computeCells_plain row rest).bind fun _ hcells =>
      .pure ⟨by rw [List.map_cons, hcells.1], List.forall_mem_cons.2 ⟨hcell, hcells.2⟩⟩

/-- **Rows of a pass without a memo**: every cell is what it is by itself. -/
theorem computeRows_plain : ∀ rows, PassGives
    (fun computed => computed.map ComputedRow.row = rows ∧ ∀ r ∈ computed,
      r.cells.map Prod.fst = sheet.columns ∧ ∀ p ∈ r.cells, engine.cellAlone w sheet r.row p.1 = .ok p.2)
    (engine.computeRows w sheet rows)
  | [] => .pure ⟨rfl, List.forall_mem_nil _⟩
  | r :: rest =>
    (computeCells_plain r sheet.columns).bind fun _ hcells => (computeRows_plain rest).bind fun _ hrows =>
      .pure ⟨by rw [List.map_cons, hrows.1], List.forall_mem_cons.2 ⟨hcells, hrows.2⟩⟩

/-- **The outcome of a formula cell in a pass without a memo** is the one that its formula has by itself. -/
theorem mem_outcomes_iff {computed : ComputedSheet} (h : (engine.computeSheet w sheet false).1 = .ok computed)
    {row : Row} (hrow : row ∈ sheet.rows) {column : Column} (hcolumn : column ∈ sheet.columns) {body : String}
    (hbody : row.source column = .formula body) {o : Outcome} :
    (row, column, o) ∈ computed.outcomes ↔
      o = engine.evaluate (some ⟨w, sheet.id, row.id, some column.id⟩) body := by
  have halone : engine.cellAlone w sheet row column =
      .ok (.formula (engine.evaluate (some ⟨w, sheet.id, row.id, some column.id⟩) body)) := by
    simp only [cellAlone, hbody]
  unfold computeSheet at h
  rcases hrun : engine.computeRows w sheet sheet.rows ⟨none, []⟩ with ⟨rows, q⟩
  simp only [Bool.false_eq_true, if_false, hrun] at h
  cases rows with
  | error e => cases h
  | ok rows =>
    cases h
    obtain ⟨-, hrows, hcells⟩ := computeRows_plain sheet.rows ⟨none, []⟩ q rows rfl hrun
    simp only [ComputedSheet.outcomes, List.mem_flatMap, List.mem_filterMap, Option.map_eq_some_iff, Prod.mk.injEq]
    constructor
    · rintro ⟨r, hr, p, hp, o', ho', rfl, rfl, rfl⟩
      have hcell := (hcells r hr).2 p hp
      rw [halone] at hcell
      rw [← Except.ok.inj hcell] at ho'
      exact (Option.some.inj ho').symm
    · rintro rfl
      rw [← hrows] at hrow
      obtain ⟨r, hr, rfl⟩ := List.mem_map.1 hrow
      rw [← (hcells r hr).1] at hcolumn
      obtain ⟨p, hp, rfl⟩ := List.mem_map.1 hcolumn
      refine ⟨r, hr, p, hp, _, ?_, rfl, rfl, rfl⟩
      have hcell := (hcells r hr).2 p hp
      rw [halone] at hcell
      rw [← Except.ok.inj hcell]
      rfl

end Engine

end GameSheet
