import GameSheet.CommandLine.Run
import GameSheet.Proofs.Recalculation.Depth
import GameSheet.Proofs.Recalculation.Session

/-!
# Passes that come to an end

A pass over a sheet that a key names comes to an end exactly if every integer in the cells of the sheet is a number
(**`Engine.computeNamed_completes`**). Then each cell has a result of its own, data its value and a formula the outcome
of its own evaluation (`Engine.Completes`), however many formulas fail and in whatever way.

An integer that is no number is a failure of a formula that reads its cell, as any other one (`Failure.overflow`). The
pass converts the data of a cell outside of any formula, and there the integer stops it for all cells of the sheet
(`computeNamed_vast`).
-/

namespace GameSheet

open CommandLine

/-! ## Results of cells -/

/-- Every integer in the cells of the sheet is a number. -/
def Sheet.IntegersFit (s : Sheet) : Prop :=
  ∀ row ∈ s.rows, ∀ column ∈ s.columns, row.IntegerFits column

/-- The integers of a workbook are those of its sheets. -/
theorem Workbook.IntegersFit.sheet {w : Workbook} (h : w.IntegersFit) {s : Sheet} (hs : s ∈ w.sheets) :
    s.IntegersFit := by
  intro row hrow column hcolumn
  obtain ⟨i, hi, rfl⟩ := List.mem_iff_getElem.1 hrow
  exact h ⟨⟨s, ⟨i, hi⟩⟩, column⟩ ⟨hs, hcolumn⟩

/-- The result is one for a cell with the source: the value of its data, or what comes of its formula. -/
inductive ComputedCell.Answers : Source → ComputedCell → Prop
  | data {raw : RawCell} {v : CellValue} : raw.value = .ok v → Answers (.literal raw) (.literal v)
  | formula {body : String} {o : Outcome} : Answers (.formula body) (.formula o)

namespace Engine

/-- The evaluation of a cell, if it holds a formula. -/
def cellCall (w : Workbook) (sheet : Sheet) (row : Row) (column : Column) : Option (Option Context × String) :=
  match row.source column with
  | .literal _ => none
  | .formula body => some (some ⟨w, sheet.id, row.id, some column.id⟩, body)

/-- The evaluations of some cells of a row, from left to right. -/
def rowCalls (w : Workbook) (sheet : Sheet) (columns : List Column) (row : Row) : List (Option Context × String) :=
  columns.filterMap (cellCall w sheet row)

/-- The evaluations of the formula cells of a sheet, row by row. -/
def sheetCalls (w : Workbook) (sheet : Sheet) : List (Option Context × String) :=
  sheet.rows.flatMap (rowCalls w sheet sheet.columns)

/-- The memo after formulas that were evaluated in their contexts one after the other. -/
def sessionMemo (engine : Engine) (memo : Option Memo) : List (Option Context × String) → Option Memo
  | [] => memo
  | (context, formula) :: rest => engine.sessionMemo (engine.evaluateWith memo context formula).2 rest

/-- The computed sheet has a result for every cell of the sheet. Data has its value, and the outcomes of the formulas
are those of their evaluations one after the other, with one memo or without any. -/
structure Completes (engine : Engine) (w : Workbook) (sheet : Sheet) (useMemo : Bool) (computed : ComputedSheet) :
    Prop where
  sheet_eq : computed.sheet = sheet
  rows : computed.rows.map ComputedRow.row = sheet.rows
  columns : ∀ r ∈ computed.rows, r.cells.map Prod.fst = sheet.columns
  answers : ∀ r ∈ computed.rows, ∀ p ∈ r.cells, ComputedCell.Answers (r.row.source p.1) p.2
  outcomes : computed.outcomes.map (fun o => o.2.2) =
    engine.session (if useMemo then some ∅ else none) (sheetCalls w sheet)

/-- The pass over the sheet that a key names. -/
def computeNamed (engine : Engine) (w : Workbook) (key : String) (useMemo : Bool) : Except Stop ComputedSheet :=
  match w.sheet? key with
  | none => .error (.refused (.unknownSheet key))
  | some sheet => (engine.computeSheet w sheet useMemo).1.mapError fun e => .aborted (.overflow e)

end Engine

/-! ## Steps of a pass -/

/-- The step succeeds exactly under the condition. Then its result is related to the memos before and after it;
otherwise it is stopped by an integer. -/
def PassEnds {α : Type} (fits : Prop) (Q : Option Memo → α → Option Memo → Prop) (x : PassStep α) : Prop :=
  ∀ p : Pass, (fits ∧ ∃ a q, x p = (.ok a, q) ∧ Q p.memo a q.memo) ∨
    ¬fits ∧ ∃ q, x p = (.error .integerTooLarge, q)

section Steps

variable {α β : Type} {fits fits' : Prop} {Q : Option Memo → α → Option Memo → Prop}
  {R : Option Memo → β → Option Memo → Prop} {x : PassStep α}

theorem PassEnds.pure {a : α} (h : ∀ memo, Q memo a memo) : PassEnds True Q (Pure.pure a) :=
  fun p => .inl ⟨trivial, a, p, rfl, h p.memo⟩

theorem PassEnds.of_iff (h : PassEnds fits Q x) (hfits : fits ↔ fits') : PassEnds fits' Q x := by
  rwa [← propext hfits]

/-- One step after another: both conditions are needed. -/
theorem PassEnds.bind {k : α → PassStep β} (hx : PassEnds fits Q x)
    (hk : ∀ before a, PassEnds fits' (fun memo b after => Q before a memo → R before b after) (k a)) :
    PassEnds (fits ∧ fits') R (x >>= k) := by
  intro p
  rcases hx p with ⟨hfits, a, middle, hrun, ha⟩ | ⟨hfits, q, hrun⟩
  · rw [passStep_bind_ok hrun]
    rcases hk p.memo a middle with ⟨hfits', b, q, hrun', hb⟩ | ⟨hfits', q, hrun'⟩
    · exact .inl ⟨⟨hfits, hfits'⟩, b, q, hrun', hb ha⟩
    · exact .inr ⟨fun h => hfits' h.2, q, hrun'⟩
  · rw [passStep_bind_error hrun]
    exact .inr ⟨fun h => hfits h.1, q, rfl⟩

end Steps

/-! ## Sessions -/

namespace Engine

variable {engine : Engine} {w : Workbook} {sheet : Sheet} {row : Row}

theorem session_append (engine : Engine) : ∀ (calls more : List (Option Context × String)) (memo : Option Memo),
    engine.session memo (calls ++ more) =
      engine.session memo calls ++ engine.session (engine.sessionMemo memo calls) more
  | [], _, _ => rfl
  | (context, formula) :: rest, more, memo => by
    simp only [List.cons_append, session, sessionMemo, session_append engine rest]

theorem sessionMemo_append (engine : Engine) : ∀ (calls more : List (Option Context × String)) (memo : Option Memo),
    engine.sessionMemo memo (calls ++ more) = engine.sessionMemo (engine.sessionMemo memo calls) more
  | [], _, _ => rfl
  | (context, formula) :: rest, more, memo => by
    simp only [List.cons_append, sessionMemo, sessionMemo_append engine rest]

/-! ## The pass -/

/-- The outcomes are those of the evaluations, which lead from one memo to another one. -/
def Follow (engine : Engine) (calls : List (Option Context × String)) (outcomes : List Outcome)
    (memo memo' : Option Memo) : Prop :=
  outcomes = engine.session memo calls ∧ memo' = engine.sessionMemo memo calls

theorem Follow.append {calls more : List (Option Context × String)} {outcomes outcomes' : List Outcome}
    {memo middle memo' : Option Memo} (h : engine.Follow calls outcomes memo middle)
    (h' : engine.Follow more outcomes' middle memo') :
    engine.Follow (calls ++ more) (outcomes ++ outcomes') memo memo' := by
  obtain ⟨rfl, rfl⟩ := h
  obtain ⟨rfl, rfl⟩ := h'
  exact ⟨(session_append engine calls more memo).symm, (sessionMemo_append engine calls more memo).symm⟩

/-- A cell is computed unless it holds an integer that is no number. A formula is evaluated and cannot stop the pass. -/
theorem computeCell_ends (column : Column) :
    PassEnds (row.IntegerFits column)
      (fun memo cell memo' => ComputedCell.Answers (row.source column) cell ∧
        engine.Follow (rowCalls w sheet [column] row) cell.outcome?.toList memo memo')
      (engine.computeCell w sheet row column) := by
  intro p
  cases hs : row.source column with
  | literal raw =>
    rw [← Row.value_of_source hs]
    simp only [computeCell, hs, rowCalls, List.filterMap_cons, List.filterMap_nil, cellCall]
    cases hv : raw.value with
    | ok v => exact .inl ⟨⟨v, rfl⟩, .literal v, p, rfl, .data hv, rfl, rfl⟩
    | error e =>
      refine .inr ⟨?_, p, rfl⟩
      rintro ⟨_, h⟩
      cases h
  | formula body =>
    have hfits : row.IntegerFits column := by
      intro n hn
      cases hs.symm.trans (Row.source_of_int hn)
    simp only [computeCell, hs, rowCalls, List.filterMap_cons, List.filterMap_nil, cellCall]
    exact .inl ⟨hfits, _, _, rfl, .formula, rfl, rfl⟩

theorem rowCalls_cons (column : Column) (rest : List Column) :
    rowCalls w sheet (column :: rest) row = rowCalls w sheet [column] row ++ rowCalls w sheet rest row := by
  rw [rowCalls, rowCalls, rowCalls, ← List.filterMap_append, List.singleton_append]

/-- The cells of a row are computed unless one of them stops the pass. -/
theorem computeCells_ends : ∀ columns : List Column,
    PassEnds (∀ column ∈ columns, row.IntegerFits column)
      (fun memo cells memo' => cells.map Prod.fst = columns ∧
        (∀ p ∈ cells, ComputedCell.Answers (row.source p.1) p.2) ∧
          engine.Follow (rowCalls w sheet columns row) (cells.filterMap fun p => p.2.outcome?) memo memo')
      (engine.computeCells w sheet row columns)
  | [] => (PassEnds.pure fun _ => ⟨rfl, List.forall_mem_nil _, rfl, rfl⟩).of_iff (by simp)
  | column :: rest => by
    refine PassEnds.of_iff ((computeCell_ends column).bind fun before cell =>
      (computeCells_ends rest).bind fun middle cells => PassEnds.pure ?_) ?_
    · rintro memo ⟨hcolumns, hanswers, hrest⟩ ⟨hanswer, hfirst⟩
      refine ⟨by rw [List.map_cons, hcolumns], List.forall_mem_cons.2 ⟨hanswer, hanswers⟩, ?_⟩
      rw [rowCalls_cons]
      have hall := hfirst.append hrest
      cases cell with
      | literal v => exact hall
      | formula o => exact hall
    · rw [List.forall_mem_cons, and_true]

/-- The rows of a sheet are computed unless one of their cells stops the pass. -/
theorem computeRows_ends : ∀ rows : List Row,
    PassEnds (∀ row ∈ rows, ∀ column ∈ sheet.columns, row.IntegerFits column)
      (fun memo computed memo' => computed.map ComputedRow.row = rows ∧
        (∀ r ∈ computed, r.cells.map Prod.fst = sheet.columns) ∧
          (∀ r ∈ computed, ∀ p ∈ r.cells, ComputedCell.Answers (r.row.source p.1) p.2) ∧
            engine.Follow (rows.flatMap (rowCalls w sheet sheet.columns))
              (computed.flatMap fun r => r.cells.filterMap fun p => p.2.outcome?) memo memo')
      (engine.computeRows w sheet rows)
  | [] => (PassEnds.pure fun _ => ⟨rfl, List.forall_mem_nil _, List.forall_mem_nil _, rfl, rfl⟩).of_iff (by simp)
  | row :: rest => by
    refine PassEnds.of_iff ((computeCells_ends sheet.columns).bind fun before cells =>
      (computeRows_ends rest).bind fun middle computed => PassEnds.pure ?_) ?_
    · rintro memo ⟨hrest, hcolumns, hanswers, hfollow⟩ ⟨hfirst, hanswer, hcalls⟩
      refine ⟨by rw [List.map_cons, hrest], List.forall_mem_cons.2 ⟨hfirst, hcolumns⟩,
        List.forall_mem_cons.2 ⟨hanswer, hanswers⟩, ?_⟩
      rw [List.flatMap_cons, List.flatMap_cons]
      exact hcalls.append hfollow
    · rw [List.forall_mem_cons, and_true]

/-- The outcomes of a computed sheet are those of its cells. -/
theorem outcomes_computed (computed : ComputedSheet) : computed.outcomes.map (fun o => o.2.2) =
    computed.rows.flatMap fun r => r.cells.filterMap fun p => p.2.outcome? := by
  simp [ComputedSheet.outcomes, List.map_flatMap, List.map_filterMap, Function.comp_def]

/-- **A pass comes to an end exactly if the integers of the sheet are numbers**, with a result for every cell. -/
theorem computeSheet_ends (engine : Engine) (w : Workbook) (sheet : Sheet) (useMemo : Bool) :
    (sheet.IntegersFit ∧ ∃ computed, (engine.computeSheet w sheet useMemo).1 = .ok computed ∧
      engine.Completes w sheet useMemo computed) ∨
    ¬sheet.IntegersFit ∧ (engine.computeSheet w sheet useMemo).1 = .error .integerTooLarge := by
  have hends := @computeRows_ends engine w sheet sheet.rows ⟨if useMemo then some ∅ else none, []⟩
  unfold computeSheet
  rcases hends with ⟨hfits, rows, q, hrun, hrows, hcolumns, hanswers, hfollow⟩ | ⟨hfits, q, hrun⟩
  · rw [hrun]
    exact .inl ⟨hfits, ⟨sheet, rows⟩, rfl, rfl, hrows, hcolumns, hanswers, (outcomes_computed _).trans hfollow.1⟩
  · rw [hrun]
    exact .inr ⟨hfits, rfl⟩

/-- A pass that comes to an end is complete. -/
theorem completes_of_ok {useMemo : Bool} {computed : ComputedSheet}
    (h : (engine.computeSheet w sheet useMemo).1 = .ok computed) :
    engine.Completes w sheet useMemo computed := by
  rcases engine.computeSheet_ends w sheet useMemo with ⟨-, computed', hrun, hcompletes⟩ | ⟨-, hrun⟩
  · rw [hrun] at h
    cases h
    exact hcompletes
  · rw [hrun] at h
    cases h

/-- **Passes that come to an end.** The pass over the sheet that a key names is refused exactly where the workbook has
no such sheet. Over a sheet of the workbook it comes to an end, with a result for every cell, exactly if every integer
in the cells of the sheet is a number, whatever becomes of the formulas; otherwise such an integer stops it. -/
theorem computeNamed_completes (engine : Engine) (w : Workbook) (key : String) (useMemo : Bool) :
    (engine.computeNamed w key useMemo = .error (.refused (.unknownSheet key)) ↔ w.sheet? key = none) ∧
      ∀ sheet, w.sheet? key = some sheet →
        ((∃ computed, engine.computeNamed w key useMemo = .ok computed ∧ engine.Completes w sheet useMemo computed) ↔
          sheet.IntegersFit) ∧
        (engine.computeNamed w key useMemo = .error (.aborted (.overflow .integerTooLarge)) ↔ ¬sheet.IntegersFit) := by
  unfold computeNamed
  cases hsheet : w.sheet? key with
  | none => exact ⟨iff_of_true rfl rfl, fun sheet h => nomatch h⟩
  | some sheet =>
    dsimp only
    refine ⟨iff_of_false (fun h => ?_) (fun h => nomatch h), ?_⟩
    · cases hrun : (engine.computeSheet w sheet useMemo).1 <;> rw [hrun] at h <;> cases h
    rintro _ ⟨⟩
    rcases engine.computeSheet_ends w sheet useMemo with ⟨hfits, computed, hrun, hcompletes⟩ | ⟨hfits, hrun⟩
    · rw [hrun]
      exact ⟨iff_of_true ⟨computed, rfl, hcompletes⟩ hfits, iff_of_false (fun h => nomatch h) (not_not_intro hfits)⟩
    · rw [hrun]
      exact ⟨iff_of_false (fun ⟨_, h, _⟩ => nomatch h) hfits, iff_of_true rfl hfits⟩

end Engine

/-! ## A ledger, and an integer that is no number -/

/-- The ledger is computed in full. -/
theorem computeNamed_completes_ledger : (ledger "paid").sheet? "Books" = some (ledgerSheet "paid") ∧
    ∃ computed, Engine.computeNamed {} (ledger "paid") "Books" true = .ok computed ∧
      Engine.Completes {} (ledger "paid") (ledgerSheet "paid") true computed := by
  have hsheet : (ledger "paid").sheet? "Books" = some (ledgerSheet "paid") := by rfl
  have hfits : (ledgerSheet "paid").IntegersFit := (ledger_integersFit "paid").sheet (List.mem_singleton.2 rfl)
  exact ⟨hsheet, ((Engine.computeNamed_completes {} (ledger "paid") "Books" true).2 _ hsheet).1.2 hfits⟩

/-- A sheet of an integer that is no number and of a formula. -/
def vastSheet : Sheet where
  id := "S"
  name := "S"
  columns := [⟨"T", "T", .general, none⟩, ⟨"U", "U", .general, none⟩]
  rows := [⟨"r", [("T", .int (10 ^ 400)), ("U", .text "=1+1")]⟩]
  columnNames_nodup := by decide
  columnIds_nodup := by decide
  rowIds_nodup := List.nodup_singleton "r"

theorem floatOfInt_vast : floatOfInt (10 ^ 400) = .error .integerTooLarge := by
  have hinf : (Float.ofInt (10 ^ 400)).isInf = true := by decide +kernel
  simp only [floatOfInt, hinf, if_true]

/-- One cell can stop the pass over a whole sheet. -/
theorem computeNamed_vast : ¬∀ (engine : Engine) (w : Workbook) (key : String) (useMemo : Bool) (sheet : Sheet),
    w.sheet? key = some sheet → ∃ computed, engine.computeNamed w key useMemo = .ok computed := by
  intro h
  have hsheet : (Workbook.mk [vastSheet] (by simp) (by simp)).sheet? "S" = some vastSheet := by rfl
  obtain ⟨computed, hcomputed⟩ := h {} _ "S" true vastSheet hsheet
  have hunfit : ¬vastSheet.IntegersFit := fun hfits => by
    obtain ⟨x, hx⟩ := hfits _ List.mem_cons_self _ List.mem_cons_self _ rfl
    rw [floatOfInt_vast] at hx
    cases hx
  have hstops := (Engine.computeSheet_ends {} ⟨[vastSheet], by simp, by simp⟩ vastSheet true).resolve_left
    fun hends => hunfit hends.1
  rw [Engine.computeNamed, hsheet] at hcomputed
  dsimp only at hcomputed
  rw [hstops.2] at hcomputed
  cases hcomputed

end GameSheet
