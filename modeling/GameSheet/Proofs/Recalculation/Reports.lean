import GameSheet.Proofs.Journal.Reading
import GameSheet.Proofs.Recalculation.Views

/-!
# What a pass reports

A pass reports each formula cell that has failed, in the order of the rows and within a row of the columns, and at the
end the pass itself (`Engine.computeSheet_events`). Whatever else happens on the way, a formula that succeeds, a failure
that a formula recovers from, a failing cell that other cells read, is reported by nobody: a step of the pass adds what
its own cells have to report (`Reports`).

**`computeSheet_journal`**: the journal of the engine gains a record for each of these reports and nothing else, with
what the computed sheet shows (`NotesFailure`, `NotesPass`).
-/

namespace GameSheet

/-! ## Reports of a pass -/

/-- The formula of a source; data has an empty one. -/
def Source.body : Source → String
  | .formula body => body
  | .literal _ => ""

/-- The report of the failure of a cell. -/
def failureReport (sheet : Sheet) (row : Row) (column : Column) (f : Failure) : Event where
  severity := .warning
  topic := .ofCode f.code
  message := f.message
  context := [
    ("formula", .text (row.source column).body),
    ("sheet_id", .text sheet.id),
    ("row_id", .text row.id),
    ("column_id", .text column.id)]
  errorCode := some f.code

/-- The reports of some failures, one after the other. -/
def failureReports (sheet : Sheet) (failures : List (Row × Column × Failure)) : List Event :=
  failures.map fun f => failureReport sheet f.1 f.2.1 f.2.2

/-- The failures of some cells of a row. -/
def cellFailures (row : Row) (cells : List (Column × ComputedCell)) : List (Row × Column × Failure) :=
  cells.filterMap fun p => (p.2.outcome?.bind Outcome.failure?).map fun f => (row, p.1, f)

theorem ComputedSheet.failures_eq (s : ComputedSheet) :
    s.failures = s.rows.flatMap fun r => cellFailures r.row r.cells := by
  rw [failures, outcomes, List.filterMap_flatMap]
  refine List.flatMap_congr fun r hr => ?_
  rw [List.filterMap_filterMap, cellFailures]
  refine List.filterMap_congr fun p _ => ?_
  cases hcell : p.2.outcome? with
  | none => simp [hcell]
  | some o => simp [hcell]

/-- The step adds reports that go with its result. -/
def Reports {α : Type} (Q : α → List Event → Prop) (x : PassStep α) : Prop :=
  ∀ p a q, x p = (.ok a, q) → ∃ new, q.events = p.events ++ new ∧ Q a new

section Steps

variable {α β : Type} {Q : α → List Event → Prop} {R : β → List Event → Prop}

theorem Reports.pure {a : α} (h : Q a []) : Reports Q (Pure.pure a) := by
  intro p a' q hrun
  cases hrun
  exact ⟨[], (List.append_nil _).symm, h⟩

/-- One step after another: the reports of the first, then those of the second. -/
theorem Reports.bind {x : PassStep α} {k : α → PassStep β} (hx : Reports Q x)
    (hk : ∀ a, Reports (fun b new => ∀ before, Q a before → R b (before ++ new)) (k a)) : Reports R (x >>= k) := by
  intro p b q hrun
  rcases hfirst : x p with ⟨o, middle⟩
  cases o with
  | error e =>
    rw [passStep_bind_error hfirst] at hrun
    cases hrun
  | ok a =>
    rw [passStep_bind_ok hfirst] at hrun
    obtain ⟨before, hbefore, ha⟩ := hx p a middle hfirst
    obtain ⟨new, hnew, hb⟩ := hk a middle b q hrun
    exact ⟨before ++ new, by rw [hnew, hbefore, List.append_assoc], hb before ha⟩

end Steps

/-! ## The pass -/

namespace Engine

variable {engine : Engine} {w : Workbook} {sheet : Sheet}

/-- The report of an outcome is that of the failure that it is, if it is one. -/
theorem report_toList {row : Row} {column : Column} {body : String} (hsource : row.source column = .formula body)
    (o : Outcome) : (o.report (some ⟨w, sheet.id, row.id, some column.id⟩) body).toList =
      failureReports sheet (cellFailures row [(column, .formula o)]) := by
  cases o with
  | success v warnings => rfl
  | failed f =>
    have hreport : failureReports sheet (cellFailures row [(column, .formula (.failed f))]) =
        [failureReport sheet row column f] := rfl
    rw [hreport, failureReport, hsource]
    rfl

/-- A cell is reported exactly if it holds a formula that fails. -/
theorem computeCell_reports (row : Row) (column : Column) :
    Reports (fun cell new => new = failureReports sheet (cellFailures row [(column, cell)]))
      (engine.computeCell w sheet row column) := by
  unfold computeCell
  cases hsource : row.source column with
  | literal raw =>
    dsimp only
    cases raw.value with
    | ok v => exact .pure rfl
    | error e =>
      intro p a q hrun
      cases hrun
  | formula body =>
    intro p cell q hrun
    cases hrun
    exact ⟨_, rfl, report_toList hsource _⟩

theorem computeCells_reports (row : Row) : ∀ columns : List Column,
    Reports (fun cells new => new = failureReports sheet (cellFailures row cells))
      (engine.computeCells w sheet row columns)
  | [] => .pure rfl
  | column :: rest => by
    refine (computeCell_reports row column).bind fun cell => (computeCells_reports row rest).bind fun cells => .pure ?_
    rintro _ rfl _ rfl
    rw [List.append_nil, failureReports, failureReports, ← List.map_append, cellFailures, cellFailures,
      ← List.filterMap_append, List.singleton_append]
    rfl

theorem computeRows_reports : ∀ rows : List Row,
    Reports (fun computed new => new = failureReports sheet (computed.flatMap fun r => cellFailures r.row r.cells))
      (engine.computeRows w sheet rows)
  | [] => .pure rfl
  | row :: rest => by
    refine (computeCells_reports row sheet.columns).bind fun cells => (computeRows_reports rest).bind fun computed =>
      .pure ?_
    rintro _ rfl _ rfl
    rw [List.append_nil, failureReports, failureReports, ← List.map_append, List.flatMap_cons]
    rfl

/-- **A pass reports the failures of its formula cells, in their order, and then itself.** -/
theorem computeSheet_events {useMemo : Bool} {computed : ComputedSheet}
    (h : (engine.computeSheet w sheet useMemo).1 = .ok computed) :
    (engine.computeSheet w sheet useMemo).2 = failureReports sheet computed.failures ++ [computed.report] := by
  unfold computeSheet at h ⊢
  rcases hrun : engine.computeRows w sheet sheet.rows ⟨if useMemo then some ∅ else none, []⟩ with ⟨o, q⟩
  rw [hrun] at h
  cases o with
  | error e => cases h
  | ok rows =>
    cases h
    obtain ⟨new, hnew, rfl⟩ := computeRows_reports sheet.rows _ _ _ hrun
    rw [ComputedSheet.failures_eq]
    dsimp only
    rw [hnew, List.nil_append]

end Engine

/-! ## The failures of a computed sheet -/

/-- The failures are those of the formula cells that have failed, row by row in the order of the columns. -/
structure ComputedSheet.ListsFailures (s : ComputedSheet) (failures : List (Row × Column × Failure)) : Prop where
  mem_iff : ∀ row ∈ s.sheet.rows, ∀ column ∈ s.sheet.columns, ∀ f,
    (row, column, f) ∈ failures ↔ s.results.lookup (row.id, column.name) = some (.failed f)
  order : (failures.map fun f => (f.1, f.2.1)).Sublist
    (s.sheet.rows.flatMap fun row => s.sheet.columns.map fun column => (row, column))

theorem cellFailures_sublist (row : Row) (cells : List (Column × ComputedCell)) :
    ((cellFailures row cells).map fun f => (f.1, f.2.1)).Sublist (cells.map fun p => (row, p.1)) := by
  induction cells with
  | nil => exact .slnil
  | cons p rest ih =>
    rw [cellFailures, List.filterMap_cons]
    cases p.2.outcome?.bind Outcome.failure? with
    | none => exact ih.cons _
    | some f => exact ih.cons_cons _

theorem outcome?_of_failure? {cell : ComputedCell} {f : Failure}
    (h : cell.outcome?.bind Outcome.failure? = some f) : cell.outcome? = some (.failed f) := by
  obtain ⟨o, ho, hf⟩ := Option.bind_eq_some_iff.1 h
  cases o with
  | success v warnings => cases hf
  | failed f' =>
    cases hf
    exact ho

namespace ComputedSheet

variable {s : ComputedSheet}

theorem mem_failures {row : Row} {column : Column} {f : Failure} : (row, column, f) ∈ s.failures ↔
    ∃ r ∈ s.rows, r.row = row ∧ ∃ cell, (column, cell) ∈ r.cells ∧ cell.outcome? = some (.failed f) := by
  rw [failures_eq, List.mem_flatMap]
  refine exists_congr fun r => and_congr_right fun hr => ?_
  rw [cellFailures, List.mem_filterMap]
  constructor
  · rintro ⟨⟨c, cell⟩, hcell, hf⟩
    obtain ⟨f', hfailed, heq⟩ := Option.map_eq_some_iff.1 hf
    obtain ⟨hrow, heq⟩ := Prod.mk.inj heq
    obtain ⟨rfl, rfl⟩ := Prod.mk.inj heq
    exact ⟨hrow, cell, hcell, outcome?_of_failure? hfailed⟩
  · rintro ⟨rfl, cell, hcell, houtcome⟩
    exact ⟨(column, cell), hcell, by rw [houtcome]; rfl⟩

/-- **The failures are listed.** -/
theorem Full.listsFailures (h : s.Full) : s.ListsFailures s.failures where
  mem_iff := by
    intro row hrow column hcolumn f
    obtain ⟨r, hr, rfl, cell, hcell⟩ := h.exists_cell hrow hcolumn
    have hresult : s.results.lookup (r.row.id, column.name) = cell.outcome? := h.results_lookup hr hcell
    rw [hresult, mem_failures]
    constructor
    · rintro ⟨r', hr', hrow', cell', hcell', houtcome⟩
      obtain ⟨rfl, heq⟩ := h.cell_eq hr hcell hr' hcell' (congrArg Row.id hrow') rfl
      obtain rfl : cell' = cell := congrArg Prod.snd heq
      exact houtcome
    · exact fun houtcome => ⟨r, hr, rfl, cell, hcell, houtcome⟩
  order := by
    rw [failures_eq, List.map_flatMap, ← h.rows, List.flatMap_map]
    refine List.Sublist.flatMap_right _ fun r hr => ?_
    rw [← h.columns r hr, List.map_map]
    exact cellFailures_sublist r.row r.cells

theorem length_results : s.results.length = s.outcomes.length :=
  List.length_map _

theorem length_errors : s.errors.length = s.failures.length := by
  rw [errors, failures, results, List.filterMap_map, List.length_filterMap_eq_countP, List.length_filterMap_eq_countP]
  refine List.countP_congr fun e _ => ?_
  simp

end ComputedSheet

/-! ## Records -/

/-- The record notes the failure of a formula cell. -/
structure NotesFailure (sheet : Sheet) (failure : Row × Column × Failure) (record : Data) : Prop where
  level : record.get? "level" = some (.text "warning")
  topic : record.get? "event_type" = some (.text (Topic.ofCode failure.2.2.code).word)
  message : record.get? "message" = some (.text failure.2.2.message)
  code : record.get? "error_code" = some (.text failure.2.2.code)
  context : ∃ context, record.get? "context" = some context ∧
    context.get? "sheet_id" = some (.text (clip sheet.id)) ∧
    context.get? "row_id" = some (.text (clip failure.1.id)) ∧
    context.get? "column_id" = some (.text (clip failure.2.1.id)) ∧
    ∃ body, failure.1.source failure.2.1 = .formula body ∧ context.get? "formula" = some (.text (clip body))

/-- The record notes the pass that computed the sheet. -/
structure NotesPass (s : ComputedSheet) (record : Data) : Prop where
  level : record.get? "level" = some (.text "info")
  topic : record.get? "event_type" = some (.text "sheet_computed")
  code : record.get? "error_code" = some .null
  context : ∃ context, record.get? "context" = some context ∧
    context.get? "sheet" = some (.text (clip s.sheet.name)) ∧
    context.get? "rows" = some (.int s.sheet.rows.length) ∧
    context.get? "formula_cells" = some (.int s.results.length) ∧
    context.get? "errors" = some (.int s.errors.length)

/-- The context of the record of a failure. -/
theorem failureReport_context (sheet : Sheet) (row : Row) (column : Column) (f : Failure) (time : String) :
    ((failureReport sheet row column f).noted time).get? "context" = some (Data.sortKeys (.mapping [
      ("formula", .text (clip (row.source column).body)),
      ("sheet_id", .text (clip sheet.id)),
      ("row_id", .text (clip row.id)),
      ("column_id", .text (clip column.id))])) :=
  Event.get?_noted time (failureReport sheet row column f) "context"

theorem notesFailure_noted {sheet : Sheet} {row : Row} {column : Column} {f : Failure} {body : String}
    (hsource : row.source column = .formula body) (time : String) :
    NotesFailure sheet (row, column, f) ((failureReport sheet row column f).noted time) := by
  have hentry := fun key => Event.get?_noted time (failureReport sheet row column f) key
  have hcontext := failureReport_context sheet row column f time
  rw [hsource] at hcontext
  exact ⟨hentry "level", hentry "event_type", hentry "message", hentry "error_code", _, hcontext,
    Data.get?_sortKeys (by simp) "sheet_id", Data.get?_sortKeys (by simp) "row_id",
    Data.get?_sortKeys (by simp) "column_id", body, hsource, Data.get?_sortKeys (by simp) "formula"⟩

theorem failureReport_exact (sheet : Sheet) (row : Row) (column : Column) (f : Failure) :
    (Data.mapping (failureReport sheet row column f).context).Exact := by
  refine .mapping (by simp [failureReport]) ?_
  simp only [failureReport, List.forall_mem_cons]
  exact ⟨.text _, .text _, .text _, .text _, List.forall_mem_nil _⟩

/-- The context of the record of a pass. -/
theorem ComputedSheet.report_context (s : ComputedSheet) (time : String) :
    (s.report.noted time).get? "context" = some (Data.sortKeys (.mapping [
      ("sheet", .text (clip s.sheet.name)),
      ("rows", .int s.sheet.rows.length),
      ("formula_cells", .int s.outcomes.length),
      ("errors", .int s.failures.length),
      ("elapsed_ms", .int 0)])) :=
  Event.get?_noted time s.report "context"

theorem notesPass_noted (s : ComputedSheet) (time : String) : NotesPass s (s.report.noted time) := by
  have hentry := fun key => Event.get?_noted time s.report key
  have hcontext := s.report_context time
  rw [← ComputedSheet.length_results, ← ComputedSheet.length_errors] at hcontext
  exact ⟨hentry "level", hentry "event_type", hentry "error_code", _, hcontext,
    Data.get?_sortKeys (by simp) "sheet", Data.get?_sortKeys (by simp) "rows",
    Data.get?_sortKeys (by simp) "formula_cells", Data.get?_sortKeys (by simp) "errors"⟩

theorem ComputedSheet.report_exact (s : ComputedSheet) : (Data.mapping s.report.context).Exact := by
  refine .mapping (by simp [report]) ?_
  simp only [report, List.forall_mem_cons]
  exact ⟨.text _, .int _, .int _, .int _, .int _, List.forall_mem_nil _⟩

/-! ## The journal -/

section Journal

variable {engine : Engine} {w : Workbook} {sheet : Sheet} {useMemo : Bool} {computed : ComputedSheet}

/-- What a pass reports, each report at a time of its own: the failures and then the pass. -/
theorem exists_reports (h : (engine.computeSheet w sheet useMemo).1 = .ok computed) {reports : List (String × Event)}
    (hreports : reports.map Prod.snd = (engine.computeSheet w sheet useMemo).2) :
    ∃ failed pass, reports = failed ++ [pass] ∧ pass.2 = computed.report ∧
      List.Forall₂ (fun f r => r.2 = failureReport sheet f.1 f.2.1 f.2.2) computed.failures failed := by
  rw [Engine.computeSheet_events h] at hreports
  obtain ⟨failed, last, rfl, hfailed, hlast⟩ := List.map_eq_append_iff.1 hreports
  obtain ⟨pass, rfl, hpass⟩ := List.map_eq_singleton_iff.1 hlast
  refine ⟨failed, pass, rfl, hpass, ?_⟩
  have hequal : List.Forall₂ (· = ·) (failed.map Prod.snd) (failureReports sheet computed.failures) := by
    rw [List.forall₂_eq_eq_eq]
    exact hfailed
  rw [failureReports, List.forall₂_map_left_iff, List.forall₂_map_right_iff] at hequal
  exact hequal.flip

/-- A failure is that of a formula. -/
theorem ComputedSheet.Full.source_of_mem_failures (h : computed.Full) {f : Row × Column × Failure}
    (hf : f ∈ computed.failures) : ∃ body, f.1.source f.2.1 = .formula body := by
  obtain ⟨row, column, f⟩ := f
  obtain ⟨r, hr, rfl, cell, hcell, houtcome⟩ := mem_failures.1 hf
  have hanswer : ComputedCell.Answers (r.row.source column) cell := h.answers r hr _ hcell
  cases hsource : r.row.source column with
  | formula body => exact ⟨body, rfl⟩
  | literal raw =>
    rw [hsource] at hanswer
    cases hanswer
    cases houtcome

/-- The records of the reports of a pass are exact. -/
theorem exact_of_reports (h : (engine.computeSheet w sheet useMemo).1 = .ok computed) {reports : List (String × Event)}
    (hreports : reports.map Prod.snd = (engine.computeSheet w sheet useMemo).2) :
    ∀ record ∈ reports.map fun r => r.2.noted r.1, record.Exact := by
  intro record hrecord
  obtain ⟨r, hr, rfl⟩ := List.mem_map.1 hrecord
  have hevent : r.2 ∈ (engine.computeSheet w sheet useMemo).2 := by
    rw [← hreports]
    exact List.mem_map_of_mem hr
  refine Event.noted_exact ?_ r.1
  rw [Engine.computeSheet_events h] at hevent
  rcases List.mem_append.1 hevent with hevent | hevent
  · obtain ⟨f, -, heq⟩ := List.mem_map.1 hevent
    rw [← heq]
    exact failureReport_exact sheet f.1 f.2.1 f.2.2
  · rw [List.mem_singleton.1 hevent]
    exact computed.report_exact

/-- The records of the reports of failures note these. -/
theorem notesFailures_noted (h : (engine.computeSheet w sheet useMemo).1 = .ok computed)
    {failed : List (String × Event)}
    (hfailed : List.Forall₂ (fun f r => r.2 = failureReport sheet f.1 f.2.1 f.2.2) computed.failures failed) :
    List.Forall₂ (NotesFailure sheet) computed.failures (failed.map fun r => r.2.noted r.1) := by
  rw [List.forall₂_map_right_iff]
  obtain ⟨hlength, hzip⟩ := List.forall₂_iff_zip.1 hfailed
  refine List.forall₂_iff_zip.2 ⟨hlength, fun {f r} hfr => ?_⟩
  obtain ⟨body, hsource⟩ := (Engine.completes_of_ok h).full.source_of_mem_failures (List.of_mem_zip hfr).1
  rw [hzip hfr]
  exact notesFailure_noted hsource r.1

/-- The records of the reports of a pass note its failures, and then the pass. -/
theorem exists_records (h : (engine.computeSheet w sheet useMemo).1 = .ok computed) {reports : List (String × Event)}
    (hreports : reports.map Prod.snd = (engine.computeSheet w sheet useMemo).2) :
    ∃ failed pass, (reports.map fun r => r.2.noted r.1) = failed ++ [pass] ∧
      List.Forall₂ (NotesFailure sheet) computed.failures failed ∧ NotesPass computed pass := by
  obtain ⟨failed, pass, rfl, hpass, hfailed⟩ := exists_reports h hreports
  refine ⟨failed.map fun r => r.2.noted r.1, pass.2.noted pass.1, by rw [List.map_append, List.map_singleton],
    notesFailures_noted h hfailed, ?_⟩
  rw [hpass]
  exact notesPass_noted computed pass.1

/-- **What a pass leaves in the journal.** Where the directory of the engine's journal is there and its file is never
set aside, a pass that comes to an end adds a record for each formula cell that has failed, row by row in the order of
the columns, with the failure, the identifiers of the cell and its formula, then one for the pass with its numbers of
rows, of outcomes and of errors, and nothing else, at whatever times the reports are written. The lines that are added
are read as these records. -/
theorem computeSheet_journal (h : (engine.computeSheet w sheet useMemo).1 = .ok computed) {shelf : Shelf} {sink : Sink}
    {j : Journal} (hengine : shelf.engine = some sink) (hbound : sink.upkeep.maxBytes = none)
    (hj : shelf.journal? sink.directory = some j) {reports : List (String × Event)}
    (hreports : reports.map Prod.snd = (engine.computeSheet w sheet useMemo).2) :
    computed.ListsFailures computed.failures ∧ ∃ failed pass after,
      List.Forall₂ (NotesFailure sheet) computed.failures failed ∧ NotesPass computed pass ∧
      (shelf.emitTimed reports).journal? sink.directory = some after ∧ after.rotated = j.rotated ∧
      (after.content = j.content ++ (failed ++ [pass]).flatMap fun record => Journal.lineBytes record.json) ∧
      ∀ record ∈ failed ++ [pass], Journal.lineData? record.json.toList = some record := by
  obtain ⟨failed, pass, hrecords, hfailed, hpass⟩ := exists_records h hreports
  have hkeeps : ∀ size, sink.upkeep.Keeps size := fun size bound h => nomatch hbound.symm.trans h
  obtain ⟨after, hafter, hrotated, hcontent⟩ := Shelf.emitTimed_journal? hengine hj (hkeeps _)
  refine ⟨(Engine.completes_of_ok h).full.listsFailures, failed, pass, after, hfailed, hpass, hafter, hrotated, ?_, ?_⟩
  · rw [hcontent, ← hrecords, List.flatMap_map]
    rfl
  · rw [← hrecords]
    exact fun record hrecord => Journal.lineData?_json (exact_of_reports h hreports record hrecord)

theorem map_snd_timed (time : String) (events : List Event) :
    (events.map fun e => (time, e)).map Prod.snd = events := by
  simp [Function.comp_def]

/-- A shelf with an empty journal that the engine reports to. -/
def freshShelf : Shelf where
  journals := [(Path.place "logs", {})]
  engine := some { directory := "logs" }

theorem freshShelf_journal? : freshShelf.journal? "logs" = some {} :=
  List.lookup_cons_self

/-- A ledger with a note that is a formula without a value, and an empty journal. -/
theorem computeSheet_journal_ledger : ∃ computed,
    (Engine.computeSheet {} (ledger "=Missing") (ledgerSheet "=Missing") false).1 = .ok computed ∧
      computed.ListsFailures computed.failures ∧ ∃ failed pass after,
        List.Forall₂ (NotesFailure (ledgerSheet "=Missing")) computed.failures failed ∧ NotesPass computed pass ∧
        (freshShelf.emitAll "now"
          (Engine.computeSheet {} (ledger "=Missing") (ledgerSheet "=Missing") false).2).journal? "logs" = some after ∧
        after.rotated = none ∧
        (after.content = (failed ++ [pass]).flatMap fun record => Journal.lineBytes record.json) ∧
        ∀ record ∈ failed ++ [pass], Journal.lineData? record.json.toList = some record := by
  obtain ⟨computed, hcomputed, -⟩ := exists_computed_ledger
  rw [Shelf.emitAll_eq]
  obtain ⟨hlists, failed, pass, after, hfailed, hpass, hafter, hrotated, hcontent, hread⟩ :=
    @computeSheet_journal {} _ _ false computed hcomputed freshShelf _ {} rfl rfl freshShelf_journal? _
      (map_snd_timed "now" _)
  exact ⟨computed, hcomputed, hlists, failed, pass, after, hfailed, hpass, hafter, hrotated, hcontent,
    hread⟩

end Journal

end GameSheet
