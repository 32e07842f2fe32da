import GameSheet.Proofs.Workbook.Described

/-!
# Rows after a table

A sheet of a document may take its columns and first rows from a table and add rows of its own (`Data.Combines`). Both
number their rows from one, those of the table and those of the document. So the sheet has the records of the table in
order and after them the rows of the document (`Sheet.Combines`) as long as there are none of the one or none of the
other; where there are both, their first rows have one identifier, and the document is refused.

**`Workbook.combined_of_load`** says so of every document with such a sheet, whatever table its source gives.
-/

namespace GameSheet

/-! ## Sheets of a table and rows -/

/-- The sheet has the fields of the table for columns, and for rows the records of the table in order and after them the
rows of the document. -/
structure Sheet.Combines (s : Sheet) (t : Table) (inline : List Data) : Prop where
  columns : s.columns.map Column.name = t.headers
  rows : ∃ first last, s.rows = first ++ last ∧
    List.Forall₂ (fun record r => ∀ c ∈ s.columns, record.lookup c.name = some (r.cell c.id)) t.records first ∧
    List.Forall₂ (fun row r => r.Keeps s.columns row.cells) inline last

/-- The data describes a sheet that adds rows to a table: no field identifies the records, the sheet declares no
columns, and the rows have data for the columns of the table and no identifiers of their own. -/
structure Data.Combines (frame : String → Except DocumentFault Table) (raw : Data) (t : Table) : Prop where
  named : ∃ label, raw.get? "name" = some label
  source : ∃ path, raw.given? "source" = some (.text path) ∧ frame path = .ok t
  columns : raw.given? "columns" = none
  headers : t.headers.Nodup
  unidentified : ∀ header ∈ Sheet.identifierColumns, header ∉ t.headers
  listsRows : raw.Lists "rows"
  rows : ∀ row ∈ partsOf raw "rows", row.DescribesRow (t.headers ++ (columnsOf 0 t.headers).map Column.id)
  rowIds : ∀ row ∈ partsOf raw "rows", row.rowId? = none

/-- The identifiers of rows that are numbered from one. -/
def numberedIds (n : Nat) : List String :=
  (List.range' 1 n).map rowIdAt

/-- The rows of the records of a table, which take their identifiers from their places. -/
def Table.numberedRows (t : Table) : List Row :=
  t.records.zipIdx.map fun (record, i) => recordRow (columnsOf 0 t.headers) none (i + 1) record

section Sheets

variable {frame : String → Except DocumentFault Table} {raw : Data} {t : Table}

theorem Table.numberedRows_ids : t.numberedRows.map Row.id = numberedIds t.records.length := by
  refine List.ext_getElem (by simp [numberedRows, numberedIds]) fun i hi hi' => ?_
  simp [numberedRows, numberedIds, recordRow, recordId, Nat.add_comm]

/-- The records of a table are its rows. -/
theorem Table.numberedRows_cells (hnodup : t.headers.Nodup) :
    List.Forall₂ (fun record r => ∀ c ∈ columnsOf 0 t.headers, record.lookup c.name = some (r.cell c.id)) t.records
      t.numberedRows := by
  have hrecords : t.records = t.records.zipIdx.map Prod.fst := (List.zipIdx_map_fst 0 t.records).symm
  rw [numberedRows]
  nth_rewrite 1 [hrecords]
  rw [List.forall₂_map_left_iff, List.forall₂_map_right_iff, List.forall₂_same]
  rintro ⟨record, i⟩ hrecord c hc
  have hheaders := Table.map_fst_of_mem_records (List.fst_mem_of_mem_zipIdx hrecord)
  have hrecordNodup : (record.map Prod.fst).Nodup := hheaders ▸ hnodup
  have hnames : (columnsOf 0 t.headers).map Column.name = t.headers := columnsOf_names
  obtain ⟨⟨name, raw⟩, hraw, rfl : name = c.name⟩ := List.mem_map.1 (hheaders ▸ hnames ▸ List.mem_map_of_mem hc)
  have hnamed : ∀ header ∈ record.map Prod.fst, header ∈ (columnsOf 0 t.headers).map Column.name := by
    rw [hheaders, hnames]
    exact fun _ h => h
  rw [lookup_of_nodup hrecordNodup hraw,
    recordRow_cell (Table.columnsOf_nodup hnodup) nodup_columnsOf_ids hrecordNodup hnamed none (i + 1) hc hraw]

theorem nodup_numberedIds (n : Nat) : (numberedIds n).Nodup :=
  (List.nodup_range' ..).map rowIdAt_injective

/-- Rows that are both numbered from one have distinct identifiers exactly if there are none of the one or none of the
other. -/
theorem nodup_numberedIds_append_iff {m n : Nat} : (numberedIds m ++ numberedIds n).Nodup ↔ m = 0 ∨ n = 0 := by
  have hfirst : ∀ k, k ≠ 0 → rowIdAt 1 ∈ numberedIds k := fun k hk =>
    List.mem_map_of_mem (List.mem_range'_1.2 (by omega))
  constructor
  · intro h
    by_contra hne
    obtain ⟨hm, hn⟩ := not_or.1 hne
    exact List.disjoint_of_nodup_append h (hfirst m hm) (hfirst n hn)
  · rintro (rfl | rfl)
    · exact nodup_numberedIds n
    · exact (List.append_nil (numberedIds m)).symm ▸ nodup_numberedIds m

/-- The sheet of a table without identifiers has its fields for columns and its records for rows. -/
theorem Sheet.exists_ofTable (hnodup : t.headers.Nodup)
    (hunidentified : ∀ header ∈ identifierColumns, header ∉ t.headers) (id name : String) :
    ∃ base, Sheet.ofTable id name [] t = .ok base ∧ base.columns = columnsOf 0 t.headers ∧
      base.rows = t.numberedRows := by
  have hheader : identifierHeader? t.headers = none := by
    rw [identifierHeader?, List.find?_eq_none]
    intro header hmem
    simpa using hunidentified header hmem
  have hids : (t.numberedRows.map Row.id).Nodup := Table.numberedRows_ids ▸ nodup_numberedIds _
  obtain ⟨base, hbase⟩ := @Sheet.exists_make_iff (if id.isEmpty then name else id) name _ _ |>.2
    ⟨Table.columnsOf_nodup hnodup, nodup_columnsOf_ids, hids⟩
  refine ⟨base, ?_, (Sheet.make_eq_ok_iff.1 hbase).2.2⟩
  rw [Sheet.ofTable, extendColumns_nil hnodup, hheader]
  exact hbase

/-- A sheet that adds rows to a table is made of the rows of the records and its own rows. -/
theorem sheetOfFrames_combines (h : raw.Combines frame t) : ∃ inline,
    List.Forall₂ (fun row r => r.Keeps (columnsOf 0 t.headers) row.cells) (partsOf raw "rows") inline ∧
      inline.map Row.id = numberedIds (partsOf raw "rows").length ∧
      sheetOfFrames frame raw = (Sheet.make raw.sheetId raw.sheetName (columnsOf 0 t.headers)
        (t.numberedRows ++ inline)).mapError .sheet := by
  obtain ⟨label, hname⟩ := h.named
  obtain ⟨path, hsource, hframe⟩ := h.source
  -- the table makes a sheet of its own first, whose columns and rows are then taken over
  obtain ⟨base, hbase, hcolumns, hrows⟩ := Sheet.exists_ofTable h.headers h.unidentified raw.sheetId raw.sheetName
  have hnames := Table.columnsOf_nodup h.headers
  have hids : ((columnsOf 0 t.headers).map Column.id).Nodup := nodup_columnsOf_ids
  obtain ⟨inline, hinline⟩ := @exists_rowsOfData _ raw.sheetName 1 hnames hids (partsOf raw "rows") (by
    rw [columnsOf_names]
    exact h.rows)
  refine ⟨inline, rowsOfData_keep hnames hids hinline, ?_, ?_⟩
  · rw [rowsOfData_ids hinline, numberedIds, ← List.zipIdx_map_snd 1 (partsOf raw "rows"), List.map_map]
    refine List.map_congr_left fun p hp => ?_
    rw [h.rowIds p.1 (List.fst_mem_of_mem_zipIdx hp)]
    rfl
  · have hlabel : raw.sheetName = label.shown := by rw [Data.sheetName, hname, Option.map_some, Option.getD_some]
    rw [Data.sheetId, hlabel] at hbase ⊢
    rw [hlabel] at hinline
    have hdeclared : eachPart columnOfData raw "columns" = .ok [] := by rw [eachPart, h.columns]
    simp only [sheetOfFrames, hname, hsource, hdeclared, sourcePath, hframe, hbase, hcolumns, hrows,
      eachPart_eq_ok_iff.2 ⟨h.listsRows, hinline⟩, bind, Except.bind, Except.mapError]

/-- The rows are there, those of the table and those of the document, if there are none of the one or none of the
other. -/
theorem exists_combined (h : raw.Combines frame t) (hone : t.records = [] ∨ partsOf raw "rows" = []) :
    ∃ s, sheetOfFrames frame raw = .ok s ∧ s.Combines t (partsOf raw "rows") := by
  obtain ⟨inline, hkeep, hids, hsheet⟩ := sheetOfFrames_combines h
  have hrows : ((t.numberedRows ++ inline).map Row.id).Nodup := by
    rw [List.map_append, Table.numberedRows_ids, hids, nodup_numberedIds_append_iff]
    exact hone.imp List.length_eq_zero_iff.2 List.length_eq_zero_iff.2
  have hnames := Table.columnsOf_nodup h.headers
  refine ⟨⟨raw.sheetId, raw.sheetName, _, _, hnames, nodup_columnsOf_ids, hrows⟩, ?_, columnsOf_names, t.numberedRows,
    inline, rfl, Table.numberedRows_cells h.headers, hkeep⟩
  rw [hsheet, Sheet.make, dif_pos hnames, dif_pos nodup_columnsOf_ids, dif_pos hrows]
  rfl

/-- The first rows of both have one identifier, so the sheet is refused, if there are some of both. -/
theorem sheetOfFrames_repeats (h : raw.Combines frame t) (hrecords : t.records ≠ []) (hrows : partsOf raw "rows" ≠ []) :
    sheetOfFrames frame raw = .error (.sheet (.rowIds raw.sheetName
      (repeated (numberedIds t.records.length ++ numberedIds (partsOf raw "rows").length)))) := by
  obtain ⟨inline, -, hids, hsheet⟩ := sheetOfFrames_combines h
  have hall : (t.numberedRows ++ inline).map Row.id =
      numberedIds t.records.length ++ numberedIds (partsOf raw "rows").length := by
    rw [List.map_append, Table.numberedRows_ids, hids]
  have hrepeated : ¬((t.numberedRows ++ inline).map Row.id).Nodup := by
    rw [hall, nodup_numberedIds_append_iff, List.length_eq_zero_iff, List.length_eq_zero_iff, not_or]
    exact ⟨hrecords, hrows⟩
  rw [hsheet, Sheet.make, dif_pos (Table.columnsOf_nodup h.headers), dif_pos nodup_columnsOf_ids, dif_neg hrepeated,
    hall]
  rfl

end Sheets

/-! ## Documents with such a sheet -/

/-- The document has the sheet among others that can be read, all with distinct names and identifiers. -/
structure Data.Includes (frame : String → Except DocumentFault Table) (d raw : Data) (before after : List Data) :
    Prop where
  sheets : d.get? "sheets" = some (.list (before ++ raw :: after))
  others : ∀ other ∈ before ++ after, ∃ s, sheetOfFrames frame other = .ok s
  names : ((before ++ raw :: after).map Data.sheetName).Nodup
  ids : ((before ++ raw :: after).map Data.sheetId).Nodup

/-- What becomes of a document with a sheet that adds rows to a table: it is loaded, with the records of the table in
order and the rows of the document after them, if there are none of the one or none of the other. If there are some of
both, it is refused for the identifiers that both have. -/
structure Combined (raw : Data) (t : Table) (outcome : Except DocumentFault Workbook) : Prop where
  loads : t.records = [] ∨ partsOf raw "rows" = [] →
    ∃ w, outcome = .ok w ∧ ∃ s ∈ w.sheets, s.name = raw.sheetName ∧ s.Combines t (partsOf raw "rows")
  fails : t.records ≠ [] → partsOf raw "rows" ≠ [] →
    outcome = .error (.sheet (.rowIds raw.sheetName
      (repeated (numberedIds t.records.length ++ numberedIds (partsOf raw "rows").length))))

section Documents

variable {frame : String → Except DocumentFault Table} {d raw : Data} {before after : List Data} {t : Table}

theorem Workbook.exists_of_includes (h : d.Includes frame raw before after) {s : Sheet}
    (hs : sheetOfFrames frame raw = .ok s) : ∃ w, Workbook.ofFrames frame d = .ok w ∧ s ∈ w.sheets := by
  obtain ⟨hbefore, hafter⟩ := List.forall_mem_append.1 h.others
  obtain ⟨front, hfront⟩ := exists_forall₂_iff.2 hbefore
  obtain ⟨back, hback⟩ := exists_forall₂_iff.2 hafter
  have hall := List.rel_append hfront (List.Forall₂.cons hs hback)
  obtain ⟨w, hw, hsheets⟩ := Workbook.exists_ofFrames hall h.sheets h.names h.ids
  exact ⟨w, hw, by simp [hsheets]⟩

theorem Workbook.ofFrames_eq_error (h : d.Includes frame raw before after) {f : DocumentFault}
    (hf : sheetOfFrames frame raw = .error f) : Workbook.ofFrames frame d = .error f := by
  obtain ⟨front, hfront⟩ := exists_forall₂_iff.2 (List.forall_mem_append.1 h.others).1
  simp only [Workbook.ofFrames, h.sheets, List.mapM_append, List.mapM_cons, mapM_eq_ok_iff.2 hfront, hf]
  rfl

theorem Workbook.ofFrames_combined (hd : d.Includes frame raw before after) (h : raw.Combines frame t) :
    Combined raw t (Workbook.ofFrames frame d) := by
  refine ⟨fun hone => ?_, fun hrecords hrows => ?_⟩
  · obtain ⟨s, hs, hcombines⟩ := exists_combined h hone
    obtain ⟨w, hw, hmem⟩ := Workbook.exists_of_includes hd hs
    exact ⟨w, hw, s, hmem, (sheetOfFrames_rows hs).1, hcombines⟩
  · exact Workbook.ofFrames_eq_error hd (sheetOfFrames_repeats h hrecords hrows)

end Documents

/-- **A sheet that adds rows to a table** has the records and after them the rows, unless there are some of both: then
the document is refused. This is so whatever table the source of the sheet gives, or whatever file it is read from. -/
theorem Workbook.combined_of_load {d raw : Data} {before after : List Data} {t : Table} :
    (∀ frame, d.Includes frame raw before after → raw.Combines frame t → Combined raw t (Workbook.ofFrames frame d)) ∧
      ∀ files directory, d.Includes (fun source => tableOfFile files (Path.join directory source)) raw before after →
        raw.Combines (fun source => tableOfFile files (Path.join directory source)) t →
          Combined raw t (Workbook.ofDocument files directory d) := by
  refine ⟨fun frame => Workbook.ofFrames_combined, fun files directory hd h => ?_⟩
  rw [Workbook.ofDocument_eq_ofFrames]
  exact Workbook.ofFrames_combined hd h

/-- A sheet that adds some rows to those of a file. -/
def addingSheet (rows : List Data) : Data :=
  .mapping [("name", .text "S"), ("source", .text "m.csv"), ("rows", .list rows)]

/-- The document of the sheet. -/
def addingDocument (rows : List Data) : Data :=
  .mapping [("sheets", .list [addingSheet rows])]

/-- The table of a file with one record. -/
def frameOfRecord (source : String) : Except DocumentFault Table :=
  tableOfFile { entries := [("m.csv", "HP\n1\n")] } (Path.join "." source)

theorem includes_addingDocument (rows : List Data) :
    (addingDocument rows).Includes frameOfRecord (addingSheet rows) [] [] :=
  ⟨rfl, List.forall_mem_nil _, List.nodup_singleton _, List.nodup_singleton _⟩

theorem combines_addingSheet {rows : List Data}
    (hrows : ∀ row ∈ partsOf (addingSheet rows) "rows", row = .mapping [("HP", .int 2)]) :
    ∃ t, (addingSheet rows).Combines frameOfRecord t ∧ t.records = [[("HP", .int 1)]] := by
  obtain ⟨t, ht, hcontent⟩ : ∃ t, frameOfRecord "m.csv" = .ok t ∧
      (t.headers, t.records) = (["HP"], [[("HP", .int 1)]]) := map_eq_ok_iff.1 (by decide +kernel)
  obtain ⟨hheaders, hrecords⟩ := Prod.mk.inj hcontent
  refine ⟨t, ⟨⟨_, rfl⟩, ⟨_, rfl, ht⟩, rfl, ?_, ?_, fun d hd => ?_, fun row hrow => ?_, fun row hrow => ?_⟩, hrecords⟩
  · rw [hheaders]
    exact List.nodup_singleton _
  · rw [hheaders]
    decide
  · obtain rfl : Data.list rows = d := Option.some.inj (Option.filter_eq_some_iff.1 hd).1
    exact ⟨rows, rfl⟩
  · rw [hrows row hrow, hheaders]
    exact ⟨⟨_, rfl⟩, fun d hd => (nomatch hd), List.forall_mem_singleton.2 List.mem_cons_self,
      List.forall_mem_singleton.2 ⟨_, rfl⟩⟩
  · rw [hrows row hrow]
    rfl

/-- There are no rows to add. -/
theorem combined_of_load_records : ∃ t, (addingSheet []).Combines frameOfRecord t ∧
    ∃ w, Workbook.ofDocument { entries := [("m.csv", "HP\n1\n")] } "." (addingDocument []) = .ok w ∧
      ∃ s ∈ w.sheets, s.name = "S" ∧ s.Combines t [] := by
  obtain ⟨t, hcombines, -⟩ := @combines_addingSheet [] fun _ hrow => nomatch hrow
  have hcombined := Workbook.combined_of_load.2 _ _ (includes_addingDocument []) hcombines
  exact ⟨t, hcombines, hcombined.loads (.inr rfl)⟩

/-- There is a record and a row to add, and both are numbered one. -/
theorem combined_of_load_repeats : ∃ t, (addingSheet [.mapping [("HP", .int 2)]]).Combines frameOfRecord t ∧
    Workbook.ofDocument { entries := [("m.csv", "HP\n1\n")] } "." (addingDocument [.mapping [("HP", .int 2)]]) =
      .error (.sheet (.rowIds "S" (repeated ["row1", "row1"]))) := by
  obtain ⟨t, hcombines, hrecords⟩ := @combines_addingSheet [.mapping [("HP", .int 2)]] fun _ hrow =>
    List.mem_singleton.1 hrow
  refine ⟨t, hcombines, Workbook.ofFrames_eq_error (includes_addingDocument _) ?_⟩
  have hids : numberedIds 1 ++ numberedIds 1 = ["row1", "row1"] := by decide
  rw [sheetOfFrames_repeats hcombines (by simp [hrecords]) (List.cons_ne_nil _ _), hrecords, ← hids]
  rfl

end GameSheet
