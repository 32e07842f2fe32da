import GameSheet.Proofs.Decimal.Written
import GameSheet.Proofs.Workbook.Loaded

/-!
# The sheet of a table

A table whose fields have distinct headers becomes a sheet that holds it (**`Sheet.ofTable_holds`**): a column without a
formula for each field, in their order, and in its cells the values of the field (`Sheet.Holds`).

* The columns are named after the headers and have distinct identifiers (`extendColumns_nil`).
* The records of a table whose fields are of one length are its rows (`Table.records_eq`), and the value under a header
  is found under the identifier of its column (`recordRow_cell`).
* Rows have distinct identifiers: their places, or the values of the identifier field (`Table.nodup_recordIds`).
-/

namespace GameSheet

/-! ## Columns of a table -/

theorem columnIdAt_injective : Function.Injective columnIdAt := fun _ _ h =>
  Decimal.toString_injective (String.append_right_inj _ |>.1 h)

theorem rowIdAt_injective : Function.Injective rowIdAt := fun _ _ h =>
  Decimal.toString_injective (String.append_right_inj _ |>.1 h)

/-- The columns of some headers from a place on. -/
def columnsOf (place : Nat) : List String → List Column
  | [] => []
  | header :: rest => { id := columnIdAt (place + 1), name := header } :: columnsOf (place + 1) rest

section Columns

variable {headers : List String} {place : Nat}

theorem extendColumns_eq {columns : List Column} (hnodup : (columns.map Column.name ++ headers).Nodup) :
    extendColumns columns headers = columns ++ columnsOf columns.length headers := by
  induction headers generalizing columns with
  | nil => simp [extendColumns, columnsOf]
  | cons header rest ih =>
    have hnew : ¬columns.any (·.name == header) := by
      intro hany
      obtain ⟨c, hc, hname⟩ := List.any_eq_true.1 hany
      exact List.disjoint_of_nodup_append hnodup (List.mem_map_of_mem hc) (by simp [beq_iff_eq.1 hname])
    rw [extendColumns, if_neg hnew, ih (by simpa using hnodup), columnsOf, List.append_assoc]
    simp

/-- The columns of a table with distinct headers. -/
theorem extendColumns_nil (hnodup : headers.Nodup) : extendColumns [] headers = columnsOf 0 headers :=
  extendColumns_eq hnodup

theorem columnsOf_names : (columnsOf place headers).map Column.name = headers := by
  induction headers generalizing place with
  | nil => rfl
  | cons header rest ih => rw [columnsOf, List.map_cons, ih]

theorem columnsOf_ids :
    (columnsOf place headers).map Column.id = (List.range' (place + 1) headers.length).map columnIdAt := by
  induction headers generalizing place with
  | nil => rfl
  | cons header rest ih => rw [columnsOf, List.map_cons, ih, List.length_cons, List.range'_succ, List.map_cons]

theorem nodup_columnsOf_ids : ((columnsOf place headers).map Column.id).Nodup := by
  rw [columnsOf_ids]
  exact (List.nodup_range' ..).map columnIdAt_injective

/-- The columns of a table go with its fields. -/
theorem forall₂_columnsOf {fields : List Field} :
    List.Forall₂ (fun c f => c.name = f.header) (columnsOf place (fields.map Field.header)) fields := by
  induction fields generalizing place with
  | nil => exact .nil
  | cons f rest ih => exact .cons rfl ih

theorem source_of_mem_columnsOf {c : Column} (h : c ∈ columnsOf place headers) : c.source = .literal .null := by
  induction headers generalizing place with
  | nil => cases h
  | cons header rest ih =>
    rcases List.mem_cons.1 h with rfl | h
    · rfl
    · exact ih h

end Columns

/-! ## Records of a table -/

namespace Table

/-- The fields have values for each record. -/
def IsRectangular (t : Table) : Prop :=
  ∀ f ∈ t.fields, f.series.length = t.height

/-- The record at a place. -/
def record (t : Table) (i : Nat) : List (String × RawCell) :=
  t.fields.map fun f => (f.header, f.series.cells.getD i .null)

variable {t : Table}

theorem records_eq (h : t.IsRectangular) : t.records = (List.range t.height).map t.record := by
  obtain ⟨fields⟩ := t
  unfold IsRectangular at h
  unfold records record
  generalize height _ = height at h ⊢
  induction fields with
  | nil => simp [List.map_const']
  | cons f fields ih =>
    obtain ⟨hf, hfields⟩ := List.forall_mem_cons.1 h
    have hlength : f.series.cells.length = height := hf
    rw [List.foldr_cons, ih hfields, withField]
    refine List.ext_getElem (by simp [hlength]) fun i hi hi' => ?_
    have hcell : i < f.series.cells.length := by simp at hi; omega
    simp [hcell]

theorem record_headers (i : Nat) : (t.record i).map Prod.fst = t.headers := by
  rw [record, headers, List.map_map]
  rfl

/-- The value of a field is found under its header. -/
theorem record_lookup (hnodup : t.headers.Nodup) {f : Field} (hf : f ∈ t.fields) (i : Nat) :
    (t.record i).lookup f.header = some (f.series.cells.getD i .null) := by
  refine lookup_of_nodup ?_ (List.mem_map_of_mem (f := fun f => (f.header, f.series.cells.getD i .null)) hf)
  rw [record_headers]
  exact hnodup

end Table

/-! ## Rows of a table -/

section Rows

variable {columns : List Column}

theorem columnIdOf_name (hnodup : (columns.map Column.name).Nodup) {c : Column} (hc : c ∈ columns) :
    columnIdOf columns c.name = c.id := by
  rw [columnIdOf, find?_key hnodup hc]
  rfl

theorem mem_recordCells {id : String} {raw : RawCell} {record : List (String × RawCell)} :
    (id, raw) ∈ recordCells columns record ↔
      raw ≠ .null ∧ ∃ header, (header, raw) ∈ record ∧ columnIdOf columns header = id := by
  fun_induction recordCells columns record with
  | case1 => simp
  | case2 header rest ih =>
    rw [ih]
    refine and_congr_right fun hraw => exists_congr fun header' => ?_
    simp [hraw]
  | case3 header raw' rest hnull ih =>
    rw [List.mem_cons, ih]
    constructor
    · rintro (heq | ⟨hraw, header', hmem, hid⟩)
      · obtain ⟨rfl, rfl⟩ := Prod.mk.inj heq
        exact ⟨hnull, header, List.mem_cons_self, rfl⟩
      · exact ⟨hraw, header', List.mem_cons_of_mem _ hmem, hid⟩
    · rintro ⟨hraw, header', hmem, rfl⟩
      rcases List.mem_cons.1 hmem with heq | hmem
      · obtain ⟨rfl, rfl⟩ := Prod.mk.inj heq
        exact .inl rfl
      · exact .inr ⟨hraw, header', hmem, rfl⟩

/-- **The value under a header is in the cell of its column**, if every header of the record names a column. -/
theorem recordRow_cell (hnames : (columns.map Column.name).Nodup) (hids : (columns.map Column.id).Nodup)
    {record : List (String × RawCell)} (hrecord : (record.map Prod.fst).Nodup)
    (hheaders : ∀ header ∈ record.map Prod.fst, header ∈ columns.map Column.name) (identifier : Option String)
    (place : Nat) {c : Column} (hc : c ∈ columns) {raw : RawCell} (hraw : (c.name, raw) ∈ record) :
    (recordRow columns identifier place record).cell c.id = raw := by
  have hfound : (recordCells columns record).lookup c.id = if raw = .null then none else some raw := by
    refine lookup_eq_of_mem (fun v hv => ?_) fun v hv => ?_
    · obtain ⟨hnull, heq⟩ := Option.ite_none_left_eq_some.1 hv
      obtain rfl := Option.some.inj heq
      exact mem_recordCells.2 ⟨hnull, c.name, hraw, columnIdOf_name hnames hc⟩
    · obtain ⟨hnull, header, hmem, hid⟩ := mem_recordCells.1 hv
      obtain ⟨d, hd, rfl⟩ := List.mem_map.1 (hheaders header (List.mem_map_of_mem hmem))
      rw [columnIdOf_name hnames hd] at hid
      obtain rfl : d = c := List.inj_on_of_nodup_map hids hd hc hid
      obtain rfl : v = raw := Option.some.inj ((lookup_of_nodup hrecord hmem).symm.trans (lookup_of_nodup hrecord hraw))
      rw [if_neg hnull]
  rw [Row.cell, recordRow, hfound]
  split
  · next hnull => exact hnull.symm
  · rfl

end Rows

namespace Table

/-- The field that identifies the records, if there is one, has a different text for each. -/
def Identifies (t : Table) : Prop :=
  ∀ header, identifierHeader? t.headers = some header → ∀ f ∈ t.fields, f.header = header →
    ∃ texts : List String, f.series = .texts (texts.map some) ∧ texts.Nodup

variable {t : Table}

/-- **Records have distinct identifiers.** -/
theorem nodup_recordIds (hnodup : t.headers.Nodup) (hlengths : t.IsRectangular) (hidentifies : t.Identifies) :
    ((List.range t.height).map fun i => recordId (identifierHeader? t.headers) (i + 1) (t.record i)).Nodup := by
  refine (List.nodup_range).map_on fun i hi j hj hij => ?_
  rw [List.mem_range] at hi hj
  cases hheader : identifierHeader? t.headers with
  | none =>
    rw [hheader] at hij
    exact Nat.succ.inj (rowIdAt_injective hij)
  | some header =>
    obtain ⟨f, hf, rfl⟩ := List.mem_map.1 (by simpa using List.find?_some hheader : header ∈ t.headers)
    obtain ⟨texts, hseries, htexts⟩ := hidentifies _ hheader f hf rfl
    have hlength : texts.length = t.height := by
      rw [← hlengths f hf, hseries]
      simp [Series.length, Series.cells]
    have hid : ∀ k (hk : k < texts.length), recordId (some f.header) (k + 1) (t.record k) = texts[k] := by
      intro k hk
      have hcell : f.series.cells.getD k .null = .text texts[k] := by simp [hseries, Series.cells, hk]
      rw [recordId, Option.bind_some, record_lookup hnodup hf, hcell]
      rfl
    rw [hheader, hid i (by omega), hid j (by omega)] at hij
    exact (htexts.getElem_inj_iff).1 hij

/-- The rows of the records of a table, in the columns of its headers. -/
def recordRows (t : Table) : List Row :=
  (List.range t.height).map fun i =>
    recordRow (columnsOf 0 t.headers) (identifierHeader? t.headers) (i + 1) (t.record i)

theorem recordRows_eq (hlengths : t.IsRectangular) : t.recordRows =
    t.records.zipIdx.map fun (record, i) =>
      recordRow (columnsOf 0 t.headers) (identifierHeader? t.headers) (i + 1) record := by
  rw [recordRows, records_eq hlengths]
  refine List.ext_getElem (by simp) fun i hi hi' => ?_
  simp

theorem nodup_recordRows (hnodup : t.headers.Nodup) (hlengths : t.IsRectangular) (hidentifies : t.Identifies) :
    (t.recordRows.map Row.id).Nodup := by
  rw [recordRows, List.map_map]
  exact nodup_recordIds hnodup hlengths hidentifies

theorem columnsOf_nodup (hnodup : t.headers.Nodup) : ((columnsOf 0 t.headers).map Column.name).Nodup := by
  rw [columnsOf_names]
  exact hnodup

/-- The cells of a column have the values of its field. -/
theorem recordRows_cells (hnodup : t.headers.Nodup) (hlengths : t.IsRectangular) {c : Column}
    (hc : c ∈ columnsOf 0 t.headers) {f : Field} (hf : f ∈ t.fields) (hname : c.name = f.header) :
    t.recordRows.map (·.cell c.id) = f.series.cells := by
  have hlength : f.series.cells.length = t.height := hlengths f hf
  refine List.ext_getElem (by simp [recordRows, hlength]) fun i hi hi' => ?_
  simp only [recordRows, List.getElem_map, List.getElem_range]
  refine recordRow_cell (columnsOf_nodup hnodup) nodup_columnsOf_ids ?_ ?_ _ _ hc (List.mem_map.2 ⟨f, hf, ?_⟩)
  · rw [record_headers]
    exact hnodup
  · rw [record_headers, columnsOf_names]
    exact fun _ h => h
  · rw [hname, List.getD_eq_getElem _ _ hi']

end Table

/-! ## The sheet -/

/-- The sheet has a column without a formula for each field of the table, and in its cells the values of the field. -/
def Sheet.Holds (s : Sheet) (t : Table) : Prop :=
  List.Forall₂ (fun c f => c.name = f.header ∧ c.source = .literal .null ∧
    s.rows.map (·.cell c.id) = f.series.cells) s.columns t.fields

/-- **A table with distinct headers and distinct identifiers becomes a sheet that holds it.** -/
theorem Sheet.ofTable_holds {t : Table} (hnodup : t.headers.Nodup) (hlengths : t.IsRectangular)
    (hidentifies : t.Identifies) (id name : String) :
    ∃ sheet, Sheet.ofTable id name [] t = .ok sheet ∧ sheet.name = name ∧ sheet.Holds t := by
  have hnames := Table.columnsOf_nodup hnodup
  have hids : ((columnsOf 0 t.headers).map Column.id).Nodup := nodup_columnsOf_ids
  have hrowIds := Table.nodup_recordRows hnodup hlengths hidentifies
  refine ⟨⟨if id.isEmpty then name else id, name, columnsOf 0 t.headers, t.recordRows, hnames, hids, hrowIds⟩, ?_, rfl,
    ?_⟩
  · rw [Sheet.ofTable, extendColumns_nil hnodup]
    dsimp only
    rw [← Table.recordRows_eq hlengths, Sheet.make, dif_pos hnames, dif_pos hids, dif_pos hrowIds]
  · have hheaders : List.Forall₂ (fun c f => c.name = f.header) (columnsOf 0 t.headers) t.fields := forall₂_columnsOf
    rw [List.forall₂_iff_zip] at hheaders
    refine List.forall₂_iff_zip.2 ⟨hheaders.1, fun {c f} hcf => ?_⟩
    obtain ⟨hc, hf⟩ := List.of_mem_zip hcf
    have hname : c.name = f.header := hheaders.2 hcf
    exact ⟨hname, source_of_mem_columnsOf hc, Table.recordRows_cells hnodup hlengths hc hf hname⟩

end GameSheet
