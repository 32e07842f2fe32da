import GameSheet.Proofs.Data.Json
import GameSheet.Proofs.Workbook.Described

/-!
# Rows of a document

A row of a document shows its entries (`Row.Shows`) if each of them is found in the column that its key names, so that
no two of them are in one column. It may address a column twice, by its name and by its identifier (`Doubled`); then
the entry that comes first is written over.

**`Workbook.inlines_of_load`**: the rows of a document that is loaded show their entries exactly if they address no
column twice, and otherwise keep the last entry of each column. What is left open by the key is settled by the list of
columns alone: an identifier that is also the name of some column names that column (`Column.Answers`).
-/

namespace GameSheet

/-! ## Mappings with distinct keys -/

namespace Data.Keyed

variable {d e : Data}

theorem nodup_entries (h : d.Keyed) : (d.entries.map Prod.fst).Nodup := by
  cases h with
  | mapping hnodup _ => exact hnodup
  | _ => exact List.nodup_nil

theorem get? (h : d.Keyed) {key : String} (he : d.get? key = some e) : e.Keyed := by
  cases h with
  | mapping _ hentries => exact hentries _ (mem_of_lookup he)
  | _ => cases he

theorem given? (h : d.Keyed) {key : String} (he : d.given? key = some e) : e.Keyed :=
  h.get? (Option.filter_eq_some_iff.1 he).1

theorem parts? (h : d.Keyed) {parts : List Data} (hparts : d.parts? = some parts) : ∀ e ∈ parts, e.Keyed := by
  cases h with
  | list hitems =>
    cases hparts
    exact hitems
  | mapping _ _ =>
    cases hparts
    intro e he
    obtain ⟨entry, -, rfl⟩ := List.mem_map.1 he
    exact .text _
  | text s =>
    cases hparts
    intro e he
    obtain ⟨c, -, rfl⟩ := List.mem_map.1 he
    exact .text _
  | _ => cases hparts

theorem partsOf (h : d.Keyed) (key : String) : ∀ e ∈ partsOf d key, e.Keyed := by
  rw [GameSheet.partsOf]
  cases hparts : (d.given? key).bind Data.parts? with
  | none => exact List.forall_mem_nil _
  | some parts =>
    obtain ⟨e, he, hparts⟩ := Option.bind_eq_some_iff.1 hparts
    exact (h.given? he).parts? hparts

/-- The cells of a row have distinct keys. -/
theorem nodup_cells (h : d.Keyed) : (d.cells.map Prod.fst).Nodup := by
  rw [Data.cells]
  split
  · cases hcells : d.given? "cells" with
    | none => exact List.nodup_nil
    | some e => exact (h.given? hcells).nodup_entries
  · exact h.nodup_entries

end Data.Keyed

/-! ## Columns that are addressed twice -/

/-- A column is addressed twice: by its name, and by its identifier, which is the name of no column. -/
def Doubled (columns : List Column) (entries : List (String × Data)) : Prop :=
  ∃ c ∈ columns, c.name ≠ c.id ∧ c.name ∈ entries.map Prod.fst ∧ c.id ∈ entries.map Prod.fst ∧
    ∀ d ∈ columns, d.name ≠ c.id

instance (columns : List Column) (entries : List (String × Data)) : Decidable (Doubled columns entries) :=
  inferInstanceAs (Decidable (∃ c ∈ columns, _ ∧ _ ∧ _ ∧ _))

/-- Every entry is found in the column that its key names, and no two entries are in one column. -/
structure Row.Shows (columns : List Column) (entries : List (String × Data)) (r : Row) : Prop where
  found : ∀ e ∈ entries, ∃ c ∈ columns, c.Answers columns e.1 ∧ RawCell.ofData? e.2 = some (r.cell c.id)
  apart : ∀ c ∈ columns, ∀ e ∈ entries, ∀ f ∈ entries, c.Answers columns e.1 → c.Answers columns f.1 → e = f

section Rows

variable {columns : List Column} {entries : List (String × Data)} {c : Column} {r : Row}

/-- Two entries that name one column are one entry, unless they address it twice. -/
theorem eq_of_answers (hkeys : (entries.map Prod.fst).Nodup) (hdoubled : ¬Doubled columns entries) (hc : c ∈ columns)
    {e f : String × Data} (he : e ∈ entries) (hf : f ∈ entries) (hce : c.Answers columns e.1)
    (hcf : c.Answers columns f.1) : e = f := by
  have hmixed : ∀ g ∈ entries, ∀ h ∈ entries, c.name = g.1 → c.id = h.1 → (∀ d ∈ columns, d.name ≠ h.1) →
      g.1 = h.1 := by
    intro g hg h hh hname hid hnone
    by_contra hne
    rw [← hname, ← hid] at hne
    exact hdoubled ⟨c, hc, hne, hname ▸ List.mem_map_of_mem hg, hid ▸ List.mem_map_of_mem hh, hid ▸ hnone⟩
  refine List.inj_on_of_nodup_map hkeys he hf ?_
  rcases hce with hname | ⟨hid, hnone⟩ <;> rcases hcf with hname' | ⟨hid', hnone'⟩
  · exact hname.symm.trans hname'
  · exact hmixed e he f hf hname hid' hnone'
  · exact (hmixed f hf e he hname' hid hnone).symm
  · exact hid.symm.trans hid'

theorem Column.given?_eq_none_iff : c.given? columns entries = none ↔ ∀ e ∈ entries, ¬c.Answers columns e.1 := by
  induction entries with
  | nil => simp [Column.given?]
  | cons e rest ih => simp [Column.given?, ih, and_comm]

/-- The only entry that names a column is what the entries give it. -/
theorem Column.given?_of_unique {e : String × Data} (he : e ∈ entries) (hce : c.Answers columns e.1)
    (hunique : ∀ f ∈ entries, c.Answers columns f.1 → f = e) : c.given? columns entries = some e.2 := by
  induction entries with
  | nil => cases he
  | cons f rest ih =>
    obtain ⟨hf, hrest⟩ := List.forall_mem_cons.1 hunique
    rw [Column.given?]
    by_cases hmem : e ∈ rest
    · rw [ih hmem hrest, Option.some_or]
    · obtain rfl : e = f := (List.mem_cons.1 he).resolve_right hmem
      have hnone : c.given? columns rest = none := by
        rw [Column.given?_eq_none_iff]
        exact fun g hg hcg => hmem (hrest g hg hcg ▸ hg)
      rw [hnone, Option.none_or, if_pos hce]

/-- **A row that keeps its entries shows them exactly if they address no column twice.** -/
theorem Row.Keeps.shows_iff (h : r.Keeps columns entries) (hkeys : (entries.map Prod.fst).Nodup)
    (hanswers : ∀ e ∈ entries, ∃ c ∈ columns, c.Answers columns e.1) :
    r.Shows columns entries ↔ ¬Doubled columns entries := by
  constructor
  · rintro ⟨-, hapart⟩ ⟨c, hc, hne, hname, hid, hnone⟩
    obtain ⟨e, he, hekey⟩ := List.mem_map.1 hname
    obtain ⟨f, hf, hfkey⟩ := List.mem_map.1 hid
    have hef : e = f := hapart c hc e he f hf (.inl hekey.symm) (.inr ⟨hfkey.symm, hfkey ▸ hnone⟩)
    exact hne (hekey.symm.trans (hef ▸ hfkey))
  · intro hdoubled
    refine ⟨fun e he => ?_, fun c hc e he f hf => eq_of_answers hkeys hdoubled hc he hf⟩
    obtain ⟨c, hc, hce⟩ := hanswers e he
    have hgiven : c.given? columns entries = some e.2 :=
      Column.given?_of_unique he hce fun f hf hcf => eq_of_answers hkeys hdoubled hc hf he hcf hce
    refine ⟨c, hc, hce, ?_⟩
    have hcell := h c hc
    rwa [hgiven] at hcell

end Rows

/-! ## Loaded documents -/

/-- The row is one of the document's: each of its keys names one column, it keeps its entries, and shows them unless
they address a column twice. -/
structure Row.Inlines (columns : List Column) (raw : Data) (r : Row) : Prop where
  answers : ∀ e ∈ raw.cells, ∃! c, c ∈ columns ∧ c.Answers columns e.1
  keeps : r.Keeps columns raw.cells
  shows : r.Shows columns raw.cells ↔ ¬Doubled columns raw.cells

/-- Each sheet ends with the rows that the document has for it. -/
def Workbook.Inlines (d : Data) (w : Workbook) : Prop :=
  ∃ items, d.get? "sheets" = some (.list items) ∧
    List.Forall₂ (fun raw s => ∃ front inline, s.rows = front ++ inline ∧
      List.Forall₂ (Row.Inlines s.columns) (partsOf raw "rows") inline) items w.sheets

section Documents

variable {frame : String → Except DocumentFault Table} {d raw : Data} {s : Sheet} {w : Workbook}

theorem rowOfData_inlines {place : Nat} {row : Data} {r : Row} (hrow : row.Keyed)
    (h : rowOfData s.name s.columns place row = .ok r) : r.Inlines s.columns row := by
  have hanswers := answers_of_rowOfData s.columnNames_nodup s.columnIds_nodup h
  have hkeeps := rowOfData_keeps s.columnNames_nodup s.columnIds_nodup h
  refine ⟨fun e he => ?_, hkeeps, hkeeps.shows_iff hrow.nodup_cells hanswers⟩
  obtain ⟨c, hc, hkey⟩ := hanswers e he
  exact ⟨c, ⟨hc, hkey⟩, fun d hd => hd.2.unique s.columnNames_nodup s.columnIds_nodup hd.1 hc hkey⟩

theorem sheetOfFrames_inlines (hraw : raw.Keyed) (h : sheetOfFrames frame raw = .ok s) :
    ∃ front inline, s.rows = front ++ inline ∧
      List.Forall₂ (Row.Inlines s.columns) (partsOf raw "rows") inline := by
  obtain ⟨-, -, front, inline, hrows, hinline⟩ := sheetOfFrames_rows h
  exact ⟨front, inline, hrows, forall₂_of_eachFrom (eachPart_eq_ok_iff.1 hinline).2 fun row hrow _ _ =>
    rowOfData_inlines (hraw.partsOf "rows" row hrow)⟩

theorem Workbook.ofFrames_inlines (hd : d.Keyed) (h : Workbook.ofFrames frame d = .ok w) : w.Inlines d := by
  obtain ⟨items, hitems, hsheets⟩ := Workbook.ofFrames_eq_ok_iff.1 h
  have hkeyed : ∀ raw ∈ items, raw.Keyed := (hd.get? hitems).parts? rfl
  refine ⟨items, hitems, ((List.forall₂_and_left _ _).2 ⟨hkeyed, hsheets⟩).imp ?_⟩
  rintro raw s ⟨hraw, hs⟩
  exact sheetOfFrames_inlines hraw hs

end Documents

/-- **The rows of a loaded document show their entries exactly if they address no column twice**, whatever tables the
sources of the document give, or whatever files they are read from. A row that does keeps the last entry of each
column. -/
theorem Workbook.inlines_of_load {d : Data} (hd : d.Keyed) :
    (∀ frame w, Workbook.ofFrames frame d = .ok w → w.Inlines d) ∧
      ∀ files directory w, Workbook.ofDocument files directory d = .ok w → w.Inlines d :=
  ⟨fun _ _ h => Workbook.ofFrames_inlines hd h, fun files directory _ h =>
    Workbook.ofFrames_inlines hd ((Workbook.ofDocument_eq_ofFrames files directory d).symm.trans h)⟩

/-- A row with two values, one under the name of a column and one under an identifier. -/
def levelCells (id : String) : List (String × Data) :=
  [("Level", .int 1), (id, .int 2)]

/-- A sheet of one row. -/
def levelDocument (id : String) : Data :=
  .mapping [("sheets", .list [.mapping [
    ("name", .text "S"),
    ("columns", .list [.text "Level", .text "Power"]),
    ("rows", .list [.mapping [("cells", .mapping (levelCells id))]])]])]

theorem keyed_levelDocument {id : String} (h : "Level" ≠ id) : (levelDocument id).Keyed := by
  have hcells : (Data.mapping (levelCells id)).Keyed :=
    .mapping (by simp [levelCells, h]) (by simp [levelCells, Data.Keyed.int])
  have hrows : (Data.list [.mapping [("cells", .mapping (levelCells id))]]).Keyed :=
    .list (List.forall_mem_singleton.2 (.mapping (by simp) (List.forall_mem_singleton.2 hcells)))
  have hcolumns : (Data.list [.text "Level", .text "Power"]).Keyed := .list (by simp [Data.Keyed.text])
  refine .mapping (by simp) (List.forall_mem_singleton.2 (.list (List.forall_mem_singleton.2 ?_)))
  refine .mapping (by simp) ?_
  simp only [List.forall_mem_cons]
  exact ⟨.text _, hcolumns, hrows, List.forall_mem_nil _⟩

theorem levelDocument_loaded : ∀ id ∈ ["col1", "col2"], ∃ w,
    Workbook.ofDocument {} "." (levelDocument id) = .ok w ∧ w.sheets.map (fun s => (s.columns, s.rows)) =
      [([⟨"col1", "Level", .general, none⟩, ⟨"col2", "Power", .general, none⟩],
        [⟨"row1", if id = "col1" then [("col1", .int 2)] else [("col1", .int 1), ("col2", .int 2)]⟩])] := by
  intro id hid
  refine map_eq_ok_iff.1 ?_
  revert id
  decide +kernel

/-- The second value is under the identifier of the other column, and the row shows both. -/
theorem inlines_of_load_apart : (levelDocument "col2").Keyed ∧ ∃ w,
    Workbook.ofDocument {} "." (levelDocument "col2") = .ok w ∧
      ∃ s ∈ w.sheets, ∃ r ∈ s.rows, r.Shows s.columns (levelCells "col2") := by
  have hkeyed : (levelDocument "col2").Keyed := keyed_levelDocument (by decide)
  obtain ⟨w, hw, hsheets⟩ := levelDocument_loaded "col2" (by decide)
  obtain ⟨s, hs, hcontent⟩ := List.map_eq_singleton_iff.1 hsheets
  obtain ⟨hcolumns, -⟩ := Prod.mk.inj hcontent
  obtain ⟨items, hitems, hall⟩ := (Workbook.inlines_of_load hkeyed).2 _ _ w hw
  cases hitems
  rw [hs] at hall
  obtain ⟨⟨front, inline, hrows, hinline⟩, -⟩ := List.forall₂_cons.1 hall
  obtain ⟨r, hr, hshown⟩ := exists_of_forall₂ hinline (List.mem_singleton_self _)
  refine ⟨hkeyed, w, hw, s, by simp [hs], r, by simp [hrows, hr], hshown.shows.2 ?_⟩
  rw [hcolumns]
  decide

/-- The second value is under the identifier of the same column: the row holds it, and not the first one. -/
theorem inlines_of_load_doubled : (levelDocument "col1").Keyed ∧ ∃ w,
    Workbook.ofDocument {} "." (levelDocument "col1") = .ok w ∧
      ∃ s ∈ w.sheets, ∃ r ∈ s.rows, r.cell "col1" = .int 2 ∧ ¬r.Shows s.columns (levelCells "col1") := by
  obtain ⟨w, hw, hsheets⟩ := levelDocument_loaded "col1" (by decide)
  obtain ⟨s, hs, hcontent⟩ := List.map_eq_singleton_iff.1 hsheets
  obtain ⟨hcolumns, hrows⟩ := Prod.mk.inj hcontent
  refine ⟨keyed_levelDocument (by decide), w, hw, s, by simp [hs], ⟨"row1", [("col1", .int 2)]⟩, by simp [hrows], rfl,
    fun hshows => ?_⟩
  -- one column answers to both keys, so the two entries would have to be one
  rw [hcolumns] at hshows
  have hentry := hshows.apart ⟨"col1", "Level", .general, none⟩ (by decide) ("Level", .int 1) (by simp [levelCells])
    ("col1", .int 2) (by simp [levelCells]) (by decide) (by decide)
  exact absurd (congrArg Prod.fst hentry) (by decide)

end GameSheet
