import Mathlib.Data.List.Forall2
import GameSheet.Proofs.Workbook.Cells

/-!
# Workbooks of one shape

Two workbooks have one shape if they have the same sheets, columns and row identifiers in the same order; the contents
of their cells may differ. Rows are found by the contents of a few columns only, so as long as these agree a reference
leads to the same place in both workbooks, or fails in both for the same reason.

* `SameKeys` says that the workbooks have one shape and agree where rows are found by content.
* `RowTwin` and `CellTwin` relate the places that correspond to each other.
* `SameKeys.target` is the main statement: references lead to corresponding cells.
-/

namespace GameSheet

open Formula

/-! ## Shapes -/

/-- Two sheets with the same identifiers, names and columns. -/
structure Sheet.SameShape (s t : Sheet) : Prop where
  id : s.id = t.id
  name : s.name = t.name
  columns : s.columns = t.columns
  rowIds : s.rows.map Row.id = t.rows.map Row.id

/-- The column is one by whose content rows are found: the key column of the settings sheet, or a column that is named
as one of identifiers or of names. -/
def Sheet.FindsRows (options : Options) (s : Sheet) (c : Column) : Prop :=
  (s.name = options.settingsSheet ∧ s.settingsColumn options.settingsKeyColumn 0 = .ok c) ∨
    c.name ∈ Sheet.identifierColumns ++ Sheet.nameColumns

/-- The raw data of the cell with a key. -/
def Workbook.content? (w : Workbook) (key : CellKey) : Option RawCell := do
  let sheet ← w.sheetById? key.sheet
  let index ← sheet.rowIndex? key.row
  some ((sheet.rows.get index).cell key.column)

/-- Two workbooks of one shape that agree in the columns by which rows are found. -/
structure Workbook.SameKeys (options : Options) (w w' : Workbook) : Prop where
  shape : List.Forall₂ Sheet.SameShape w.sheets w'.sheets
  keys : ∀ c, w.Contains c → c.site.sheet.FindsRows options c.column → w.content? c.key = w'.content? c.key

/-- Corresponding rows of two workbooks. -/
structure RowTwin (w w' : Workbook) (s s' : RowSite) : Prop where
  mem : s.sheet ∈ w.sheets
  mem' : s'.sheet ∈ w'.sheets
  shape : s.sheet.SameShape s'.sheet
  index : s.index.val = s'.index.val

/-- Corresponding cells of two workbooks. -/
structure CellTwin (w w' : Workbook) (c c' : CellSite) : Prop where
  site : RowTwin w w' c.site c'.site
  column : c.column = c'.column
  mem : c.column ∈ c.site.sheet.columns

/-! ## Corresponding places -/

theorem Workbook.content?_key {w : Workbook} {c : CellSite} (h : c.site.sheet ∈ w.sheets) :
    w.content? c.key = some (c.site.row.cell c.column.id) := by
  have hs : w.sheetById? c.key.sheet = some c.site.sheet := find?_key w.ids_nodup h
  have hi : c.site.sheet.rowIndex? c.key.row = some c.site.index := Sheet.rowIndex?_id c.site.index
  simp only [Workbook.content?, hs, hi, Option.bind_eq_bind, Option.bind_some]
  rfl

section Twins

variable {w w' : Workbook}

theorem Sheet.SameShape.length {s t : Sheet} (h : s.SameShape t) : s.rows.length = t.rows.length := by
  simpa using congrArg List.length h.rowIds

theorem Sheet.SameShape.id_row {s t : Sheet} (h : s.SameShape t) {i : s.Index} {j : t.Index} (hij : i.val = j.val) :
    s.rows[i].id = t.rows[j].id := by
  have h := List.getElem_of_eq h.rowIds (i := i.val) (by simp)
  simpa [hij] using h

theorem RowTwin.above? {s s' : RowSite} (h : RowTwin w w' s s') :
    Option.Rel (RowTwin w w') s.above? s'.above? := by
  obtain ⟨sheet, i, hi⟩ := s
  obtain ⟨sheet', i', hi'⟩ := s'
  obtain rfl : i = i' := h.index
  cases i with
  | zero => exact .none
  | succ i => exact .some ⟨h.mem, h.mem', h.shape, rfl⟩

namespace CellTwin

variable {c c' : CellSite}

theorem key_eq (h : CellTwin w w' c c') : c.key = c'.key :=
  CellKey.mk.injEq .. ▸ ⟨h.site.shape.id, h.site.shape.id_row h.site.index, congrArg Column.id h.column⟩

theorem label_eq (h : CellTwin w w' c c') : c.label = c'.label := by
  have hrow : c.site.row.id = c'.site.row.id := h.site.shape.id_row h.site.index
  simp only [CellSite.label, h.site.shape.name, hrow, h.column]

theorem contains (h : CellTwin w w' c c') : w.Contains c :=
  ⟨h.site.mem, h.mem⟩

/-- Corresponding cells with the same data have the same data by their column. -/
theorem cell_eq (h : CellTwin w w' c c') (agree : w.content? c.key = w'.content? c.key) :
    c.site.row.cell c.column.id = c'.site.row.cell c'.column.id := by
  rw [Workbook.content?_key h.site.mem, h.key_eq, Workbook.content?_key h.site.mem'] at agree
  exact Option.some.inj agree

/-- Corresponding cells with the same data are computed from the same. -/
theorem source_eq (h : CellTwin w w' c c') (agree : w.content? c.key = w'.content? c.key) : c.source = c'.source := by
  have hcell := h.cell_eq agree
  rw [← h.column] at hcell
  simp only [CellSite.source, Row.source, ← h.column, hcell]

end CellTwin

/-! ## Corresponding searches -/

/-- Two searches that find what corresponds, or fail for the same reason. -/
inductive Matched {α β : Type} (R : α → β → Prop) : Except Failure α → Except Failure β → Prop
  | found {a : α} {b : β} : R a b → Matched R (.ok a) (.ok b)
  | missed (f : Failure) : Matched R (.error f) (.error f)

namespace Matched

variable {α β γ δ : Type} {R : α → β → Prop} {S : γ → δ → Prop}

theorem bind {x : Except Failure α} {y : Except Failure β} {k : α → Except Failure γ} {l : β → Except Failure δ}
    (h : Matched R x y) (hk : ∀ a b, R a b → Matched S (k a) (l b)) : Matched S (x >>= k) (y >>= l) := by
  cases h with
  | found hab => exact hk _ _ hab
  | missed f => exact .missed f

theorem refl (x : Except Failure α) : Matched Eq x x := by
  cases x with
  | ok a => exact .found rfl
  | error f => exact .missed f

/-- The same where something may be searched in. -/
theorem some {x : Except Failure α} {y : Except Failure β} (h : Matched R x y) :
    Matched (Option.Rel R) (x >>= fun a => pure (Option.some a)) (y >>= fun b => pure (Option.some b)) := by
  cases h with
  | found hab => exact .found (.some hab)
  | missed f => exact .missed f

theorem of_rel (m : Missing) {o : Option α} {o' : Option β} (h : Option.Rel R o o') :
    Matched R (orMissing m o) (orMissing m o') := by
  cases h with
  | some hab => exact .found hab
  | none => exact .missed _

/-- Steps that go on alike from corresponding finds are the same. -/
theorem bind_congr {x : Except Failure α} {y : Except Failure β} {k : α → Eval γ}
    {l : β → Eval γ} (h : Matched R x y) (hkl : ∀ a b, x = .ok a → R a b → k a = l b) :
    (Eval.ofExcept x >>= k) = (Eval.ofExcept y >>= l) := by
  cases h with
  | found hab => exact hkl _ _ rfl hab
  | missed f => rfl

end Matched

theorem rel_find? {α β : Type} {R : α → β → Prop} {p : α → Bool} {q : β → Bool} (hpq : ∀ a b, R a b → p a = q b) :
    ∀ {l : List α} {l' : List β}, List.Forall₂ R l l' → Option.Rel R (l.find? p) (l'.find? q)
  | _, _, .nil => .none
  | a :: l, b :: l', .cons hab h => by
    simp only [List.find?_cons, hpq a b hab]
    cases q b with
    | true => exact .some hab
    | false => exact rel_find? hpq h

theorem rel_mono_mem {α β : Type} {R S : α → β → Prop} {o : Option α} {o' : Option β}
    (h : Option.Rel R o o') (hRS : ∀ a b, o = some a → o' = some b → R a b → S a b) : Option.Rel S o o' := by
  cases h with
  | some hab => exact .some (hRS _ _ rfl rfl hab)
  | none => exact .none

/-- Two lists with the same answers have the first yes at the same place. -/
theorem rel_findFinIdx? {α β : Type} {p : α → Bool} {q : β → Bool} {l : List α} {l' : List β}
    (h : l.map p = l'.map q) :
    Option.Rel (fun i j => i.val = j.val) (l.findFinIdx? p) (l'.findFinIdx? q) := by
  have h : (l.findFinIdx? p).map Fin.val = (l'.findFinIdx? q).map Fin.val := by
    have h := congrArg (List.findIdx? id) h
    simp only [List.findIdx?_map, Function.id_comp] at h
    simpa only [List.findIdx?_eq_map_findFinIdx?_val] using h
  cases hp : l.findFinIdx? p with
  | none =>
    cases hq : l'.findFinIdx? q with
    | none => exact .none
    | some j => simp [hp, hq] at h
  | some i =>
    cases hq : l'.findFinIdx? q with
    | none => simp [hp, hq] at h
    | some j => exact .some (by simpa [hp, hq] using h)

theorem rel_orElse {α β : Type} {R : α → β → Prop} {o o₁ : Option α} {o' o₁' : Option β} (h : Option.Rel R o o')
    (h₁ : Option.Rel R o₁ o₁') : Option.Rel R (o <|> o₁) (o' <|> o₁') := by
  cases h with
  | some hab => exact .some hab
  | none => exact h₁

/-- The places of two sheets with equally many rows. -/
theorem forall₂_finRange {n m : Nat} (h : n = m) :
    List.Forall₂ (fun (i : Fin n) (j : Fin m) => i.val = j.val) (List.finRange n) (List.finRange m) := by
  subst h
  exact List.forall₂_same.2 fun _ _ => rfl

/-! ## Corresponding rows -/

namespace Sheet

variable {s t : Sheet}

theorem rowIndex?_congr (hids : s.rows.map Row.id = t.rows.map Row.id) (id : String) :
    Option.Rel (fun i j => i.val = j.val) (s.rowIndex? id) (t.rowIndex? id) := by
  refine rel_findFinIdx? ?_
  have := congrArg (List.map (· == id)) hids
  simpa only [List.map_map, Function.comp_def] using this

/-- A selector picks rows at one place if rows are found by their content at one place. -/
theorem findRow?_congr (hids : s.rows.map Row.id = t.rows.map Row.id)
    (hcontent : ∀ names ∈ [identifierColumns, nameColumns], ∀ identifier,
      Option.Rel (fun i j => i.val = j.val) (s.rowByContent? names identifier) (t.rowByContent? names identifier))
    (selector : RowSelector) :
    Option.Rel (fun i j => i.val = j.val) (s.findRow? selector) (t.findRow? selector) := by
  cases selector with
  | index n =>
    have hlength : s.rows.length = t.rows.length := by simpa using congrArg List.length hids
    simp only [Sheet.findRow?, hlength]
    by_cases hn : n < t.rows.length
    · simp only [hn, dif_pos]
      exact .some rfl
    · simp only [hn, dif_neg, not_false_eq_true]
      exact .none
  | named identifier =>
    exact rel_orElse (rowIndex?_congr hids identifier) (rel_orElse (hcontent _ (by simp) identifier)
      (hcontent _ (by simp) identifier))

/-- A setting is found at one place if the key column holds the same in both sheets. -/
theorem settingRow_congr {c : Column}
    (hcell : ∀ (i : s.Index) (j : t.Index), i.val = j.val → (s.rows.get i).cell c.id = (t.rows.get j).cell c.id)
    (key : String) :
    ∀ {is : List s.Index} {js : List t.Index}, List.Forall₂ (fun i j => i.val = j.val) is js →
      Matched (fun i j => i.val = j.val) (s.settingRow c key is) (t.settingRow c key js) := by
  intro is js hrows
  induction hrows with
  | nil => exact .missed _
  | @cons i j _ _ hij _ ih =>
    have hsame : s.rows[i].cell c.id = t.rows[j].cell c.id := hcell i j hij
    simp only [Sheet.settingRow, hsame]
    cases (t.rows[j].cell c.id).settingName with
    | error e => exact .missed _
    | ok name =>
      by_cases hname : name = some key
      · simp only [hname, if_true]
        exact .found hij
      · simp only [hname, if_false]
        exact ih

end Sheet

/-! ## Corresponding references -/

namespace Sheet.SameShape

variable {s t : Sheet}

theorem columnByName? (h : s.SameShape t) (name : String) : s.columnByName? name = t.columnByName? name := by
  simp only [Sheet.columnByName?, h.columns]

theorem settingsColumn (h : s.SameShape t) (name : Option String) (place : Nat) :
    s.settingsColumn name place = t.settingsColumn name place := by
  cases name <;> simp only [Sheet.settingsColumn, h.columnByName?, h.columns, h.name]

theorem valueColumn (h : s.SameShape t) (name : Option String) : s.valueColumn name = t.valueColumn name := by
  simp only [Sheet.valueColumn, h.columns, h.settingsColumn]

end Sheet.SameShape

namespace Workbook

section Shape

variable (h : List.Forall₂ Sheet.SameShape w.sheets w'.sheets)

include h

/-- Sheets of one name correspond to each other. -/
theorem sheetByName?_congr (name : String) :
    Option.Rel (fun s t => s ∈ w.sheets ∧ t ∈ w'.sheets ∧ s.SameShape t) (w.sheetByName? name)
      (w'.sheetByName? name) :=
  rel_mono_mem (rel_find? (fun _ _ hst => by rw [hst.name]) h) fun _ _ hs ht hst =>
    ⟨mem_of_sheetByName? hs, mem_of_sheetByName? ht, hst⟩

/-- To a sheet that is found by its name another one corresponds. -/
theorem exists_sheetByName? {name : String} {s : Sheet} (hs : w.sheetByName? name = some s) :
    ∃ t, w'.sheetByName? name = some t ∧ s ∈ w.sheets ∧ t ∈ w'.sheets ∧ s.SameShape t := by
  have hrel := sheetByName?_congr h name
  rw [hs] at hrel
  cases ht : w'.sheetByName? name with
  | none =>
    rw [ht] at hrel
    cases hrel
  | some t =>
    rw [ht] at hrel
    cases hrel with
    | some hst => exact ⟨t, rfl, hst⟩

/-- Sheets of one identifier correspond to each other. -/
theorem sheetById?_congr (id : String) :
    Option.Rel (fun s t => s ∈ w.sheets ∧ t ∈ w'.sheets ∧ s.SameShape t) (w.sheetById? id) (w'.sheetById? id) :=
  rel_mono_mem (rel_find? (fun _ _ hst => by rw [hst.id]) h) fun _ _ hs ht hst =>
    ⟨List.mem_of_find?_eq_some hs, List.mem_of_find?_eq_some ht, hst⟩

theorem sheet?_congr (key : String) :
    Option.Rel (fun s t => s ∈ w.sheets ∧ t ∈ w'.sheets ∧ s.SameShape t) (w.sheet? key) (w'.sheet? key) :=
  rel_orElse (sheetById?_congr h key) (sheetByName?_congr h key)

/-- A context leads to corresponding rows. -/
theorem site_congr (sheet row : String) (column : Option String) :
    Matched (RowTwin w w') (Context.site ⟨w, sheet, row, column⟩) (Context.site ⟨w', sheet, row, column⟩) := by
  refine (Matched.of_rel _ (sheet?_congr h sheet)).bind fun s t hst => ?_
  obtain ⟨hs, ht, hst⟩ := hst
  exact (Matched.of_rel _ (Sheet.rowIndex?_congr hst.rowIds row)).bind fun i j hij => .found ⟨hs, ht, hst, hij⟩

end Shape

end Workbook

namespace Workbook.SameKeys

variable {options : Options}

theorem sheetByName? (h : SameKeys options w w') (name : String) :
    Option.Rel (fun s t => s ∈ w.sheets ∧ t ∈ w'.sheets ∧ s.SameShape t) (w.sheetByName? name)
      (w'.sheetByName? name) :=
  sheetByName?_congr h.shape name

/-- Columns by which rows are found hold the same data in both workbooks. -/
theorem cell_eq (h : SameKeys options w w') {s t : Sheet} (hs : s ∈ w.sheets) (ht : t ∈ w'.sheets)
    (hst : s.SameShape t) {c : Column} (hc : c ∈ s.columns) (hfinds : s.FindsRows options c) {i : s.Index}
    {j : t.Index} (hij : i.val = j.val) : s.rows[i].cell c.id = t.rows[j].cell c.id :=
  let twin : CellTwin w w' ⟨⟨s, i⟩, c⟩ ⟨⟨t, j⟩, c⟩ := ⟨⟨hs, ht, hst, hij⟩, rfl, hc⟩
  twin.cell_eq (h.keys _ twin.contains hfinds)

/-- Whether columns identify a row is the same in both workbooks if rows are found by these columns. -/
theorem map_identifies (h : SameKeys options w w') {s t : Sheet} (hs : s ∈ w.sheets) (ht : t ∈ w'.sheets)
    (hst : s.SameShape t) {columns : List Column} (hcolumns : ∀ c ∈ columns, c ∈ s.columns ∧ s.FindsRows options c)
    (identifier : String) :
    s.rows.map (Sheet.identifies columns identifier) = t.rows.map (Sheet.identifies columns identifier) := by
  refine List.ext_getElem (by simp [hst.length]) fun i hi hi' => ?_
  simp only [List.length_map] at hi hi'
  simp only [List.getElem_map, Sheet.identifies]
  rw [Bool.eq_iff_iff, List.any_eq_true, List.any_eq_true]
  refine exists_congr fun c => and_congr_right fun hc => ?_
  obtain ⟨hmem, hfinds⟩ := hcolumns c hc
  have := h.cell_eq hs ht hst hmem hfinds (i := ⟨i, hi⟩) (j := ⟨i, hi'⟩) rfl
  simp only [Fin.getElem_fin] at this
  rw [this]

theorem rowByContent? (h : SameKeys options w w') {s t : Sheet} (hs : s ∈ w.sheets) (ht : t ∈ w'.sheets)
    (hst : s.SameShape t) {names : List String} (hnames : names ⊆ Sheet.identifierColumns ++ Sheet.nameColumns)
    (identifier : String) :
    Option.Rel (fun i j => i.val = j.val) (s.rowByContent? names identifier) (t.rowByContent? names identifier) := by
  have hcolumns : names.filterMap t.columnByName? = names.filterMap s.columnByName? := by
    rw [funext hst.columnByName?]
  simp only [Sheet.rowByContent?, hcolumns]
  refine rel_findFinIdx? (h.map_identifies hs ht hst (fun c hc => ?_) identifier)
  obtain ⟨name, hname, hc⟩ := List.mem_filterMap.1 hc
  have hn : c.name = name := by simpa using List.find?_some hc
  exact ⟨Sheet.mem_of_columnByName? hc, .inr (hn ▸ hnames hname)⟩

/-- A selector picks corresponding rows. -/
theorem findRow? (h : SameKeys options w w') {s t : Sheet} (hs : s ∈ w.sheets) (ht : t ∈ w'.sheets)
    (hst : s.SameShape t) (selector : RowSelector) :
    Option.Rel (fun i j => i.val = j.val) (s.findRow? selector) (t.findRow? selector) := by
  refine Sheet.findRow?_congr hst.rowIds (fun names hnames => h.rowByContent? hs ht hst ?_) selector
  simp only [List.mem_cons, List.not_mem_nil, or_false] at hnames
  rcases hnames with rfl | rfl
  · exact List.subset_append_left _ _
  · exact List.subset_append_right _ _

/-- A setting is found in corresponding rows. -/
theorem settingRow (h : SameKeys options w w') {s t : Sheet} (hs : s ∈ w.sheets) (ht : t ∈ w'.sheets)
    (hst : s.SameShape t) {c : Column} (hc : c ∈ s.columns) (hfinds : s.FindsRows options c) (key : String) :
    ∀ {is : List s.Index} {js : List t.Index}, List.Forall₂ (fun i j => i.val = j.val) is js →
      Matched (fun i j => i.val = j.val) (s.settingRow c key is) (t.settingRow c key js) :=
  Sheet.settingRow_congr (fun _ _ => h.cell_eq hs ht hst hc hfinds) key

/-- A column of corresponding rows. -/
theorem cellOfRow {s s' : RowSite} (hss : RowTwin w w' s s') (name : String) :
    Matched (CellTwin w w') (Scope.cellOfRow s name) (Scope.cellOfRow s' name) := by
  unfold Scope.cellOfRow
  rw [← hss.shape.columnByName?]
  cases hc : s.sheet.columnByName? name with
  | none => exact .missed _
  | some c => exact .found ⟨hss, rfl, Sheet.mem_of_columnByName? hc⟩

/-- A setting is found in corresponding cells. -/
theorem cellOfSetting (h : SameKeys options w w') (key : String) :
    Matched (CellTwin w w') (Scope.cellOfSetting ⟨w, options⟩ key) (Scope.cellOfSetting ⟨w', options⟩ key) := by
  have hsheet := rel_mono_mem (h.sheetByName? options.settingsSheet)
    (S := fun s t => s.name = options.settingsSheet ∧ s ∈ w.sheets ∧ t ∈ w'.sheets ∧ s.SameShape t)
    fun s t hs _ hst => ⟨by simpa using List.find?_some hs, hst⟩
  refine (Matched.of_rel _ hsheet).bind fun s t hst => ?_
  obtain ⟨hname, hs, ht, hst⟩ := hst
  rw [← hst.settingsColumn, ← hst.valueColumn]
  cases hk : s.settingsColumn options.settingsKeyColumn 0 with
  | error f => exact .missed f
  | ok keyColumn =>
    cases hv : s.valueColumn options.settingsValueColumn with
    | error f => exact .missed f
    | ok valueColumn =>
      exact (h.settingRow hs ht hst (Sheet.mem_of_settingsColumn hk) (.inl ⟨hname, hk⟩) key
        (forall₂_finRange hst.length)).bind fun i j hij =>
          .found ⟨⟨hs, ht, hst, hij⟩, rfl, Sheet.mem_of_valueColumn hv⟩

/-- A cell of another sheet is found in corresponding places. -/
theorem cellOfSheet (h : SameKeys options w w') (sheet : String) (selector : RowSelector) (column : String) :
    Matched (CellTwin w w') (Scope.cellOfSheet ⟨w, options⟩ sheet selector column)
      (Scope.cellOfSheet ⟨w', options⟩ sheet selector column) := by
  refine (Matched.of_rel _ (h.sheetByName? sheet)).bind fun s t hst => ?_
  obtain ⟨hs, ht, hst⟩ := hst
  refine (Matched.of_rel _ (h.findRow? hs ht hst selector)).bind fun i j hij => ?_
  rw [← hst.columnByName?]
  cases hc : s.columnByName? column with
  | none => exact .missed _
  | some c => exact .found ⟨⟨hs, ht, hst, hij⟩, rfl, Sheet.mem_of_columnByName? hc⟩

/-- **A reference leads to corresponding cells, or fails in both workbooks for the same reason.** -/
theorem target (h : SameKeys options w w') {site site' : Option RowSite} (hsite : Option.Rel (RowTwin w w') site site')
    (r : Reference) :
    Matched (CellTwin w w') (Scope.target ⟨w, options⟩ site r) (Scope.target ⟨w', options⟩ site' r) := by
  cases r with
  | column name _ => exact (Matched.of_rel _ hsite).bind fun _ _ hss => cellOfRow hss name
  | previous name _ =>
    refine (Matched.of_rel _ ?_).bind fun _ _ hss => cellOfRow hss name
    cases hsite with
    | none => exact .none
    | some hss => exact hss.above?
  | setting key _ => exact h.cellOfSetting key
  | cross sheet row column _ => exact h.cellOfSheet sheet row column

theorem site (h : SameKeys options w w') (sheet row : String) (column : Option String) :
    Matched (RowTwin w w') (Context.site ⟨w, sheet, row, column⟩) (Context.site ⟨w', sheet, row, column⟩) :=
  site_congr h.shape sheet row column

end Workbook.SameKeys

/-- A column of corresponding rows, by its identifier. -/
theorem RowTwin.ownCell {s s' : RowSite} (h : RowTwin w w' s s') (id : String) :
    Matched (CellTwin w w') (Engine.ownCell s id) (Engine.ownCell s' id) := by
  unfold Engine.ownCell Sheet.columnById?
  rw [← h.shape.columns]
  cases hc : s.sheet.columns.find? (·.id == id) with
  | none => exact .missed _
  | some c => exact .found ⟨h, rfl, List.mem_of_find?_eq_some hc⟩

end Twins

end GameSheet
