import GameSheet.Proofs.Workbook.Cells

/-!
# The row that an identifier selects

A row may have an identifier (`Row.id`), show it in a column of identifiers, or show it in a column of names
(`Sheet.Shows`). The three ways come one after the other: a row that has the identifier is selected wherever it stands,
a row that shows it as an identifier only if no row has it, and a row that shows it as a name only if none does either.
Of several rows that show it in the same way the first one is selected (`Sheet.Selects`).

**`Sheet.findRow?_selects`** says that this is the row that is found.
-/

namespace GameSheet

namespace Sheet

variable {s : Sheet} {identifier : String} {i : s.Index}

/-- The row is the first one with a property. -/
def IsFirst (s : Sheet) (P : s.Index → Prop) (i : s.Index) : Prop :=
  P i ∧ ∀ j < i, ¬P j

/-- A column of one of the names holds data in the row that reads as the identifier. -/
def Shows (s : Sheet) (names : List String) (identifier : String) (i : s.Index) : Prop :=
  ∃ c ∈ s.columns, c.name ∈ names ∧ (s.rows.get i).cell c.id ≠ .null ∧ ((s.rows.get i).cell c.id).shown = identifier

/-- The row has the identifier; or no row has it, and this is the first one that shows it as an identifier; or no row
shows it so either, and this is the first one that shows it as a name. -/
def Selects (s : Sheet) (identifier : String) (i : s.Index) : Prop :=
  (s.rows.get i).id = identifier ∨
    (∀ j : s.Index, (s.rows.get j).id ≠ identifier) ∧
      (s.IsFirst (s.Shows ["ID", "id"] identifier) i ∨
        (∀ j, ¬s.Shows ["ID", "id"] identifier j) ∧ s.IsFirst (s.Shows ["name", "Name"] identifier) i)

/-! ## Each way by itself -/

theorem rowIndex?_eq_some_iff : s.rowIndex? identifier = some i ↔ (s.rows.get i).id = identifier := by
  constructor
  · intro h
    exact beq_iff_eq.1 (List.findFinIdx?_eq_some_iff.1 h).1
  · rintro rfl
    exact rowIndex?_id i

theorem rowIndex?_eq_none_iff : s.rowIndex? identifier = none ↔ ∀ j : s.Index, (s.rows.get j).id ≠ identifier := by
  rw [Option.eq_none_iff_forall_ne_some]
  exact forall_congr' fun j => not_congr rowIndex?_eq_some_iff

theorem identifies_iff {columns : List Column} {row : Row} : identifies columns identifier row = true ↔
    ∃ c ∈ columns, row.cell c.id ≠ .null ∧ (row.cell c.id).shown = identifier := by
  rw [identifies, List.any_eq_true]
  refine exists_congr fun c => and_congr_right fun _ => ?_
  cases row.cell c.id with
  | null => simp
  | _ => simp

/-- Columns are picked by their names. -/
theorem mem_filterMap_columnByName? {names : List String} {c : Column} :
    c ∈ names.filterMap s.columnByName? ↔ c ∈ s.columns ∧ c.name ∈ names := by
  rw [List.mem_filterMap]
  constructor
  · rintro ⟨label, hlabel, hc⟩
    obtain ⟨hmem, rfl⟩ := (find?_eq_some_iff_of_nodup s.columnNames_nodup).1 hc
    exact ⟨hmem, hlabel⟩
  · rintro ⟨hmem, hname⟩
    exact ⟨c.name, hname, find?_key s.columnNames_nodup hmem⟩

theorem identifies_row_iff {names : List String} :
    identifies (names.filterMap s.columnByName?) identifier (s.rows.get i) = true ↔ s.Shows names identifier i := by
  rw [identifies_iff]
  exact exists_congr fun c => by rw [mem_filterMap_columnByName?, and_assoc]

/-- By content the first row is found that shows the identifier. -/
theorem rowByContent?_eq_some_iff {names : List String} :
    s.rowByContent? names identifier = some i ↔ s.IsFirst (s.Shows names identifier) i := by
  rw [rowByContent?, List.findFinIdx?_eq_some_iff, IsFirst]
  exact and_congr identifies_row_iff (forall₂_congr fun j _ => not_congr (identifies_row_iff (i := j)))

theorem rowByContent?_eq_none_iff {names : List String} :
    s.rowByContent? names identifier = none ↔ ∀ j, ¬s.Shows names identifier j := by
  rw [rowByContent?, List.findFinIdx?_eq_none_iff]
  constructor
  · intro h j hj
    exact h _ (List.getElem_mem j.isLt) (identifies_row_iff.2 hj)
  · intro h row hrow hidentifies
    obtain ⟨j, hj, rfl⟩ := List.getElem_of_mem hrow
    exact h ⟨j, hj⟩ (identifies_row_iff.1 hidentifies)

/-! ## All ways -/

/-- **The row that is found is the one that the identifier selects**, so the row that has it if there is one, and none
only if no row has it or shows it. -/
theorem findRow?_selects (s : Sheet) (identifier : String) :
    (∀ i, s.findRow? (.named identifier) = some i ↔ s.Selects identifier i) ∧
      (s.findRow? (.named identifier) = none ↔ ∀ i : s.Index, (s.rows.get i).id ≠ identifier ∧
        ¬s.Shows ["ID", "id"] identifier i ∧ ¬s.Shows ["name", "Name"] identifier i) ∧
      (∀ i : s.Index, s.findRow? (.named (s.rows.get i).id) = some i) ∧
      ∀ n, (s.findRow? (.named identifier)).map Fin.val = some n → n < s.rows.length := by
  have hsome : ∀ (identifier : String) (i : s.Index),
      s.findRow? (.named identifier) = some i ↔ s.Selects identifier i := by
    intro identifier i
    rw [findRow?, Option.orElse_eq_orElse, Option.orElse_eq_or, Option.orElse_eq_or,
      Option.or_eq_some_iff, Option.or_eq_some_iff, rowIndex?_eq_some_iff, rowIndex?_eq_none_iff,
      rowByContent?_eq_some_iff, rowByContent?_eq_none_iff, rowByContent?_eq_some_iff]
    rfl
  refine ⟨hsome identifier, ?_, fun i => (hsome _ i).2 (.inl rfl), ?_⟩
  · rw [findRow?, Option.orElse_eq_orElse, Option.orElse_eq_or, Option.orElse_eq_or,
      Option.or_eq_none_iff, Option.or_eq_none_iff, rowIndex?_eq_none_iff, rowByContent?_eq_none_iff,
      rowByContent?_eq_none_iff, ← forall_and, ← forall_and]
    rfl
  · intro n hn
    obtain ⟨i, -, rfl⟩ := Option.map_eq_some_iff.1 hn
    exact i.isLt

end Sheet

end GameSheet
