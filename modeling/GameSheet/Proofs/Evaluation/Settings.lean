import GameSheet.Proofs.Decimal.Integers
import GameSheet.Proofs.Decimal.Written
import GameSheet.Proofs.Evaluation.Outcome
import GameSheet.Proofs.Workbook.Twins

/-!
# Settings

A setting is searched for among the key cells of the settings sheet, row by row. A key cell names it by its text, and
three numbers are on display as words, of which two may be names: NaN and infinity (`RawCell.NamesSetting`). A search
goes past any other data, as long as an integer is in the range of floats (`RawCell.PassedBy`). So whatever else stands
in the key cells, the first row that names the setting is found (`Sheet.settingRow_of_hasSetting`), and the setting has
the value that stands there.

**`Engine.evaluateWith_setting`** says so of the formula that is nothing but the setting, and that its outcome is the
same in a workbook with other data in the other key cells.
-/

namespace GameSheet

open Formula

/-! ## Names of settings -/

namespace RawCell

/-- A key cell with this data names the setting: it is the name, or a number that is displayed as the name. -/
def NamesSetting (key : String) : RawCell → Prop
  | .text s => s = key
  | .float x => x.isNaN = true ∧ key = "NaN" ∨ x.isInf = true ∧ Decimal.isNegative x = false ∧ key = "Infinity"
  | _ => False

/-- A search for the setting goes past a key cell with this data: it is no name of the setting, and an integer is in the
range of floats. -/
structure PassedBy (key : String) (raw : RawCell) : Prop where
  other : ¬raw.NamesSetting key
  fits : ∀ n, raw = .int n → ∃ x, floatOfInt n = .ok x

end RawCell

/-- A word starts with no digit and no minus. -/
theorem Formula.Word.ne_of_head {key text : String} (hkey : Word key.toList) {c : Char} {rest : List Char}
    (htext : text.toList = c :: rest) (hc : Text.isAsciiDigit c = true ∨ c = '-') : text ≠ key := by
  rintro rfl
  rw [htext] at hkey
  cases hkey with
  | mk hstart _ =>
    have hnone : isNameStart c = false := by
      rcases hc with hdigit | rfl
      · refine isNameStart_of_isDigit ?_
        rw [Text.isDigit, Decimal.digitValue?_of_isAsciiDigit hdigit]
        rfl
      · decide
    rw [hnone] at hstart
    cases hstart

namespace RawCell

section Word

variable {key : String} (hkey : Word key.toList)

include hkey

/-- Of the numbers on display, two are words that may name a setting. -/
theorem displayText_eq_iff {x : Float} : Decimal.displayText x = key ↔
    x.isNaN = true ∧ key = "NaN" ∨ x.isInf = true ∧ Decimal.isNegative x = false ∧ key = "Infinity" := by
  have hminus : "-Infinity" ≠ key := hkey.ne_of_head rfl (.inr rfl)
  cases hnan : x.isNaN with
  | true =>
    have hinf : x.isInf = false := by
      have hnan' : x.toModel.unpack.isNaN = true := hnan
      have hinf : x.isInf = x.toModel.unpack.isInf := rfl
      rw [hinf]
      cases hx : x.toModel.unpack <;> rw [hx] at hnan' <;> first | rfl | cases hnan'
    rw [Decimal.displayText_nan hnan]
    simp only [true_and, hinf, Bool.false_eq_true, false_and, or_false]
    exact eq_comm
  | false =>
    cases hinf : x.isInf with
    | true =>
      rw [Decimal.displayText_infinity hnan hinf]
      cases Decimal.isNegative x with
      | true => simpa using hminus
      | false =>
        simp only [Bool.false_eq_true, if_false, false_and, true_and, false_or]
        exact eq_comm
    | false =>
      obtain ⟨c, rest, htext, hc⟩ := Decimal.displayText_head hnan hinf
      simpa using hkey.ne_of_head htext hc

/-- An integer in the range of floats is not displayed as a name. -/
theorem displayText_ne_of_int {n : Int} {x : Float} (h : floatOfInt n = .ok x) : Decimal.displayText x ≠ key := by
  unfold floatOfInt at h
  dsimp only at h
  split at h
  · cases h
  · next hinf =>
    obtain rfl := Except.ok.inj h
    rw [Ne, displayText_eq_iff hkey, Decimal.isNaN_ofInt]
    simp [hinf]

/-- The name of a key cell that names the setting is the one that is searched for. -/
theorem settingName_names {raw : RawCell} (h : raw.NamesSetting key) : raw.settingName = .ok (some key) := by
  cases raw with
  | text s => rw [settingName, show s = key from h]
  | float x => rw [settingName, (displayText_eq_iff hkey).2 h]
  | _ => exact h.elim

/-- The name of a key cell that is passed by is another one, if it has one. -/
theorem PassedBy.settingName {raw : RawCell} (h : raw.PassedBy key) :
    ∃ name, raw.settingName = .ok name ∧ name ≠ some key := by
  cases raw with
  | null => exact ⟨none, rfl, nofun⟩
  | bool b =>
    have hdigit : ∃ c rest, (CellValue.truth b).display.toList = c :: rest ∧ Text.isAsciiDigit c = true := by
      cases b with
      | true => exact ⟨'1', [], by decide +kernel, by decide⟩
      | false => exact ⟨'0', [], by decide +kernel, by decide⟩
    obtain ⟨c, rest, htext, hc⟩ := hdigit
    exact ⟨_, rfl, fun heq => hkey.ne_of_head htext (.inl hc) (Option.some.inj heq)⟩
  | int n =>
    obtain ⟨x, hx⟩ := h.fits n rfl
    refine ⟨some (Decimal.displayText x), by rw [RawCell.settingName, hx]; rfl, fun heq => ?_⟩
    exact displayText_ne_of_int hkey hx (Option.some.inj heq)
  | float x => exact ⟨_, rfl, fun heq => h.other ((displayText_eq_iff hkey).1 (Option.some.inj heq))⟩
  | text s => exact ⟨some s, rfl, fun heq => h.other (Option.some.inj heq)⟩

end Word

end RawCell

/-! ## The row of a setting -/

/-- The row is the first one whose key cell names the setting. -/
structure Sheet.HasSetting (s : Sheet) (keyColumn : Column) (key : String) (i : s.Index) : Prop where
  names : ((s.rows.get i).cell keyColumn.id).NamesSetting key
  passed : ∀ j < i, ((s.rows.get j).cell keyColumn.id).PassedBy key

namespace Sheet

variable {s : Sheet} {keyColumn : Column} {key : String}

/-- A search goes on behind a row that it goes past. -/
theorem settingRow_passed (hkey : Word key.toList) {j : s.Index} (h : ((s.rows.get j).cell keyColumn.id).PassedBy key)
    (rest : List s.Index) : s.settingRow keyColumn key (j :: rest) = s.settingRow keyColumn key rest := by
  obtain ⟨name, hname, hne⟩ := h.settingName hkey
  have hcell : (s.rows[j].cell keyColumn.id).settingName = .ok name := hname
  simp only [settingRow, hcell, if_neg hne]

/-- A search ends at a row that names the setting. -/
theorem settingRow_names (hkey : Word key.toList) {i : s.Index}
    (h : ((s.rows.get i).cell keyColumn.id).NamesSetting key) (rest : List s.Index) :
    s.settingRow keyColumn key (i :: rest) = .ok i := by
  have hcell : (s.rows[i].cell keyColumn.id).settingName = .ok (some key) := RawCell.settingName_names hkey h
  simp only [settingRow, hcell, if_true]

/-- **The first row that names a setting is found.** -/
theorem settingRow_of_hasSetting (hkey : Word key.toList) {i : s.Index} (h : s.HasSetting keyColumn key i) :
    s.settingRow keyColumn key (List.finRange s.rows.length) = .ok i := by
  obtain ⟨before, after, hrows⟩ := List.append_of_mem (List.mem_finRange i)
  have hlt : ∀ j ∈ before, j < i := fun j hj => by
    have hsorted := List.pairwise_lt_finRange s.rows.length
    rw [hrows, List.pairwise_append] at hsorted
    exact hsorted.2.2 j hj i List.mem_cons_self
  rw [hrows]
  clear hrows
  induction before with
  | nil => exact settingRow_names hkey h.names after
  | cons j before ih =>
    rw [List.cons_append, settingRow_passed hkey (h.passed j (hlt j List.mem_cons_self))]
    exact ih fun k hk => hlt k (List.mem_cons_of_mem j hk)

end Sheet

/-! ## The formula of a setting -/

namespace Formula

/-- The formula that is nothing but a setting. -/
def settingText (key : String) : String :=
  settingsQualifier ++ "." ++ key

/-- The token that the formula is. -/
def settingToken (key : String) : Token :=
  ⟨.dottedIdentifier, settingsQualifier.toList ++ '.' :: key.toList, 0⟩

/-- The tree of the formula. -/
def settingTree (key : String) : Derivation .start :=
  .ofAtom (.dotted ⟨settingToken key, rfl⟩)

theorem settingToken_qualifier (key : String) : (settingToken key).qualifier = settingsQualifier := by
  rfl

theorem settingToken_field (key : String) : (settingToken key).field = key :=
  String.ofList_toList

theorem word_settingsQualifier : Word settingsQualifier.toList := by
  have hrest : "ettings".toList.all isNameChar = true := by decide
  exact .mk (by decide) (List.all_eq_true.1 hrest)

variable {registry : Registry} {key : String}

theorem lexes_settingText (hkey : Word key.toList) : Lexes (settingText key).toList (settingTree key).tokens := by
  have htext : (settingText key).toList = settingsQualifier.toList ++ '.' :: key.toList := by
    simp [settingText]
  rw [htext]
  exact .token (by decide) (tokenAt?_dotted word_settingsQualifier hkey) .nil

/-- The formula is parsed to the reference. -/
theorem parse_settingText (hkey : Word key.toList) :
    ∃ e, parse registry (settingText key) = .ok e ∧ e.unplaced = .ref (.setting key 0) := by
  have hphrase : (settingTree key).phrase = .dotted settingsQualifier key 0 := by
    show Phrase.dotted (settingToken key).qualifier (settingToken key).field 0 = _
    rw [settingToken_qualifier, settingToken_field]
  have hcheck : (settingTree key).phrase.check registry = .ok (.ref (.setting key 0)) := by
    have hne : settingsQualifier ≠ previousQualifier := by decide
    rw [hphrase, Phrase.check, if_neg hne, if_pos rfl]
  exact unplacedResult_eq_ok_iff.1 ((parse_of_lexes (lexes_settingText hkey)).trans hcheck)

end Formula

/-! ## Places -/

/-- Where a context puts a formula: its row, and its cell if the formula belongs to a column. -/
def Context.place (c : Context) : Except Failure (Option CellSite) := do
  let site ← c.site
  c.column.mapM (Engine.ownCell site)

theorem Matched.bind_const {α β γ : Type} {R : α → β → Prop} {x : Except Failure α} {y : Except Failure β}
    (h : Matched R x y) (z : Except Failure γ) : (x >>= fun _ => z) = y >>= fun _ => z := by
  cases h <;> rfl

/-- A context puts a formula at corresponding places. -/
theorem Workbook.place_congr {w w' : Workbook} (h : List.Forall₂ Sheet.SameShape w.sheets w'.sheets)
    (sheet row : String) (column : Option String) :
    Matched (Option.Rel (CellTwin w w')) (Context.place ⟨w, sheet, row, column⟩)
      (Context.place ⟨w', sheet, row, column⟩) := by
  refine (site_congr h sheet row column).bind fun site site' hsite => ?_
  cases column with
  | none => exact .found .none
  | some id => exact (hsite.ownCell id).some

namespace Engine

variable {engine : Engine}

/-- An expression whose value does not depend on its place has this value in the cell that it belongs to. -/
theorem valueAt_of_value {w : Workbook} {e : Expr} {o : Except Failure CellValue}
    (hvalue : ∀ site, Scope.value ⟨w, engine.options⟩ engine.registry site e = Eval.ofExcept o) (site : RowSite)
    (column : Option String) (memo : Option Memo) :
    engine.valueAt w (some site) column e (engine.start memo) =
      (column.mapM (ownCell site) >>= fun _ => o, engine.start memo) := by
  cases column with
  | none =>
    rw [valueAt_of_column_none, hvalue, Eval.ofExcept_apply]
    rfl
  | some id =>
    have hplace : (some id).mapM (ownCell site) = some <$> ownCell site id := rfl
    rw [hplace]
    cases hcell : ownCell site id with
    | error f =>
      rw [valueAt_of_ownCell_error hcell]
      rfl
    | ok cell =>
      -- nothing is computed yet, so the guard has room for the cell
      have henter := Guard.enter_first (Int.natCast_pos.2 engine.options.maxDepth_pos) ⟨cell.key, cell.label⟩
      rw [valueAt_of_ownCell hcell, hvalue, Eval.within_ok henter, Eval.ofExcept_apply]
      rfl

/-- **A formula whose value does not depend on its place comes to this value wherever a context puts it.** -/
theorem evaluateWith_of_value {c : Context} {formula : String} {e : Expr} {o : Except Failure CellValue}
    (hread : engine.read formula = .ok e)
    (hvalue : ∀ site, Scope.value ⟨c.workbook, engine.options⟩ engine.registry site e = Eval.ofExcept o)
    (memo : Option Memo) : engine.evaluateWith memo (some c) formula =
      (outcomeOf (c.place >>= fun _ => o >>= engine.checkResult, engine.start memo), memo) := by
  have hsteps : engine.steps (some c) formula (engine.start memo) =
      (c.place >>= fun _ => o >>= engine.checkResult, engine.start memo) := by
    unfold Context.place
    cases hsite : c.site with
    | error f =>
      rw [steps_of_site_error hsite]
      rfl
    | ok site =>
      have hplace : (Except.ok site >>= fun site => c.column.mapM (ownCell site)) = c.column.mapM (ownCell site) := rfl
      rw [steps_of_site hsite, stepsWith_of_read_ok hread (valueAt_of_value hvalue site c.column memo), hplace,
        bind_assoc]
  rw [evaluateWith_eq, hsteps]
  rfl

end Engine

/-! ## The value of a setting -/

/-- A search for the setting ends at the row of the cell, and the cell holds the value of the setting. -/
structure Scope.FindsSetting (scope : Scope) (key : String) (keys : Column) (cell : CellSite) : Prop where
  sheet : scope.workbook.sheetByName? scope.options.settingsSheet = some cell.site.sheet
  keyColumn : cell.site.sheet.settingsColumn scope.options.settingsKeyColumn 0 = .ok keys
  valueColumn : cell.site.sheet.valueColumn scope.options.settingsValueColumn = .ok cell.column
  row : cell.site.sheet.HasSetting keys key cell.site.index

namespace Scope.FindsSetting

variable {scope : Scope} {key : String} {keys : Column} {cell : CellSite}

theorem cellOfSetting (h : scope.FindsSetting key keys cell) (hkey : Word key.toList) :
    scope.cellOfSetting key = .ok cell := by
  simp only [Scope.cellOfSetting, h.sheet, orMissing, h.keyColumn, h.valueColumn,
    Sheet.settingRow_of_hasSetting hkey h.row, bind, Except.bind]

/-- The reference to the setting has the value that stands in the cell, from wherever it is made. -/
theorem value_eq (h : scope.FindsSetting key keys cell) (hkey : Word key.toList) {raw : RawCell}
    (hraw : cell.source = .literal raw) {e : Expr} (he : e.unplaced = .ref (.setting key 0)) (registry : Registry)
    (site : Option RowSite) : scope.value registry site e = Eval.ofExcept (raw.value.mapError .overflow) := by
  have hplaced : e.unplaced = (Expr.ref (.setting key 0)).unplaced := he
  rw [Scope.value_of_unplaced hplaced]
  show scope.read _ site (.setting key 0) = _
  rw [Scope.read, Scope.target, h.cellOfSetting hkey, Eval.ofExcept_ok_bind, Scope.cellValue_literal hraw, Eval.ofRaw]

end Scope.FindsSetting

/-! ## Other key cells -/

/-- The workbooks differ at most in key cells of other rows than that of the setting, and the search goes past what
stands there in the second one. -/
structure Workbook.OtherKeys (w : Workbook) (key : String) (keys : Column) (cell : CellSite) (w' : Workbook) : Prop where
  shape : List.Forall₂ Sheet.SameShape w.sheets w'.sheets
  same : ∀ c, w.Contains c →
    ¬(c.key.sheet = cell.site.sheet.id ∧ c.key.column = keys.id ∧ c.key.row ≠ cell.site.row.id) →
      w.content? c.key = w'.content? c.key
  passed : ∀ j < cell.site.index, ∀ raw,
    w'.content? ⟨cell.site.sheet.id, cell.site.sheet.rows[j].id, keys.id⟩ = some raw → raw.PassedBy key

/-- The setting is found in both workbooks, and its cells are computed from the same. -/
theorem Workbook.OtherKeys.finds {key : String} {keys : Column} {cell : CellSite} {w w' : Workbook} {options : Options}
    (h : w.OtherKeys key keys cell w') (hfinds : Scope.FindsSetting ⟨w, options⟩ key keys cell) :
    ∃ cell', Scope.FindsSetting ⟨w', options⟩ key keys cell' ∧ cell.source = cell'.source := by
  obtain ⟨⟨s, i⟩, values⟩ := cell
  obtain ⟨t, ht, hs, ht', hst⟩ := exists_sheetByName? h.shape hfinds.sheet
  let j : t.Index := ⟨i.val, hst.length ▸ i.isLt⟩
  have hsite : RowTwin w w' ⟨s, i⟩ ⟨t, j⟩ := ⟨hs, ht', hst, rfl⟩
  have hkeys : CellTwin w w' ⟨⟨s, i⟩, keys⟩ ⟨⟨t, j⟩, keys⟩ :=
    ⟨hsite, rfl, Sheet.mem_of_settingsColumn hfinds.keyColumn⟩
  have hvalues : CellTwin w w' ⟨⟨s, i⟩, values⟩ ⟨⟨t, j⟩, values⟩ :=
    ⟨hsite, rfl, Sheet.mem_of_valueColumn hfinds.valueColumn⟩
  refine ⟨⟨⟨t, j⟩, values⟩, ⟨ht, ?_, ?_, ?_, ?_⟩, ?_⟩
  · exact hst.settingsColumn _ _ ▸ hfinds.keyColumn
  · exact hst.valueColumn _ ▸ hfinds.valueColumn
  · -- the key cell of the setting is none of the others
    exact hkeys.cell_eq (h.same _ hkeys.contains fun hother => hother.2.2 rfl) ▸ hfinds.row.names
  · intro k hk
    let k' : s.Index := ⟨k.val, hst.length.symm ▸ k.isLt⟩
    have hother : CellTwin w w' ⟨⟨s, k'⟩, keys⟩ ⟨⟨t, k⟩, keys⟩ := ⟨⟨hs, ht', hst, rfl⟩, rfl, hkeys.mem⟩
    exact h.passed k' hk _ ((congrArg w'.content? hother.key_eq).trans (Workbook.content?_key hother.site.mem'))
  · exact hvalues.source_eq (h.same _ hvalues.contains fun hother => hother.2.2 rfl)

namespace Engine

variable {engine : Engine} {w : Workbook} {key : String} {keys : Column} {cell : CellSite} {raw : RawCell}

/-- No warning is there before a step was taken, with whatever memo. -/
theorem outcomeOf_start (o : Except Failure CellValue) (memo memo' : Option Memo) :
    outcomeOf (o, engine.start memo) = outcomeOf (o, engine.start memo') := by
  cases o <;> rfl

/-- The formula comes to the value that stands in the cell of the setting, or fails as its context does. -/
theorem evaluateWith_settingText (hkey : Word key.toList)
    (hfinds : Scope.FindsSetting ⟨w, engine.options⟩ key keys cell) (hraw : cell.source = .literal raw)
    (memo : Option Memo) (sheet row : String) (column : Option String) :
    engine.evaluateWith memo (some ⟨w, sheet, row, column⟩) (settingText key) =
      (outcomeOf (Context.place ⟨w, sheet, row, column⟩ >>= fun _ =>
        raw.value.mapError .overflow >>= engine.checkResult, engine.start memo), memo) := by
  obtain ⟨e, hparse, he⟩ := parse_settingText hkey
  have htext : e.isText = false := by
    rw [← e.isText_unplaced, he]
    rfl
  obtain ⟨e', hread, he'⟩ := read_of_parse hparse htext
  exact evaluateWith_of_value hread (hfinds.value_eq hkey hraw (he'.trans he) engine.registry) memo

/-- **A setting has the value of the first row whose key cell names it, and what stands in the other key cells is of no
account.** At every place the formula comes to the data of the value cell, checked as a result; and in a workbook that
holds anything else in the other key cells, as long as none before the row names the setting and the integers among them
are in the range of floats, it has the same outcome at every place, also for a context that leads nowhere. -/
theorem evaluateWith_setting (hkey : Word key.toList)
    (hfinds : Scope.FindsSetting ⟨w, engine.options⟩ key keys cell) (hraw : cell.source = .literal raw) :
    (∀ memo sheet row column place, Context.place ⟨w, sheet, row, column⟩ = .ok place →
      engine.evaluateWith memo (some ⟨w, sheet, row, column⟩) (settingText key) =
        (outcomeOf (raw.value.mapError .overflow >>= engine.checkResult, engine.start memo), memo)) ∧
    ∀ w', w.OtherKeys key keys cell w' → ∀ memo memo' sheet row column,
      (engine.evaluateWith memo' (some ⟨w', sheet, row, column⟩) (settingText key)).1 =
        (engine.evaluateWith memo (some ⟨w, sheet, row, column⟩) (settingText key)).1 := by
  refine ⟨fun memo sheet row column place hplace => ?_, fun w' hother memo memo' sheet row column => ?_⟩
  · rw [evaluateWith_settingText hkey hfinds hraw, hplace]
    rfl
  · obtain ⟨cell', hfinds', hsource⟩ := hother.finds hfinds
    rw [evaluateWith_settingText hkey hfinds hraw, evaluateWith_settingText hkey hfinds' (hsource ▸ hraw),
      (Workbook.place_congr hother.shape sheet row column).bind_const]
    exact outcomeOf_start _ memo' memo

end Engine

/-! ## Two settings -/

section Bonus

/-- The column of keys. -/
def bonusKeys : Column := ⟨"key", "Key", .general, none⟩

/-- The column of values. -/
def bonusValues : Column := ⟨"value", "Value", .general, none⟩

/-- A settings sheet with some data in the first key cell and a text in the second one. -/
def bonusSheet (first : RawCell) (key : String) : Sheet where
  id := "settings"
  name := "Settings"
  columns := [bonusKeys, bonusValues]
  rows := [⟨"one", [("key", first), ("value", .text "low")]⟩, ⟨"two", [("key", .text key), ("value", .text "high")]⟩]
  columnNames_nodup := by decide
  columnIds_nodup := by decide
  rowIds_nodup := by simp

/-- The workbook of the settings. -/
def bonusBook (first : RawCell) (key : String) : Workbook := ⟨[bonusSheet first key], by simp, by simp⟩

/-- The cell of the second value. -/
def bonusCell (first : RawCell) (key : String) : CellSite :=
  ⟨⟨bonusSheet first key, ⟨1, Nat.one_lt_two⟩⟩, bonusValues⟩

theorem bonus_finds {first : RawCell} {key : String} (h : first.PassedBy key) :
    Scope.FindsSetting ⟨bonusBook first key, .standard⟩ key bonusKeys (bonusCell first key) where
  sheet := rfl
  keyColumn := rfl
  valueColumn := by
    have hfind : [bonusKeys, bonusValues].find? Sheet.isValueColumn = some bonusValues := by decide +kernel
    show (bonusSheet first key).valueColumn none = .ok bonusValues
    simp only [Sheet.valueColumn, bonusSheet, hfind]
  row := ⟨rfl, fun j hj => by
    obtain rfl : j = ⟨0, Nat.two_pos⟩ := Fin.ext (Nat.lt_one_iff.1 hj)
    exact h⟩

theorem bonus_otherKeys {first first' : RawCell} {key : String} (h : first'.PassedBy key) :
    (bonusBook first key).OtherKeys key bonusKeys (bonusCell first key) (bonusBook first' key) where
  shape := .cons ⟨rfl, rfl, rfl, rfl⟩ .nil
  same c hc hother := by
    obtain ⟨⟨sheet, index⟩, column⟩ := c
    obtain ⟨hsheet, hcolumn⟩ := hc
    obtain rfl : sheet = bonusSheet first key := List.mem_singleton.1 hsheet
    have hcolumns : column = bonusKeys ∨ column = bonusValues := by simpa [bonusSheet] using hcolumn
    have hindex : index = ⟨0, Nat.two_pos⟩ ∨ index = ⟨1, Nat.one_lt_two⟩ := by
      have hlt : index.val < 2 := index.isLt
      rcases Nat.le_one_iff_eq_zero_or_eq_one.1 (Nat.le_of_lt_succ hlt) with hzero | hone
      · exact .inl (Fin.ext hzero)
      · exact .inr (Fin.ext hone)
    rcases hcolumns with rfl | rfl
    · rcases hindex with rfl | rfl
      · exact absurd ⟨rfl, rfl, (by decide : "one" ≠ "two")⟩ hother
      · rfl
    · rcases hindex with rfl | rfl <;> rfl
  passed j hj raw hraw := by
    obtain rfl : j = ⟨0, Nat.two_pos⟩ := Fin.ext (Nat.lt_one_iff.1 hj)
    obtain rfl : first' = raw := Option.some.inj hraw
    exact h

/-- A setting in the second row is the same whatever key stands in the first one. -/
theorem evaluateWith_setting_bonus :
    (Engine.evaluateWith {} none (some ⟨bonusBook .null "Bonus", "settings", "one", none⟩) "Settings.Bonus").1 =
        .success (.text "high") [] ∧
      (Engine.evaluateWith {} none (some ⟨bonusBook (.bool true) "Bonus", "settings", "one", none⟩)
        "Settings.Bonus").1 = .success (.text "high") [] := by
  have hrest : "onus".toList.all isNameChar = true := by decide
  have hkey : Word "Bonus".toList := .mk (by decide) (List.all_eq_true.1 hrest)
  have hnull : RawCell.null.PassedBy "Bonus" := ⟨id, nofun⟩
  have hbool : (RawCell.bool true).PassedBy "Bonus" := ⟨id, nofun⟩
  have hraw : (bonusCell .null "Bonus").source = .literal (.text "high") := rfl
  obtain ⟨hvalue, hsame⟩ := @Engine.evaluateWith_setting {} _ _ _ _ _ hkey (bonus_finds hnull) hraw
  have hhigh := hvalue none "settings" "one" none none rfl
  refine ⟨congrArg Prod.fst hhigh, ?_⟩
  exact (hsame _ (bonus_otherKeys hbool) none none "settings" "one" none).trans (congrArg Prod.fst hhigh)

/-- A number that is no number is displayed as a name: in the first key cell it names the setting `NaN`. -/
theorem evaluate_setting_nan :
    Engine.evaluate {} (some ⟨bonusBook .null "NaN", "settings", "one", none⟩) "Settings.NaN" =
        .success (.text "high") [] ∧
      Engine.evaluate {} (some ⟨bonusBook (.float (0.0 / 0.0)) "NaN", "settings", "one", none⟩) "Settings.NaN" =
        .success (.text "low") [] := by
  decide +kernel

end Bonus

end GameSheet
