import GameSheet.Proofs.Evaluation.Composition
import GameSheet.Proofs.Workbook.Reordered

/-!
# The order of sheets and columns

**`Engine.evaluate_reordered`**: the order of the sheets, and in each sheet but the settings sheet the order of the
columns, is of no account to a formula. Its outcome is the same to the last warning, to the words of a failure and to
the path of a cycle.

As in `Evaluation/Dependence.lean` both runs are one function of the state of the evaluation: a reference leads to the
same cell (`Workbook.Reordered.target`), and that has the same key, label and source. So the outcomes agree with any
memo too (`Engine.evaluateWith_reordered`).
-/

namespace GameSheet

open Formula

/-! ## Cells -/

namespace Scope

variable {options : Options} {registry : Registry} {w w' : Workbook}

/-- The value of a cell is the same if that of a body is the same in the same row. -/
theorem cellValue_moved {settings : String} {evaluate evaluate' : Evaluator} {c c' : CellSite}
    (hc : CellMoved settings c c')
    (h : ∀ body site site', RowMoved settings site site' → evaluate body site = evaluate' body site') :
    cellValue evaluate c = cellValue evaluate' c' :=
  cellValue_eq hc.key_eq hc.label_eq hc.source_eq fun body _ => h body _ _ hc.site

/-- A reference is read as the same value if a body has the same value in the same row. -/
theorem read_moved (hw : w.Reordered options.settingsSheet w') {evaluate evaluate' : Evaluator}
    (h : ∀ body site site', RowMoved options.settingsSheet site site' → evaluate body site = evaluate' body site')
    {site site' : Option RowSite} (hsite : Option.Rel (RowMoved options.settingsSheet) site site') :
    Scope.read ⟨w, options⟩ evaluate site = Scope.read ⟨w', options⟩ evaluate' site' :=
  funext fun r => (hw.target hsite r).bind_congr fun _ _ _ hc => cellValue_moved hc h

/-- The body of a cell has the same value, with any number of levels. -/
theorem chained_moved (hw : w.Reordered options.settingsSheet w') (room : Nat) : ∀ body site site',
    RowMoved options.settingsSheet site site' →
      Scope.chained ⟨w, options⟩ registry room body site = Scope.chained ⟨w', options⟩ registry room body site' := by
  induction room with
  | zero => exact fun _ _ _ _ => rfl
  | succ room ih =>
    intro body site site' hmoved
    rw [chained, chained, read_moved hw ih (.some hmoved)]

/-- An expression has the same value in the same row. -/
theorem value_moved (hw : w.Reordered options.settingsSheet w') {site site' : Option RowSite}
    (hsite : Option.Rel (RowMoved options.settingsSheet) site site') (e : Expr) :
    Scope.value ⟨w, options⟩ registry site e = Scope.value ⟨w', options⟩ registry site' e := by
  rw [value, value, read_moved hw (chained_moved hw _) hsite]

end Scope

/-! ## Formulas -/

/-- The place of the context in another workbook. -/
def Context.inWorkbook (c : Context) (w : Workbook) : Context :=
  { c with workbook := w }

namespace Engine

variable {w w' : Workbook}

/-- The same value also inside the cell of a column that the formula belongs to. -/
theorem valueAt_moved (engine : Engine) (hw : w.Reordered engine.options.settingsSheet w')
    {site site' : Option RowSite} (hsite : Option.Rel (RowMoved engine.options.settingsSheet) site site')
    (column : Option String) (e : Expr) : engine.valueAt w site column e = engine.valueAt w' site' column e := by
  have hvalue : Scope.value ⟨w, engine.options⟩ engine.registry site e = _ := Scope.value_moved hw hsite e
  cases hsite with
  | none => exact hvalue
  | some hmoved =>
    cases column with
    | none => exact hvalue
    | some id =>
      refine (hmoved.ownCell id).bind_congr fun c c' _ hc => ?_
      rw [hc.key_eq, hc.label_eq, hvalue]

/-- The steps of an evaluation are the same function of the state in which it starts. -/
theorem steps_reordered (engine : Engine) (hw : w.Reordered engine.options.settingsSheet w')
    (context : Option Context) (formula : String) :
    engine.steps (context.map (·.inWorkbook w)) formula = engine.steps (context.map (·.inWorkbook w')) formula := by
  cases context with
  | none => rfl
  | some c =>
    refine (hw.site c.sheet c.row c.column).some.bind_congr fun site site' _ hsite => ?_
    have hvalue := funext (engine.valueAt_moved hw hsite c.column)
    simp only [Option.map_some, Option.elim_some, Option.bind_some, Context.inWorkbook, hvalue]

/-- With any memo the order of sheets and columns is of no account to the outcome and to what is kept of it. -/
theorem evaluateWith_reordered (engine : Engine) (hw : w.Reordered engine.options.settingsSheet w')
    (memo : Option Memo) (context : Option Context) (formula : String) :
    engine.evaluateWith memo (context.map (·.inWorkbook w)) formula =
      engine.evaluateWith memo (context.map (·.inWorkbook w')) formula := by
  simp only [evaluateWith, engine.steps_reordered hw]

/-- **The order of sheets and columns is of no account**: in a workbook and in the workbook with its sheets in another
order, and with the columns of all sheets but the settings sheet in another order, a formula has the same outcome. -/
theorem evaluate_reordered (engine : Engine) {w w' : Workbook} (hw : w.Reordered engine.options.settingsSheet w')
    (context : Option Context) (formula : String) :
    engine.evaluate (context.map (·.inWorkbook w)) formula =
      engine.evaluate (context.map (·.inWorkbook w')) formula :=
  congrArg Prod.fst (engine.evaluateWith_reordered hw none context formula)

end Engine

/-! ## A ledger with rates -/

section Ledger

/-- A settings sheet. -/
def ratesSheet : Sheet where
  id := "rates"
  name := "Settings"
  columns := [⟨"key", "Key", .general, none⟩, ⟨"value", "Value", .general, none⟩]
  rows := [⟨"rate", [("key", .text "Rate"), ("value", .text "=1+1")]⟩]
  columnNames_nodup := by decide
  columnIds_nodup := by decide
  rowIds_nodup := List.nodup_singleton "rate"

/-- The ledger with its columns from right to left. -/
def turnedSheet : Sheet where
  id := "books"
  name := "Books"
  columns := ledgerColumns.reverse
  rows := (ledgerSheet "paid").rows
  columnNames_nodup := by decide
  columnIds_nodup := by decide
  rowIds_nodup := (ledgerSheet "paid").rowIds_nodup

/-- A ledger and its settings. -/
def ratedBooks : Workbook := ⟨[ledgerSheet "paid", ratesSheet], by decide, by decide⟩

/-- The settings and the ledger with its columns from right to left. -/
def turnedBooks : Workbook := ⟨[ratesSheet, turnedSheet], by decide, by decide⟩

theorem ratedBooks_reordered : ratedBooks.Reordered "Settings" turnedBooks := by
  have hledger : (ledgerSheet "paid").Reordered "Settings" turnedSheet :=
    ⟨rfl, rfl, rfl, (List.reverse_perm _).symm, fun hname => absurd hname (by decide)⟩
  have hrates : ratesSheet.Reordered "Settings" ratesSheet := ⟨rfl, rfl, rfl, .refl _, fun _ => rfl⟩
  exact ⟨[turnedSheet, ratesSheet], .cons hledger (.cons hrates .nil), .swap _ _ _⟩

/-- A total and a setting in both orders. -/
theorem evaluate_reordered_books : ratedBooks.Reordered Options.standard.settingsSheet turnedBooks ∧
    Engine.evaluate {} (some ⟨ratedBooks, "books", "first", none⟩) "IF(Settings.Rate > 1, Total, Net)" =
      Engine.evaluate {} (some ⟨turnedBooks, "books", "first", none⟩) "IF(Settings.Rate > 1, Total, Net)" :=
  ⟨ratedBooks_reordered, Engine.evaluate_reordered {} ratedBooks_reordered
    (some ⟨ratedBooks, "books", "first", none⟩) "IF(Settings.Rate > 1, Total, Net)"⟩

end Ledger

end GameSheet
