/-!
# Options of the engine

What shapes the evaluation of formulas beside the workbook and the functions.
-/

namespace GameSheet

/-- The options of the engine. -/
structure Options where
  /-- How many formula cells may wait for each other. -/
  maxDepth : Nat := 64
  /-- Whether an infinite result is a value and no error. -/
  allowInfinity : Bool := false
  /-- The name of the settings sheet. -/
  settingsSheet : String := "Settings"
  /-- The column of the settings sheet that holds the keys; the first one if not given. -/
  settingsKeyColumn : Option String := none
  /-- The column of the settings sheet that holds the values; if not given, the one called `Value` in any case of
  letters, or else the second one. -/
  settingsValueColumn : Option String := none
  /-- The directory of the event log, if events are logged. -/
  logDirectory : Option String := none
  maxDepth_pos : 1 ≤ maxDepth := by exact Nat.le_of_ble_eq_true rfl

/-- The options that hold unless others are given. -/
def Options.standard : Options := {}

instance : Inhabited Options := ⟨Options.standard⟩

end GameSheet
