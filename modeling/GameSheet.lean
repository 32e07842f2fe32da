import GameSheet.Main
import GameSheet.Proofs.Evaluation.Dependence
import GameSheet.Proofs.Evaluation.Outcome
import GameSheet.Proofs.Formula.Acceptance
import GameSheet.Proofs.Recalculation.Depth
import GameSheet.Proofs.Recalculation.Memo
import GameSheet.Proofs.Evaluation.Cycles
import GameSheet.Proofs.Evaluation.Surroundings
import GameSheet.Proofs.Recalculation.Session
import GameSheet.Proofs.Formula.Positions
import GameSheet.Proofs.Formula.Spacing
import GameSheet.Proofs.Formula.Calls
import GameSheet.Proofs.Formula.Locating
import GameSheet.Proofs.Formula.Layout
import GameSheet.Proofs.Evaluation.Rescue
import GameSheet.Proofs.Evaluation.Deepening
import GameSheet.Proofs.Evaluation.Chains
import GameSheet.Proofs.Evaluation.Terminal
import GameSheet.Proofs.Recalculation.Plain
import GameSheet.Proofs.Recalculation.Reference
import GameSheet.Proofs.Evaluation.Trail
import GameSheet.Proofs.Evaluation.Unhidden
import GameSheet.Proofs.Evaluation.Guarding
import GameSheet.Proofs.Evaluation.Writes
import GameSheet.Proofs.Evaluation.Observed
import GameSheet.Proofs.Workbook.Loaded
import GameSheet.Proofs.Recalculation.WriteOnce
import GameSheet.Proofs.Recalculation.Unbroken
import GameSheet.Proofs.Decimal.Written
import GameSheet.Proofs.Recalculation.Views
import GameSheet.Proofs.Recalculation.Exchange
import GameSheet.Proofs.Journal.Writing
import GameSheet.Proofs.Recalculation.Reports
import GameSheet.Proofs.Data.Json
import GameSheet.Proofs.Text.Ascii
import GameSheet.Proofs.Recalculation.Found
import GameSheet.Proofs.Journal.Rotation
import GameSheet.Proofs.Journal.Tails
import GameSheet.Proofs.Evaluation.Presentation
import GameSheet.Proofs.Recalculation.Accepted
import GameSheet.Proofs.Workbook.Inline
import GameSheet.Proofs.Workbook.Derived
import GameSheet.Proofs.Workbook.Combined
import GameSheet.Proofs.Journal.Queries
import GameSheet.Proofs.Workbook.Selected
import GameSheet.Proofs.Journal.Clipped
import GameSheet.Proofs.Text.LineFeed
import GameSheet.Proofs.Journal.Damaged
import GameSheet.Proofs.Decimal.Integers
import GameSheet.Proofs.Evaluation.Settings
import GameSheet.Proofs.Function.Registries
import GameSheet.Proofs.Evaluation.Replaced
import GameSheet.Proofs.Options.Heeded
import GameSheet.Proofs.Formula.Literals
import GameSheet.Proofs.Formula.Numbers
import GameSheet.Proofs.Decimal.Packed
import GameSheet.Proofs.Decimal.Rounding
import GameSheet.Proofs.Decimal.Nearest
import GameSheet.Proofs.Decimal.Shortest
import GameSheet.Proofs.Data.Grammar
import GameSheet.Proofs.Data.Characters
import GameSheet.Proofs.CommandLine.Printed
