import CellCheck.Main
import CellCheck.Proofs.Analysis.Independence
import CellCheck.Proofs.Analysis.Insertion
import CellCheck.Proofs.Analysis.Redeclaration
import CellCheck.Proofs.Cell.Grammar
import CellCheck.Proofs.Command.Outcome
import CellCheck.Proofs.Literal.Rejection
import CellCheck.Proofs.Literal.Splitting
import CellCheck.Proofs.Program.Concatenation
import CellCheck.Proofs.Program.Layout
import CellCheck.Proofs.Program.WellFormed
import CellCheck.Proofs.Report.Anchor
import CellCheck.Proofs.Report.Chronology
import CellCheck.Proofs.Report.Sharing
import CellCheck.Proofs.Statement.Declaration
import CellCheck.Proofs.Statement.Operation
import CellCheck.Proofs.Text.Numeral
import CellCheck.Proofs.Text.Pieces
import CellCheck.Proofs.Value.Forms
import CellCheck.Proofs.Value.ReadBack
import CellCheck.Text.Quoted
