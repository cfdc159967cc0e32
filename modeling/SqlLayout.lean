import SqlLayout.Command.Session
import SqlLayout.Format
import SqlLayout.Main
import SqlLayout.Proofs.Builder.Migration
import SqlLayout.Proofs.Closing
import SqlLayout.Proofs.Command.InPlace
import SqlLayout.Proofs.Command.Selection
import SqlLayout.Proofs.Formatting
import SqlLayout.Proofs.Grammar.Batches
import SqlLayout.Proofs.Grammar.Branching
import SqlLayout.Proofs.Grammar.Order
import SqlLayout.Proofs.Layout.Columns
import SqlLayout.Proofs.Layout.Coverage
import SqlLayout.Proofs.Layout.Levels
import SqlLayout.Proofs.Layout.Width
import SqlLayout.Proofs.Likeness.Spacing
import SqlLayout.Proofs.Preservation
import SqlLayout.Proofs.Token.Respelling
import SqlLayout.Proofs.Token.Spans
