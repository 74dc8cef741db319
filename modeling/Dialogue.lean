import Dialogue.Main
import Dialogue.Proofs.Conduct.Brackets
import Dialogue.Proofs.Conduct.Menus
import Dialogue.Proofs.Meaning.Execution
import Dialogue.Proofs.Script.Bounds
import Dialogue.Proofs.Term.Printing
import Dialogue.Proofs.Machine.Pausing
import Dialogue.Proofs.Script.Order
import Dialogue.Proofs.Term.Balance
import Dialogue.Proofs.Term.Tiling
import Dialogue.Proofs.Script.Acceptance
import Dialogue.Proofs.Machine.Transitions
import Dialogue.Proofs.Code.Writing
import Dialogue.Proofs.Program.Exported
import Dialogue.Proofs.Code.Appending
import Dialogue.Proofs.Meaning.Paragraph
import Dialogue.Proofs.Meaning.Calls
import Dialogue.Proofs.Conduct.Advancing
import Dialogue.Proofs.Script.Continuing
import Dialogue.Proofs.Machine.Operands
import Dialogue.Proofs.Source.Excerpts
import Dialogue.Proofs.Script.Snippets
import Dialogue.Proofs.Script.Apart
import Dialogue.Proofs.Script.Titles
import Dialogue.Proofs.Source.Positions
import Dialogue.Proofs.Program.Rebuilding
import Dialogue.Proofs.Terminal.Scanning
import Dialogue.Proofs.Terminal.Playing
