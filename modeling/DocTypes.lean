import DocTypes.Text
import DocTypes.Scan
import DocTypes.Reading
import DocTypes.Inquiry
import DocTypes.Settings
import DocTypes.Value.Views
import DocTypes.Path
import DocTypes.Table
import DocTypes.Registry.Core
import DocTypes.Registry.Model
import DocTypes.Checker
import DocTypes.Proofs.Lexeme
import DocTypes.Proofs.Scan
import DocTypes.Proofs.Grammar
import DocTypes.Proofs.Modes
import DocTypes.Proofs.WellFormed
import DocTypes.Proofs.RoundTrip
import DocTypes.Proofs.Alike
import DocTypes.Proofs.Repair
import DocTypes.Proofs.Cells
import DocTypes.Proofs.Evaluation
import DocTypes.Proofs.Memo
import DocTypes.Proofs.Satisfaction
import DocTypes.Proofs.History
import DocTypes.Proofs.Blame
import DocTypes.Proofs.Extension
import DocTypes.Proofs.Reachability
import DocTypes.Proofs.Building
import DocTypes.Proofs.WellBound
import DocTypes.Proofs.Scopes
import DocTypes.Proofs.Dangling
import DocTypes.Proofs.Agreement
import DocTypes.Proofs.Interchange
import DocTypes.Proofs.Growth
import DocTypes.Proofs.Precedence
import DocTypes.Proofs.Significance
import DocTypes.Proofs.Completion
import DocTypes.Proofs.Positions
import DocTypes.Proofs.Juxtaposition
import DocTypes.Proofs.Bracketed
import DocTypes.Proofs.Replacement
import DocTypes.Proofs.Independence
import DocTypes.Proofs.Nesting
import DocTypes.Proofs.LastBinder
import DocTypes.Proofs.Views
import DocTypes.Proofs.Capabilities
import DocTypes.Proofs.Distinct
import DocTypes.Proofs.Tiling
