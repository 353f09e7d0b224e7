import Descent.Main
import Descent.Session
import Descent.Proofs.Grammar.Entries
import Descent.Proofs.Json.Documents
import Descent.Proofs.Parser.Forward
import Descent.Proofs.Json.Places
import Descent.Proofs.Json.Standard
import Descent.Proofs.Json.Refusals
import Descent.Proofs.Json.Nesting
import Descent.Proofs.Grammar.Limits
import Descent.Proofs.Grammar.Divergence
import Descent.Proofs.Grammar.LeftRecursion
import Descent.Proofs.Session.Building
import Descent.Proofs.Session.History
import Descent.Proofs.Grammar.Activations
import Descent.Proofs.Grammar.Causes
import Descent.Proofs.Grammar.Containers
import Descent.Proofs.Trace.Nesting
import Descent.Proofs.Json.Options
import Descent.Proofs.Json.Reports
import Descent.Proofs.Parser.Loop
import Descent.Proofs.Grammar.Repetitions
import Descent.Proofs.Grammar.Laws
import Descent.Proofs.Parser.Agreement
import Descent.Proofs.Json.Alternatives
import Descent.Proofs.Grammar.OnText
import Descent.Proofs.Json.Depth
import Descent.Proofs.Json.Malformed
import Descent.Proofs.Json.IntegerLiteral
import Descent.Proofs.Text.Utf16
