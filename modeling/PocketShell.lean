import PocketShell.Main
import PocketShell.Output
import PocketShell.Session.Dispatch
import PocketShell.Terminal.Run
import PocketShell.Text.Grapheme.Class
import PocketShell.Text.Grapheme.Cluster
import PocketShell.Proofs.Tree.WellFormed
import PocketShell.Proofs.Tree.Removal
import PocketShell.Proofs.Text.Pieces
import PocketShell.Proofs.Environment
import PocketShell.Proofs.Path
import PocketShell.Proofs.Tree.Steps
import PocketShell.Proofs.Tree.Failure
import PocketShell.Proofs.Tree.Run
import PocketShell.Proofs.Tree.Address
import PocketShell.Proofs.Tree.Directories
import PocketShell.Proofs.Tree.Moving
import PocketShell.Proofs.Tree.View
import PocketShell.Proofs.Tree.Commuting
import PocketShell.Proofs.Tree.Listing
import PocketShell.Proofs.Tree.Building
import PocketShell.Proofs.Tree.Standard
import PocketShell.Proofs.Session.Expansion
import PocketShell.Proofs.Session.Builtins
import PocketShell.Proofs.Session.Execution
import PocketShell.Proofs.Session.Invoke
import PocketShell.Proofs.Token.CommandWord
import PocketShell.Proofs.Session.Cycles
import PocketShell.Proofs.Session.Passes
import PocketShell.Proofs.Session.Nesting
import PocketShell.Proofs.Token.Joined
import PocketShell.Proofs.Pair
import PocketShell.Proofs.Token.QuotedWord
import PocketShell.Proofs.Token.RoundTrip
import PocketShell.Proofs.Token.Reuse
import PocketShell.Proofs.Session.Scripts
import PocketShell.Proofs.Session.Registering
import PocketShell.Proofs.Session.Protected
import PocketShell.Proofs.History
import PocketShell.Proofs.Decimal.Nearest
import PocketShell.Proofs.Decimal.Binary64
import PocketShell.Proofs.Decimal.Numeral
import PocketShell.Proofs.Decimal.Rounding
import PocketShell.Proofs.Session.Limit
import PocketShell.Proofs.Session.Recording
import PocketShell.Proofs.Terminal.Persistence
import PocketShell.Proofs.Session.Definition
import PocketShell.Proofs.Session.WorkingDirectory
import PocketShell.Proofs.Tree.Making
import PocketShell.Proofs.Tree.Numbers
import PocketShell.Proofs.Token.Labels
import PocketShell.Proofs.Token.Delimiters
import PocketShell.Proofs.Pair.Groups
import PocketShell.Proofs.Tree.Creating
import PocketShell.Proofs.Token.Limits
import PocketShell.Proofs.Pair.Accounting
import PocketShell.Proofs.Token.SpelledWord
import PocketShell.Proofs.Path.Quoted
import PocketShell.Proofs.Session.SpelledPath
import PocketShell.Proofs.Session.Home
import PocketShell.Proofs.Environment.References
import PocketShell.Proofs.Text.Table
import PocketShell.Proofs.Session.LiteralPath
