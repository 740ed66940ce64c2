import ParallelShell.FileTree.Build
import ParallelShell.FileTree.Changes
import ParallelShell.Main
import ParallelShell.Proofs.Completion.Exact
import ParallelShell.Proofs.Completion.Names
import ParallelShell.Proofs.Completion.Offers
import ParallelShell.Proofs.Completion.Word
import ParallelShell.Proofs.FileTree.Entry
import ParallelShell.Proofs.FileTree.Put
import ParallelShell.Proofs.FileTree.Rooted
import ParallelShell.Proofs.Input.Lines
import ParallelShell.Proofs.Input.Reading
import ParallelShell.Proofs.Input.Typed
import ParallelShell.Proofs.Line.Decomposition
import ParallelShell.Proofs.Line.Grammar
import ParallelShell.Proofs.Line.Joined
import ParallelShell.Proofs.Line.Lookahead
import ParallelShell.Proofs.Line.Malformed
import ParallelShell.Proofs.Line.Octets
import ParallelShell.Proofs.Line.Position
import ParallelShell.Proofs.Line.Segments
import ParallelShell.Proofs.Line.Written
import ParallelShell.Proofs.Output.Notices
import ParallelShell.Proofs.Output.Performance
import ParallelShell.Proofs.Output.Redirection
import ParallelShell.Proofs.Program.Load
import ParallelShell.Proofs.Program.Refusal
import ParallelShell.Proofs.Program.Scripts
import ParallelShell.Proofs.SearchPath.Listing
import ParallelShell.Proofs.Session.Account
import ParallelShell.Proofs.Session.Avoidance
import ParallelShell.Proofs.Session.Fold
import ParallelShell.Proofs.Session.FrontEnds
import ParallelShell.Proofs.Session.Input
import ParallelShell.Proofs.Session.Prompts
import ParallelShell.Proofs.Session.Sources
import ParallelShell.Proofs.Session.Twins
import ParallelShell.Proofs.Shell.Barrier
import ParallelShell.Proofs.Shell.Content
import ParallelShell.Proofs.Shell.EmptyPath
import ParallelShell.Proofs.Shell.Endings
import ParallelShell.Proofs.Shell.Exhaustion
import ParallelShell.Proofs.Shell.Failures
import ParallelShell.Proofs.Shell.Frame
import ParallelShell.Proofs.Shell.InTurn
import ParallelShell.Proofs.Shell.Isolation
import ParallelShell.Proofs.Shell.Meaning
import ParallelShell.Proofs.Shell.Mirror
import ParallelShell.Proofs.Shell.Omission
import ParallelShell.Proofs.Shell.Origin
import ParallelShell.Proofs.Shell.Play
import ParallelShell.Proofs.Shell.Rejection
import ParallelShell.Proofs.Shell.Resemblance
import ParallelShell.Proofs.Shell.Stops
import ParallelShell.Proofs.Shell.Targets
import ParallelShell.Proofs.Shell.Turns
import ParallelShell.Proofs.Text.Decode
import ParallelShell.Proofs.Text.Encode
import ParallelShell.Proofs.Text.Lossy
