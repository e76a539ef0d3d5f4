import SqlConsole.Files.Tree
import SqlConsole.Main
import SqlConsole.Proofs.Session.Batches
import SqlConsole.Proofs.Session.Fold
import SqlConsole.Proofs.Catalog.Namespace
import SqlConsole.Proofs.Gateway.Jobs
import SqlConsole.Proofs.Gateway.Modify
import SqlConsole.Proofs.Token.LineEnds
import SqlConsole.Proofs.Script.Complete
import SqlConsole.Proofs.Session.Scripts
import SqlConsole.Proofs.Token.Places
import SqlConsole.Proofs.Statement.Insert
import SqlConsole.Proofs.Statement.Block
import SqlConsole.Proofs.Session.LineByLine
import SqlConsole.Proofs.Session.BatchForms
import SqlConsole.Proofs.Token.Lossless
import SqlConsole.Proofs.Console.Growth
import SqlConsole.Proofs.Gateway.Replies
import SqlConsole.Proofs.Session.Confinement
import SqlConsole.Proofs.Session.Word
import SqlConsole.Proofs.Gateway.Settled
import SqlConsole.Proofs.Session.Listing
import SqlConsole.Proofs.Catalog.Housing
import SqlConsole.Proofs.Gateway.Effective
import SqlConsole.Proofs.Session.Refusal
import SqlConsole.Proofs.Statement.Layout
import SqlConsole.Proofs.Script.Partition
import SqlConsole.Proofs.Statement.Canonical
import SqlConsole.Proofs.Gateway.Lifecycle
import SqlConsole.Proofs.Statement.Faults
import SqlConsole.Proofs.Statement.Pointing
import SqlConsole.Proofs.Script.Single
import SqlConsole.Proofs.Gateway.Recognition
import SqlConsole.Proofs.Catalog.Quoted
import SqlConsole.Proofs.Statement.Names
import SqlConsole.Proofs.Gateway.Naming
import SqlConsole.Proofs.Gateway.OneName
import SqlConsole.Proofs.Catalog.Isolation
import SqlConsole.Proofs.Gateway.Repetition
import SqlConsole.Proofs.Gateway.InPlace
import SqlConsole.Proofs.Catalog.Reordering
import SqlConsole.Proofs.Query.RoundTrip
import SqlConsole.Proofs.Query.Rectangle
import SqlConsole.Proofs.Changelog.Survivors
import SqlConsole.Proofs.Tableau.Alignment
import SqlConsole.Proofs.Tableau.Widths
import SqlConsole.Proofs.Console.Closing
import SqlConsole.Proofs.Session.Steps
import SqlConsole.Proofs.Console.Guards
import SqlConsole.Proofs.Session.Interruption
import SqlConsole.Proofs.Statement.Totality
