import DdlCatalog.Command.Directory
import DdlCatalog.Main
import DdlCatalog.Proofs.Catalog.Named
import DdlCatalog.Proofs.Script.Passes
import DdlCatalog.Proofs.Statement.Batch
import DdlCatalog.Proofs.Statement.Options
import DdlCatalog.Proofs.Text.Search
import DdlCatalog.Proofs.Text.Words
import DdlCatalog.Proofs.Catalog.Definition
import DdlCatalog.Proofs.Sql.Skeleton
import DdlCatalog.Proofs.Statement.Heading
import DdlCatalog.Proofs.Statement.Clause
import DdlCatalog.Proofs.Statement.Declared
import DdlCatalog.Proofs.Statement.Layout
import DdlCatalog.Proofs.Catalog.Written
import DdlCatalog.Proofs.Statement.Print
import DdlCatalog.Proofs.Statement.RoundTrip
import DdlCatalog.Proofs.Catalog.Update
import DdlCatalog.Proofs.Statement.Effect
import DdlCatalog.Proofs.Text.ByteOrder
import DdlCatalog.Proofs.Statement.Sequence
import DdlCatalog.Proofs.Statement.Stated
import DdlCatalog.Proofs.Statement.Operation
import DdlCatalog.Proofs.Script.Modes
import DdlCatalog.Proofs.Script.Append
import DdlCatalog.Proofs.Script.Join
import DdlCatalog.Proofs.Script.Origin
import DdlCatalog.Proofs.Script.Routing
import DdlCatalog.Proofs.Statement.Reorder
import DdlCatalog.Proofs.Command.Output
import DdlCatalog.Proofs.Json.Pretty
import DdlCatalog.Proofs.Render.Document
import DdlCatalog.Proofs.Statement.Wording
import DdlCatalog.Proofs.Text.Respace
import DdlCatalog.Proofs.Statement.Respace
import DdlCatalog.Proofs.Command.Arguments
import DdlCatalog.Proofs.Command.Channel
import DdlCatalog.Proofs.Catalog.ByWords
import DdlCatalog.Proofs.Catalog.Quoted
import DdlCatalog.Proofs.Text.Octets
import DdlCatalog.Proofs.Statement.ClauseEnd
import DdlCatalog.Proofs.Statement.Partner
import DdlCatalog.Proofs.Sql.Escapes
import DdlCatalog.Proofs.Script.Quotes
import DdlCatalog.Proofs.Script.Handover
import DdlCatalog.Proofs.Statement.ClauseGrammar
import DdlCatalog.Proofs.Statement.HeadingGrammar
import DdlCatalog.Proofs.Statement.OptionGrammar
import DdlCatalog.Proofs.Statement.Defect
import DdlCatalog.Proofs.Text.Slice
import DdlCatalog.Proofs.Statement.Scan
import DdlCatalog.Proofs.Catalog.Offsets
import DdlCatalog.Proofs.Statement.Offsets
import DdlCatalog.Proofs.Statement.Rounds
