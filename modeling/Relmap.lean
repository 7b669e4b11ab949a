import Relmap.Config
import Relmap.Connection
import Relmap.Statement.Change
import Relmap.Storage
import Relmap.Proofs.Statement.Template
import Relmap.Proofs.Statement.Placement
import Relmap.Proofs.Statement.Demand
import Relmap.Proofs.Statement.Numbering
import Relmap.Proofs.Statement.Run
import Relmap.Proofs.Statement.Script
import Relmap.Proofs.Statement.Arguments
import Relmap.Proofs.Statement.Conservation
import Relmap.Proofs.Statement.Comparable
import Relmap.Proofs.Statement.Meaning
import Relmap.Proofs.Statement.Legible
import Relmap.Proofs.Statement.Inlining
import Relmap.Proofs.Statement.Fitting
import Relmap.Proofs.Statement.Translation
import Relmap.Proofs.Text.Utf8
import Relmap.Proofs.Text.Caseless
import Relmap.Proofs.Number.IntText
import Relmap.Proofs.Uuid
import Relmap.Proofs.Calendar.Timestamp
import Relmap.Proofs.Field.Enumeration
import Relmap.Proofs.Field.Lookup
import Relmap.Proofs.Number.Scaled
import Relmap.Proofs.Field.Declare
import Relmap.Proofs.Field.Wire
import Relmap.Proofs.Field.Bindable
import Relmap.Proofs.Calendar.Civil
import Relmap.Proofs.Calendar.Standard
import Relmap.Proofs.Calendar.Zone
import Relmap.Proofs.Field.Fault
import Relmap.Proofs.Field.RoundTrip
import Relmap.Proofs.Field.Default
import Relmap.Proofs.Field.Readable
import Relmap.Proofs.Field.Column
import Relmap.Proofs.Storage
import Relmap.Proofs.Statement.Deferral
import Relmap.Proofs.Statement.DeferredCalls
import Relmap.Proofs.Statement.DeferredScript
import Relmap.Proofs.Statement.LateBinding
import Relmap.Proofs.Statement.Spelling
import Relmap.Proofs.Statement.RespelledCalls
import Relmap.Proofs.Statement.RespelledScript
import Relmap.Proofs.Statement.Grouping
import Relmap.Proofs.Statement.Piece
import Relmap.Proofs.Statement.Operand
import Relmap.Proofs.Statement.Wording
import Relmap.Proofs.Json.Depth
import Relmap.Proofs.Json.Numerals
import Relmap.Proofs.Number.Rounding
import Relmap.Proofs.Number.Shortest
import Relmap.Proofs.Field.Null
import Relmap.Proofs.Statement.LateSets
import Relmap.Proofs.Statement.InPlace
import Relmap.Proofs.Session
import Relmap.Proofs.Statement.FirstFailure
import Relmap.Proofs.Statement.CallOrder
import Relmap.Proofs.Field.Version
import Relmap.Proofs.Statement.Assembly
import Relmap.Proofs.Statement.Scope
import Relmap.Proofs.Dialect.Name
import Relmap.Proofs.Statement.Literals
import Relmap.Proofs.Statement.Parts
import Relmap.Proofs.Table.KnownColumns
import Relmap.Proofs.Table.GeneratedId
import Relmap.Proofs.Field.TextColumn
import Relmap.Proofs.Field.Epoch
import Relmap.Proofs.Field.Layers
import Relmap.Proofs.Field.WholeNumber
import Relmap.Proofs.Field.Constants
import Relmap.Proofs.Field.StoredForm
import Relmap.Proofs.Row.History
import Relmap.Proofs.Statement.QuotedRuns
