import SchemaPlan.Analysis.Basic
import SchemaPlan.Analysis.Default
import SchemaPlan.Analysis.Placeholder
import SchemaPlan.Analysis.Rule
import SchemaPlan.Config.Basic
import SchemaPlan.Config.Check
import SchemaPlan.Config.FromSettings
import SchemaPlan.Config.Setting
import SchemaPlan.Fault
import SchemaPlan.Import.Location
import SchemaPlan.Import.Rebase
import SchemaPlan.Json.Decimal
import SchemaPlan.Json.Document
import SchemaPlan.Json.Form
import SchemaPlan.Json.Number
import SchemaPlan.Json.Printer
import SchemaPlan.Json.Reader
import SchemaPlan.Json.Record
import SchemaPlan.Json.Token
import SchemaPlan.Json.Value
import SchemaPlan.NameMap
import SchemaPlan.Plan
import SchemaPlan.Projection.Basic
import SchemaPlan.Projection.Synthesis
import SchemaPlan.Proofs.Config.Objection
import SchemaPlan.Proofs.Config.Reading
import SchemaPlan.Proofs.Config.Verdict
import SchemaPlan.Proofs.FirstMention
import SchemaPlan.Proofs.Import.Rebasing
import SchemaPlan.Proofs.Import.Resolution
import SchemaPlan.Proofs.NameMap
import SchemaPlan.Proofs.Projection.Level
import SchemaPlan.Proofs.Projection.Path
import SchemaPlan.Proofs.Projection.Termination
import SchemaPlan.Proofs.Relations.Placement
import SchemaPlan.Proofs.Relations.Representation
import SchemaPlan.Proofs.Schema.Names
import SchemaPlan.Proofs.Text.Cut
import SchemaPlan.Relations.Graph
import SchemaPlan.Relations.OfSchema
import SchemaPlan.Schema.Basic
import SchemaPlan.Schema.Cardinality
import SchemaPlan.Schema.Datamodel
import SchemaPlan.Schema.Field
import SchemaPlan.Schema.Form
import SchemaPlan.Text.Ascii
import SchemaPlan.Text.Blank
import SchemaPlan.Text.CaseTable
import SchemaPlan.Text.Cut
import SchemaPlan.Text.Lowercase
import SchemaPlan.Trace
import SchemaPlan.Proofs.Relations.Pairing
import SchemaPlan.Proofs.Relations.Counting
import SchemaPlan.Proofs.Relations.Related
import SchemaPlan.Proofs.Plan.Completeness
import SchemaPlan.Proofs.Projection.Expansion
import SchemaPlan.Proofs.Projection.WellFormed
import SchemaPlan.Proofs.Config.Influence
import SchemaPlan.Proofs.Projection.Returns
import SchemaPlan.Proofs.Plan.Descriptor
import SchemaPlan.Proofs.Relations.Part
import SchemaPlan.Proofs.Plan.Stability
import SchemaPlan.Proofs.Plan.Form
import SchemaPlan.Proofs.Plan.Payload
import SchemaPlan.Proofs.Import.Refusal
import SchemaPlan.Proofs.Import.Stability
import SchemaPlan.Proofs.Projection.Partition
import SchemaPlan.Proofs.Projection.Selection
import SchemaPlan.Proofs.Projection.Truncation
import SchemaPlan.Proofs.Config.Listing
import SchemaPlan.Proofs.Projection.Rendering
import SchemaPlan.Proofs.Analysis.Coverage
import SchemaPlan.Proofs.Analysis.Placeholder
import SchemaPlan.Proofs.Json.Lexing
import SchemaPlan.Proofs.Json.Printing
import SchemaPlan.Proofs.Analysis.Default
import SchemaPlan.Proofs.Schema.Extension
import SchemaPlan.Proofs.Schema.Entry
import SchemaPlan.Proofs.Config.Ignored
import SchemaPlan.Proofs.Import.Rendering
import SchemaPlan.Proofs.Analysis.Spelling
import SchemaPlan.Proofs.Projection.Notices
