import Conform.Blueprint
import Conform.Decimal.Reading
import Conform.Json.Printer
import Conform.Pattern.Reading
import Conform.Proofs.AsyncGate
import Conform.Proofs.Building
import Conform.Proofs.ConfigurationFaults
import Conform.Proofs.EmbeddedSchemas
import Conform.Proofs.ErasedChecks
import Conform.Proofs.FirstFailure
import Conform.Proofs.ModeAgreement
import Conform.Proofs.OrderedChoice
import Conform.Proofs.PanicIsolation
import Conform.Proofs.PipeAssociativity
import Conform.Proofs.PureValidation
import Conform.Proofs.Refitting
import Conform.Proofs.SchemaSoundness
import Conform.Proofs.SharedEntries
import Conform.Proofs.SparedCalls
import Conform.Proofs.TupleGrowth
import Conform.Schema.Projection
import Conform.Script.Change
import Conform.Script.Conversion
import Conform.Validator.Display
import Conform.Validator.Parsing
import Conform.Proofs.EntryRoundTrip
import Conform.Proofs.ProjectionOptions
import Conform.Proofs.PositionalLists
import Conform.Proofs.ExhaustedUnions
import Conform.Proofs.PipeChains
import Conform.Proofs.ShownChecks
import Conform.Proofs.PipeSchemas
import Conform.Proofs.PipelineRuns
import Conform.Proofs.LastOperations
import Conform.Proofs.EqualShapes
import Conform.Proofs.NestedUnions
import Conform.Proofs.KindMismatches
