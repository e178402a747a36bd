import ProtocolAdapter.Foundation.Transducer
import ProtocolAdapter.Foundation.Json
import ProtocolAdapter.Foundation.Limbs
import ProtocolAdapter.Foundation.Rules
import ProtocolAdapter.Foundation.Positions
import ProtocolAdapter.Framing.Workspace
import ProtocolAdapter.Framing.Push
import ProtocolAdapter.Framing.Rounds
import ProtocolAdapter.Framing.Reference
import ProtocolAdapter.Framing.Simulation
import ProtocolAdapter.Framing.Call
import ProtocolAdapter.Framing.Feed
import ProtocolAdapter.Framing.Crlf
import ProtocolAdapter.Framing.Streaming
import ProtocolAdapter.Framing.Accounting
import ProtocolAdapter.Framing.Progress
import ProtocolAdapter.Foundation.Bytes
import ProtocolAdapter.Foundation.BinarySearch
import ProtocolAdapter.Codec.Types
import ProtocolAdapter.Codec.Wire
import ProtocolAdapter.Codec.Wide
import ProtocolAdapter.Codec.WideExact
import ProtocolAdapter.Codec.Decimal
import ProtocolAdapter.Codec.TextWalk
import ProtocolAdapter.Codec.Match
import ProtocolAdapter.Codec.Review
import ProtocolAdapter.Codec.Values
import ProtocolAdapter.Codec.Decode
import ProtocolAdapter.Codec.Encode
import ProtocolAdapter.Builder.FieldLoop
import ProtocolAdapter.Builder.Prepared
import ProtocolAdapter.Codec.Boundary
import ProtocolAdapter.Foundation.Pieces
import ProtocolAdapter.Codec.Valid
import ProtocolAdapter.Codec.Admissible
import ProtocolAdapter.Codec.Established
import ProtocolAdapter.Framing.Delivery
import ProtocolAdapter.Codec.Separated
import ProtocolAdapter.Codec.Determined
import ProtocolAdapter.Codec.PipelineIndex
import ProtocolAdapter.Codec.FrozenPlan
import ProtocolAdapter.Codec.TextSafety
import ProtocolAdapter.Codec.Matching
import ProtocolAdapter.Codec.Meaning
import ProtocolAdapter.Codec.DecodeMeaning
import ProtocolAdapter.Codec.DecodeBinary
import ProtocolAdapter.Codec.DecodeText
import ProtocolAdapter.Codec.DecodeCall
import ProtocolAdapter.Codec.DecodeSafety
import ProtocolAdapter.Codec.Exclusive
import ProtocolAdapter.Codec.Supply
import ProtocolAdapter.Codec.EncodeInputs
import ProtocolAdapter.Codec.Members
import ProtocolAdapter.Codec.Record
import ProtocolAdapter.Codec.RecordMeaning
import ProtocolAdapter.Codec.EncodeContents
import ProtocolAdapter.Codec.EncodeMemory
import ProtocolAdapter.Codec.EncodeBinary
import ProtocolAdapter.Codec.EncodeReview
import ProtocolAdapter.Codec.EncodeText
import ProtocolAdapter.Codec.EncodeCall
import ProtocolAdapter.Codec.History
import ProtocolAdapter.Codec.EncodeOutcome
import ProtocolAdapter.Codec.RoundTrip
import ProtocolAdapter.Codec.Reencode
import ProtocolAdapter.Framing.Renewal
import ProtocolAdapter.HostEndpoint.Types
import ProtocolAdapter.HostEndpoint.Session
import ProtocolAdapter.HostEndpoint.Operations
import ProtocolAdapter.HostEndpoint.Channels
import ProtocolAdapter.HostEndpoint.Recovery
import ProtocolAdapter.HostEndpoint.Reset
import ProtocolAdapter.Description.Metadata
import ProtocolAdapter.PublicApi.Types
import ProtocolAdapter.PublicApi.Codec
import ProtocolAdapter.PublicApi.Views
import ProtocolAdapter.PublicApi.Lifetime
import ProtocolAdapter.ConfigCompiler.Diagnostics
import ProtocolAdapter.ConfigCompiler.Audit
import ProtocolAdapter.ConfigCompiler.SchemaIr
import ProtocolAdapter.ConfigCompiler.Readers
import ProtocolAdapter.ConfigCompiler.ParseFraming
import ProtocolAdapter.ConfigCompiler.ParseField
import ProtocolAdapter.ConfigCompiler.ParseText
import ProtocolAdapter.ConfigCompiler.ParseMessage
import ProtocolAdapter.ConfigCompiler.ValidateText
import ProtocolAdapter.ConfigCompiler.ValidateFields
import ProtocolAdapter.ConfigCompiler.ValidateMessage
import ProtocolAdapter.ConfigCompiler.Validate
import ProtocolAdapter.ConfigCompiler.Budget
import ProtocolAdapter.ConfigCompiler.Assemble
import ProtocolAdapter.Description.Build
import ProtocolAdapter.ConfigCompiler.Compile
import ProtocolAdapter.ConfigCompiler.MemberOrder
import ProtocolAdapter.ConfigCompiler.Resolution
import ProtocolAdapter.ConfigCompiler.Parsed
import ProtocolAdapter.ConfigCompiler.Draft
import ProtocolAdapter.Description.Layout
import ProtocolAdapter.Description.Room
import ProtocolAdapter.Foundation.Numbering
import ProtocolAdapter.Description.Copy
import ProtocolAdapter.Description.Described
import ProtocolAdapter.Plan.Derivation
import ProtocolAdapter.Codec.Conversion
import ProtocolAdapter.Foundation.Occurrence
import ProtocolAdapter.Codec.TextParse
import ProtocolAdapter.Codec.TextTemplate
import ProtocolAdapter.Codec.TextRoundTrip
import ProtocolAdapter.Codec.EncodeForm
import ProtocolAdapter.Codec.EncodeOrder
import ProtocolAdapter.CompileWorker.Mailbox
import ProtocolAdapter.CompileWorker.Ledger
import ProtocolAdapter.CompileWorker.Tickets
import ProtocolAdapter.CompileWorker.Delivery
import ProtocolAdapter.Foundation.ByteText
import ProtocolAdapter.Foundation.PrefixCode
import ProtocolAdapter.ProtocolLab.ExactText
import ProtocolAdapter.ProtocolLab.ResultFormat
import ProtocolAdapter.Foundation.JsonText
import ProtocolAdapter.Foundation.JsonReading
import ProtocolAdapter.ProtocolLab.Fingerprint
import ProtocolAdapter.ProtocolLab.Sha256
import ProtocolAdapter.ProtocolLab.ResultDocument
import ProtocolAdapter.Foundation.JsonWriting
import ProtocolAdapter.ProtocolLab.DocumentSpelling
import ProtocolAdapter.ProtocolLab.DocumentReading
import ProtocolAdapter.ProtocolLab.DocumentRoundTrip
import ProtocolAdapter.Foundation.Utf8
import ProtocolAdapter.ConfigCompiler.Utf8
import ProtocolAdapter.ConfigFrontendYaml.Utf8
import ProtocolAdapter.PublicApi.Execution
import ProtocolAdapter.PublicApi.StreamFramer
import ProtocolAdapter.PublicApi.HostTypes
import ProtocolAdapter.PublicApi.HostOperations
import ProtocolAdapter.ProtocolLab.HexText
import ProtocolAdapter.ConfigCompiler.Integers
import ProtocolAdapter.ConfigFrontendYaml.Integers
import ProtocolAdapter.ProtocolLab.Sha256Exact
import ProtocolAdapter.ConfigCompiler.PrefixTables
import ProtocolAdapter.Codec.ErrorDetection
import ProtocolAdapter.ConfigFrontendYaml.SourceEntries
import ProtocolAdapter.PublicApi.AsciiRecords
import ProtocolAdapter.PublicApi.EncodeCapacity
import ProtocolAdapter.Foundation.Lease
import ProtocolAdapter.Foundation.Machine
import ProtocolAdapter.PublicApi.HostAddresses
import ProtocolAdapter.PublicApi.HostSeparation
import ProtocolAdapter.PublicApi.HostAccounting
import ProtocolAdapter.PublicApi.HostStreams
