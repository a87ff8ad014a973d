import MvsGateway.Host.RecordJson
import MvsGateway.Host.Machine
import MvsGateway.Http.Service
import MvsGateway.Json.Printer
import MvsGateway.Main
import MvsGateway.Proofs.DataSetName
import MvsGateway.Proofs.Path
import MvsGateway.Proofs.CanonicalPath
import MvsGateway.Proofs.Catalog.Text
import MvsGateway.Proofs.Catalog.Outcome
import MvsGateway.Proofs.Catalog.Refusal
import MvsGateway.Proofs.Catalog.Reading
import MvsGateway.Proofs.Catalog.Map
import MvsGateway.Proofs.FileTree.Outcome
import MvsGateway.Proofs.FileTree.Refusal
import MvsGateway.Proofs.FileTree.WellFormed
import MvsGateway.Host.Services
import MvsGateway.Proofs.Pipeline
import MvsGateway.Proofs.ConditionalWrite
import MvsGateway.Proofs.JobQueue.Identifier
import MvsGateway.Proofs.JobQueue.Submission
import MvsGateway.Proofs.JobQueue.Identity
import MvsGateway.Proofs.RoundTrip
import MvsGateway.Proofs.Catalog.Representation
import MvsGateway.Proofs.Catalog.Members
import MvsGateway.Proofs.FileTree.Listing
import MvsGateway.Proofs.Utf8
import MvsGateway.Proofs.Json.Records
import MvsGateway.Proofs.PutBack
import MvsGateway.Proofs.Pattern
import MvsGateway.Proofs.Request.Accepted
import MvsGateway.Proofs.Envelope
import MvsGateway.Proofs.Handover
import MvsGateway.Proofs.Request.DataSetPath
import MvsGateway.Proofs.Request.DataSetAddress
import MvsGateway.Proofs.EmptyName
import MvsGateway.Proofs.Catalog.Search
import MvsGateway.Proofs.Catalog.Level
import MvsGateway.Proofs.FileTree.Frame
import MvsGateway.Proofs.FileTree.Subtree
import MvsGateway.Proofs.FileTree.Attributes
import MvsGateway.Proofs.ByteOrder
import MvsGateway.Proofs.FileTree.Directory
import MvsGateway.Proofs.Methods
import MvsGateway.Proofs.JobAddress
import MvsGateway.Proofs.Catalog.Scope
import MvsGateway.Proofs.NameAgreement
import MvsGateway.Proofs.Request.JobResource
import MvsGateway.Proofs.Mode
import MvsGateway.Proofs.ValidatedCall
import MvsGateway.Proofs.Request.Numeral
import MvsGateway.Proofs.JobQueue.JobStatement
import MvsGateway.Proofs.JobQueue.JobClass
