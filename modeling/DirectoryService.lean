import DirectoryService.Ber.Decoding
import DirectoryService.Ber.Dump
import DirectoryService.Ber.Encoding
import DirectoryService.Ber.Fault
import DirectoryService.Ber.Frame
import DirectoryService.Ber.Integer
import DirectoryService.Ber.Packet
import DirectoryService.Ber.Stream
import DirectoryService.Ber.Value
import DirectoryService.CommandLine.Fault
import DirectoryService.CommandLine.Form
import DirectoryService.CommandLine.Reading
import DirectoryService.CommandLine.Tool
import DirectoryService.Config
import DirectoryService.Credential.Derivation
import DirectoryService.Credential.Password
import DirectoryService.Credential.Principal
import DirectoryService.Credential.Sha1
import DirectoryService.Entry.Basic
import DirectoryService.Entry.Record
import DirectoryService.Entry.Seed
import DirectoryService.Entry.Timestamp
import DirectoryService.Error
import DirectoryService.Files
import DirectoryService.Filter.Basic
import DirectoryService.Filter.Printer
import DirectoryService.Filter.Reader
import DirectoryService.Json.Basic
import DirectoryService.Json.Printer
import DirectoryService.Json.Reader
import DirectoryService.Json.Record
import DirectoryService.Main
import DirectoryService.Message.Result
import DirectoryService.Message.SearchEntry
import DirectoryService.Metrics
import DirectoryService.NameMap
import DirectoryService.Operation
import DirectoryService.Request.Bind
import DirectoryService.Request.Envelope
import DirectoryService.Request.Field
import DirectoryService.Request.Search
import DirectoryService.Schema.Basic
import DirectoryService.Schema.Catalog
import DirectoryService.Schema.Description
import DirectoryService.Schema.Part
import DirectoryService.Schema.Record
import DirectoryService.Schema.Standard
import DirectoryService.Service.Api
import DirectoryService.Service.Bind
import DirectoryService.Service.Dispatch
import DirectoryService.Service.Handler
import DirectoryService.Service.Search
import DirectoryService.Service.Selection
import DirectoryService.Service.Session
import DirectoryService.Store.Basic
import DirectoryService.Store.KeyValue.Database
import DirectoryService.Store.KeyValue.Directory
import DirectoryService.Store.KeyValue.Program
import DirectoryService.Store.Memory
import DirectoryService.Text.Ascii
import DirectoryService.Text.Base64
import DirectoryService.Text.Glyphless
import DirectoryService.Text.Order
import DirectoryService.Text.Quoted
import DirectoryService.Text.Similarity
import DirectoryService.Text.Terminal
import DirectoryService.Text.Utf8
import DirectoryService.Tls.Curve
import DirectoryService.Tls.Der
import DirectoryService.Tls.Edwards
import DirectoryService.Tls.Identity
import DirectoryService.Tls.Modular
import DirectoryService.Tls.Pem
import DirectoryService.Tls.PrivateKey
import DirectoryService.Tls.Sha512
import DirectoryService.Proofs.Ber.Boundary
import DirectoryService.Proofs.Session.Turn
import DirectoryService.Proofs.Session.Run
import DirectoryService.Proofs.Session.Replies
import DirectoryService.Proofs.Session.Composition
import DirectoryService.Proofs.Session.Ending
import DirectoryService.Proofs.Ber.Agreement
import DirectoryService.Proofs.NameMap
import DirectoryService.Proofs.Store.Provisioning
import DirectoryService.Proofs.Store.Forest
import DirectoryService.Proofs.Json.RoundTrip
import DirectoryService.Proofs.Entry.Timestamp
import DirectoryService.Proofs.Json.Record
import DirectoryService.Proofs.Store.KeyValue.Range
import DirectoryService.Proofs.Store.KeyValue.Task
import DirectoryService.Proofs.Store.KeyValue.Mirror
import DirectoryService.Proofs.Session.Stores
import DirectoryService.Proofs.Store.KeyValue.Provisioning
import DirectoryService.Proofs.Store.KeyValue.Refinement
import DirectoryService.Proofs.Text.Utf8
import DirectoryService.Proofs.Text.Base64
import DirectoryService.Proofs.Credential.Derivation
import DirectoryService.Proofs.Credential.Password
import DirectoryService.Proofs.Service.Bind
import DirectoryService.Proofs.Session.Binding
import DirectoryService.Proofs.Store.Principals
import DirectoryService.Proofs.Store.KeyValue.Principals
import DirectoryService.Proofs.Service.Selection
import DirectoryService.Proofs.Text.Order
import DirectoryService.Proofs.Message.SearchEntry
import DirectoryService.Proofs.Service.Search
import DirectoryService.Proofs.Store.KeyValue.Interleaving
import DirectoryService.Proofs.Store.KeyValue.Entries
import DirectoryService.Proofs.Store.Nesting
import DirectoryService.Proofs.Store.KeyValue.Nesting
import DirectoryService.Proofs.Store.KeyValue.Insertion
import DirectoryService.Proofs.Store.Reload
import DirectoryService.Proofs.Store.KeyValue.Reload
import DirectoryService.Proofs.Store.KeyValue.Interruption
import DirectoryService.Proofs.Store.KeyValue.Seeding
import DirectoryService.Proofs.Filter.Escape
import DirectoryService.Proofs.Schema.Superiors
import DirectoryService.Proofs.Filter.Packet
import DirectoryService.Proofs.Filter.Reading
import DirectoryService.Proofs.Filter.RoundTrip
import DirectoryService.Proofs.Metrics
import DirectoryService.Proofs.Service.Admission
import DirectoryService.Proofs.Service.Serving
import DirectoryService.Proofs.Session.Counting
import DirectoryService.Proofs.Text.Split
import DirectoryService.Proofs.Ber.Shortest
import DirectoryService.Proofs.Schema.Description
import DirectoryService.Proofs.Schema.Production
import DirectoryService.Proofs.Schema.Reading
import DirectoryService.Proofs.Schema.Conformance
import DirectoryService.Proofs.Session.Classes
import DirectoryService.Proofs.Steps
import DirectoryService.Proofs.Ber.Pipeline
import DirectoryService.Proofs.Schema.Chain
import DirectoryService.Proofs.Service.Sections
import DirectoryService.Proofs.Ber.Value
import DirectoryService.Proofs.Request.Field
import DirectoryService.Proofs.Request.Shape
import DirectoryService.Proofs.Ber.Dump
import DirectoryService.Proofs.Filter.Brackets
import DirectoryService.Proofs.Store.KeyValue.Suffix
import DirectoryService.Proofs.Service.Chain
import DirectoryService.Proofs.Session.Chain
import DirectoryService.Proofs.Text.Fault
import DirectoryService.Proofs.Filter.Rounds
import DirectoryService.Proofs.Ber.Integer
import DirectoryService.Proofs.Ber.Word
