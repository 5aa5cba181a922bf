import TrafficConfig.Assoc
import TrafficConfig.Number
import TrafficConfig.Number.Shortest
import TrafficConfig.Text.Ranges
import TrafficConfig.Text.Visible
import TrafficConfig.Text.Word
import TrafficConfig.Text.Lowercase
import TrafficConfig.Text.Quoted
import TrafficConfig.Json
import TrafficConfig.Json.Printer
import TrafficConfig.Json.Numeral
import TrafficConfig.Json.Reader
import TrafficConfig.Json.Outline
import TrafficConfig.Path
import TrafficConfig.Error
import TrafficConfig.Value
import TrafficConfig.Value.Access
import TrafficConfig.Value.Document
import TrafficConfig.ChangeSet
import TrafficConfig.Pattern
import TrafficConfig.Pattern.Reader
import TrafficConfig.Diagnostic
import TrafficConfig.Validator
import TrafficConfig.Schema
import TrafficConfig.Schema.Defaults
import TrafficConfig.Schema.Validation
import TrafficConfig.Section
import TrafficConfig.Section.Scalar
import TrafficConfig.Section.Remote
import TrafficConfig.Section.Rows
import TrafficConfig.Section.Declared
import TrafficConfig.Section.Naming
import TrafficConfig.Section.Declaration
import TrafficConfig.Payload
import TrafficConfig.Api
import TrafficConfig.Api.Explanation
import TrafficConfig.Api.Operation
import TrafficConfig.Api.Store
import TrafficConfig.Text.Lines
import TrafficConfig.Resource
import TrafficConfig.Resource.Lifecycle
import TrafficConfig.Resource.Import
import TrafficConfig.Resource.Manager
import TrafficConfig.Catalog.Attributes
import TrafficConfig.Catalog.Dns
import TrafficConfig.Catalog.LoadBalancing
import TrafficConfig.Catalog.Rule
import TrafficConfig.Catalog.SslKey
import TrafficConfig.Catalog.TrafficManager.Sections
import TrafficConfig.Catalog.TrafficManager
import TrafficConfig.Catalog.VirtualServer
import TrafficConfig.Catalog
import TrafficConfig.Text.Hexadecimal
import TrafficConfig.Text.Utf8
import TrafficConfig.Text.Base64
import TrafficConfig.Url.Percent
import TrafficConfig.Url.Punycode
import TrafficConfig.Url.Host
import TrafficConfig.Url
import TrafficConfig.Client
import TrafficConfig.Client.Exchange
import TrafficConfig.Client.Script
import TrafficConfig.Provider
import TrafficConfig.Proofs.Congruence
import TrafficConfig.Proofs.Equality
import TrafficConfig.Proofs.Entries
import TrafficConfig.Proofs.Documents
import TrafficConfig.Proofs.Payload
import TrafficConfig.Proofs.Scans
import TrafficConfig.Proofs.Changes
import TrafficConfig.Proofs.Instances
import TrafficConfig.Proofs.Sync
import TrafficConfig.Proofs.UnknownPlans
import TrafficConfig.Proofs.Declared
import TrafficConfig.Proofs.Overlay
import TrafficConfig.Proofs.Plain
import TrafficConfig.Proofs.Tables
import TrafficConfig.Proofs.Plans
import TrafficConfig.Proofs.Filling
import TrafficConfig.Proofs.Defaults
import TrafficConfig.Proofs.Layout
import TrafficConfig.Proofs.History
import TrafficConfig.Proofs.UnknownReads
import TrafficConfig.Proofs.Rounding
import TrafficConfig.Proofs.Rows
import TrafficConfig.Proofs.RemoteRows
import TrafficConfig.Proofs.Readback
import TrafficConfig.Proofs.Mirrors
import TrafficConfig.Proofs.Refresh
import TrafficConfig.Proofs.Convergence
import TrafficConfig.Proofs.Demands
import TrafficConfig.Proofs.Calls
import TrafficConfig.Proofs.Replies
import TrafficConfig.Proofs.Pruning
import TrafficConfig.Proofs.Sent
import TrafficConfig.Proofs.Anew
import TrafficConfig.Proofs.Apart
import TrafficConfig.Proofs.Imports
import TrafficConfig.Proofs.Created
import TrafficConfig.Proofs.Explicit
import TrafficConfig.Proofs.Texts
import TrafficConfig.Proofs.Reapplying
import TrafficConfig.Proofs.Rereading
import TrafficConfig.Proofs.SentBack
import TrafficConfig.Proofs.Interleaving
import TrafficConfig.Proofs.Contents
import TrafficConfig.Proofs.ReadOnlyChanges
import TrafficConfig.Proofs.Validated
import TrafficConfig.Proofs.Unsendable
import TrafficConfig.Proofs.Numerals
import TrafficConfig.Proofs.Reading
import TrafficConfig.Proofs.Transcripts
import TrafficConfig.Proofs.Rules
import TrafficConfig.Proofs.Marks
import TrafficConfig.Proofs.AddedBlocks
import TrafficConfig.Proofs.KeyedTables
import TrafficConfig.Proofs.Withheld
import TrafficConfig.Proofs.Nesting
import TrafficConfig.Proofs.Completion
import TrafficConfig.Proofs.Violations
import TrafficConfig.Proofs.Outlines
import TrafficConfig.Proofs.Explanations
import TrafficConfig.Proofs.Attempts
import TrafficConfig.Proofs.Escapes
import TrafficConfig.Proofs.Directories
import TrafficConfig.Proofs.Addresses
import TrafficConfig.Proofs.Storing
import TrafficConfig.Proofs.Naming
