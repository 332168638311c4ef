import BoundedRecords.Api.Answers
import BoundedRecords.Api.Body
import BoundedRecords.Api.CrossOrigin
import BoundedRecords.Api.Description
import BoundedRecords.Api.Endpoint
import BoundedRecords.Api.Host
import BoundedRecords.Api.Lifetime
import BoundedRecords.Api.Message
import BoundedRecords.Api.Metrics
import BoundedRecords.Api.Sheet
import BoundedRecords.Command.Arguments
import BoundedRecords.Command.BatchFile
import BoundedRecords.Command.Flag
import BoundedRecords.Command.Help
import BoundedRecords.Command.Run
import BoundedRecords.Command.Session
import BoundedRecords.Command.Topic
import BoundedRecords.Config.Basic
import BoundedRecords.Config.Document
import BoundedRecords.Config.Store
import BoundedRecords.Files.Path
import BoundedRecords.Files.Tree
import BoundedRecords.Json.Basic
import BoundedRecords.Json.Read
import BoundedRecords.Json.Write
import BoundedRecords.Log.Level
import BoundedRecords.Log.Logger
import BoundedRecords.Main
import BoundedRecords.Number.Binary64
import BoundedRecords.Proofs.Api.AccessLog
import BoundedRecords.Proofs.Api.Bodies
import BoundedRecords.Proofs.Api.Counting
import BoundedRecords.Proofs.Api.Echo
import BoundedRecords.Proofs.Api.Excess
import BoundedRecords.Proofs.Api.Joining
import BoundedRecords.Proofs.Api.Keeping
import BoundedRecords.Proofs.Api.KeyGuard
import BoundedRecords.Proofs.Api.Ledger
import BoundedRecords.Proofs.Api.Release
import BoundedRecords.Proofs.Api.Routing
import BoundedRecords.Proofs.Api.Secrecy
import BoundedRecords.Proofs.Api.Shortages
import BoundedRecords.Proofs.Api.Watching
import BoundedRecords.Proofs.Command.Absence
import BoundedRecords.Proofs.Command.Announcement
import BoundedRecords.Proofs.Command.BatchEntries
import BoundedRecords.Proofs.Command.Capacity
import BoundedRecords.Proofs.Command.Dispatch
import BoundedRecords.Proofs.Command.Initialise
import BoundedRecords.Proofs.Command.Privacy
import BoundedRecords.Proofs.Command.Sessions
import BoundedRecords.Proofs.Config.Bootstrap
import BoundedRecords.Proofs.Config.Overlay
import BoundedRecords.Proofs.Config.ReadBack
import BoundedRecords.Proofs.Config.Saving
import BoundedRecords.Proofs.Files.Growth
import BoundedRecords.Proofs.Files.Locations
import BoundedRecords.Proofs.Files.Trees
import BoundedRecords.Proofs.Json.Completeness
import BoundedRecords.Proofs.Json.Grammar
import BoundedRecords.Proofs.Json.Joining
import BoundedRecords.Proofs.Json.Printing
import BoundedRecords.Proofs.Json.Soundness
import BoundedRecords.Proofs.Json.Strings
import BoundedRecords.Proofs.Json.Texts
import BoundedRecords.Proofs.Log.Sampling
import BoundedRecords.Proofs.Record.Batch
import BoundedRecords.Proofs.Record.Buffer
import BoundedRecords.Proofs.Record.Calls
import BoundedRecords.Proofs.Record.Conservation
import BoundedRecords.Proofs.Record.Cutting
import BoundedRecords.Proofs.Record.Mirrors
import BoundedRecords.Proofs.Record.Requests
import BoundedRecords.Proofs.Record.Rollback
import BoundedRecords.Proofs.Record.Sharing
import BoundedRecords.Proofs.Record.Shortages
import BoundedRecords.Proofs.Record.Truncation
import BoundedRecords.Proofs.Storage.Accounting
import BoundedRecords.Proofs.Text.Decimal
import BoundedRecords.Proofs.Text.Utf8
import BoundedRecords.Proofs.Yaml.Decoding
import BoundedRecords.Proofs.Yaml.Forms
import BoundedRecords.Proofs.Yaml.Lines
import BoundedRecords.Proofs.Yaml.Nodes
import BoundedRecords.Proofs.Yaml.Overlays
import BoundedRecords.Proofs.Yaml.Problems
import BoundedRecords.Proofs.Yaml.Records
import BoundedRecords.Proofs.Yaml.Scalars
import BoundedRecords.Proofs.Yaml.Tokens
import BoundedRecords.Record.Maker
import BoundedRecords.Record.Name
import BoundedRecords.Record.Person
import BoundedRecords.Record.Register
import BoundedRecords.Record.Request
import BoundedRecords.Storage.Allocator
import BoundedRecords.Storage.Budget
import BoundedRecords.Storage.Failure
import BoundedRecords.Text.Bytes
import BoundedRecords.Text.Case
import BoundedRecords.Text.Numeral
import BoundedRecords.Text.Printable
import BoundedRecords.Text.Quoted
import BoundedRecords.Text.Utf8
import BoundedRecords.Yaml.Cursor
import BoundedRecords.Yaml.Decode
import BoundedRecords.Yaml.Node
import BoundedRecords.Yaml.Scalar
import BoundedRecords.Yaml.Scanner
import BoundedRecords.Yaml.Source
import BoundedRecords.Yaml.Timestamp
import BoundedRecords.Yaml.Token
import BoundedRecords.Yaml.Value
import BoundedRecords.Yaml.Write
