import RequestFeed.ByteQueue
import RequestFeed.Bytes
import RequestFeed.Command.Arguments
import RequestFeed.Command.Compose
import RequestFeed.Command.Demux
import RequestFeed.Command.Disk
import RequestFeed.Command.Exit
import RequestFeed.Command.Inspect
import RequestFeed.Command.Report
import RequestFeed.Command.Run
import RequestFeed.Command.Script
import RequestFeed.Feed.Basic
import RequestFeed.Feed.Demultiplexer
import RequestFeed.Feed.Input
import RequestFeed.Filter.Basic
import RequestFeed.Filter.Config
import RequestFeed.Filter.ConfigFile
import RequestFeed.Filter.Describe
import RequestFeed.Filter.Drain
import RequestFeed.Frame.Basic
import RequestFeed.Frame.Codec
import RequestFeed.Frame.Decoder
import RequestFeed.Frame.Queue
import RequestFeed.Frame.Reader
import RequestFeed.Frame.Writer
import RequestFeed.Header.Block
import RequestFeed.IoError
import RequestFeed.Json.Document
import RequestFeed.Json.Quote
import RequestFeed.Json.Token
import RequestFeed.Json.Value
import RequestFeed.Main
import RequestFeed.Notice
import RequestFeed.Proofs.Command.Listing
import RequestFeed.Proofs.Command.Replay
import RequestFeed.Proofs.Command.Termination
import RequestFeed.Proofs.Feed.Attendance
import RequestFeed.Proofs.Feed.Calls
import RequestFeed.Proofs.Feed.Coherence
import RequestFeed.Proofs.Feed.Deliveries
import RequestFeed.Proofs.Feed.History
import RequestFeed.Proofs.Feed.Interleaving
import RequestFeed.Proofs.Feed.Ledger
import RequestFeed.Proofs.Feed.Order
import RequestFeed.Proofs.Feed.Pruning
import RequestFeed.Proofs.Feed.PumpRun
import RequestFeed.Proofs.Feed.Pumping
import RequestFeed.Proofs.Filter.Contracts
import RequestFeed.Proofs.Filter.Ending
import RequestFeed.Proofs.Filter.Failure
import RequestFeed.Proofs.Filter.Outcome
import RequestFeed.Proofs.Filter.PassThrough
import RequestFeed.Proofs.Filter.Phases
import RequestFeed.Proofs.Filter.Progress
import RequestFeed.Proofs.Filter.Recorded
import RequestFeed.Proofs.Filter.Returned
import RequestFeed.Proofs.Filter.Session
import RequestFeed.Proofs.Filter.Soundness
import RequestFeed.Proofs.Frame.Collecting
import RequestFeed.Proofs.Frame.Decoding
import RequestFeed.Proofs.Frame.Feeding
import RequestFeed.Proofs.Frame.Reading
import RequestFeed.Proofs.Frame.RoundTrip
import RequestFeed.Proofs.Frame.Verdict
import RequestFeed.Proofs.Frame.Writing
import RequestFeed.Proofs.Header.Grammar
import RequestFeed.Proofs.Protocol.Selection
import RequestFeed.Proofs.Read.Conservation
import RequestFeed.Proofs.Read.Content
import RequestFeed.Proofs.Read.Logged
import RequestFeed.Proofs.Read.Peeking
import RequestFeed.Proofs.Read.Script
import RequestFeed.Proofs.Request.Account
import RequestFeed.Proofs.Request.Accumulating
import RequestFeed.Proofs.Request.Chunked
import RequestFeed.Proofs.Request.Course
import RequestFeed.Proofs.Request.Delimiting
import RequestFeed.Proofs.Request.Heads
import RequestFeed.Proofs.Request.Message
import RequestFeed.Proofs.Request.Production
import RequestFeed.Proofs.Request.Reading
import RequestFeed.Proofs.Request.Rendering
import RequestFeed.Proofs.Request.Volume
import RequestFeed.Proofs.Stream.Accepted
import RequestFeed.Proofs.Stream.Dispatch
import RequestFeed.Proofs.Stream.Exchange
import RequestFeed.Proofs.Stream.Lifecycle
import RequestFeed.Proofs.Stream.Transcript
import RequestFeed.Protocol.Context
import RequestFeed.Protocol.Name
import RequestFeed.Protocol.Selector
import RequestFeed.Read.Brigade
import RequestFeed.Read.Lookahead
import RequestFeed.Read.Request
import RequestFeed.Read.Scripted
import RequestFeed.Read.Source
import RequestFeed.Read.Status
import RequestFeed.Request.Accumulator
import RequestFeed.Request.Error
import RequestFeed.Request.Head
import RequestFeed.Request.Projection
import RequestFeed.Stream.Event
import RequestFeed.Stream.Router
import RequestFeed.Text.CharacterClass
import RequestFeed.Text.Escape
import RequestFeed.Text.Hex
import RequestFeed.Text.LineBreak
import RequestFeed.Text.Record
import RequestFeed.Text.Table
import RequestFeed.Total
import RequestFeed.Violation
