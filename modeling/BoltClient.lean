import BoltClient.Address.Basic
import BoltClient.Address.Endpoint
import BoltClient.Address.Resolver
import BoltClient.Bytes
import BoltClient.Chunk.Buffer
import BoltClient.Chunk.Reader
import BoltClient.Chunk.Writer
import BoltClient.Config.Connection
import BoltClient.Config.Pool
import BoltClient.Config.Tls
import BoltClient.Connection.Answer
import BoltClient.Connection.Basic
import BoltClient.Connection.Exchange
import BoltClient.Connection.Opening
import BoltClient.Connection.Task
import BoltClient.Connection.Transfer
import BoltClient.Decimal.Shortest
import BoltClient.Entries
import BoltClient.Error
import BoltClient.Handshake.Error
import BoltClient.Handshake.Offer
import BoltClient.Handshake.Varint
import BoltClient.Handshake.Version
import BoltClient.Message.Authentication
import BoltClient.Message.Kind
import BoltClient.Message.Notification
import BoltClient.Message.Request
import BoltClient.Message.Response
import BoltClient.Message.Transaction
import BoltClient.PackStream.Cursor
import BoltClient.PackStream.Decoder
import BoltClient.PackStream.Encoder
import BoltClient.PackStream.Error
import BoltClient.PackStream.Marker
import BoltClient.Pool.Basic
import BoltClient.Pool.Move
import BoltClient.Pool.Task
import BoltClient.Protocol.Requests
import BoltClient.Protocol.ServerState
import BoltClient.Routing.Cluster
import BoltClient.Routing.Directory
import BoltClient.Routing.Row
import BoltClient.Routing.Selection
import BoltClient.Routing.Table
import BoltClient.Server.Error
import BoltClient.Stage.Bench
import BoltClient.Stage.Command
import BoltClient.Stage.Ensemble
import BoltClient.Stage.Kept
import BoltClient.Stage.Outside
import BoltClient.Stage.Server
import BoltClient.Stage.Solo
import BoltClient.Stage.World
import BoltClient.Text.Blank
import BoltClient.Text.Invisible
import BoltClient.Text.Quoted
import BoltClient.Text.Utf8
import BoltClient.Time.Deadline
import BoltClient.Time.Duration
import BoltClient.Value.Agreement
import BoltClient.Value.Basic
import BoltClient.Value.Text
import BoltClient.Wire.Error
import BoltClient.Wire.Message
import BoltClient.Work
import BoltClient.Proofs.Chunk.Framing
import BoltClient.Proofs.Chunk.Reassembly
import BoltClient.Proofs.Connection.Abandoned
import BoltClient.Proofs.Connection.Address
import BoltClient.Proofs.Connection.Alteration
import BoltClient.Proofs.Connection.Calls
import BoltClient.Proofs.Connection.Changes
import BoltClient.Proofs.Connection.Commit
import BoltClient.Proofs.Connection.Conversation
import BoltClient.Proofs.Connection.Correlation
import BoltClient.Proofs.Connection.Listening
import BoltClient.Proofs.Connection.Login
import BoltClient.Proofs.Connection.Probe
import BoltClient.Proofs.Connection.Recording
import BoltClient.Proofs.Connection.Restoring
import BoltClient.Proofs.Connection.Session
import BoltClient.Proofs.Connection.Warning
import BoltClient.Proofs.Handshake.Agreement
import BoltClient.Proofs.Handshake.Manifest
import BoltClient.Proofs.Handshake.Reading
import BoltClient.Proofs.Handshake.Varint
import BoltClient.Proofs.PackStream.Extent
import BoltClient.Proofs.PackStream.Finding
import BoltClient.Proofs.PackStream.Grammar
import BoltClient.Proofs.PackStream.Parsing
import BoltClient.Proofs.PackStream.Reading
import BoltClient.Proofs.PackStream.Recognition
import BoltClient.Proofs.PackStream.RoundTrip
import BoltClient.Proofs.PackStream.Spelling
import BoltClient.Proofs.Pool.Announcing
import BoltClient.Proofs.Pool.Balance
import BoltClient.Proofs.Pool.Capacity
import BoltClient.Proofs.Pool.Change
import BoltClient.Proofs.Pool.Crowd
import BoltClient.Proofs.Pool.Custody
import BoltClient.Proofs.Pool.Exact
import BoltClient.Proofs.Pool.Generation
import BoltClient.Proofs.Pool.GivingUp
import BoltClient.Proofs.Pool.Grip
import BoltClient.Proofs.Pool.Hands
import BoltClient.Proofs.Pool.Lending
import BoltClient.Proofs.Pool.Returning
import BoltClient.Proofs.Pool.Slots
import BoltClient.Proofs.Pool.Waiting
import BoltClient.Proofs.Protocol.Redaction
import BoltClient.Proofs.Routing.Renewal
import BoltClient.Proofs.Routing.Thinning
import BoltClient.Proofs.Routing.WriteFailure
import BoltClient.Proofs.Wire.Stream
import BoltClient.Proofs.Wire.Values
import BoltClient.Proofs.Work.Ending
import BoltClient.Proofs.Work.Passage
import BoltClient.Proofs.Work.Safety
import BoltClient.Proofs.Chunk.Counting
import BoltClient.Proofs.Connection.Accounting
import BoltClient.Proofs.Connection.Bookkeeping
import BoltClient.Proofs.Connection.Greeting
import BoltClient.Proofs.Pool.Accounts
import BoltClient.Proofs.Pool.Housekeeping
import BoltClient.Proofs.Pool.Pristine
import BoltClient.Proofs.Chunk.Joining
import BoltClient.Proofs.Connection.Commands
import BoltClient.Proofs.Connection.Chronicle
import BoltClient.Proofs.Connection.Finality
import BoltClient.Proofs.Connection.Pipelining
import BoltClient.Proofs.Pool.Closing
import BoltClient.Proofs.Connection.Dropping
import BoltClient.Proofs.Pool.Hurry
import BoltClient.Proofs.PackStream.Normalisation
import BoltClient.Proofs.PackStream.Stability
import BoltClient.Proofs.PackStream.Brevity
import BoltClient.Proofs.Connection.Completion
import BoltClient.Proofs.Routing.Trying
import BoltClient.Proofs.Routing.Lifetime
import BoltClient.Proofs.Routing.Turns
import BoltClient.Proofs.Server.Verdicts
import BoltClient.Proofs.Protocol.Features
import BoltClient.Proofs.Address.Spelling
import BoltClient.Proofs.Handshake.Pushing
import BoltClient.Proofs.Connection.Refusal
import BoltClient.Proofs.Wire.Limit
import BoltClient.Proofs.Handshake.Writing
import BoltClient.Proofs.Protocol.Timeout
import BoltClient.Proofs.Chunk.InPlace
import BoltClient.Proofs.PackStream.Walking
