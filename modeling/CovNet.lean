import CovNet.Lib.System
import CovNet.Lib.Owner
import CovNet.Lib.Search
import CovNet.Lib.Stream
import CovNet.Lib.Lexical
import CovNet.Lib.Pipeline
import CovNet.Lib.Bubble
import CovNet.Lib.Grouping
import CovNet.Lib.Trace
import CovNet.Text.Bytes
import CovNet.Path.Normalize
import CovNet.Path.Location
import CovNet.Path.Containment
import CovNet.Path.NormalForm
import CovNet.Socket.Admission
import CovNet.Socket.Exclusion
import CovNet.Async.State
import CovNet.Async.Ledger
import CovNet.Async.Transfers
import CovNet.Async.Partial
import CovNet.Async.Executors
import CovNet.Async.Driving
import CovNet.Socket.Operations
import CovNet.Socket.Calls
import CovNet.Socket.Release
import CovNet.Socket.Collision
import CovNet.Socket.CloseNotify
import CovNet.Http.FileCache
import CovNet.Http.Session
import CovNet.Http.Serialize
import CovNet.Http.Response
import CovNet.Http.Reader
import CovNet.Http.Buffering
import CovNet.Http.Framing
import CovNet.Http.Serving
import CovNet.Http.Routing
import CovNet.Http.Selection
import CovNet.Http.Bindings
import CovNet.Http.Lifetime
import CovNet.Client.Reading
import CovNet.Client.Segments
import CovNet.Client.Buffering
import CovNet.Client.Response
import CovNet.Client.Request
import CovNet.Client.Url
import CovNet.Client.Proxy
import CovNet.Client.Headers
import CovNet.Client.Draining
import CovNet.Client.Chunks
import CovNet.Client.Faults
import CovNet.Client.Endless
import CovNet.Client.Turns
import CovNet.Client.Delivery
import CovNet.Client.Life
import CovNet.Client.Gateway
import CovNet.Client.Splitting
import CovNet.Master.Connection
import CovNet.Workers.Config
import CovNet.Workers.Model
import CovNet.Workers.Steps
import CovNet.Workers.Serving
import CovNet.Workers.Lifecycle
import CovNet.Master.Model
import CovNet.Master.Moves
import CovNet.Master.Readers
import CovNet.Master.Nodes
import CovNet.Master.Order
import CovNet.Master.Correlation
import CovNet.Master.Overtaking
import CovNet.Master.Idle
import CovNet.Master.Life
import CovNet.Master.Closing
import CovNet.Master.Writes
import CovNet.Master.Index
import CovNet.Master.Multiplicity
import CovNet.Master.Bookkeeping
import CovNet.Master.Ranks
import CovNet.Master.Ownership
import CovNet.Master.Progress
import CovNet.Slave.Frames
import CovNet.Slave.Grammar
import CovNet.Slave.Messages
import CovNet.Slave.Worker
import CovNet.Slave.Conversation
import CovNet.Cluster.Model
import CovNet.Cluster.Channels
import CovNet.Cluster.Transparency
import CovNet.Query.Decode
import CovNet.Query.Args
import CovNet.Query.Target
import CovNet.Client.Forwarding
import CovNet.Tls.Options
import CovNet.Tls.Trust
import CovNet.Argparse.Parser
import CovNet.Argparse.Memory
import CovNet.Argparse.Setup
import CovNet.Argparse.Results
import CovNet.Argparse.Lines
import CovNet.Argparse.Spelling
