import Dtj.Sdk.GoLaunch
import Dtj.Sdk.Discovery
import Dtj.Sdk.Launch
import Dtj.Lib.Custody
import Dtj.Mcp.Around
import Dtj.Lib.Tally
import Dtj.Lib.Around
import Dtj.Explorer.Nav
import Dtj.Explorer.Runner
import Dtj.Cli.Live
import Dtj.Mcp.Journals
import Dtj.Agent.Confined
import Dtj.Agent.Live
import Dtj.Agent.Isolation
import Dtj.Lib.Alike
import Dtj.Journal.Agree
import Dtj.Cli.Session
import Dtj.Explorer.Protocol
import Dtj.Cli.ReadSession
import Dtj.Lib.Decimals
import Dtj.Lib.Json
import Dtj.Cli.Events
import Dtj.Lib.Page
import Dtj.Explorer.Format
import Dtj.Explorer.Subset
import Dtj.Explorer.Traceql
import Dtj.Mcp.Satisfiable
import Dtj.Mcp.Percentile
import Dtj.Lib.Between
import Dtj.Agent.Proto
import Dtj.Agent.Grammar
import Dtj.Agent.Handle
import Dtj.Agent.Strict
import Dtj.Agent.Serve
import Dtj.Agent.Replies
import Dtj.Agent.Steps
import Dtj.Agent.Record
import Dtj.Agent.Sessions
import Dtj.Agent.Runs
import Dtj.Agent.Durable
import Dtj.Agent.Policy
import Dtj.Agent.Directory
import Dtj.Lib.Checked
import Dtj.Lib.Bytes
import Dtj.Lib.Parse
import Dtj.Core.Format
import Dtj.Core.Payload
import Dtj.Core.Event
import Dtj.Core.Dict
import Dtj.Core.Mixed
import Dtj.Lib.Text
import Dtj.Core.Header
import Dtj.Core.Again
import Dtj.Core.Chunk
import Dtj.Core.Reader
import Dtj.Journal.Walk
import Dtj.Journal.Open
import Dtj.Journal.Frames
import Dtj.Journal.Append
import Dtj.Sys.Disk
import Dtj.Core.Writer
import Dtj.Journal.Layout
import Dtj.Journal.Commit
import Dtj.Journal.Ops
import Dtj.Journal.Calls
import Dtj.Journal.Session
import Dtj.Journal.Limits
import Dtj.Journal.Exact
import Dtj.Journal.Atomic
import Dtj.Journal.Poison
import Dtj.Journal.Reliable
import Dtj.Journal.Damage
import Dtj.Spec.Grammar
import Dtj.Spec.Codecs
import Dtj.Spec.Recovery
import Dtj.Lib.Code
import Dtj.Lib.Crc
import Dtj.Lib.Cut
import Dtj.Lib.Greedy
import Dtj.Lib.Ieee
import Dtj.Lib.Settle
import Dtj.Lib.Mutex
import Dtj.Lib.Pairing
import Dtj.Sdk.Link
import Dtj.Sdk.Client
import Dtj.Sdk.Go
import Dtj.Sdk.History
import Dtj.Sdk.Python
import Dtj.Sdk.Rust
import Dtj.Sdk.Frames
import Dtj.Sdk.Requests
import Dtj.Sdk.GoOpen
import Dtj.Lib.Trace
import Dtj.Explorer.Client
import Dtj.Explorer.Session
import Dtj.Explorer.Runs
import Dtj.Sdk.TypeScript
import Dtj.Sdk.Values
import Dtj.Sdk.Emit
import Dtj.Lib.Interleave
import Dtj.Lib.Posix
import Dtj.Mcp.Python
import Dtj.Mcp.Search
import Dtj.Mcp.Registry
import Dtj.Mcp.Candidate
import Dtj.Mcp.Stored
import Dtj.Mcp.Index
import Dtj.Mcp.Native
import Dtj.Mcp.Read
import Dtj.Mcp.Derived
import Dtj.Mcp.Events
import Dtj.Mcp.Chain
import Dtj.Mcp.Pairs
import Dtj.Mcp.Bursts
import Dtj.Mcp.Report
import Dtj.Mcp.Sidecar
import Dtj.Mcp.Store
