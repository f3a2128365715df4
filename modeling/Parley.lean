import Parley.Client.Basic
import Parley.Client.Caller
import Parley.Config.Environment
import Parley.Config.Log
import Parley.Config.Path
import Parley.Config.Server
import Parley.Connection.Basic
import Parley.Connection.Receive
import Parley.Demo.Arguments
import Parley.Demo.Fibonacci
import Parley.Demo.Program
import Parley.Demo.Server
import Parley.Demo.Todo
import Parley.Frame.ContentLength
import Parley.Frame.Framer
import Parley.Frame.Reader
import Parley.Handler.Basic
import Parley.Handler.Routine
import Parley.Handler.Typed
import Parley.Json.Basic
import Parley.Json.Parser
import Parley.Json.Printer
import Parley.Json.Shown
import Parley.Ledger.Failure
import Parley.Ledger.Incoming
import Parley.Ledger.Outgoing
import Parley.Main
import Parley.Message.Basic
import Parley.Message.Decode
import Parley.Message.Id
import Parley.Message.Reply
import Parley.Number.Binary64
import Parley.Number.Numeral
import Parley.Number.Shortest
import Parley.Proofs.Client.Handshake
import Parley.Proofs.Connection.Behind
import Parley.Proofs.Connection.Inside
import Parley.Proofs.Connection.Parts
import Parley.Proofs.Connection.Received
import Parley.Proofs.Conversation.Alike
import Parley.Proofs.Conversation.Answers
import Parley.Proofs.Conversation.Basic
import Parley.Proofs.Conversation.Cancel
import Parley.Proofs.Conversation.Exit
import Parley.Proofs.Conversation.Gate
import Parley.Proofs.Conversation.Handles
import Parley.Proofs.Conversation.Jobs
import Parley.Proofs.Conversation.Release
import Parley.Proofs.Conversation.Results
import Parley.Proofs.Conversation.Shutdown
import Parley.Proofs.Conversation.Sides
import Parley.Proofs.Conversation.Stages
import Parley.Proofs.Conversation.Wire
import Parley.Proofs.Demo.Fibonacci
import Parley.Proofs.Demo.Todo
import Parley.Proofs.Frame.Bare
import Parley.Proofs.Frame.Bounds
import Parley.Proofs.Frame.Calls
import Parley.Proofs.Frame.Grammar
import Parley.Proofs.Frame.Header
import Parley.Proofs.Frame.LengthLine
import Parley.Proofs.Frame.Reader
import Parley.Proofs.Frame.Resync
import Parley.Proofs.Frame.RoundTrip
import Parley.Proofs.Frame.Truncation
import Parley.Proofs.Handler.Blind
import Parley.Proofs.Handler.Lawful
import Parley.Proofs.Handler.Modes
import Parley.Proofs.Handler.Sending
import Parley.Proofs.Json.Proper
import Parley.Proofs.Json.RoundTrip
import Parley.Proofs.Ledger.History
import Parley.Proofs.Ledger.Incoming
import Parley.Proofs.Ledger.Outgoing
import Parley.Proofs.Message.Envelope
import Parley.Proofs.Message.ErrorObject
import Parley.Proofs.Message.Parties
import Parley.Proofs.Message.RoundTrip
import Parley.Proofs.Message.Written
import Parley.Proofs.Registry.Calls
import Parley.Proofs.Server.Commands
import Parley.Proofs.Server.Delivery
import Parley.Proofs.Server.Documents
import Parley.Proofs.Server.Edits
import Parley.Proofs.Server.Lawful
import Parley.Proofs.Server.Limit
import Parley.Proofs.Session.Alone
import Parley.Proofs.Session.Calls
import Parley.Proofs.Session.Cancellation
import Parley.Proofs.Session.Cases
import Parley.Proofs.Session.Computing
import Parley.Proofs.Session.Course
import Parley.Proofs.Session.Delivery
import Parley.Proofs.Session.Discreet
import Parley.Proofs.Session.Events
import Parley.Proofs.Session.Leaving
import Parley.Proofs.Session.Loop
import Parley.Proofs.Session.Modes
import Parley.Proofs.Session.Node
import Parley.Proofs.Session.Noise
import Parley.Proofs.Session.Onward
import Parley.Proofs.Session.Outcomes
import Parley.Proofs.Session.Outlet
import Parley.Proofs.Session.Output
import Parley.Proofs.Session.Reachable
import Parley.Proofs.Session.Replies
import Parley.Proofs.Session.Serving
import Parley.Proofs.Session.Staff
import Parley.Proofs.Session.Staffed
import Parley.Proofs.Session.Steps
import Parley.Proofs.Session.Threads
import Parley.Proofs.Session.Turns
import Parley.Proofs.Session.Waiting
import Parley.Proofs.Worker.Pool
import Parley.Proofs.Writer.Task
import Parley.Registry
import Parley.Schema.Basic
import Parley.Schema.Capabilities
import Parley.Schema.Catalogue
import Parley.Schema.Features
import Parley.Schema.Text
import Parley.Server.Address
import Parley.Server.Basic
import Parley.Server.Builtins
import Parley.Server.Host
import Parley.Session.Basic
import Parley.Session.Event
import Parley.Session.Run
import Parley.Session.Turn
import Parley.Table
import Parley.Text.Blank
import Parley.Text.Digit
import Parley.Text.Quoted
import Parley.Text.Utf8
import Parley.Trial.Body
import Parley.Trial.Log
import Parley.Trial.Loopback
import Parley.Trial.Observer
import Parley.Trial.Pool
import Parley.Trial.Script
import Parley.Uri
import Parley.WebSocket
import Parley.Worker.Pool
import Parley.Workspace
import Parley.Writer
import Parley.Writer.Task
