import AgentWire.Chat.Item
import AgentWire.Chat.Message
import AgentWire.Chat.Registry
import AgentWire.Chat.Response
import AgentWire.Chat.State
import AgentWire.Cli.Arguments
import AgentWire.Cli.Demonstration
import AgentWire.Cli.Invocation
import AgentWire.Cli.Report
import AgentWire.Cli.Transcript
import AgentWire.Client.Call
import AgentWire.Client.Config
import AgentWire.Client.Controller
import AgentWire.Client.Direct
import AgentWire.Client.Error
import AgentWire.Client.HttpLine
import AgentWire.Client.Identity
import AgentWire.Client.Inbound
import AgentWire.Client.Outbound
import AgentWire.Client.Rehearsal
import AgentWire.Client.Retry
import AgentWire.Client.Transport
import AgentWire.Client.Turn
import AgentWire.Clock
import AgentWire.Decimal.Binary64
import AgentWire.Decimal.Shortest
import AgentWire.Decimal.Word
import AgentWire.Dictionary
import AgentWire.Event.Basic
import AgentWire.Event.Decoder
import AgentWire.Http.Address
import AgentWire.Http.MediaType
import AgentWire.Http.Message
import AgentWire.Http.Origin
import AgentWire.Http.Query
import AgentWire.Http.Wire
import AgentWire.IdSupply
import AgentWire.Json.Basic
import AgentWire.Json.Decoder
import AgentWire.Json.Draft
import AgentWire.Json.Equality
import AgentWire.Json.Fault
import AgentWire.Json.Numeral
import AgentWire.Json.Reader
import AgentWire.Json.Record
import AgentWire.Json.Spelling
import AgentWire.Json.Writer
import AgentWire.Main
import AgentWire.Message
import AgentWire.Net.SocketAddress
import AgentWire.Patch
import AgentWire.Problem
import AgentWire.Proofs.Client.Session
import AgentWire.Proofs.Resume.Memory
import AgentWire.Proofs.Resume.Progress
import AgentWire.Resume.Files
import AgentWire.Resume.Folder
import AgentWire.Resume.Memory
import AgentWire.Resume.Progress
import AgentWire.Resume.Store
import AgentWire.Role
import AgentWire.RunInput
import AgentWire.Server.Agent
import AgentWire.Server.Archive
import AgentWire.Server.Config
import AgentWire.Server.Echo
import AgentWire.Server.Encoder
import AgentWire.Server.Error
import AgentWire.Server.EventStream
import AgentWire.Server.Intake
import AgentWire.Server.Recorder
import AgentWire.Server.RunLog
import AgentWire.Server.RunStore
import AgentWire.Server.Service
import AgentWire.Sse.Feed
import AgentWire.Sse.Reader
import AgentWire.Sse.Session
import AgentWire.Sse.Writer
import AgentWire.Text.Blank
import AgentWire.Text.Lines
import AgentWire.Text.Percent
import AgentWire.Text.Quoted
import AgentWire.Text.Split
import AgentWire.Text.Unprintable
import AgentWire.Text.Utf8
import AgentWire.Proofs.Client.Rehearsal
import AgentWire.Proofs.Client.WriteAhead
import AgentWire.Proofs.Client.ExactlyOnce
import AgentWire.Proofs.Json.Numeral
import AgentWire.Proofs.Json.Spelling
import AgentWire.Proofs.Text.Utf8
import AgentWire.Proofs.Json.Reader
import AgentWire.Proofs.Json.Decoder
import AgentWire.Proofs.Json.Record
import AgentWire.Proofs.Json.Document
import AgentWire.Proofs.Patch
import AgentWire.Proofs.Client.Inbound
import AgentWire.Proofs.Server.Arrival
import AgentWire.Proofs.Server.Encoder
import AgentWire.Proofs.Server.Acceptance
import AgentWire.Proofs.Server.Contents
import AgentWire.Proofs.Client.StreamSafety
import AgentWire.Proofs.Client.InboundHistory
import AgentWire.Proofs.Server.LiveTail
import AgentWire.Proofs.Text.Lines
import AgentWire.Proofs.Text.Percent
import AgentWire.Proofs.Json.Canonical
import AgentWire.Proofs.Json.Children
import AgentWire.Proofs.Json.Extent
import AgentWire.Proofs.Json.Distinct
import AgentWire.Proofs.Json.Writer
import AgentWire.Proofs.Event
import AgentWire.Proofs.Resume.Folder
import AgentWire.Proofs.Resume.Files
import AgentWire.Proofs.Resume.Store
import AgentWire.Proofs.Json.EarlyEnd
import AgentWire.Proofs.Resume.TornWrite
import AgentWire.Proofs.Client.SharedStore
import AgentWire.Proofs.Sse.Body
import AgentWire.Proofs.Server.RunStore
import AgentWire.Proofs.Server.Expiry
import AgentWire.Proofs.Client.TurnRounds
import AgentWire.Proofs.Client.CallSession
import AgentWire.Proofs.Client.Violation
import AgentWire.Proofs.Client.EnsembleSession
import AgentWire.Proofs.Client.Outbound
import AgentWire.Proofs.Client.NestedRequest
import AgentWire.Proofs.Client.SentBack
import AgentWire.Proofs.Client.Abandoned
import AgentWire.Proofs.Client.CallRehearsal
import AgentWire.Proofs.Client.EnsembleRehearsal
import AgentWire.Proofs.Client.RetryBudget
import AgentWire.Proofs.Client.Identity
import AgentWire.Proofs.Client.TurnIdentity
import AgentWire.Proofs.Event.RoundTrip
import AgentWire.Proofs.Json.Agreement
import AgentWire.Proofs.Event.Agreement
import AgentWire.Proofs.Chat.State
import AgentWire.Proofs.RunInput
import AgentWire.Proofs.Client.Request
import AgentWire.Proofs.Json.BegunAnew
import AgentWire.Proofs.Resume.AppendBehindTear
import AgentWire.Proofs.Sse.EarlyEnd
import AgentWire.Proofs.Server.Polling
import AgentWire.Proofs.Client.Conversion
import AgentWire.Proofs.Client.TurnHistory
import AgentWire.Proofs.Server.FailedEncode
import AgentWire.Proofs.Client.ArgumentPieces
import AgentWire.Proofs.Sse.Arrival
import AgentWire.Proofs.Chat.Grouping
import AgentWire.Proofs.Chat.Addressee
import AgentWire.Proofs.Client.StreamedText
import AgentWire.Proofs.Client.Retry
import AgentWire.Proofs.Client.Play
import AgentWire.Proofs.Client.Ledger
import AgentWire.Proofs.Client.Cancellation
