import HelperHandoff.Act
import HelperHandoff.Bytes
import HelperHandoff.Client
import HelperHandoff.Command
import HelperHandoff.Completion
import HelperHandoff.Config
import HelperHandoff.Counter.Guard
import HelperHandoff.Counter.Session
import HelperHandoff.Counter.Store
import HelperHandoff.Environment
import HelperHandoff.Errno
import HelperHandoff.Event
import HelperHandoff.ExitCode
import HelperHandoff.ExitStatus
import HelperHandoff.Handoff
import HelperHandoff.HandoffError
import HelperHandoff.Host.Basic
import HelperHandoff.Host.EndpointSession
import HelperHandoff.Host.Launch
import HelperHandoff.Host.Probe
import HelperHandoff.Host.Search
import HelperHandoff.Host.Shell.Arithmetic
import HelperHandoff.Host.Shell.Builtin
import HelperHandoff.Host.Shell.Children
import HelperHandoff.Host.Shell.Condition
import HelperHandoff.Host.Shell.Expansion
import HelperHandoff.Host.Shell.Format
import HelperHandoff.Host.Shell.Pattern
import HelperHandoff.Host.Shell.Process
import HelperHandoff.Host.Shell.Reader
import HelperHandoff.Host.Shell.Run
import HelperHandoff.Host.Shell.Script
import HelperHandoff.Host.Shell.Tool.Files
import HelperHandoff.Host.Shell.Tool.Options
import HelperHandoff.Host.Shell.Tool.Running
import HelperHandoff.Host.Shell.Tool.Text
import HelperHandoff.Host.Socket
import HelperHandoff.Host.Tree
import HelperHandoff.Invocation
import HelperHandoff.Invocation.Payload
import HelperHandoff.IoError
import HelperHandoff.Json.Printer
import HelperHandoff.Json.Reader
import HelperHandoff.Json.Value
import HelperHandoff.Locator
import HelperHandoff.Main
import HelperHandoff.Path
import HelperHandoff.PayloadProgram
import HelperHandoff.Phase
import HelperHandoff.Proofs.Completion.Agreement
import HelperHandoff.Proofs.Completion.Cleanup
import HelperHandoff.Proofs.Completion.Consistency
import HelperHandoff.Proofs.Completion.Delivery
import HelperHandoff.Proofs.Completion.Frame
import HelperHandoff.Proofs.Completion.Progress
import HelperHandoff.Proofs.Completion.Settlement
import HelperHandoff.Proofs.Completion.Steps
import HelperHandoff.Proofs.Counter.Store
import HelperHandoff.Proofs.Counter.Waiter
import HelperHandoff.Proofs.Environment
import HelperHandoff.Proofs.ExitCode
import HelperHandoff.Proofs.Handoff.Effects
import HelperHandoff.Proofs.Handoff.Requests
import HelperHandoff.Proofs.Handoff.Transcript
import HelperHandoff.Proofs.Invocation.Control
import HelperHandoff.Proofs.Invocation.Payload
import HelperHandoff.Proofs.Json.Grammar
import HelperHandoff.Proofs.Json.Numeral
import HelperHandoff.Proofs.Json.Printing
import HelperHandoff.Proofs.Json.Reading
import HelperHandoff.Proofs.Json.Strings
import HelperHandoff.Proofs.Locator
import HelperHandoff.Proofs.Text.Utf8
import HelperHandoff.Protocol
import HelperHandoff.Reaper
import HelperHandoff.Reaper.Course
import HelperHandoff.SortedMap
import HelperHandoff.Text.Blank
import HelperHandoff.Text.Latin1
import HelperHandoff.Text.Numeral
import HelperHandoff.Text.Utf8
import HelperHandoff.Transport
import HelperHandoff.Proofs.Invocation.Helper
import HelperHandoff.Proofs.Invocation.Agreement
import HelperHandoff.Crowd
import HelperHandoff.Proofs.Counter.Scope
import HelperHandoff.Proofs.Crowd.Steps
import HelperHandoff.Proofs.Crowd.Soundness
import HelperHandoff.Proofs.Crowd.Ledger
import HelperHandoff.Proofs.Counter.Likeness
import HelperHandoff.Proofs.Crowd.Likeness
import HelperHandoff.Proofs.Crowd.Isolation
import HelperHandoff.Proofs.Crowd.Session
import HelperHandoff.Proofs.Client
import HelperHandoff.Proofs.Completion.Relay
import HelperHandoff.Proofs.Handoff.Conduct
import HelperHandoff.Proofs.Locator.Policy
import HelperHandoff.Proofs.Transport
import HelperHandoff.Proofs.Completion.Removal
import HelperHandoff.Proofs.Completion.Signals
import HelperHandoff.Proofs.Invocation.Fidelity
import HelperHandoff.Proofs.Invocation.Lookup
import HelperHandoff.Proofs.Environment.Readings
import HelperHandoff.Proofs.Invocation.Capture
import HelperHandoff.Proofs.Text.Numeral
import HelperHandoff.Proofs.Config
import HelperHandoff.Proofs.Counter.Request
import HelperHandoff.Proofs.Counter.Passage
import HelperHandoff.Proofs.Reaper
import HelperHandoff.Proofs.Crowd.Broadcast
import HelperHandoff.Proofs.Host.Regular
import HelperHandoff.Proofs.PayloadProgram
