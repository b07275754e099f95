import Chute.Protocol
import Chute.Lib.Transition
import Chute.Lib.Lane
import Chute.Lib.Registry
import Chute.Lib.Tally
import Chute.Lib.ReverseIndex
import Chute.Lib.Lines
import Chute.Lib.Pairing
import Chute.Lib.Window
import Chute.Lib.Pacing
import Chute.Lib.Shelf
import Chute.Mux.Basic
import Chute.Mux.Run
import Chute.Mux.Teardown
import Chute.Mux.Sending
import Chute.Mux.Accounting
import Chute.Mux.Steps
import Chute.Mux.Emits
import Chute.Mux.Balance
import Chute.Mux.Ignored
import Chute.Mux.Terminal
import Chute.Mux.Says
import Chute.Mux.Doomed
import Chute.Mux.Ready
import Chute.Mux.Discipline
import Chute.Mux.Wellformed
import Chute.Mux.Moves
import Chute.Mux.Drain
import Chute.Mux.Orphans
import Chute.Mux.Listens
import Chute.Mux.Counters
import Chute.Relay.Accounts
import Chute.Relay.Pumps
import Chute.Relay.Visit
import Chute.Relay.Traffic
import Chute.Relay.Truncation
import Chute.Relay.Backlog
import Chute.Pair.Basic
import Chute.Pair.Wire
import Chute.Pair.Lanes
import Chute.Pair.Simulation
import Chute.Pair.Credit
import Chute.Pair.Delivery
import Chute.Pair.Rounds
import Chute.Pair.Backstops
import Chute.Pair.Late
import Chute.Server.Values
import Chute.Server.Basic
import Chute.Server.Serve
import Chute.Server.Roster
import Chute.Server.Refinement
import Chute.Server.Revocation
import Chute.Server.Coherence
import Chute.Server.Takeover
import Chute.Server.Caps
import Chute.Server.Permanence
import Chute.Server.Visitors
import Chute.Server.Tasks
import Chute.Server.Keeps
import Chute.Server.Renewal
import Chute.Server.Reconnect
import Chute.Server.Slots
import Chute.Server.Source
import Chute.Server.Edge
import Chute.Server.Scope
import Chute.Server.Strands
import Chute.Server.Overrides
import Chute.Server.Scan
import Chute.Server.Policy
import Chute.Server.Courses
import Chute.Server.Arrivals
import Chute.Server.Endings
import Chute.Server.Events
import Chute.Server.Queue
import Chute.Server.Lifecycle
import Chute.Server.Metrics
import Chute.Server.Grants
import Chute.Server.Tenure
import Chute.Server.Attempts
import Chute.Server.Bandwidth
import Chute.Server.Calls
import Chute.Json
import Chute.Control.Policy
import Chute.Control.StaticPolicy
import Chute.Control.Relay
import Chute.Control.Credentials
import Chute.Control.Reserved
import Chute.Control.Leases
import Chute.Control.Update
import Chute.Control.Budgets
import Chute.Control.Serving
import Chute.Control.Reload
import Chute.Head.Basic
import Chute.Head.Lenient
import Chute.Head.Host
import Chute.Head.Routing
import Chute.Names
import Chute.Server.Routing
import Chute.EventLog.Basic
import Chute.EventLog.Rotation
import Chute.EventLog.Refusal
import Chute.Client.Backoff
import Chute.Handshake.Hello
import Chute.Handshake.Port
import Chute.Handshake.Limiter
import Chute.Handshake.Slots
import Chute.Handshake.Meeting
import Chute.Handshake.Agreement
import Chute.Handshake.Tokens
import Chute.Transit.Handler
import Chute.Transit.Owner
import Chute.Transit.Fine
import Chute.Transit.Conduit
import Chute.Transit.Transparency
import Chute.Transit.Flow
import Chute.Transit.Fate
import Chute.Transit.Endings
import Chute.Transit.Duty
import Chute.Transit.Waiting
import Chute.Transit.Progress
