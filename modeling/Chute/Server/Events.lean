import Chute.Server.Courses

/-!
# Lifecycle events

The calls of `_emit_event` and the queue in front of the event sink. Each call is part of
the step of the task that makes it, except the one for an opening: a required sink is
awaited there. What the payload of an event says besides which connection and which
stream it is about plays no part in this. The log keeps the calls that are over.
-/
namespace Chute

/-- `_EVENT_COUNT_METHODS` -/
inductive EventMethod
  | tunnelOpened
  | tunnelClosed
  | visitorOpened
  | visitorClosed
  | authRejected
  | visitorRejected
  | relayStats
  deriving DecidableEq, Repr

inductive LifecycleEvent
  | tunnelOpened (connection : Nat)
  | tunnelClosed (connection : Nat)
  | visitorOpened (connection : Nat) (stream : StreamId)
  | visitorClosed (connection : Nat) (stream : StreamId)
  | authRejected
  | visitorRejected
  | relayStats
  deriving DecidableEq, Repr

def LifecycleEvent.method : LifecycleEvent → EventMethod
  | tunnelOpened _ => .tunnelOpened
  | tunnelClosed _ => .tunnelClosed
  | visitorOpened _ _ => .visitorOpened
  | visitorClosed _ _ => .visitorClosed
  | authRejected => .authRejected
  | visitorRejected => .visitorRejected
  | relayStats => .relayStats

/-- `_QueuedEvent` -/
structure QueuedEvent where
  event : LifecycleEvent
  attempts : Nat
  deriving DecidableEq, Repr

/-- `_EVENT_QUEUE_MAX` and `_EVENT_RETRY_ATTEMPTS` -/
def eventQueueMax : Nat := 1024

def eventRetryAttempts : Nat := 3

/-- Where `_run_event_queue` is. -/
inductive EventWorker
  | getting
  | sending (item : QueuedEvent)
  /-- In the sleep before a retry. -/
  | waiting (item : QueuedEvent)
  deriving DecidableEq, Repr

structure Events where
  /-- The sink is a `NoopEventSink`. -/
  noop : Bool
  /-- `require_event_sink` -/
  required : Bool
  generated : EventMethod → Nat
  queue : List QueuedEvent
  enqueued : Nat
  delivered : Nat
  retried : Nat
  dropped : Nat
  worker : EventWorker

namespace Events

def start (noop required : Bool) : Events :=
  ⟨noop, required, fun _ => 0, [], 0, 0, 0, 0, .getting⟩

/-- `put_nowait`, `none` where it raises `QueueFull`. -/
def putNowait (e : Events) (item : QueuedEvent) : Option Events :=
  if e.queue.length < eventQueueMax then some { e with queue := e.queue ++ [item] } else none

/-- The first lines of `_emit_event`. -/
def generate (e : Events) (method : EventMethod) : Events :=
  { e with generated := Function.update e.generated method (e.generated method + 1) }

def enqueue (e : Events) (event : LifecycleEvent) : Bool × Events :=
  match e.putNowait ⟨event, 0⟩ with
  | none => (false, { e with dropped := e.dropped + 1 })
  | some e => (true, { e with enqueued := e.enqueued + 1 })

/-- `_emit_event` of an event that is not required. -/
def emitEvent (e : Events) (event : LifecycleEvent) : Bool × Events :=
  let e := e.generate event.method
  if e.noop then (true, e) else e.enqueue event

/-- `_emit_event` of an opening after its first lines: what it returns, `none` where
`_send_event_now` raises; `sent` is whether a required sink has taken the event. -/
def emitOpened (e : Events) (event : LifecycleEvent) (sent : Bool) : Option Bool × Events :=
  if e.noop then (some true, e)
  else if e.required then (if sent then some true else none, e)
  else
    let (taken, e) := e.enqueue event
    (some taken, e)

/-- `get` returns. -/
def workerGet (e : Events) : Option Events :=
  match e.worker, e.queue with
  | .getting, item :: rest => some { e with worker := .sending item, queue := rest }
  | _, _ => none

/-- `_send_event_now` returns. -/
def workerSent (e : Events) (delivered : Bool) : Option Events :=
  match e.worker with
  | .sending item =>
    if delivered then some { e with worker := .getting, delivered := e.delivered + 1 }
    else if item.attempts + 1 ≥ eventRetryAttempts then
      some { e with worker := .getting, dropped := e.dropped + 1 }
    else some { e with worker := .waiting item }
  | _ => none

/-- The sleep before a retry is over. -/
def workerRetry (e : Events) : Option Events :=
  match e.worker with
  | .waiting item =>
    some <| match e.putNowait { item with attempts := item.attempts + 1 } with
      | none => { e with worker := .getting, dropped := e.dropped + 1 }
      | some e => { e with worker := .getting, retried := e.retried + 1 }
  | _ => none

end Events

/-- A call of `_emit_event` that is over; it raised where it returned `none`. -/
structure EmittedEvent where
  event : LifecycleEvent
  returned : Option Bool
  deriving DecidableEq, Repr

/-- A relay with its event sink and with what its other tasks count. -/
structure Observed where
  server : Server
  events : Events
  /-- `visitor_opened` of each visitor. -/
  visitorOpened : Nat → Bool
  emitted : List EmittedEvent
  controlBusy : Nat
  visitorPoolBusy : Nat
  visitorIpLimited : Nat
  relayBytesToAgent : Nat
  relayBytesToVisitor : Nat
  policyUpdatePollFailures : Nat

namespace Observed

def start (config : ServerConfig) (noop required : Bool) (now monotonic : ℚ) : Observed where
  server := Server.start config now monotonic
  events := Events.start noop required
  visitorOpened := fun _ => false
  emitted := []
  controlBusy := 0
  visitorPoolBusy := 0
  visitorIpLimited := 0
  relayBytesToAgent := 0
  relayBytesToVisitor := 0
  policyUpdatePollFailures := 0

/-- A best-effort call of `_emit_event`. -/
def emitEvent (o : Observed) (event : LifecycleEvent) : Bool × Observed :=
  let (taken, events) := o.events.emitEvent event
  (taken, { o with events := events, emitted := o.emitted ++ [⟨event, some taken⟩] })

/-! ### The events of the relay's steps -/

/-- `_emit_auth_rejected` of a claim that was rejected; an expired lease is closed without it. -/
def emitClaim (o : Observed) (i : Nat) : Observed :=
  match o.server.phase? i with
  | some (.over_ _ (.rejected r)) =>
    if r = .leaseExpired then o else (o.emitEvent .authRejected).2
  | _ => o

/-- `if opened_emitted` at the end of `_serve_agent`, which has four such places. -/
def emitTunnelClosed (o : Observed) (i : Nat) : Observed :=
  match o.server.phase? i with
  | some (.over_ true _) => (o.emitEvent (.tunnelClosed i)).2
  | _ => o

/-- The call for an opening has begun. -/
def beginTunnelOpened (o : Observed) (i : Nat) : Observed :=
  match o.server.phase? i with
  | some .emitting => { o with events := o.events.generate .tunnelOpened }
  | _ => o

def emitVisitorOpened (o : Observed) (v : Nat) : Observed :=
  match o.server.visitors[v]? with
  | some visitor =>
    let (taken, o) := o.emitEvent (.visitorOpened visitor.connection visitor.stream.sid)
    { o with visitorOpened := Function.update o.visitorOpened v taken }
  | none => o

def emitVisitorClosed (o : Observed) (v : Nat) : Observed :=
  match o.server.visitors[v]? with
  | some visitor =>
    if o.visitorOpened v then
      (o.emitEvent (.visitorClosed visitor.connection visitor.stream.sid)).2
    else o
  | none => o

end Observed

/-- The visitor is told that there is no tunnel, or that the account has no slot left. -/
def Server.turnsAway (s : Server) (label : String) : Bool :=
  match s.selectAgentForVisitor label with
  | (none, _) => true
  | (some (_, reg), s) => (s.tryAcquireVisitorBudget reg).isNone

namespace Observed

/-- What follows a step of the relay before its task gives way. -/
def emitAfter (o : Observed) (a : Server.Action) (s : Server) : Observed :=
  let next := { o with server := s }
  match a with
  | .claim i _ => next.emitClaim i
  | .check i => next.beginTunnelOpened i
  | .recheck i => next.emitTunnelClosed i
  | .drop i => next.emitTunnelClosed i
  | .install i => next.emitTunnelClosed i
  | .deregister i => next.emitTunnelClosed i
  | .visit label _ => if o.server.turnsAway label then (next.emitEvent .visitorRejected).2 else next
  | .visitorOpened v => next.emitVisitorOpened v
  | .visitorLeft v => next.emitVisitorClosed v
  | _ => next

inductive Action
  /-- A step of the relay, but for the end of an opening's `_emit_event`. -/
  | server (a : Server.Action)
  | tunnelOpened (i : Nat) (sent : Bool)
  /-- A handshake is refused before its claim. -/
  | authRejected
  | logStats
  | workerGet
  | workerSent (delivered : Bool)
  | workerRetry
  | controlBusy
  /-- A handshake or a policy poll finds no room for its call. -/
  | authBusy
  | pollFailed
  | visitorPoolBusy
  | visitorIpLimited
  | relayedToAgent (v n : Nat)
  | relayedToVisitor (v n : Nat)

/-- The relay of this visitor runs. -/
def relays (o : Observed) (v : Nat) : Bool :=
  (o.server.visitors[v]?).any fun visitor => visitor.phase == .relaying

def step (o : Observed) : Action → Option Observed
  | .server (.opened _ _) => none
  | .server a => (o.server.step a).map (o.emitAfter a)
  | .tunnelOpened i sent =>
    let (returned, events) := o.events.emitOpened (.tunnelOpened i) sent
    (o.server.step (.opened i returned)).map fun s =>
      { o with
        server := s
        events := events
        emitted := o.emitted ++ [⟨.tunnelOpened i, returned⟩] }
  | .authRejected => some (o.emitEvent .authRejected).2
  | .logStats => if o.server.agents.keys = [] then none else some (o.emitEvent .relayStats).2
  | .workerGet => o.events.workerGet.map fun events => { o with events := events }
  | .workerSent delivered => (o.events.workerSent delivered).map fun events => { o with events := events }
  | .workerRetry => o.events.workerRetry.map fun events => { o with events := events }
  | .controlBusy => some { o with controlBusy := o.controlBusy + 1 }
  | .authBusy => some { o with server := { o.server with authBusy := o.server.authBusy + 1 } }
  | .pollFailed => some { o with policyUpdatePollFailures := o.policyUpdatePollFailures + 1 }
  | .visitorPoolBusy => some { o with visitorPoolBusy := o.visitorPoolBusy + 1 }
  | .visitorIpLimited => some { o with visitorIpLimited := o.visitorIpLimited + 1 }
  | .relayedToAgent v n =>
    if o.relays v then some { o with relayBytesToAgent := o.relayBytesToAgent + n } else none
  | .relayedToVisitor v n =>
    if o.relays v then some { o with relayBytesToVisitor := o.relayBytesToVisitor + n } else none

end Observed

end Chute
