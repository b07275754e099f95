import Chute.Lib.Registry
import Chute.Server.Lifecycle

/-!
# Exported counters

What `/metrics` renders with the type counter. Most counters belong to the relay and only
grow; those of the streams are added up over the connections that are registered when they
are read, so a connection that leaves takes what it has counted with it.
-/
namespace Chute

/-- The counters of `RelayStatsEvent`. -/
structure RelayStats where
  controlBusy : Nat
  authBusy : Nat
  visitorPoolBusy : Nat
  visitorIpLimited : Nat
  openedStreams : Nat
  resetStreams : Nat
  resetPeerStreams : Nat
  creditStalls : Nat
  writeStalls : Nat
  bytesToAgent : Nat
  bytesToVisitor : Nat
  policyUpdatePollFailures : Nat
  policyUpdatesApplied : Nat
  policyUpdatesRejected : Nat
  leaseRenewalsSucceeded : Nat
  leaseRenewalsFailed : Nat
  leaseRenewalsInvalid : Nat
  leaseRenewalsRevoked : Nat
  leaseRevocations : Nat
  leaseExpirations : Nat
  eventTunnelOpenedGenerated : Nat
  eventTunnelClosedGenerated : Nat
  eventVisitorOpenedGenerated : Nat
  eventVisitorClosedGenerated : Nat
  eventAuthRejectedGenerated : Nat
  eventVisitorRejectedGenerated : Nat
  eventRelayStatsGenerated : Nat
  eventQueueEnqueued : Nat
  eventQueueDelivered : Nat
  eventQueueRetried : Nat
  eventQueueDropped : Nat

structure Metric where
  name : String
  help : String
  value : Nat
  deriving DecidableEq, Repr

/-- The same metric, and not a smaller value. -/
def Metric.Le (earlier later : Metric) : Prop :=
  earlier.name = later.name ∧ earlier.value ≤ later.value

namespace Server

/-- `_live_muxes` -/
def liveMuxes (s : Server) : List Mux :=
  s.agents.entries.filterMap fun e => (s.registration? e.2).map TunnelRegistration.mux

/-- What the multiplexers that are registered have counted of one thing. -/
def agg (s : Server) (counter : Mux → Nat) : Nat := (s.liveMuxes.map counter).sum

end Server

namespace Observed

/-- `_collect_relay_stats` -/
def collectRelayStats (o : Observed) : RelayStats where
  controlBusy := o.controlBusy
  authBusy := o.server.authBusy
  visitorPoolBusy := o.visitorPoolBusy
  visitorIpLimited := o.visitorIpLimited
  openedStreams := o.server.agg (·.stats.opened)
  resetStreams := o.server.agg (·.stats.resetLocal) + o.server.agg (·.stats.resetPeer)
  resetPeerStreams := o.server.agg (·.stats.resetPeer)
  creditStalls := o.server.agg (·.stats.creditStall)
  writeStalls := o.server.agg (·.stats.writeStall)
  bytesToAgent := o.relayBytesToAgent
  bytesToVisitor := o.relayBytesToVisitor
  policyUpdatePollFailures := o.policyUpdatePollFailures
  policyUpdatesApplied := o.server.policyUpdatesApplied
  policyUpdatesRejected := o.server.policyUpdatesRejected
  leaseRenewalsSucceeded := o.server.leaseRenewalsSucceeded
  leaseRenewalsFailed := o.server.leaseRenewalsFailed
  leaseRenewalsInvalid := o.server.leaseRenewalsInvalid
  leaseRenewalsRevoked := o.server.leaseRenewalsRevoked
  leaseRevocations := o.server.leaseRevocations
  leaseExpirations := o.server.leaseExpirations
  eventTunnelOpenedGenerated := o.events.generated .tunnelOpened
  eventTunnelClosedGenerated := o.events.generated .tunnelClosed
  eventVisitorOpenedGenerated := o.events.generated .visitorOpened
  eventVisitorClosedGenerated := o.events.generated .visitorClosed
  eventAuthRejectedGenerated := o.events.generated .authRejected
  eventVisitorRejectedGenerated := o.events.generated .visitorRejected
  eventRelayStatsGenerated := o.events.generated .relayStats
  eventQueueEnqueued := o.events.enqueued
  eventQueueDelivered := o.events.delivered
  eventQueueRetried := o.events.retried
  eventQueueDropped := o.events.dropped

/-- The metrics of `_render_prometheus_metrics` whose type is counter. -/
def counterMetrics (stats : RelayStats) : List Metric :=
  [⟨"chute_control_busy_total",
      "Control handshakes rejected because the control pool was busy.", stats.controlBusy⟩,
   ⟨"chute_auth_busy_total",
      "Auth/control-plane operations skipped or rejected because the auth pool was busy.",
      stats.authBusy⟩,
   ⟨"chute_visitor_pool_busy_total",
      "Visitor connections rejected because the visitor pool was busy.", stats.visitorPoolBusy⟩,
   ⟨"chute_visitor_ip_limited_total",
      "Visitor connections rejected by the direct source-bucket limit.", stats.visitorIpLimited⟩,
   ⟨"chute_opened_streams_total",
      "Mux streams opened since process start.", stats.openedStreams⟩,
   ⟨"chute_reset_streams_total",
      "Mux streams reset locally or by the peer since process start.", stats.resetStreams⟩,
   ⟨"chute_reset_peer_streams_total",
      "Mux streams reset by the peer since process start.", stats.resetPeerStreams⟩,
   ⟨"chute_credit_stalls_total",
      "Credit-stall stream resets since process start.", stats.creditStalls⟩,
   ⟨"chute_write_stalls_total",
      "Connection write stalls since process start.", stats.writeStalls⟩,
   ⟨"chute_bytes_to_agent_total",
      "Payload bytes forwarded from visitors to agents since process start.", stats.bytesToAgent⟩,
   ⟨"chute_bytes_to_visitor_total",
      "Payload bytes forwarded from agents to visitors since process start.", stats.bytesToVisitor⟩,
   ⟨"chute_policy_update_poll_failures_total",
      "Control-plane policy update polls that failed since process start.",
      stats.policyUpdatePollFailures⟩,
   ⟨"chute_policy_updates_applied_total",
      "Control-plane policy updates applied since process start.", stats.policyUpdatesApplied⟩,
   ⟨"chute_policy_updates_rejected_total",
      "Control-plane policy updates rejected as invalid since process start.",
      stats.policyUpdatesRejected⟩,
   ⟨"chute_lease_renewals_succeeded_total",
      "Lease renewal calls that returned a valid renewed lease since process start.",
      stats.leaseRenewalsSucceeded⟩,
   ⟨"chute_lease_renewals_failed_total",
      "Lease renewal calls that failed or timed out since process start.", stats.leaseRenewalsFailed⟩,
   ⟨"chute_lease_renewals_invalid_total",
      "Lease renewal calls that returned invalid leases since process start.",
      stats.leaseRenewalsInvalid⟩,
   ⟨"chute_lease_renewals_revoked_total",
      "Lease renewal calls that explicitly revoked a lease since process start.",
      stats.leaseRenewalsRevoked⟩,
   ⟨"chute_lease_revocations_total",
      "Registered tunnels retired because their lease was revoked since process start.",
      stats.leaseRevocations⟩,
   ⟨"chute_lease_expirations_total",
      "Registered tunnels retired because their lease expired since process start.",
      stats.leaseExpirations⟩,
   ⟨"chute_event_tunnel_opened_generated_total",
      "Tunnel-opened lifecycle events generated since process start.",
      stats.eventTunnelOpenedGenerated⟩,
   ⟨"chute_event_tunnel_closed_generated_total",
      "Tunnel-closed lifecycle events generated since process start.",
      stats.eventTunnelClosedGenerated⟩,
   ⟨"chute_event_visitor_opened_generated_total",
      "Visitor-opened lifecycle events generated since process start.",
      stats.eventVisitorOpenedGenerated⟩,
   ⟨"chute_event_visitor_closed_generated_total",
      "Visitor-closed lifecycle events generated since process start.",
      stats.eventVisitorClosedGenerated⟩,
   ⟨"chute_event_auth_rejected_generated_total",
      "Auth-rejected audit events generated since process start.", stats.eventAuthRejectedGenerated⟩,
   ⟨"chute_event_visitor_rejected_generated_total",
      "Visitor-rejected audit events generated since process start.",
      stats.eventVisitorRejectedGenerated⟩,
   ⟨"chute_event_relay_stats_generated_total",
      "Relay-stats events generated since process start.", stats.eventRelayStatsGenerated⟩,
   ⟨"chute_event_queue_enqueued_total",
      "Best-effort event sink items enqueued since process start.", stats.eventQueueEnqueued⟩,
   ⟨"chute_event_queue_delivered_total",
      "Best-effort event sink items delivered since process start.", stats.eventQueueDelivered⟩,
   ⟨"chute_event_queue_retried_total",
      "Best-effort event sink retry attempts requeued since process start.", stats.eventQueueRetried⟩,
   ⟨"chute_event_queue_dropped_total",
      "Best-effort event sink items dropped since process start.", stats.eventQueueDropped⟩]

/-- The counters of one scrape. -/
def scrape (o : Observed) : List Metric := counterMetrics o.collectRelayStats

end Observed

/-! ### What a multiplexer has counted -/

/-- It has counted nothing that is exported. -/
def Mux.Idle (m : Mux) : Prop :=
  m.stats.opened = 0 ∧ m.stats.resetLocal = 0 ∧ m.stats.resetPeer = 0 ∧ m.stats.creditStall = 0 ∧
    m.stats.writeStall = 0

/-- A count that grows with its multiplexer, from nothing. -/
structure Mux.Exported (counter : Mux → Nat) : Prop where
  grows : ∀ m m' : Mux, m.Grows m' → counter m ≤ counter m'
  idle : ∀ m : Mux, m.Idle → counter m = 0

namespace Server

variable {s s' : Server} {counter : Mux → Nat}

/-- The count of one connection. -/
def counted (s : Server) (counter : Mux → Nat) (i : Nat) : Nat :=
  ((s.registration? i).map fun reg => counter reg.mux).getD 0

theorem agg_eq (s : Server) (counter : Mux → Nat) :
    s.agg counter = AList.sumBy (fun _ i => s.counted counter i) s.agents := by
  unfold agg liveMuxes AList.sumBy
  induction s.agents.entries with
  | nil => rfl
  | cons e rest ih =>
    rw [List.map_cons, List.sum_cons, ← ih]
    cases known : s.registration? e.2 with
    | none => simp [known, counted]
    | some reg => simp [known, counted]

theorem counted_of_course {i : Nat} {p : Phase} {m : Mux} (found : s.courses[i]? = some (p, some m)) :
    s.counted counter i = counter m := by
  obtain ⟨c, here, -, registered⟩ := found_course.mp found
  obtain ⟨reg, known, rfl⟩ := Option.map_eq_some_iff.mp registered
  simp [counted, registration?, here, known]

/-- What a connection has counted only grows, whether it is registered or not. -/
theorem counted_le (exported : Mux.Exported counter) (fresh : s.Fresh) {a : Action}
    (moved : s.step a = some s') (i : Nat) : s.counted counter i ≤ s'.counted counter i := by
  cases known : s.registration? i with
  | none => simp [counted, known]
  | some reg =>
    obtain ⟨c, here, registered⟩ := Option.bind_eq_some_iff.mp known
    have found : s.courses[i]? = some (c.phase, some reg.mux) :=
      found_course.mpr ⟨c, here, rfl, by rw [registered]; rfl⟩
    obtain ⟨q, m', after, grows⟩ := fresh.grows moved found
    rw [counted_of_course found, counted_of_course after]
    exact exported.grows _ _ grows

/-- The total grows too, unless a connection leaves that has counted something. -/
theorem agg_le (exported : Mux.Exported counter) (grown : ∀ i, s.counted counter i ≤ s'.counted counter i)
    (kept : ∀ label i reg, s.agents.lookup label = some i → s.registration? i = some reg →
      s'.agents.lookup label = some i ∨ reg.mux.Idle) : s.agg counter ≤ s'.agg counter := by
  rw [agg_eq, agg_eq]
  refine AList.sumBy_mono fun label i serves => ?_
  cases known : s.registration? i with
  | none => exact Or.inl (by simp [counted, known])
  | some reg =>
    rcases kept label i reg serves known with stays | idle
    · exact Or.inr ⟨stays, grown i⟩
    · exact Or.inl (by simp [counted, known, exported.idle _ idle])

end Server

/-! ### What the event queue has counted -/

/-- No counter of the event queue is smaller. -/
structure Events.Later (e e' : Events) : Prop where
  generated : ∀ method, e.generated method ≤ e'.generated method
  enqueued : e.enqueued ≤ e'.enqueued
  delivered : e.delivered ≤ e'.delivered
  retried : e.retried ≤ e'.retried
  dropped : e.dropped ≤ e'.dropped

namespace Events

variable {e e' e'' : Events}

theorem Later.refl (e : Events) : Later e e := ⟨fun _ => le_rfl, le_rfl, le_rfl, le_rfl, le_rfl⟩

theorem Later.trans (first : Later e e') (second : Later e' e'') : Later e e'' :=
  ⟨fun method => (first.generated method).trans (second.generated method), first.enqueued.trans second.enqueued,
    first.delivered.trans second.delivered, first.retried.trans second.retried,
    first.dropped.trans second.dropped⟩

theorem later_generate (e : Events) (method : EventMethod) : Later e (e.generate method) := by
  refine ⟨fun other => ?_, le_rfl, le_rfl, le_rfl, le_rfl⟩
  simp only [generate, Function.update_apply]
  split
  next same =>
    rw [same]
    exact Nat.le_succ _
  · exact le_rfl

theorem putNowait_eq {item : QueuedEvent} (put : e.putNowait item = some e') :
    e' = { e with queue := e.queue ++ [item] } := by
  unfold putNowait at put
  split at put <;> cases put
  rfl

theorem later_enqueue (e : Events) (event : LifecycleEvent) : Later e (e.enqueue event).2 := by
  unfold enqueue
  split
  · exact ⟨fun _ => le_rfl, le_rfl, le_rfl, le_rfl, Nat.le_succ _⟩
  next put =>
    rw [putNowait_eq put]
    exact ⟨fun _ => le_rfl, Nat.le_succ _, le_rfl, le_rfl, le_rfl⟩

theorem later_emitEvent (e : Events) (event : LifecycleEvent) : Later e (e.emitEvent event).2 := by
  unfold emitEvent
  simp only
  split
  · exact later_generate e event.method
  · exact (later_generate e event.method).trans (later_enqueue _ event)

theorem later_emitOpened (e : Events) (event : LifecycleEvent) (sent : Bool) :
    Later e (e.emitOpened event sent).2 := by
  unfold emitOpened
  split
  · exact .refl e
  · split
    · exact .refl e
    · exact later_enqueue e event

theorem later_workerGet (got : e.workerGet = some e') : Later e e' := by
  unfold workerGet at got
  split at got
  · cases got
    exact ⟨fun _ => le_rfl, le_rfl, le_rfl, le_rfl, le_rfl⟩
  · cases got

theorem later_workerSent {delivered : Bool} (sent : e.workerSent delivered = some e') : Later e e' := by
  unfold workerSent at sent
  split at sent
  · split at sent
    · cases sent
      exact ⟨fun _ => le_rfl, le_rfl, Nat.le_succ _, le_rfl, le_rfl⟩
    · split at sent
      · cases sent
        exact ⟨fun _ => le_rfl, le_rfl, le_rfl, le_rfl, Nat.le_succ _⟩
      · cases sent
        exact ⟨fun _ => le_rfl, le_rfl, le_rfl, le_rfl, le_rfl⟩
  · cases sent

theorem later_workerRetry (retried : e.workerRetry = some e') : Later e e' := by
  unfold workerRetry at retried
  split at retried
  · cases retried
    split
    · exact ⟨fun _ => le_rfl, le_rfl, le_rfl, le_rfl, Nat.le_succ _⟩
    next put =>
      rw [putNowait_eq put]
      exact ⟨fun _ => le_rfl, le_rfl, le_rfl, Nat.le_succ _, le_rfl⟩
  · cases retried

end Events

namespace Observed

variable {o o' o'' : Observed}

/-- The counters that no registration keeps. -/
def own (o : Observed) : Nat × Nat × Nat × Nat × Nat × Nat :=
  (o.controlBusy, o.visitorPoolBusy, o.visitorIpLimited, o.relayBytesToAgent, o.relayBytesToVisitor,
    o.policyUpdatePollFailures)

/-- No exported counter is smaller. -/
structure Later (o o' : Observed) : Prop where
  agg : ∀ counter, Mux.Exported counter → o.server.agg counter ≤ o'.server.agg counter
  tallies : o.server.tallies ≤ o'.server.tallies
  events : Events.Later o.events o'.events
  own : o.own ≤ o'.own

theorem Later.refl (o : Observed) : Later o o := ⟨fun _ _ => le_rfl, le_rfl, .refl _, le_rfl⟩

theorem Later.trans (first : Later o o') (second : Later o' o'') : Later o o'' :=
  ⟨fun counter exported => (first.agg counter exported).trans (second.agg counter exported),
    first.tallies.trans second.tallies, first.events.trans second.events, first.own.trans second.own⟩

theorem Later.scrape (later : Later o o') : List.Forall₂ Metric.Le o.scrape o'.scrape := by
  have opened := later.agg (·.stats.opened) ⟨fun _ _ grows => grows.opened, fun _ idle => idle.1⟩
  have resetLocal := later.agg (·.stats.resetLocal)
    ⟨fun _ _ grows => grows.resetLocal, fun _ idle => idle.2.1⟩
  have resetPeer := later.agg (·.stats.resetPeer)
    ⟨fun _ _ grows => grows.resetPeer, fun _ idle => idle.2.2.1⟩
  have creditStall := later.agg (·.stats.creditStall)
    ⟨fun _ _ grows => grows.creditStall, fun _ idle => idle.2.2.2.1⟩
  have writeStall := later.agg (·.stats.writeStall)
    ⟨fun _ _ grows => grows.writeStall, fun _ idle => idle.2.2.2.2⟩
  obtain ⟨authBusy, applied, rejected, succeeded, failed, invalid, revoked, revocations, expirations⟩ :=
    later.tallies
  obtain ⟨controlBusy, visitorPoolBusy, visitorIpLimited, toAgent, toVisitor, pollFailures⟩ := later.own
  obtain ⟨generated, enqueued, delivered, retried, dropped⟩ := later.events
  simp only [Observed.scrape, counterMetrics, collectRelayStats, List.forall₂_cons, Metric.Le, true_and,
    List.forall₂_nil_left_iff, and_true]
  exact ⟨controlBusy, authBusy, visitorPoolBusy, visitorIpLimited, opened, Nat.add_le_add resetLocal resetPeer,
    resetPeer, creditStall, writeStall, toAgent, toVisitor, pollFailures, applied, rejected, succeeded, failed,
    invalid, revoked, revocations, expirations, generated _, generated _, generated _, generated _, generated _,
    generated _, generated _, enqueued, delivered, retried, dropped⟩

/-- The step takes no registration out of `_agents` whose multiplexer has counted something. -/
def Keeps (o : Observed) (a : Action) : Prop :=
  ∀ o', o.step a = some o' → ∀ label i reg, o.server.agents.lookup label = some i →
    o.server.registration? i = some reg → o'.server.agents.lookup label = some i ∨ reg.mux.Idle

/-- A step of the relay that ends, retires or supersedes no registration that has counted something. -/
theorem keeps_of_spared (coherent : o.server.Coherent) {b : Server.Action}
    (spared : ∀ label i reg, o.server.registration? i = some reg → o.server.Unroutes label i b → reg.mux.Idle) :
    o.Keeps (.server b) := by
  intro o' moved label i reg serves known
  by_cases unroutes : o.server.Unroutes label i b
  · exact Or.inr (spared label i reg known unroutes)
  · by_cases opens : ∃ j result, b = .opened j result
    · obtain ⟨j, result, rfl⟩ := opens
      cases moved
    · obtain ⟨s, stepped, rfl⟩ := Option.map_eq_some_iff.mp ((step_server fun j result same =>
        opens ⟨j, result, same⟩).symm.trans moved)
      rw [server_emitAfter]
      exact Or.inl (coherent.keeps_route stepped serves unroutes)

/-- What follows a step only adds to what is counted. -/
theorem later_emitAfter (o : Observed) (a : Server.Action) (s : Server) :
    Events.Later o.events (o.emitAfter a s).events ∧ (o.emitAfter a s).own = o.own := by
  have said : ∀ event, Events.Later o.events (emitEvent { o with server := s } event).2.events ∧
      (emitEvent { o with server := s } event).2.own = o.own :=
    fun event => ⟨Events.later_emitEvent o.events event, rfl⟩
  have silent : Events.Later o.events o.events ∧ o.own = o.own := ⟨.refl _, rfl⟩
  unfold emitAfter
  cases a with
  | claim i =>
    simp only [emitClaim]
    split
    · split
      · exact silent
      · exact said .authRejected
    · exact silent
  | check i =>
    simp only [beginTunnelOpened]
    split
    · exact ⟨Events.later_generate o.events .tunnelOpened, rfl⟩
    · exact silent
  | recheck i | drop i | install i | deregister i =>
    simp only [emitTunnelClosed]
    split
    · exact said (.tunnelClosed i)
    · exact silent
  | visit label sent =>
    simp only
    split
    · exact said .visitorRejected
    · exact silent
  | visitorOpened v =>
    simp only [emitVisitorOpened]
    split
    next visitor _ => exact said (.visitorOpened visitor.connection visitor.stream.sid)
    · exact silent
  | visitorLeft v =>
    simp only [emitVisitorClosed]
    split
    next visitor _ =>
      split
      · exact said (.visitorClosed visitor.connection visitor.stream.sid)
      · exact silent
    · exact silent
  | _ => exact silent

/-- A step that keeps what has been counted lowers no counter. -/
theorem step_later {a : Action} (fresh : o.server.Fresh) (keeps : o.Keeps a) (moved : o.step a = some o') :
    Later o o' := by
  have stepped : ∀ {b : Server.Action}, o.server.step b = some o'.server →
      (∀ counter, Mux.Exported counter → o.server.agg counter ≤ o'.server.agg counter) ∧
        o.server.tallies ≤ o'.server.tallies := fun moved' =>
    ⟨fun counter exported => Server.agg_le exported (Server.counted_le exported fresh moved') (keeps o' moved),
      (Server.step_proceeds moved').tallies⟩
  have aside : ∀ {events : Events}, Events.Later o.events events → o'.events = events →
      o'.server = o.server → o.own ≤ o'.own → Later o o' := fun later same server own =>
    ⟨fun counter _ => by rw [server], by rw [server], same ▸ later, own⟩
  cases a with
  | server b =>
    by_cases opens : ∃ i result, b = .opened i result
    · obtain ⟨i, result, rfl⟩ := opens
      cases moved
    · obtain ⟨s, here, rfl⟩ := Option.map_eq_some_iff.mp ((step_server fun i result same =>
        opens ⟨i, result, same⟩).symm.trans moved)
      obtain ⟨events, own⟩ := later_emitAfter o b s
      obtain ⟨agg, tallies⟩ := stepped (b := b) (by rw [server_emitAfter]; exact here)
      exact ⟨agg, tallies, events, own.ge⟩
  | tunnelOpened i sent =>
    simp only [Observed.step] at moved
    obtain ⟨s, here, same⟩ := Option.map_eq_some_iff.mp moved
    have events := Events.later_emitOpened o.events (.tunnelOpened i) sent
    subst same
    obtain ⟨agg, tallies⟩ := stepped here
    exact ⟨agg, tallies, events, le_rfl⟩
  | authRejected =>
    cases moved
    exact aside (Events.later_emitEvent o.events .authRejected) rfl rfl le_rfl
  | logStats =>
    simp only [Observed.step] at moved
    split at moved
    · cases moved
    · cases moved
      exact aside (Events.later_emitEvent o.events .relayStats) rfl rfl le_rfl
  | workerGet =>
    obtain ⟨events, got, rfl⟩ := Option.map_eq_some_iff.mp moved
    exact aside (Events.later_workerGet got) rfl rfl le_rfl
  | workerSent delivered =>
    obtain ⟨events, sent, rfl⟩ := Option.map_eq_some_iff.mp moved
    exact aside (Events.later_workerSent sent) rfl rfl le_rfl
  | workerRetry =>
    obtain ⟨events, retried, rfl⟩ := Option.map_eq_some_iff.mp moved
    exact aside (Events.later_workerRetry retried) rfl rfl le_rfl
  | authBusy =>
    cases moved
    refine ⟨fun counter _ => le_rfl, ?_, .refl _, le_rfl⟩
    exact ⟨Nat.le_succ _, le_rfl, le_rfl, le_rfl, le_rfl, le_rfl, le_rfl, le_rfl, le_rfl⟩
  | controlBusy =>
    cases moved
    exact aside (.refl _) rfl rfl ⟨Nat.le_succ _, le_rfl, le_rfl, le_rfl, le_rfl, le_rfl⟩
  | visitorPoolBusy =>
    cases moved
    exact aside (.refl _) rfl rfl ⟨le_rfl, Nat.le_succ _, le_rfl, le_rfl, le_rfl, le_rfl⟩
  | visitorIpLimited =>
    cases moved
    exact aside (.refl _) rfl rfl ⟨le_rfl, le_rfl, Nat.le_succ _, le_rfl, le_rfl, le_rfl⟩
  | pollFailed =>
    cases moved
    exact aside (.refl _) rfl rfl ⟨le_rfl, le_rfl, le_rfl, le_rfl, le_rfl, Nat.le_succ _⟩
  | relayedToAgent v n =>
    simp only [Observed.step] at moved
    split at moved
    · cases moved
      exact aside (.refl _) rfl rfl ⟨le_rfl, le_rfl, le_rfl, Nat.le_add_right _ _, le_rfl, le_rfl⟩
    · cases moved
  | relayedToVisitor v n =>
    simp only [Observed.step] at moved
    split at moved
    · cases moved
      exact aside (.refl _) rfl rfl ⟨le_rfl, le_rfl, le_rfl, le_rfl, Nat.le_add_right _ _, le_rfl⟩
    · cases moved

/-- **Counters are monotone while no registration leaves with what it has counted.** From any
reachable state, in every run whose steps take no registration out of `_agents` whose
multiplexer has counted a stream, a reset or a stall, the later of two scrapes has every
counter of the earlier one, with a value that is at least as large. -/
theorem scrape_monotone {config : ServerConfig} {noop required : Bool} {now monotonic : ℚ} {as bs : List Action}
    (ran : Transition.run step (start config noop required now monotonic) as = some o)
    (kept : Transition.Along step Keeps o bs) (later : Transition.run step o bs = some o') :
    List.Forall₂ Metric.Le o.scrape o'.scrape := by
  have steps : ∀ (t : Observed) a (t' : Observed), (t.Audited ∧ Later o t) → t.Keeps a → t.step a = some t' →
      t'.Audited ∧ Later o t' := fun t a t' held keeps moved =>
    ⟨held.1.step moved, held.2.trans (step_later held.1.fresh keeps moved)⟩
  exact (Transition.run_invariant steps ⟨audited_of_run ran, .refl o⟩ kept later).2.scrape

/-- A first stream is counted between two scrapes. -/
theorem scrape_monotone_visited : ∃ o o',
    Transition.run step (start Server.smallRelay false true 0 0) (visited.take 8) = some o ∧
      Transition.run step o [.server (.visitorOpened 0), .controlBusy] = some o' ∧
      o.collectRelayStats.openedStreams = 0 ∧ o'.collectRelayStats.openedStreams = 1 ∧
      List.Forall₂ Metric.Le o.scrape o'.scrape := by
  have done : ((Transition.run step (start Server.smallRelay false true 0 0) (visited.take 8)).bind fun o =>
      (Transition.run step o [.server (.visitorOpened 0), .controlBusy]).map fun o' =>
        (o.collectRelayStats.openedStreams, o'.collectRelayStats.openedStreams)) = some (0, 1) := by
    decide
  obtain ⟨o, ran, done⟩ := Option.bind_eq_some_iff.mp done
  obtain ⟨o', later, opened⟩ := Option.map_eq_some_iff.mp done
  simp only [Prod.mk.injEq] at opened
  have audited := audited_of_run ran
  have kept : Transition.Along step Keeps o [.server (.visitorOpened 0), .controlBusy] := by
    refine ⟨keeps_of_spared audited.coherent fun _ _ _ _ => nofun, fun t _ => ⟨?_, fun _ _ => trivial⟩⟩
    intro t' moved label i reg serves _
    cases moved
    exact Or.inl serves
  exact ⟨o, o', ran, later, opened.1, opened.2, scrape_monotone ran kept later⟩

/-- The connection of `visited` leaves, and the stream it has counted is counted no more. -/
theorem scrape_falls : ∃ o o',
    Transition.run step (start Server.smallRelay false true 0 0) (visited.take 10) = some o ∧
      Transition.run step o (visited.drop 10) = some o' ∧
      o.collectRelayStats.openedStreams = 1 ∧ o'.collectRelayStats.openedStreams = 0 ∧
      ¬ List.Forall₂ Metric.Le o.scrape o'.scrape := by
  have done : ((Transition.run step (start Server.smallRelay false true 0 0) (visited.take 10)).bind fun o =>
      (Transition.run step o (visited.drop 10)).map fun o' =>
        (o.collectRelayStats.openedStreams, o'.collectRelayStats.openedStreams)) = some (1, 0) := by
    decide
  obtain ⟨o, ran, done⟩ := Option.bind_eq_some_iff.mp done
  obtain ⟨o', later, opened⟩ := Option.map_eq_some_iff.mp done
  simp only [Prod.mk.injEq] at opened
  refine ⟨o, o', ran, later, opened.1, opened.2, fun monotone => ?_⟩
  simp only [scrape, counterMetrics, List.forall₂_cons, Metric.Le] at monotone
  obtain ⟨-, -, -, -, ⟨-, streams⟩, -⟩ := monotone
  omega

end Observed

end Chute
