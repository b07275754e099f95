import Chute.Lib.Pairing
import Chute.Server.Arrivals
import Chute.Server.Endings
import Chute.Server.Events

/-!
# Paired lifecycle events

Each opening that was accepted has one closing, in every interleaving. What the log says
about a connection, or about the stream of a visitor, follows from where its task is.
-/
namespace Chute

open Pairing (Mark Status Tracks)
open Server (Phase Visitor VisitorPhase Arrivals)

/-! ### The logs -/

/-- What the call says about a connection. -/
def EmittedEvent.tunnel? : EmittedEvent → Option (Nat × Mark)
  | ⟨.tunnelOpened i, returned⟩ => some (i, .opened (returned == some true))
  | ⟨.tunnelClosed i, _⟩ => some (i, .closed)
  | _ => none

/-- What the call says about the stream of a visitor. -/
def EmittedEvent.visitor? : EmittedEvent → Option ((Nat × StreamId) × Mark)
  | ⟨.visitorOpened i sid, returned⟩ => some ((i, sid), .opened (returned == some true))
  | ⟨.visitorClosed i sid, _⟩ => some ((i, sid), .closed)
  | _ => none

namespace Observed

variable {o o' : Observed}

def tunnelLog (o : Observed) : List (Nat × Mark) := o.emitted.filterMap EmittedEvent.tunnel?

def visitorLog (o : Observed) : List ((Nat × StreamId) × Mark) := o.emitted.filterMap EmittedEvent.visitor?

/-- The calls about a connection, and about a stream of it, in their order. -/
def tunnelCalls (o : Observed) (i : Nat) : List Mark := Pairing.calls o.tunnelLog i

def visitorCalls (o : Observed) (i : Nat) (sid : StreamId) : List Mark := Pairing.calls o.visitorLog (i, sid)

@[simp] theorem server_emitEvent (o : Observed) (event : LifecycleEvent) :
    (o.emitEvent event).2.server = o.server := rfl

@[simp] theorem visitorOpened_emitEvent (o : Observed) (event : LifecycleEvent) :
    (o.emitEvent event).2.visitorOpened = o.visitorOpened := rfl

theorem tunnelLog_emitEvent (o : Observed) (event : LifecycleEvent) :
    (o.emitEvent event).2.tunnelLog =
      o.tunnelLog ++ (EmittedEvent.tunnel? ⟨event, some (o.emitEvent event).1⟩).toList := by
  have emitted : (o.emitEvent event).2.emitted = o.emitted ++ [⟨event, some (o.emitEvent event).1⟩] := rfl
  rw [tunnelLog, emitted, List.filterMap_append]
  cases event <;> rfl

theorem visitorLog_emitEvent (o : Observed) (event : LifecycleEvent) :
    (o.emitEvent event).2.visitorLog =
      o.visitorLog ++ (EmittedEvent.visitor? ⟨event, some (o.emitEvent event).1⟩).toList := by
  have emitted : (o.emitEvent event).2.emitted = o.emitted ++ [⟨event, some (o.emitEvent event).1⟩] := rfl
  rw [visitorLog, emitted, List.filterMap_append]
  cases event <;> rfl

end Observed

/-! ### What follows a step -/

namespace Server

variable {s s' : Server} {a : Action} {i : Nat}

/-- A step after which `_serve_agent` may return, with its closing event. -/
def Action.ends : Action → Option Nat
  | .recheck i => some i
  | .drop i => some i
  | .install i => some i
  | .deregister i => some i
  | _ => none

/-- The call is over, and its opening was accepted. -/
def Phase.closed : Phase → Bool
  | .over_ true _ => true
  | _ => false

/-- The closing event of a step. -/
def closings (s : Server) (a : Action) : List (Nat × Mark) :=
  match a.ends with
  | some i => if (s.phase? i).any Phase.closed then [(i, .closed)] else []
  | none => []

end Server

namespace Observed

variable {o o' : Observed} {a : Server.Action} {s : Server} {i : Nat}

theorem tunnelLog_emitTunnelClosed (o : Observed) (i : Nat) :
    (o.emitTunnelClosed i).tunnelLog =
      o.tunnelLog ++ if (o.server.phase? i).any Phase.closed then [(i, .closed)] else [] := by
  unfold emitTunnelClosed
  split
  next why ended =>
    rw [tunnelLog_emitEvent, ended]
    rfl
  next going =>
    have open_ : (o.server.phase? i).any Server.Phase.closed = false := by
      cases here : o.server.phase? i with
      | none => rfl
      | some p =>
        cases p with
        | over_ opened why =>
          cases opened with
          | true => exact absurd here (going why)
          | false => rfl
        | _ => rfl
    rw [open_]
    exact (List.append_nil _).symm

theorem server_emitAfter (o : Observed) (a : Server.Action) (s : Server) : (o.emitAfter a s).server = s := by
  unfold emitAfter
  cases a with
  | claim i =>
    simp only [emitClaim]
    split
    · split <;> rfl
    · rfl
  | check i =>
    simp only [beginTunnelOpened]
    split <;> rfl
  | recheck i | drop i | install i | deregister i =>
    simp only [emitTunnelClosed]
    split <;> rfl
  | visit label sent =>
    simp only
    split <;> rfl
  | visitorOpened v =>
    simp only [emitVisitorOpened]
    split <;> rfl
  | visitorLeft v =>
    simp only [emitVisitorClosed]
    split
    · split <;> rfl
    · rfl
  | _ => rfl

/-- Of the steps of the relay, only the ends of `_serve_agent` say something about a connection. -/
theorem tunnelLog_emitAfter (o : Observed) (a : Server.Action) (s : Server) :
    (o.emitAfter a s).tunnelLog = o.tunnelLog ++ s.closings a := by
  unfold emitAfter
  cases a with
  | recheck i | drop i | install i | deregister i => exact tunnelLog_emitTunnelClosed { o with server := s } i
  | claim i =>
    simp only [emitClaim]
    split
    · split
      · exact (List.append_nil _).symm
      · exact tunnelLog_emitEvent { o with server := s } .authRejected
    · exact (List.append_nil _).symm
  | check i =>
    simp only [beginTunnelOpened]
    split
    · exact (List.append_nil _).symm
    · exact (List.append_nil _).symm
  | visit label sent =>
    simp only
    split
    · exact tunnelLog_emitEvent { o with server := s } .visitorRejected
    · exact (List.append_nil _).symm
  | visitorOpened v =>
    simp only [emitVisitorOpened]
    split
    next visitor _ =>
      exact tunnelLog_emitEvent { o with server := s } (.visitorOpened visitor.connection visitor.stream.sid)
    · exact (List.append_nil _).symm
  | visitorLeft v =>
    simp only [emitVisitorClosed]
    split
    next visitor _ =>
      split
      · exact tunnelLog_emitEvent { o with server := s } (.visitorClosed visitor.connection visitor.stream.sid)
      · exact (List.append_nil _).symm
    · exact (List.append_nil _).symm
  | _ => exact (List.append_nil _).symm

/-- Only the two steps of a visitor say something about a stream. -/
theorem emitAfter_unvisited (o : Observed) {a : Server.Action} (s : Server) (opens : ∀ v, a ≠ .visitorOpened v)
    (leaves : ∀ v, a ≠ .visitorLeft v) :
    (o.emitAfter a s).visitorLog = o.visitorLog ∧ (o.emitAfter a s).visitorOpened = o.visitorOpened := by
  have said : ∀ (o : Observed) (event : LifecycleEvent) returned,
      EmittedEvent.visitor? ⟨event, returned⟩ = none → (o.emitEvent event).2.visitorLog = o.visitorLog := by
    intro o event returned silent
    rw [visitorLog_emitEvent]
    cases event with
    | visitorOpened => cases silent
    | visitorClosed => cases silent
    | _ => exact List.append_nil _
  unfold emitAfter
  cases a with
  | claim i =>
    simp only [emitClaim]
    split
    · split
      · exact ⟨rfl, rfl⟩
      · exact ⟨said { o with server := s } .authRejected none rfl, rfl⟩
    · exact ⟨rfl, rfl⟩
  | check i =>
    simp only [beginTunnelOpened]
    split <;> exact ⟨rfl, rfl⟩
  | recheck i | drop i | install i | deregister i =>
    simp only [emitTunnelClosed]
    split
    · exact ⟨said { o with server := s } (.tunnelClosed i) none rfl, rfl⟩
    · exact ⟨rfl, rfl⟩
  | visit label sent =>
    simp only
    split
    · exact ⟨said { o with server := s } .visitorRejected none rfl, rfl⟩
    · exact ⟨rfl, rfl⟩
  | visitorOpened v => exact absurd rfl (opens v)
  | visitorLeft v => exact absurd rfl (leaves v)
  | _ => exact ⟨rfl, rfl⟩

theorem emitAfter_visitorOpened (o : Observed) {s : Server} {v : Nat} {visitor : Visitor}
    (found : s.visitors[v]? = some visitor) : ∃ taken : Bool,
      (o.emitAfter (.visitorOpened v) s).visitorLog = o.visitorLog ++ [(visitor.key, .opened taken)] ∧
        (o.emitAfter (.visitorOpened v) s).visitorOpened = Function.update o.visitorOpened v taken := by
  let next : Observed := { o with server := s }
  let event : LifecycleEvent := .visitorOpened visitor.connection visitor.stream.sid
  refine ⟨(next.emitEvent event).1, ?_, ?_⟩
  · have said := visitorLog_emitEvent next event
    simp only [emitAfter, emitVisitorOpened, found]
    refine said.trans ?_
    cases (next.emitEvent event).1 <;> rfl
  · simp only [emitAfter, emitVisitorOpened, found]
    rfl

theorem emitAfter_visitorLeft (o : Observed) {s : Server} {v : Nat} {visitor : Visitor}
    (found : s.visitors[v]? = some visitor) :
    (o.emitAfter (.visitorLeft v) s).visitorLog =
        o.visitorLog ++ (if o.visitorOpened v then [(visitor.key, .closed)] else []) ∧
      (o.emitAfter (.visitorLeft v) s).visitorOpened = o.visitorOpened := by
  simp only [emitAfter, emitVisitorClosed, found]
  split
  · exact ⟨visitorLog_emitEvent { o with server := s } (.visitorClosed visitor.connection visitor.stream.sid), rfl⟩
  · exact ⟨(List.append_nil _).symm, rfl⟩

end Observed

/-! ### Where the calls of a connection stand -/

namespace Server

/-- What the log can say about a connection in this phase. -/
def Phase.Stands : Phase → Status → Prop
  | .admitted, st => st = .unopened
  | .claimed, st => st = .unopened
  | .emitting, st => st = .unopened
  | .emitted opened, st => st = if opened then .owed else .refused
  | .readying opened, st => st = if opened then .owed else .refused
  | .readied opened, st => st = if opened then .owed else .refused
  | .dropping opened _, st => st = if opened then .owed else .refused
  | .running opened, st => st = if opened then .owed else .refused
  | .closing opened, st => st = if opened then .owed else .refused
  | .over_ true _, st => st = .settled
  | .over_ false _, st => st = .unopened ∨ st = .refused

variable {i : Nat} {a : Action} {p q : Phase} {m m' : Option Mux} {st : Status}

/-- A turn that ends the call with its opening accepted has a closing to make; any other turn
leaves the log as it should be. -/
theorem Turn.stands (turn : Turn i a (p, m) (q, m')) (serves : a.serves = some i)
    (unopened : ∀ result, a ≠ .opened i result) (stands : p.Stands st) :
    (q.closed = true ∧ a.ends = some i ∧ st = .owed ∧ q.Stands .settled) ∨
      (q.closed = false ∧ q.Stands st) := by
  have ending : ∀ (opened : Bool) (why : Ending), st = (if opened then Status.owed else .refused) →
      ((Phase.over_ opened why).closed = true ∧ st = .owed ∧ (Phase.over_ opened why).Stands .settled) ∨
        (Phase.over_ opened why).closed = false ∧ (Phase.over_ opened why).Stands st := by
    intro opened why stands
    cases opened with
    | true => exact Or.inl ⟨rfl, stands, rfl⟩
    | false => exact Or.inr ⟨rfl, Or.inr stands⟩
  cases turn with
  | rejected => exact Or.inr ⟨rfl, Or.inl stands⟩
  | stale => exact Or.inr ⟨rfl, Or.inl stands⟩
  | opened result => exact absurd rfl (unopened _)
  | refused => exact absurd rfl (unopened _)
  | revoked opened =>
    rcases ending opened .leaseRevoked stands with ⟨closed, owed, settled⟩ | quiet
    · exact Or.inl ⟨closed, rfl, owed, settled⟩
    · exact Or.inr quiet
  | dropped opened why =>
    rcases ending opened why stands with ⟨closed, owed, settled⟩ | quiet
    · exact Or.inl ⟨closed, rfl, owed, settled⟩
    · exact Or.inr quiet
  | superseded opened =>
    rcases ending opened .superseded stands with ⟨closed, owed, settled⟩ | quiet
    · exact Or.inl ⟨closed, rfl, owed, settled⟩
    · exact Or.inr quiet
  | deregistered opened =>
    rcases ending opened .disconnected stands with ⟨closed, owed, settled⟩ | quiet
    · exact Or.inl ⟨closed, rfl, owed, settled⟩
    · exact Or.inr quiet
  | carried _ _ other => cases serves.symm.trans other
  | _ => exact Or.inr ⟨rfl, stands⟩

/-- What the log can say about a stream whose visitor is in this phase; `opened` is its
`visitor_opened`. -/
def VisitorPhase.Stands : VisitorPhase → Bool → Status → Prop
  | .opening, opened, st => opened = false ∧ st = .unopened
  | .relaying, opened, st => st = if opened then .owed else .refused
  | .left, true, st => st = .settled
  | .left, false, st => st = .unopened ∨ st = .refused

end Server

namespace Observed

variable {o o' : Observed} {a : Server.Action} {i : Nat}

/-- The log of the connections pairs, and agrees with where each connection is. -/
def TunnelsPaired (o : Observed) : Prop :=
  ∃ status : Nat → Status, Tracks o.tunnelLog status ∧
    ∀ i, (o.server.phase? i).elim (status i = .unopened) fun p => p.Stands (status i)

theorem TunnelsPaired.of_same (paired : o.TunnelsPaired) (phases : ∀ i, o'.server.phase? i = o.server.phase? i)
    (log : o'.tunnelLog = o.tunnelLog) : o'.TunnelsPaired := by
  obtain ⟨status, tracks, stands⟩ := paired
  exact ⟨status, log ▸ tracks, fun i => phases i ▸ stands i⟩

/-- A step of a connection changes what the log says about it alone. -/
theorem TunnelsPaired.of_turn {status : Nat → Status} {st : Status} {q : Phase}
    (stands : ∀ i, (o.server.phase? i).elim (status i = .unopened) fun p => p.Stands (status i))
    (tracks : Tracks o'.tunnelLog (Function.update status i st)) (here : o'.server.phase? i = some q)
    (others : ∀ j, j ≠ i → o'.server.phase? j = o.server.phase? j) (now : q.Stands st) : o'.TunnelsPaired := by
  refine ⟨_, tracks, fun j => ?_⟩
  by_cases same : j = i
  · subst same
    rw [here, Function.update_self]
    exact now
  · rw [others j same, Function.update_of_ne same]
    exact stands j

/-- The connection that takes a step turns, and no other. -/
theorem turn_of_serves {s s' : Server} (moved : s.step a = some s') (serves : a.serves = some i) :
    ∃ p m q m', s.phase? i = some p ∧ s'.phase? i = some q ∧ Server.Turn i a (p, m) (q, m') ∧
      ∀ j, j ≠ i → s'.phase? j = s.phase? j := by
  obtain ⟨p, m, q, m', found, after, turn⟩ := (Server.step_proceeds moved).turns.own serves
  have short := (List.getElem?_eq_some_iff.mp found).1
  simp only [Server.phase?_eq, after]
  refine ⟨p, m, q, m', by rw [found]; rfl, by simp [short], turn, fun j apart => ?_⟩
  rw [List.getElem?_set_ne fun same => apart same.symm]

theorem TunnelsPaired.step (paired : o.TunnelsPaired) (moved : o.server.step a = some o'.server)
    (unopened : ∀ i result, a ≠ .opened i result) (log : o'.tunnelLog = o.tunnelLog ++ o'.server.closings a) :
    o'.TunnelsPaired := by
  obtain ⟨status, tracks, stands⟩ := paired
  cases serves : a.serves with
  | none =>
    have ends : a.ends = none := by cases a <;> first | rfl | cases serves
    have silent : o'.server.closings a = [] := by simp only [Server.closings, ends]
    rw [silent, List.append_nil] at log
    refine ⟨status, log ▸ tracks, fun i => ?_⟩
    have before := stands i
    rcases Server.step_phase moved i with same | ⟨absent, new⟩ | ⟨p, m, q, m', own, -⟩
    · rw [same]
      exact before
    · rw [absent] at before
      rw [new]
      exact before
    · cases serves.symm.trans own
  | some i =>
    obtain ⟨p, m, q, m', here, there, turn, others⟩ := turn_of_serves moved serves
    have before := stands i
    rw [here] at before
    rcases turn.stands serves (unopened i) before with ⟨closed, ends, owed, settled⟩ | ⟨going, now⟩
    · -- the call is over, and its opening is answered by this closing
      have closing : o'.server.closings a = [(i, .closed)] := by
        simp only [Server.closings, ends, there, Option.any_some, closed, if_true]
      rw [closing] at log
      have next : (status i).after .closed = some .settled := by rw [owed]; rfl
      exact of_turn stands (log ▸ tracks.snoc next) there others settled
    · have silent : o'.server.closings a = [] := by
        unfold Server.closings
        split
        next j ends =>
          have own : j = i := by cases a <;> simp_all [Server.Action.ends, Server.Action.serves]
          subst own
          rw [there, Option.any_some, going]
          rfl
        · rfl
      rw [silent, List.append_nil] at log
      have same : Tracks o'.tunnelLog (Function.update status i (status i)) := by
        rw [Function.update_eq_self, log]
        exact tracks
      exact of_turn stands same there others now

/-- The opening event of a connection returns, or raises. -/
theorem TunnelsPaired.opened (paired : o.TunnelsPaired) {returned : Option Bool}
    (moved : o.server.step (.opened i returned) = some o'.server)
    (log : o'.tunnelLog = o.tunnelLog ++ [(i, .opened (returned == some true))]) : o'.TunnelsPaired := by
  obtain ⟨status, tracks, stands⟩ := paired
  obtain ⟨p, m, q, m', here, there, turn, others⟩ := turn_of_serves moved rfl
  have before := stands i
  rw [here] at before
  cases turn with
  | opened result =>
    have unopened : status i = .unopened := before
    cases result with
    | true =>
      have next : (status i).after (.opened true) = some .owed := by rw [unopened]; rfl
      exact of_turn stands (log ▸ tracks.snoc next) there others rfl
    | false =>
      have next : (status i).after (.opened false) = some .refused := by rw [unopened]; rfl
      exact of_turn stands (log ▸ tracks.snoc next) there others rfl
  | refused =>
    have unopened : status i = .unopened := before
    have next : (status i).after (.opened false) = some .refused := by rw [unopened]; rfl
    exact of_turn stands (log ▸ tracks.snoc next) there others rfl
  | carried _ _ other => cases other

/-! ### Where the calls of a visitor stand -/

/-- The log of the streams pairs. No two visitors have one stream, as ids are given out in order. -/
structure VisitorsPaired (o : Observed) : Prop where
  placed : ∀ visitor ∈ o.server.visitors, ∃ p m,
    o.server.courses[visitor.connection]? = some (p, some m) ∧ visitor.stream.sid.toNat < m.nextId
  distinct : (o.server.visitors.map Visitor.key).Nodup
  /-- `visitor_opened` of visitors to come. -/
  unset : ∀ v, o.server.visitors.length ≤ v → o.visitorOpened v = false
  paired : ∃ status : Nat × StreamId → Status, Tracks o.visitorLog status ∧
    (∀ (v : Nat) (visitor : Visitor), o.server.visitors[v]? = some visitor →
      visitor.phase.Stands (o.visitorOpened v) (status visitor.key)) ∧
    ∀ k, (∀ visitor ∈ o.server.visitors, visitor.key ≠ k) → status k = .unopened

/-- Every multiplexer is still there, and has taken back no id. -/
def Grown (s s' : Server) : Prop :=
  ∀ (i : Nat) p m, s.courses[i]? = some (p, some m) →
    ∃ q m', s'.courses[i]? = some (q, some m') ∧ m.nextId ≤ m'.nextId

theorem grown_of_step {s s' : Server} (fresh : s.Fresh) (moved : s.step a = some s') : Grown s s' := by
  intro i p m found
  obtain ⟨q, m', after, grows⟩ := fresh.grows moved found
  exact ⟨q, m', after, grows.nextId⟩

namespace VisitorsPaired

/-- A visitor that is where it was still has its stream. -/
theorem placed_of_grown (paired : o.VisitorsPaired) {s' : Server} (grown : Grown o.server s') {visitor : Visitor}
    (member : visitor ∈ o.server.visitors) :
    ∃ p m, s'.courses[visitor.connection]? = some (p, some m) ∧ visitor.stream.sid.toNat < m.nextId := by
  obtain ⟨p, m, found, below⟩ := paired.placed visitor member
  obtain ⟨q, m', after, later⟩ := grown _ p m found
  exact ⟨q, m', after, below.trans_le later⟩

theorem of_same (paired : o.VisitorsPaired) (grown : Grown o.server o'.server)
    (visitors : o'.server.visitors = o.server.visitors) (opened : o'.visitorOpened = o.visitorOpened)
    (log : o'.visitorLog = o.visitorLog) : o'.VisitorsPaired where
  placed := by
    rw [visitors]
    exact fun visitor member => paired.placed_of_grown grown member
  distinct := by rw [visitors]; exact paired.distinct
  unset := by rw [visitors, opened]; exact paired.unset
  paired := by rw [visitors, opened, log]; exact paired.paired

/-- A visitor moves on, with at most one call about its stream. -/
theorem of_moved (paired : o.VisitorsPaired) (grown : Grown o.server o'.server) {v : Nat} {visitor : Visitor}
    (found : o.server.visitors[v]? = some visitor) {phase : VisitorPhase}
    (visitors : o'.server.visitors = o.server.visitors.set v { visitor with phase := phase })
    (others : ∀ u, u ≠ v → o'.visitorOpened u = o.visitorOpened u)
    (next : ∀ status : Nat × StreamId → Status, Tracks o.visitorLog status →
      visitor.phase.Stands (o.visitorOpened v) (status visitor.key) →
      ∃ st, Tracks o'.visitorLog (Function.update status visitor.key st) ∧ phase.Stands (o'.visitorOpened v) st) :
    o'.VisitorsPaired := by
  have short := (List.getElem?_eq_some_iff.mp found).1
  have member := List.mem_of_getElem? found
  have keys : o'.server.visitors.map Visitor.key = o.server.visitors.map Visitor.key := by
    rw [visitors, List.map_set]
    refine List.ext_getElem? fun u => ?_
    rw [List.getElem?_set]
    split
    next here =>
      subst here
      rw [List.length_map, if_pos short, List.getElem?_map, found]
      rfl
    · rfl
  obtain ⟨status, tracks, stands, absent⟩ := paired.paired
  obtain ⟨st, tracks', now⟩ := next status tracks (stands v visitor found)
  constructor
  · intro other inside
    rw [visitors] at inside
    rcases List.mem_or_eq_of_mem_set inside with before | rfl
    · exact paired.placed_of_grown grown before
    · have placed := paired.placed_of_grown grown member
      exact placed
  · rw [keys]
    exact paired.distinct
  · intro u beyond
    rw [visitors, List.length_set] at beyond
    rw [others u (by omega)]
    exact paired.unset u beyond
  · refine ⟨_, tracks', fun u other there => ?_, fun k unseen => ?_⟩
    · rw [visitors, List.getElem?_set] at there
      split at there
      next here =>
        subst here
        cases there
        rw [show Visitor.key { visitor with phase := phase } = visitor.key from rfl, Function.update_self]
        exact now
      next apart =>
        -- another visitor has another stream
        have distinct : other.key ≠ visitor.key := fun same => apart <| by
          have first : (o.server.visitors.map Visitor.key)[v]? = some visitor.key := by simp [found]
          have second : (o.server.visitors.map Visitor.key)[u]? = some visitor.key := by simp [there, same]
          exact (List.getElem?_inj (by simpa using short) paired.distinct).mp (first.trans second.symm)
        rw [Function.update_of_ne distinct, others u fun same => apart same.symm]
        exact stands u other there
    · have unseen' : ∀ k', k' ∈ o.server.visitors.map Visitor.key → k' ≠ k := by
        rw [← keys]
        intro k' inside
        obtain ⟨other, there, rfl⟩ := List.mem_map.mp inside
        exact unseen other there
      rw [Function.update_of_ne fun same => unseen' _ (List.mem_map_of_mem member) same.symm]
      exact absent k fun other there => unseen' _ (List.mem_map_of_mem there)

theorem step (paired : o.VisitorsPaired) (fresh : o.server.Fresh) {s : Server}
    (moved : o.server.step a = some s) : (o.emitAfter a s).VisitorsPaired := by
  have grown : Grown o.server (o.emitAfter a s).server := by
    rw [server_emitAfter]
    exact grown_of_step fresh moved
  have server := server_emitAfter o a s
  rcases Server.step_arrivals moved with ⟨same, opens, leaves⟩ |
    ⟨label, sent, rfl, k, p, m, m', gen, before, small, after, taken, visitors⟩ |
    ⟨v, visitor, rfl, found, opening, visitors⟩ | ⟨v, visitor, rfl, found, opening, visitors⟩ |
    ⟨v, visitor, rfl, found, relaying, visitors⟩
  · obtain ⟨log, opened⟩ := emitAfter_unvisited o s opens leaves
    exact paired.of_same grown (by rw [server, same]) opened log
  · obtain ⟨log, opened⟩ := emitAfter_unvisited o s (a := .visit label sent) nofun nofun
    obtain ⟨status, tracks, stands, absent⟩ := paired.paired
    let visitor : Visitor := ⟨label, k, ⟨UInt32.ofNat m.nextId, gen⟩, .opening⟩
    have number : visitor.stream.sid.toNat = m.nextId := by
      show (UInt32.ofNat m.nextId).toNat = m.nextId
      rw [UInt32.toNat_ofNat']
      exact Nat.mod_eq_of_lt (by omega)
    -- the id has not been given out before
    have new : ∀ other ∈ o.server.visitors, other.key ≠ visitor.key := by
      intro other member same
      obtain ⟨p', m'', there, below⟩ := paired.placed other member
      have connection : other.connection = k := congrArg Prod.fst same
      have sid : other.stream.sid = visitor.stream.sid := congrArg Prod.snd same
      rw [connection, before] at there
      cases there
      rw [sid, number] at below
      exact lt_irrefl _ below
    have grownVisitors : (o.emitAfter (.visit label sent) s).server.visitors = o.server.visitors ++ [visitor] := by
      rw [server, visitors]
    constructor
    · intro other member
      rw [grownVisitors] at member
      rcases List.mem_append.mp member with inside | last
      · exact paired.placed_of_grown grown inside
      · rw [List.mem_singleton] at last
        subst last
        exact ⟨p, m', by rw [server]; exact after, by omega⟩
    · rw [grownVisitors, List.map_append, List.nodup_append]
      refine ⟨paired.distinct, List.nodup_singleton _, ?_⟩
      intro key inside key' last same
      obtain ⟨other, member, rfl⟩ := List.mem_map.mp inside
      rw [List.map_singleton, List.mem_singleton] at last
      exact new other member (same.trans last)
    · intro v beyond
      rw [grownVisitors, List.length_append] at beyond
      rw [opened]
      exact paired.unset v (by omega)
    · rw [grownVisitors, log, opened]
      refine ⟨status, tracks, fun v other there => ?_, fun key unseen => ?_⟩
      · rw [List.getElem?_append] at there
        split at there
        · exact stands v other there
        next beyond =>
          have last := List.mem_of_getElem? there
          rw [List.mem_singleton] at last
          subst last
          exact ⟨paired.unset v (not_lt.mp beyond), absent _ new⟩
      · exact absent key fun other member => unseen other (List.mem_append_left _ member)
  · have there : s.visitors[v]? = some { visitor with phase := .relaying } := by
      rw [visitors]
      simp [(List.getElem?_eq_some_iff.mp found).1]
    obtain ⟨taken, log, opened⟩ := emitAfter_visitorOpened o there
    refine paired.of_moved grown found (by rw [server, visitors]) (fun u apart => ?_) fun status tracks stands => ?_
    · rw [opened, Function.update_of_ne apart]
    · rw [opening] at stands
      rw [log, opened, Function.update_self]
      cases taken with
      | true =>
        have next : (status visitor.key).after (.opened true) = some .owed := by rw [stands.2]; rfl
        exact ⟨.owed, tracks.snoc next, rfl⟩
      | false =>
        have next : (status visitor.key).after (.opened false) = some .refused := by rw [stands.2]; rfl
        exact ⟨.refused, tracks.snoc next, rfl⟩
  · obtain ⟨log, opened⟩ := emitAfter_unvisited o s (a := .visitorFailed v) nofun nofun
    refine paired.of_moved grown found (by rw [server, visitors]) (fun u _ => by rw [opened])
      fun status tracks stands => ?_
    rw [opening] at stands
    rw [log, opened, stands.1]
    exact ⟨status visitor.key, by rw [Function.update_eq_self]; exact tracks, Or.inl stands.2⟩
  · have there : s.visitors[v]? = some { visitor with phase := .left } := by
      rw [visitors]
      simp [(List.getElem?_eq_some_iff.mp found).1]
    obtain ⟨log, opened⟩ := emitAfter_visitorLeft o there
    refine paired.of_moved grown found (by rw [server, visitors]) (fun u _ => by rw [opened])
      fun status tracks stands => ?_
    rw [relaying] at stands
    rw [log, opened]
    cases accepted : o.visitorOpened v with
    | true =>
      rw [accepted] at stands
      have next : (status visitor.key).after .closed = some .settled := by
        rw [show status visitor.key = .owed from stands]
        rfl
      exact ⟨.settled, tracks.snoc next, rfl⟩
    | false =>
      rw [accepted] at stands
      refine ⟨status visitor.key, ?_, Or.inr stands⟩
      rw [Function.update_eq_self, if_neg Bool.false_ne_true, List.append_nil]
      exact tracks

end VisitorsPaired

/-! ### Every run -/

/-- Both logs pair, in a relay whose registry is in order. -/
structure Audited (o : Observed) : Prop where
  coherent : o.server.Coherent
  fresh : o.server.Fresh
  ended : o.server.Ended
  tunnels : o.TunnelsPaired
  visitors : o.VisitorsPaired

theorem audited_start (config : ServerConfig) (noop required : Bool) (now monotonic : ℚ) :
    (start config noop required now monotonic).Audited where
  coherent := Server.coherent_start config now monotonic
  fresh := Server.fresh_start config now monotonic
  ended := Server.ended_start config now monotonic
  tunnels := ⟨fun _ => .unopened, Pairing.tracks_nil, fun i => by simp [start, Server.phase?, Server.start]⟩
  visitors :=
    { placed := nofun
      distinct := List.nodup_nil
      unset := fun _ _ => rfl
      paired := ⟨fun _ => .unopened, Pairing.tracks_nil, nofun, fun _ _ => rfl⟩ }

/-- A step of another task that says nothing about a connection or a stream. -/
theorem Audited.aside (audited : o.Audited) (quiet : Server.Quiet o.server o'.server)
    (connections : o'.server.connections = o.server.connections)
    (visitors : o'.server.visitors = o.server.visitors) (opened : o'.visitorOpened = o.visitorOpened)
    (tunnelLog : o'.tunnelLog = o.tunnelLog) (visitorLog : o'.visitorLog = o.visitorLog) : o'.Audited := by
  have courses : o'.server.courses = o.server.courses := congrArg (List.map Server.Connection.course) connections
  have phases : ∀ i, o'.server.phase? i = o.server.phase? i := fun i => by
    rw [Server.phase?, Server.phase?, connections]
  refine ⟨audited.coherent.quiet quiet, ?_, ⟨?_, ?_⟩, audited.tunnels.of_same phases tunnelLog, ?_⟩
  · intro i m found
    exact audited.fresh i m (courses ▸ found)
  · intro i opened why here
    exact audited.ended.dropping i opened why (phases i ▸ here)
  · intro i opened why here
    rw [quiet.roster]
    exact audited.ended.gone i opened why (phases i ▸ here)
  · refine audited.visitors.of_same (fun i p m found => ⟨p, m, ?_, le_rfl⟩) visitors opened visitorLog
    rw [courses]
    exact found

/-- A step of the relay, with what follows it. -/
theorem step_server {b : Server.Action} (unopened : ∀ i result, b ≠ .opened i result) :
    o.step (.server b) = (o.server.step b).map (o.emitAfter b) := by
  cases b with
  | opened i result => exact absurd rfl (unopened i result)
  | _ => rfl

theorem Audited.step {a : Action} (audited : o.Audited) (moved : o.step a = some o') : o'.Audited := by
  have said : ∀ event, EmittedEvent.tunnel? ⟨event, some (o.emitEvent event).1⟩ = none →
      EmittedEvent.visitor? ⟨event, some (o.emitEvent event).1⟩ = none →
      (o.emitEvent event).2.Audited := by
    intro event noTunnel noVisitor
    refine audited.aside (.refl _) rfl rfl rfl ?_ ?_
    · rw [tunnelLog_emitEvent, noTunnel]
      exact List.append_nil _
    · rw [visitorLog_emitEvent, noVisitor]
      exact List.append_nil _
  have counted : ∀ {o' : Observed}, o'.server = o.server → o'.visitorOpened = o.visitorOpened →
      o'.emitted = o.emitted → o'.Audited := by
    intro o' server opened emitted
    refine audited.aside (server ▸ .refl _) (by rw [server]) (by rw [server]) opened ?_ ?_
    · rw [tunnelLog, emitted, tunnelLog]
    · rw [visitorLog, emitted, visitorLog]
  cases a with
  | server b =>
    by_cases opens : ∃ i result, b = .opened i result
    · obtain ⟨i, result, rfl⟩ := opens
      cases moved
    · have unopened : ∀ i result, b ≠ .opened i result := fun i result same => opens ⟨i, result, same⟩
      rw [step_server unopened] at moved
      obtain ⟨s, stepped, rfl⟩ := Option.map_eq_some_iff.mp moved
      have server := server_emitAfter o b s
      refine ⟨?_, ?_, ?_, ?_, audited.visitors.step audited.fresh stepped⟩
      · rw [server]
        exact audited.coherent.step stepped
      · rw [server]
        exact audited.fresh.step stepped
      · rw [server]
        exact audited.ended.step audited.coherent stepped
      · refine audited.tunnels.step (by rw [server]; exact stepped) unopened ?_
        rw [server]
        exact tunnelLog_emitAfter o b s
  | tunnelOpened i sent =>
    simp only [Observed.step] at moved
    obtain ⟨s, stepped, rfl⟩ := Option.map_eq_some_iff.mp moved
    refine ⟨audited.coherent.step stepped, audited.fresh.step stepped,
      audited.ended.step audited.coherent stepped, audited.tunnels.opened stepped List.filterMap_append, ?_⟩
    refine audited.visitors.of_same (grown_of_step audited.fresh stepped) ?_ rfl ?_
    · exact Server.visitors_of_slots (Server.slots_step stepped rfl)
    · exact List.filterMap_append.trans (List.append_nil _)
  | authRejected =>
    cases moved
    exact said .authRejected rfl rfl
  | logStats =>
    simp only [Observed.step] at moved
    split at moved
    · cases moved
    · cases moved
      exact said .relayStats rfl rfl
  | workerGet =>
    obtain ⟨events, -, rfl⟩ := Option.map_eq_some_iff.mp moved
    exact counted rfl rfl rfl
  | workerSent delivered =>
    obtain ⟨events, -, rfl⟩ := Option.map_eq_some_iff.mp moved
    exact counted rfl rfl rfl
  | workerRetry =>
    obtain ⟨events, -, rfl⟩ := Option.map_eq_some_iff.mp moved
    exact counted rfl rfl rfl
  | authBusy =>
    cases moved
    exact audited.aside ⟨rfl, rfl, rfl, rfl, rfl, rfl, rfl⟩ rfl rfl rfl rfl rfl
  | controlBusy | pollFailed | visitorPoolBusy | visitorIpLimited =>
    cases moved
    exact counted rfl rfl rfl
  | relayedToAgent v n | relayedToVisitor v n =>
    simp only [Observed.step] at moved
    split at moved
    · cases moved
      exact counted rfl rfl rfl
    · cases moved

theorem audited_of_run {config : ServerConfig} {noop required : Bool} {now monotonic : ℚ} {as : List Action}
    (ran : Transition.run step (start config noop required now monotonic) as = some o) : o.Audited :=
  Transition.run_invariant' (fun _ _ _ audited moved => audited.step moved)
    (audited_start config noop required now monotonic) ran

/-- The `_serve_agent` call of the connection is over. -/
def Over (o : Observed) (i : Nat) : Prop := ∃ opened why, o.server.phase? i = some (.over_ opened why)

/-- The visitor of the stream has left. -/
def Left (o : Observed) (i : Nat) (sid : StreamId) : Prop :=
  ∃ visitor ∈ o.server.visitors, visitor.key = (i, sid) ∧ visitor.phase = .left

/-- A connection with one visitor, from its admission to its end. -/
def visited : List Action :=
  [.server (.admitTunnel (Server.plainAdmission "a" "first" 1 .none) (some "x") .http .default),
    .server (.claim 0 fun _ => ""), .server (.check 0), .tunnelOpened 0 true, .server (.recheck 0),
    .server (.ready 0 true), .server (.install 0), .server (.visit "x" true), .server (.visitorOpened 0),
    .server (.visitorLeft 0), .server (.mux 0 .connectionLost), .server (.ended 0),
    .server (.renewalCancelled 0), .server (.deregister 0)]

end Observed

end Chute
