import Chute.Server.Slots
import Chute.Server.Source

/-!
# The public edge

`_handle_visitor` for every public connection, around the relay. A connection takes one of
the places of its source address, then it waits for the pool, sends the head of its request,
takes a visitor slot of the account of its tunnel and is relayed; whatever way it goes, it
gives back what it took.
-/
namespace Chute

/-- Where a `_handle_visitor` call is. -/
inductive GuestPhase
  /-- Its address has no place left; the answer is being sent. -/
  | refused
  /-- In `_visitor_sem.acquire()`. -/
  | waiting
  /-- In `_read_request_head`. -/
  | reading
  /-- In `mux.open()` or in `_relay`, as this visitor of the relay. -/
  | visiting (v : Nat)
  /-- An answer of the relay's own is being sent. -/
  | answering
  | gone
  deriving DecidableEq, Repr

/-- A public connection with its `visitor_ip_key`. -/
structure Guest where
  key : Option SourceBucket
  phase : GuestPhase
  deriving DecidableEq, Repr

/-- The relay with its public connections. -/
structure Edge where
  server : Server
  maxVisitorsPerIp : Option Nat
  visitorIps : AList fun _ : SourceBucket => Nat
  guests : List Guest

/-- What the read of a request head comes to. -/
inductive Head
  /-- The visitor hung up. -/
  | incomplete
  /-- A timeout, a head that is too large, another failure, or a `_BadRequest`. -/
  | bad
  /-- A host that leads to no label. -/
  | noLabel
  /-- A request for a label; `sent` tells whether the send of OPEN will take the frame. -/
  | request (label : String) (sent : Bool)

namespace Edge

def start (config : ServerConfig) (maxVisitorsPerIp : Option Nat) (now monotonic : ℚ) : Edge where
  server := Server.start config now monotonic
  maxVisitorsPerIp := maxVisitorsPerIp
  visitorIps := ∅
  guests := []

/-- `_VISITOR_IP_MAX_KEYS` -/
def visitorIpMaxKeys : Nat := 65536

/-- `_visitor_ip_key` -/
def visitorIpKey (e : Edge) (ip : Option PeerIp) : Option SourceBucket :=
  if e.maxVisitorsPerIp.isNone then none else sourceIpBucket ip true true

/-- `_try_acquire_visitor_ip`: whether there was a place, the key, and the map it leaves. -/
def tryAcquireVisitorIp (e : Edge) (ip : Option PeerIp) :
    Bool × Option SourceBucket × AList fun _ : SourceBucket => Nat :=
  match e.maxVisitorsPerIp, e.visitorIpKey ip with
  | some limit, some key =>
    let current := (e.visitorIps.lookup key).getD 0
    if current ≥ limit then (false, some key, e.visitorIps)
    else if current = 0 ∧ visitorIpMaxKeys ≤ e.visitorIps.keys.length then
      (false, some key, e.visitorIps)
    else (true, some key, e.visitorIps.insert key (current + 1))
  | _, _ => (true, none, e.visitorIps)

/-- `_release_visitor_ip` -/
def releaseVisitorIp (e : Edge) : Option SourceBucket → Edge
  | none => e
  | some key =>
    let current := (e.visitorIps.lookup key).getD 0
    { e with visitorIps :=
      if current ≤ 1 then e.visitorIps.erase key else e.visitorIps.insert key (current - 1) }

def setGuest (e : Edge) (g : Nat) (phase : GuestPhase) : Edge :=
  { e with guests := e.guests.modify g fun guest => { guest with phase := phase } }

/-- The end of a `_handle_visitor` call that has its place. -/
def finish (e : Edge) (g : Nat) (guest : Guest) : Edge :=
  (e.setGuest g .gone).releaseVisitorIp guest.key

/-- `_handle_visitor` up to its first `await`. -/
def arrive (e : Edge) (ip : Option PeerIp) : Edge :=
  match e.tryAcquireVisitorIp ip with
  | (acquired, key, visitorIps) =>
    { e with
      visitorIps := visitorIps
      guests := e.guests ++ [⟨key, if acquired then .waiting else .refused⟩] }

/-- `_handle_visitor_registered` from the head of the request to its next `await`. -/
def head (e : Edge) (g : Nat) (guest : Guest) : Head → Edge
  | .incomplete => e.finish g guest
  | .bad | .noLabel => e.setGuest g .answering
  | .request label sent =>
    let server := e.server.visit label sent
    -- the visit has put the visitor at the end of the list if it is let in
    let letIn := decide (e.server.visitors.length < server.visitors.length)
    { e with server := server }.setGuest g
      (if letIn then .visiting e.server.visitors.length else .answering)

inductive Action
  | arrive (ip : Option PeerIp)
  /-- `_visitor_sem.acquire()` has returned, or it has timed out. -/
  | pooled (g : Nat) (acquired : Bool)
  | head (g : Nat) (head : Head)
  | opened (g : Nat)
  | openFailed (g : Nat)
  /-- `_relay` has returned, or it has raised. -/
  | relayed (g : Nat)
  /-- The answer is out, or it could not be sent. -/
  | answered (g : Nat)
  /-- Any step of the relay that is none of a visitor's. -/
  | server (a : Server.Action)

def step (e : Edge) : Action → Option Edge
  | .arrive ip => some (e.arrive ip)
  | .pooled g acquired =>
    (e.guests[g]?).bind fun guest =>
      match guest.phase with
      | .waiting => some (e.setGuest g (if acquired then .reading else .answering))
      | _ => none
  | .head g head =>
    (e.guests[g]?).bind fun guest =>
      match guest.phase with
      | .reading => some (e.head g guest head)
      | _ => none
  | .opened g =>
    (e.guests[g]?).bind fun guest =>
      match guest.phase with
      | .visiting v =>
        (e.server.step (.visitorOpened v)).map fun server => { e with server := server }
      | _ => none
  | .openFailed g =>
    (e.guests[g]?).bind fun guest =>
      match guest.phase with
      | .visiting v => (e.server.step (.visitorFailed v)).map fun server =>
          { e with server := server }.setGuest g .answering
      | _ => none
  | .relayed g =>
    (e.guests[g]?).bind fun guest =>
      match guest.phase with
      | .visiting v => (e.server.step (.visitorLeft v)).map fun server =>
          { e with server := server }.finish g guest
      | _ => none
  | .answered g =>
    (e.guests[g]?).bind fun guest =>
      match guest.phase with
      | .refused => some (e.setGuest g .gone)
      | .answering => some (e.finish g guest)
      | _ => none
  | .server a =>
    if a.visits then none else (e.server.step a).map fun server => { e with server := server }

/-! ### Who holds what -/

/-- The connection is a visitor of an account: its slot has been taken and not given back. -/
def holdsSlot (e : Edge) (accountId : String) (guest : Guest) : Bool :=
  match guest.phase with
  | .visiting v =>
    (e.server.visitors[v]?).any fun visitor => e.server.visitorAccount visitor == some accountId
  | _ => false

/-- The connection has a place of the bucket. -/
def holdsPlace (key : SourceBucket) (guest : Guest) : Bool :=
  match guest.phase with
  | .refused | .gone => false
  | _ => guest.key == some key

/-- The slot that a step takes for a connection: its registration, and the relay right after
`_try_acquire_visitor_budget`. -/
def acquires (e : Edge) (g : Nat) : Action → Option (Server.TunnelRegistration × Server)
  | .head h (.request label _) =>
    if h = g then
      match e.server.selectAgentForVisitor label with
      | (some (_, reg), server) => (server.tryAcquireVisitorBudget reg).map (reg, ·)
      | (none, _) => none
    else none
  | _ => none

def takesSlot (g : Nat) (e : Edge) (a : Action) : Bool := (e.acquires g a).isSome

/-- The step calls `_release_visitor_budget` for the connection; `mux.open()` may raise at once. -/
def returnsSlot (g : Nat) (e : Edge) : Action → Bool
  | .head h (.request label sent) => takesSlot g e (.head h (.request label sent)) &&
      decide ((e.server.visit label sent).visitors.length = e.server.visitors.length)
  | .openFailed h | .relayed h => h == g
  | _ => false

/-- The step gives the connection a place of its bucket. -/
def takesPlace (g : Nat) (e : Edge) : Action → Bool
  | .arrive ip => e.guests.length == g && (e.tryAcquireVisitorIp ip).1 &&
      (e.tryAcquireVisitorIp ip).2.1.isSome
  | _ => false

/-- The step calls `_release_visitor_ip` for the connection, with a key. -/
def returnsPlace (g : Nat) (e : Edge) : Action → Bool
  | .head h .incomplete | .relayed h => h == g && ((e.guests[g]?).bind Guest.key).isSome
  | .answered h => h == g &&
      (e.guests[g]?).any fun guest => guest.phase == .answering && guest.key.isSome
  | _ => false

variable {e e' : Edge} {g : Nat} {guest : Guest}

/-! ### Places of a source address -/

/-- The map of buckets counts the connections, within its limits. -/
structure Places (e : Edge) : Prop where
  counted : ∀ key, Tally.count e.visitorIps key = e.guests.countP (holdsPlace key)
  proper : Tally.Proper e.visitorIps
  limited : ∀ limit, e.maxVisitorsPerIp = some limit → ∀ key, Tally.count e.visitorIps key ≤ limit
  capped : e.visitorIps.keys.length ≤ visitorIpMaxKeys

theorem releaseVisitorIp_some (e : Edge) (key : SourceBucket) :
    e.releaseVisitorIp (some key) = { e with visitorIps := Tally.give e.visitorIps key } := rfl

/-- What the arrival of a connection does to the map. -/
theorem acquired_place (e : Edge) (ip : Option PeerIp) :
    (∃ acquired key, e.tryAcquireVisitorIp ip = (acquired, key, e.visitorIps) ∧
      (acquired = true → key = none)) ∨
    ∃ limit key, e.tryAcquireVisitorIp ip = (true, some key, Tally.take e.visitorIps key) ∧
      e.maxVisitorsPerIp = some limit ∧ Tally.count e.visitorIps key < limit ∧
      (Tally.count e.visitorIps key = 0 → e.visitorIps.keys.length < visitorIpMaxKeys) := by
  unfold tryAcquireVisitorIp
  split
  next limit key limits _ =>
    simp only
    split
    · exact Or.inl ⟨false, some key, rfl, by simp⟩
    next free =>
      split
      · exact Or.inl ⟨false, some key, rfl, by simp⟩
      next room =>
        refine Or.inr ⟨limit, key, rfl, limits, Nat.lt_of_not_le free, fun unused => ?_⟩
        exact Nat.lt_of_not_le fun full => room ⟨unused, full⟩
  · exact Or.inl ⟨true, none, rfl, fun _ => rfl⟩

/-- A connection that goes on keeps its place. -/
theorem Places.continues (places : e.Places) (there : e.guests[g]? = some guest) (phase : GuestPhase)
    (same : ∀ key, holdsPlace key { guest with phase := phase } = holdsPlace key guest)
    (limit : e'.maxVisitorsPerIp = e.maxVisitorsPerIp) (ips : e'.visitorIps = e.visitorIps)
    (guests : e'.guests = e.guests.modify g fun guest => { guest with phase := phase }) :
    e'.Places := by
  refine ⟨fun key => ?_, ips ▸ places.proper, limit ▸ ips ▸ places.limited, ips ▸ places.capped⟩
  have moved := Tally.countP_modify (holdsPlace key) (fun guest => { guest with phase := phase }) there
  rw [same key] at moved
  rw [ips, guests, places.counted key]
  omega

/-- The end of a connection that has its place. -/
theorem Places.finish (places : e.Places) (there : e.guests[g]? = some guest)
    (present : ∀ key, holdsPlace key guest = (guest.key == some key)) : (e.finish g guest).Places := by
  have ended : ∀ key, holdsPlace key { guest with phase := .gone } = false := fun _ => rfl
  have moved := fun key =>
    Tally.countP_modify (holdsPlace key) (fun guest => { guest with phase := .gone }) there
  unfold Edge.finish
  cases mine : guest.key with
  | none =>
    refine places.continues there .gone (fun key => ?_) rfl rfl rfl
    rw [ended, present, mine]
    rfl
  | some own =>
    rw [releaseVisitorIp_some]
    have smaller : ∀ key, Tally.count (Tally.give e.visitorIps own) key ≤
        Tally.count e.visitorIps key := fun key => by
      rw [Tally.count_give]
      omega
    refine ⟨fun key => ?_, places.proper.give, fun limit limits key => ?_, ?_⟩
    · have counted := places.counted key
      have changed := moved key
      have held : holdsPlace key guest = decide (key = own) := by
        rw [present, mine]
        by_cases same : key = own
        · simp [same]
        · simp [same, Ne.symm same]
      rw [ended, held] at changed
      show Tally.count (Tally.give e.visitorIps own) key =
        (e.guests.modify g fun guest => { guest with phase := .gone }).countP (holdsPlace key)
      rw [Tally.count_give, counted]
      by_cases same : key = own
      · simp only [same, decide_true, Bool.toNat_true, Bool.toNat_false, if_true] at changed ⊢
        omega
      · simp only [same, decide_false, Bool.toNat_false, if_false] at changed ⊢
        omega
    · exact Nat.le_trans (smaller key) (places.limited limit limits key)
    · exact Nat.le_trans Tally.keys_give places.capped

theorem Places.arrive (places : e.Places) (ip : Option PeerIp) : (e.arrive ip).Places := by
  unfold Edge.arrive
  rcases acquired_place e ip with ⟨acquired, key, tried, keyless⟩ | ⟨limit, own, tried, limits, free, room⟩
  · rw [tried]
    refine ⟨fun other => ?_, places.proper, places.limited, places.capped⟩
    have nothing : holdsPlace other ⟨key, if acquired then .waiting else .refused⟩ = false := by
      cases acquired with
      | false => rfl
      | true =>
        rw [keyless rfl]
        rfl
    simp only [List.countP_append, List.countP_singleton, nothing]
    exact places.counted other
  · rw [tried]
    refine ⟨fun other => ?_, places.proper.take, fun limit' limits' other => ?_,
      places.proper.keys_take places.capped room⟩
    · have held : holdsPlace other ⟨some own, .waiting⟩ = decide (other = own) := by
        by_cases same : other = own
        · simp [holdsPlace, same]
        · simp [holdsPlace, same, Ne.symm same]
      simp only [Tally.count_take, List.countP_append, List.countP_singleton, if_true, held,
        decide_eq_true_eq, places.counted other]
    · rw [limits] at limits'
      cases limits'
      simp only [Tally.count_take]
      split
      next same =>
        subst same
        exact free
      · exact places.limited limit limits other

/-- The phases in which a connection has its place. -/
theorem holdsPlace_present (refused : guest.phase ≠ .refused) (gone : guest.phase ≠ .gone)
    (key : SourceBucket) : holdsPlace key guest = (guest.key == some key) := by
  unfold holdsPlace
  split
  next same => exact absurd same refused
  next same => exact absurd same gone
  · rfl

theorem Places.step (places : e.Places) {a : Action} (moved : e.step a = some e') : e'.Places := by
  -- a connection that has its place and goes on with it
  have continues : ∀ {g guest phase} (server : Server), e.guests[g]? = some guest →
      guest.phase ≠ .refused → guest.phase ≠ .gone → phase ≠ GuestPhase.refused →
      phase ≠ GuestPhase.gone → ({ e with server := server }.setGuest g phase).Places :=
    fun {_ _ phase} _ there refused gone refused' gone' => places.continues there phase
      (fun key => (holdsPlace_present refused' gone' key).trans
        (holdsPlace_present refused gone key).symm) rfl rfl rfl
  have finishes : ∀ {g guest} (server : Server), e.guests[g]? = some guest →
      guest.phase ≠ .refused → guest.phase ≠ .gone →
      ({ e with server := server }.finish g guest).Places := fun {g guest} server there refused gone =>
    Places.finish (e := { e with server := server })
      ⟨places.counted, places.proper, places.limited, places.capped⟩ there
      (holdsPlace_present refused gone)
  cases a with
  | arrive ip =>
    cases moved
    exact places.arrive ip
  | pooled g acquired =>
    obtain ⟨guest, there, moved⟩ := Option.bind_eq_some_iff.mp moved
    split at moved
    next waits =>
      cases moved
      refine continues e.server there (by rw [waits]; nofun) (by rw [waits]; nofun) ?_ ?_
      · cases acquired <;> nofun
      · cases acquired <;> nofun
    · cases moved
  | head g head =>
    obtain ⟨guest, there, moved⟩ := Option.bind_eq_some_iff.mp moved
    split at moved
    next reads =>
      have refused : guest.phase ≠ .refused := by rw [reads]; nofun
      have gone : guest.phase ≠ .gone := by rw [reads]; nofun
      cases moved
      cases head with
      | incomplete => exact finishes e.server there refused gone
      | bad | noLabel => exact continues e.server there refused gone nofun nofun
      | request label sent =>
        refine continues (e.server.visit label sent) there refused gone ?_ ?_
        · split <;> nofun
        · split <;> nofun
    · cases moved
  | opened g =>
    obtain ⟨guest, there, moved⟩ := Option.bind_eq_some_iff.mp moved
    split at moved
    · obtain ⟨server, stepped, rfl⟩ := Option.map_eq_some_iff.mp moved
      exact ⟨places.counted, places.proper, places.limited, places.capped⟩
    · cases moved
  | openFailed g =>
    obtain ⟨guest, there, moved⟩ := Option.bind_eq_some_iff.mp moved
    split at moved
    next v visits =>
      obtain ⟨server, stepped, rfl⟩ := Option.map_eq_some_iff.mp moved
      exact continues server there (by rw [visits]; nofun) (by rw [visits]; nofun) nofun nofun
    · cases moved
  | relayed g =>
    obtain ⟨guest, there, moved⟩ := Option.bind_eq_some_iff.mp moved
    split at moved
    next v visits =>
      obtain ⟨server, stepped, rfl⟩ := Option.map_eq_some_iff.mp moved
      exact finishes server there (by rw [visits]; nofun) (by rw [visits]; nofun)
    · cases moved
  | answered g =>
    obtain ⟨guest, there, moved⟩ := Option.bind_eq_some_iff.mp moved
    split at moved
    next refused =>
      cases moved
      refine places.continues there .gone (fun key => ?_) rfl rfl rfl
      simp [holdsPlace, refused]
    next answers =>
      cases moved
      exact finishes e.server there (by rw [answers]; nofun) (by rw [answers]; nofun)
    · cases moved
  | server a =>
    simp only [Edge.step] at moved
    split at moved
    · cases moved
    · obtain ⟨server, stepped, rfl⟩ := Option.map_eq_some_iff.mp moved
      exact ⟨places.counted, places.proper, places.limited, places.capped⟩

/-! ### Slots of an account -/

/-- The counters of the accounts count the connections that are visitors. -/
structure Occupied (e : Edge) : Prop where
  counted : ∀ accountId,
    e.server.accountActiveStreams accountId = e.guests.countP (e.holdsSlot accountId)
  placed : ∀ guest ∈ e.guests, ∀ v, guest.phase = .visiting v → v < e.server.visitors.length

/-- A visitor keeps its account whatever the relay does. -/
theorem holdsSlot_step (occupied : e.Occupied) (slots : e.server.Slots) {b : Server.Action}
    {server : Server} (moved : e.server.step b = some server) (accountId : String)
    (member : guest ∈ e.guests) :
    holdsSlot { e with server := server } accountId guest = e.holdsSlot accountId guest := by
  unfold holdsSlot
  split
  next v visits =>
    have there := List.getElem?_eq_getElem (occupied.placed guest member v visits)
    obtain ⟨phase, there'⟩ := Server.visitors_step moved there
    have placed := slots.placed _ (List.mem_of_getElem? there)
    have account := (Server.resident_step moved _ placed).2
    rw [there, there', Option.any_some, Option.any_some, Server.visitorAccount, Server.visitorAccount,
      account]
  · rfl

theorem lt_visitors_step {b : Server.Action} {s s' : Server} (moved : s.step b = some s') {v : Nat}
    (short : v < s.visitors.length) : v < s'.visitors.length := by
  obtain ⟨phase, there⟩ := Server.visitors_step moved (List.getElem?_eq_getElem short)
  exact (List.getElem?_eq_some_iff.mp there).1

/-- The relay moves on and a connection changes its phase: the counters follow if they change by
what the connection takes or gives. -/
theorem Occupied.moves (occupied : e.Occupied) (slots : e.server.Slots) {b : Server.Action}
    {server : Server} (moved : e.server.step b = some server) (there : e.guests[g]? = some guest)
    (phase : GuestPhase) (inside : ∀ v, phase = .visiting v → v < server.visitors.length)
    (changed : ∀ accountId, server.accountActiveStreams accountId +
      (e.holdsSlot accountId guest).toNat = e.server.accountActiveStreams accountId +
        (holdsSlot { e with server := server } accountId { guest with phase := phase }).toNat) :
    ({ e with server := server }.setGuest g phase).Occupied := by
  refine ⟨fun accountId => ?_, fun other member v visits => ?_⟩
  · have count := Tally.countP_modify (holdsSlot { e with server := server } accountId)
      (fun guest => { guest with phase := phase }) there
    have same : e.guests.countP (holdsSlot { e with server := server } accountId) =
        e.guests.countP (e.holdsSlot accountId) := List.countP_congr fun other member => by
      rw [holdsSlot_step occupied slots moved accountId member]
    rw [same, holdsSlot_step occupied slots moved accountId (List.mem_of_getElem? there)] at count
    have streams := changed accountId
    have before := occupied.counted accountId
    show server.accountActiveStreams accountId =
      (e.guests.modify g fun guest => { guest with phase := phase }).countP
        (holdsSlot { e with server := server } accountId)
    omega
  · obtain ⟨k, here⟩ := List.mem_iff_getElem?.mp member
    rw [setGuest, List.getElem?_modify] at here
    obtain ⟨old, there', rfl⟩ := Option.map_eq_some_iff.mp here
    split at visits
    · exact inside v visits
    · exact lt_visitors_step moved (occupied.placed old (List.mem_of_getElem? there') v visits)

/-- A connection that is no visitor, before and after. -/
theorem Occupied.waits (occupied : e.Occupied) (there : e.guests[g]? = some guest)
    (outside : ∀ v, guest.phase ≠ .visiting v) (phase : GuestPhase)
    (outside' : ∀ v, phase ≠ .visiting v) : (e.setGuest g phase).Occupied := by
  have none : ∀ {accountId : String} {guest : Guest}, (∀ v, guest.phase ≠ .visiting v) →
      e.holdsSlot accountId guest = false := fun {accountId guest} outside => by
    unfold holdsSlot
    split
    next v visits => exact absurd visits (outside v)
    · rfl
  refine ⟨fun accountId => ?_, fun other member v visits => ?_⟩
  · have count := Tally.countP_modify (e.holdsSlot accountId) (fun guest => { guest with phase := phase })
      there
    rw [none outside, none outside'] at count
    have before := occupied.counted accountId
    show e.server.accountActiveStreams accountId =
      (e.guests.modify g fun guest => { guest with phase := phase }).countP (e.holdsSlot accountId)
    omega
  · obtain ⟨k, here⟩ := List.mem_iff_getElem?.mp member
    rw [setGuest, List.getElem?_modify] at here
    obtain ⟨old, there', rfl⟩ := Option.map_eq_some_iff.mp here
    split at visits
    · exact absurd visits (outside' v)
    · exact occupied.placed old (List.mem_of_getElem? there') v visits

theorem Occupied.arrive (occupied : e.Occupied) (ip : Option PeerIp) : (e.arrive ip).Occupied := by
  unfold Edge.arrive
  cases e.tryAcquireVisitorIp ip with
  | mk acquired rest =>
    obtain ⟨key, visitorIps⟩ := rest
    have none : ∀ v, (if acquired then GuestPhase.waiting else .refused) ≠ .visiting v := fun v => by
      cases acquired <;> nofun
    refine ⟨fun accountId => ?_, fun guest member v visits => ?_⟩
    · show e.server.accountActiveStreams accountId = (e.guests ++ [_]).countP (e.holdsSlot accountId)
      rw [List.countP_append, List.countP_singleton, occupied.counted]
      cases acquired <;> rfl
    · rcases List.mem_append.mp member with before | new
      · exact occupied.placed guest before v visits
      · rw [List.mem_singleton] at new
        subst new
        exact absurd visits (none v)

/-- The map of buckets is no part of it. -/
theorem Occupied.release (occupied : e.Occupied) (key : Option SourceBucket) :
    (e.releaseVisitorIp key).Occupied := by
  cases key with
  | none => exact occupied
  | some key => exact ⟨occupied.counted, occupied.placed⟩

/-- A visitor that leaves: what it held is what its account gets back. -/
theorem Occupied.leaves (occupied : e.Occupied) (slots : e.server.Slots)
    (coherent : e.server.Coherent) {v : Nat} {b : Server.Action} {server : Server}
    (leaving : b = .visitorFailed v ∨ b = .visitorLeft v) (moved : e.server.step b = some server)
    (there : e.guests[g]? = some guest) (visits : guest.phase = .visiting v) (phase : GuestPhase)
    (outside : ∀ v, phase ≠ .visiting v) : ({ e with server := server }.setGuest g phase).Occupied := by
  obtain ⟨visitor, accountId, present, account, gave⟩ := Server.gave_slot coherent moved leaving
  refine occupied.moves slots moved there phase (fun v same => absurd same (outside v)) fun other => ?_
  have held : e.holdsSlot other guest = decide (other = accountId) := by
    rw [holdsSlot, visits]
    simp only [present, Option.any_some, account]
    by_cases same : other = accountId
    · simp [same]
    · simp [same, Ne.symm same]
  have gone : holdsSlot { e with server := server } other { guest with phase := phase } = false := by
    unfold holdsSlot
    split
    next u same => exact absurd same (outside u)
    · rfl
  have counted := occupied.counted other
  have positive : (e.holdsSlot other guest).toNat ≤ e.guests.countP (e.holdsSlot other) := by
    cases mine : e.holdsSlot other guest with
    | false => exact Nat.zero_le _
    | true => exact List.countP_pos_iff.mpr ⟨guest, List.mem_of_getElem? there, mine⟩
  rw [held] at positive ⊢
  rw [gone, gave other]
  by_cases same : other = accountId
  · simp only [same, decide_true, Bool.toNat_true, Bool.toNat_false, if_true] at counted positive ⊢
    omega
  · simp only [same, decide_false, Bool.toNat_false, if_false]
    omega

/-- A request: if it is let in, the account of its registration counts it from now on. -/
theorem Occupied.visits (occupied : e.Occupied) (slots : e.server.Slots)
    (coherent : e.server.Coherent) (there : e.guests[g]? = some guest)
    (reads : guest.phase = .reading) (label : String) (sent : Bool) :
    (e.head g guest (.request label sent)).Occupied := by
  have moved : e.server.step (.visit label sent) = some (e.server.visit label sent) := rfl
  have outside : ∀ accountId, e.holdsSlot accountId guest = false := fun accountId => by
    rw [holdsSlot, reads]
  have kept : ∀ {visitors : List Server.Visitor},
      (e.server.visit label sent).visitors = visitors → visitors.length = e.server.visitors.length →
      (∀ other, (e.server.visit label sent).accountActiveStreams other =
        e.server.accountActiveStreams other) → (e.head g guest (.request label sent)).Occupied := by
    intro visitors same short streams
    have refused : decide (e.server.visitors.length < (e.server.visit label sent).visitors.length) =
        false := by
      rw [same, short]
      simp
    refine occupied.moves slots moved there _ (fun v visits => ?_) fun other => ?_
    · rw [refused] at visits
      cases visits
    · rw [refused, outside, streams]
      rfl
  rcases Server.slots_visit e.server label sent with same | ⟨k, reg, known, -, ⟨stream, taken⟩ | back⟩
  · exact kept (congrArg Prod.fst same) rfl (Server.streams_congr same)
  · have visitors : (e.server.visit label sent).visitors =
        e.server.visitors ++ [⟨label, k, stream, .opening⟩] := congrArg Prod.fst taken
    have counters : (e.server.visit label sent).accountActiveVisitors =
        Tally.take e.server.accountActiveVisitors reg.accountId := congrArg Prod.snd taken
    have letIn : decide (e.server.visitors.length < (e.server.visit label sent).visitors.length) =
        true := by
      rw [visitors]
      simp
    refine occupied.moves slots moved there _ (fun v visits => ?_) fun other => ?_
    · rw [letIn] at visits
      cases visits
      exact of_decide_eq_true letIn
    · have streams : (e.server.visit label sent).accountActiveStreams other =
          e.server.accountActiveStreams other + if other = reg.accountId then 1 else 0 :=
        (congrArg (Tally.count · other) counters).trans (Tally.count_take _ _)
      have placed : (e.server.registration? k).isSome = true := by rw [known]; rfl
      have account : (e.server.visit label sent).roster.account k = some reg.accountId :=
        (Server.resident_step moved k placed).2.trans (coherent.linked k reg known).1
      rw [letIn, outside, streams]
      simp only [holdsSlot, if_true, visitors, List.getElem?_concat_length, Option.any_some,
        Server.visitorAccount, account]
      by_cases mine : other = reg.accountId
      · simp [mine]
      · simp [mine, Ne.symm mine]
  · have counters : (e.server.visit label sent).accountActiveVisitors =
        Tally.give (Tally.take e.server.accountActiveVisitors reg.accountId) reg.accountId :=
      congrArg Prod.snd back
    exact kept (congrArg Prod.fst back) rfl fun other =>
      (congrArg (Tally.count · other) counters).trans (Tally.count_give_take _ _)

/-- The relay of an edge takes one step of its own at most; its limit for an address stays. -/
theorem server_step {a : Action} (moved : e.step a = some e') :
    e'.maxVisitorsPerIp = e.maxVisitorsPerIp ∧
      (e'.server = e.server ∨ ∃ b, e.server.step b = some e'.server) := by
  have limit : ∀ (e : Edge) key, (e.releaseVisitorIp key).maxVisitorsPerIp = e.maxVisitorsPerIp :=
    fun e key => by cases key <;> rfl
  have released : ∀ (e : Edge) key, (e.releaseVisitorIp key).server = e.server := fun e key => by
    cases key <;> rfl
  cases a with
  | arrive ip =>
    cases moved
    exact ⟨rfl, Or.inl rfl⟩
  | pooled g acquired =>
    obtain ⟨guest, -, moved⟩ := Option.bind_eq_some_iff.mp moved
    split at moved <;> cases moved
    exact ⟨rfl, Or.inl rfl⟩
  | head g head =>
    obtain ⟨guest, -, moved⟩ := Option.bind_eq_some_iff.mp moved
    split at moved <;> cases moved
    cases head with
    | incomplete => exact ⟨limit _ guest.key, Or.inl (released _ guest.key)⟩
    | bad | noLabel => exact ⟨rfl, Or.inl rfl⟩
    | request label sent => exact ⟨rfl, Or.inr ⟨.visit label sent, rfl⟩⟩
  | opened g | openFailed g =>
    obtain ⟨guest, -, moved⟩ := Option.bind_eq_some_iff.mp moved
    split at moved
    · obtain ⟨server, stepped, rfl⟩ := Option.map_eq_some_iff.mp moved
      exact ⟨rfl, Or.inr ⟨_, stepped⟩⟩
    · cases moved
  | relayed g =>
    obtain ⟨guest, -, moved⟩ := Option.bind_eq_some_iff.mp moved
    split at moved
    · obtain ⟨server, stepped, rfl⟩ := Option.map_eq_some_iff.mp moved
      refine ⟨limit _ guest.key, Or.inr ⟨_, stepped.trans (congrArg some ?_)⟩⟩
      exact (released ({ e with server := server }.setGuest g .gone) guest.key).symm
    · cases moved
  | answered g =>
    obtain ⟨guest, -, moved⟩ := Option.bind_eq_some_iff.mp moved
    split at moved
    · cases moved
      exact ⟨rfl, Or.inl rfl⟩
    · cases moved
      exact ⟨limit _ guest.key, Or.inl (released _ guest.key)⟩
    · cases moved
  | server b =>
    simp only [Edge.step] at moved
    split at moved
    · cases moved
    · obtain ⟨server, stepped, rfl⟩ := Option.map_eq_some_iff.mp moved
      exact ⟨rfl, Or.inr ⟨b, stepped⟩⟩

theorem Occupied.step (occupied : e.Occupied) (slots : e.server.Slots)
    (coherent : e.server.Coherent) {a : Action} (moved : e.step a = some e') : e'.Occupied := by
  cases a with
  | arrive ip =>
    cases moved
    exact occupied.arrive ip
  | pooled g acquired =>
    obtain ⟨guest, there, moved⟩ := Option.bind_eq_some_iff.mp moved
    split at moved
    next waits =>
      cases moved
      refine occupied.waits there (by rw [waits]; nofun) _ ?_
      cases acquired <;> nofun
    · cases moved
  | head g head =>
    obtain ⟨guest, there, moved⟩ := Option.bind_eq_some_iff.mp moved
    split at moved
    next reads =>
      have outside : ∀ v, guest.phase ≠ .visiting v := by rw [reads]; nofun
      cases moved
      cases head with
      | incomplete => exact (occupied.waits there outside .gone nofun).release guest.key
      | bad | noLabel => exact occupied.waits there outside .answering nofun
      | request label sent => exact occupied.visits slots coherent there reads label sent
    · cases moved
  | opened g =>
    obtain ⟨guest, there, moved⟩ := Option.bind_eq_some_iff.mp moved
    split at moved
    next v visits =>
      obtain ⟨server, stepped, rfl⟩ := Option.map_eq_some_iff.mp moved
      have streams := Server.opened_slot stepped
      refine ⟨fun accountId => ?_, fun other member u same =>
        lt_visitors_step stepped (occupied.placed other member u same)⟩
      show server.accountActiveStreams accountId = _
      rw [streams, occupied.counted]
      exact List.countP_congr fun other member => by
        rw [holdsSlot_step occupied slots stepped accountId member]
    · cases moved
  | openFailed g =>
    obtain ⟨guest, there, moved⟩ := Option.bind_eq_some_iff.mp moved
    split at moved
    next v visits =>
      obtain ⟨server, stepped, rfl⟩ := Option.map_eq_some_iff.mp moved
      exact occupied.leaves slots coherent (Or.inl rfl) stepped there visits .answering nofun
    · cases moved
  | relayed g =>
    obtain ⟨guest, there, moved⟩ := Option.bind_eq_some_iff.mp moved
    split at moved
    next v visits =>
      obtain ⟨server, stepped, rfl⟩ := Option.map_eq_some_iff.mp moved
      have left := occupied.leaves slots coherent (Or.inr rfl) stepped there visits .gone nofun
      exact left.release guest.key
    · cases moved
  | answered g =>
    obtain ⟨guest, there, moved⟩ := Option.bind_eq_some_iff.mp moved
    split at moved
    next refused =>
      cases moved
      exact occupied.waits there (by rw [refused]; nofun) .gone nofun
    next answers =>
      cases moved
      exact (occupied.waits there (by rw [answers]; nofun) .gone nofun).release guest.key
    · cases moved
  | server b =>
    simp only [Edge.step] at moved
    split at moved
    · cases moved
    next other =>
      obtain ⟨server, stepped, rfl⟩ := Option.map_eq_some_iff.mp moved
      have same := Server.slots_step stepped (Bool.eq_false_iff.mpr other)
      refine ⟨fun accountId => ?_, fun guest member u visits =>
        lt_visitors_step stepped (occupied.placed guest member u visits)⟩
      show server.accountActiveStreams accountId = _
      rw [Server.streams_congr same, occupied.counted]
      exact List.countP_congr fun guest member => by
        rw [holdsSlot_step occupied slots stepped accountId member]

/-! ### Each is given back once -/

/-- One where the connection is there and in a phase of this kind. -/
def standing (q : Guest → Bool) (g : Nat) (e : Edge) : Nat := ((e.guests[g]?).any q).toNat

/-- The connection is a visitor. -/
def isVisitor (guest : Guest) : Bool :=
  match guest.phase with
  | .visiting _ => true
  | _ => false

/-- The connection has a place of some bucket. -/
def isPlaced (guest : Guest) : Bool :=
  match guest.phase with
  | .refused | .gone => false
  | _ => guest.key.isSome

/-- The connection has not sent its request yet. -/
def isEarly (guest : Guest) : Bool :=
  match guest.phase with
  | .waiting | .reading => true
  | _ => false

theorem standing_setGuest (q : Guest → Bool) {h : Nat} (there : e.guests[h]? = some guest)
    (e' : Edge) (same : e'.guests = e.guests) (phase : GuestPhase) :
    standing q g (e'.setGuest h phase) + (h == g && q guest).toNat =
      standing q g e + (h == g && q { guest with phase := phase }).toNat := by
  unfold standing setGuest
  rw [List.getElem?_modify, same]
  by_cases mine : h = g
  · subst mine
    simp [there, Nat.add_comm]
  · have apart : (h == g) = false := beq_eq_false_iff_ne.mpr mine
    simp [apart, mine]

theorem guests_releaseVisitorIp (e : Edge) (key : Option SourceBucket) :
    (e.releaseVisitorIp key).guests = e.guests := by
  cases key <;> rfl

theorem standing_finish (q : Guest → Bool) {h : Nat} (there : e.guests[h]? = some guest)
    (e' : Edge) (same : e'.guests = e.guests) :
    standing q g (e'.finish h guest) + (h == g && q guest).toNat =
      standing q g e + (h == g && q { guest with phase := .gone }).toNat := by
  have released := guests_releaseVisitorIp (e'.setGuest h .gone) guest.key
  have set := standing_setGuest (g := g) q there e' same .gone
  unfold Edge.finish
  rw [standing, released]
  exact set

/-- A connection that comes in is at the end of the list. -/
theorem standing_arrive (q : Guest → Bool) (ip : Option PeerIp) :
    standing q g (e.arrive ip) = standing q g e + (e.guests.length == g &&
      q ⟨(e.tryAcquireVisitorIp ip).2.1,
        if (e.tryAcquireVisitorIp ip).1 then .waiting else .refused⟩).toNat := by
  unfold Edge.arrive standing
  rcases Nat.lt_trichotomy g e.guests.length with before | same | after
  · have apart : (e.guests.length == g) = false := beq_eq_false_iff_ne.mpr (by omega)
    simp [List.getElem?_append_left before, apart]
  · subst same
    simp
  · have apart : (e.guests.length == g) = false := beq_eq_false_iff_ne.mpr (by omega)
    have absent : e.guests[g]? = none := List.getElem?_eq_none (Nat.le_of_lt after)
    have absent' : (e.guests ++ [(⟨(e.tryAcquireVisitorIp ip).2.1,
        if (e.tryAcquireVisitorIp ip).1 then .waiting else .refused⟩ : Guest)])[g]? = none := by
      refine List.getElem?_eq_none ?_
      rw [List.length_append]
      exact after
    rw [absent, absent', apart, Bool.false_and]
    rfl

/-- A request that takes no slot changes no visitors. -/
theorem visitors_of_refused {label : String} (sent : Bool)
    (refused : takesSlot g e (.head g (.request label sent)) = false) :
    (e.server.visit label sent).visitors.length = e.server.visitors.length := by
  have selected := Server.slots_selectAgentForVisitor e.server label
  simp only [takesSlot, acquires, if_true] at refused
  unfold Server.visit
  cases chosen : e.server.selectAgentForVisitor label with
  | mk agent t =>
    rw [chosen] at selected refused
    have visitors : t.visitors = e.server.visitors := congrArg Prod.fst selected
    cases agent with
    | none => exact congrArg List.length visitors
    | some agent =>
      cases acquired : t.tryAcquireVisitorBudget agent.2 with
      | none => simp only [acquired, visitors]
      | some u => simp [acquired] at refused

theorem slots_balance {a : Action} (moved : e.step a = some e') :
    standing isVisitor g e' + (returnsSlot g e a).toNat =
      standing isVisitor g e + (takesSlot g e a).toNat := by
  cases a with
  | arrive ip =>
    cases moved
    have none : isVisitor ⟨(e.tryAcquireVisitorIp ip).2.1,
        if (e.tryAcquireVisitorIp ip).1 then .waiting else .refused⟩ = false := by
      cases (e.tryAcquireVisitorIp ip).1 <;> rfl
    rw [standing_arrive, none, Bool.and_false]
    rfl
  | pooled h acquired =>
    obtain ⟨guest, there, moved⟩ := Option.bind_eq_some_iff.mp moved
    split at moved
    next waits =>
      cases moved
      have set := standing_setGuest (g := g) isVisitor there e rfl
        (if acquired then GuestPhase.reading else .answering)
      cases acquired <;> simpa [isVisitor, waits, returnsSlot, takesSlot, acquires] using set
    · cases moved
  | head h head =>
    obtain ⟨guest, there, moved⟩ := Option.bind_eq_some_iff.mp moved
    split at moved
    next reads =>
      have early : isVisitor guest = false := by rw [isVisitor, reads]
      cases moved
      cases head with
      | incomplete =>
        have set := standing_finish (g := g) isVisitor there e rfl
        simpa [Edge.head, reads, isVisitor, returnsSlot, takesSlot, acquires] using set
      | bad | noLabel =>
        have set := standing_setGuest (g := g) isVisitor there e rfl .answering
        simpa [Edge.head, reads, isVisitor, returnsSlot, takesSlot, acquires] using set
      | request label sent =>
        have set := standing_setGuest (g := g) isVisitor there
          { e with server := e.server.visit label sent } rfl
          (if decide (e.server.visitors.length < (e.server.visit label sent).visitors.length) then
            .visiting e.server.visitors.length else .answering)
        rw [early, Bool.and_false, Bool.toNat_false, Nat.add_zero] at set
        show standing isVisitor g ({ e with server := e.server.visit label sent }.setGuest h _) + _ = _
        rw [set, Nat.add_assoc]
        refine congrArg _ ?_
        by_cases mine : h = g
        · subst mine
          have grows : e.server.visitors.length ≤ (e.server.visit label sent).visitors.length :=
            Nat.le_of_not_lt fun less =>
              absurd (lt_visitors_step (b := .visit label sent) rfl less) (Nat.lt_irrefl _)
          cases takes : takesSlot h e (.head h (.request label sent)) with
          | false =>
            have same := visitors_of_refused sent takes
            simp [returnsSlot, takes, same, isVisitor]
          | true =>
            rcases Nat.lt_or_eq_of_le grows with more | same
            · have apart : ¬ (e.server.visit label sent).visitors.length = e.server.visitors.length := by
                omega
              simp [returnsSlot, takes, more, apart, isVisitor]
            · simp [returnsSlot, takes, ← same, isVisitor]
        · have apart : (h == g) = false := beq_eq_false_iff_ne.mpr mine
          simp [returnsSlot, takesSlot, acquires, mine]
    · cases moved
  | opened h =>
    obtain ⟨guest, there, moved⟩ := Option.bind_eq_some_iff.mp moved
    split at moved
    · obtain ⟨server, stepped, rfl⟩ := Option.map_eq_some_iff.mp moved
      rfl
    · cases moved
  | openFailed h =>
    obtain ⟨guest, there, moved⟩ := Option.bind_eq_some_iff.mp moved
    split at moved
    next v visits =>
      obtain ⟨server, stepped, rfl⟩ := Option.map_eq_some_iff.mp moved
      have set := standing_setGuest (g := g) isVisitor there { e with server := server } rfl
        .answering
      simpa [isVisitor, visits, returnsSlot, takesSlot, acquires] using set
    · cases moved
  | relayed h =>
    obtain ⟨guest, there, moved⟩ := Option.bind_eq_some_iff.mp moved
    split at moved
    next v visits =>
      obtain ⟨server, stepped, rfl⟩ := Option.map_eq_some_iff.mp moved
      have set := standing_finish (g := g) isVisitor there { e with server := server } rfl
      simpa [isVisitor, visits, returnsSlot, takesSlot, acquires] using set
    · cases moved
  | answered h =>
    obtain ⟨guest, there, moved⟩ := Option.bind_eq_some_iff.mp moved
    split at moved
    next refused =>
      cases moved
      have set := standing_setGuest (g := g) isVisitor there e rfl .gone
      simpa [isVisitor, refused, returnsSlot, takesSlot, acquires] using set
    next answers =>
      cases moved
      have set := standing_finish (g := g) isVisitor there e rfl
      simpa [isVisitor, answers, returnsSlot, takesSlot, acquires] using set
    · cases moved
  | server b =>
    simp only [Edge.step] at moved
    split at moved
    · cases moved
    · obtain ⟨server, stepped, rfl⟩ := Option.map_eq_some_iff.mp moved
      rfl

theorem places_balance {a : Action} (moved : e.step a = some e') :
    standing isPlaced g e' + (returnsPlace g e a).toNat =
      standing isPlaced g e + (takesPlace g e a).toNat := by
  -- a connection that gives its place back is the one at `g`, with its key
  have key : ∀ {h : Nat} {guest : Guest}, e.guests[h]? = some guest →
      (h == g && guest.key.isSome) = (h == g && ((e.guests[g]?).bind Guest.key).isSome) := by
    intro h guest there
    by_cases mine : h = g
    · subst mine
      rw [there, Option.bind_some]
    · rw [beq_eq_false_iff_ne.mpr mine, Bool.false_and, Bool.false_and]
  cases a with
  | arrive ip =>
    cases moved
    rw [standing_arrive]
    cases acquired : (e.tryAcquireVisitorIp ip).1 with
    | false => simp [takesPlace, returnsPlace, acquired, isPlaced]
    | true => simp [takesPlace, returnsPlace, acquired, isPlaced]
  | pooled h acquired =>
    obtain ⟨guest, there, moved⟩ := Option.bind_eq_some_iff.mp moved
    split at moved
    next waits =>
      cases moved
      have set := standing_setGuest (g := g) isPlaced there e rfl
        (if acquired then GuestPhase.reading else .answering)
      cases acquired <;> simpa [isPlaced, waits, returnsPlace, takesPlace] using set
    · cases moved
  | head h head =>
    obtain ⟨guest, there, moved⟩ := Option.bind_eq_some_iff.mp moved
    split at moved
    next reads =>
      cases moved
      cases head with
      | incomplete =>
        have set := standing_finish (g := g) isPlaced there e rfl
        simpa [Edge.head, reads, isPlaced, returnsPlace, takesPlace, ← key there] using set
      | bad | noLabel =>
        have set := standing_setGuest (g := g) isPlaced there e rfl .answering
        simpa [Edge.head, reads, isPlaced, returnsPlace, takesPlace] using set
      | request label sent =>
        have set := standing_setGuest (g := g) isPlaced there
          { e with server := e.server.visit label sent } rfl
          (if decide (e.server.visitors.length < (e.server.visit label sent).visitors.length) then
            .visiting e.server.visitors.length else .answering)
        have still : ∀ (letIn : Bool) (v : Nat),
            isPlaced ⟨guest.key, if letIn then .visiting v else .answering⟩ = isPlaced guest := by
          intro letIn v
          rw [isPlaced, isPlaced, reads]
          cases letIn <;> rfl
        rw [still] at set
        exact Nat.add_right_cancel set
    · cases moved
  | opened h =>
    obtain ⟨guest, there, moved⟩ := Option.bind_eq_some_iff.mp moved
    split at moved
    · obtain ⟨server, stepped, rfl⟩ := Option.map_eq_some_iff.mp moved
      rfl
    · cases moved
  | openFailed h =>
    obtain ⟨guest, there, moved⟩ := Option.bind_eq_some_iff.mp moved
    split at moved
    next v visits =>
      obtain ⟨server, stepped, rfl⟩ := Option.map_eq_some_iff.mp moved
      have set := standing_setGuest (g := g) isPlaced there { e with server := server } rfl
        .answering
      simpa [isPlaced, visits, returnsPlace, takesPlace] using set
    · cases moved
  | relayed h =>
    obtain ⟨guest, there, moved⟩ := Option.bind_eq_some_iff.mp moved
    split at moved
    next v visits =>
      obtain ⟨server, stepped, rfl⟩ := Option.map_eq_some_iff.mp moved
      have set := standing_finish (g := g) isPlaced there { e with server := server } rfl
      simpa [isPlaced, visits, returnsPlace, takesPlace, ← key there] using set
    · cases moved
  | answered h =>
    obtain ⟨guest, there, moved⟩ := Option.bind_eq_some_iff.mp moved
    have mine : ∀ q : Guest → Bool, (h == g && (e.guests[g]?).any q) = (h == g && q guest) := by
      intro q
      by_cases same : h = g
      · subst same
        rw [there, Option.any_some]
      · rw [beq_eq_false_iff_ne.mpr same, Bool.false_and, Bool.false_and]
    split at moved
    next refused =>
      cases moved
      have set := standing_setGuest (g := g) isPlaced there e rfl .gone
      have apart : (GuestPhase.refused == GuestPhase.answering) = false := rfl
      simpa [isPlaced, refused, returnsPlace, takesPlace, mine, apart] using set
    next answers =>
      cases moved
      have set := standing_finish (g := g) isPlaced there e rfl
      simpa [isPlaced, answers, returnsPlace, takesPlace, mine] using set
    · cases moved
  | server b =>
    simp only [Edge.step] at moved
    split at moved
    · cases moved
    · obtain ⟨server, stepped, rfl⟩ := Option.map_eq_some_iff.mp moved
      rfl

/-- What a step leaves of the list of connections: one more, or one in another phase. -/
theorem guests_step {a : Action} (moved : e.step a = some e') :
    (((∃ guest, e'.guests = e.guests ++ [guest]) ∨ e'.guests = e.guests) ∧
      ∀ g, takesSlot g e a = false) ∨
      ∃ h guest phase, e.guests[h]? = some guest ∧
        e'.guests = e.guests.modify h (fun guest => { guest with phase := phase }) ∧
        (isEarly { guest with phase := phase } = true → isEarly guest = true) ∧
        ∀ g, takesSlot g e a = true → h = g ∧ isEarly guest = true ∧
          isEarly { guest with phase := phase } = false := by
  have finished : ∀ (e : Edge) h guest, (e.finish h guest).guests =
      e.guests.modify h fun guest => { guest with phase := .gone } := fun e h guest =>
    guests_releaseVisitorIp _ guest.key
  cases a with
  | arrive ip =>
    cases moved
    exact Or.inl ⟨Or.inl ⟨_, rfl⟩, fun _ => rfl⟩
  | pooled h acquired =>
    obtain ⟨guest, there, moved⟩ := Option.bind_eq_some_iff.mp moved
    split at moved
    next waits =>
      cases moved
      exact Or.inr ⟨h, guest, _, there, rfl, fun _ => by rw [isEarly, waits], nofun⟩
    · cases moved
  | head h head =>
    obtain ⟨guest, there, moved⟩ := Option.bind_eq_some_iff.mp moved
    split at moved
    next reads =>
      have early : isEarly guest = true := by rw [isEarly, reads]
      cases moved
      cases head with
      | incomplete =>
        exact Or.inr ⟨h, guest, .gone, there, finished e h guest, nofun, nofun⟩
      | bad | noLabel => exact Or.inr ⟨h, guest, .answering, there, rfl, nofun, nofun⟩
      | request label sent =>
        refine Or.inr ⟨h, guest, _, there, rfl, fun _ => early, fun g takes => ?_⟩
        refine ⟨?_, early, ?_⟩
        · by_contra other
          simp [takesSlot, acquires, other] at takes
        · split <;> rfl
    · cases moved
  | opened h =>
    obtain ⟨guest, there, moved⟩ := Option.bind_eq_some_iff.mp moved
    split at moved
    · obtain ⟨server, stepped, rfl⟩ := Option.map_eq_some_iff.mp moved
      exact Or.inl ⟨Or.inr rfl, fun _ => rfl⟩
    · cases moved
  | openFailed h =>
    obtain ⟨guest, there, moved⟩ := Option.bind_eq_some_iff.mp moved
    split at moved
    · obtain ⟨server, stepped, rfl⟩ := Option.map_eq_some_iff.mp moved
      exact Or.inr ⟨h, guest, .answering, there, rfl, nofun, nofun⟩
    · cases moved
  | relayed h =>
    obtain ⟨guest, there, moved⟩ := Option.bind_eq_some_iff.mp moved
    split at moved
    · obtain ⟨server, stepped, rfl⟩ := Option.map_eq_some_iff.mp moved
      exact Or.inr ⟨h, guest, .gone, there, finished _ h guest, nofun, nofun⟩
    · cases moved
  | answered h =>
    obtain ⟨guest, there, moved⟩ := Option.bind_eq_some_iff.mp moved
    split at moved
    · cases moved
      exact Or.inr ⟨h, guest, .gone, there, rfl, nofun, nofun⟩
    · cases moved
      exact Or.inr ⟨h, guest, .gone, there, finished e h guest, nofun, nofun⟩
    · cases moved
  | server b =>
    simp only [Edge.step] at moved
    split at moved
    · cases moved
    · obtain ⟨server, stepped, rfl⟩ := Option.map_eq_some_iff.mp moved
      exact Or.inl ⟨Or.inr rfl, fun _ => rfl⟩

/-- One slot for a connection at most: it sends one request. -/
theorem slots_supply {a : Action} (moved : e.step a = some e') :
    ((e'.guests[g]?).all isEarly).toNat + (takesSlot g e a).toNat ≤
      ((e.guests[g]?).all isEarly).toNat := by
  rcases guests_step moved with ⟨grown, nothing⟩ | ⟨h, guest, phase, there, set, early, taken⟩
  · rw [nothing]
    rcases grown with ⟨guest, grown⟩ | same
    · rw [grown]
      rcases Nat.lt_or_ge g e.guests.length with before | after
      · rw [List.getElem?_append_left before]
        exact Nat.le_refl _
      · rw [List.getElem?_eq_none after]
        exact Bool.toNat_le _
    · rw [same]
      exact Nat.le_refl _
  · rw [set, List.getElem?_modify]
    by_cases mine : h = g
    · subst mine
      simp only [there, if_true, Option.map_eq_map, Option.map_some, Option.all_some]
      cases takes : takesSlot h e a with
      | true =>
        obtain ⟨-, was, is⟩ := taken h takes
        rw [was, is]
        exact Nat.le_refl _
      | false =>
        cases is : isEarly { guest with phase := phase } with
        | true =>
          rw [early is]
          exact Nat.le_refl _
        | false => exact Nat.zero_le _
    · have nothing : takesSlot g e a = false := Bool.eq_false_iff.mpr fun takes => mine (taken g takes).1
      simp [nothing, mine]

/-- One place for a connection at most: it arrives once. -/
theorem places_supply {a : Action} (moved : e.step a = some e') :
    (e'.guests[g]?).isNone.toNat + (takesPlace g e a).toNat ≤ (e.guests[g]?).isNone.toNat := by
  have arrives : takesPlace g e a = true → ∃ ip, a = .arrive ip ∧ e.guests.length = g := by
    intro takes
    cases a with
    | arrive ip =>
      simp only [takesPlace, Bool.and_eq_true, beq_iff_eq] at takes
      exact ⟨ip, rfl, takes.1.1⟩
    | _ => cases takes
  have stays : (e'.guests[g]?).isNone.toNat ≤ (e.guests[g]?).isNone.toNat := by
    rcases guests_step moved with ⟨⟨guest, grown⟩ | same, -⟩ | ⟨h, guest, phase, there, set, -⟩
    · rw [grown]
      rcases Nat.lt_or_ge g e.guests.length with before | after
      · rw [List.getElem?_append_left before]
      · rw [List.getElem?_eq_none after]
        exact Bool.toNat_le _
    · rw [same]
    · rw [set, List.getElem?_modify]
      cases e.guests[g]? <;> exact Nat.le_refl _
  cases takes : takesPlace g e a with
  | false => exact stays
  | true =>
    obtain ⟨ip, rfl, rfl⟩ := arrives takes
    cases moved
    simp [Edge.arrive]

/-! ### The whole run -/

/-- What holds at the end of every run from a relay with this limit for an address. -/
structure Kept (maxVisitorsPerIp : Option Nat) (e : Edge) : Prop where
  limit : e.maxVisitorsPerIp = maxVisitorsPerIp
  coherent : e.server.Coherent
  slots : e.server.Slots
  occupied : e.Occupied
  places : e.Places

theorem Kept.step {maxVisitorsPerIp : Option Nat} (kept : Kept maxVisitorsPerIp e) {a : Action}
    (moved : e.step a = some e') : Kept maxVisitorsPerIp e' := by
  obtain ⟨limit, stepped⟩ := server_step moved
  have occupied := kept.occupied.step kept.slots kept.coherent moved
  have places := kept.places.step moved
  rcases stepped with same | ⟨b, stepped⟩
  · exact ⟨limit.trans kept.limit, same ▸ kept.coherent, same ▸ kept.slots, occupied, places⟩
  · exact ⟨limit.trans kept.limit, kept.coherent.step stepped, kept.slots.step kept.coherent stepped,
      occupied, places⟩

theorem kept_start (config : ServerConfig) (maxVisitorsPerIp : Option Nat) (now monotonic : ℚ) :
    Kept maxVisitorsPerIp (start config maxVisitorsPerIp now monotonic) where
  limit := rfl
  coherent := Server.coherent_start config now monotonic
  slots := Server.slots_start config now monotonic
  occupied := ⟨fun _ => rfl, nofun⟩
  places := ⟨fun _ => rfl, fun _ => by simp [start], fun _ _ _ => Nat.zero_le _, Nat.zero_le _⟩

/-- A slot that is taken is within the budget of its account at that moment. -/
theorem acquires_within (occupied : e.Occupied) {a : Action} {reg : Server.TunnelRegistration}
    {s : Server} (acquired : e.acquires g a = some (reg, s)) :
    s.accountActiveStreams reg.accountId = e.guests.countP (e.holdsSlot reg.accountId) + 1 ∧
      ∀ limit, (e.server.accountBudget reg).maxVisitors = some limit →
        s.accountActiveStreams reg.accountId ≤ limit := by
  unfold acquires at acquired
  split at acquired
  · split at acquired
    · split at acquired
      next k reg' t selected =>
        obtain ⟨u, took, same⟩ := Option.map_eq_some_iff.mp acquired
        cases same
        obtain ⟨rfl, -⟩ := Server.selectAgentForVisitor_some selected
        obtain ⟨rfl, room⟩ := Server.acquired_slot took
        have counted : Tally.count (Tally.take e.server.accountActiveVisitors reg.accountId)
            reg.accountId = e.server.accountActiveStreams reg.accountId + 1 := by
          rw [Tally.count_take, if_pos rfl]
          rfl
        refine ⟨counted.trans (congrArg (· + 1) (occupied.counted reg.accountId)), ?_⟩
        intro limit enforced
        rw [enforced] at room
        have free : e.server.accountActiveStreams reg.accountId < limit := by simpa using room
        exact counted.trans_le free
      · cases acquired
    · cases acquired
  · cases acquired

/-- **Visitor slots.** At the end of every run the counter of an account is the number of
connections that are its visitors, and that of a bucket the number of connections that have a
place of it; no entry is zero, and no bucket is above its limit, nor the map above its cap. Each
connection has taken a slot and a place once at most, and given back each of them once, or it has
it still. A slot is only taken within the budget in force. -/
theorem visitor_slots {config : ServerConfig} {maxVisitorsPerIp : Option Nat} {now monotonic : ℚ}
    {as : List Action}
    (ran : Transition.run step (start config maxVisitorsPerIp now monotonic) as = some e) :
    (∀ accountId,
      e.server.accountActiveStreams accountId = e.guests.countP (e.holdsSlot accountId)) ∧
    (∀ key, Tally.count e.visitorIps key = e.guests.countP (holdsPlace key)) ∧
    Tally.Proper e.server.accountActiveVisitors ∧ Tally.Proper e.visitorIps ∧
    (∀ g,
      let tally p := Transition.tally step p (start config maxVisitorsPerIp now monotonic) as
      tally (takesSlot g) ≤ 1 ∧ standing isVisitor g e + tally (returnsSlot g) = tally (takesSlot g) ∧
      tally (takesPlace g) ≤ 1 ∧
        standing isPlaced g e + tally (returnsPlace g) = tally (takesPlace g)) ∧
    (∀ limit, maxVisitorsPerIp = some limit → ∀ key, Tally.count e.visitorIps key ≤ limit) ∧
    e.visitorIps.keys.length ≤ visitorIpMaxKeys ∧
    ∀ g a reg s, e.acquires g a = some (reg, s) →
      s.accountActiveStreams reg.accountId = e.guests.countP (e.holdsSlot reg.accountId) + 1 ∧
      ∀ limit, (e.server.accountBudget reg).maxVisitors = some limit →
        s.accountActiveStreams reg.accountId ≤ limit := by
  have kept : Kept maxVisitorsPerIp e :=
    Transition.run_invariant' (fun _ _ _ kept moved => Kept.step kept moved)
      (kept_start config maxVisitorsPerIp now monotonic) ran
  refine ⟨kept.occupied.counted, kept.places.counted, kept.slots.proper, kept.places.proper,
    fun g => ?_, fun limit limits => kept.places.limited limit (kept.limit.trans limits),
    kept.places.capped, fun g a reg s acquired => acquires_within kept.occupied acquired⟩
  have slots := Transition.tally_balance (p := takesSlot g) (q := returnsSlot g)
    (fun (e : Edge) a e' moved => slots_balance moved) ran
  have places := Transition.tally_balance (p := takesPlace g) (q := returnsPlace g)
    (fun (e : Edge) a e' moved => places_balance moved) ran
  have once := Transition.tally_le (p := takesSlot g)
    (fun (e : Edge) a e' moved => slots_supply moved) ran
  have arrived := Transition.tally_le (p := takesPlace g)
    (fun (e : Edge) a e' moved => places_supply moved) ran
  have nobody : standing isVisitor g (start config maxVisitorsPerIp now monotonic) = 0 := rfl
  have nowhere : standing isPlaced g (start config maxVisitorsPerIp now monotonic) = 0 := rfl
  rw [nobody, Nat.zero_add] at slots
  rw [nowhere, Nat.zero_add] at places
  refine ⟨?_, slots, ?_, places⟩
  · exact Nat.le_trans (Nat.le_add_left _ _) (Nat.le_trans once (Bool.toNat_le _))
  · exact Nat.le_trans (Nat.le_add_left _ _) (Nat.le_trans arrived (Bool.toNat_le _))

/-- A visitor whose tunnel is revoked under it, and one from the same address, mapped into IPv6,
that finds no place. -/
def outlived : List Action :=
  .server (.admitTunnel (Server.plainAdmission "a" "first" 1 .none) (some "x") .http .default) ::
    (Server.setUp 0).map .server ++
    [.arrive (some (.ipv4 0x0A000001)), .pooled 0 true, .head 0 (.request "x" true), .opened 0,
      .arrive (some (.ipv6 0xFFFF0A000001 none)), .server (.revokeLease "first" .drain)]

/-- Its slot outlives the tunnel, and goes with the visitor. -/
theorem slots_of_outlived : ∃ e e₁,
    Transition.run step (start Server.smallRelay (some 1) 0 0) outlived = some e ∧
    e.server.agents.lookup "x" = none ∧ e.server.accountActiveStreams "a" = 1 ∧
    e.guests.countP (e.holdsSlot "a") = 1 ∧ e.guests.countP (holdsPlace (.ipv4 0x0A000001)) = 1 ∧
    Transition.run step (start Server.smallRelay (some 1) 0 0)
      (outlived ++ [.relayed 0, .answered 1]) = some e₁ ∧
    e₁.server.accountActiveStreams "a" = 0 ∧ e₁.guests.countP (e₁.holdsSlot "a") = 0 := by
  have done : ((Transition.run step (start Server.smallRelay (some 1) 0 0) outlived).bind fun e =>
      (Transition.run step (start Server.smallRelay (some 1) 0 0)
        (outlived ++ [.relayed 0, .answered 1])).map fun e₁ =>
        (e.server.agents.lookup "x", e.server.accountActiveStreams "a",
          Tally.count e.visitorIps (.ipv4 0x0A000001), e₁.server.accountActiveStreams "a")) =
      some (none, 1, 1, 0) := by
    decide
  obtain ⟨e, ran, done⟩ := Option.bind_eq_some_iff.mp done
  obtain ⟨e₁, ran₁, facts⟩ := Option.map_eq_some_iff.mp done
  simp only [Prod.mk.injEq] at facts
  obtain ⟨retired, holds, placed, left⟩ := facts
  obtain ⟨slots, places, -⟩ := visitor_slots ran
  obtain ⟨later, -⟩ := visitor_slots ran₁
  exact ⟨e, e₁, ran, retired, holds, (slots "a").symm.trans holds, (places _).symm.trans placed, ran₁,
    left, (later "a").symm.trans left⟩

end Edge

end Chute
