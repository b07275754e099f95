import Chute.Mux.Balance
import Chute.Mux.Listens
import Chute.Relay.Visit

/-!
# Invariants of the visits of a relay

Any step of a relay server is, for one visitor, a turn of his own relay, something that
his stream listens to, or nothing. `Keeps` lists what a property of a visit has to stand,
and `Intact.step` is the induction step for all such properties.
-/
namespace Chute

theorem calls_other {call : Action} {r r' : Ref} (own : call.calls r = true ∨ call = .openReturn r)
    (apart : r' ≠ r) : call.calls r' = false := by
  have ne : r ≠ r' := Ne.symm apart
  rcases own with own | rfl
  · cases call <;> simp_all [Action.calls, Action.target]
  · simp [Action.calls, Action.target]

theorem local_of_calls {call : Action} {r : Ref} (own : call.calls r = true ∨ call = .openReturn r) :
    call.isMessage = false ∧ Traffic.unattended call = false := by
  rcases own with own | rfl
  · cases call <;> simp_all [Action.calls, Action.target, Action.isMessage, Traffic.unattended]
  · exact ⟨rfl, rfl⟩

namespace Relay

/-- What the writer pump has read and not written. -/
def held (p : Relay) : Bytes := (p.writer.map WriterPump.held).getD []

/-- `_relay` has not come to its end, and was not left out. -/
def underWay (p : Relay) : Bool := p.phase != .finished && p.phase != .refused

/-- A turn of the main coroutine that does not touch the socket or the receive direction. -/
structure Goes (r : Ref) (p : Relay) (t : Turn Relay) : Prop where
  call : ∀ c, t.call = some c → c.target = some r ∧ c ≠ .read r ∨ c = .openReturn r
  underWay : p.underWay = true
  next : ∀ res, t.next res = p.startPumps ∧ p.phase.early = true ∨
    ∃ phase, t.next res = p.go phase ∧ phase ≠ .finished ∧ phase ≠ .refused ∧
      (phase.early = true → p.phase.early = true) ∧
      (phase.stopped = true → p.phase.early = true ∨ p.settled = true)

/-- Everything a relay and its pumps can do in one turn. -/
inductive Turns (m : Mux) (r : Ref) (p : Relay) : Relay.Action → Turn Relay → Prop
  | socket (e : Socket.Event) (k : Socket) (event : p.socket.event e = some k)
      (order : e = .dropped → Task.reset r ∉ m.tasks) :
      Turns m r p (.socket e) (.quiet { p with socket := k })
  | reader (a : ReaderPump.Action) (pump : ReaderPump) (t : Turn (Socket × ReaderPump))
      (running : p.reader = some pump) (took : pump.turn r true p.socket a = some t) :
      Turns m r p (.reader a)
        (t.map fun out => { p with socket := out.1, reader := some out.2 })
  | writer (a : WriterPump.Action) (pump : WriterPump) (t : Turn (Socket × WriterPump))
      (running : p.writer = some pump)
      (took : pump.turn r true ((m.heap r).any Stream.resetByPeer) p.socket a = some t) :
      Turns m r p (.writer a)
        (t.map fun out => { p with socket := out.1, writer := some out.2 })
  | idle (phase : p.phase = .waiting ∨ p.phase = .halfClosed) :
      Turns m r p .idle (.quiet { p with idle := true })
  | main (a : Relay.Action) (t : Turn Relay) (goes : p.Goes r t) : Turns m r p a t
  | refused (phase : p.phase = .opening) :
      Turns m r p .openFailed ⟨some (.openRaise r), fun _ => p.go .refused⟩
  | reset (sent : Bool) (phase : p.phase = .resetting) :
      Turns m r p (.reset sent) ⟨some (.reset r sent), fun _ => p.go .closing⟩
  | close (phase : p.phase = .closing) :
      Turns m r p .close
        ⟨some (.close r), fun _ => { p.go .finished with socket := p.socket.close }⟩

section

variable {m : Mux} {r : Ref} {p : Relay}

/-- A change of phase, after a call that leaves the receive direction alone. -/
private theorem goes_go {call : Option Chute.Action} (phase : RelayPhase)
    (plain : ∀ c, call = some c → c.target = some r ∧ c ≠ .read r ∨ c = .openReturn r)
    (underWay : p.underWay = true) (ends : phase ≠ .finished ∧ phase ≠ .refused)
    (early : phase.early = true → p.phase.early = true)
    (stopped : phase.stopped = true → p.phase.early = true ∨ p.settled = true) :
    p.Goes r ⟨call, fun _ => p.go phase⟩ :=
  ⟨plain, underWay, fun _ => Or.inr ⟨phase, rfl, ends.1, ends.2, early, stopped⟩⟩

/-- A segment of `stream.send(initial)`. -/
private theorem goes_initial {c : Chute.Action} (own : c.target = some r) (unread : c ≠ .read r)
    (phase : p.phase = .queued ∨ p.phase = .sending) : p.Goes r ⟨some c, p.afterInitial⟩ := by
  have early : p.phase.early = true := by rcases phase with phase | phase <;> rw [phase] <;> rfl
  refine ⟨?_, ?_, fun res => ?_⟩
  · rintro _ ⟨⟩
    exact Or.inl ⟨own, unread⟩
  · rcases phase with phase | phase <;> simp [underWay, phase]
  · cases res with
    | returned => exact Or.inl ⟨rfl, early⟩
    | suspended =>
      exact Or.inr ⟨.sending, rfl, by simp, by simp, fun _ => early, by simp [RelayPhase.stopped]⟩
    | raised => exact Or.inr ⟨.resetting, rfl, by simp, by simp, fun _ => early, fun _ => Or.inl early⟩
    | chunk c => exact Or.inr ⟨.resetting, rfl, by simp, by simp, fun _ => early, fun _ => Or.inl early⟩

/-- A segment of the `send_eof` after the response. -/
private theorem goes_eof {c : Chute.Action} (own : c.target = some r) (unread : c ≠ .read r)
    (phase : p.phase = .ending ∨ p.phase = .ended) : p.Goes r ⟨some c, p.afterEof⟩ := by
  refine ⟨?_, ?_, fun res => Or.inr ?_⟩
  · rintro _ ⟨⟩
    exact Or.inl ⟨own, unread⟩
  · rcases phase with phase | phase <;> simp [underWay, phase]
  · cases res with
    | suspended => exact ⟨.ended, rfl, by simp, by simp, nofun, nofun⟩
    | _ => exact ⟨.stopping .returned, rfl, by simp, by simp, nofun, nofun⟩

/-- `wake` moves the main coroutine on, out of the `finally` only past the pumps. -/
private theorem goes_wake {q : Relay} (woke : p.wake = some q) : p.Goes r (.quiet q) := by
  have plain : ∀ c, (none : Option Chute.Action) = some c →
      c.target = some r ∧ c ≠ .read r ∨ c = .openReturn r := nofun
  unfold wake at woke
  split at woke
  next phase =>
    have going : p.underWay = true := by simp [underWay, phase]
    repeat' split at woke
    all_goals cases woke
    all_goals exact goes_go _ plain going (by simp) nofun nofun
  next phase =>
    have going : p.underWay = true := by simp [underWay, phase]
    repeat' split at woke
    all_goals cases woke
    all_goals exact goes_go _ plain going (by simp) nofun nofun
  next o phase =>
    have going : p.underWay = true := by simp [underWay, phase]
    split at woke
    next settled =>
      split at woke
      all_goals cases woke
      all_goals exact goes_go _ plain going (by simp) nofun fun _ => Or.inr settled
    · cases woke
  · cases woke

theorem turns_of_turn {a : Relay.Action} {t : Turn Relay} (took : p.turn m r a = some t) :
    p.Turns m r a t := by
  cases a with
  | socket e =>
    simp only [turn] at took
    split at took
    · cases took
    next order =>
      obtain ⟨k, event, rfl⟩ := Option.map_eq_some_iff.mp took
      exact .socket e k event fun dropped pending => order ⟨dropped, pending⟩
  | reader a =>
    simp only [turn] at took
    split at took
    · cases took
    · obtain ⟨pump, running, took⟩ := Option.bind_eq_some_iff.mp took
      obtain ⟨t', took', rfl⟩ := Option.map_eq_some_iff.mp took
      exact .reader a pump t' running took'
  | writer a =>
    simp only [turn] at took
    split at took
    · cases took
    · obtain ⟨pump, running, took⟩ := Option.bind_eq_some_iff.mp took
      obtain ⟨t', took', rfl⟩ := Option.map_eq_some_iff.mp took
      exact .writer a pump t' running took'
  | opened =>
    simp only [turn] at took
    split at took
    next phase =>
      cases took
      refine .main _ _ (goes_go .announcing ?_ (by simp [underWay, phase]) (by simp) ?_ nofun)
      · rintro _ ⟨⟩
        exact Or.inr rfl
      · rw [phase]; exact fun _ => rfl
    · cases took
  | openFailed =>
    simp only [turn] at took
    split at took
    next phase => cases took; exact .refused phase
    · cases took
  | announced =>
    simp only [turn] at took
    split at took
    next phase =>
      cases took
      exact .main _ _ (goes_go .throttling nofun (by simp [underWay, phase]) (by simp)
        (by rw [phase]; exact fun _ => rfl) nofun)
    · cases took
  | throttled ok =>
    simp only [turn] at took
    split at took
    next phase =>
      have early : p.phase.early = true := by rw [phase]; rfl
      cases took
      cases ok with
      | true =>
        exact .main _ _ (goes_go .queued nofun (by simp [underWay, phase]) (by simp)
          (fun _ => early) nofun)
      | false =>
        exact .main _ _ (goes_go .resetting nofun (by simp [underWay, phase]) (by simp) nofun
          fun _ => Or.inl early)
    · cases took
  | start sent =>
    simp only [turn] at took
    split at took
    next phase => cases took; exact .main _ _ (goes_initial rfl (by simp) (Or.inl phase))
    next phase => cases took; exact .main _ _ (goes_eof rfl (by simp) (Or.inl phase))
    · cases took
  | resume sent =>
    simp only [turn] at took
    split at took
    next phase => cases took; exact .main _ _ (goes_initial rfl (by simp) (Or.inr phase))
    next phase => cases took; exact .main _ _ (goes_eof rfl (by simp) (Or.inr phase))
    · cases took
  | stall =>
    simp only [turn] at took
    split at took
    next phase =>
      cases took
      refine .main _ _ (goes_go .resetting ?_ (by simp [underWay, phase]) (by simp) nofun
        fun _ => Or.inl (by rw [phase]; rfl))
      rintro _ ⟨⟩
      exact Or.inl ⟨rfl, by simp⟩
    · cases took
  | fail =>
    have plain : ∀ c, some (Chute.Action.sendRaise r) = some c →
        c.target = some r ∧ c ≠ .read r ∨ c = .openReturn r := by
      rintro _ ⟨⟩
      exact Or.inl ⟨rfl, by simp⟩
    simp only [turn] at took
    split at took
    next phase =>
      cases took
      exact .main _ _ (goes_go .resetting plain (by simp [underWay, phase]) (by simp) nofun
        fun _ => Or.inl (by rw [phase]; rfl))
    next phase =>
      cases took
      exact .main _ _ (goes_go (.stopping .returned) plain (by simp [underWay, phase]) (by simp)
        nofun nofun)
    · cases took
  | idle =>
    simp only [turn] at took
    split at took
    next phase => cases took; exact .idle phase.2
    · cases took
  | wake =>
    obtain ⟨q, woke, rfl⟩ := Option.map_eq_some_iff.mp took
    exact .main _ _ (goes_wake woke)
  | reset sent =>
    simp only [turn] at took
    split at took
    next phase => cases took; exact .reset sent phase
    · cases took
  | close =>
    simp only [turn] at took
    split at took
    next phase => cases took; exact .close phase
    · cases took
  | cancel =>
    have plain : ∀ c, some (Chute.Action.sendRaise r) = some c →
        c.target = some r ∧ c ≠ .read r ∨ c = .openReturn r := by
      rintro _ ⟨⟩
      exact Or.inl ⟨rfl, by simp⟩
    simp only [turn, cancel] at took
    split at took
    next phase =>
      cases took
      exact .main _ _ (goes_go .closing nofun (by simp [underWay, phase]) (by simp) nofun
        fun _ => Or.inl (by rw [phase]; rfl))
    next phase =>
      cases took
      exact .main _ _ (goes_go .closing nofun (by simp [underWay, phase]) (by simp) nofun
        fun _ => Or.inl (by rw [phase]; rfl))
    next phase =>
      cases took
      exact .main _ _ (goes_go .closing plain (by simp [underWay, phase]) (by simp) nofun
        fun _ => Or.inl (by rw [phase]; rfl))
    next phase =>
      cases took
      exact .main _ _ (goes_go (.stopping .cancelled) nofun (by simp [underWay, phase]) (by simp)
        nofun nofun)
    next phase =>
      cases took
      exact .main _ _ (goes_go (.stopping .cancelled) nofun (by simp [underWay, phase]) (by simp)
        nofun nofun)
    next phase =>
      cases took
      exact .main _ _ (goes_go (.stopping .cancelled) nofun (by simp [underWay, phase]) (by simp)
        nofun nofun)
    next phase =>
      cases took
      exact .main _ _ (goes_go (.stopping .cancelled) plain (by simp [underWay, phase]) (by simp)
        nofun nofun)
    · cases took

end

/-- A turn calls nothing but its own stream. -/
theorem Turns.calls {m : Mux} {r : Ref} {p : Relay} {a : Relay.Action} {t : Turn Relay}
    (turns : p.Turns m r a t) {call : Chute.Action} (calls : t.call = some call) :
    call.calls r = true ∨ call = .openReturn r := by
  have own : call.target = some r → call.calls r = true := by
    intro target
    cases call <;> simp_all [Action.calls, Action.target]
  cases turns with
  | socket e k event order => cases calls
  | reader a pump t running took => exact Or.inl (own (pump.turn_target took calls).1)
  | writer a pump t running took => exact Or.inl (own (pump.turn_target took calls))
  | idle phase => cases calls
  | main a t goes =>
    rcases goes.call call calls with ⟨target, -⟩ | openReturn
    · exact Or.inl (own target)
    · exact Or.inr openReturn
  | refused phase => cases calls; exact Or.inl (by simp [Action.calls])
  | reset sent phase => cases calls; exact Or.inl (by simp [Action.calls])
  | close phase => cases calls; exact Or.inl (by simp [Action.calls])

end Relay

namespace Traffic

theorem calls_of_unattended {a : Chute.Action} (alone : unattended a = true) (r : Ref) :
    a.calls r = false := by
  cases a <;> simp_all [unattended, Chute.Action.calls, Chute.Action.target]

/-- The connection of a visit and its stream object. -/
structure Serves (T : Traffic) (v : Visit) (reg : TunnelRegistration) (s : Stream) : Prop where
  found : T.server.registrations[v.conn]? = some reg
  stream : reg.mux.heap v.ref = some s

/-- What a property of a visit and its stream has to stand. -/
structure Keeps (inv : Stream → Visit → Prop) (P : Traffic → Action → Prop) : Prop where
  start : ∀ c i r initial canWriteEof watched,
    inv (Stream.new c) ⟨i, r, .new initial canWriteEof watched, .new⟩
  same : ∀ {s t v}, inv s v → Host.SameSide s t → inv t v
  hears : ∀ {T : Traffic} {v reg s t a}, P T (.connection v.conn a) →
    (∃ k : Nat, T.visits[k]? = some v) → T.Serves v reg s → inv s v → (T.server.host reg).Listens v.ref s a t → inv t (hear v.conn a v)
  quiet : ∀ {T : Traffic} {k : Nat} {v reg s a} {turn : Turn Relay}, P T (.relay k a) →
    T.visits[k]? = some v → T.Serves v reg s → s.Sealed → inv s v →
    v.relay.Turns reg.mux v.ref a turn → turn.call = none →
    inv s { v with relay := turn.next .returned }
  calls : ∀ {T : Traffic} {k : Nat} {v reg s t a} {turn : Turn Relay} {call res},
    P T (.relay k a) → T.visits[k]? = some v → T.Serves v reg s → s.Sealed → inv s v →
    v.relay.Turns reg.mux v.ref a turn → turn.call = some call →
    Host.Answers v.ref s call res t → inv t { v with relay := turn.next res }

structure Intact (inv : Stream → Visit → Prop) (T : Traffic) : Prop where
  sound : T.server.Sound
  sealed : ∀ reg ∈ T.server.registrations, reg.mux.Sealed
  visits : ∀ (k : Nat) v, T.visits[k]? = some v → ∃ reg s, T.Serves v reg s ∧ inv s v
  distinct : ∀ (j k : Nat) v w, T.visits[j]? = some v → T.visits[k]? = some w → v.conn = w.conn →
    v.ref = w.ref → j = k

theorem intact_new (inv : Stream → Visit → Prop) : new.Intact inv :=
  ⟨RelayServer.sound_new, by simp [new, RelayServer.new], by simp [new], by simp [new]⟩

/-- What a step on a connection leaves of the relay server. -/
theorem act_some {server server' : RelayServer} {i : Nat} {a : Chute.Action}
    (moved : server.step (.act i a) = some server') :
    ∃ reg e, server.registrations[i]? = some reg ∧ (server.host reg).step a = some e ∧
      server'.registrations = server.registrations.set i { reg with mux := e.host.mux } := by
  obtain ⟨reg, found, moved⟩ := Option.bind_eq_some_iff.mp moved
  obtain ⟨e, stepped, rfl⟩ := Option.map_eq_some_iff.mp moved
  exact ⟨reg, e, found, stepped, rfl⟩

theorem perform_some {server server' : RelayServer} {i : Nat} {a : Chute.Action} {res : Result}
    (moved : perform server i a = some (server', res)) :
    ∃ reg e, server.registrations[i]? = some reg ∧ (server.host reg).step a = some e ∧
      server.step (.act i a) = some server' ∧
      server'.registrations = server.registrations.set i { reg with mux := e.host.mux } ∧
      res = e.result := by
  obtain ⟨reg, found, moved⟩ := Option.bind_eq_some_iff.mp moved
  obtain ⟨e, stepped, moved⟩ := Option.bind_eq_some_iff.mp moved
  obtain ⟨server₁, acted, same⟩ := Option.map_eq_some_iff.mp moved
  cases same
  obtain ⟨reg₁, e₁, found₁, stepped₁, registrations⟩ := act_some acted
  cases found.symm.trans found₁
  cases stepped.symm.trans stepped₁
  exact ⟨reg, e, found, stepped, acted, registrations, rfl⟩

section

variable {inv : Stream → Visit → Prop} {P : Traffic → Action → Prop} {T : Traffic}

/-- Setting the connection `i` after a step of it keeps the queues sealed. -/
private theorem sealed_act (intact : T.Intact inv) {i : Nat} {a : Chute.Action}
    {reg : TunnelRegistration} {e : Effect} (found : T.server.registrations[i]? = some reg)
    (stepped : (T.server.host reg).step a = some e) {server' : RelayServer}
    (registrations : server'.registrations =
      T.server.registrations.set i { reg with mux := e.host.mux }) :
    ∀ reg' ∈ server'.registrations, reg'.mux.Sealed := by
  intro reg' member
  rw [registrations] at member
  rcases List.mem_or_eq_of_mem_set member with old | rfl
  · exact intact.sealed reg' old
  · have here := List.mem_of_getElem? found
    exact Host.closed_step (intact.sound.muxes reg here) (intact.sealed reg here) stepped

/-- Where a visit finds its connection after a step of the connection `i`. -/
private theorem registration_set {regs : List TunnelRegistration} {i j : Nat}
    {reg old : TunnelRegistration} (new : TunnelRegistration) (found : regs[i]? = some old)
    (here : regs[j]? = some reg) :
    (i = j ∧ reg = old ∧ (regs.set i new)[j]? = some new) ∨
      (i ≠ j ∧ (regs.set i new)[j]? = some reg) := by
  by_cases same : i = j
  · subst same
    have short := (List.getElem?_eq_some_iff.mp found).1
    exact Or.inl ⟨rfl, Option.some.inj (here.symm.trans found), by simp [short]⟩
  · exact Or.inr ⟨same, by rw [List.getElem?_set_ne same]; exact here⟩

/-- A visit whose stream is not the one called stands the step. -/
private theorem stands (keeps : Keeps inv P) (intact : T.Intact inv) {i : Nat} {a : Chute.Action}
    {reg : TunnelRegistration} {e : Effect} (found : T.server.registrations[i]? = some reg)
    (stepped : (T.server.host reg).step a = some e) (local_ : a.isMessage = false)
    (attended : unattended a = false) {server' : RelayServer}
    (registrations : server'.registrations =
      T.server.registrations.set i { reg with mux := e.host.mux }) {k : Nat} {v : Visit}
    (here : T.visits[k]? = some v) (other : v.conn = i → a.calls v.ref = false)
    (visits : List Visit) :
    ∃ reg' s', (⟨server', visits⟩ : Traffic).Serves v reg' s' ∧ inv s' v := by
  obtain ⟨regv, s, ⟨there, stream⟩, held⟩ := intact.visits k v here
  have set := registration_set { reg with mux := e.host.mux } found there
  rw [← registrations] at set
  rcases set with ⟨rfl, rfl, after⟩ | ⟨-, after⟩
  · obtain ⟨t, stream', listens⟩ := Host.step_listens
      (intact.sound.muxes _ (List.mem_of_getElem? found)) stream (other rfl) stepped
    have spared : (T.server.host regv).tears v.ref a = false := by
      cases a <;> simp_all [unattended, Host.tears]
    exact ⟨_, t, ⟨after, stream'⟩, keeps.same held (listens.same local_ spared)⟩
  · exact ⟨regv, s, ⟨after, stream⟩, held⟩

private theorem distinct_set (intact : T.Intact inv) {n : Nat} {u : Visit}
    (here : T.visits[n]? = some u) (relay : Relay) :
    ∀ (j k : Nat) v w, (T.visits.set n { u with relay := relay })[j]? = some v →
      (T.visits.set n { u with relay := relay })[k]? = some w → v.conn = w.conn →
      v.ref = w.ref → j = k := by
  -- a turn changes nothing that distinguishes a visit
  have before : ∀ (j : Nat) v, (T.visits.set n { u with relay := relay })[j]? = some v →
      ∃ old, T.visits[j]? = some old ∧ old.conn = v.conn ∧ old.ref = v.ref := by
    intro j v found
    rw [List.getElem?_set] at found
    split at found
    next same =>
      split at found
      · cases found
        exact ⟨u, same ▸ here, rfl, rfl⟩
      · cases found
    next apart => exact ⟨v, found, rfl, rfl⟩
  intro j k v w first second conn ref
  obtain ⟨v₀, first, conn₁, ref₁⟩ := before j v first
  obtain ⟨w₀, second, conn₂, ref₂⟩ := before k w second
  exact intact.distinct j k v₀ w₀ first second (conn₁.trans (conn.trans conn₂.symm))
    (ref₁.trans (ref.trans ref₂.symm))

theorem conn_hear (i : Nat) (a : Chute.Action) (v : Visit) : (hear i a v).conn = v.conn := by
  unfold hear
  split <;> rfl

theorem ref_hear (i : Nat) (a : Chute.Action) (v : Visit) : (hear i a v).ref = v.ref := by
  unfold hear
  split <;> rfl

private theorem getElem?_hear {i k : Nat} {a : Chute.Action} {v : Visit}
    (here : (T.visits.map (hear i a))[k]? = some v) :
    ∃ old, T.visits[k]? = some old ∧ v = hear i a old := by
  rw [List.getElem?_map] at here
  obtain ⟨old, before, rfl⟩ := Option.map_eq_some_iff.mp here
  exact ⟨old, before, rfl⟩

private theorem getElem?_concat {l : List Visit} {k : Nat} {u v : Visit}
    (here : (l ++ [u])[k]? = some v) : l[k]? = some v ∨ k = l.length ∧ v = u := by
  by_cases short : k < l.length
  · rw [List.getElem?_append_left short] at here
    exact Or.inl here
  · rw [List.getElem?_append_right (by omega)] at here
    have last := (List.getElem?_eq_some_iff.mp here).1
    simp only [List.length_singleton] at last
    have zero : k - l.length = 0 := by omega
    rw [zero] at here
    exact Or.inr ⟨by omega, (Option.some.inj here).symm⟩

private theorem getElem?_set_cases {l : List Visit} {n k : Nat} {u v : Visit}
    (here : (l.set n u)[k]? = some v) : k = n ∧ v = u ∨ k ≠ n ∧ l[k]? = some v := by
  rw [List.getElem?_set] at here
  split at here
  next same =>
    split at here
    · exact Or.inl ⟨same.symm, (Option.some.inj here).symm⟩
    · cases here
  next apart => exact Or.inr ⟨Ne.symm apart, here⟩

/-- `open` makes a new stream object. -/
private theorem heap_openStream {h : Host} {sent : Bool} {e : Effect}
    (moved : h.step (.openStream sent) = some e) (suspended : e.result = .suspended) :
    e.host.mux.heap ⟨UInt32.ofNat h.mux.nextId, h.mux.made (UInt32.ofNat h.mux.nextId)⟩ =
      some (Stream.new h.mux.config) := by
  simp only [Host.step] at moved
  split at moved
  · cases moved
  · cases moved
    unfold Host.openStream at suspended ⊢
    simp only at suspended ⊢
    split at suspended
    · cases suspended
    next room =>
      rw [if_neg room]
      simp [Mux.register, Mux.setStream]

/-- A step of the server that leaves the muxes alone. -/
private theorem Intact.unmoved (intact : T.Intact inv) {server' : RelayServer}
    (sound : server'.Sound) (sealed : ∀ reg ∈ server'.registrations, reg.mux.Sealed)
    (kept : ∀ (i : Nat) reg, T.server.registrations[i]? = some reg →
      ∃ reg', server'.registrations[i]? = some reg' ∧ reg'.mux = reg.mux) :
    ({ T with server := server' } : Traffic).Intact inv := by
  refine ⟨sound, sealed, fun k v here => ?_, intact.distinct⟩
  obtain ⟨reg, s, ⟨found, stream⟩, held⟩ := intact.visits k v here
  obtain ⟨reg', found', mux⟩ := kept _ reg found
  exact ⟨reg', s, ⟨found', mux ▸ stream⟩, held⟩

/-- **One step keeps what `Keeps` lists.** -/
theorem Intact.step (intact : T.Intact inv) (keeps : Keeps inv P) {a : Action}
    (allowed : P T a) {T' : Traffic} (moved : T.step a = some T') : T'.Intact inv := by
  cases a with
  | register accountId flowWindow limit =>
    simp only [Traffic.step] at moved
    obtain ⟨server', acted, rfl⟩ := Option.map_eq_some_iff.mp moved
    have sound := intact.sound.step acted
    cases acted
    refine intact.unmoved sound ?_ ?_
    · intro reg member
      rcases List.mem_append.mp member with old | fresh
      · exact intact.sealed reg old
      · rw [List.mem_singleton.mp fresh]
        intro r s found
        cases found
    · intro i reg found
      have short := (List.getElem?_eq_some_iff.mp found).1
      exact ⟨reg, by rw [List.getElem?_append_left short]; exact found, rfl⟩
  | setBudget i limit =>
    simp only [Traffic.step] at moved
    obtain ⟨server', acted, rfl⟩ := Option.map_eq_some_iff.mp moved
    have sound := intact.sound.step acted
    obtain ⟨reg, found, rfl⟩ := Option.map_eq_some_iff.mp acted
    refine intact.unmoved sound ?_ ?_
    · intro reg' member
      rcases List.mem_or_eq_of_mem_set member with old | rfl
      · exact intact.sealed reg' old
      · exact intact.sealed reg (List.mem_of_getElem? found)
    · intro j reg' here
      rcases registration_set { reg with maxBufferedBytes := limit } found here with
        ⟨-, rfl, after⟩ | ⟨-, after⟩
      · exact ⟨_, after, rfl⟩
      · exact ⟨reg', after, rfl⟩
  | connection i a =>
    simp only [Traffic.step] at moved
    split at moved
    next alone =>
      obtain ⟨server', acted, rfl⟩ := Option.map_eq_some_iff.mp moved
      have sound := intact.sound.step acted
      obtain ⟨reg, e, found, stepped, registrations⟩ := act_some acted
      refine ⟨sound, sealed_act intact found stepped registrations, ?_, ?_⟩
      · intro k v here
        obtain ⟨old, before, rfl⟩ := getElem?_hear here
        obtain ⟨regv, s, ⟨there, stream⟩, held⟩ := intact.visits k old before
        have set := registration_set { reg with mux := e.host.mux } found there
        rw [← registrations] at set
        rcases set with ⟨rfl, rfl, after⟩ | ⟨apart, after⟩
        · obtain ⟨t, stream', listens⟩ := Host.step_listens
            (intact.sound.muxes _ (List.mem_of_getElem? found)) stream
            (calls_of_unattended alone old.ref) stepped
          refine ⟨{ regv with mux := e.host.mux }, t, ⟨?_, ?_⟩,
            keeps.hears allowed ⟨k, before⟩ ⟨there, stream⟩ held listens⟩
          · rw [conn_hear]; exact after
          · rw [ref_hear]; exact stream'
        · have deaf : hear i a old = old := if_neg (Ne.symm apart)
          rw [deaf]
          exact ⟨regv, s, ⟨after, stream⟩, held⟩
      · intro j k v w first second conn ref
        obtain ⟨v₀, old₁, rfl⟩ := getElem?_hear first
        obtain ⟨w₀, old₂, rfl⟩ := getElem?_hear second
        simp only [conn_hear, ref_hear] at conn ref
        exact intact.distinct j k v₀ w₀ old₁ old₂ conn ref
    · cases moved
  | visit i initial canWriteEof watched sent =>
    obtain ⟨reg, found, moved⟩ := Option.bind_eq_some_iff.mp moved
    obtain ⟨⟨server', res⟩, performed, after⟩ := Option.map_eq_some_iff.mp moved
    obtain ⟨reg₁, e, found₁, stepped, acted, registrations, rfl⟩ := perform_some performed
    cases found.symm.trans found₁
    have sound := intact.sound.step acted
    have sealed := sealed_act intact found stepped registrations
    have acc := intact.sound.muxes reg (List.mem_of_getElem? found)
    have others : ∀ (k : Nat) v, T.visits[k]? = some v → ∀ visits, ∃ reg' s',
        (⟨server', visits⟩ : Traffic).Serves v reg' s' ∧ inv s' v := fun k v here visits =>
      stands keeps intact found stepped rfl rfl registrations here (fun _ => rfl) visits
    simp only at after
    split at after
    next suspended =>
      cases after
      -- the object is new, so it is that of no other visit
      have fresh : reg.mux.heap ⟨UInt32.ofNat reg.mux.nextId,
          reg.mux.made (UInt32.ofNat reg.mux.nextId)⟩ = none := by
        cases there : reg.mux.heap ⟨UInt32.ofNat reg.mux.nextId,
          reg.mux.made (UInt32.ofNat reg.mux.nextId)⟩ with
        | none => rfl
        | some s => exact absurd (acc.fresh _ s there).1 (lt_irrefl _)
      refine ⟨sound, sealed, ?_, ?_⟩
      · intro k v here
        rcases getElem?_concat here with old | ⟨-, rfl⟩
        · exact others k v old _
        · refine ⟨{ reg with mux := e.host.mux }, Stream.new reg.mux.config, ⟨?_, ?_⟩,
            keeps.start ..⟩
          · rw [registrations]
            simp [(List.getElem?_eq_some_iff.mp found).1]
          · exact heap_openStream stepped suspended
      · intro j k v w first second conn ref
        have apart : ∀ (k : Nat) v, T.visits[k]? = some v → v.conn = i →
            v.ref ≠ ⟨UInt32.ofNat reg.mux.nextId,
              reg.mux.made (UInt32.ofNat reg.mux.nextId)⟩ := by
          rintro k v here rfl same
          obtain ⟨regv, s, ⟨there, stream⟩, -⟩ := intact.visits k v here
          cases found.symm.trans there
          rw [same, fresh] at stream
          cases stream
        rcases getElem?_concat first with old₁ | ⟨rfl, rfl⟩ <;>
          rcases getElem?_concat second with old₂ | ⟨rfl, rfl⟩
        · exact intact.distinct j k v w old₁ old₂ conn ref
        · exact absurd ref (apart j v old₁ conn)
        · exact absurd ref.symm (apart k w old₂ conn.symm)
        · rfl
    next refused =>
      cases after
      refine ⟨sound, sealed, fun k v here => others k v here _, intact.distinct⟩
  | relay n a =>
    obtain ⟨u, here, moved⟩ := Option.bind_eq_some_iff.mp moved
    obtain ⟨reg, found, moved⟩ := Option.bind_eq_some_iff.mp moved
    obtain ⟨turn, took, moved⟩ := Option.bind_eq_some_iff.mp moved
    obtain ⟨regu, s, ⟨found', stream⟩, held⟩ := intact.visits n u here
    cases found.symm.trans found'
    have acc := intact.sound.muxes reg (List.mem_of_getElem? found)
    have closed := intact.sealed reg (List.mem_of_getElem? found) u.ref s stream
    split at moved
    next silent =>
      cases moved
      refine ⟨intact.sound, intact.sealed, ?_, distinct_set intact here _⟩
      intro k v now
      rcases getElem?_set_cases now with ⟨-, rfl⟩ | ⟨-, old⟩
      · exact ⟨reg, s, ⟨found, stream⟩,
          keeps.quiet allowed here ⟨found, stream⟩ closed held
            (Relay.turns_of_turn took) silent⟩
      · obtain ⟨regv, s', ⟨there, stream'⟩, held'⟩ := intact.visits k v old
        exact ⟨regv, s', ⟨there, stream'⟩, held'⟩
    next call calls =>
      obtain ⟨⟨server', res⟩, performed, rfl⟩ := Option.map_eq_some_iff.mp moved
      obtain ⟨reg₁, e, found₁, stepped, acted, registrations, rfl⟩ := perform_some performed
      cases found.symm.trans found₁
      have own := (Relay.turns_of_turn took).calls calls
      obtain ⟨local_, attended⟩ := local_of_calls own
      refine ⟨intact.sound.step acted, sealed_act intact found stepped registrations, ?_,
        distinct_set intact here _⟩
      intro k v now
      rcases getElem?_set_cases now with ⟨rfl, rfl⟩ | ⟨apart, old⟩
      · obtain ⟨t, stream', answers⟩ := Host.step_answers acc stream stepped
        refine ⟨{ reg with mux := e.host.mux }, t, ⟨?_, stream'⟩,
          keeps.calls allowed here ⟨found, stream⟩ closed held
            (Relay.turns_of_turn took) calls answers⟩
        rw [registrations]
        simp [(List.getElem?_eq_some_iff.mp found).1]
      · refine stands keeps intact found stepped local_ attended registrations old ?_ _
        intro conn
        refine calls_other own fun ref => ?_
        exact apart (intact.distinct k n v u old here conn ref)

/-- The run rule for properties of visits. -/
theorem intact_of_run (keeps : Keeps inv P) {as : List Action}
    (allowed : Transition.Along Traffic.step P new as) (ran : Transition.run Traffic.step new as = some T) :
    T.Intact inv :=
  Transition.run_invariant (fun _ _ _ held permitted moved => held.step keeps permitted moved)
    (intact_new inv) allowed ran

end

end Traffic

end Chute
