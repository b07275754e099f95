import Chute.Handshake.Meeting
import Chute.Server.Routing

/-!
# What both ends of a tunnel agree on

An agent that accepts its reply holds the flow window, the public URL and the name of the
registration that the relay has built for it, in every interleaving of handshakes.
-/
namespace Chute
namespace Server

variable {s s' : Server} {i : Nat} {c : Connection} {reg : TunnelRegistration}

/-- What the agent of a registration is told of it. -/
def TunnelRegistration.deal (reg : TunnelRegistration) : String × Config := (reg.publicUrl, reg.mux.config)

/-- The registration was claimed by the terms of its connection. -/
structure Connection.Dealt (config : ServerConfig) (c : Connection) (reg : TunnelRegistration) : Prop where
  window : reg.mux.config = .server c.flowWindow
  alone : config.baseDomain = none → c.label = defaultLabel ∧ c.requestedSubdomain = none
  asked : config.baseDomain.isSome = true → ∀ label, c.requestedSubdomain = some label → c.label = label
  drawn : config.baseDomain.isSome = true → c.requestedSubdomain = none → RandomPhrase c.label

def Dealt (s : Server) : Prop :=
  ∀ (i : Nat) c reg, s.connections[i]? = some c → c.registration = some reg → c.Dealt s.config reg

/-- The label of a claim is the one asked for, a phrase, or the only one there is. -/
private theorem dealt_claim {phrases : Fin 100 → String} {label url : String}
    (drawn : ∀ k, RandomPhrase (phrases k)) (prepared : s.prepareClaim c phrases = .ok (label, url)) :
    Connection.Dealt s.config { c with
      phase := .claimed, label := label, registration := some (s.newRegistration c url) }
      (s.newRegistration c url) := by
  obtain ⟨chosen, -, -, -⟩ := prepareClaim_ok prepared
  unfold chooseLabel at chosen
  constructor
  · rfl
  · intro alone
    rw [alone] at chosen
    simp only [Option.isSome_none, Bool.false_eq_true, if_false] at chosen
    split at chosen
    · cases chosen
    next none =>
      cases chosen
      exact ⟨rfl, by simpa using none⟩
  · intro based wanted asked
    rw [if_pos based, asked, assignLabel] at chosen
    split at chosen
    · exact (Except.ok.inj chosen).symm
    · cases chosen
  · intro based none
    rw [if_pos based, none, assignLabel] at chosen
    split at chosen
    next found =>
      cases chosen
      obtain ⟨k, rfl⟩ := List.mem_ofFn.mp (List.mem_of_find?_eq_some found)
      exact drawn k
    · cases chosen

private theorem steady_deal : Steady TunnelRegistration.deal where
  gate _ _ := rfl
  traffic reg _ same := congrArg (Prod.mk reg.publicUrl) same

private theorem keeps_deal {a : Action} (moved : s.step a = some s') (unclaimed : ∀ i phrases, a ≠ .claim i phrases)
    (admits : ∀ admission requested scheme window, a ≠ .admitTunnel admission requested scheme window) :
    Keeps TunnelRegistration.deal s s' :=
  step_keeps steady_deal moved unclaimed admits (fun _ _ _ _ _ _ _ => rfl) fun _ _ _ _ => rfl

/-- A connection of which only other parts change. -/
private theorem Connection.Dealt.of_part {config : ServerConfig} {c' : Connection} {reg' : TunnelRegistration}
    (dealt : c.Dealt config reg) (hello : c'.hello = c.hello) (label : c'.label = c.label)
    (deal : reg'.deal = reg.deal) : c'.Dealt config reg' := by
  have requested : c'.requestedSubdomain = c.requestedSubdomain := congrArg Prod.fst hello
  have window : c'.flowWindow = c.flowWindow := congrArg (fun hello => hello.2.2.2) hello
  have mux : reg'.mux.config = reg.mux.config := congrArg Prod.snd deal
  constructor
  · rw [mux, window]
    exact dealt.window
  · rw [label, requested]
    exact dealt.alone
  · rw [label, requested]
    exact dealt.asked
  · rw [label, requested]
    exact dealt.drawn

/-- A step of the relay, by what it does to the deals. -/
private theorem step_deals {a : Action} (moved : s.step a = some s') :
    Keeps TunnelRegistration.deal s s' ∨
      (∃ fresh, fresh.registration = none ∧ s'.connections = s.connections ++ [fresh]) ∨
      ∃ i c phrases label url, a = .claim i phrases ∧ s.connections[i]? = some c ∧ c.phase = .admitted ∧
        s.prepareClaim c phrases = .ok (label, url) ∧
        s'.connections = s.connections.modify i fun c => { c with
          phase := .claimed, label := label, registration := some (s.newRegistration c url) } := by
  by_cases claims : ∃ i phrases, a = .claim i phrases
  · obtain ⟨i, phrases, rfl⟩ := claims
    obtain ⟨c, found, moved⟩ := Option.bind_eq_some_iff.mp moved
    split at moved <;> cases moved
    next waits =>
      obtain ⟨reconnects, ⟨r, -, same⟩ | ⟨label, url, prepared, same⟩⟩ := claim_cases s i c phrases
      · left
        rw [same]
        exact (Keeps.of_eq rfl).trans (keeps_setPhase { s with accountReconnects := reconnects } i _)
      · right
        right
        refine ⟨i, c, phrases, label, url, rfl, found, waits, prepared, ?_⟩
        rw [same]
        apply List.ext_getElem?
        intro j
        simp only [enterPending, modifyConnection, List.getElem?_modify]
        by_cases here : i = j
        · subst here
          simp [found, newRegistration, accountBudgetFor]
        · simp [here]
  by_cases admits : ∃ admission requested scheme window, a = .admitTunnel admission requested scheme window
  · obtain ⟨admission, requested, scheme, window, rfl⟩ := admits
    obtain ⟨valid, -, rfl⟩ := Option.map_eq_some_iff.mp moved
    exact .inr (.inl ⟨_, rfl, rfl⟩)
  · exact .inl (keeps_deal moved (fun i phrases same => claims ⟨i, phrases, same⟩)
      fun admission requested scheme window same => admits ⟨_, _, _, _, same⟩)

theorem dealt_start (config : ServerConfig) (now monotonic : ℚ) : (start config now monotonic).Dealt := by
  intro i c reg found
  simp [start] at found

theorem Dealt.step (dealt : s.Dealt) {a : Action} (drawn : a.Drawn) (moved : s.step a = some s') :
    s'.Dealt := by
  have config := config_step moved
  intro i c' reg' found' registered'
  rw [config]
  rcases step_deals moved with keeps | ⟨fresh, none, same⟩ | ⟨j, c, phrases, label, url, rfl, found, -, prepared, same⟩
  · obtain ⟨c, reg, found, registered, hello, label, deal⟩ := keeps.found found' registered'
    exact (dealt i c reg found registered).of_part hello.symm label.symm deal.symm
  · rw [same, List.getElem?_append] at found'
    split at found'
    · exact dealt i c' reg' found' registered'
    · have last := List.mem_of_getElem? found'
      rw [List.mem_singleton] at last
      rw [last, none] at registered'
      cases registered'
  · rw [same, List.getElem?_modify] at found'
    obtain ⟨old, there, rfl⟩ := Option.map_eq_some_iff.mp found'
    by_cases here : j = i
    · subst here
      rw [found] at there
      cases there
      simp only [if_true] at registered' ⊢
      cases registered'
      exact dealt_claim drawn prepared
    · simp only [if_neg here] at registered' ⊢
      exact dealt i old reg' there registered'

/-- Once there is a registration, it keeps its deal. -/
theorem deal_lasts (fresh : s.Fresh) {a : Action} (moved : s.step a = some s')
    (found : s.connections[i]? = some c) (registered : c.registration = some reg) :
    ∃ c' reg', s'.connections[i]? = some c' ∧ c'.registration = some reg' ∧ c'.hello = c.hello ∧
      c'.label = c.label ∧ reg'.deal = reg.deal := by
  rcases step_deals moved with keeps | ⟨added, -, same⟩ | ⟨j, own, phrases, label, url, -, there, waits, -, same⟩
  · have part : (s'.connections.map (Connection.part TunnelRegistration.deal))[i]? =
        some (c.part TunnelRegistration.deal) := by
      rw [keeps, List.getElem?_map, found, Option.map_some]
    rw [List.getElem?_map] at part
    obtain ⟨c', found', kept⟩ := Option.map_eq_some_iff.mp part
    have deal : c'.registration.map TunnelRegistration.deal = some reg.deal := by
      have same := congrArg Prod.snd kept
      rwa [Connection.part, Connection.part, registered] at same
    obtain ⟨reg', registered', same⟩ := Option.map_eq_some_iff.mp deal
    exact ⟨c', reg', found', registered', congrArg (·.1.1) kept, congrArg (·.1.2) kept, same⟩
  · refine ⟨c, reg, ?_, registered, rfl, rfl, rfl⟩
    rw [same, List.getElem?_append_left (List.getElem?_eq_some_iff.mp found).1, found]
  · refine ⟨c, reg, ?_, registered, rfl, rfl, rfl⟩
    have apart : j ≠ i := by
      rintro rfl
      rw [there] at found
      cases found
      exact fresh.claimed there registered waits
    rw [same, List.getElem?_modify, found]
    simp [apart]

/-- What a connection came with stays with it. -/
theorem hello_lasts {a : Action} (moved : s.step a = some s') (found : s.connections[i]? = some c) :
    ∃ c', s'.connections[i]? = some c' ∧ c'.hello = c.hello := by
  rcases step_deals moved with keeps | ⟨added, -, same⟩ | ⟨j, own, phrases, label, url, -, -, -, -, same⟩
  · have part : (s'.connections.map (Connection.part TunnelRegistration.deal))[i]? =
        some (c.part TunnelRegistration.deal) := by
      rw [keeps, List.getElem?_map, found, Option.map_some]
    rw [List.getElem?_map] at part
    obtain ⟨c', found', kept⟩ := Option.map_eq_some_iff.mp part
    exact ⟨c', found', congrArg (·.1.1) kept⟩
  · refine ⟨c, ?_, rfl⟩
    rw [same, List.getElem?_append_left (List.getElem?_eq_some_iff.mp found).1, found]
  · rw [same, List.getElem?_modify, found]
    exact ⟨_, rfl, by simp only; split <;> rfl⟩

end Server

namespace Meeting

open Transition

variable {m m' : Meeting}

/-! ### What has been sent -/

/-- A ready message tells the deal of the connection that the handshake went on as. -/
structure Backed (port : ControlPort) (k : Nat) (i : Nat) (c : Server.Connection)
    (reg : Server.TunnelRegistration) : Prop where
  serving : ∃ h, port.handshakes[k]? = some h ∧ h.phase = .serving i
  found : port.server.connections[i]? = some c
  registered : c.registration = some reg

/-- Every message is an error, or tells a deal. -/
def SentOk (m : Meeting) : Prop :=
  ∀ k message, (k, message) ∈ m.sent → (∃ reason, message = errorMessage reason) ∨
    ∃ i c reg, Backed m.port k i c reg ∧ message = ready c.label reg.publicUrl c.flowWindow

/-- What a deal says does not change. -/
theorem Backed.step {port port' : ControlPort} {k i : Nat} {c : Server.Connection}
    {reg : Server.TunnelRegistration} (backed : Backed port k i c reg) (fresh : port.server.Fresh)
    {a : ControlPort.Action} (moved : port.step a = some port') :
    ∃ c' reg', Backed port' k i c' reg' ∧ c'.hello = c.hello ∧ c'.label = c.label ∧ reg'.deal = reg.deal := by
  obtain ⟨h, here, serving⟩ := backed.serving
  obtain ⟨h', here', onward⟩ := ControlPort.step_onward moved here
  have serving' := onward.serving serving
  rcases ControlPort.step_server moved with ⟨same, -⟩ | ⟨b, -, stepped⟩
  · exact ⟨c, reg, ⟨⟨h', here', serving'⟩, by rw [same]; exact backed.found, backed.registered⟩, rfl, rfl, rfl⟩
  · obtain ⟨c', reg', found', registered', hello, label, deal⟩ :=
      Server.deal_lasts fresh stepped backed.found backed.registered
    exact ⟨c', reg', ⟨⟨h', here', serving'⟩, found', registered'⟩, hello, label, deal⟩

/-- What `_serve_agent` sends tells a deal. -/
theorem served_cases {c : Server.Connection} {message : Members} (sends : served c = some message) :
    (∃ reason, message = errorMessage reason) ∨
      ∃ reg, c.registration = some reg ∧ message = ready c.label reg.publicUrl c.flowWindow := by
  unfold served at sends
  split at sends
  next reg _ registered =>
    cases sends
    exact .inr ⟨_, registered, rfl⟩
  · split at sends
    · cases sends
      exact .inl ⟨_, rfl⟩
    · cases sends
  · cases sends

theorem handshakeOf_serving {p : ControlPort} {i k : Nat} (found : handshakeOf p i = some k) :
    ∃ h, p.handshakes[k]? = some h ∧ h.phase = .serving i := by
  obtain ⟨short, holds, -⟩ := List.findIdx?_eq_some_iff_getElem.mp found
  refine ⟨p.handshakes[k], List.getElem?_eq_getElem short, ?_⟩
  split at holds
  next j serving =>
    rw [serving, beq_iff_eq.mp holds]
  · cases holds

/-- What a step sends is as it should be in the state it leads to. -/
theorem sends_ok {port : ControlPort} {a : ControlPort.Action} {k : Nat} {message : Members}
    (member : (k, message) ∈ sends port a) : (∃ reason, message = errorMessage reason) ∨
      ∃ i c reg, Backed port k i c reg ∧ message = ready c.label reg.publicUrl c.flowWindow := by
  have serves : ∀ i, (k, message) ∈ ((handshakeOf port i).bind fun k =>
      ((port.server.connections[i]?).bind served).map fun message => (k, message)).toList →
      (∃ reason, message = errorMessage reason) ∨
        ∃ i c reg, Backed port k i c reg ∧ message = ready c.label reg.publicUrl c.flowWindow := by
    intro i member
    obtain ⟨j, serving, sent⟩ := Option.bind_eq_some_iff.mp (Option.mem_toList.mp member)
    obtain ⟨_, told, same⟩ := Option.map_eq_some_iff.mp sent
    cases same
    obtain ⟨c, found, told⟩ := Option.bind_eq_some_iff.mp told
    rcases served_cases told with refused | ⟨reg, registered, rfl⟩
    · exact .inl refused
    · exact .inr ⟨i, c, reg, ⟨handshakeOf_serving serving, found, registered⟩, rfl⟩
  unfold sends at member
  split at member
  · split at member
    next why _ =>
      obtain ⟨reason, -, same⟩ := Option.map_eq_some_iff.mp (Option.mem_toList.mp member)
      cases same
      exact .inl ⟨reason, rfl⟩
    · cases member
  · cases List.mem_singleton.mp member
    exact .inl ⟨_, rfl⟩
  · exact serves _ member
  · exact serves _ member
  · cases member

/-! ### What a handshake is about -/

/-- The handshake goes by the hello of the agent. -/
structure Follows (port : ControlPort) (agent : Agent) (h : Handshake) : Prop where
  said : ∀ hello, h.hello = some hello → hello.requestedSubdomain = agent.requestedSubdomain ∧
    hello.flowWindow = agent.muxFlowWindow
  served : ∀ i, h.phase = .serving i → ∃ c, port.server.connections[i]? = some c ∧
    c.requestedSubdomain = agent.requestedSubdomain ∧
      c.flowWindow = agent.muxFlowWindow.min port.config.muxFlowWindow

/-- A handshake that is not served yet. -/
private theorem Follows.unserved {port port' : ControlPort} {agent : Agent} {h h' : Handshake}
    (follows : Follows port agent h) (hello : h'.hello = h.hello) (phase : ∀ i, h'.phase ≠ .serving i) :
    Follows port' agent h' where
  said told same := follows.said told (hello ▸ same)
  served i serving := absurd serving (phase i)

private theorem follows_step {port port' : ControlPort} {agent : Agent} {k : Nat} {h h' : Handshake}
    {a : ControlPort.Action} (follows : Follows port agent h) (moved : port.step a = some port')
    (onward : port.Onward port' k h a h')
    (own : ∀ message, a = .received k (some message) → message = overWire agent.hello) :
    Follows port' agent h' := by
  have config := ControlPort.config_step moved
  cases onward with
  | same =>
    refine ⟨follows.said, fun i serving => ?_⟩
    obtain ⟨c, found, requested, window⟩ := follows.served i serving
    have lasts : ∃ c', port'.server.connections[i]? = some c' ∧ c'.hello = c.hello := by
      rcases ControlPort.step_server moved with ⟨same, -⟩ | ⟨b, -, stepped⟩
      · exact ⟨c, by rw [same, found], rfl⟩
      · exact Server.hello_lasts stepped found
    obtain ⟨c', found', hello⟩ := lasts
    refine ⟨c', found', ?_, ?_⟩
    · exact (congrArg Prod.fst hello).trans requested
    · rw [config]
      exact (congrArg (fun hello => hello.2.2.2) hello).trans window
  | acquired => exact follows.unserved rfl (by simp)
  | busy => exact follows.unserved rfl (by simp)
  | misread => exact follows.unserved rfl (by simp)
  | asked => exact follows.unserved rfl (by simp)
  | unauthorized => exact follows.unserved rfl (by simp)
  | unavailable => exact follows.unserved rfl (by simp)
  | read message hello waits ok =>
    refine ⟨?_, by simp⟩
    rintro told ⟨⟩
    cases message with
    | none => cases ok
    | some message =>
      cases own message rfl
      rw [readHello_hello] at ok
      cases ok
      exact ⟨rfl, rfl⟩
  | admitted hello admission waits said stepped =>
    refine ⟨follows.said, ?_⟩
    rintro i ⟨⟩
    obtain ⟨valid, -, same⟩ := Option.map_eq_some_iff.mp stepped
    have told := follows.said hello said
    refine ⟨_, by rw [← same, List.getElem?_concat_length], told.1, ?_⟩
    rw [config]
    exact congrArg (FlowWindow.min · _) told.2

/-! ### The runs -/

structure Agreed (config : PortConfig) (m : Meeting) : Prop where
  fresh : m.port.server.Fresh
  dealt : m.port.server.Dealt
  configured : m.port.config = config
  relay : m.port.server.config = config.relay
  sent : m.SentOk
  own : ∀ e ∈ m.agents, ∀ e' ∈ m.agents, e.handshake = e'.handshake → e.agent = e'.agent
  follows : ∀ e ∈ m.agents, ∃ h, m.port.handshakes[e.handshake]? = some h ∧ Follows m.port e.agent h
  outcome : ∀ e ∈ m.agents, ∀ negotiated, e.outcome = some (.ok negotiated) → ∃ message,
    (e.handshake, message) ∈ m.sent ∧ e.agent.accept (overWire message) = .ok negotiated

theorem agreed_start (config : PortConfig) (now monotonic : ℚ) : (start config now monotonic).Agreed config where
  fresh := Server.fresh_start config.relay now monotonic
  dealt := Server.dealt_start config.relay now monotonic
  configured := rfl
  relay := rfl
  sent := by simp [SentOk, start]
  own := by simp [start]
  follows := by simp [start]
  outcome := by simp [start]

/-- The names that the relay makes up are drawn as `random_phrase` draws them. -/
def Action.Drawn : Action → Prop
  | .port (.server a) => a.Drawn
  | _ => True

/-- A step of the port keeps it, when nobody else speaks for an agent. -/
private theorem Agreed.take {config : PortConfig} (agreed : m.Agreed config) {a : ControlPort.Action}
    (drawn : ∀ b, a = .server b → b.Drawn)
    (speaks : ∀ e ∈ m.agents, ∀ message, a = .received e.handshake (some message) →
      message = overWire e.agent.hello)
    (moved : m.take a = some m') : m'.Agreed config := by
  obtain ⟨port, stepped, rfl⟩ := Option.map_eq_some_iff.mp moved
  have parts : port.server.Fresh ∧ port.server.Dealt ∧ port.server.config = config.relay := by
    rcases ControlPort.step_server stepped with ⟨same, relay⟩ | ⟨b, carries, moved⟩
    · refine ⟨?_, ?_, relay.trans agreed.relay⟩
      · unfold Server.Fresh Server.courses
        rw [same]
        exact agreed.fresh
      · unfold Server.Dealt
        rw [same, relay]
        exact agreed.dealt
    · have plain : b.Drawn := by
        cases carries with
        | server b => exact drawn b rfl
        | admitted => trivial
        | polled => trivial
      exact ⟨agreed.fresh.step moved, agreed.dealt.step plain moved,
        (Server.config_step moved).trans agreed.relay⟩
  constructor
  · exact parts.1
  · exact parts.2.1
  · exact (ControlPort.config_step stepped).trans agreed.configured
  · exact parts.2.2
  · intro k message member
    rcases List.mem_append.mp member with old | new
    · rcases agreed.sent k message old with refused | ⟨i, c, reg, backed, rfl⟩
      · exact .inl refused
      · obtain ⟨c', reg', backed', hello, label, deal⟩ := backed.step agreed.fresh stepped
        have window : c'.flowWindow = c.flowWindow := congrArg (fun hello => hello.2.2.2) hello
        have url : reg'.publicUrl = reg.publicUrl := congrArg Prod.fst deal
        exact .inr ⟨i, c', reg', backed', by rw [label, url, window]⟩
    · exact sends_ok new
  · exact agreed.own
  · intro e member
    obtain ⟨h, here, follows⟩ := agreed.follows e member
    obtain ⟨h', here', onward⟩ := ControlPort.step_onward stepped here
    exact ⟨h', here', follows_step follows stepped onward (speaks e member)⟩
  · intro e member negotiated accepted
    obtain ⟨message, told, made⟩ := agreed.outcome e member negotiated accepted
    exact ⟨message, List.mem_append_left _ told, made⟩

theorem Agreed.step {config : PortConfig} (agreed : m.Agreed config) {a : Action} (drawn : a.Drawn)
    (moved : m.step a = some m') : m'.Agreed config := by
  cases a with
  | dial agent ip =>
    cases moved
    have connected : (m.port.connect ip).server = m.port.server := ControlPort.connect_server m.port ip
    have handshakes := ControlPort.connect_handshakes m.port ip
    have stays : ∀ (k : Nat) (h : Handshake), m.port.handshakes[k]? = some h → (m.port.connect ip).handshakes[k]? = some h := by
      intro k h here
      rw [handshakes, List.getElem?_append_left (List.getElem?_eq_some_iff.mp here).1, here]
    have config' : (m.port.connect ip).config = m.port.config :=
      ControlPort.config_step (a := .connect ip) rfl
    -- the handshake of the agent is a new one
    have before : ∀ e ∈ m.agents, e.handshake < m.port.handshakes.length := by
      intro e member
      obtain ⟨h, here, -⟩ := agreed.follows e member
      exact (List.getElem?_eq_some_iff.mp here).1
    constructor
    · rw [connected]
      exact agreed.fresh
    · rw [connected]
      exact agreed.dealt
    · exact config'.trans agreed.configured
    · rw [connected]
      exact agreed.relay
    · intro k message member
      rcases agreed.sent k message member with refused | ⟨i, c, reg, ⟨⟨h, here, serving⟩, found, registered⟩, rfl⟩
      · exact .inl refused
      · refine .inr ⟨i, c, reg, ⟨⟨h, stays k h here, serving⟩, ?_, registered⟩, rfl⟩
        rw [connected]
        exact found
    · intro e member e' member' same
      rcases List.mem_append.mp member with old | new
      · rcases List.mem_append.mp member' with old' | new'
        · exact agreed.own e old e' old' same
        · cases List.mem_singleton.mp new'
          exact absurd same (Nat.ne_of_lt (before e old))
      · cases List.mem_singleton.mp new
        rcases List.mem_append.mp member' with old' | new'
        · exact absurd same.symm (Nat.ne_of_lt (before e' old'))
        · cases List.mem_singleton.mp new'
          rfl
    · intro e member
      rcases List.mem_append.mp member with old | new
      · obtain ⟨h, here, follows⟩ := agreed.follows e old
        refine ⟨h, stays _ h here, follows.said, ?_⟩
        rw [connected, config']
        exact follows.served
      · cases List.mem_singleton.mp new
        refine ⟨_, by rw [handshakes, List.getElem?_concat_length], by simp, ?_⟩
        cases (m.port.authRateOk ip).1 <;> simp
    · intro e member negotiated accepted
      rcases List.mem_append.mp member with old | new
      · exact agreed.outcome e old negotiated accepted
      · cases List.mem_singleton.mp new
        cases accepted
  | hello n =>
    obtain ⟨e, found, moved⟩ := Option.bind_eq_some_iff.mp moved
    apply agreed.take (by simp) _ moved
    intro e' member message same
    simp only [ControlPort.Action.received.injEq, Option.some.injEq] at same
    rw [← same.2, agreed.own e' member e (List.mem_of_getElem? found) same.1.symm]
  | reply n =>
    obtain ⟨e, found, moved⟩ := Option.bind_eq_some_iff.mp moved
    have here := List.mem_of_getElem? found
    split at moved
    next message none told =>
      cases moved
      -- the agent is the same, whatever it makes of its reply
      have old : ∀ {e' : AgentEnd}, e' ∈ m.agents.set n { e with
          outcome := some (e.agent.accept (overWire message)) } →
          ∃ e₀ ∈ m.agents, e₀.agent = e'.agent ∧ e₀.handshake = e'.handshake := by
        intro e' member
        rcases List.mem_or_eq_of_mem_set member with old | rfl
        · exact ⟨e', old, rfl, rfl⟩
        · exact ⟨e, here, rfl, rfl⟩
      refine ⟨agreed.fresh, agreed.dealt, agreed.configured, agreed.relay, agreed.sent, ?_, ?_, ?_⟩
      · intro e₁ member₁ e₂ member₂ same
        obtain ⟨e₁', old₁, agent₁, handshake₁⟩ := old member₁
        obtain ⟨e₂', old₂, agent₂, handshake₂⟩ := old member₂
        rw [← agent₁, ← agent₂]
        exact agreed.own e₁' old₁ e₂' old₂ (handshake₁.trans (same.trans handshake₂.symm))
      · intro e' member
        obtain ⟨e₀, before, agent, handshake⟩ := old member
        rw [← agent, ← handshake]
        exact agreed.follows e₀ before
      · intro e' member negotiated accepted
        rcases List.mem_or_eq_of_mem_set member with before | rfl
        · exact agreed.outcome e' before negotiated accepted
        · refine ⟨message, ?_, Option.some.inj accepted⟩
          obtain ⟨first, rest, split, -⟩ := List.lookup_eq_some_iff.mp told
          rw [split]
          exact List.mem_append_right _ List.mem_cons_self
    · cases moved
  | port a =>
    simp only [Meeting.step] at moved
    split at moved
    next foreign =>
      apply agreed.take _ _ moved
      · rintro b rfl
        exact drawn
      · rintro e member message rfl
        have apart := List.all_eq_true.mp foreign e member
        simp at apart
    · cases moved

theorem agreed_of_run {config : PortConfig} {now monotonic : ℚ} {as : List Action}
    (drawn : ∀ a ∈ as, a.Drawn) (ran : run step (start config now monotonic) as = some m) :
    m.Agreed config :=
  run_invariant (P := fun _ a => a.Drawn) (fun _ _ _ agreed drawn moved => agreed.step drawn moved)
    (agreed_start config now monotonic) (along_of_forall (fun a member _ => drawn a member) _) ran

/-- A made-up name is not the name of the only tunnel. -/
private theorem phrase_ne_defaultLabel {label : String} (drawn : RandomPhrase label) : label ≠ defaultLabel := by
  rintro rfl
  obtain ⟨first, -, second, -, noun, -, -, same⟩ := drawn
  have hyphen : '-' ∈ defaultLabel.toList := by
    rw [same, phrase]
    simp
  revert hyphen
  decide

/-- What an agent and the relay hold of one tunnel. -/
structure Agreement (config : PortConfig) (agent : Agent) (negotiated : Negotiated) (c : Server.Connection)
    (reg : Server.TunnelRegistration) : Prop where
  window : reg.mux.config = .server negotiated.flowWindow
  /-- Neither end is made to grant more than it offered. -/
  offered : negotiated.flowWindow.val ≤ agent.muxFlowWindow.val ∧
    negotiated.flowWindow.val ≤ config.muxFlowWindow.val
  url : negotiated.publicUrl = text reg.publicUrl
  /-- Without a base domain there is no name. -/
  unnamed : config.relay.baseDomain = none → c.label = defaultLabel ∧ negotiated.subdomain = .null
  /-- The name asked for, or a made-up one; only `default` is told as none. -/
  named : config.relay.baseDomain.isSome = true →
    (∀ label, agent.requestedSubdomain = some label → c.label = label) ∧
      (agent.requestedSubdomain = none → RandomPhrase c.label) ∧
      negotiated.subdomain =
        if agent.requestedSubdomain = some defaultLabel then .null else .str (text c.label)

/-- An agent that offers the largest window, and a relay that offers the default one. -/
def eagerAgent : Agent := { ControlPort.askingAgent with
  muxFlowWindow := ⟨maxFlowWindow, by decide, Nat.le_refl _⟩ }

/-- A stranger at the port, and the agent up to its reply. -/
def oneTunnel : List Action :=
  [.port (.connect none), .dial eagerAgent (some (.ipv4 1)), .port (.acquired 1 true), .hello 0,
    .port (.authAcquired 1 true),
    .port (.admitted 1 (some (Server.plainAdmission "a" "first" 1 .none))),
    .port (.server (.claim 0 fun _ => "swift-amber-otter")), .port (.server (.check 0)),
    .port (.server (.opened 0 (some true))), .port (.server (.recheck 0)), .reply 0]

end Meeting

end Chute
