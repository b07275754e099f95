import Chute.Head.Routing
import Chute.Names
import Chute.Server.Keeps

/-!
# Tenant routing

In host-routed mode the Host of a visitor decides whose tunnel it gets. The label that the
relay looks up is the one whose public URL has that host, and there is no other way to it.
-/
namespace Chute

namespace Server

variable {s s' : Server} {ipv6 : String → Bool} {head : Bytes} {host : List Char} {base label : String}

/-- The label that `_select_agent_for_visitor` looks up for a head, if there is one to look up. -/
def labelForVisitor (s : Server) (ipv6 : String → Bool) (head : Bytes) : Except BadRequest (Option String) :=
  (parseRequestHead ipv6 head s.config.baseDomain.isSome).map fun parsed =>
    if s.config.baseDomain.isSome then labelFromHost s.config.baseDomain parsed.host
    else some defaultLabel

/-- `_select_agent_for_visitor`, from the head on. -/
def selectAgentForHead (s : Server) (ipv6 : String → Bool) (head : Bytes) :
    Except BadRequest (Option (String × Nat × TunnelRegistration) × Server) :=
  (s.labelForVisitor ipv6 head).map fun label =>
    match label with
    | none => (none, s)
    | some label => ((s.selectAgentForVisitor label).1.map (label, ·), (s.selectAgentForVisitor label).2)

/-! ### From the head to the label -/

/-- Exactly the heads with one valid Host are accepted. -/
theorem labelForVisitor_ok_iff (hosted : s.config.baseDomain = some base) {answer : Option String} :
    s.labelForVisitor ipv6 head = .ok answer ↔ ∃ host, Addressed ipv6 head host ∧
      answer = labelFromHost (some base) (some (lower (String.ofList host))) := by
  unfold labelForVisitor
  rw [hosted, Option.isSome_some]
  cases parsed : parseRequestHead ipv6 head true with
  | error reason =>
    refine iff_of_false nofun ?_
    rintro ⟨host, addressed, -⟩
    have accepted : parseRequestHead ipv6 head true = .ok ⟨some (lower (String.ofList host))⟩ :=
      parseRequestHead_addressed.mpr ⟨host, addressed, rfl⟩
    rw [parsed] at accepted
    cases accepted
  | ok found =>
    obtain ⟨host, addressed, kept⟩ := parseRequestHead_addressed.mp parsed
    constructor
    · intro same
      exact ⟨host, addressed, by rw [← kept]; exact (Except.ok.inj same).symm⟩
    · rintro ⟨other, addressed', rfl⟩
      rw [addressed.unique addressed', ← kept]
      rfl

/-- The label of a head stands before the base domain, in the name of the Host. -/
theorem labelForVisitor_eq_some_iff (hosted : s.config.baseDomain = some base)
    (addressed : Addressed ipv6 head host) : s.labelForVisitor ipv6 head = .ok (some label) ↔
      validLabel label = true ∧ hostName host = label.toList ++ '.' :: base.toList := by
  obtain ⟨request, fields, value, -, -, field⟩ := id addressed
  rw [← labelFromHost_eq_some_iff field.printable_host field.part, labelForVisitor_ok_iff hosted]
  constructor
  · rintro ⟨other, addressed', same⟩
    rw [← addressed.unique addressed', same]
  · intro same
    exact ⟨host, addressed, same.symm⟩

/-- A head that is accepted and has no label is turned away. -/
theorem selectAgentForHead_none (hosted : s.config.baseDomain = some base)
    (addressed : Addressed ipv6 head host) (unlabelled : ∀ label, validLabel label = true →
      hostName host ≠ label.toList ++ '.' :: base.toList) :
    s.selectAgentForHead ipv6 head = .ok (none, s) := by
  have answer := (labelForVisitor_ok_iff hosted).mpr ⟨host, addressed, rfl⟩
  cases read : labelFromHost (some base) (some (lower (String.ofList host))) with
  | none =>
    rw [read] at answer
    rw [selectAgentForHead, answer]
    rfl
  | some label =>
    rw [read] at answer
    obtain ⟨valid, whole⟩ := (labelForVisitor_eq_some_iff hosted addressed).mp answer
    exact absurd whole (unlabelled label valid)

/-! ### From the label to the public URL -/

/-- The URL of a label under the base domain. -/
def PublicUrl (base label url : String) : Prop :=
  validLabel label = true ∧
    (url = "http://" ++ label ++ "." ++ base ++ "/" ∨ url = "https://" ++ label ++ "." ++ base ++ "/")

theorem PublicUrl.urlHost_eq {url : String} (given : PublicUrl base label url) (domain : DomainName base) :
    urlHost url = (label ++ "." ++ base).toList := by
  have under := domain.under given.1
  have http : "http://".toList = "http:".toList ++ ['/', '/'] := by decide
  have https : "https://".toList = "https:".toList ++ ['/', '/'] := by decide
  rcases given.2 with rfl | rfl
  · rw [← urlHost_of_slashes http (by decide) under]
    simp only [String.append_assoc]
  · rw [← urlHost_of_slashes https (by decide) under]
    simp only [String.append_assoc]

/-- The label of a claim is valid, whether it was asked for or made up. -/
theorem validLabel_of_assignLabel {requested : Option String} {phrases : Fin 100 → String}
    (drawn : ∀ k, RandomPhrase (phrases k)) (assigned : s.assignLabel requested phrases = .ok label) :
    validLabel label = true := by
  unfold assignLabel at assigned
  cases requested with
  | some wanted =>
    simp only at assigned
    split at assigned
    next valid =>
      cases assigned
      exact valid
    · cases assigned
  | none =>
    simp only at assigned
    split at assigned
    next found =>
      cases assigned
      obtain ⟨k, rfl⟩ := List.mem_ofFn.mp (List.mem_of_find?_eq_some found)
      exact (drawn k).valid
    · cases assigned

theorem publicUrl_of_publicUrlFor {scheme : Scheme} {url : String} (valid : validLabel label = true)
    (hosted : s.config.baseDomain = some base) (published : s.publicUrlFor label scheme = .ok url) :
    PublicUrl base label url := by
  refine ⟨valid, ?_⟩
  cases scheme with
  | http =>
    simp only [publicUrlFor, hosted] at published
    exact Or.inl (Except.ok.inj published).symm
  | https =>
    simp only [publicUrlFor, httpsPublicUrlFor, hosted] at published
    split at published
    · exact Or.inr (Except.ok.inj published).symm
    · cases published

theorem publicUrl_of_prepareClaim {c : Connection} {phrases : Fin 100 → String} {url : String}
    (hosted : s.config.baseDomain = some base) (drawn : ∀ k, RandomPhrase (phrases k))
    (prepared : s.prepareClaim c phrases = .ok (label, url)) : PublicUrl base label url := by
  obtain ⟨chosen, -, -, published⟩ := prepareClaim_ok prepared
  rw [chooseLabel, hosted, Option.isSome_some, if_pos rfl] at chosen
  exact publicUrl_of_publicUrlFor (validLabel_of_assignLabel drawn chosen) hosted published

/-- The phrases of a claim are drawn by `random_phrase`. -/
def Action.Drawn : Action → Prop
  | .claim _ phrases => ∀ k, RandomPhrase (phrases k)
  | _ => True

/-- Every registration has the public URL of its label. -/
theorem publicUrl_of_run {config : ServerConfig} {now monotonic : ℚ} {as : List Action}
    (hosted : config.baseDomain = some base) (drawn : ∀ a ∈ as, a.Drawn)
    (ran : Transition.run step (start config now monotonic) as = some s) {i : Nat} {c : Connection}
    {reg : TunnelRegistration} (found : s.connections[i]? = some c) (registered : c.registration = some reg) :
    PublicUrl base c.label reg.publicUrl := by
  have kept : ∀ (t : Server) a (t' : Server),
      (t.config = config ∧ t.Vouched fun bound title => PublicUrl base bound.2 title.2.2.1) →
        Action.Drawn a → t.step a = some t' →
          t'.config = config ∧ t'.Vouched fun bound title => PublicUrl base bound.2 title.2.2.1 := by
    rintro t a t' ⟨same, vouched⟩ drawn moved
    refine ⟨(config_step moved).trans same, vouched.step moved ?_⟩
    rintro j phrases c label url rfl prepared
    exact publicUrl_of_prepareClaim (same ▸ hosted) drawn prepared
  have vouched := Transition.run_invariant kept ⟨rfl, vouched_start config now monotonic⟩
    (Transition.along_of_forall (fun a member _ => drawn a member) _) ran
  exact vouched.2 i c reg found registered

/-! ### The whole way -/

/-- The relay routes by the exact names under its base domain. -/
structure RoutesExactly (s : Server) (ipv6 : String → Bool) (base : String) : Prop where
  /-- Which heads are accepted. -/
  accepts : ∀ head, (∃ answer, s.labelForVisitor ipv6 head = .ok answer) ↔ ∃ host, Addressed ipv6 head host
  /-- Which label is considered. -/
  considers : ∀ head host label, Addressed ipv6 head host →
    (s.labelForVisitor ipv6 head = .ok (some label) ↔
      validLabel label = true ∧ hostName host = label.toList ++ '.' :: base.toList)
  /-- A visitor is given what is registered for the label of its head. -/
  selects : ∀ head label i reg t, s.selectAgentForHead ipv6 head = .ok (some (label, i, reg), t) →
    s.labelForVisitor ipv6 head = .ok (some label) ∧ s.agents.lookup label = some i
  /-- Labels share no Host. -/
  separates : ∀ head head' host host' label label', Addressed ipv6 head host → Addressed ipv6 head' host' →
    s.labelForVisitor ipv6 head = .ok (some label) → s.labelForVisitor ipv6 head' = .ok (some label') →
      (hostName host = hostName host' ↔ label = label')
  apex : ∀ head host, Addressed ipv6 head host → hostName host = base.toList →
    s.selectAgentForHead ipv6 head = .ok (none, s)
  deeper : ∀ head host inner, Addressed ipv6 head host → hostName host = inner ++ '.' :: base.toList →
    '.' ∈ inner → s.selectAgentForHead ipv6 head = .ok (none, s)
  /-- A name that ends in the same characters, but not behind a dot, is another domain. -/
  foreign : ∀ head host, Addressed ipv6 head host → ¬ '.' :: base.toList <:+ hostName host →
    s.selectAgentForHead ipv6 head = .ok (none, s)

theorem selectAgentForVisitor_lookup {i : Nat} {reg : TunnelRegistration}
    (selected : (s.selectAgentForVisitor label).1 = some (i, reg)) : s.agents.lookup label = some i := by
  unfold selectAgentForVisitor at selected
  split at selected
  · cases selected
  next serves =>
    split at selected
    · cases selected
    · split at selected
      · cases selected
      · split at selected
        · cases selected
        · cases selected
          exact serves

theorem routesExactly (hosted : s.config.baseDomain = some base) : s.RoutesExactly ipv6 base where
  accepts head := by
    constructor
    · rintro ⟨answer, accepted⟩
      obtain ⟨host, addressed, -⟩ := (labelForVisitor_ok_iff hosted).mp accepted
      exact ⟨host, addressed⟩
    · rintro ⟨host, addressed⟩
      exact ⟨_, (labelForVisitor_ok_iff hosted).mpr ⟨host, addressed, rfl⟩⟩
  considers head host label addressed := labelForVisitor_eq_some_iff hosted addressed
  selects head label i reg t selected := by
    unfold selectAgentForHead at selected
    cases answer : s.labelForVisitor ipv6 head with
    | error reason =>
      rw [answer] at selected
      cases selected
    | ok found =>
      rw [answer] at selected
      cases found with
      | none => cases selected
      | some wanted =>
        have selection := congrArg Prod.fst (Except.ok.inj selected)
        obtain ⟨⟨j, registration⟩, chosen, same⟩ := Option.map_eq_some_iff.mp selection
        cases same
        exact ⟨rfl, selectAgentForVisitor_lookup chosen⟩
  separates head head' host host' label label' addressed addressed' one other := by
    rw [((labelForVisitor_eq_some_iff hosted addressed).mp one).2,
      ((labelForVisitor_eq_some_iff hosted addressed').mp other).2, List.append_cancel_right_eq,
      String.toList_inj]
  apex head host addressed apex := by
    refine selectAgentForHead_none hosted addressed fun label _ whole => ?_
    have lengths := congrArg List.length (apex.symm.trans whole)
    rw [List.length_append, List.length_cons] at lengths
    omega
  deeper head host inner addressed deeper dotted := by
    refine selectAgentForHead_none hosted addressed fun label valid whole => ?_
    -- one label has no dot in it
    have same := List.append_cancel_right (deeper.symm.trans whole)
    refine mark_not_mem ?_ (by decide) (same ▸ dotted)
    rw [String.ofList_toList, lower_of_validLabel valid]
    exact valid
  foreign head host addressed foreign :=
    selectAgentForHead_none hosted addressed fun label _ whole => foreign ⟨label.toList, whole.symm⟩

theorem selectAgentForHead_eq {i : Nat} {reg : TunnelRegistration}
    (considered : s.labelForVisitor ipv6 head = .ok (some label)) (serves : s.agents.lookup label = some i)
    (known : s.registration? i = some reg) (accepting : reg.acceptingVisitors = true)
    (serving : reg.mux.draining = false) (lasting : s.leaseExpired reg = false) :
    s.selectAgentForHead ipv6 head = .ok (some (label, i, reg), s) := by
  have selected : s.selectAgentForVisitor label = (some (i, reg), s) := by
    simp only [selectAgentForVisitor, serves, known, accepting, serving, lasting, Bool.not_true,
      Bool.or_self, Bool.false_eq_true, if_false]
  rw [selectAgentForHead, considered]
  simp only [Except.map, selected, Option.map_some]

theorem Phase.label_eq {phase : Phase} {label' : String}
    (stands : phase.stage label = .claimed label' ∨ phase.stage label = .installed label') : label = label' := by
  have ending : ∀ why : Ending, why.stage label = .claimed label' ∨ why.stage label = .installed label' →
      label = label' := fun why stands => by cases why <;> simp_all [Ending.stage]
  cases phase with
  | admitted => simp [stage] at stands
  | dropping opened why => exact ending why stands
  | over_ opened why => exact ending why stands
  | _ => simpa [stage] using stands

/-- A connection stands in the maps under its own label only. -/
theorem Coherent.label_eq (coherent : s.Coherent) {i : Nat} {c : Connection}
    (found : s.connections[i]? = some c)
    (held : s.agents.lookup label = some i ∨ s.pendingAgents.lookup label = some i) : c.label = label := by
  have stage : s.roster.stage i = some (c.phase.stage c.label) := by
    simp [Roster.stage, roster, found, Connection.entry]
  apply Phase.label_eq
  rcases held with serves | holds
  · have active := coherent.sound.active label i serves
    rw [stage] at active
    exact Or.inr (Option.some.inj active)
  · have pending := coherent.sound.pending label i holds
    rw [stage] at pending
    exact Or.inl (Option.some.inj pending)

/-- **Tenant routing is exact and round-trips.** Under a base domain of valid labels the relay
considers a label for a head if and only if the Host names that label in front of the base
domain, whatever is registered. In a reachable state the host part of the public URL of a
registration is a Host, and every head with a Host of that name leads to the label that is
registered, and to the registration itself while it serves. -/
theorem tenant_routing {config : ServerConfig} {baseDomain : Option String} (ipv6 : String → Bool)
    (configured : config.baseDomain = normalizeBaseDomain baseDomain)
    (hosted : normalizeBaseDomain baseDomain = some base) (domain : DomainName base) :
    (∀ s : Server, s.config = config → s.RoutesExactly ipv6 base) ∧
    ∀ now monotonic as s, (∀ a ∈ as, Action.Drawn a) →
      Transition.run step (start config now monotonic) as = some s →
      ∀ label i reg, s.agents.lookup label = some i ∨ s.pendingAgents.lookup label = some i →
        s.registration? i = some reg →
        (∀ head request fields, readHead head = .ok (request, fields) →
          rawHosts fields = [ascii (String.ofList (urlHost reg.publicUrl))] →
            Addressed ipv6 head (urlHost reg.publicUrl)) ∧
        ∀ head host, Addressed ipv6 head host → hostName host = hostName (urlHost reg.publicUrl) →
          s.labelForVisitor ipv6 head = .ok (some label) ∧
          (s.agents.lookup label = some i → reg.mux.draining = false → s.leaseExpired reg = false →
            s.selectAgentForHead ipv6 head = .ok (some (label, i, reg), s)) := by
  rw [hosted] at configured
  refine ⟨fun s same => routesExactly (same ▸ configured), ?_⟩
  intro now monotonic as s drawn ran label i reg held known
  have coherent := coherent_of_run ran
  obtain ⟨c, found, registered⟩ := Option.bind_eq_some_iff.mp known
  have own := coherent.label_eq found held
  subst own
  have given := publicUrl_of_run configured drawn ran found registered
  have under := domain.under given.1
  rw [given.urlHost_eq domain]
  constructor
  · intro head request fields read sole
    rw [String.ofList_toList] at sole
    exact ⟨request, fields, _, read, sole, under.hostField⟩
  · intro head host addressed named
    have same : s.config.baseDomain = some base := by
      rw [config_of_run ran]
      exact configured
    have considered : s.labelForVisitor ipv6 head = .ok (some c.label) := by
      rw [labelForVisitor_eq_some_iff same addressed, named, under.hostName_eq]
      refine ⟨given.1, ?_⟩
      rw [String.toList_append, String.toList_append, List.append_assoc]
      rfl
    refine ⟨considered, fun serves serving lasting => ?_⟩
    exact selectAgentForHead_eq considered serves known (coherent.accepting _ i reg serves known) serving lasting

/-- A connection that asks for no label and is given one. -/
def madeUp : List Action :=
  [.admitTunnel (plainAdmission "a" "first" 1 .none) none .http .default,
    .claim 0 (fun _ => "swift-amber-otter"), .check 0, .opened 0 (some true), .recheck 0, .ready 0 true,
    .install 0]

/-- What a visitor of that label may send. -/
def otterHead : Bytes := ascii "GET / HTTP/1.1\r\nHost: Swift-Amber-Otter.Relay.Test.:8080\r\n\r\n"

theorem addressed_otterHead (ipv6 : String → Bool) :
    Addressed ipv6 otterHead "Swift-Amber-Otter.Relay.Test.".toList := by
  refine ⟨⟨ascii "GET", ascii "/", ascii "HTTP/1.1"⟩,
    [(ascii "Host", ascii " Swift-Amber-Otter.Relay.Test.:8080")],
    ascii " Swift-Amber-Otter.Relay.Test.:8080", by decide +kernel, by decide +kernel, ?_⟩
  refine ⟨by decide +kernel, ⟨":8080".toList, by decide +kernel, ?_⟩, by decide, ?_⟩
  · exact PortPart.present (by decide) (by decide) (by decide) (by decide)
  · have labels : "Swift-Amber-Otter.Relay.Test.".toList =
        ['.'].intercalate ["Swift-Amber-Otter".toList, "Relay".toList, "Test".toList] ++ ['.'] := by decide
    rw [labels]
    exact .rooted (by decide) (by decide)

theorem tenant_routing_otter : ∃ s, Transition.run step (start smallRelay 0 0) madeUp = some s ∧
    s.labelForVisitor (· == "::1") otterHead = .ok (some "swift-amber-otter") := by
  have done : ((Transition.run step (start smallRelay 0 0) madeUp).map fun s =>
      (s.agents.lookup "swift-amber-otter", (s.registration? 0).map TunnelRegistration.publicUrl)) =
        some (some 0, some "http://swift-amber-otter.relay.test/") := by
    decide
  obtain ⟨s, ran, facts⟩ := Option.map_eq_some_iff.mp done
  simp only [Prod.mk.injEq] at facts
  obtain ⟨reg, known, url⟩ := Option.map_eq_some_iff.mp facts.2
  have drawn : ∀ a ∈ madeUp, Action.Drawn a := by
    have otter : RandomPhrase "swift-amber-otter" :=
      ⟨"swift", by decide, "amber", by decide, "otter", by decide, by decide, by decide⟩
    simp only [madeUp, List.forall_mem_cons, Action.Drawn, otter, implies_true, List.not_mem_nil,
      IsEmpty.forall_iff, and_self]
  have domain : DomainName "relay.test" :=
    ⟨["relay".toList, "test".toList], by decide, by decide, by decide⟩
  have configured : smallRelay.baseDomain = normalizeBaseDomain (some "Relay.Test.") := by decide
  have routed := (tenant_routing (· == "::1") configured (by decide) domain).2 0 0 madeUp s drawn ran
    "swift-amber-otter" 0 reg (Or.inl facts.1) known
  refine ⟨s, ran, (routed.2 otterHead _ (addressed_otterHead _) ?_).1⟩
  rw [url]
  decide

end Server

end Chute
