import Chute.Mux.Discipline
import Chute.Server.Permanence

/-!
# Visitors and live registrations

A visitor is given a registration, a slot of its account and a stream in one step, so the
OPEN goes out on the registration that is routed at that moment. A registration that has
stopped being routed does not come back, whatever its renewal task still hears.
-/
namespace Chute

theorem Host.open_of_handed {h : Host} {a : Action} {f : Frame} (member : f ∈ h.handed a)
    (opens : f.ftype = .open_) : ∃ sent, a = .openStream sent := by
  unfold handed at member
  split at member
  next e moved =>
    obtain ⟨sent, same⟩ := open_of_step moved member opens
    cases a with
    | openStream sent => exact ⟨sent, rfl⟩
    | _ => cases same
  · cases member

/-- An OPEN goes out only where the stream is made. -/
theorem Host.suspended_of_handed {h : Host} {sent : Bool} {f : Frame}
    (member : f ∈ h.handed (.openStream sent)) : (h.openStream sent).result = .suspended := by
  unfold handed at member
  split at member
  next e moved =>
    simp only [Action.attempt, Host.step] at moved
    split at moved
    · cases moved
    · cases moved
      unfold openStream at member ⊢
      simp only at member ⊢
      split at member
      · cases member
      next room => rw [if_neg room]
  · cases member

namespace Server

variable {s s' : Server} {a : Action} {label : String} {i : Nat}

/-! ### The frames of a step -/

/-- The frames a call on the multiplexer of a registration hands to `_send`. -/
def muxHanded (s : Server) (i : Nat) (a : Chute.Action) : List (Nat × Frame) :=
  match s.registration? i with
  | none => []
  | some reg => ((s.host reg).handed a).map (i, ·)

/-- The frames a step hands to `_send`, each with the connection it is for. -/
def handed (s : Server) : Action → List (Nat × Frame)
  | .visit label sent =>
    match s.selectAgentForVisitor label with
    | (none, _) => []
    | (some (i, reg), s) =>
      match s.tryAcquireVisitorBudget reg with
      | none => []
      | some s => ((s.host reg).handed (.openStream sent)).map (i, ·)
  | .visitorOpened v =>
    match s.visitors[v]? with
    | none => []
    | some visitor => s.muxHanded visitor.connection (.openReturn visitor.stream)
  | .visitorFailed v =>
    match s.visitors[v]? with
    | none => []
    | some visitor => s.muxHanded visitor.connection (.openRaise visitor.stream)
  | .mux i a => s.muxHanded i a
  | _ => []

theorem open_of_muxHanded {b : Chute.Action} {e : Nat × Frame} (member : e ∈ s.muxHanded i b)
    (opening : e.2.ftype = .open_) : ∃ sent, b = .openStream sent := by
  unfold muxHanded at member
  split at member
  · cases member
  · obtain ⟨f, inside, rfl⟩ := List.mem_map.mp member
    exact Host.open_of_handed inside opening

/-- The registration that a visitor is given is the routed one, open to visitors, with a
lease that has not expired. -/
theorem selectAgentForVisitor_some {reg : TunnelRegistration} {t : Server}
    (selected : s.selectAgentForVisitor label = (some (i, reg), t)) :
    t = s ∧ s.agents.lookup label = some i ∧ s.registration? i = some reg ∧
      reg.acceptingVisitors = true ∧ reg.mux.draining = false ∧ s.leaseExpired reg = false := by
  unfold selectAgentForVisitor at selected
  split at selected
  · cases selected
  next j serves =>
    split at selected
    · cases selected
    next reg' found =>
      split at selected
      · cases selected
      next open_ =>
        split at selected
        · cases selected
        next valid =>
          cases selected
          simp only [Bool.or_eq_true, Bool.not_eq_true', not_or, Bool.not_eq_true,
            Bool.not_eq_false] at open_
          exact ⟨rfl, serves, found, open_.1, open_.2, by simpa using valid⟩

@[simp] theorem visitors_dropAccountBandwidthIfIdle (s : Server) (accountId : String) :
    (s.dropAccountBandwidthIfIdle accountId).visitors = s.visitors := by
  unfold dropAccountBandwidthIfIdle
  split <;> rfl

theorem visitors_afterMux (s : Server) (i : Nat) (reg : TunnelRegistration) (h : Host) :
    (s.afterMux i reg h).visitors = s.visitors := by
  unfold afterMux
  simp only
  split
  · rw [visitors_dropAccountBandwidthIfIdle]
    rfl
  · rfl

theorem visitors_tryAcquireVisitorBudget {reg : TunnelRegistration}
    (acquired : s.tryAcquireVisitorBudget reg = some s') : s'.visitors = s.visitors := by
  unfold tryAcquireVisitorBudget at acquired
  split at acquired
  · cases acquired
  · cases acquired
    rfl

/-- What a step that sends an OPEN is. -/
theorem visit_of_open (moved : s.step a = some s') {f : Frame} (member : (i, f) ∈ s.handed a)
    (opening : f.ftype = .open_) :
    ∃ label sent reg stream, a = .visit label sent ∧
      s'.visitors = s.visitors ++ [⟨label, i, stream, .opening⟩] ∧
      s.agents.lookup label = some i ∧ s.registration? i = some reg ∧
      reg.acceptingVisitors = true ∧ reg.mux.draining = false ∧ s.leaseExpired reg = false := by
  cases a with
  | visit label sent =>
    simp only [handed] at member
    split at member
    · cases member
    next j reg t selected =>
      split at member
      · cases member
      next u acquired =>
        obtain ⟨g, inside, same⟩ := List.mem_map.mp member
        cases same
        obtain ⟨rfl, serves, found, accepting, going, valid⟩ := selectAgentForVisitor_some selected
        have suspended := Host.suspended_of_handed inside
        cases moved
        refine ⟨label, sent, reg, ?_, rfl, ?_, serves, found, accepting, going, valid⟩
        · exact ⟨UInt32.ofNat reg.mux.nextId, reg.mux.made (UInt32.ofNat reg.mux.nextId)⟩
        · unfold visit
          simp only [selected, acquired, suspended]
          rw [visitors_afterMux, visitors_tryAcquireVisitorBudget acquired]
  | visitorOpened v =>
    simp only [handed] at member
    split at member
    · cases member
    · obtain ⟨sent, same⟩ := open_of_muxHanded member opening
      cases same
  | visitorFailed v =>
    simp only [handed] at member
    split at member
    · cases member
    · obtain ⟨sent, same⟩ := open_of_muxHanded member opening
      cases same
  | mux j b =>
    obtain ⟨sent, rfl⟩ := open_of_muxHanded member opening
    cases moved
  | _ => cases member

/-- **No visitor stream on a dead registration.** In every reachable state, a step that
sends an OPEN is that of a visitor, on the registration that is routed for its label, open
to visitors, not draining and with a lease that has not expired. A registration that has left
the map it was in is in neither map ever after. -/
theorem open_on_live {config : ServerConfig} {now monotonic : ℚ} {as : List Action}
    (ran : Transition.run step (start config now monotonic) as = some s) :
    (∀ a s' i f, s.step a = some s' → (i, f) ∈ s.handed a → f.ftype = .open_ →
      ∃ label sent reg stream, a = .visit label sent ∧
        s'.visitors = s.visitors ++ [⟨label, i, stream, .opening⟩] ∧
        s.agents.lookup label = some i ∧ s.registration? i = some reg ∧
        reg.acceptingVisitors = true ∧ reg.mux.draining = false ∧ s.leaseExpired reg = false) ∧
    ∀ label i bs s₁ cs s₂, s.agents.lookup label = some i ∨ s.pendingAgents.lookup label = some i →
      Transition.run step s bs = some s₁ →
      s₁.agents.lookup label ≠ some i → s₁.pendingAgents.lookup label ≠ some i →
      Transition.run step s₁ cs = some s₂ →
      ∀ other, s₂.agents.lookup other ≠ some i ∧ s₂.pendingAgents.lookup other ≠ some i := by
  refine ⟨fun a s' i f moved member opening => visit_of_open moved member opening, ?_⟩
  intro label i bs s₁ cs s₂ held first inactive dropped second other
  have coherent := coherent_of_run ran
  obtain ⟨coherent₁, ms, runs₁⟩ := coherent.run first
  obtain ⟨-, ns, runs₂⟩ := coherent₁.run second
  have holds := coherent.sound.holds_runs runs₁ (coherent.sound.holds held)
  have gone := (coherent₁.sound.gone holds inactive dropped).runs runs₂
  exact ⟨gone.inactive other, gone.dropped other⟩

/-- A visitor of the first connection of `reclaimed`, which the second one then supersedes. -/
theorem open_on_live_reclaim : ∃ s s' s₁ s₂,
    Transition.run step (start smallRelay 0 0) reclaimed = some s ∧
    s.step (.visit "x" true) = some s' ∧
    s.handed (.visit "x" true) = [(0, ⟨.open_, 1, []⟩)] ∧
    (∃ reg, s.agents.lookup "x" = some 0 ∧ s.registration? 0 = some reg ∧ reg.acceptingVisitors = true ∧
      reg.mux.draining = false ∧ s.leaseExpired reg = false) ∧
    Transition.run step s [.check 1, .opened 1 (some true), .recheck 1, .ready 1 true, .install 1] =
      some s₁ ∧
    Transition.run step s₁ [.revokeLease "second" .close] = some s₂ ∧
    ∀ other, s₂.agents.lookup other ≠ some 0 := by
  have done : ((Transition.run step (start smallRelay 0 0) reclaimed).bind fun s =>
      (s.step (.visit "x" true)).bind fun _ =>
        (Transition.run step s
          [.check 1, .opened 1 (some true), .recheck 1, .ready 1 true, .install 1]).bind fun s₁ =>
          (Transition.run step s₁ [.revokeLease "second" .close]).map fun _ =>
            (s.handed (.visit "x" true), s.agents.lookup "x", s₁.agents.lookup "x",
              s₁.pendingAgents.lookup "x")) =
      some ([(0, ⟨.open_, 1, []⟩)], some 0, some 1, none) := by
    decide
  obtain ⟨s, ran, done⟩ := Option.bind_eq_some_iff.mp done
  obtain ⟨s', visited, done⟩ := Option.bind_eq_some_iff.mp done
  obtain ⟨s₁, superseded, done⟩ := Option.bind_eq_some_iff.mp done
  obtain ⟨s₂, revoked, facts⟩ := Option.map_eq_some_iff.mp done
  simp only [Prod.mk.injEq] at facts
  obtain ⟨handed, before, after, free⟩ := facts
  obtain ⟨live, stays⟩ := open_on_live ran
  obtain ⟨label, sent, reg, stream, same, -, rest⟩ :=
    live _ s' 0 ⟨.open_, 1, []⟩ visited (by simp [handed]) rfl
  cases same
  refine ⟨s, s', s₁, s₂, ran, visited, handed, ⟨reg, rest⟩, superseded, revoked, fun other => ?_⟩
  exact (stays "x" 0 _ s₁ _ s₂ (Or.inl before) superseded (by simp [after]) (by simp [free]) revoked
    other).1

end Server

end Chute
