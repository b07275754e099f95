import Chute.Server.Policy
import Chute.Server.Slots

/-!
# What the relay keeps for an account

The override of an account's budget and its byte schedule are for its local work. Where a
label, a visitor or a buffered byte goes, the relay looks whether it was the last work of
its account, and then forgets both. Where a pending registration goes it does not look.
-/
namespace Chute

namespace Server

variable {s s' s'' t : Server} {accountId : String} {i : Nat}

/-- An override or a byte schedule is kept for the account. -/
def Remembers (s : Server) (accountId : String) : Prop :=
  accountId ∈ s.accountBudgetOverrides ∨ accountId ∈ s.accountBandwidth

/-- What is kept for the account is kept for its local work. -/
def ScopedTo (s : Server) (accountId : String) : Prop :=
  s.Remembers accountId → s.accountHasLocalWork accountId = true

/-- The step puts no account out of its scope. -/
def Tidy (s s' : Server) : Prop := ∀ accountId, s.ScopedTo accountId → s'.ScopedTo accountId

theorem Tidy.refl (s : Server) : Tidy s s := fun _ => id

theorem Tidy.trans (first : Tidy s s') (second : Tidy s' s'') : Tidy s s'' :=
  fun accountId within => second accountId (first accountId within)

/-- Nothing more is kept, and nobody has less to do. -/
theorem Tidy.of_busy (overrides : s'.accountBudgetOverrides = s.accountBudgetOverrides)
    (bandwidth : s'.accountBandwidth = s.accountBandwidth)
    (work : ∀ accountId, s.accountHasLocalWork accountId = true →
      s'.accountHasLocalWork accountId = true) : Tidy s s' := by
  intro accountId within kept
  refine work accountId (within ?_)
  rw [Remembers, overrides, bandwidth] at kept
  exact kept

theorem Tidy.of_same (overrides : s'.accountBudgetOverrides = s.accountBudgetOverrides)
    (bandwidth : s'.accountBandwidth = s.accountBandwidth) (same : SameWork s s') : Tidy s s' :=
  .of_busy overrides bandwidth fun accountId busy => (same.eq accountId).trans busy

theorem tidy_foldl {α : Type} {f : Server → α → Server} (each : ∀ s a, Tidy s (f s a))
    (list : List α) (s : Server) : Tidy s (list.foldl f s) := by
  induction list generalizing s with
  | nil => exact .refl s
  | cons a rest ih => exact (each s a).trans (ih _)

/-- With at least as many labels, visitors, bytes and pending registrations an account that had
work still has it. -/
theorem busy_of_more
    (labels : accountId ∈ s.accountLabels → accountId ∈ s'.accountLabels)
    (streams : 0 < s.accountActiveStreams accountId → 0 < s'.accountActiveStreams accountId)
    (buffered : 0 < s.accountBuffered accountId → 0 < s'.accountBuffered accountId)
    (pending : ∀ label, s.Maps s.pendingAgents label (fun reg => reg.accountId = accountId) →
      s'.Maps s'.pendingAgents label fun reg => reg.accountId = accountId)
    (busy : s.accountHasLocalWork accountId = true) : s'.accountHasLocalWork accountId = true := by
  rw [accountHasLocalWork_iff] at busy ⊢
  rcases busy with labelled | visited | held | ⟨label, waits⟩
  · exact Or.inl (labels labelled)
  · exact Or.inr (Or.inl (streams visited))
  · exact Or.inr (Or.inr (Or.inl (buffered held)))
  · exact Or.inr (Or.inr (Or.inr ⟨label, pending label waits⟩))

/-! ### Where the relay looks -/

/-- The account that is looked at is in scope afterwards, whatever happened to it. -/
theorem Tidy.looked (others : ∀ other, other ≠ accountId → s.ScopedTo other → t.ScopedTo other) :
    Tidy s (t.dropAccountBandwidthIfIdle accountId) := by
  intro other within
  unfold dropAccountBandwidthIfIdle
  split
  next busy =>
    by_cases here : other = accountId
    · subst here
      exact fun _ => busy
    · exact others other here within
  next idle =>
    rintro (override | schedule)
    · rw [AList.mem_erase] at override
      exact others other override.1 within (Or.inl override.2)
    · rw [AList.mem_erase] at schedule
      exact others other schedule.1 within (Or.inr schedule.2)

theorem tidy_dropAccountBandwidthIfIdle (s : Server) (accountId : String) :
    Tidy s (s.dropAccountBandwidthIfIdle accountId) :=
  .looked fun _ _ => id

/-- Only the account whose label goes can leave the index. -/
theorem mem_discard_ne {index : ReverseIndex String String} {k k' label : String} (apart : k' ≠ k)
    (member : k' ∈ index) : k' ∈ index.discard k label := by
  unfold ReverseIndex.discard
  split
  · exact member
  · split
    · exact AList.mem_erase.mpr ⟨apart, member⟩
    · exact (AList.mem_insert _).mpr (Or.inr member)

theorem tidy_deregisterIfCurrent (s : Server) (label : String) (i : Nat) :
    Tidy s (s.deregisterIfCurrent label i) := by
  unfold deregisterIfCurrent
  split
  · split
    · refine .looked fun other apart within kept => ?_
      exact busy_of_more (s := s) (mem_discard_ne apart) id id (fun _ => id) (within kept)
    · exact .refl s
  · exact .refl s

theorem sameWork_disable (s : Server) (i : Nat) : SameWork s (s.modifyRegistration i disable) :=
  ⟨sameAccounts_modifyConnection fun c _ => by cases c.registration <;> rfl, rfl, rfl, rfl, rfl⟩

theorem tidy_retireRegistration (s : Server) (label : String) (i : Nat) (reason : RetireReason)
    (timeout : ℚ) : Tidy s (s.retireRegistration label i reason timeout) := by
  unfold retireRegistration
  split
  · have disabled : Tidy s (s.modifyRegistration i disable) := .of_same rfl rfl (sameWork_disable s i)
    refine (disabled.trans (tidy_deregisterIfCurrent _ label i)).trans ?_
    cases reason <;> exact .of_same rfl rfl ⟨fun _ => rfl, rfl, rfl, rfl, rfl⟩
  · exact .refl s

theorem tidy_releaseVisitorBudget (s : Server) (accountId : String) :
    Tidy s (s.releaseVisitorBudget accountId) := by
  unfold releaseVisitorBudget
  split
  · refine .looked fun other apart within kept => ?_
    refine busy_of_more (s := s) id ?_ id (fun _ => id) (within kept)
    simp [accountActiveStreams, AList.lookup_erase_ne apart]
  next more =>
    refine .of_busy rfl rfl fun other => busy_of_more (s := s) id ?_ id fun _ => id
    by_cases here : other = accountId
    · subst here
      simp only [accountActiveStreams, AList.lookup_insert, Option.getD_some] at more ⊢
      omega
    · simp [accountActiveStreams, AList.lookup_insert_ne here]

theorem tidy_tryAcquireVisitorBudget {reg : TunnelRegistration}
    (acquired : s.tryAcquireVisitorBudget reg = some s') : Tidy s s' := by
  obtain ⟨rfl, -⟩ := acquired_slot acquired
  refine .of_busy rfl rfl fun other => busy_of_more (s := s) id ?_ id fun _ => id
  intro before
  show 0 < Tally.count (Tally.take s.accountActiveVisitors reg.accountId) other
  rw [Tally.count_take]
  exact Nat.add_pos_left before _

theorem tidy_leave {v : Nat} {visitor : Visitor} (moved : s.leave v visitor = some s') :
    Tidy s s' := by
  obtain ⟨reg, -, rfl⟩ := Option.map_eq_some_iff.mp moved
  refine Tidy.trans ?_ (tidy_releaseVisitorBudget _ _)
  exact .of_same rfl rfl ⟨fun _ => rfl, rfl, rfl, rfl, rfl⟩

/-- A multiplexer changes the bytes of its account only, and the account is looked at when the
last one goes. -/
theorem tidy_afterMux (s : Server) (i : Nat) (reg : TunnelRegistration) (h : Host) :
    Tidy s (s.afterMux i reg h) := by
  have accounts : SameAccounts s (s.modifyRegistration i fun reg => { reg with mux := h.mux }) :=
    sameAccounts_modifyConnection fun c _ => by cases c.registration <;> rfl
  have pending : ∀ other label, s.Maps s.pendingAgents label (fun reg => reg.accountId = other) →
      (s.modifyRegistration i fun reg => { reg with mux := h.mux }).Maps s.pendingAgents label
        fun reg => reg.accountId = other := by
    rintro other label ⟨j, old, holds, found, account⟩
    have same := accounts j
    rw [found] at same
    obtain ⟨new, found', equal⟩ := Option.map_eq_some_iff.mp same
    exact ⟨j, new, holds, found', equal.trans account⟩
  unfold afterMux
  simp only
  split
  · refine .looked fun other apart within kept => ?_
    refine busy_of_more (s := s) id id ?_ (pending other) (within kept)
    simp [Function.update_of_ne apart]
  next stays =>
    refine .of_busy rfl rfl fun other => busy_of_more (s := s) id id ?_ (pending other)
    by_cases here : other = reg.accountId
    · subst here
      simp only [Function.update_self]
      intro before
      by_contra none
      exact stays ⟨before, not_lt.mp none⟩
    · simp [Function.update_of_ne here]

theorem tidy_muxStep {a : Chute.Action} (moved : s.muxStep i a = some s') : Tidy s s' := by
  obtain ⟨reg, -, moved⟩ := Option.bind_eq_some_iff.mp moved
  obtain ⟨e, -, rfl⟩ := Option.map_eq_some_iff.mp moved
  exact tidy_afterMux s i reg e.host

theorem tidy_visit (s : Server) (label : String) (sent : Bool) : Tidy s (s.visit label sent) := by
  have selected : Tidy s (s.selectAgentForVisitor label).2 := by
    unfold selectAgentForVisitor
    split
    · exact .refl s
    · split
      · exact .refl s
      · split
        · exact .refl s
        · split
          · exact tidy_retireRegistration s label _ .leaseExpired leaseExpiryDrainTimeout
          · exact .refl s
  unfold visit
  cases chosen : s.selectAgentForVisitor label with
  | mk agent t =>
    rw [chosen] at selected
    cases agent with
    | none => exact selected
    | some agent =>
      simp only
      split
      · exact selected
      next u acquired =>
        have opened := (selected.trans (tidy_tryAcquireVisitorBudget acquired)).trans
          (tidy_afterMux u agent.1 agent.2 ((u.host agent.2).openStream sent).host)
        split
        · exact opened.trans (.of_same rfl rfl ⟨fun _ => rfl, rfl, rfl, rfl, rfl⟩)
        · exact opened.trans (tidy_releaseVisitorBudget _ _)

theorem sameWork_dropAccountBandwidthIfIdle (s : Server) (accountId : String) :
    SameWork s (s.dropAccountBandwidthIfIdle accountId) := by
  unfold dropAccountBandwidthIfIdle
  split <;> exact ⟨fun _ => rfl, rfl, rfl, rfl, rfl⟩

theorem sameWork_sweep (accountIds : List String) (s : Server) :
    SameWork s (accountIds.foldl dropAccountBandwidthIfIdle s) := by
  induction accountIds generalizing s with
  | nil => exact .refl s
  | cons accountId rest ih => exact (sameWork_dropAccountBandwidthIfIdle s accountId).trans (ih _)

/-- A schedule is made for an account that has work. -/
theorem tidy_throttleAccountBytes {reg : TunnelRegistration} (n : Nat)
    (busy : s.accountHasLocalWork reg.accountId = true) : Tidy s (s.throttleAccountBytes reg n).2 := by
  have scheduled : ∀ (t : Server) limit nextAt, t.accountHasLocalWork reg.accountId = true →
      Tidy t (t.scheduleBytes reg.accountId limit n nextAt).2 := by
    rintro t limit nextAt busy other within (override | schedule)
    · exact within (Or.inl override)
    · rcases (AList.mem_insert _).mp schedule with rfl | before
      · exact busy
      · exact within (Or.inr before)
  unfold throttleAccountBytes
  split
  · exact .refl s
  · split
    · exact .refl s
    · split
      · exact .refl s
      · split
        · exact scheduled s _ _ busy
        · simp only
          have swept : Tidy s (if bandwidthMaxAccounts ≤ s.accountBandwidth.keys.length then
              s.sweepIdleBandwidth else s) ∧ SameWork s (if bandwidthMaxAccounts ≤
                s.accountBandwidth.keys.length then s.sweepIdleBandwidth else s) := by
            split
            · exact ⟨tidy_foldl tidy_dropAccountBandwidthIfIdle _ s, sameWork_sweep _ s⟩
            · exact ⟨.refl s, .refl s⟩
          generalize (if bandwidthMaxAccounts ≤ s.accountBandwidth.keys.length then
            s.sweepIdleBandwidth else s) = t at swept
          split
          · exact swept.1
          · exact swept.1.trans (scheduled t _ _ ((swept.2.eq _).trans busy))

/-! ### What is left of an account -/

/-- The registration is in one of the two maps. -/
def Held (s : Server) (i : Nat) : Prop :=
  ∃ label, s.agents.lookup label = some i ∨ s.pendingAgents.lookup label = some i

/-- The account has other work than these registrations. -/
def BusyBesides (s : Server) (accountId : String) (gone : Nat → Prop) : Prop :=
  0 < s.accountActiveStreams accountId ∨ 0 < s.accountBuffered accountId ∨
    ∃ i, s.Held i ∧ s.roster.account i = some accountId ∧ ¬ gone i

theorem BusyBesides.mono {gone more : Nat → Prop} (busy : s.BusyBesides accountId more)
    (weaker : ∀ i, gone i → more i) : s.BusyBesides accountId gone := by
  rcases busy with visited | buffered | ⟨i, held, account, stays⟩
  · exact Or.inl visited
  · exact Or.inr (Or.inl buffered)
  · exact Or.inr (Or.inr ⟨i, held, account, fun goes => stays (weaker i goes)⟩)

theorem Coherent.busy_iff (coherent : s.Coherent) :
    s.accountHasLocalWork accountId = true ↔ s.BusyBesides accountId fun _ => False := by
  rw [accountHasLocalWork_iff, coherent.accounts.mem_iff]
  constructor
  · rintro (⟨label, owner⟩ | visited | buffered | ⟨label, i, reg, holds, found, same⟩)
    · obtain ⟨i, serves, account⟩ := Option.bind_eq_some_iff.mp owner
      exact Or.inr (Or.inr ⟨i, ⟨label, Or.inl serves⟩, account, id⟩)
    · exact Or.inl visited
    · exact Or.inr (Or.inl buffered)
    · have account := (coherent.linked i reg found).1
      rw [same] at account
      exact Or.inr (Or.inr ⟨i, ⟨label, Or.inr holds⟩, account, id⟩)
  · rintro (visited | buffered | ⟨i, ⟨label, serves | holds⟩, account, -⟩)
    · exact Or.inr (Or.inl visited)
    · exact Or.inr (Or.inr (Or.inl buffered))
    · exact Or.inl ⟨label, Option.bind_eq_some_iff.mpr ⟨i, serves, account⟩⟩
    · obtain ⟨reg, found, -⟩ := coherent.pending holds
      have same := (coherent.linked i reg found).1.symm.trans account
      exact Or.inr (Or.inr (Or.inr ⟨label, i, reg, holds, found, Option.some.inj same⟩))

/-- Registrations end, and nothing else changes in what an account has to do. -/
structure Ends (s : Server) (gone : Nat → Prop) (s' : Server) : Prop where
  coherent : s'.Coherent
  entries : s'.roster.entries = s.roster.entries
  held : ∀ i, s'.Held i ↔ s.Held i ∧ ¬ gone i
  streams : s'.accountActiveStreams = s.accountActiveStreams
  buffered : s'.accountBuffered = s.accountBuffered

variable {gone more : Nat → Prop}

theorem Ends.account (ends : Ends s gone s') (i : Nat) : s'.roster.account i = s.roster.account i := by
  rw [Roster.account, Roster.account, ends.entries]

theorem Ends.lease (ends : Ends s gone s') (i : Nat) : s'.roster.lease i = s.roster.lease i := by
  rw [Roster.lease, Roster.lease, ends.entries]

theorem Ends.busy (ends : Ends s gone s') :
    s'.BusyBesides accountId more ↔ s.BusyBesides accountId fun i => gone i ∨ more i := by
  unfold BusyBesides
  simp only [ends.streams, ends.buffered, ends.account, ends.held, not_or, and_assoc]
  constructor
  · rintro (visited | buffered | ⟨i, held, stays, account, other⟩)
    · exact Or.inl visited
    · exact Or.inr (Or.inl buffered)
    · exact Or.inr (Or.inr ⟨i, held, account, stays, other⟩)
  · rintro (visited | buffered | ⟨i, held, account, stays, other⟩)
    · exact Or.inl visited
    · exact Or.inr (Or.inl buffered)
    · exact Or.inr (Or.inr ⟨i, held, stays, account, other⟩)

/-- What the account has to do after registrations have ended. -/
theorem Ends.work (ends : Ends s gone s') :
    s'.accountHasLocalWork accountId = true ↔ s.BusyBesides accountId gone := by
  rw [ends.coherent.busy_iff, ends.busy]
  simp only [or_false]

/-! ### The end of a pending registration -/

/-- An active registration that retires touches no bytes and no pending registration. -/
theorem stays_retireRegistration (s : Server) (label : String) (i : Nat) (reason : RetireReason)
    (timeout : ℚ) :
    (s.retireRegistration label i reason timeout).accountBuffered = s.accountBuffered ∧
      (s.retireRegistration label i reason timeout).pendingAgents = s.pendingAgents := by
  have looked : ∀ (t : Server) accountId,
      (t.dropAccountBandwidthIfIdle accountId).accountBuffered = t.accountBuffered ∧
        (t.dropAccountBandwidthIfIdle accountId).pendingAgents = t.pendingAgents := by
    intro t accountId
    unfold dropAccountBandwidthIfIdle
    split <;> exact ⟨rfl, rfl⟩
  have removed : ∀ t : Server, (t.deregisterIfCurrent label i).accountBuffered = t.accountBuffered ∧
      (t.deregisterIfCurrent label i).pendingAgents = t.pendingAgents := by
    intro t
    unfold deregisterIfCurrent
    split
    · split
      · exact looked _ _
      · exact ⟨rfl, rfl⟩
    · exact ⟨rfl, rfl⟩
  unfold retireRegistration
  split
  · cases reason <;> exact removed (s.modifyRegistration i disable)
  · exact ⟨rfl, rfl⟩

theorem stays_retireAll (timeout : ℚ) (candidates : List (String × Nat)) (s : Server) :
    (candidates.foldl (fun s e => s.retireRegistration e.1 e.2 .leaseRevoked timeout) s).accountBuffered =
        s.accountBuffered ∧
      (candidates.foldl (fun s e => s.retireRegistration e.1 e.2 .leaseRevoked timeout) s).pendingAgents =
        s.pendingAgents := by
  induction candidates generalizing s with
  | nil => exact ⟨rfl, rfl⟩
  | cons e rest ih =>
    obtain ⟨buffered, pending⟩ := stays_retireRegistration s e.1 e.2 .leaseRevoked timeout
    obtain ⟨buffered', pending'⟩ := ih (s.retireRegistration e.1 e.2 .leaseRevoked timeout)
    exact ⟨buffered'.trans buffered, pending'.trans pending⟩

/-- What a pending registration leaves behind when it is dropped: everything but its place. -/
theorem kept_dropPendingIfCurrent (s : Server) (label : String) (i : Nat) :
    (s.dropPendingIfCurrent label i).accountBuffered = s.accountBuffered ∧
      (s.dropPendingIfCurrent label i).agents = s.agents ∧
      (s.dropPendingIfCurrent label i).accountBudgetOverrides = s.accountBudgetOverrides ∧
      (s.dropPendingIfCurrent label i).accountBandwidth = s.accountBandwidth := by
  unfold dropPendingIfCurrent
  split
  · split <;> exact ⟨rfl, rfl, rfl, rfl⟩
  · exact ⟨rfl, rfl, rfl, rfl⟩

theorem kept_retirePending (s : Server) (revoked : Nat) (candidates : List (String × Nat)) :
    (s.retirePending revoked candidates).2.accountBuffered = s.accountBuffered ∧
      (s.retirePending revoked candidates).2.agents = s.agents ∧
      (s.retirePending revoked candidates).2.accountBudgetOverrides = s.accountBudgetOverrides ∧
      (s.retirePending revoked candidates).2.accountBandwidth = s.accountBandwidth := by
  induction candidates generalizing s revoked with
  | nil => exact ⟨rfl, rfl, rfl, rfl⟩
  | cons e rest ih =>
    obtain ⟨label, i⟩ := e
    obtain ⟨buffered, agents, overrides, bandwidth⟩ :
        (s.retirePendingRegistration label i).2.accountBuffered = s.accountBuffered ∧
          (s.retirePendingRegistration label i).2.agents = s.agents ∧
          (s.retirePendingRegistration label i).2.accountBudgetOverrides = s.accountBudgetOverrides ∧
          (s.retirePendingRegistration label i).2.accountBandwidth = s.accountBandwidth := by
      unfold retirePendingRegistration
      split
      · exact kept_dropPendingIfCurrent (s.modifyRegistration i disable) label i
      · exact ⟨rfl, rfl, rfl, rfl⟩
    rw [retirePending.eq_def]
    cases ended : s.retirePendingRegistration label i with
    | mk dropped t =>
      rw [ended] at buffered agents overrides bandwidth
      simp only [ended]
      cases dropped with
      | true =>
        obtain ⟨buffered', agents', overrides', bandwidth'⟩ := ih t (revoked + 1)
        exact ⟨buffered'.trans buffered, agents'.trans agents, overrides'.trans overrides,
          bandwidth'.trans bandwidth⟩
      | false =>
        obtain ⟨buffered', agents', overrides', bandwidth'⟩ := ih t revoked
        exact ⟨buffered'.trans buffered, agents'.trans agents, overrides'.trans overrides,
          bandwidth'.trans bandwidth⟩

/-- A connection that is dropped while it is pending ends its registration. -/
theorem Coherent.ends_drop (coherent : s.Coherent) {label : String}
    (holds : s.pendingAgents.lookup label = some i) :
    Ends s (· = i) (s.dropPendingIfCurrent label i) := by
  have follows := follows_dropPendingIfCurrent coherent label i
  obtain ⟨buffered, agents, -, -⟩ := kept_dropPendingIfCurrent s label i
  obtain ⟨reg, found, -⟩ := coherent.pending holds
  have pending : (s.dropPendingIfCurrent label i).pendingAgents = s.pendingAgents.erase label := by
    unfold dropPendingIfCurrent
    simp only [holds, found, if_true]
  have slots := slots_dropPendingIfCurrent s label i
  refine ⟨follows.coherent, ?_, fun j => ?_, ?_, buffered⟩
  · obtain ⟨ms, runs, all⟩ := follows.runs
    exact (runs.shrinks fun m member => ⟨i, label, Or.inr (all m member)⟩).entries
  · unfold Held
    rw [agents, pending]
    constructor
    · rintro ⟨other, serves | held⟩
      · refine ⟨⟨other, Or.inl serves⟩, ?_⟩
        rintro rfl
        exact coherent.indexed.onePlace other label j serves holds
      · by_cases same : other = label
        · subst same
          simp at held
        · rw [AList.lookup_erase_ne same] at held
          refine ⟨⟨other, Or.inr held⟩, ?_⟩
          rintro rfl
          exact same (coherent.indexed.oneLabel other label j (Or.inr ⟨held, holds⟩))
    · rintro ⟨⟨other, serves | held⟩, apart⟩
      · exact ⟨other, Or.inl serves⟩
      · have different : other ≠ label := by
          rintro rfl
          rw [holds] at held
          exact apart (Option.some.inj held).symm
        exact ⟨other, Or.inr ((AList.lookup_erase_ne different).trans held)⟩
  · funext account
    exact streams_congr slots account

/-! ### A revocation -/

/-- What is kept for one account: its override and its byte schedule. -/
def kept (s : Server) (accountId : String) : Option Budget × Option ℚ :=
  (s.accountBudgetOverrides.lookup accountId, s.accountBandwidth.lookup accountId)

theorem remembers_congr (same : s'.kept accountId = s.kept accountId) :
    s'.Remembers accountId ↔ s.Remembers accountId := by
  have override : s'.accountBudgetOverrides.lookup accountId =
      s.accountBudgetOverrides.lookup accountId := congrArg Prod.fst same
  have schedule : s'.accountBandwidth.lookup accountId = s.accountBandwidth.lookup accountId :=
    congrArg Prod.snd same
  unfold Remembers
  rw [← AList.lookup_isSome, ← AList.lookup_isSome, ← AList.lookup_isSome, ← AList.lookup_isSome,
    override, schedule]

/-- A look at an account forgets nothing of another one, nor of one that has work. -/
theorem kept_dropAccountBandwidthIfIdle {other : String}
    (spared : accountId ≠ other ∨ s.accountHasLocalWork accountId = true) :
    (s.dropAccountBandwidthIfIdle other).kept accountId = s.kept accountId := by
  unfold dropAccountBandwidthIfIdle
  split
  · rfl
  next idle =>
    rcases spared with apart | busy
    · exact Prod.ext (AList.lookup_erase_ne apart) (AList.lookup_erase_ne apart)
    · have different : accountId ≠ other := by
        rintro rfl
        exact idle busy
      exact Prod.ext (AList.lookup_erase_ne different) (AList.lookup_erase_ne different)

theorem retire_like_deregister (accountId : String) {label : String} (serves : s.agents.lookup label = some i)
    (reason : RetireReason) (timeout : ℚ) :
    (s.retireRegistration label i reason timeout).kept accountId =
        (s.deregisterIfCurrent label i).kept accountId ∧
      (s.retireRegistration label i reason timeout).accountHasLocalWork accountId =
        (s.deregisterIfCurrent label i).accountHasLocalWork accountId := by
  have moved := deregisterIfCurrent_disable s label i
  have kept : ((s.modifyRegistration i disable).deregisterIfCurrent label i).kept accountId =
      (s.deregisterIfCurrent label i).kept accountId := by
    rw [moved]
    rfl
  have work : ((s.modifyRegistration i disable).deregisterIfCurrent label i).accountHasLocalWork
      accountId = (s.deregisterIfCurrent label i).accountHasLocalWork accountId := by
    rw [moved]
    exact (sameWork_disable _ i).eq accountId
  unfold retireRegistration
  rw [if_pos serves]
  cases reason <;> exact ⟨kept, work⟩

theorem kept_retireRegistration (label : String) (reason : RetireReason) (timeout : ℚ)
    (spared : (∀ reg, s.agents.lookup label = some i → s.registration? i = some reg →
        reg.accountId ≠ accountId) ∨
      (s.retireRegistration label i reason timeout).accountHasLocalWork accountId = true) :
    (s.retireRegistration label i reason timeout).kept accountId = s.kept accountId := by
  by_cases serves : s.agents.lookup label = some i
  · obtain ⟨kept, work⟩ := retire_like_deregister accountId serves reason timeout
    rw [kept]
    rw [work] at spared
    unfold deregisterIfCurrent at spared ⊢
    split
    next current reg serves' found =>
      rw [serves] at serves'
      cases serves'
      simp only [serves, found, if_true] at spared ⊢
      refine kept_dropAccountBandwidthIfIdle ?_
      rcases spared with apart | busy
      · exact Or.inl (apart reg trivial rfl).symm
      · exact Or.inr (((sameWork_dropAccountBandwidthIfIdle _ reg.accountId).eq accountId).symm.trans busy)
    · rfl
  · unfold retireRegistration
    rw [if_neg serves]

/-- The loop over the active registrations of a lease forgets nothing of an account that has
work after it, or had none before it. -/
theorem kept_retireAll (timeout : ℚ) (candidates : List (String × Nat)) (accountId : String)
    (coherent : s.Coherent)
    (spared : s.accountHasLocalWork accountId = false ∨ (candidates.foldl
      (fun s e => s.retireRegistration e.1 e.2 .leaseRevoked timeout) s).accountHasLocalWork
        accountId = true) :
    (candidates.foldl (fun s e => s.retireRegistration e.1 e.2 .leaseRevoked timeout) s).kept
      accountId = s.kept accountId := by
  induction candidates generalizing s with
  | nil => rfl
  | cons e rest ih =>
    have first := follows_retireRegistration coherent e.1 e.2 .leaseRevoked timeout
    have sheds := clears_retireRegistration s e.1 e.2 .leaseRevoked timeout
    rcases spared with idle | busy
    · have still : (s.retireRegistration e.1 e.2 .leaseRevoked timeout).accountHasLocalWork accountId =
          false := by
        by_contra busy
        rw [sheds.work accountId (by simpa using busy)] at idle
        cases idle
      refine (ih first.coherent (Or.inl still)).trans (kept_retireRegistration _ _ _ (Or.inl ?_))
      -- an account without work has no label
      rintro reg serves found rfl
      have account := (coherent.linked e.2 reg found).1
      have busy := coherent.busy_iff.mpr (Or.inr (Or.inr ⟨e.2, ⟨e.1, Or.inl serves⟩, account, id⟩))
      rw [busy] at idle
      cases idle
    · have later := clears_foldl (fun t (e : String × Nat) =>
        clears_retireRegistration t e.1 e.2 .leaseRevoked timeout) rest
        (s.retireRegistration e.1 e.2 .leaseRevoked timeout)
      exact (ih first.coherent (Or.inr busy)).trans
        (kept_retireRegistration _ _ _ (Or.inr (later.work accountId busy)))

/-- The account is pending under the lease. -/
def PendingUnder (s : Server) (accountId leaseId : String) : Prop :=
  ∃ label i, s.pendingAgents.lookup label = some i ∧ s.roster.account i = some accountId ∧
    s.roster.lease i = some leaseId

/-- What a revocation does: it ends the registrations of its lease, and what it keeps of an
account is what it kept before, unless it was an active registration that it found to be the last
work. -/
structure Revoked (s : Server) (leaseId : String) (s' : Server) : Prop extends
    Ends s (fun i => s.roster.lease i = some leaseId) s' where
  pending : ∀ label i, s'.pendingAgents.lookup label = some i ↔
    s.pendingAgents.lookup label = some i ∧ s.roster.lease i ≠ some leaseId
  same : ∀ accountId, s.accountHasLocalWork accountId = false ∨ s.PendingUnder accountId leaseId ∨
    s'.accountHasLocalWork accountId = true → s'.kept accountId = s.kept accountId
  tidy : ∀ accountId, ¬ s.PendingUnder accountId leaseId → s.ScopedTo accountId →
    s'.ScopedTo accountId

/-- Between the two loops of a revocation: the active registrations of the lease have gone, the
pending ones have not. -/
structure Halfway (s : Server) (leaseId : String) (t : Server) : Prop where
  coherent : t.Coherent
  entries : t.roster.entries = s.roster.entries
  agents : ∀ label i, t.agents.lookup label = some i → s.agents.lookup label = some i
  ended : ∀ label i, t.agents.lookup label = some i → s.roster.lease i ≠ some leaseId
  pending : t.pendingAgents = s.pendingAgents
  streams : t.accountActiveStreams = s.accountActiveStreams
  buffered : t.accountBuffered = s.accountBuffered
  kept : ∀ accountId, s.accountHasLocalWork accountId = false ∨ t.accountHasLocalWork accountId = true →
    t.kept accountId = s.kept accountId
  tidy : Tidy s t

theorem Coherent.halves (coherent : s.Coherent) {leaseId : String} (named : leaseId ≠ "")
    (action : RevocationAction) : ∃ t revoked candidates,
      (s.revokeLease leaseId action).2 = (t.retirePending revoked candidates).2 ∧
        Halfway s leaseId t := by
  obtain ⟨unchanged, candidates⟩ := coherent.registrationsForLease leaseId
  obtain ⟨first, ended⟩ := follows_retireAll s (RevocationAction.drainTimeout action)
    (fun e member => ((candidates e.1 e.2).mp member).2) coherent
  have slots := slots_foldl (fun t (e : String × Nat) => slots_retireRegistration t e.1 e.2
    .leaseRevoked (RevocationAction.drainTimeout action))
    (s.registrationsForLeaseIndex leaseId s.leaseLabels s.agents).1 s
  obtain ⟨buffered, pending⟩ := stays_retireAll (RevocationAction.drainTimeout action)
    (s.registrationsForLeaseIndex leaseId s.leaseLabels s.agents).1 s
  have kept : ∀ accountId, _ := fun accountId => kept_retireAll (RevocationAction.drainTimeout action)
    (s.registrationsForLeaseIndex leaseId s.leaseLabels s.agents).1 accountId coherent
  have tidy := tidy_foldl (fun t (e : String × Nat) => tidy_retireRegistration t e.1 e.2
    .leaseRevoked (RevocationAction.drainTimeout action))
    (s.registrationsForLeaseIndex leaseId s.leaseLabels s.agents).1 s
  unfold revokeLease
  rw [if_neg named]
  simp only [unchanged]
  generalize List.foldl _ s _ = t at first ended slots buffered pending kept tidy ⊢
  obtain ⟨unchanged', -⟩ := first.coherent.pendingRegistrationsForLease leaseId
  refine ⟨t, _, _, by rw [unchanged'], first.coherent, first.shrinks.entries, first.shrinks.agents,
    fun label i serves owner => ?_, pending, ?_, buffered, kept, tidy⟩
  · exact ended (label, i) ((candidates label i).mpr ⟨first.shrinks.agents label i serves, owner⟩)
      serves
  · funext accountId
    exact streams_congr slots accountId

theorem Coherent.revoked (coherent : s.Coherent) {leaseId : String} (named : leaseId ≠ "")
    (action : RevocationAction) : Revoked s leaseId (s.revokeLease leaseId action).2 := by
  obtain ⟨follows, without⟩ := follows_revokeLease coherent leaseId action
  have slots := slots_revokeLease s leaseId action
  have shrinks := follows.shrinks
  have lease : ∀ j, (s.revokeLease leaseId action).2.roster.lease j = s.roster.lease j := fun j => by
    rw [Roster.lease, Roster.lease, shrinks.entries]
  -- the moves of a revocation end registrations of its lease only
  have survives : ∀ label i, s.roster.lease i ≠ some leaseId →
      (s.agents.lookup label = some i →
        (s.revokeLease leaseId action).2.agents.lookup label = some i) ∧
      (s.pendingAgents.lookup label = some i →
        (s.revokeLease leaseId action).2.pendingAgents.lookup label = some i) := by
    intro label i other
    obtain ⟨ms, runs, all⟩ := follows.runs
    have apart : ∀ m ∈ ms, m ≠ .remove i label ∧ m ≠ .drop i label ∧ ∀ j, m ≠ .install j label := by
      intro m member
      obtain ⟨k, label', lease', ends, owner, inside⟩ := all m member
      rw [List.mem_singleton] at inside
      subst inside
      rcases ends with rfl | rfl
      · refine ⟨?_, by simp, by simp⟩
        rintro ⟨⟩
        exact other owner
      · refine ⟨by simp, ?_, by simp⟩
        rintro ⟨⟩
        exact other owner
    refine ⟨fun serves => ?_, fun holds => ?_⟩
    · exact runs.agents_eq (fun m member => ⟨(apart m member).1, (apart m member).2.2⟩) serves
    · exact runs.pending_eq (fun m member => ⟨(apart m member).2.1, (apart m member).2.2 i⟩) holds
  have ended : ∀ label i, (s.revokeLease leaseId action).2.agents.lookup label = some i ∨
      (s.revokeLease leaseId action).2.pendingAgents.lookup label = some i →
      s.roster.lease i ≠ some leaseId := by
    rintro label i (serves | holds) owner
    · exact (without named label).1 (Option.bind_eq_some_iff.mpr ⟨i, serves, (lease i).trans owner⟩)
    · exact (without named label).2 (Option.bind_eq_some_iff.mpr ⟨i, holds, (lease i).trans owner⟩)
  obtain ⟨t, revoked, candidates, result, halfway⟩ := coherent.halves named action
  obtain ⟨buffered, -, overrides, bandwidth⟩ := kept_retirePending t revoked candidates
  rw [← result] at buffered overrides bandwidth
  have second : ∀ accountId, (s.revokeLease leaseId action).2.kept accountId = t.kept accountId :=
    fun accountId => by rw [kept, kept, overrides, bandwidth]
  have ends : Ends s (fun i => s.roster.lease i = some leaseId) (s.revokeLease leaseId action).2 := by
    refine ⟨follows.coherent, shrinks.entries, fun i => ⟨?_, ?_⟩, ?_, buffered.trans halfway.buffered⟩
    · rintro ⟨label, serves | holds⟩
      · exact ⟨⟨label, Or.inl (shrinks.agents label i serves)⟩, ended label i (Or.inl serves)⟩
      · exact ⟨⟨label, Or.inr (shrinks.pending label i holds)⟩, ended label i (Or.inr holds)⟩
    · rintro ⟨⟨label, serves | holds⟩, other⟩
      · exact ⟨label, Or.inl ((survives label i other).1 serves)⟩
      · exact ⟨label, Or.inr ((survives label i other).2 holds)⟩
    · funext accountId
      exact streams_congr slots accountId
  refine ⟨ends, fun label i => ⟨fun holds => ?_, fun holds => ?_⟩, fun accountId spared => ?_, ?_⟩
  · exact ⟨shrinks.pending label i holds, ended label i (Or.inr holds)⟩
  · exact (survives label i holds.2).2 holds.1
  · refine (second accountId).trans (halfway.kept accountId ?_)
    rcases spared with idle | ⟨label, i, holds, account, -⟩ | busy
    · exact Or.inl idle
    · -- what is pending under the lease is work still while the active registrations go
      refine Or.inr (halfway.coherent.busy_iff.mpr (Or.inr (Or.inr ⟨i, ⟨label, Or.inr ?_⟩, ?_, id⟩)))
      · rw [halfway.pending]
        exact holds
      · rw [Roster.account, halfway.entries]
        exact account
    · refine Or.inr ?_
      have sheds := clears_retirePending t revoked candidates
      rw [← result] at sheds
      exact sheds.work accountId busy
  · intro accountId unpending within remembered
    rw [remembers_congr (second accountId)] at remembered
    have busy := halfway.coherent.busy_iff.mp (halfway.tidy accountId within remembered)
    rw [ends.work]
    rcases busy with visited | bytes | ⟨i, ⟨label, serves | holds⟩, account, -⟩
    · refine Or.inl ?_
      rw [← halfway.streams]
      exact visited
    · refine Or.inr (Or.inl ?_)
      rw [← halfway.buffered]
      exact bytes
    · rw [Roster.account, halfway.entries] at account
      exact Or.inr (Or.inr ⟨i, ⟨label, Or.inl (halfway.agents label i serves)⟩, account,
        halfway.ended label i serves⟩)
    · rw [Roster.account, halfway.entries] at account
      rw [halfway.pending] at holds
      exact Or.inr (Or.inr ⟨i, ⟨label, Or.inr holds⟩, account,
        fun owner => unpending ⟨label, i, holds, account, owner⟩⟩)

/-! ### The revocations of an update -/

/-- The registration has one of these leases. -/
def Leased (s : Server) (leases : List String) (i : Nat) : Prop :=
  ∃ leaseId ∈ leases, s.roster.lease i = some leaseId

/-- The revocation of these leases, in this order, ends the last work of the account, and with the
one that does a pending registration goes. -/
def EndsPending (s : Server) (accountId : String) (leases : List String) : Prop :=
  ∃ early leaseId late, leases = early ++ leaseId :: late ∧
    s.BusyBesides accountId (s.Leased early) ∧
    ¬ s.BusyBesides accountId (s.Leased (early ++ [leaseId])) ∧ s.PendingUnder accountId leaseId

theorem leased_cons {leaseId : String} {leases : List String} :
    s.Leased (leaseId :: leases) i ↔ s.roster.lease i = some leaseId ∨ s.Leased leases i := by
  simp [Leased]

theorem busyBesides_nil : s.BusyBesides accountId (s.Leased []) ↔ s.BusyBesides accountId fun _ => False := by
  simp [BusyBesides, Leased]

theorem Revoked.leased {leaseId : String} (revoked : Revoked s leaseId s') (leases : List String) :
    s'.BusyBesides accountId (s'.Leased leases) ↔
      s.BusyBesides accountId (s.Leased (leaseId :: leases)) := by
  rw [revoked.toEnds.busy]
  have same : ∀ i, (s.roster.lease i = some leaseId ∨ s'.Leased leases i) ↔
      s.Leased (leaseId :: leases) i := fun i => by
    rw [leased_cons]
    refine or_congr_right ?_
    unfold Leased
    simp only [revoked.toEnds.lease]
  simp only [same]

theorem Revoked.pendingUnder {leaseId other : String} (revoked : Revoked s leaseId s') :
    s'.PendingUnder accountId other ↔ s.PendingUnder accountId other ∧ other ≠ leaseId := by
  unfold PendingUnder
  simp only [revoked.pending, revoked.toEnds.account, revoked.toEnds.lease]
  constructor
  · rintro ⟨label, i, ⟨holds, apart⟩, account, owner⟩
    refine ⟨⟨label, i, holds, account, owner⟩, ?_⟩
    rintro rfl
    exact apart owner
  · rintro ⟨⟨label, i, holds, account, owner⟩, different⟩
    refine ⟨label, i, ⟨holds, fun same => ?_⟩, account, owner⟩
    rw [owner] at same
    exact different (Option.some.inj same)

/-- The first revocation ends the last work, or a later one does. -/
theorem Revoked.endsPending {leaseId : String} {leases : List String}
    (revoked : Revoked s leaseId s') :
    s.EndsPending accountId (leaseId :: leases) ↔
      (s.BusyBesides accountId (fun _ => False) ∧
          ¬ s.BusyBesides accountId (s.Leased [leaseId]) ∧ s.PendingUnder accountId leaseId) ∨
        s'.EndsPending accountId leases := by
  constructor
  · rintro ⟨early, last, late, split, busy, idle, pending⟩
    cases early with
    | nil =>
      cases split
      exact Or.inl ⟨busyBesides_nil.mp busy, idle, pending⟩
    | cons first early =>
      cases split
      refine Or.inr ⟨early, last, late, rfl, (revoked.leased early).mpr busy, ?_, ?_⟩
      · rw [revoked.leased]
        exact idle
      · refine revoked.pendingUnder.mpr ⟨pending, ?_⟩
        rintro rfl
        -- a lease that is revoked twice ends nothing the second time
        refine idle (busy.mono fun i leased => ?_)
        obtain ⟨leaseId, member, owner⟩ := leased
        rcases List.mem_append.mp member with before | again
        · exact ⟨leaseId, before, owner⟩
        · rw [List.mem_singleton] at again
          exact ⟨last, by simp, again ▸ owner⟩
  · rintro (⟨busy, idle, pending⟩ | ⟨early, last, late, split, busy, idle, pending⟩)
    · exact ⟨[], leaseId, leases, rfl, busyBesides_nil.mpr busy, idle, pending⟩
    · refine ⟨leaseId :: early, last, late, by rw [split]; rfl, (revoked.leased early).mp busy, ?_,
        (revoked.pendingUnder.mp pending).1⟩
      exact fun again => idle ((revoked.leased (early ++ [last])).mpr again)

/-- An account without work stays so, and what is kept of it stays. -/
theorem idle_revocations (coherent : s.Coherent) {revocations : List (String × RevocationAction)}
    (named : ∀ r ∈ revocations, r.1 ≠ "") (idle : s.accountHasLocalWork accountId = false) :
    (revocations.foldl (fun s r => (s.revokeLease r.1 r.2).2) s).accountHasLocalWork accountId =
        false ∧
      (revocations.foldl (fun s r => (s.revokeLease r.1 r.2).2) s).kept accountId =
        s.kept accountId := by
  induction revocations generalizing s with
  | nil => exact ⟨idle, rfl⟩
  | cons r rest ih =>
    have revoked := coherent.revoked (named r List.mem_cons_self) r.2
    have still : (s.revokeLease r.1 r.2).2.accountHasLocalWork accountId = false := by
      by_contra busy
      rw [(clears_revokeLease s r.1 r.2).work accountId (by simpa using busy)] at idle
      cases idle
    obtain ⟨later, same⟩ := ih revoked.toEnds.coherent (fun r member => named r (by simp [member])) still
    exact ⟨later, same.trans (revoked.same accountId (Or.inl idle))⟩

/-- After the revocations an account is in scope, unless the last of its work was pending: then
everything is kept of it, for nothing. -/
theorem scope_revocations (coherent : s.Coherent) {revocations : List (String × RevocationAction)}
    (named : ∀ r ∈ revocations, r.1 ≠ "") (within : s.ScopedTo accountId) :
    (s.EndsPending accountId (revocations.map Prod.fst) →
      (revocations.foldl (fun s r => (s.revokeLease r.1 r.2).2) s).accountHasLocalWork accountId =
          false ∧
        (revocations.foldl (fun s r => (s.revokeLease r.1 r.2).2) s).kept accountId =
          s.kept accountId) ∧
    (¬ s.EndsPending accountId (revocations.map Prod.fst) →
      (revocations.foldl (fun s r => (s.revokeLease r.1 r.2).2) s).ScopedTo accountId) := by
  induction revocations generalizing s with
  | nil =>
    refine ⟨?_, fun _ => within⟩
    rintro ⟨early, leaseId, late, split, -⟩
    cases early <;> cases split
  | cons r rest ih =>
    have revoked := coherent.revoked (named r List.mem_cons_self) r.2
    have coherent' := revoked.toEnds.coherent
    have later := fun within' => ih coherent' (fun r member => named r (by simp [member])) within'
    have work : (s.revokeLease r.1 r.2).2.accountHasLocalWork accountId = true ↔
        s.BusyBesides accountId (s.Leased [r.1]) := by
      have one : s.Leased [r.1] = fun i => s.roster.lease i = some r.1 :=
        funext fun i => by simp [Leased]
      rw [revoked.toEnds.work, one]
    have named' : ∀ r ∈ rest, r.1 ≠ "" := fun r member => named r (List.mem_cons_of_mem _ member)
    rw [List.map_cons, revoked.endsPending]
    refine ⟨?_, fun spared => ?_⟩
    · rintro (⟨busy, idle, pending⟩ | ending)
      · have gone : (s.revokeLease r.1 r.2).2.accountHasLocalWork accountId = false :=
          (Bool.not_eq_true _).mp fun busy => idle (work.mp busy)
        obtain ⟨stays, same⟩ := idle_revocations coherent' named' gone
        exact ⟨stays, same.trans (revoked.same accountId (Or.inr (Or.inl pending)))⟩
      · have busy : (s.revokeLease r.1 r.2).2.accountHasLocalWork accountId = true := by
          obtain ⟨early, leaseId, late, -, before, -⟩ := ending
          exact coherent'.busy_iff.mpr (before.mono nofun)
        obtain ⟨idle, same⟩ := (later fun _ => busy).1 ending
        exact ⟨idle, same.trans (revoked.same accountId (Or.inr (Or.inr busy)))⟩
    · rw [not_or] at spared
      refine (later ?_).2 spared.2
      by_cases pending : s.PendingUnder accountId r.1
      · -- it had the pending work, so it has other work, or this revocation would be the one
        intro _
        rw [work]
        by_contra idle
        obtain ⟨label, i, holds, account, owner⟩ := pending
        exact spared.1 ⟨Or.inr (Or.inr ⟨i, ⟨label, Or.inr holds⟩, account, id⟩), idle,
          label, i, holds, account, owner⟩
      · exact revoked.tidy accountId pending within

/-! ### The budgets of an update -/

theorem bandwidth_setAccountBudget (s : Server) (accountId : String) (budget : Budget) :
    (s.setAccountBudget accountId budget).accountBandwidth = s.accountBandwidth := by
  have each : ∀ (labels : List String) (t : Server),
      (labels.foldl (rebudget budget) t).accountBandwidth = t.accountBandwidth := by
    intro labels
    induction labels with
    | nil => exact fun _ => rfl
    | cons label rest ih =>
      intro t
      refine (ih _).trans ?_
      unfold rebudget
      split <;> rfl
  unfold setAccountBudget
  split
  · exact (each _ _).trans rfl
  · rfl

theorem tidy_setAccountBudget (s : Server) (accountId : String) (budget : Budget) :
    Tidy s (s.setAccountBudget accountId budget) := by
  obtain ⟨same, -, -, others⟩ := setAccountBudget_overrides s accountId budget
  have bandwidth := bandwidth_setAccountBudget s accountId budget
  intro other within remembered
  rw [same.eq]
  by_cases here : other = accountId
  · subst here
    by_contra idle
    rcases remembered with override | schedule
    · rw [setAccountBudget, if_neg idle] at override
      exact (AList.mem_erase.mp override).1 rfl
    · rw [bandwidth] at schedule
      exact idle (within (Or.inr schedule))
  · refine within (remembered.imp (fun override => ?_) fun schedule => ?_)
    · rw [← AList.lookup_isSome, others other here] at override
      exact AList.lookup_isSome.mp override
    · rw [bandwidth] at schedule
      exact schedule

/-- The budgets of an update forget the overrides of the accounts that they find without work, and
nothing else of them. -/
theorem idle_budgets (budgets : List (String × Budget)) (idle : s.accountHasLocalWork accountId = false) :
    (budgets.foldl (fun s b => s.setAccountBudget b.1 b.2) s).accountHasLocalWork accountId = false ∧
      ((budgets.foldl (fun s b => s.setAccountBudget b.1 b.2) s).Remembers accountId ↔
        accountId ∈ s.accountBudgetOverrides ∧ accountId ∉ budgets.map Prod.fst ∨
          accountId ∈ s.accountBandwidth) := by
  induction budgets generalizing s with
  | nil => exact ⟨idle, by simp [Remembers]⟩
  | cons b rest ih =>
    obtain ⟨same, -, -, others⟩ := setAccountBudget_overrides s b.1 b.2
    obtain ⟨later, remembers⟩ := ih ((same.eq accountId).trans idle)
    refine ⟨later, remembers.trans ?_⟩
    rw [bandwidth_setAccountBudget, List.map_cons, List.mem_cons, not_or, ← and_assoc]
    refine or_congr_left (and_congr_left fun _ => ?_)
    by_cases here : accountId = b.1
    · rw [here] at idle ⊢
      rw [setAccountBudget, if_neg (by simp [idle])]
      simp
    · rw [← AList.lookup_isSome, others accountId here, AList.lookup_isSome]
      simp [here]

/-! ### Claims and installs -/

theorem held_iff_owned :
    (∃ i, s.Held i ∧ s.roster.account i = some accountId) ↔ ∃ label, label ∈ s.roster.owned accountId := by
  constructor
  · rintro ⟨i, ⟨label, serves | holds⟩, account⟩
    · exact ⟨label, Roster.mem_owned.mpr (Or.inl (Option.bind_eq_some_iff.mpr ⟨i, serves, account⟩))⟩
    · exact ⟨label, Roster.mem_owned.mpr (Or.inr (Option.bind_eq_some_iff.mpr ⟨i, holds, account⟩))⟩
  · rintro ⟨label, owned⟩
    rcases Roster.mem_owned.mp owned with active | pending
    · obtain ⟨i, serves, account⟩ := Option.bind_eq_some_iff.mp active
      exact ⟨i, ⟨label, Or.inl serves⟩, account⟩
    · obtain ⟨i, holds, account⟩ := Option.bind_eq_some_iff.mp pending
      exact ⟨i, ⟨label, Or.inr holds⟩, account⟩

/-- A claim keeps what the relay keeps and takes no work away. -/
theorem tidy_claim (coherent : s.Coherent) {c : Connection} (found : s.connections[i]? = some c)
    (waiting : c.phase = .admitted) (phrases : Fin 100 → String) : Tidy s (s.claim i c phrases) := by
  have same : (s.claim i c phrases).accountBudgetOverrides = s.accountBudgetOverrides ∧
      (s.claim i c phrases).accountBandwidth = s.accountBandwidth ∧
      (s.claim i c phrases).accountBuffered = s.accountBuffered := by
    obtain ⟨reconnects, ⟨r, -, same⟩ | ⟨label, url, -, same⟩⟩ := claim_cases s i c phrases
    · rw [same]
      exact ⟨rfl, rfl, rfl⟩
    · rw [same]
      exact ⟨rfl, rfl, rfl⟩
  have follows := follows_claim coherent found waiting phrases
  have slots := slots_claim s i c phrases
  refine .of_busy same.1 same.2.1 fun accountId busy => ?_
  rw [follows.coherent.busy_iff, BusyBesides, streams_congr slots, same.2.2]
  rcases coherent.busy_iff.mp busy with visited | buffered | ⟨j, held, account, -⟩
  · exact Or.inl visited
  · exact Or.inr (Or.inl buffered)
  · obtain ⟨label, owned⟩ := held_iff_owned.mp ⟨j, held, account⟩
    obtain ⟨ms, runs, all⟩ := follows.runs
    obtain ⟨k, held', account'⟩ := held_iff_owned.mpr
      ⟨label, runs.owned_of_decides coherent.sound (fun m member => all m member) owned⟩
    exact Or.inr (Or.inr ⟨k, held', account', id⟩)

theorem mem_add {index : ReverseIndex String String} {k k' label : String}
    (member : k' = k ∨ k' ∈ index) : k' ∈ index.add k label := by
  unfold ReverseIndex.add
  exact (AList.mem_insert _).mpr member

/-- An install turns pending work into active work. -/
theorem Coherent.tidy_install (coherent : s.Coherent) {c : Connection}
    (found : s.connections[i]? = some c) (opened : Bool) : Tidy s (s.install i c opened) := by
  cases ready : s.isPending i c with
  | false =>
    unfold install
    split
    · exact .refl s
    · simp only [ready, Bool.false_eq_true, if_false]
      exact .of_same rfl rfl ⟨sameAccounts_modifyConnection fun _ _ => rfl, rfl, rfl, rfl, rfl⟩
  | true =>
    have pending : s.pendingAgents.lookup c.label = some i := by simpa [isPending] using ready
    obtain ⟨reg, registered, -, -, apart, agree⟩ := coherent.installable found pending
    have known : s.registration? i = some reg := by simp [registration?, found, registered]
    obtain ⟨closes, result⟩ := install_eq opened found registered pending apart agree
    have accounts : SameAccounts s (s.modifyConnection i (Connection.installed opened)) :=
      sameAccounts_modifyConnection fun c _ => by cases h : c.registration <;> simp [Connection.installed, h]
    rw [result]
    refine .of_busy rfl rfl fun other busy => ?_
    by_cases mine : other = reg.accountId
    · rw [accountHasLocalWork_iff]
      exact Or.inl (mem_add (Or.inl mine))
    · refine busy_of_more (s := s) (fun member => mem_add (Or.inr member)) id id ?_ busy
      rintro label ⟨j, old, holds, there, account⟩
      have different : label ≠ c.label := by
        rintro rfl
        rw [pending] at holds
        cases holds
        rw [known] at there
        cases there
        exact mine account.symm
      have same := accounts j
      rw [there] at same
      obtain ⟨new, there', equal⟩ := Option.map_eq_some_iff.mp same
      exact ⟨j, new, (AList.lookup_erase_ne different).trans holds, there', equal.trans account⟩

theorem tidy_setPhase (s : Server) (i : Nat) (phase : Phase) : Tidy s (s.setPhase i phase) :=
  .of_same rfl rfl ⟨sameAccounts_modifyConnection fun _ _ => rfl, rfl, rfl, rfl, rfl⟩

theorem tidy_setRenewal (s : Server) (i : Nat) (renewal : RenewalPhase) :
    Tidy s (s.setRenewal i renewal) :=
  .of_same rfl rfl ⟨sameAccounts_modifyConnection fun _ _ => rfl, rfl, rfl, rfl, rfl⟩

theorem tidy_renewHead (s : Server) (i : Nat) (c : Connection) (reg : TunnelRegistration) :
    Tidy s (s.renewHead i c reg) := by
  unfold renewHead
  split
  · exact tidy_setRenewal s i _
  · split
    · exact tidy_setRenewal s i _
    · split
      · exact (tidy_retireRegistration s c.label i _ _).trans (tidy_setRenewal _ i _)
      · exact tidy_setRenewal s i _

theorem tidy_renewWake (s : Server) (i : Nat) (c : Connection) (reg : TunnelRegistration) :
    Tidy s (s.renewWake i c reg) := by
  unfold renewWake
  split
  · exact tidy_setRenewal s i _
  · split
    · exact (tidy_retireRegistration s c.label i _ _).trans (tidy_setRenewal _ i _)
    · split
      · exact tidy_setRenewal s i _
      · exact tidy_setRenewal s i _

theorem tidy_renewResult {reg : TunnelRegistration} (c : Connection)
    (known : s.registration? i = some reg) (renewed : Option PyObject) :
    Tidy s (s.renewResult i c reg renewed) := by
  have counted : ∀ {t : Server}, t.accountBudgetOverrides = s.accountBudgetOverrides →
      t.accountBandwidth = s.accountBandwidth → SameWork s t → Tidy s t := .of_same
  unfold renewResult
  split
  · exact counted rfl rfl ⟨sameAccounts_modifyConnection fun _ _ => rfl, rfl, rfl, rfl, rfl⟩
  · split
    · exact tidy_setRenewal s i _
    · split
      · refine Tidy.trans ?_ (tidy_setRenewal _ i _)
        refine Tidy.trans ?_ (tidy_retireRegistration _ c.label i _ _)
        exact counted rfl rfl ⟨fun _ => rfl, rfl, rfl, rfl, rfl⟩
      · split
        · exact counted rfl rfl ⟨sameAccounts_modifyConnection fun _ _ => rfl, rfl, rfl, rfl, rfl⟩
        next expires generation valid =>
          have stored : Tidy s (s.modifyRegistration i fun _ => { reg with
              leaseExpiresAt := some expires
              leaseObservedAt := some s.now
              leaseGeneration := generation }) := by
            refine counted rfl rfl ⟨sameAccounts_modifyConnection fun c found => ?_, rfl, rfl, rfl, rfl⟩
            have registered : c.registration = some reg := by simpa [registration?, found] using known
            rw [registered]
            rfl
          simp only
          split
          · exact stored.trans ((tidy_retireRegistration _ c.label i _ _).trans (tidy_setRenewal _ i _))
          · refine (stored.trans (tidy_setRenewal _ i .head)).trans ?_
            exact .of_same rfl rfl ⟨fun _ => rfl, rfl, rfl, rfl, rfl⟩

end Server

end Chute
