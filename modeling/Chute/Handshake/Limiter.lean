import Chute.Lib.Tally
import Chute.Handshake.Port
import Chute.Server.Tasks

/-!
# The failed-auth limiter

A handshake passes the limiter before its first `await` and fails after its last one. In
between, others from its source pass, too, so the limiter bounds the failures of a minute only
together with the number of handshakes that are on their way at once.
-/
namespace Chute

def HandshakePhase.undecided : HandshakePhase → Bool
  | .acquiring | .receiving | .authAcquiring | .admitting => true
  | .serving _ | .closed _ => false

namespace Handshake

/-- The bucket the handshake is counted in. -/
def source (h : Handshake) : Option SourceBucket := ControlPort.authFailKey h.agentIp

/-- The failures of the handshake, if it is from this bucket. -/
def failuresFrom (bucket : SourceBucket) (h : Handshake) : List ℚ :=
  if h.source = some bucket then h.failures else []

/-- Past the limiter, and neither failed nor admitted. -/
def undecidedFrom (bucket : SourceBucket) (h : Handshake) : Bool :=
  decide (h.source = some bucket) && h.phase.undecided

end Handshake

namespace ControlPort

open Transition

variable {p p' : ControlPort} {bucket : SourceBucket} {k : Nat} {h : Handshake}

/-- The failures from a bucket, whatever the limiter remembers of them. -/
def failures (p : ControlPort) (bucket : SourceBucket) : List ℚ :=
  p.handshakes.flatMap (Handshake.failuresFrom bucket)

def undecided (p : ControlPort) (bucket : SourceBucket) : Nat :=
  p.handshakes.countP (Handshake.undecidedFrom bucket)

/-- The failures that the limiter remembers. -/
def remembered (p : ControlPort) (bucket : SourceBucket) : List ℚ :=
  (p.authFails.lookup bucket).getD []

/-- The cap has taken the bucket out, although it failed within the last minute. -/
def Evicted (p : ControlPort) (bucket : SourceBucket) : Prop :=
  p.authFails.lookup bucket = none ∧
    Window.recent authFailWindow p.server.monotonic (p.failures bucket) ≠ []

instance (p : ControlPort) (bucket : SourceBucket) : Decidable (p.Evicted bucket) :=
  inferInstanceAs (Decidable (_ ∧ _))

/-! ### What a step does to the limiter -/

/-- What of a port the limiter depends on. -/
structure Alike (p p' : ControlPort) : Prop where
  table : p'.authFails = p.authFails
  monotonic : p'.server.monotonic = p.server.monotonic

/-- A step passes a source on to the limiter, fails a handshake, or does neither. -/
inductive Effect (p p' : ControlPort) : Prop
  | connected (ip : Option PeerIp) (same : p' = p.connect ip)
  | failed (k : Nat) (h : Handshake) (why : HandshakeFailure) (q : ControlPort) (alike : Alike p q)
      (handshakes : q.handshakes = p.handshakes) (found : p.handshakes[k]? = some h)
      (open_ : h.phase.undecided = true) (same : p' = q.fail k h why)
  | quiet (table : p'.authFails = p.authFails)
      (forward : p.server.monotonic ≤ p'.server.monotonic)
      (failures : ∀ bucket, p'.failures bucket = p.failures bucket)
      (undecided : ∀ bucket, p'.undecided bucket ≤ p.undecided bucket)

/-- The handshake stays from the same source, with the same failures. -/
def Unfailed (f : Handshake → Handshake) : Prop :=
  ∀ h, (f h).agentIp = h.agentIp ∧ (f h).failures = h.failures

private theorem failures_modify {f : Handshake → Handshake} (unfailed : Unfailed f) (list : List Handshake) :
    (list.modify k f).flatMap (Handshake.failuresFrom bucket) =
      list.flatMap (Handshake.failuresFrom bucket) := by
  induction list generalizing k with
  | nil => cases k <;> rfl
  | cons first rest ih =>
    cases k with
    | zero =>
      have same : Handshake.failuresFrom bucket (f first) = Handshake.failuresFrom bucket first := by
        rw [Handshake.failuresFrom, Handshake.source, (unfailed first).1, (unfailed first).2]
        rfl
      rw [List.modify_zero_cons, List.flatMap_cons, List.flatMap_cons, same]
    | succ k => simp only [List.modify_succ_cons, List.flatMap_cons, ih]

/-- A handshake that goes on is undecided before. -/
private theorem undecided_modify (found : p.handshakes[k]? = some h) (open_ : h.phase.undecided = true)
    {f : Handshake → Handshake} (unfailed : Unfailed f) :
    (p.handshakes.modify k f).countP (Handshake.undecidedFrom bucket) ≤ p.undecided bucket := by
  have counts := Tally.countP_modify (Handshake.undecidedFrom bucket) f found
  have before : Handshake.undecidedFrom bucket h = decide (h.source = some bucket) := by
    rw [Handshake.undecidedFrom, open_, Bool.and_true]
  have after : Handshake.undecidedFrom bucket (f h) ≤ decide (h.source = some bucket) := by
    rw [Handshake.undecidedFrom, Handshake.source, (unfailed h).1]
    exact Bool.and_le_left _ _
  have shrinks := Bool.toNat_le_toNat after
  unfold undecided
  rw [before] at counts
  omega

private theorem Effect.goes (found : p.handshakes[k]? = some h) (open_ : h.phase.undecided = true)
    {f : Handshake → Handshake} (alike : Alike p p') (same : p'.handshakes = p.handshakes.modify k f)
    (unfailed : Unfailed f) : Effect p p' := by
  apply Effect.quiet alike.table (le_of_eq alike.monotonic.symm)
  · intro bucket
    unfold failures
    rw [same, failures_modify unfailed]
  · intro bucket
    unfold undecided
    rw [same]
    exact undecided_modify found open_ unfailed

private theorem Effect.aside (table : p'.authFails = p.authFails) (handshakes : p'.handshakes = p.handshakes)
    (forward : p.server.monotonic ≤ p'.server.monotonic) : Effect p p' := by
  apply Effect.quiet table forward
  · intro bucket
    unfold failures
    rw [handshakes]
  · intro bucket
    unfold undecided
    rw [handshakes]

/-- What a step makes the monotonic clock show. -/
def Action.reading : Action → Option ℚ
  | .server (.clock _ monotonic) => some monotonic
  | _ => none

/-- The monotonic clock does not run back. -/
def Action.Forward (p : ControlPort) (a : Action) : Prop :=
  ∀ t ∈ a.reading, p.server.monotonic ≤ t

private theorem Effect.relay {a : Server.Action} (forward : Action.Forward p (.server a))
    (moved : p.relay a = some p') : Effect p p' := by
  obtain ⟨server, stepped, moved⟩ := Option.bind_eq_some_iff.mp moved
  have ticks : p.server.monotonic ≤ server.monotonic := by
    by_cases clock : ∃ now later, a = .clock now later
    · obtain ⟨now, later, rfl⟩ := clock
      cases stepped
      exact forward later rfl
    · have still := Server.step_undisturbed stepped fun now later same => clock ⟨now, later, same⟩
      exact le_of_eq still.monotonic.symm
  simp only at moved
  split at moved
  · split at moved
    · cases moved
    · cases moved
      exact .aside rfl rfl ticks
  · cases moved
    exact .aside rfl rfl ticks
  · split at moved
    · cases moved
      exact .aside rfl rfl ticks
    · cases moved
      exact .aside rfl rfl ticks
  · cases moved
    exact .aside rfl rfl ticks

theorem step_effect {a : Action} (forward : a.Forward p) (moved : p.step a = some p') : Effect p p' := by
  cases a with
  | connect ip =>
    cases moved
    exact .connected ip rfl
  | acquired k granted =>
    obtain ⟨h, found, moved⟩ := Option.bind_eq_some_iff.mp moved
    split at moved
    next waits =>
      have open_ : h.phase.undecided = true := by rw [waits]; rfl
      split at moved
      · split at moved
        · cases moved
        · cases moved
          exact .goes found open_ ⟨rfl, rfl⟩ rfl fun _ => ⟨rfl, rfl⟩
      · cases moved
        exact .goes found open_ ⟨rfl, rfl⟩ rfl fun _ => ⟨rfl, rfl⟩
    · cases moved
  | received k message =>
    obtain ⟨h, found, moved⟩ := Option.bind_eq_some_iff.mp moved
    split at moved
    next waits =>
      have open_ : h.phase.undecided = true := by rw [waits]; rfl
      cases moved
      unfold receive
      split
      next why _ => exact .failed k h why p.releaseControl ⟨rfl, rfl⟩ rfl found open_ rfl
      · exact .goes found open_ ⟨rfl, rfl⟩ rfl fun _ => ⟨rfl, rfl⟩
    · cases moved
  | authAcquired k granted =>
    obtain ⟨h, found, moved⟩ := Option.bind_eq_some_iff.mp moved
    split at moved
    next waits =>
      have open_ : h.phase.undecided = true := by rw [waits]; rfl
      split at moved
      · split at moved
        · cases moved
        · cases moved
          exact .goes found open_ ⟨rfl, rfl⟩ rfl fun _ => ⟨rfl, rfl⟩
      · cases moved
        exact .goes found open_ ⟨rfl, rfl⟩ rfl fun _ => ⟨rfl, rfl⟩
    · cases moved
  | admitted k answer =>
    obtain ⟨h, found, moved⟩ := Option.bind_eq_some_iff.mp moved
    split at moved
    next waits _ =>
      have open_ : h.phase.undecided = true := by rw [waits]; rfl
      cases moved
      unfold admitAgent
      split
      · exact .goes found open_ ⟨rfl, rfl⟩ rfl fun _ => ⟨rfl, rfl⟩
      · exact .failed k h .unauthorized p.releaseAuth ⟨rfl, rfl⟩ rfl found open_ rfl
      · split
        · exact .goes found open_ ⟨rfl, rfl⟩ rfl fun _ => ⟨rfl, rfl⟩
        next server stepped =>
          have still := (Server.step_undisturbed stepped fun now later same => by cases same).monotonic
          exact .goes found open_ ⟨rfl, still⟩ rfl fun _ => ⟨rfl, rfl⟩
    · cases moved
  | pollWake =>
    simp only [step] at moved
    split at moved
    · cases moved
      exact .aside rfl rfl (le_refl _)
    · cases moved
  | pollAcquired granted =>
    simp only [step] at moved
    split at moved
    · split at moved
      · split at moved
        · cases moved
        · cases moved
          exact .aside rfl rfl (le_refl _)
      · cases moved
        exact .aside rfl rfl (le_refl _)
    · cases moved
  | polled answer =>
    simp only [step] at moved
    split at moved
    · split at moved
      · cases moved
        exact .aside rfl rfl (le_refl _)
      · cases moved
        exact .aside rfl rfl (le_refl _)
      · cases moved
        have still := @Server.undisturbed_applyPolicyUpdate (fun _ => False) p.server ‹_›
        exact .aside rfl rfl (le_of_eq still.monotonic.symm)
    · cases moved
  | server a =>
    simp only [step] at moved
    split at moved
    · cases moved
    · exact .relay forward moved

/-! ### What the limiter remembers -/

/-- The limiter still knows of a bucket what a later check can ask for. -/
structure Reads (p : ControlPort) (bucket : SourceBucket) : Prop where
  keys : (p.authFails.map Prod.fst).Nodup
  recent : ∀ later, p.server.monotonic ≤ later →
    (Window.recent authFailWindow later (p.remembered bucket)).Perm
      (Window.recent authFailWindow later (p.failures bucket))

theorem reads_start (config : PortConfig) (now monotonic : ℚ) : (start config now monotonic).Reads bucket where
  keys := List.nodup_nil
  recent _ _ := List.Perm.refl _

/-- What the limiter is asked to remember of a failure. -/
private theorem failures_fail (bucket : SourceBucket) (found : p.handshakes[k]? = some h) (why : HandshakeFailure) :
    ((p.fail k h why).failures bucket).Perm
      (p.failures bucket ++ if h.source = some bucket then [p.server.monotonic] else []) := by
  have each : ∀ list : List Handshake, ∀ k, list[k]? = some h →
      ((list.modify k fun h => { h with
          phase := .closed (.failed why), failures := h.failures ++ [p.server.monotonic] }).flatMap
        (Handshake.failuresFrom bucket)).Perm
      (list.flatMap (Handshake.failuresFrom bucket) ++
        if h.source = some bucket then [p.server.monotonic] else []) := by
    intro list
    induction list with
    | nil =>
      intro k none
      cases none
    | cons first rest ih =>
      intro k here
      cases k with
      | zero =>
        cases here
        have grown : Handshake.failuresFrom bucket { h with
            phase := .closed (.failed why), failures := h.failures ++ [p.server.monotonic] } =
          Handshake.failuresFrom bucket h ++ if h.source = some bucket then [p.server.monotonic] else [] := by
          by_cases own : h.source = some bucket
          · simp only [Handshake.failuresFrom, if_pos own]
            exact if_pos own
          · simp only [Handshake.failuresFrom, if_neg own, List.append_nil]
            exact if_neg own
        rw [List.modify_zero_cons, List.flatMap_cons, grown, List.flatMap_cons, List.append_assoc,
          List.append_assoc]
        exact List.perm_append_comm.append_left _
      | succ k =>
        rw [List.modify_succ_cons, List.flatMap_cons, List.flatMap_cons, List.append_assoc]
        exact (ih k here).append_left _
  exact each p.handshakes k found

private theorem undecided_fail (bucket : SourceBucket) (found : p.handshakes[k]? = some h) (open_ : h.phase.undecided = true)
    (why : HandshakeFailure) :
    (p.fail k h why).undecided bucket + (if h.source = some bucket then 1 else 0) = p.undecided bucket := by
  have counts := Tally.countP_modify (Handshake.undecidedFrom bucket) (fun h : Handshake =>
    { h with phase := .closed (.failed why), failures := h.failures ++ [p.server.monotonic] }) found
  have before : Handshake.undecidedFrom bucket h = decide (h.source = some bucket) := by
    rw [Handshake.undecidedFrom, open_, Bool.and_true]
  have after : Handshake.undecidedFrom bucket
      { h with phase := .closed (.failed why), failures := h.failures ++ [p.server.monotonic] } = false := by
    rw [Handshake.undecidedFrom]
    exact Bool.and_false _
  rw [before, after] at counts
  unfold undecided fail
  by_cases own : h.source = some bucket
  · rw [if_pos own]
    simp only [own, decide_true, Bool.toNat_true, Bool.toNat_false] at counts
    simpa using counts
  · rw [if_neg own]
    simp only [own, decide_false, Bool.toNat_false] at counts
    simpa using counts

/-- A failure is written down, or the cap takes the row out. -/
private theorem lookup_record (bucket : SourceBucket) (keys : (p.authFails.map Prod.fst).Nodup) (ip : Option PeerIp) :
    ((p.recordAuthFail ip).authFails.map Prod.fst).Nodup ∧
      ((p.recordAuthFail ip).authFails.lookup bucket = (if authFailKey ip = some bucket then
          some (p.remembered bucket ++ [p.server.monotonic]) else p.authFails.lookup bucket) ∨
        (p.recordAuthFail ip).authFails.lookup bucket = none) := by
  unfold recordAuthFail
  cases keyed : authFailKey ip with
  | none => exact ⟨keys, .inl (by simp)⟩
  | some key =>
    simp only
    have noted := Window.keys_put (k := key) (b := p.remembered key ++ [p.server.monotonic]) keys
    have kept : ∀ table : List (SourceBucket × List ℚ),
        ((if table.length > authFailSweepAt then
          table.filter fun e => !e.2.all fun t => authFailWindow ≤ p.server.monotonic - t else table).drop
          ((if table.length > authFailSweepAt then
            table.filter fun e => !e.2.all fun t => authFailWindow ≤ p.server.monotonic - t
            else table).length - authFailMaxIps)).Sublist table := by
      intro table
      apply (List.drop_sublist _ _).trans
      split
      · exact List.filter_sublist
      · exact List.Sublist.refl _
    refine ⟨noted.sublist ((kept _).map Prod.fst), ?_⟩
    rcases Window.lookup_sublist noted (kept _) bucket with same | gone
    · left
      rw [remembered] at same
      rw [same, Window.lookup_put keys]
      by_cases own : key = bucket
      · subst own
        simp [remembered]
      · have other : (bucket == key) = false := by simpa using Ne.symm own
        simp [own, other]
    · exact .inr gone

theorem Reads.fail (reads : p.Reads bucket) (found : p.handshakes[k]? = some h) (why : HandshakeFailure)
    (kept : ¬ (p.fail k h why).Evicted bucket) : (p.fail k h why).Reads bucket := by
  obtain ⟨keys, row⟩ := lookup_record bucket reads.keys h.agentIp
  have noted := failures_fail bucket found why
  have clock := congrArg Server.monotonic (p.fail_server k h why)
  constructor
  · exact keys
  · intro later after
    rw [clock] at after
    rcases row with written | gone
    · have remembers : (p.fail k h why).remembered bucket = p.remembered bucket ++
          if h.source = some bucket then [p.server.monotonic] else [] := by
        have lookup : (p.fail k h why).authFails.lookup bucket = if h.source = some bucket then
          some (p.remembered bucket ++ [p.server.monotonic]) else p.authFails.lookup bucket := written
        rw [remembered, lookup]
        by_cases own : h.source = some bucket
        · rw [if_pos own, if_pos own]
          rfl
        · rw [if_neg own, if_neg own, List.append_nil, remembered]
      rw [remembers, Window.recent_append]
      refine ((reads.recent later after).append_right _).trans ?_
      rw [← Window.recent_append]
      exact (noted.filter _).symm
    · -- what is gone had nothing of the last minute in it
      have stale : Window.recent authFailWindow p.server.monotonic ((p.fail k h why).failures bucket) = [] := by
        by_contra fresh
        exact kept ⟨gone, clock ▸ fresh⟩
      have lookup : (p.fail k h why).authFails.lookup bucket = none := gone
      have none_later : Window.recent authFailWindow later ((p.fail k h why).failures bucket) = [] := by
        rw [← Window.recent_recent after, stale]
        rfl
      rw [remembered, lookup, none_later]
      exact List.Perm.refl _

private theorem failures_connect (ip : Option PeerIp) : (p.connect ip).failures bucket = p.failures bucket := by
  unfold failures
  rw [connect_handshakes, List.flatMap_append, List.flatMap_singleton]
  unfold Handshake.failuresFrom
  simp

/-- The check of a new connection forgets nothing that counts. -/
private theorem lookup_authRateOk (bucket : SourceBucket) (keys : (p.authFails.map Prod.fst).Nodup) (ip : Option PeerIp) :
    ((p.connect ip).authFails.map Prod.fst).Nodup ∧
      ((p.connect ip).remembered bucket = p.remembered bucket ∨ (p.connect ip).remembered bucket =
        Window.recent authFailWindow p.server.monotonic (p.remembered bucket)) := by
  have table : (p.connect ip).authFails = (p.authRateOk ip).2.authFails := rfl
  unfold remembered
  rw [table]
  unfold authRateOk
  split
  · exact ⟨keys, .inl rfl⟩
  next key keyed =>
    dsimp only
    split
    · exact ⟨keys, .inl rfl⟩
    · dsimp only
      by_cases own : bucket = key
      · subst own
        split
        next stale =>
          refine ⟨keys.sublist (List.filter_sublist.map Prod.fst), .inr ?_⟩
          rw [Window.lookup_erase keys, beq_self_eq_true, if_pos rfl, stale]
          rfl
        · refine ⟨Window.keys_put keys, .inr ?_⟩
          rw [Window.lookup_put keys, beq_self_eq_true, if_pos rfl]
          rfl
      · have other : ¬ (bucket == key) = true := by simpa using own
        split
        · refine ⟨keys.sublist (List.filter_sublist.map Prod.fst), .inl ?_⟩
          rw [Window.lookup_erase keys, if_neg other]
        · refine ⟨Window.keys_put keys, .inl ?_⟩
          rw [Window.lookup_put keys, if_neg other]

theorem Reads.connect (reads : p.Reads bucket) (ip : Option PeerIp) : (p.connect ip).Reads bucket := by
  obtain ⟨keys, row⟩ := lookup_authRateOk bucket reads.keys ip
  constructor
  · exact keys
  · intro later after
    rw [connect_server] at after
    rw [failures_connect]
    rcases row with same | pruned
    · rw [same]
      exact reads.recent later after
    · rw [pruned, Window.recent_recent after]
      exact reads.recent later after

/-- A check is decided by the failures of the last minute. -/
theorem Reads.authRateOk (reads : p.Reads bucket) {ip : Option PeerIp} (own : authFailKey ip = some bucket) :
    (p.authRateOk ip).1 = true ↔
      (Window.recent authFailWindow p.server.monotonic (p.failures bucket)).length < authFailMax := by
  rw [← (reads.recent _ (le_refl _)).length_eq]
  unfold ControlPort.authRateOk
  rw [own]
  dsimp only
  split
  next none =>
    rw [remembered, none]
    exact iff_of_true rfl (Nat.succ_pos _)
  · exact decide_eq_true_iff

theorem Reads.step (reads : p.Reads bucket) {a : Action} (forward : a.Forward p) (moved : p.step a = some p')
    (kept : ¬ p'.Evicted bucket) : p'.Reads bucket := by
  cases step_effect forward moved with
  | connected ip same =>
    subst same
    exact reads.connect ip
  | failed k h why q alike handshakes found open_ same =>
    subst same
    have before : q.Reads bucket := by
      refine ⟨alike.table ▸ reads.keys, ?_⟩
      unfold failures remembered
      rw [handshakes, alike.monotonic, alike.table]
      exact reads.recent
    exact before.fail (handshakes ▸ found) why kept
  | quiet table onward failures undecided =>
    refine ⟨table ▸ reads.keys, fun later after => ?_⟩
    unfold remembered
    rw [failures, table]
    exact reads.recent later (onward.trans after)

/-! ### How many failures there are -/

/-- As many handshakes from the bucket as the limiter lets pass, beside those on their way. -/
structure Limited (p : ControlPort) (bucket : SourceBucket) (m : Nat) : Prop where
  reads : p.Reads bucket
  room : (Window.recent authFailWindow p.server.monotonic (p.failures bucket)).length +
    p.undecided bucket ≤ authFailMax - 1 + m
  windows : ∀ w, ((p.failures bucket).filter fun t => w ≤ t ∧ t < w + authFailWindow).length ≤
    authFailMax - 1 + m

theorem limited_start (config : PortConfig) (now monotonic : ℚ) (m : Nat) :
    (start config now monotonic).Limited bucket m where
  reads := reads_start config now monotonic
  room := by simp [failures, undecided, start, Window.recent]
  windows := by simp [failures, start]

private theorem Limited.quiet {m : Nat} (limited : p.Limited bucket m) (reads : p'.Reads bucket)
    (forward : p.server.monotonic ≤ p'.server.monotonic) (failures : p'.failures bucket = p.failures bucket)
    (undecided : (Window.recent authFailWindow p.server.monotonic (p.failures bucket)).length +
      p'.undecided bucket ≤ authFailMax - 1 + m) : p'.Limited bucket m := by
  have fewer := Window.length_recent_le authFailWindow (p.failures bucket) forward
  refine ⟨reads, ?_, failures ▸ limited.windows⟩
  rw [failures]
  omega

theorem Limited.step {m : Nat} (limited : p.Limited bucket m) {a : Action} (forward : a.Forward p)
    (moved : p.step a = some p') (kept : ¬ p'.Evicted bucket) (few : p'.undecided bucket ≤ m) :
    p'.Limited bucket m := by
  have reads := limited.reads.step forward moved kept
  cases step_effect forward moved with
  | connected ip same =>
    subst same
    apply limited.quiet reads (le_of_eq (congrArg Server.monotonic (connect_server p ip)).symm)
      (failures_connect ip)
    have grown : (p.connect ip).undecided bucket = p.undecided bucket +
        if authFailKey ip = some bucket ∧ (p.authRateOk ip).1 = true then 1 else 0 := by
      unfold undecided
      rw [connect_handshakes, List.countP_append, List.countP_singleton]
      congr 2
      unfold Handshake.undecidedFrom Handshake.source
      cases (p.authRateOk ip).1 <;> simp [HandshakePhase.undecided]
    by_cases passed : authFailKey ip = some bucket ∧ (p.authRateOk ip).1 = true
    · -- a source that passes has failed less often than the limit
      have below := (limited.reads.authRateOk passed.1).mp passed.2
      omega
    · rw [grown, if_neg passed]
      exact limited.room
  | failed k h why q alike handshakes found open_ same =>
    subst same
    have noted := failures_fail (p := q) bucket (handshakes ▸ found) why
    have decided := undecided_fail (p := q) bucket (handshakes ▸ found) open_ why
    have failures : q.failures bucket = p.failures bucket := congrArg _ handshakes
    have undecided : q.undecided bucket = p.undecided bucket := congrArg _ handshakes
    have clock := congrArg Server.monotonic (q.fail_server k h why)
    rw [failures, alike.monotonic] at noted
    have room := limited.room
    have recent : (Window.recent authFailWindow (q.fail k h why).server.monotonic
        ((q.fail k h why).failures bucket)).length =
      (Window.recent authFailWindow p.server.monotonic (p.failures bucket)).length +
        if h.source = some bucket then 1 else 0 := by
      rw [clock, alike.monotonic, (Window.perm_recent noted).length_eq, Window.recent_append,
        List.length_append]
      congr 1
      by_cases own : h.source = some bucket
      · rw [if_pos own, if_pos own, Window.recent_self (by decide), List.length_singleton]
      · rw [if_neg own, if_neg own]
        rfl
    have room : (Window.recent authFailWindow (q.fail k h why).server.monotonic
        ((q.fail k h why).failures bucket)).length + (q.fail k h why).undecided bucket ≤
        authFailMax - 1 + m := by
      omega
    refine ⟨reads, room, fun w => ?_⟩
    by_cases reaches : (q.fail k h why).server.monotonic < w + authFailWindow
    · have counts := Window.length_window_le ((q.fail k h why).failures bucket) reaches
      omega
    · -- the failure comes after the window
      rw [clock, alike.monotonic] at reaches
      rw [(noted.filter _).length_eq, List.filter_append, List.length_append]
      have after : (if h.source = some bucket then [p.server.monotonic] else []).filter
          (fun t => w ≤ t ∧ t < w + authFailWindow) = [] := by
        split
        · simp [reaches]
        · rfl
      rw [after]
      exact limited.windows w
  | quiet table onward failures undecided =>
    apply limited.quiet reads onward (failures bucket)
    have fewer := undecided bucket
    have room := limited.room
    omega

/-- The clock runs forward, and the step leaves at most so many handshakes from the bucket on their
way and does not evict it. -/
def Steady (bucket : SourceBucket) (m : Nat) (p : ControlPort) (a : Action) : Prop :=
  a.Forward p ∧ ∀ p', p.step a = some p' → ¬ p'.Evicted bucket ∧ p'.undecided bucket ≤ m

instance (bucket : SourceBucket) (m : Nat) (p : ControlPort) (a : Action) :
    Decidable (Steady bucket m p a) :=
  inferInstanceAs (Decidable ((∀ t ∈ a.reading, p.server.monotonic ≤ t) ∧
    ∀ p' ∈ p.step a, ¬ p'.Evicted bucket ∧ p'.undecided bucket ≤ m))

theorem limited_of_run {config : PortConfig} {now monotonic : ℚ} {as : List Action} {m : Nat}
    (steady : Along step (Steady bucket m) (start config now monotonic) as)
    (ran : run step (start config now monotonic) as = some p) : p.Limited bucket m := by
  have kept : ∀ (q : ControlPort) a q', q.Limited bucket m → Steady bucket m q a →
      ControlPort.step q a = some q' → q'.Limited bucket m := by
    intro q a q' limited allowed moved
    obtain ⟨kept, few⟩ := allowed.2 q' moved
    exact limited.step allowed.1 moved kept few
  exact run_invariant kept (limited_start config now monotonic m) steady ran

/-- Two addresses of one /64 network fail at once, and one of them a minute later. -/
def twoNeighbours : List Action :=
  [.connect (some (.ipv6 1 none)), .connect (some (.ipv6 2 none)), .acquired 0 true, .acquired 1 true,
    .received 1 none, .received 0 none, .server (.clock 60 60), .connect (some (.ipv6 1 none)),
    .acquired 2 true, .received 2 (some .null)]

/-- A port where `i` handshakes from an address have failed at time 0, before the others. -/
def crowd (config : PortConfig) (ip : PeerIp) (bucket : SourceBucket) (i : Nat) (rest : List Handshake) :
    ControlPort :=
  { start config 0 0 with
    authFails := if i = 0 then [] else [(bucket, List.replicate i 0)]
    handshakes := List.replicate i ⟨some ip, .closed (.failed .badHandshake), none, [0]⟩ ++ rest }

section Crowd

variable {config : PortConfig} {ip : PeerIp} {i m : Nat} {rest : List Handshake}

/-- A handshake on its way. -/
private abbrev waiting (ip : PeerIp) (phase : HandshakePhase) : Handshake := ⟨some ip, phase, none, []⟩

private theorem remembered_crowd : (crowd config ip bucket i rest).remembered bucket = List.replicate i 0 := by
  unfold remembered crowd
  cases i with
  | zero => rfl
  | succ i => simp

private theorem undecided_crowd :
    (crowd config ip bucket i rest).undecided bucket = rest.countP (Handshake.undecidedFrom bucket) := by
  unfold undecided crowd
  rw [List.countP_append, List.countP_replicate]
  simp [Handshake.undecidedFrom, HandshakePhase.undecided]

private theorem not_evicted_crowd (fresh : ∀ h ∈ rest, h.failures = []) :
    ¬ (crowd config ip bucket i rest).Evicted bucket := by
  rintro ⟨gone, failed⟩
  cases i with
  | zero =>
    apply failed
    unfold failures crowd
    have none : rest.flatMap (Handshake.failuresFrom bucket) = [] := by
      rw [List.flatMap_eq_nil_iff]
      intro h member
      simp [Handshake.failuresFrom, fresh h member]
    simp [none, Window.recent]
  | succ i => simp [crowd] at gone

/-- While fewer than five have failed, another one is let in. -/
private theorem connect_crowd (own : authFailKey (some ip) = some bucket) (few : i < authFailMax) :
    (crowd config ip bucket i rest).connect (some ip) =
      crowd config ip bucket i (rest ++ [waiting ip .acquiring]) := by
  have checked : (crowd config ip bucket i rest).authRateOk (some ip) =
      (true, crowd config ip bucket i rest) := by
    unfold authRateOk
    rw [own]
    have row := @remembered_crowd bucket config ip i rest
    unfold remembered at row
    dsimp only
    rw [row]
    cases i with
    | zero => rfl
    | succ i =>
      have all : Window.recent authFailWindow (crowd config ip bucket (i + 1) rest).server.monotonic
          (List.replicate (i + 1) 0) = List.replicate (i + 1) 0 := by
        have zero : (crowd config ip bucket (i + 1) rest).server.monotonic = 0 := rfl
        simp [Window.recent, zero, authFailWindow]
      rw [all, if_neg (by simp), if_neg (by simp)]
      simp only [List.length_replicate, few, decide_true, Prod.mk.injEq, true_and]
      simp [crowd, Window.put]
  unfold connect
  rw [checked]
  simp [crowd]

private theorem modify_after {α : Type} (f : α → α) (b : α) (before after : List α) :
    (before ++ b :: after).modify before.length f = before ++ f b :: after := by
  induction before with
  | nil => rfl
  | cons first before ih => simp only [List.cons_append, List.length_cons, List.modify_succ_cons, ih]

private theorem setPhase_crowd {phase phase' : HandshakePhase} :
    (crowd config ip bucket i (waiting ip phase :: rest)).setPhase i phase' =
      crowd config ip bucket i (waiting ip phase' :: rest) := by
  have moved := modify_after (fun h : Handshake => { h with phase := phase' }) (waiting ip phase)
    (List.replicate i ⟨some ip, .closed (.failed .badHandshake), none, [0]⟩) rest
  rw [List.length_replicate] at moved
  unfold setPhase crowd
  rw [moved]

/-- One of the others fails. -/
private theorem fail_crowd (own : authFailKey (some ip) = some bucket) {phase : HandshakePhase} :
    (crowd config ip bucket i (waiting ip phase :: rest)).fail i (waiting ip phase) .badHandshake =
      crowd config ip bucket (i + 1) rest := by
  have moved := modify_after (fun h : Handshake =>
    { h with phase := .closed (.failed .badHandshake), failures := h.failures ++ [0] }) (waiting ip phase)
    (List.replicate i ⟨some ip, .closed (.failed .badHandshake), none, [0]⟩) rest
  rw [List.length_replicate] at moved
  have recorded : ((crowd config ip bucket i (waiting ip phase :: rest)).recordAuthFail (some ip)).authFails =
      [(bucket, List.replicate (i + 1) 0)] := by
    unfold recordAuthFail
    rw [own]
    have row := @remembered_crowd bucket config ip i (waiting ip phase :: rest)
    unfold remembered at row
    dsimp only
    rw [row]
    have zero : (crowd config ip bucket i (waiting ip phase :: rest)).server.monotonic = 0 := rfl
    have written : Window.put (crowd config ip bucket i (waiting ip phase :: rest)).authFails bucket
        (List.replicate i 0 ++ [0]) = [(bucket, List.replicate (i + 1) 0)] := by
      rw [List.replicate_succ']
      cases i with
      | zero => rfl
      | succ i => simp [crowd, Window.put]
    rw [zero, written]
    simp [authFailSweepAt, authFailMaxIps]
  obtain ⟨table, same⟩ := recordAuthFail_table (crowd config ip bucket i (waiting ip phase :: rest)) (some ip)
  rw [same] at recorded
  unfold fail
  rw [same]
  subst recorded
  show ControlPort.mk _ _ _ _ _ _ _ _ _ _ _ = _
  unfold crowd at *
  congr 1
  rw [List.replicate_succ', List.append_assoc]
  exact moved

private theorem step_crowd (own : authFailKey (some ip) = some bucket) (slots : 0 < config.maxControlConns)
    (few : rest.countP (Handshake.undecidedFrom bucket) < m) (fresh : ∀ h ∈ rest, h.failures = []) :
    Reaches step (Steady bucket m) (crowd config ip bucket i (waiting ip .acquiring :: rest))
      (crowd config ip bucket (i + 1) rest) := by
  have found : ∀ phase, (crowd config ip bucket i (waiting ip phase :: rest)).handshakes[i]? =
      some (waiting ip phase) := by
    intro phase
    unfold crowd
    simp
  have free : ¬ (crowd config ip bucket i (waiting ip .acquiring :: rest)).controlSem = 0 :=
    Nat.pos_iff_ne_zero.mp slots
  have acquired : (crowd config ip bucket i (waiting ip .acquiring :: rest)).step (.acquired i true) =
      some (crowd config ip bucket i (waiting ip .receiving :: rest)).takeControl := by
    simp only [step, found, Option.bind_some, if_true, if_neg free, Option.some.injEq]
    exact congrArg takeControl setPhase_crowd
  have restored : (crowd config ip bucket i (waiting ip .receiving :: rest)).takeControl.releaseControl =
      crowd config ip bucket i (waiting ip .receiving :: rest) := by
    have back : config.maxControlConns - 1 + 1 = config.maxControlConns := Nat.sub_add_cancel slots
    simp [takeControl, releaseControl, crowd, start, back]
  have received : (crowd config ip bucket i (waiting ip .receiving :: rest)).takeControl.step
      (.received i none) = some (crowd config ip bucket (i + 1) rest) := by
    have here : (crowd config ip bucket i (waiting ip .receiving :: rest)).takeControl.handshakes[i]? =
      some (waiting ip .receiving) := found .receiving
    simp only [step, here, Option.bind_some, restored, Option.some.injEq]
    exact fail_crowd own
  have counted : ∀ phase : HandshakePhase, phase.undecided = true →
      (crowd config ip bucket i (waiting ip phase :: rest)).undecided bucket ≤ m := by
    intro phase open_
    rw [undecided_crowd, List.countP_cons]
    simp only [Handshake.undecidedFrom, Handshake.source, own, open_, decide_true, Bool.and_true, if_true]
    exact few
  have kept : ∀ phase, ¬ (crowd config ip bucket i (waiting ip phase :: rest)).Evicted bucket := by
    intro phase
    apply not_evicted_crowd
    rintro h member
    rcases List.mem_cons.mp member with rfl | other
    · rfl
    · exact fresh h other
  apply Reaches.trans (t := (crowd config ip bucket i (waiting ip .receiving :: rest)).takeControl)
  · apply reaches_step _ acquired
    refine ⟨by rintro t ⟨⟩, fun p' moved => ?_⟩
    rw [acquired] at moved
    cases moved
    exact ⟨kept .receiving, counted .receiving rfl⟩
  · apply reaches_step _ received
    refine ⟨by rintro t ⟨⟩, fun p' moved => ?_⟩
    rw [received] at moved
    cases moved
    refine ⟨not_evicted_crowd fresh, ?_⟩
    rw [undecided_crowd]
    exact few.le

private theorem reaches_waiting (own : authFailKey (some ip) = some bucket) (few : i < authFailMax) (j : Nat)
    (within : j ≤ m) : Reaches step (Steady bucket m) (crowd config ip bucket i [])
      (crowd config ip bucket i (List.replicate j (waiting ip .acquiring))) := by
  induction j with
  | zero => exact Reaches.refl _
  | succ j ih =>
    apply (ih (by omega)).trans
    have moved : (crowd config ip bucket i (List.replicate j (waiting ip .acquiring))).step (.connect (some ip)) =
        some (crowd config ip bucket i (List.replicate (j + 1) (waiting ip .acquiring))) := by
      rw [List.replicate_succ', ← connect_crowd own few]
      rfl
    apply reaches_step _ moved
    refine ⟨by rintro t ⟨⟩, fun p' moved' => ?_⟩
    rw [moved] at moved'
    cases moved'
    refine ⟨not_evicted_crowd fun h member => by rw [List.eq_of_mem_replicate member], ?_⟩
    rw [undecided_crowd]
    exact List.countP_le_length.trans (by rwa [List.length_replicate])

private theorem reaches_failed (own : authFailKey (some ip) = some bucket) (slots : 0 < config.maxControlConns)
    (j : Nat) (within : j ≤ m) : Reaches step (Steady bucket m)
      (crowd config ip bucket i (List.replicate j (waiting ip .acquiring)))
      (crowd config ip bucket (i + j) []) := by
  induction j generalizing i with
  | zero => exact Reaches.refl _
  | succ j ih =>
    rw [List.replicate_succ]
    refine (step_crowd own slots ?_ fun h member => by rw [List.eq_of_mem_replicate member]).trans ?_
    · exact List.countP_le_length.trans_lt (by rw [List.length_replicate]; omega)
    · have rest := ih (i := i + 1) (by omega)
      rwa [Nat.add_right_comm] at rest

/-- One after the other, up to the limit. -/
private theorem reaches_limit (own : authFailKey (some ip) = some bucket) (slots : 0 < config.maxControlConns)
    (positive : 0 < m) (n : Nat) (within : n ≤ authFailMax) :
    Reaches step (Steady bucket m) (crowd config ip bucket 0 []) (crowd config ip bucket n []) := by
  induction n with
  | zero => exact Reaches.refl _
  | succ n ih =>
    apply (ih (by omega)).trans
    exact (reaches_waiting own within 1 positive).trans (reaches_failed own slots 1 positive)

end Crowd

/-- **The bound on the failures is exact.** With `m` handshakes on their way at once, the last of
them behind four failures, 4 + `m` fail at the same moment. -/
theorem failed_auth_limiter_reached {config : PortConfig} (ip : PeerIp) (m : Nat)
    (slots : 0 < config.maxControlConns) (positive : 0 < m) :
    ∃ bucket as p, authFailKey (some ip) = some bucket ∧ Along step (Steady bucket m) (start config 0 0) as ∧
      run step (start config 0 0) as = some p ∧
      ((p.failures bucket).filter fun t => (0 : ℚ) ≤ t ∧ t < 0 + 60).length = 4 + m := by
  obtain ⟨bucket, own⟩ : ∃ bucket, authFailKey (some ip) = some bucket := ⟨_, rfl⟩
  have four : Reaches step (Steady bucket m) (crowd config ip bucket 0 []) (crowd config ip bucket 4 []) :=
    reaches_limit own slots positive 4 (by decide)
  obtain ⟨as, allowed, ran⟩ := (four.trans (reaches_waiting own (by decide) m le_rfl)).trans
    (reaches_failed own slots m le_rfl)
  refine ⟨bucket, as, _, own, allowed, ran, ?_⟩
  have each : Handshake.failuresFrom bucket ⟨some ip, .closed (.failed .badHandshake), none, [0]⟩ = [0] := by
    simp [Handshake.failuresFrom, Handshake.source, own]
  have noted : (crowd config ip bucket (4 + m) []).failures bucket = List.replicate (4 + m) 0 := by
    unfold failures crowd
    rw [List.append_nil, List.flatMap_replicate]
    simp [each]
  rw [noted]
  simp

theorem failed_auth_limiter_reached_seven : ∃ bucket as p,
    authFailKey (some (.ipv4 1)) = some bucket ∧ Along step (Steady bucket 3) (start smallPort 0 0) as ∧
      run step (start smallPort 0 0) as = some p ∧
      ((p.failures bucket).filter fun t => (0 : ℚ) ≤ t ∧ t < 0 + 60).length = 4 + 3 :=
  failed_auth_limiter_reached (.ipv4 1) 3 (by decide) (by decide)

end ControlPort

end Chute
