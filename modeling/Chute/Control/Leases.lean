import Chute.Control.Credentials

/-!
# Leases that a poll prunes

A policy poll prunes the leases that its request does not name, and the request is made
before the call runs. A lease that is given out between the two is pruned although its
tunnel is about to be registered, and the tunnel falls at its first renewal.
-/
namespace Chute

namespace Server

variable {s s' : Server} {i : Nat} {c : Connection}

/-- A connection that waits for its claim, or whose registration is active or pending. -/
def InUse (s : Server) (i : Nat) (c : Connection) : Prop :=
  c.phase = .admitted ∨
    ∃ label, s.agents.lookup label = some i ∨ s.pendingAgents.lookup label = some i

theorem inUse_iff (found : s.connections[i]? = some c) : s.InUse i c ↔ ¬ s.roster.Gone i := by
  have stage : s.roster.stage i = some (c.phase.stage c.label) := by
    simp [Roster.stage, roster, found, Connection.entry]
  constructor
  · rintro (waiting | ⟨label, serves | holds⟩) gone
    · obtain ⟨t, here, decided⟩ := gone.decided
      rw [stage] at here
      cases here
      exact decided (stage_eq_waiting_iff.mpr waiting)
    · exact gone.inactive label serves
    · exact gone.dropped label holds
  · intro stays
    by_contra unused
    rw [InUse, not_or, not_exists] at unused
    refine stays ⟨⟨_, stage, fun waiting => unused.1 (stage_eq_waiting_iff.mp waiting)⟩,
      fun label serves => unused.2 label (Or.inl serves), fun label holds => unused.2 label (Or.inr holds)⟩

/-- A connection in use after a step that brings none in was in use before. -/
theorem Coherent.inUse_step (coherent : s.Coherent) {a : Action} (moved : s.step a = some s')
    (others : ∀ admission requested scheme window, a ≠ .admitTunnel admission requested scheme window)
    (found : s'.connections[i]? = some c) (used : s'.InUse i c) :
    ∃ c', s.connections[i]? = some c' ∧ c'.hello = c.hello ∧ s.InUse i c' := by
  have same := congrArg (·[i]?) (hellos_step moved others)
  simp only [List.getElem?_map, found, Option.map_some] at same
  obtain ⟨c', found', hello⟩ := Option.map_eq_some_iff.mp same.symm
  refine ⟨c', found', hello, (inUse_iff found').mpr fun gone => ?_⟩
  obtain ⟨-, ms, runs, -⟩ := step_follows coherent moved
  exact (inUse_iff found).mp used (gone.runs runs)

/-! ### Registrations carry what their connections were admitted with -/

/-- A registration has the account, the credential and the lease of its admission. -/
def Titled (s : Server) : Prop :=
  ∀ (i : Nat) (c : Connection) reg, s.connections[i]? = some c → c.registration = some reg →
    reg.accountId = c.admission.lease.accountId ∧
      reg.credentialId = c.admission.lease.credentialId ∧
      reg.leaseId = some c.admission.lease.leaseId

theorem titled_start (config : ServerConfig) (now monotonic : ℚ) :
    (start config now monotonic).Titled := by
  intro i c reg found
  simp [start] at found

theorem Titled.step (titled : s.Titled) {a : Action} (moved : s.step a = some s') : s'.Titled :=
  Vouched.step (p := fun bound title => title.1 = bound.1.2.2.1.lease.accountId ∧
      title.2.1 = bound.1.2.2.1.lease.credentialId ∧ title.2.2.2 = some bound.1.2.2.1.lease.leaseId)
    titled moved fun _ _ _ _ _ _ _ => ⟨rfl, rfl, rfl⟩

end Server

namespace Control

/-- What is kept of a finite lease of the credential. -/
def StaticCredential.leaseState (c : StaticCredential) (seconds : Nat) : LeaseState :=
  ⟨c.accountId, c.credentialId, c.tokenSha256, seconds⟩

/-- The policy has the credential, and no other one of its id. -/
def Lists (c : StaticCredential) (policy : StaticPolicy) : Prop :=
  WellFormed policy.credentials ∧ c ∈ policy.credentials

theorem Lists.unique {c d : StaticCredential} {policy : StaticPolicy} (lists : Lists c policy)
    (member : d ∈ policy.credentials) (same : d.credentialId = c.credentialId) : d = c :=
  List.inj_on_of_nodup_map lists.1.ids member lists.2 same

/-- No read of the file fails with anything but a `ValueError`. -/
def PolicyFile.Loads (file : PolicyFile) : Prop :=
  ∀ fingerprint text e, file = .snapshot fingerprint text →
    parseStaticPolicyText text = .error e → e.isValueError = true

namespace StaticPolicyControlPlane

variable {plane : StaticPolicyControlPlane} {file : PolicyFile} {c : StaticCredential}
  {seconds : Nat} {leaseId : String}

theorem loadPolicy_loads (plane : StaticPolicyControlPlane) (loads : file.Loads) :
    ∃ policy, (plane.loadPolicy file).1 = some policy := by
  unfold loadPolicy
  split
  · exact ⟨_, rfl⟩
  next fingerprint text =>
    split
    · exact ⟨_, rfl⟩
    · split
      · exact ⟨_, rfl⟩
      next e failed =>
        rw [if_pos (loads fingerprint text e rfl failed)]
        exact ⟨_, rfl⟩

theorem credentialOf_leaseState {policy : StaticPolicy} (lists : Lists c policy) :
    credentialOf policy (c.leaseState seconds) = some c := by
  unfold credentialOf
  cases found : policy.credentials.find? fun d =>
      d.credentialId == (c.leaseState seconds).credentialId &&
        d.accountId == (c.leaseState seconds).accountId &&
        d.tokenSha256 == (c.leaseState seconds).tokenSha256 with
  | none =>
    have own := List.find?_eq_none.mp found c lists.2
    simp [StaticCredential.leaseState] at own
  | some d =>
    have test := List.find?_some found
    simp only [Bool.and_eq_true, beq_iff_eq] at test
    rw [lists.unique (List.mem_of_find?_eq_some found) test.1.1]

/-! ### What each call leaves of a lease -/

theorem lookup_pruneInactiveLeases (active : List String) :
    (plane.pruneInactiveLeases active).leases.lookup leaseId =
      if leaseId ∈ active then plane.leases.lookup leaseId else none := by
  have fold : ∀ (keys : List String) (leases : AList fun _ : String => LeaseState),
      (keys.foldl (fun leases key => if key ∈ active then leases else leases.erase key) leases).lookup
          leaseId =
        if leaseId ∈ keys ∧ leaseId ∉ active then none else leases.lookup leaseId := by
    intro keys
    induction keys with
    | nil => simp
    | cons key keys ih =>
      intro leases
      rw [List.foldl_cons, ih]
      by_cases here : leaseId = key
      · subst here
        by_cases kept : leaseId ∈ active <;> simp [kept]
      · by_cases kept : key ∈ active <;> simp [kept, here, AList.lookup_erase_ne]
  rw [pruneInactiveLeases, fold]
  by_cases kept : leaseId ∈ active
  · simp [kept]
  · by_cases known : leaseId ∈ plane.leases.keys
    · simp [kept, known]
    · rw [if_neg fun both => known both.1, if_neg kept]
      exact AList.lookup_eq_none.mpr fun member => known (AList.mem_keys.mp member)

theorem lookup_pollPolicyUpdates (request : PolicyUpdateRequest) :
    (plane.pollPolicyUpdates file request).2.leases.lookup leaseId =
      if request.prunes = true ∧ leaseId ∉ request.activeLeaseIds then none
      else plane.leases.lookup leaseId := by
  have pruned : ∀ plane' : StaticPolicyControlPlane,
      (plane'.loadPolicy file).2.leases.lookup leaseId = plane'.leases.lookup leaseId :=
    fun plane' => by rw [loadPolicy_leases]
  have before : (if request.prunes then plane.pruneInactiveLeases request.activeLeaseIds
      else plane).leases.lookup leaseId =
        if request.prunes = true ∧ leaseId ∉ request.activeLeaseIds then none
        else plane.leases.lookup leaseId := by
    cases prunes : request.prunes with
    | false => simp
    | true =>
      rw [if_pos rfl, lookup_pruneInactiveLeases]
      by_cases active : leaseId ∈ request.activeLeaseIds <;> simp [active]
  have loaded := (pruned _).trans before
  unfold pollPolicyUpdates
  simp only
  split
  next used =>
    rw [used] at loaded
    exact loaded
  next used =>
    rw [used] at loaded
    split
    · exact loaded
    · split <;> exact loaded

/-- The renewal of any lease keeps the leases of a credential that the policy still lists. -/
theorem lookup_renewLease (lists : Lists c plane.policy) (gives : file.Gives (Lists c))
    (finite : c.leaseSeconds = some seconds)
    (known : plane.leases.lookup leaseId = some (c.leaseState seconds)) (request : LeaseRenewalRequest)
    (now : ℚ) :
    (plane.renewLease file request now).2.leases.lookup leaseId = some (c.leaseState seconds) := by
  have loaded : (plane.loadPolicy file).2.leases = plane.leases := loadPolicy_leases
  have listed := loadPolicy_gives lists gives
  have used : ∀ policy, (plane.loadPolicy file).1 = some policy →
      (plane.loadPolicy file).2.policy = policy := fun policy => loadPolicy_policy
  unfold renewLease
  split
  · exact known
  next state found =>
    split
    · exact known
    · split
      next after =>
        rw [after] at loaded
        rw [loaded]
        exact known
      next policy plane' after =>
        rw [after] at loaded listed used
        dsimp only at loaded listed used
        rw [used policy rfl] at listed
        by_cases own : request.leaseId = leaseId
        · rw [own, known] at found
          cases found
          rw [credentialOf_leaseState listed, Option.bind_some, finite, Option.map_some]
          simp only
          split <;> simp [own, StaticCredential.leaseState]
        · split
          · simp only [AList.lookup_erase_ne (Ne.symm own), loaded]
            exact known
          · simp only
            split <;> simp only [AList.lookup_insert_ne (Ne.symm own), loaded] <;> exact known

/-- A lease that is known is renewed while the policy lists its credential; the clock alone can
get in the way. -/
theorem renewLease_known (lists : Lists c plane.policy) (gives : file.Gives (Lists c))
    (loads : file.Loads) (finite : c.leaseSeconds = some seconds)
    (known : plane.leases.lookup leaseId = some (c.leaseState seconds)) (generation : Int)
    (now : ℚ) :
    (plane.renewLease file ⟨leaseId, c.accountId, some c.credentialId, generation⟩ now).1 =
      (expiresAfter now seconds).map fun expires => .tunnelLease (.str leaseId) (.str c.accountId)
        (.str c.credentialId) (.datetime expires) (.int (generation + 1)) := by
  obtain ⟨policy, read⟩ := loadPolicy_loads plane loads
  have listed := loadPolicy_gives lists gives
  rw [loadPolicy_policy read] at listed
  have loaded : plane.loadPolicy file = (some policy, (plane.loadPolicy file).2) := by rw [← read]
  unfold renewLease
  simp only [known]
  rw [if_neg (by simp [StaticCredential.leaseState]), loaded]
  simp only [credentialOf_leaseState listed, Option.bind_some, finite, Option.map_some]
  cases expiresAfter now seconds <;> rfl

end StaticPolicyControlPlane

end Control

namespace PolicyRelay

open Control StaticPolicyControlPlane

variable {sha256 : String → String} {s s' : PolicyRelay} {a : Action} {c d : StaticCredential}
  {seconds : Nat} {leaseId : String}

/-- A lease of the credential that a tunnel holds or is about to hold: the admission is on its
way to the relay, its connection waits for the claim, or its registration is pending or active. -/
def Holds (s : PolicyRelay) (c : StaticCredential) (leaseId : String) : Prop :=
  (∃ (k : Nat) (h : HelloCall) (expires : Datetime), s.hellos[k]? = some h ∧
      h.call = .returned (some (c.admissionObject leaseId (some expires)))) ∨
    ∃ (i : Nat) (conn : Server.Connection) (expires : Datetime),
      s.server.connections[i]? = some conn ∧ conn.admission = c.admission leaseId (some expires) ∧
        s.server.InUse i conn

/-- The step prunes no lease of the credential that is held. -/
def Spares (s : PolicyRelay) (c : StaticCredential) : Action → Prop
  | .polled _ => ∀ request, s.poll = .called request → request.prunes = true →
      ∀ leaseId, s.Holds c leaseId → leaseId ∈ request.activeLeaseIds
  | _ => True

/-- The leases of the credential are good for their tunnels: the control plane knows each one
that is held, and renews the lease of each tunnel that is registered. -/
structure Renews (s : PolicyRelay) (c : StaticCredential) (seconds : Nat) : Prop where
  kept : ∀ leaseId, s.Holds c leaseId →
    s.plane.leases.lookup leaseId = some (c.leaseState seconds)
  renewed : ∀ label i reg,
    s.server.agents.lookup label = some i ∨ s.server.pendingAgents.lookup label = some i →
      s.server.registration? i = some reg → reg.credentialId = some c.credentialId →
        ∃ request, renewalRequest reg = some request ∧ ∀ (file : PolicyFile) now expires,
          (file.Gives fun policy => c ∈ policy.credentials) → file.Loads →
            expiresAfter now seconds = some expires →
              (s.plane.renewLease file request now).1 = some (.tunnelLease (.str request.leaseId)
                (.str request.accountId) (.str c.credentialId) (.datetime expires)
                (.int (request.generation + 1)))

/-- What holds all along the run, with or without pruning. -/
structure Tracked (s : PolicyRelay) (c : StaticCredential) : Prop where
  coherent : s.server.Coherent
  titled : s.server.Titled
  backed : s.Backed fun d => d.credentialId = c.credentialId → d = c
  lists : Lists c s.plane.policy

theorem gives_lists {file : PolicyFile} (gives : file.Gives fun policy => c ∈ policy.credentials) :
    file.Gives (Lists c) := fun fingerprint text policy snapshot parsed =>
  ⟨parseStaticPolicyText_wellFormed parsed, gives fingerprint text policy snapshot parsed⟩

theorem Tracked.step (tracked : s.Tracked c)
    (gives : ∀ file, a.file = some file → file.Gives fun policy => c ∈ policy.credentials)
    (moved : s.step sha256 a = some s') : s'.Tracked c where
  coherent := by
    rcases step_server moved with alone | ⟨b, -, stepped⟩
    · rw [alone]
      exact tracked.coherent
    · exact tracked.coherent.step stepped
  titled := by
    rcases step_server moved with alone | ⟨b, -, stepped⟩
    · rw [alone]
      exact tracked.titled
    · exact tracked.titled.step stepped
  backed := tracked.backed.step moved fun file reads fingerprint text policy snapshot parsed d member
    same => (gives_lists (gives file reads) fingerprint text policy snapshot parsed).unique member same
  lists := by
    have called := step_plane moved
    generalize s'.plane = plane at called
    cases called with
    | admitTunnel k file leaseId h found waiting named fresh =>
      exact admitTunnel_gives tracked.lists (gives_lists (gives file rfl)) sha256 h.token leaseId _
    | polled file request asked =>
      exact pollPolicyUpdates_gives tracked.lists (gives_lists (gives file rfl)) request
    | renew i file reg request renewing asked =>
      exact renewLease_gives tracked.lists (gives_lists (gives file rfl)) request _
    | idle unread => exact tracked.lists

theorem admissionObject_inj {leaseId' : String} {expires expires' : Option Datetime}
    (same : c.admissionObject leaseId expires = d.admissionObject leaseId' expires') :
    leaseId = leaseId' ∧ c.credentialId = d.credentialId ∧ expires = expires' := by
  simp only [StaticCredential.admissionObject, PyObject.tunnelAdmission.injEq,
    PyObject.tunnelLease.injEq, PyObject.str.injEq] at same
  obtain ⟨⟨lease, -, credential, expiry, -⟩, -⟩ := same
  refine ⟨lease, credential, ?_⟩
  cases expires <;> cases expires' <;> simp_all [expiryObject]

theorem admission_inj {leaseId' : String} {expires expires' : Option Datetime}
    (same : c.admission leaseId expires = d.admission leaseId' expires') :
    leaseId = leaseId' ∧ c.credentialId = d.credentialId ∧ expires = expires' := by
  simp only [StaticCredential.admission, TunnelAdmission.mk.injEq, TunnelLease.mk.injEq,
    Option.some.injEq] at same
  exact ⟨same.1.1, same.1.2.2.1, same.1.2.2.2.1⟩

theorem Holds.issued (holds : s.Holds c leaseId) {P : StaticCredential → Prop}
    (backed : s.Backed P) : leaseId ∈ s.issued := by
  rcases holds with ⟨k, h, expires, found, answered⟩ | ⟨i, conn, expires, found, admission, -⟩
  · rcases backed.answers k h _ found answered with none | ⟨d, leaseId', expires', backs, same⟩
    · cases none
    · rw [(admissionObject_inj same).1]
      exact backs.issued
  · obtain ⟨d, leaseId', expires', backs, same⟩ := backed.connections conn.hello
      (List.mem_map_of_mem (List.mem_of_getElem? found))
    rw [(admission_inj (admission.symm.trans same)).1]
    exact backs.issued

/-- Only an admission makes a tunnel hold a lease that none held before. -/
theorem Tracked.holds_step (tracked : s.Tracked c) (moved : s.step sha256 a = some s')
    (holds : s'.Holds c leaseId) :
    s.Holds c leaseId ∨ ∃ k file leaseId' h expires, a = .admitTunnel k file leaseId' ∧
      s.hellos[k]? = some h ∧ (s.plane.admitTunnel sha256 file h.token leaseId' s.server.now).1 =
        some (c.admissionObject leaseId (some expires)) := by
  rcases holds with ⟨k, h, expires, found, answered⟩ | ⟨i, conn, expires, found, admission, used⟩
  · rcases answers_step moved found answered with ⟨h', there, same⟩ | ⟨j, file, leaseId', h', rfl, there, own⟩
    · exact Or.inl (Or.inl ⟨k, h', expires, there, same⟩)
    · exact Or.inr ⟨j, file, leaseId', h', expires, rfl, there, own⟩
  · refine Or.inl ?_
    rcases step_server moved with alone | ⟨b, carries, stepped⟩
    · rw [alone] at found used
      exact Or.inr ⟨i, conn, expires, found, admission, used⟩
    · by_cases admits : ∃ admission requested scheme window,
          b = .admitTunnel admission requested scheme window
      · obtain ⟨object, requested, scheme, window, rfl⟩ := admits
        obtain ⟨valid, read, built⟩ := Option.map_eq_some_iff.mp stepped
        rw [← built] at found used
        simp only [List.getElem?_append] at found
        split at found
        · exact Or.inr ⟨i, conn, expires, found, admission, used⟩
        · have last := List.mem_of_getElem? found
          rw [List.mem_singleton] at last
          subst last
          -- the connection is new, and its admission was the answer of a call
          cases carries with
          | admitted k h object asked answered =>
            rcases tracked.backed.answers k h object asked answered with
              rfl | ⟨d, leaseId', expires', backs, rfl⟩
            · cases read
            · have same : valid = d.admission leaseId' expires' := eq_admission_of_valid read
              have admission : valid = c.admission leaseId (some expires) := admission
              obtain ⟨lease, credential, expiry⟩ := admission_inj (same.symm.trans admission)
              have own := backs.has credential
              subst own lease expiry
              exact Or.inl ⟨k, h, expires, asked, answered⟩
          | server b own => cases own
      · obtain ⟨conn', found', hello, used'⟩ := tracked.coherent.inUse_step stepped
          (fun admission requested scheme window same => admits ⟨_, _, _, _, same⟩) found used
        have same : conn'.admission = conn.admission := congrArg (fun hello => hello.2.2.1) hello
        exact Or.inr ⟨i, conn', expires, found', same.trans admission, used'⟩

/-- A lease in use is known to the control plane. -/
def Keeps (s : PolicyRelay) (c : StaticCredential) (seconds : Nat) : Prop :=
  ∀ leaseId, s.Holds c leaseId → s.plane.leases.lookup leaseId = some (c.leaseState seconds)

/-- A registered tunnel of the credential holds the lease that its renewal asks for. -/
theorem Tracked.registered (tracked : s.Tracked c) (finite : c.leaseSeconds = some seconds)
    {label : String} {i : Nat} {reg : Server.TunnelRegistration}
    (held : s.server.agents.lookup label = some i ∨ s.server.pendingAgents.lookup label = some i)
    (known : s.server.registration? i = some reg) (own : reg.credentialId = some c.credentialId) :
    ∃ leaseId, s.Holds c leaseId ∧
      renewalRequest reg = some ⟨leaseId, c.accountId, some c.credentialId, reg.leaseGeneration⟩ := by
  obtain ⟨conn, found, registered⟩ := Option.bind_eq_some_iff.mp known
  obtain ⟨account, credential, lease⟩ := tracked.titled i conn reg found registered
  obtain ⟨d, leaseId, expires, backs, admission⟩ := tracked.backed.connections conn.hello
    (List.mem_map_of_mem (List.mem_of_getElem? found))
  have admission : conn.admission = d.admission leaseId expires := admission
  rw [admission] at account credential lease
  have same : d.credentialId = c.credentialId :=
    Option.some.inj (credential.symm.trans own)
  have equal := backs.has same
  subst equal
  have finite' : expires.isSome = true := by
    rw [backs.finite, finite]
    rfl
  obtain ⟨time, rfl⟩ := Option.isSome_iff_exists.mp finite'
  refine ⟨leaseId, Or.inr ⟨i, conn, time, found, admission, Or.inr ⟨label, held⟩⟩, ?_⟩
  rw [renewalRequest, lease, account, own]
  rfl

theorem Tracked.renews_iff_keeps (tracked : s.Tracked c) (finite : c.leaseSeconds = some seconds) :
    s.Renews c seconds ↔ s.Keeps c seconds := by
  refine ⟨fun renews => renews.kept, fun keeps => ⟨keeps, ?_⟩⟩
  intro label i reg held known own
  obtain ⟨leaseId, holds, request⟩ := tracked.registered finite held known own
  refine ⟨_, request, fun file now expires gives loads fits => ?_⟩
  rw [renewLease_known tracked.lists (gives_lists gives) loads finite (keeps leaseId holds), fits]
  rfl

/-- An admission keeps the leases that are held, and notes the one it gives out. -/
theorem Tracked.keeps_admission (tracked : s.Tracked c) (finite : c.leaseSeconds = some seconds)
    (keeps : s.Keeps c seconds) {k : Nat} {file : PolicyFile} {lease : String}
    (gives : file.Gives fun policy => c ∈ policy.credentials)
    (moved : s.step sha256 (.admitTunnel k file lease) = some s') : s'.Keeps c seconds := by
  intro leaseId holds
  have called := step_plane moved
  have fresh : lease ∉ s.issued := by
    rcases issued_step moved with ⟨other, -⟩ | ⟨_, same, fresh, -⟩
    · cases other
    · cases same
      exact fresh
  have listed := loadPolicy_gives tracked.lists (gives_lists gives)
  have loaded : (s.plane.loadPolicy file).2.leases = s.plane.leases := loadPolicy_leases
  generalize s'.plane = plane at called
  cases called with
  | idle _ unread => cases unread
  | admitTunnel k file lease h found =>
    rcases tracked.holds_step moved holds with before | ⟨_, _, _, h', expires, same, there, own⟩
    · -- another lease, which the new one does not touch
      have other : leaseId ≠ lease := by
        rintro rfl
        exact fresh (before.issued tracked.backed)
      rcases admitTunnel_cases s.plane file sha256 h.token lease s.server.now with
        ⟨-, same⟩ | ⟨d, -, ⟨-, same⟩ | ⟨seconds', expires, -, -, same⟩⟩
      · rw [same, loaded]
        exact keeps leaseId before
      · simp only [same, loaded]
        exact keeps leaseId before
      · simp only [same, AList.lookup_insert_ne other]
        exact keeps leaseId before
    · cases same
      rw [found] at there
      cases there
      rcases admitTunnel_cases s.plane file sha256 h.token lease s.server.now with
        ⟨none | none, -⟩ | ⟨d, member, ⟨-, same⟩ | ⟨seconds', expires', leased, -, same⟩⟩
      · rw [none] at own
        cases own
      · rw [none] at own
        cases own
      · rw [same] at own
        cases (admissionObject_inj (Option.some.inj own)).2.2
      · rw [same] at own
        obtain ⟨named, credential, -⟩ := admissionObject_inj (Option.some.inj own)
        have equal := listed.unique member credential
        subst equal named
        rw [finite] at leased
        cases leased
        simp only [same, AList.lookup_insert]
        rfl

/-- A step keeps the leases that are in use exactly when it spares them. -/
theorem Tracked.keeps_step (tracked : s.Tracked c) (finite : c.leaseSeconds = some seconds)
    (gives : ∀ file, a.file = some file → file.Gives fun policy => c ∈ policy.credentials)
    (keeps : s.Keeps c seconds) (moved : s.step sha256 a = some s') :
    s'.Keeps c seconds ↔ s.Spares c a := by
  by_cases admits : ∃ k file lease, a = .admitTunnel k file lease
  · obtain ⟨k, file, lease, rfl⟩ := admits
    exact iff_of_true (tracked.keeps_admission finite keeps (gives file rfl) moved) trivial
  have before : ∀ {leaseId}, s'.Holds c leaseId → s.Holds c leaseId := fun {leaseId} holds =>
    (tracked.holds_step moved holds).resolve_right fun ⟨k, file, lease, _, _, same, _⟩ =>
      admits ⟨k, file, lease, same⟩
  have called := step_plane moved
  by_cases polls : ∃ file, a = .polled file
  · obtain ⟨file, rfl⟩ := polls
    simp only [PolicyRelay.step] at moved
    split at moved <;> cases moved
    next request asked =>
      constructor
      · intro kept request' asked' prunes leaseId holds
        rw [asked] at asked'
        cases asked'
        by_contra unnamed
        have pruned := kept leaseId holds
        rw [lookup_pollPolicyUpdates, if_pos ⟨prunes, unnamed⟩] at pruned
        cases pruned
      · intro spares leaseId holds
        rw [lookup_pollPolicyUpdates]
        split
        next pruned => exact absurd (spares request asked pruned.1 leaseId holds) pruned.2
        · exact keeps leaseId holds
  · refine iff_of_true (fun leaseId holds => ?_) ?_
    · have known := keeps leaseId (before holds)
      generalize s'.plane = plane at called
      cases called with
      | admitTunnel k file lease => exact absurd ⟨k, file, lease, rfl⟩ admits
      | polled file => exact absurd ⟨file, rfl⟩ polls
      | renew i file reg request =>
        exact lookup_renewLease tracked.lists (gives_lists (gives file rfl)) finite known request _
      | idle unread => exact known
    · cases a with
      | polled file => exact absurd ⟨file, rfl⟩ polls
      | _ => exact trivial

/-- A relay with a policy file that lists the credential, before its first connection. -/
theorem tracked_start {plane : StaticPolicyControlPlane} {file : PolicyFile}
    (created : create file = some plane) (member : c ∈ plane.policy.credentials)
    (config : ServerConfig) (now monotonic : ℚ) : (start config now monotonic plane).Tracked c := by
  have lists : Lists c plane.policy := ⟨create_wellFormed created, member⟩
  exact ⟨Server.coherent_start config now monotonic, Server.titled_start config now monotonic,
    backed_start config now monotonic fun d has => lists.unique has, lists⟩

theorem tracked_run {plane : StaticPolicyControlPlane} {file : PolicyFile}
    (created : create file = some plane) (member : c ∈ plane.policy.credentials)
    {config : ServerConfig} {now monotonic : ℚ} {as : List Action}
    (unchanged : ∀ a ∈ as, ∀ file', a.file = some file' →
      file'.Gives fun policy => c ∈ policy.credentials)
    (ran : Transition.run (step sha256) (start config now monotonic plane) as = some s) :
    s.Tracked c :=
  @Transition.run_invariant _ _ (step sha256)
    (fun _ a => ∀ file', a.file = some file' → file'.Gives fun policy => c ∈ policy.credentials)
    (fun u => u.Tracked c) (fun _ _ _ held gives moved => held.step gives moved) _ _ _
    (tracked_start created member config now monotonic)
    (Transition.along_of_forall (fun a here _ => unchanged a here) _) ran

/-- **The leases of a credential that the policy file keeps are renewed as long as no poll
prunes one of them that its request was too early to name.** -/
theorem renews_iff {plane : StaticPolicyControlPlane} {file : PolicyFile}
    (created : create file = some plane) (member : c ∈ plane.policy.credentials)
    (finite : c.leaseSeconds = some seconds) {config : ServerConfig} {now monotonic : ℚ}
    {as : List Action} (unchanged : ∀ a ∈ as, ∀ file', a.file = some file' →
      file'.Gives fun policy => c ∈ policy.credentials)
    (ran : Transition.run (step sha256) (start config now monotonic plane) as = some s) :
    (∀ bs cs t, as = bs ++ cs →
      Transition.run (step sha256) (start config now monotonic plane) bs = some t →
        t.Renews c seconds) ↔
    Transition.Along (step sha256) (fun t a => t.Spares c a)
      (start config now monotonic plane) as := by
  have tracked := tracked_start created member config now monotonic
  have renewing : (start config now monotonic plane).Renews c seconds := by
    rw [tracked.renews_iff_keeps finite]
    rintro leaseId (⟨k, h, expires, found, -⟩ | ⟨i, conn, expires, found, -⟩)
    · simp [start] at found
    · simp [start, Server.start] at found
  refine (@Transition.along_iff_of_forall _ _ (step sha256) (fun t a => t.Spares c a)
    (fun t => t.Tracked c) (fun t => t.Renews c seconds) _ ?_ ?_ _ _ as unchanged tracked renewing
    ran).symm
  · exact fun t b t' gives held moved => held.step gives moved
  · intro t b t' gives held renews moved
    rw [(held.step gives moved).renews_iff_keeps finite]
    exact held.keeps_step finite gives renews.kept moved

/-- A policy with one credential, whose leases last a minute. -/
def leasingFile : PolicyFile :=
  .snapshot (1, 2, 3, 4, 5) (.json (.object [("schema_version", .int 1), ("credentials", .array
    [.object [("credential_id", .str "cred-a"), ("account_id", .str "a"), ("lease_seconds", .int 60),
      ("token_sha256", .str "8ed3f6ad685b959ead7022518e1af76cd816f8e8ec7ccdda1ed4018e8f2223f8")]])]))

/-- SHA-256 of the token of that credential. -/
def leasingDigest (token : String) : String :=
  if token = "alpha" then "8ed3f6ad685b959ead7022518e1af76cd816f8e8ec7ccdda1ed4018e8f2223f8" else ""

/-- The file is the same at every read of a run. -/
theorem leasingFile_kept {plane : StaticPolicyControlPlane} (created : create leasingFile = some plane)
    (member : c ∈ plane.policy.credentials) {as : List Action}
    (reads : ∀ a ∈ as, ∀ file, a.file = some file → file = leasingFile) :
    ∀ a ∈ as, ∀ file, a.file = some file → file.Gives fun policy => c ∈ policy.credentials := by
  intro a here file read fingerprint text policy snapshot parsed
  rw [reads a here file read] at snapshot
  rw [create_gives created fingerprint text policy snapshot parsed]
  exact member

/-- An agent is admitted and registered, and then the relay asks for policy updates. -/
def leased : List Action :=
  [.hello (PyStr.ofString "alpha") (some "api") .http .default, .admitTunnel 0 leasingFile "first",
    .admitted 0] ++ (Server.setUp 0).map .server ++ [.poll]

theorem renews_of_leased : ∃ plane c s, create leasingFile = some plane ∧
    c ∈ plane.policy.credentials ∧ c.leaseSeconds = some 60 ∧
      Transition.run (step leasingDigest) (start Server.smallRelay 0 0 plane)
        (leased ++ [.polled leasingFile]) = some s ∧
      s.server.agents.lookup "api" = some 0 ∧ s.Renews c 60 := by
  have done : ((create leasingFile).bind fun plane => (plane.policy.credentials[0]?).bind fun c =>
      (Transition.run (step leasingDigest) (start Server.smallRelay 0 0 plane) leased).bind fun t =>
        (t.step leasingDigest (.polled leasingFile)).map fun s =>
          (c.leaseSeconds, t.issued, t.poll.asked, s.server.agents.lookup "api")) =
      some (some 60, ["first"], some ["first"], some 0) := by
    decide +kernel
  obtain ⟨plane, created, done⟩ := Option.bind_eq_some_iff.mp done
  obtain ⟨c, found, done⟩ := Option.bind_eq_some_iff.mp done
  obtain ⟨t, early, done⟩ := Option.bind_eq_some_iff.mp done
  obtain ⟨s, polled, facts⟩ := Option.map_eq_some_iff.mp done
  simp only [Prod.mk.injEq] at facts
  obtain ⟨finite, issued, asked, serves⟩ := facts
  have member := List.mem_of_getElem? found
  have ran : Transition.run (step leasingDigest) (start Server.smallRelay 0 0 plane)
      (leased ++ [.polled leasingFile]) = some s := by
    rw [Transition.run_append early, Transition.run, polled]
    rfl
  have unpolled : ∀ a ∈ leased, ∀ u : PolicyRelay, u.Spares c a := by
    intro a here u
    simp only [leased, Server.setUp, List.map_cons, List.map_nil, List.cons_append, List.nil_append,
      List.mem_cons, List.not_mem_nil, or_false] at here
    rcases here with rfl | rfl | rfl | rfl | rfl | rfl | rfl | rfl | rfl | rfl <;> trivial
  have reads : ∀ a ∈ leased ++ [.polled leasingFile], ∀ file, a.file = some file →
      file = leasingFile := by
    intro a here file read
    simp only [leased, Server.setUp, List.map_cons, List.map_nil, List.cons_append, List.nil_append,
      List.mem_cons, List.not_mem_nil, or_false] at here
    rcases here with rfl | rfl | rfl | rfl | rfl | rfl | rfl | rfl | rfl | rfl | rfl <;> cases read <;>
      rfl
  have kept := leasingFile_kept created member reads
  have tracked : t.Tracked c :=
    tracked_run created member (fun a here => kept a (List.mem_append_left _ here)) early
  refine ⟨plane, c, s, created, member, finite, ran, serves, ?_⟩
  refine (renews_iff created member finite kept ran).mpr ?_ _ [] s (List.append_nil _).symm ran
  refine (Transition.along_append early).mpr ⟨Transition.along_of_forall unpolled _, ?_,
    fun _ _ => trivial⟩
  intro request called prunes leaseId holds
  rw [called] at asked
  rw [Option.some.inj asked, ← issued]
  exact holds.issued tracked.backed

/-- The request of the poll is made while the answer of an admission is on its way. -/
def outpaced : List Action :=
  [.poll, .hello (PyStr.ofString "alpha") (some "api") .http .default, .admitTunnel 0 leasingFile "first",
    .polled leasingFile, .admitted 0] ++ (Server.setUp 0).map .server

/-- The first renewal of the tunnel. -/
def renewal : List Action :=
  [.server (.renewHead 0), .server (.renewWake 0), .server (.renewAcquired 0 true),
    .renew 0 leasingFile, .renewed 0]

/-- The lease is pruned before its tunnel is registered, and the tunnel is retired at its first
renewal although the policy file has not changed. -/
theorem not_renews_of_outpaced : ∃ plane c s s', create leasingFile = some plane ∧
    c ∈ plane.policy.credentials ∧ c.leaseSeconds = some 60 ∧
      (∀ a ∈ outpaced, ∀ file, a.file = some file →
        file.Gives fun policy => c ∈ policy.credentials) ∧
      Transition.run (step leasingDigest) (start Server.smallRelay 0 0 plane) outpaced = some s ∧
      s.server.agents.lookup "api" = some 0 ∧ ¬ s.Renews c 60 ∧
      Transition.run (step leasingDigest) s renewal = some s' ∧
      s'.server.agents.lookup "api" = none ∧ s'.server.leaseRenewalsRevoked = 1 := by
  have done : ((create leasingFile).bind fun plane => (plane.policy.credentials[0]?).bind fun c =>
      (Transition.run (step leasingDigest) (start Server.smallRelay 0 0 plane) outpaced).bind fun s =>
        (Transition.run (step leasingDigest) s renewal).map fun s' =>
          decide (c.leaseSeconds = some 60 ∧ s.server.agents.lookup "api" = some 0 ∧
            (s.server.registration? 0).map (·.credentialId) = some (some c.credentialId) ∧
            s.plane.leases.keys = [] ∧ s'.server.agents.lookup "api" = none ∧
            s'.server.leaseRenewalsRevoked = 1)) = some true := by
    decide +kernel
  obtain ⟨plane, created, done⟩ := Option.bind_eq_some_iff.mp done
  obtain ⟨c, found, done⟩ := Option.bind_eq_some_iff.mp done
  obtain ⟨s, ran, done⟩ := Option.bind_eq_some_iff.mp done
  obtain ⟨s', later, facts⟩ := Option.map_eq_some_iff.mp done
  obtain ⟨finite, serves, credential, pruned, gone, revoked⟩ := of_decide_eq_true facts
  have member := List.mem_of_getElem? found
  have reads : ∀ a ∈ outpaced, ∀ file, a.file = some file → file = leasingFile := by
    intro a here file read
    simp only [outpaced, Server.setUp, List.map_cons, List.map_nil, List.cons_append, List.nil_append,
      List.mem_cons, List.not_mem_nil, or_false] at here
    rcases here with rfl | rfl | rfl | rfl | rfl | rfl | rfl | rfl | rfl | rfl | rfl <;> cases read <;>
      rfl
  have kept := leasingFile_kept created member reads
  have tracked : s.Tracked c := tracked_run created member kept ran
  refine ⟨plane, c, s, s', created, member, finite, kept, ran, serves, fun renews => ?_, later, gone,
    revoked⟩
  obtain ⟨reg, known, own⟩ := Option.map_eq_some_iff.mp credential
  obtain ⟨leaseId, holds, -⟩ := tracked.registered finite (Or.inl serves) known own
  have there := renews.kept leaseId holds
  have absent : leaseId ∉ s.plane.leases := by
    rw [AList.mem_keys, pruned]
    exact List.not_mem_nil
  rw [AList.lookup_eq_none.mpr absent] at there
  cases there

end PolicyRelay

end Chute
