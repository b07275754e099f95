import Chute.Control.Credentials
import Chute.Server.Reconnect

/-!
# Reserved labels

The policy parser sees to it that a label is the `allowed_label` of one account only. The
claim looks at the claiming credential and at who holds the label now, so a credential
without an `allowed_label` gets a reserved label like any other one.
-/
namespace Chute

namespace Server

variable {s s' : Server} {i : Nat} {c : Connection}

/-- The label that a claim gets, when nothing refuses it. -/
def grantedLabel (s : Server) (c : Connection) (phrases : Fin 100 → String) : Option String :=
  match s.prepareClaim c phrases with
  | .error _ => none
  | .ok (label, url) =>
    let accountId := c.admission.lease.accountId
    if (s.accountReconnectBudgetOk accountId (s.accountBudgetFor accountId c.admission.budget)).1 &&
        !s.leaseExpired (s.newRegistration c url) then some label
    else none

/-- What a claim does to the maps. -/
theorem maps_claim (s : Server) (i : Nat) (c : Connection) (phrases : Fin 100 → String) :
    (s.claim i c phrases).agents = s.agents ∧
      (s.claim i c phrases).pendingAgents =
        match s.grantedLabel c phrases with
        | none => s.pendingAgents
        | some label => s.pendingAgents.insert label i := by
  unfold claim grantedLabel
  simp only
  cases s.prepareClaim c phrases with
  | error r => exact ⟨rfl, rfl⟩
  | ok claimed =>
    obtain ⟨label, url⟩ := claimed
    obtain ⟨reconnects, same⟩ := accountReconnectBudgetOk_eq s c.admission.lease.accountId
      (s.accountBudgetFor c.admission.lease.accountId c.admission.budget)
    simp only
    cases noted : s.accountReconnectBudgetOk c.admission.lease.accountId
        (s.accountBudgetFor c.admission.lease.accountId c.admission.budget) with
    | mk ok t =>
      rw [noted] at same
      dsimp only at same
      subst same
      cases ok with
      | false => exact ⟨rfl, rfl⟩
      | true =>
        have unchanged : leaseExpired { s with accountReconnects := reconnects }
            (newRegistration { s with accountReconnects := reconnects } c url) =
              s.leaseExpired (s.newRegistration c url) := rfl
        simp only [unchanged, Bool.true_and]
        cases s.leaseExpired (s.newRegistration c url) with
        | true => exact ⟨rfl, rfl⟩
        | false => exact ⟨rfl, rfl⟩

/-- The label belongs to the account: no other one is registered for it, so its own claims
are not refused because it is taken. -/
structure Reserves (s : Server) (accountId label : String) : Prop where
  active : ∀ i reg, s.agents.lookup label = some i → s.registration? i = some reg →
    reg.accountId = accountId
  pending : ∀ i reg, s.pendingAgents.lookup label = some i → s.registration? i = some reg →
    reg.accountId = accountId
  untaken : ∀ admission : TunnelAdmission, admission.lease.accountId = accountId →
    s.authorizeClaim admission label ≠ some .subdomainTaken

theorem Coherent.reserves_iff (coherent : s.Coherent) {accountId label : String} :
    s.Reserves accountId label ↔ ∀ a, label ∈ s.roster.owned a → a = accountId := by
  constructor
  · intro reserves a owned
    rcases Roster.mem_owned.mp owned with serves | holds
    · obtain ⟨i, here, -⟩ := Option.bind_eq_some_iff.mp serves
      obtain ⟨reg, found, account, -⟩ := coherent.active here
      rw [account] at serves
      cases serves
      exact reserves.active i reg here found
    · obtain ⟨i, here, -⟩ := Option.bind_eq_some_iff.mp holds
      obtain ⟨reg, found, account, -⟩ := coherent.pending here
      rw [account] at holds
      cases holds
      exact reserves.pending i reg here found
  · intro own
    have active : ∀ i reg, s.agents.lookup label = some i → s.registration? i = some reg →
        reg.accountId = accountId := by
      intro i reg here found
      obtain ⟨reg', found', account, -⟩ := coherent.active here
      rw [found] at found'
      cases found'
      exact own _ (Roster.mem_owned.mpr (Or.inl account))
    refine ⟨active, ?_, ?_⟩
    · intro i reg here found
      obtain ⟨reg', found', account, -⟩ := coherent.pending here
      rw [found] at found'
      cases found'
      exact own _ (Roster.mem_owned.mpr (Or.inr account))
    · intro admission account refused
      unfold authorizeClaim at refused
      split at refused
      · cases refused
      split at refused
      next taken =>
        rw [Option.any_eq_true] at taken
        obtain ⟨reg, held, other⟩ := taken
        obtain ⟨i, here, found⟩ := Option.bind_eq_some_iff.mp held
        rw [active i reg here found, account] at other
        simp at other
      · split at refused
        · cases refused
        · split at refused <;> cases refused

/-- Only a claim brings a reserved label to another account. -/
theorem Coherent.reserves_step (coherent : s.Coherent) {a : Action} (moved : s.step a = some s')
    (others : ∀ i phrases, a ≠ .claim i phrases) {accountId label : String}
    (reserves : s.Reserves accountId label) : s'.Reserves accountId label := by
  rw [(coherent.step moved).reserves_iff]
  intro account owned
  obtain ⟨-, ms, runs, allowed⟩ := step_follows coherent moved
  have unclaimed : ∀ m ∈ ms, ∀ i label, m ≠ .claim i label := by
    rintro m member i label rfl
    have allows := allowed _ member
    rcases allows.kinds with ⟨j, label', ends | ends⟩ | ⟨_, _, _, _, _, _, _, -, same⟩ |
      ⟨j, phrases, same, -⟩ | ⟨j, label', -, same⟩
    · cases ends
    · cases ends
    · cases same
    · exact others j phrases same
    · cases same
  exact coherent.reserves_iff.mp reserves account
    (Roster.Runs.owned_from coherent.sound runs unclaimed owned)

theorem account_of_hellos
    (same : s'.connections.map Connection.hello = s.connections.map Connection.hello) :
    s'.roster.account = s.roster.account := by
  funext j
  have here := congrArg (fun hellos => (hellos[j]?).map fun hello => hello.2.2.1.lease.accountId) same
  simpa [Roster.account, roster, Function.comp_def, Connection.hello, Connection.entry] using here

/-- A claim breaks a reservation exactly by getting the label for another account. -/
theorem Coherent.reserves_claim_iff (coherent : s.Coherent) (found : s.connections[i]? = some c)
    (waiting : c.phase = .admitted) {phrases : Fin 100 → String} {accountId label : String}
    (reserves : s.Reserves accountId label) :
    (s.claim i c phrases).Reserves accountId label ↔
      ¬ (s.grantedLabel c phrases = some label ∧ c.admission.lease.accountId ≠ accountId) := by
  obtain ⟨agents, pending⟩ := maps_claim s i c phrases
  have accounts := account_of_hellos (hellos_claim s i c phrases)
  have own : s.roster.account i = some c.admission.lease.accountId := by
    simp [Roster.account, roster, found, Connection.entry]
  have active : (s.claim i c phrases).roster.activeAccount label = s.roster.activeAccount label := by
    change ((s.claim i c phrases).agents.lookup label).bind (s.claim i c phrases).roster.account =
      (s.agents.lookup label).bind s.roster.account
    rw [agents, accounts]
  have reserved : (s.claim i c phrases).roster.pendingAccount label =
      if s.grantedLabel c phrases = some label then some c.admission.lease.accountId
      else s.roster.pendingAccount label := by
    change ((s.claim i c phrases).pendingAgents.lookup label).bind
      (s.claim i c phrases).roster.account = _
    rw [pending, accounts]
    cases granted : s.grantedLabel c phrases with
    | none => rfl
    | some other =>
      by_cases same : other = label
      · subst same
        simp [own]
      · rw [if_neg fun equal => same (Option.some.inj equal)]
        simp only [AList.lookup_insert_ne (Ne.symm same)]
        rfl
  rw [(follows_claim coherent found waiting phrases).coherent.reserves_iff]
  constructor
  · rintro all ⟨granted, other⟩
    rw [if_pos granted] at reserved
    exact other (all _ (Roster.mem_owned.mpr (Or.inr reserved)))
  · intro harmless a owned
    have before := coherent.reserves_iff.mp reserves a
    rw [Roster.mem_owned] at owned before
    rcases owned with serves | holds
    · exact before (Or.inl (active ▸ serves))
    · rw [reserved] at holds
      split at holds
      next granted =>
        cases holds
        by_contra other
        exact harmless ⟨granted, other⟩
      · exact before (Or.inr holds)

theorem prepareClaim_of_granted {phrases : Fin 100 → String} {label : String}
    (granted : s.grantedLabel c phrases = some label) :
    ∃ url, s.prepareClaim c phrases = .ok (label, url) := by
  unfold grantedLabel at granted
  split at granted
  · cases granted
  next label' url ok =>
    dsimp only at granted
    split at granted <;> cases granted
    exact ⟨url, ok⟩

end Server

namespace PolicyRelay

open Control

variable {sha256 : String → String} {s s' : PolicyRelay} {a : Action}

/-- The claim that a step is. -/
def Action.claim? : Action → Option (Nat × (Fin 100 → String))
  | .server (.claim i phrases) => some (i, phrases)
  | _ => none

theorem Action.claim?_eq_some {i : Nat} {phrases : Fin 100 → String}
    (claims : a.claim? = some (i, phrases)) : a = .server (.claim i phrases) := by
  unfold claim? at claims
  split at claims <;> cases claims
  rfl

/-- The step gives a label to an account that it does not belong to, by a claim under a
credential without an `allowed_label`. -/
def Squats (s : PolicyRelay) (accountId label : String) (a : Action) : Prop :=
  ∃ claim ∈ a.claim?, ∃ c ∈ s.server.connections[claim.1]?,
    c.admission.allowedLabel = none ∧ c.admission.lease.accountId ≠ accountId ∧
      s.server.grantedLabel c claim.2 = some label

instance (s : PolicyRelay) (accountId label : String) (a : Action) :
    Decidable (s.Squats accountId label a) :=
  decidable_of_iff (a.claim?.any (fun claim => (s.server.connections[claim.1]?).any fun c =>
    decide (c.admission.allowedLabel = none ∧ c.admission.lease.accountId ≠ accountId ∧
      s.server.grantedLabel c claim.2 = some label)) = true) (by
    simp only [Option.any_eq_true, decide_eq_true_eq]
    rfl)

/-- A step under a well-formed policy keeps a reservation exactly when it does not squat. -/
theorem reserves_step (coherent : s.server.Coherent) {credentials : List StaticCredential}
    (wellFormed : WellFormed credentials) (backed : s.Backed (· ∈ credentials))
    {owner : StaticCredential} (member : owner ∈ credentials) {label : String}
    (assigned : owner.allowedLabel = some label) (reserves : s.server.Reserves owner.accountId label)
    (moved : s.step sha256 a = some s') :
    s'.server.Reserves owner.accountId label ↔ ¬ s.Squats owner.accountId label a := by
  by_cases claims : ∃ i phrases, a = .server (.claim i phrases)
  · obtain ⟨i, phrases, rfl⟩ := claims
    obtain ⟨server, stepped, rfl⟩ := Option.map_eq_some_iff.mp moved
    obtain ⟨c, found, stepped⟩ := Option.bind_eq_some_iff.mp stepped
    split at stepped <;> cases stepped
    next waiting =>
      have hello : c.hello ∈ s.server.connections.map Server.Connection.hello :=
        List.mem_map_of_mem (List.mem_of_getElem? found)
      obtain ⟨d, leaseId, expires, backs, admission⟩ := backed.connections c.hello hello
      have has := backs.has
      have admission : c.admission = d.admission leaseId expires := admission
      refine (coherent.reserves_claim_iff found waiting reserves).trans (not_congr ?_)
      constructor
      · rintro ⟨granted, other⟩
        refine ⟨(i, phrases), rfl, c, found, ?_, other, granted⟩
        -- a credential that has a label of its own gets that one, which is its account's
        cases own : c.admission.allowedLabel with
        | none => rfl
        | some label' =>
          obtain ⟨url, ok⟩ := Server.prepareClaim_of_granted granted
          obtain ⟨fits, -⟩ :=
            Server.authorizeClaim_eq_none_iff.mp (Server.prepareClaim_ok ok).2.1
          have kept : d.allowedLabel = some label' := by
            rw [admission] at own
            exact own
          obtain ⟨-, same⟩ := fits label' own
          rw [lower_of_validLabel ((wellFormed.each d has).allowedLabel label' kept)] at same
          subst same
          refine absurd ?_ other
          rw [admission]
          exact wellFormed.owners d has owner member label kept assigned
      · rintro ⟨claim, here, c', found', -, other, granted⟩
        cases here
        rw [Option.mem_def, found] at found'
        cases found'
        exact ⟨granted, other⟩
  · refine iff_of_true ?_ fun squats => ?_
    · rcases step_server moved with alone | ⟨b, carries, stepped⟩
      · rw [alone]
        exact reserves
      · refine coherent.reserves_step stepped (fun i phrases same => ?_) reserves
        subst same
        cases carries with
        | server b own => exact claims ⟨i, phrases, rfl⟩
    · obtain ⟨claim, here, -⟩ := squats
      exact claims ⟨claim.1, claim.2, Action.claim?_eq_some here⟩

/-- A policy that reserves a label for one of two accounts. -/
def reservingFile : PolicyFile :=
  .snapshot (1, 2, 3, 4, 5) (.json (.object [("schema_version", .int 1), ("credentials", .array
    [.object [("credential_id", .str "cred-a"), ("account_id", .str "a"), ("allowed_label", .str "api"),
      ("token_sha256", .str "8ed3f6ad685b959ead7022518e1af76cd816f8e8ec7ccdda1ed4018e8f2223f8")],
    .object [("credential_id", .str "cred-b"), ("account_id", .str "b"),
      ("token_sha256", .str "f44e64e75f3948e9f73f8dfa94721c4ce8cbb4f265c4790c702b2d41cfbf2753")]])]))

/-- SHA-256 of two tokens. -/
def digest (token : String) : String :=
  if token = "alpha" then "8ed3f6ad685b959ead7022518e1af76cd816f8e8ec7ccdda1ed4018e8f2223f8"
  else if token = "beta" then "f44e64e75f3948e9f73f8dfa94721c4ce8cbb4f265c4790c702b2d41cfbf2753"
  else ""

/-- An agent with this token asks for the label and goes on. -/
def arrives (k : Nat) (token leaseId : String) (rest : List Server.Action) : List Action :=
  [.hello (PyStr.ofString token) (some "api") .http .default, .admitTunnel k reservingFile leaseId,
    .admitted k] ++ rest.map .server

theorem file_of_arrives {k : Nat} {token leaseId : String} {rest : List Server.Action}
    {file : PolicyFile} (member : a ∈ arrives k token leaseId rest) (reads : a.file = some file) :
    file = reservingFile := by
  rcases List.mem_append.mp member with calls | served
  · simp only [List.mem_cons, List.not_mem_nil, or_false] at calls
    rcases calls with rfl | rfl | rfl
    · cases reads
    · cases reads
      rfl
    · cases reads
  · obtain ⟨b, -, rfl⟩ := List.mem_map.mp served
    cases reads

/-- The other account, whose credential reserves nothing, comes first. -/
def squatted : List Action :=
  arrives 0 "beta" "first" (Server.setUp 0) ++ arrives 1 "alpha" "second" [.claim 1 fun _ => ""]

end PolicyRelay

end Chute
