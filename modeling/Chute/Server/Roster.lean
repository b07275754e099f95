import Mathlib.Data.Finset.Card
import Mathlib.Data.List.AList

/-!
# The label table of a relay

What the registry of the relay is for, without its indexes: connections claim a label,
hold it while they are being set up, become the one that serves it, and leave. A
connection is known by its number.
-/
namespace Chute

namespace Roster

inductive Stage
  | waiting
  | refused
  | claimed (label : String)
  | installed (label : String)
  deriving DecidableEq, Repr

/-- What a connection was admitted with, and how far it came. -/
structure Entry where
  account : String
  lease : String
  maxTunnels : Nat
  stage : Stage
  deriving DecidableEq, Repr

end Roster

structure Roster where
  maxAgents : Nat
  entries : List Roster.Entry
  /-- Which connection serves a label, and which one is about to. -/
  agents : AList fun _ : String => Nat
  pending : AList fun _ : String => Nat

namespace Roster

inductive Move
  | admitTunnel (account lease : String) (maxTunnels : Nat)
  | refuse (i : Nat)
  | claim (i : Nat) (label : String)
  | drop (i : Nat) (label : String)
  | install (i : Nat) (label : String)
  | remove (i : Nat) (label : String)
  deriving DecidableEq, Repr

def account (r : Roster) (i : Nat) : Option String := (r.entries[i]?).map Entry.account

def lease (r : Roster) (i : Nat) : Option String := (r.entries[i]?).map Entry.lease

def stage (r : Roster) (i : Nat) : Option Stage := (r.entries[i]?).map Entry.stage

/-- The account, and the lease, under which a label is served. -/
def activeAccount (r : Roster) (label : String) : Option String :=
  (r.agents.lookup label).bind r.account

def activeLease (r : Roster) (label : String) : Option String :=
  (r.agents.lookup label).bind r.lease

def pendingAccount (r : Roster) (label : String) : Option String :=
  (r.pending.lookup label).bind r.account

def pendingLease (r : Roster) (label : String) : Option String :=
  (r.pending.lookup label).bind r.lease

/-- The labels in use. -/
def labels (r : Roster) : Finset String := r.agents.keys.toFinset ∪ r.pending.keys.toFinset

/-- The labels an account serves or is about to serve. -/
def owned (r : Roster) (account : String) : Finset String :=
  r.labels.filter fun label =>
    r.activeAccount label = some account ∨ r.pendingAccount label = some account

/-- The move ends a registration. -/
def Move.Ends (m : Move) (i : Nat) (label : String) : Prop := m = .remove i label ∨ m = .drop i label

/-- The move decides a claim. -/
def Move.Decides (m : Move) (i : Nat) : Prop := m = .refuse i ∨ ∃ label, m = .claim i label

/-- The label is free for the connection, and neither its account nor the relay grows
past its cap. -/
structure Permits (r : Roster) (e : Entry) (label : String) : Prop where
  holder : ∀ account, r.activeAccount label = some account → account = e.account
  free : r.pending.lookup label = none
  tunnels : label ∈ r.owned e.account ∨ (r.owned e.account).card < e.maxTunnels
  relay : label ∈ r.agents ∨ r.agents.keys.length + r.pending.keys.length < r.maxAgents

def setStage (r : Roster) (i : Nat) (stage : Stage) : Roster :=
  { r with entries := r.entries.modify i fun e => { e with stage := stage } }

/-- How the table changes. -/
inductive Steps (r : Roster) : Move → Roster → Prop
  | admitTunnel (account lease : String) (maxTunnels : Nat) :
      Steps r (.admitTunnel account lease maxTunnels)
        { r with entries := r.entries ++ [⟨account, lease, maxTunnels, .waiting⟩] }
  | refuse (i : Nat) (waiting : r.stage i = some .waiting) :
      Steps r (.refuse i) (r.setStage i .refused)
  | claim (i : Nat) (e : Entry) (label : String) (found : r.entries[i]? = some e)
      (waiting : e.stage = .waiting) (permits : r.Permits e label) :
      Steps r (.claim i label)
        { r.setStage i (.claimed label) with pending := r.pending.insert label i }
  | drop (i : Nat) (label : String) (held : r.pending.lookup label = some i) :
      Steps r (.drop i label) { r with pending := r.pending.erase label }
  | install (i : Nat) (label : String) (held : r.pending.lookup label = some i) :
      Steps r (.install i label)
        { r.setStage i (.installed label) with
          pending := r.pending.erase label
          agents := r.agents.insert label i }
  | remove (i : Nat) (label : String) (held : r.agents.lookup label = some i) :
      Steps r (.remove i label) { r with agents := r.agents.erase label }

/-- Several changes in a row. -/
inductive Runs : Roster → List Move → Roster → Prop
  | nil (r : Roster) : Runs r [] r
  | cons {r r' r'' : Roster} {m : Move} {ms : List Move} (first : Steps r m r')
      (rest : Runs r' ms r'') : Runs r (m :: ms) r''

variable {r r' r'' : Roster} {m : Move} {ms ns : List Move}

theorem Steps.runs (step : Steps r m r') : Runs r [m] r' := .cons step (.nil r')

theorem Runs.append (first : Runs r ms r') (second : Runs r' ns r'') : Runs r (ms ++ ns) r'' := by
  induction first with
  | nil => exact second
  | cons step rest ih => exact .cons step (ih second)

/-! ### Where a connection stands -/

@[simp] theorem agents_setStage (i : Nat) (t : Stage) : (r.setStage i t).agents = r.agents := rfl

@[simp] theorem pending_setStage (i : Nat) (t : Stage) : (r.setStage i t).pending = r.pending := rfl

theorem account_setStage (i j : Nat) (t : Stage) : (r.setStage i t).account j = r.account j := by
  unfold account setStage
  rw [List.getElem?_modify]
  cases r.entries[j]? with
  | none => rfl
  | some e => by_cases same : i = j <;> simp [same]

theorem lease_setStage (i j : Nat) (t : Stage) : (r.setStage i t).lease j = r.lease j := by
  unfold lease setStage
  rw [List.getElem?_modify]
  cases r.entries[j]? with
  | none => rfl
  | some e => by_cases same : i = j <;> simp [same]

theorem stage_setStage (i j : Nat) (t : Stage) :
    (r.setStage i t).stage j = if i = j then (r.stage j).map fun _ => t else r.stage j := by
  unfold stage setStage
  rw [List.getElem?_modify]
  cases r.entries[j]? with
  | none => simp
  | some e => by_cases same : i = j <;> simp [same]

/-- The table is consistent: a connection serves, or is about to serve, only the label it
claimed, and one account holds a label. -/
structure Sound (r : Roster) : Prop where
  active : ∀ label i, r.agents.lookup label = some i → r.stage i = some (.installed label)
  pending : ∀ label i, r.pending.lookup label = some i → r.stage i = some (.claimed label)
  agree : ∀ label a b, r.activeAccount label = some a → r.pendingAccount label = some b → a = b
  cap : r.labels.card ≤ r.maxAgents

/-- What a change leaves of a connection that is known. -/
theorem Steps.entry (step : Steps r m r') {i : Nat} {e : Entry} (found : r.entries[i]? = some e) :
    ∃ e', r'.entries[i]? = some e' ∧ e'.account = e.account ∧ e'.lease = e.lease ∧
      e'.maxTunnels = e.maxTunnels ∧ (e.stage ≠ .waiting → e'.stage ≠ .waiting) := by
  have staged : ∀ j t, t ≠ Stage.waiting → ∃ e', (r.setStage j t).entries[i]? = some e' ∧
      e'.account = e.account ∧ e'.lease = e.lease ∧ e'.maxTunnels = e.maxTunnels ∧
      (e.stage ≠ .waiting → e'.stage ≠ .waiting) := by
    intro j t past
    unfold setStage
    rw [List.getElem?_modify, found]
    by_cases same : j = i
    · exact ⟨_, rfl, by simp [same], by simp [same], by simp [same], by simp [same, past]⟩
    · exact ⟨e, by simp [same], rfl, rfl, rfl, id⟩
  cases step with
  | admitTunnel account lease maxTunnels =>
    have short := (List.getElem?_eq_some_iff.mp found).1
    exact ⟨e, by simp [List.getElem?_append_left short, found], rfl, rfl, rfl, id⟩
  | refuse j => exact staged j _ (by simp)
  | claim j e' label => exact staged j _ (by simp)
  | drop j label => exact ⟨e, found, rfl, rfl, rfl, id⟩
  | install j label => exact staged j _ (by simp)
  | remove j label => exact ⟨e, found, rfl, rfl, rfl, id⟩

/-- The account of a connection that was known before the change. -/
theorem Steps.account_eq (step : Steps r m r') {i : Nat} {t : Stage} (known : r.stage i = some t) :
    r'.account i = r.account i ∧ r'.lease i = r.lease i := by
  obtain ⟨e, found, -⟩ := Option.map_eq_some_iff.mp known
  obtain ⟨e', after, account, lease, -⟩ := step.entry found
  simp [Roster.account, Roster.lease, found, after, account, lease]

/-! ### Who holds a label -/

/-- A label keeps its server unless the server is removed or a pending one takes over. -/
theorem Steps.agents_eq (step : Steps r m r') {label : String} {i : Nat}
    (serves : r.agents.lookup label = some i) :
    r'.agents.lookup label = some i ∨ m = .remove i label ∨
      ∃ j, m = .install j label ∧ r.pending.lookup label = some j := by
  cases step with
  | install j other held =>
    by_cases same : label = other
    · subst same
      exact Or.inr (Or.inr ⟨j, rfl, held⟩)
    · exact Or.inl (by simp [AList.lookup_insert_ne same, serves])
  | remove j other held =>
    by_cases same : label = other
    · subst same
      rw [serves] at held
      cases held
      exact Or.inr (Or.inl rfl)
    · exact Or.inl (by simp [AList.lookup_erase_ne same, serves])
  | _ => exact Or.inl serves

/-- Who serves a label after a change served it before or was pending for it. -/
theorem Steps.agents_from (step : Steps r m r') {label : String} {i : Nat}
    (serves : r'.agents.lookup label = some i) :
    r.agents.lookup label = some i ∨ m = .install i label ∧ r.pending.lookup label = some i := by
  cases step with
  | install j other held =>
    by_cases same : label = other
    · subst same
      rw [AList.lookup_insert] at serves
      cases serves
      exact Or.inr ⟨rfl, held⟩
    · rw [AList.lookup_insert_ne same] at serves
      exact Or.inl serves
  | remove j other held =>
    by_cases same : label = other
    · subst same
      rw [AList.lookup_erase] at serves
      cases serves
    · rw [AList.lookup_erase_ne same] at serves
      exact Or.inl serves
  | _ => exact Or.inl serves

/-- Who is pending for a label after a change was pending before or claims it now. -/
theorem Steps.pending_from (step : Steps r m r') {label : String} {i : Nat}
    (holds : r'.pending.lookup label = some i) :
    r.pending.lookup label = some i ∨
      m = .claim i label ∧ ∃ e, r.entries[i]? = some e ∧ e.stage = .waiting ∧ r.Permits e label := by
  cases step with
  | claim j e other found waiting permits =>
    by_cases same : label = other
    · subst same
      rw [AList.lookup_insert] at holds
      cases holds
      exact Or.inr ⟨rfl, e, found, waiting, permits⟩
    · rw [AList.lookup_insert_ne same] at holds
      exact Or.inl holds
  | drop j other held =>
    by_cases same : label = other
    · subst same
      rw [AList.lookup_erase] at holds
      cases holds
    · rw [AList.lookup_erase_ne same] at holds
      exact Or.inl holds
  | install j other held =>
    by_cases same : label = other
    · subst same
      rw [AList.lookup_erase] at holds
      cases holds
    · rw [AList.lookup_erase_ne same] at holds
      exact Or.inl holds
  | _ => exact Or.inl holds

section

variable (sound : r.Sound) (step : Steps r m r')

include sound step

/-- An account that serves a label served it before or had it pending. -/
theorem Sound.activeAccount_from {label a : String} (serves : r'.activeAccount label = some a) :
    r.activeAccount label = some a ∨
      ∃ i, m = .install i label ∧ r.pendingAccount label = some a := by
  obtain ⟨i, here, account⟩ := Option.bind_eq_some_iff.mp serves
  rcases step.agents_from here with before | ⟨installs, held⟩
  · rw [(step.account_eq (sound.active label i before)).1] at account
    exact Or.inl (Option.bind_eq_some_iff.mpr ⟨i, before, account⟩)
  · rw [(step.account_eq (sound.pending label i held)).1] at account
    exact Or.inr ⟨i, installs, Option.bind_eq_some_iff.mpr ⟨i, held, account⟩⟩

/-- An account that has a label pending had it pending before or claims it now. -/
theorem Sound.pendingAccount_from {label a : String} (holds : r'.pendingAccount label = some a) :
    r.pendingAccount label = some a ∨
      ∃ i e, m = .claim i label ∧ r.entries[i]? = some e ∧ e.account = a ∧ r.Permits e label := by
  obtain ⟨i, here, account⟩ := Option.bind_eq_some_iff.mp holds
  rcases step.pending_from here with before | ⟨claims, e, found, waiting, permits⟩
  · rw [(step.account_eq (sound.pending label i before)).1] at account
    exact Or.inl (Option.bind_eq_some_iff.mpr ⟨i, before, account⟩)
  · have known : r.stage i = some .waiting := by simp [stage, found, waiting]
    rw [(step.account_eq known).1] at account
    simp only [Roster.account, found, Option.map_some, Option.some.injEq] at account
    exact Or.inr ⟨i, e, claims, found, account, permits⟩

end

/-- One account has a label. -/
theorem Sound.owner_unique (sound : r.Sound) {label a b : String}
    (one : r.activeAccount label = some a ∨ r.pendingAccount label = some a)
    (other : r.activeAccount label = some b ∨ r.pendingAccount label = some b) : b = a := by
  rcases one with serves | holds
  · rcases other with serves' | holds'
    · exact Option.some.inj (serves'.symm.trans serves)
    · exact (sound.agree label a b serves holds').symm
  · rcases other with serves' | holds'
    · exact sound.agree label b a serves' holds
    · exact Option.some.inj (holds'.symm.trans holds)

/-- **No other account gets a label that is in use.** -/
theorem Sound.exclusive (sound : r.Sound) (step : Steps r m r') {label a b : String}
    (before : r.activeAccount label = some a ∨ r.pendingAccount label = some a)
    (after : r'.activeAccount label = some b ∨ r'.pendingAccount label = some b) : b = a := by
  rcases after with serves | holds
  · rcases sound.activeAccount_from step serves with same | ⟨i, -, held⟩
    · exact sound.owner_unique before (Or.inl same)
    · exact sound.owner_unique before (Or.inr held)
  · rcases sound.pendingAccount_from step holds with same | ⟨i, e, -, -, rfl, permits⟩
    · exact sound.owner_unique before (Or.inr same)
    · rcases before with serves | holds'
      · exact (permits.holder a serves).symm
      · obtain ⟨j, there, -⟩ := Option.bind_eq_some_iff.mp holds'
        rw [permits.free] at there
        cases there

/-! ### The caps -/

theorem mem_labels {label : String} : label ∈ r.labels ↔ label ∈ r.agents ∨ label ∈ r.pending := by
  simp [labels, AList.mem_keys]

theorem mem_owned {label a : String} :
    label ∈ r.owned a ↔ r.activeAccount label = some a ∨ r.pendingAccount label = some a := by
  unfold owned
  rw [Finset.mem_filter, mem_labels]
  constructor
  · exact And.right
  · intro holds
    refine ⟨?_, holds⟩
    rcases holds with serves | waits
    · obtain ⟨i, here, -⟩ := Option.bind_eq_some_iff.mp serves
      exact Or.inl (AList.lookup_isSome.mp (by simp [here]))
    · obtain ⟨i, here, -⟩ := Option.bind_eq_some_iff.mp waits
      exact Or.inr (AList.lookup_isSome.mp (by simp [here]))

theorem card_labels_le : r.labels.card ≤ r.agents.keys.length + r.pending.keys.length :=
  (Finset.card_union_le _ _).trans
    (Nat.add_le_add (List.toFinset_card_le _) (List.toFinset_card_le _))

/-- Only a claim brings a label into use. -/
theorem Steps.labels_from (step : Steps r m r') {label : String} (member : label ∈ r'.labels) :
    label ∈ r.labels ∨ ∃ i, m = .claim i label := by
  rw [mem_labels] at member ⊢
  rcases member with serves | holds
  · obtain ⟨i, here⟩ := Option.isSome_iff_exists.mp (AList.lookup_isSome.mpr serves)
    rcases step.agents_from here with before | ⟨-, held⟩
    · exact Or.inl (Or.inl (AList.lookup_isSome.mp (by simp [before])))
    · exact Or.inl (Or.inr (AList.lookup_isSome.mp (by simp [held])))
  · obtain ⟨i, here⟩ := Option.isSome_iff_exists.mp (AList.lookup_isSome.mpr holds)
    rcases step.pending_from here with before | ⟨claims, -⟩
    · exact Or.inl (Or.inr (AList.lookup_isSome.mp (by simp [before])))
    · exact Or.inr ⟨i, claims⟩

theorem Steps.maxAgents_eq (step : Steps r m r') : r'.maxAgents = r.maxAgents := by
  cases step <;> rfl

theorem Steps.cap (step : Steps r m r') (cap : r.labels.card ≤ r.maxAgents) :
    r'.labels.card ≤ r'.maxAgents := by
  rw [step.maxAgents_eq]
  by_cases claims : ∃ i label, m = .claim i label
  · obtain ⟨i, label, rfl⟩ := claims
    have grows : r'.labels ⊆ insert label r.labels := by
      intro other member
      rcases step.labels_from member with old | ⟨j, same⟩
      · exact Finset.mem_insert_of_mem old
      · cases same
        exact Finset.mem_insert_self _ _
    cases step with
    | claim _ e _ found waiting permits =>
      rcases permits.relay with serves | room
      · -- a label that is served is counted already
        rw [Finset.insert_eq_of_mem (mem_labels.mpr (Or.inl serves))] at grows
        exact (Finset.card_le_card grows).trans cap
      · have bound := (Finset.card_le_card grows).trans (Finset.card_insert_le _ _)
        have both := card_labels_le (r := r)
        omega
  · have shrinks : r'.labels ⊆ r.labels := by
      intro label member
      rcases step.labels_from member with old | ⟨i, same⟩
      · exact old
      · exact absurd ⟨i, label, same⟩ claims
    exact (Finset.card_le_card shrinks).trans cap

/-- How far a connection came changes by its own claim and its own install. -/
theorem Steps.stage_from (step : Steps r m r') {i : Nat} {t : Stage} (known : r.stage i = some t) :
    r'.stage i = some t ∨ t = .waiting ∧ (m = .refuse i ∨ ∃ label, m = .claim i label) ∨
      ∃ label, m = .install i label ∧ r.pending.lookup label = some i := by
  have other : ∀ j t', j ≠ i → (r.setStage j t').stage i = some t := fun j t' ne => by
    rw [stage_setStage, if_neg ne]; exact known
  cases step with
  | admitTunnel account lease maxTunnels =>
    obtain ⟨e, found, rfl⟩ := Option.map_eq_some_iff.mp known
    have short := (List.getElem?_eq_some_iff.mp found).1
    exact Or.inl (by simp [stage, List.getElem?_append_left short, found])
  | refuse j waiting =>
    by_cases same : j = i
    · subst same
      rw [known] at waiting
      cases waiting
      exact Or.inr (Or.inl ⟨rfl, Or.inl rfl⟩)
    · exact Or.inl (other j _ same)
  | claim j e label found waiting permits =>
    by_cases same : j = i
    · subst same
      have here : r.stage j = some .waiting := by simp [stage, found, waiting]
      rw [known] at here
      cases here
      exact Or.inr (Or.inl ⟨rfl, Or.inr ⟨label, rfl⟩⟩)
    · exact Or.inl (other j _ same)
  | drop j label held => exact Or.inl known
  | install j label held =>
    by_cases same : j = i
    · subst same
      exact Or.inr (Or.inr ⟨label, rfl, held⟩)
    · exact Or.inl (other j _ same)
  | remove j label held => exact Or.inl known

theorem Sound.step (sound : r.Sound) (step : Steps r m r') : r'.Sound := by
  refine ⟨?_, ?_, ?_, step.cap sound.cap⟩
  · intro label i serves
    rcases step.agents_from serves with before | ⟨rfl, held⟩
    · have known := sound.active label i before
      rcases step.stage_from known with same | ⟨waiting, -⟩ | ⟨other, -, held⟩
      · exact same
      · cases waiting
      · rw [sound.pending other i held] at known
        cases known
    · have known := sound.pending label i held
      cases step with
      | install => exact (stage_setStage i i _).trans (by simp [known])
  · intro label i holds
    rcases step.pending_from holds with before | ⟨rfl, e, found, waiting, permits⟩
    · have known := sound.pending label i before
      rcases step.stage_from known with same | ⟨waiting, -⟩ | ⟨other, rfl, held⟩
      · exact same
      · cases waiting
      · -- the label it was pending for is the one it is installed for
        rw [sound.pending other i held] at known
        cases known
        cases step with
        | install => simp at holds
    · have known : r.stage i = some .waiting := by simp [stage, found, waiting]
      cases step with
      | claim => exact (stage_setStage i i _).trans (by simp [known])
  · intro label a b serves holds
    rcases sound.activeAccount_from step serves with before | ⟨i, installs, held⟩
    · exact (sound.exclusive step (Or.inl before) (Or.inr holds)).symm
    · exact (sound.exclusive step (Or.inr held) (Or.inr holds)).symm

theorem Sound.runs (sound : r.Sound) (runs : Runs r ms r') : r'.Sound := by
  induction runs with
  | nil => exact sound
  | cons step rest ih => exact ih (sound.step step)

/-- The account stays below its cap when all its connections carry the same one. -/
structure Within (r : Roster) (a : String) (limit : Nat) : Prop where
  sound : r.Sound
  carried : ∀ e ∈ r.entries, e.account = a → e.maxTunnels = limit
  tunnels : (r.owned a).card ≤ limit

theorem Within.step {a : String} {limit : Nat} (within : r.Within a limit) (step : Steps r m r')
    (carried : ∀ e ∈ r'.entries, e.account = a → e.maxTunnels = limit) : r'.Within a limit := by
  refine ⟨within.sound.step step, carried, ?_⟩
  -- a label that the account did not own before is one it claims in this step
  have grows : ∀ label ∈ r'.owned a, label ∈ r.owned a ∨
      ∃ i e, m = .claim i label ∧ e ∈ r.entries ∧ e.account = a ∧ r.Permits e label := by
    intro label member
    rw [mem_owned] at member ⊢
    rcases member with serves | holds
    · rcases within.sound.activeAccount_from step serves with before | ⟨i, -, held⟩
      · exact Or.inl (Or.inl before)
      · exact Or.inl (Or.inr held)
    · rcases within.sound.pendingAccount_from step holds with before | ⟨i, e, claims, found, owner, permits⟩
      · exact Or.inl (Or.inr before)
      · exact Or.inr ⟨i, e, claims, List.mem_of_getElem? found, owner, permits⟩
  by_cases new : ∃ label ∈ r'.owned a, label ∉ r.owned a
  · obtain ⟨label, member, absent⟩ := new
    rcases grows label member with old | ⟨i, e, rfl, known, owner, permits⟩
    · exact absurd old absent
    have small : (r.owned a).card < limit := by
      rcases permits.tunnels with owned | room
      · rw [owner] at owned
        exact absurd owned absent
      · rw [owner, within.carried e known owner] at room
        exact room
    have bound : r'.owned a ⊆ insert label (r.owned a) := by
      intro other inside
      rcases grows other inside with old | ⟨j, e', same, -⟩
      · exact Finset.mem_insert_of_mem old
      · cases same
        exact Finset.mem_insert_self _ _
    exact (Finset.card_le_card bound).trans ((Finset.card_insert_le _ _).trans small)
  · have bound : r'.owned a ⊆ r.owned a := by
      intro label inside
      by_contra absent
      exact new ⟨label, inside, absent⟩
    exact (Finset.card_le_card bound).trans within.tunnels

/-- What a connection was admitted with. -/
def Entry.terms (e : Entry) : String × String × Nat := (e.account, e.lease, e.maxTunnels)

theorem terms_setStage (i : Nat) (t : Stage) :
    (r.setStage i t).entries.map Entry.terms = r.entries.map Entry.terms := by
  unfold setStage
  apply List.ext_getElem?
  intro j
  simp only [List.getElem?_map, List.getElem?_modify]
  cases r.entries[j]? with
  | none => rfl
  | some e => by_cases same : i = j <;> simp [same, Entry.terms]

/-- Only an admission changes what the connections were admitted with. -/
theorem Runs.terms_eq (runs : Runs r ms r')
    (unadmitted : ∀ m ∈ ms, ∀ account lease limit, m ≠ .admitTunnel account lease limit) :
    r'.entries.map Entry.terms = r.entries.map Entry.terms := by
  induction runs with
  | nil => rfl
  | cons step rest ih =>
    refine (ih fun m member => unadmitted m (by simp [member])).trans ?_
    cases step with
    | admitTunnel account lease limit => exact absurd rfl (unadmitted _ List.mem_cons_self account lease limit)
    | refuse i waiting => exact terms_setStage i _
    | claim i e label found waiting permits => exact terms_setStage i _
    | drop i label held => rfl
    | install i label held => exact terms_setStage i _
    | remove i label held => rfl

theorem carried_of_terms {a : String} {limit : Nat} (same : r'.entries.map Entry.terms = r.entries.map Entry.terms)
    (carried : ∀ e ∈ r.entries, e.account = a → e.maxTunnels = limit) :
    ∀ e ∈ r'.entries, e.account = a → e.maxTunnels = limit := by
  intro e member owner
  have there : e.terms ∈ r.entries.map Entry.terms := same ▸ List.mem_map_of_mem member
  obtain ⟨e', member', terms⟩ := List.mem_map.mp there
  simp only [Entry.terms, Prod.mk.injEq] at terms
  rw [← terms.2.2]
  exact carried e' member' (terms.1.trans owner)

theorem Within.runs {a : String} {limit : Nat} (within : r.Within a limit) (runs : Runs r ms r')
    (unadmitted : ∀ m ∈ ms, ∀ account lease limit, m ≠ .admitTunnel account lease limit) :
    r'.Within a limit := by
  induction runs with
  | nil => exact within
  | cons step rest ih =>
    refine ih (within.step step ?_) fun m member => unadmitted m (by simp [member])
    refine carried_of_terms (step.runs.terms_eq fun m member => ?_) within.carried
    exact unadmitted m (by simp_all)

theorem Runs.maxAgents_eq (runs : Runs r ms r') : r'.maxAgents = r.maxAgents := by
  induction runs with
  | nil => rfl
  | cons step rest ih => exact ih.trans step.maxAgents_eq

/-! ### What is gone stays gone -/

/-- The connection has had its claim and is in neither table. -/
structure Gone (r : Roster) (i : Nat) : Prop where
  decided : ∃ t, r.stage i = some t ∧ t ≠ .waiting
  inactive : ∀ label, r.agents.lookup label ≠ some i
  dropped : ∀ label, r.pending.lookup label ≠ some i

theorem Steps.decided (step : Steps r m r') {i : Nat} (decided : ∃ t, r.stage i = some t ∧ t ≠ .waiting) :
    ∃ t, r'.stage i = some t ∧ t ≠ .waiting := by
  obtain ⟨t, known, past⟩ := decided
  obtain ⟨e, found, rfl⟩ := Option.map_eq_some_iff.mp known
  obtain ⟨e', after, -, -, -, still⟩ := step.entry found
  exact ⟨e'.stage, by simp [stage, after], still past⟩

/-- A connection that has had its claim does not come back to a pending label. -/
theorem Steps.not_pending (step : Steps r m r') {i : Nat} {label : String}
    (decided : ∃ t, r.stage i = some t ∧ t ≠ .waiting) (dropped : r.pending.lookup label ≠ some i) :
    r'.pending.lookup label ≠ some i := by
  intro holds
  rcases step.pending_from holds with before | ⟨-, e, found, waiting, -⟩
  · exact dropped before
  · obtain ⟨t, known, past⟩ := decided
    simp only [stage, found, Option.map_some, Option.some.injEq] at known
    exact past (known ▸ waiting)

theorem Runs.decided (runs : Runs r ms r') {i : Nat}
    (decided : ∃ t, r.stage i = some t ∧ t ≠ .waiting) : ∃ t, r'.stage i = some t ∧ t ≠ .waiting := by
  induction runs with
  | nil => exact decided
  | cons step rest ih => exact ih (step.decided decided)

/-- What a lease was issued for does not change. -/
theorem Runs.lease_eq (runs : Runs r ms r') {i : Nat} {lease : String}
    (has : r.lease i = some lease) : r'.lease i = some lease := by
  induction runs with
  | nil => exact has
  | cons step rest ih =>
    obtain ⟨e, found, same⟩ := Option.map_eq_some_iff.mp has
    obtain ⟨e', after, -, kept, -⟩ := step.entry found
    exact ih (by simp [Roster.lease, after, kept, same])

theorem Gone.step {i : Nat} (gone : r.Gone i) (step : Steps r m r') : r'.Gone i := by
  refine ⟨step.decided gone.decided, fun label serves => ?_,
    fun label => step.not_pending gone.decided (gone.dropped label)⟩
  rcases step.agents_from serves with before | ⟨-, held⟩
  · exact gone.inactive label before
  · exact gone.dropped label held

theorem Gone.runs {i : Nat} (gone : r.Gone i) (runs : Runs r ms r') : r'.Gone i := by
  induction runs with
  | nil => exact gone
  | cons step rest ih => exact ih (gone.step step)

/-- The connection had its claim granted, for this label. -/
def Holds (r : Roster) (i : Nat) (label : String) : Prop :=
  r.stage i = some (.claimed label) ∨ r.stage i = some (.installed label)

theorem Sound.holds (sound : r.Sound) {label : String} {i : Nat}
    (held : r.agents.lookup label = some i ∨ r.pending.lookup label = some i) : r.Holds i label := by
  rcases held with serves | holds
  · exact Or.inr (sound.active label i serves)
  · exact Or.inl (sound.pending label i holds)

/-- The label of a claim does not change. -/
theorem Sound.holds_runs (sound : r.Sound) (runs : Runs r ms r') {i : Nat} {label : String}
    (holds : r.Holds i label) : r'.Holds i label := by
  induction runs with
  | nil => exact holds
  | cons step rest ih =>
    refine ih (sound.step step) ?_
    rcases holds with claimed | installed
    · rcases step.stage_from claimed with same | ⟨waiting, -⟩ | ⟨other, rfl, held⟩
      · exact Or.inl same
      · cases waiting
      · -- its install, for the label it has claimed
        cases (sound.pending other i held).symm.trans claimed
        have serves := (sound.step step).active label i
        cases step with
        | install => exact Or.inr (serves (AList.lookup_insert _))
    · rcases step.stage_from installed with same | ⟨waiting, -⟩ | ⟨other, -, held⟩
      · exact Or.inr same
      · cases waiting
      · cases (sound.pending other i held).symm.trans installed

/-- A connection that has left the label it claimed is gone. -/
theorem Sound.gone (sound : r.Sound) {label : String} {i : Nat} (holds : r.Holds i label)
    (inactive : r.agents.lookup label ≠ some i) (dropped : r.pending.lookup label ≠ some i) :
    r.Gone i := by
  have here : ∀ other, r.Holds i other → other = label := by
    intro other there
    rcases holds with claimed | installed
    · rcases there with claimed' | installed'
      · cases claimed.symm.trans claimed'
        rfl
      · cases claimed.symm.trans installed'
    · rcases there with claimed' | installed'
      · cases installed.symm.trans claimed'
      · cases installed.symm.trans installed'
        rfl
  refine ⟨?_, fun other serves => ?_, fun other pending => ?_⟩
  · rcases holds with claimed | installed
    · exact ⟨_, claimed, by simp⟩
    · exact ⟨_, installed, by simp⟩
  · cases here other (sound.holds (Or.inl serves))
    exact inactive serves
  · cases here other (sound.holds (Or.inr pending))
    exact dropped pending

/-! ### Moves that only take labels away -/

/-- Connections are as they were, and the tables have lost rows at most. -/
structure Shrinks (r r' : Roster) : Prop where
  entries : r'.entries = r.entries
  agents : ∀ label i, r'.agents.lookup label = some i → r.agents.lookup label = some i
  pending : ∀ label i, r'.pending.lookup label = some i → r.pending.lookup label = some i

theorem Shrinks.refl (r : Roster) : Shrinks r r := ⟨rfl, fun _ _ => id, fun _ _ => id⟩

theorem Shrinks.trans (first : Shrinks r r') (second : Shrinks r' r'') : Shrinks r r'' :=
  ⟨second.entries.trans first.entries,
    fun label i serves => first.agents label i (second.agents label i serves),
    fun label i holds => first.pending label i (second.pending label i holds)⟩

theorem Shrinks.activeLease (shrinks : Shrinks r r') {label lease : String}
    (after : r'.activeLease label = some lease) : r.activeLease label = some lease := by
  obtain ⟨i, serves, has⟩ := Option.bind_eq_some_iff.mp after
  simp only [Roster.lease, shrinks.entries] at has
  exact Option.bind_eq_some_iff.mpr ⟨i, shrinks.agents label i serves, has⟩

theorem Shrinks.pendingLease (shrinks : Shrinks r r') {label lease : String}
    (after : r'.pendingLease label = some lease) : r.pendingLease label = some lease := by
  obtain ⟨i, holds, has⟩ := Option.bind_eq_some_iff.mp after
  simp only [Roster.lease, shrinks.entries] at has
  exact Option.bind_eq_some_iff.mpr ⟨i, shrinks.pending label i holds, has⟩

/-- No label is served, or about to be, under the lease. -/
def Without (r : Roster) (lease : String) : Prop :=
  ∀ label, r.activeLease label ≠ some lease ∧ r.pendingLease label ≠ some lease

theorem Shrinks.without (shrinks : Shrinks r r') {lease : String} (without : r.Without lease) :
    r'.Without lease := fun label =>
  ⟨fun active => (without label).1 (shrinks.activeLease active),
    fun pending => (without label).2 (shrinks.pendingLease pending)⟩

theorem Steps.shrinks (step : Steps r m r') {i : Nat} {label : String} (ends : m.Ends i label) :
    Shrinks r r' := by
  refine ⟨?_, fun other j serves => ?_, fun other j holds => ?_⟩
  · rcases ends with rfl | rfl <;> cases step <;> rfl
  · rcases step.agents_from serves with before | ⟨installs, -⟩
    · exact before
    · rcases ends with rfl | rfl <;> cases installs
  · rcases step.pending_from holds with before | ⟨claims, -⟩
    · exact before
    · rcases ends with rfl | rfl <;> cases claims

theorem Runs.shrinks (runs : Runs r ms r') (ends : ∀ m ∈ ms, ∃ i label, m.Ends i label) :
    Shrinks r r' := by
  induction runs with
  | nil r => exact .refl r
  | cons step rest ih =>
    obtain ⟨i, label, here⟩ := ends _ List.mem_cons_self
    exact (step.shrinks here).trans (ih fun m member => ends m (by simp [member]))

/-- A server that no move of the run ends or replaces keeps its label. -/
theorem Runs.agents_eq (runs : Runs r ms r') {label : String} {i : Nat}
    (spared : ∀ m ∈ ms, m ≠ .remove i label ∧ ∀ j, m ≠ .install j label)
    (serves : r.agents.lookup label = some i) : r'.agents.lookup label = some i := by
  induction runs with
  | nil => exact serves
  | cons step rest ih =>
    have here := spared _ List.mem_cons_self
    rcases step.agents_eq serves with still | removes | ⟨j, installs, -⟩
    · exact ih (fun m member => spared m (by simp [member])) still
    · exact absurd removes here.1
    · exact absurd installs (here.2 j)

theorem Steps.pending_eq (step : Steps r m r') {label : String} {i : Nat}
    (holds : r.pending.lookup label = some i) :
    r'.pending.lookup label = some i ∨ m = .drop i label ∨ m = .install i label := by
  cases step with
  | claim j e other found waiting permits =>
    have apart : label ≠ other := by
      rintro rfl
      rw [permits.free] at holds
      cases holds
    exact Or.inl (by simp [AList.lookup_insert_ne apart, holds])
  | drop j other held =>
    by_cases same : label = other
    · subst same
      rw [holds] at held
      cases held
      exact Or.inr (Or.inl rfl)
    · exact Or.inl (by simp [AList.lookup_erase_ne same, holds])
  | install j other held =>
    by_cases same : label = other
    · subst same
      rw [holds] at held
      cases held
      exact Or.inr (Or.inr rfl)
    · exact Or.inl (by simp [AList.lookup_erase_ne same, holds])
  | _ => exact Or.inl holds

theorem Runs.pending_eq (runs : Runs r ms r') {label : String} {i : Nat}
    (spared : ∀ m ∈ ms, m ≠ .drop i label ∧ m ≠ .install i label)
    (holds : r.pending.lookup label = some i) : r'.pending.lookup label = some i := by
  induction runs with
  | nil => exact holds
  | cons step rest ih =>
    have here := spared _ List.mem_cons_self
    rcases step.pending_eq holds with still | drops | installs
    · exact ih (fun m member => spared m (by simp [member])) still
    · exact absurd drops here.1
    · exact absurd installs here.2

/-! ### Moves that claim, and moves that do not -/

/-- Without a claim, who is pending for a label was so before. -/
theorem Runs.pending_from (runs : Runs r ms r') (unclaimed : ∀ m ∈ ms, ∀ i label, m ≠ .claim i label)
    {label : String} {i : Nat} (holds : r'.pending.lookup label = some i) :
    r.pending.lookup label = some i := by
  induction runs with
  | nil => exact holds
  | cons step rest ih =>
    have later := ih (fun m member => unclaimed m (by simp [member])) holds
    rcases step.pending_from later with before | ⟨claims, -⟩
    · exact before
    · exact absurd claims (unclaimed _ List.mem_cons_self i label)

/-- Without a claim, who serves a label served it or was pending for it. -/
theorem Runs.agents_from (runs : Runs r ms r') (unclaimed : ∀ m ∈ ms, ∀ i label, m ≠ .claim i label)
    {label : String} {i : Nat} (serves : r'.agents.lookup label = some i) :
    r.agents.lookup label = some i ∨ r.pending.lookup label = some i := by
  induction runs with
  | nil => exact Or.inl serves
  | cons step rest ih =>
    rcases ih (fun m member => unclaimed m (by simp [member])) serves with later | held
    · rcases step.agents_from later with before | ⟨-, before⟩
      · exact Or.inl before
      · exact Or.inr before
    · exact Or.inr (step.runs.pending_from
        (fun m member => unclaimed m (by simp_all)) held)

/-- Without a claim, a server that no move removes keeps its label or gives it to the one
that was pending for it. -/
theorem Runs.agents_kept (runs : Runs r ms r') (unclaimed : ∀ m ∈ ms, ∀ i label, m ≠ .claim i label)
    {label : String} {i : Nat} (spared : ∀ m ∈ ms, m ≠ .remove i label)
    (serves : r.agents.lookup label = some i) :
    r'.agents.lookup label = some i ∨
      ∃ j, .install j label ∈ ms ∧ r.pending.lookup label = some j := by
  induction runs with
  | nil => exact Or.inl serves
  | cons step rest ih =>
    rcases step.agents_eq serves with still | removes | ⟨j, installs, held⟩
    · rcases ih (fun m member => unclaimed m (by simp [member]))
        (fun m member => spared m (by simp [member])) still with kept | ⟨j, member, held⟩
      · exact Or.inl kept
      · exact Or.inr ⟨j, List.mem_cons_of_mem _ member, step.runs.pending_from
          (fun m here => unclaimed m (by simp_all)) held⟩
    · exact absurd removes (spared _ List.mem_cons_self)
    · exact Or.inr ⟨j, by simp [installs], held⟩

/-- Without a claim an account gets no label. -/
theorem Runs.owned_from (sound : r.Sound) (runs : Runs r ms r')
    (unclaimed : ∀ m ∈ ms, ∀ i label, m ≠ .claim i label) {label a : String}
    (after : label ∈ r'.owned a) : label ∈ r.owned a := by
  induction runs with
  | nil => exact after
  | cons step rest ih =>
    have later := ih (sound.step step) (fun m member => unclaimed m (by simp [member])) after
    rw [mem_owned] at later ⊢
    rcases later with serves | holds
    · rcases sound.activeAccount_from step serves with before | ⟨i, -, held⟩
      · exact Or.inl before
      · exact Or.inr held
    · rcases sound.pendingAccount_from step holds with before | ⟨i, e, claims, -⟩
      · exact Or.inr before
      · exact absurd claims (unclaimed _ List.mem_cons_self i label)

/-- A claim takes no label away, granted or not. -/
theorem Runs.owned_of_decides (sound : r.Sound) (runs : Runs r ms r') {i : Nat}
    (decides : ∀ m ∈ ms, m.Decides i) {label a : String} (before : label ∈ r.owned a) :
    label ∈ r'.owned a := by
  induction runs with
  | nil => exact before
  | cons step rest ih =>
    refine ih (sound.step step) (fun m member => decides m (by simp [member])) ?_
    have here := decides _ List.mem_cons_self
    rw [mem_owned] at before ⊢
    rcases before with serves | holds
    · obtain ⟨j, active, account⟩ := Option.bind_eq_some_iff.mp serves
      rw [← (step.account_eq (sound.active label j active)).1] at account
      rcases step.agents_eq active with still | rfl | ⟨k, rfl, -⟩
      · exact Or.inl (Option.bind_eq_some_iff.mpr ⟨j, still, account⟩)
      · rcases here with same | ⟨l, same⟩ <;> cases same
      · rcases here with same | ⟨l, same⟩ <;> cases same
    · obtain ⟨j, pending, account⟩ := Option.bind_eq_some_iff.mp holds
      rw [← (step.account_eq (sound.pending label j pending)).1] at account
      rcases step.pending_eq pending with still | rfl | rfl
      · exact Or.inr (Option.bind_eq_some_iff.mpr ⟨j, still, account⟩)
      · rcases here with same | ⟨l, same⟩ <;> cases same
      · rcases here with same | ⟨l, same⟩ <;> cases same

/-- A connection that has had its claim and is not pending for a label never will be. -/
theorem Runs.not_pending (runs : Runs r ms r') {i : Nat} {label : String}
    (decided : ∃ t, r.stage i = some t ∧ t ≠ .waiting) (dropped : r.pending.lookup label ≠ some i) :
    r'.pending.lookup label ≠ some i := by
  induction runs with
  | nil => exact dropped
  | cons step rest ih => exact ih (step.decided decided) (step.not_pending decided dropped)

end Roster

end Chute
