import Chute.Pair.Basic

/-!
# What is on the wire

The frames in flight between the two ends are well formed, belong to streams the
server has opened, and a stream's OPEN is ahead of everything else about it. Each
side makes at most one stream object for an id.
-/
namespace Chute

/-- The frames that the two ends send. -/
def Frame.WellFormed (f : Frame) : Prop :=
  match f.ftype with
  | .goaway => f.sid = 0 ∧ f.payload = []
  | .data => f.sid ≠ 0 ∧ f.payload ≠ []
  | .windowUpdate => f.sid ≠ 0 ∧ ∃ delta : UInt32, delta ≠ 0 ∧ f.payload = packU32 delta
  | _ => f.sid ≠ 0 ∧ f.payload = []

theorem Frame.WellFormed.sid_ne_zero {f : Frame} (formed : f.WellFormed) (type : f.ftype ≠ .goaway) :
    f.sid ≠ 0 := by
  obtain ⟨ftype, sid, payload⟩ := f
  cases ftype with
  | goaway => exact absurd rfl type
  | open_ => exact formed.1
  | data => exact formed.1
  | eof => exact formed.1
  | reset => exact formed.1
  | windowUpdate => exact formed.1

namespace Pair

/-- How many OPENs for an id are in a list of frames. -/
def opensOf (sid : StreamId) (frames : List Frame) : Nat :=
  frames.countP fun f => f.ftype = .open_ ∧ f.sid = sid

structure Wired (S : Setup) (p : Pair) : Prop where
  config : ∀ x, (p.mux x).config = S.config x
  accounted : ∀ x, (p.mux x).Accounted
  /-- An id is used for one object at most. -/
  once : ∀ sid, (p.mux .server).made sid ≤ 1
  objects : ∀ x r, r.gen < (p.mux x).made r.sid → ∃ s, (p.mux x).heap r = some s
  /-- The agent has an object, or the OPEN is in flight, only for the server's ids. -/
  opens : ∀ sid, (p.mux .agent).made sid + opensOf sid (p.wire .server) ≤ (p.mux .server).made sid
  formed : ∀ x, ∀ f ∈ p.wire x, f.WellFormed
  known : ∀ x, ∀ f ∈ p.wire x, f.ftype ≠ .goaway → 0 < (p.mux .server).made f.sid
  responder : ∀ f ∈ p.wire .agent, f.ftype ≠ .open_
  /-- A stream's OPEN is ahead of everything else about it. -/
  order : ∀ sid, 0 < opensOf sid (p.wire .server) →
    ∃ rest, about sid (p.wire .server) = ⟨.open_, sid, []⟩ :: rest
  resets : ∀ x r, .reset r ∈ (p.mux x).tasks → ∃ s, (p.mux x).heap r = some s
  sendOnces : ∀ x sid, .sendOnce sid ∈ (p.mux x).tasks →
    sid ≠ 0 ∧ 0 < (p.mux .server).made sid

theorem wired_new (S : Setup) : (new S).Wired S := by
  constructor
  case accounted => exact fun x => Mux.accounted_new _
  all_goals simp [new, Mux.new, opensOf]

section

variable {S : Setup} {p : Pair}

/-- Objects exist only for ids the server has allocated. -/
theorem Wired.known_of_heap (wired : p.Wired S) {x : Side} {r : Ref} {s : Stream}
    (found : (p.mux x).heap r = some s) : r.gen = 0 ∧ r.sid ≠ 0 ∧ 0 < (p.mux .server).made r.sid := by
  have fresh := (wired.accounted x).fresh r s found
  have once := wired.once r.sid
  have opens := wired.opens r.sid
  have bound : (p.mux x).made r.sid ≤ (p.mux .server).made r.sid := by
    cases x
    · exact le_refl _
    · omega
  exact ⟨by omega, fresh.2, by omega⟩

theorem opensOf_append (sid : StreamId) (first second : List Frame) :
    opensOf sid (first ++ second) = opensOf sid first + opensOf sid second :=
  List.countP_append

theorem opensOf_eq_zero {sid : StreamId} {frames : List Frame}
    (none : ∀ f ∈ frames, f.ftype ≠ .open_) : opensOf sid frames = 0 := by
  apply List.countP_eq_zero.mpr
  intro f member
  simp [none f member]

/-- A side moved without allocating an id. -/
theorem Wired.extend (wired : p.Wired S) {x : Side} {m : Mux} {out : List Frame}
    (ledger : Side → Ref → Ledger) (config : m.config = (p.mux x).config) (acc : m.Accounted)
    (made : m.made = (p.mux x).made)
    (kept : ∀ r s, (p.mux x).heap r = some s → ∃ t, m.heap r = some t)
    (resets : ∀ r, .reset r ∈ m.tasks → ∃ s, (p.mux x).heap r = some s)
    (sendOnces : ∀ sid, .sendOnce sid ∈ m.tasks → .sendOnce sid ∈ (p.mux x).tasks)
    (formed : ∀ f ∈ out, f.WellFormed)
    (known : ∀ f ∈ out, f.ftype ≠ .goaway → 0 < (p.mux .server).made f.sid)
    (closed : ∀ f ∈ out, f.ftype ≠ .open_) :
    Wired S ⟨Function.update p.mux x m, Function.update p.wire x (p.wire x ++ out), ledger⟩ := by
  have made' : ∀ y, (Function.update p.mux x m y).made = (p.mux y).made := by
    intro y
    by_cases same : y = x
    · subst same; simp [made]
    · simp [same]
  have opens' : ∀ y sid, opensOf sid (Function.update p.wire x (p.wire x ++ out) y) =
      opensOf sid (p.wire y) := by
    intro y sid
    by_cases same : y = x
    · subst same
      simp [opensOf_append, opensOf_eq_zero closed]
    · simp [same]
  have inside : ∀ y, ∀ f ∈ Function.update p.wire x (p.wire x ++ out) y,
      f ∈ p.wire y ∨ f ∈ out := by
    intro y f member
    by_cases same : y = x
    · subst same
      simpa using member
    · exact Or.inl (by simpa [same] using member)
  constructor
  · intro y
    by_cases same : y = x
    · subst same; simpa [config] using wired.config y
    · simpa [same] using wired.config y
  · intro y
    by_cases same : y = x
    · subst same; simpa using acc
    · simpa [same] using wired.accounted y
  · intro sid
    simpa only [made'] using wired.once sid
  · intro y r below
    simp only [made'] at below
    obtain ⟨s, found⟩ := wired.objects y r below
    by_cases same : y = x
    · subst same; simpa using kept r s found
    · simpa [same] using ⟨s, found⟩
  · intro sid
    simpa only [made', opens'] using wired.opens sid
  · intro y f member
    exact (inside y f member).elim (wired.formed y f) (formed f)
  · intro y f member type
    simp only [made']
    exact (inside y f member).elim (fun old => wired.known y f old type)
      (fun new => known f new type)
  · intro f member
    exact (inside .agent f member).elim (wired.responder f) (closed f)
  · intro sid positive
    simp only [opens'] at positive
    obtain ⟨rest, first⟩ := wired.order sid positive
    by_cases same : Side.server = x
    · subst same
      exact ⟨rest ++ about sid out, by
        simp only [about, Function.update_self, List.filter_append] at first ⊢
        rw [first]
        rfl⟩
    · exact ⟨rest, by simpa [same] using first⟩
  · intro y r task
    by_cases same : y = x
    · subst same
      simp only [Function.update_self] at task ⊢
      obtain ⟨s, found⟩ := resets r task
      exact kept r s found
    · simp only [Function.update_of_ne same] at task ⊢
      exact wired.resets y r task
  · intro y sid task
    simp only [made']
    by_cases same : y = x
    · subst same
      exact wired.sendOnces y sid (sendOnces sid (by simpa using task))
    · exact wired.sendOnces y sid (by simpa [same] using task)

/-- The frames of a step that is not an opening. -/
theorem Wired.emitted (wired : p.Wired S) {x : Side} {env : Env} {a : Chute.Action} {f : Frame}
    (emitted : ((p.mux x).host env).Emitted a f) (closed : ∀ sent, a ≠ .openStream sent) :
    f.WellFormed ∧ (f.ftype ≠ .goaway → 0 < (p.mux .server).made f.sid) ∧ f.ftype ≠ .open_ := by
  cases emitted with
  | open_ sent => exact absurd rfl (closed sent)
  | data r s target found chunk some_data =>
    obtain ⟨-, nonzero, made⟩ := wired.known_of_heap (x := x) found
    exact ⟨⟨nonzero, some_data⟩, fun _ => made, by simp⟩
  | eof r s target found =>
    obtain ⟨-, nonzero, made⟩ := wired.known_of_heap (x := x) found
    exact ⟨⟨nonzero, rfl⟩, fun _ => made, by simp⟩
  | windowUpdate r s target found delta some_delta =>
    obtain ⟨-, nonzero, made⟩ := wired.known_of_heap (x := x) found
    exact ⟨⟨nonzero, delta, some_delta, rfl⟩, fun _ => made, by simp⟩
  | reset away r s found =>
    obtain ⟨-, nonzero, made⟩ := wired.known_of_heap (x := x) found
    exact ⟨⟨nonzero, rfl⟩, fun _ => made, by simp⟩
  | resetOnce sid sent task =>
    obtain ⟨nonzero, made⟩ := wired.sendOnces x sid task
    exact ⟨⟨nonzero, rfl⟩, fun _ => made, by simp⟩
  | goaway sent => exact ⟨⟨rfl, rfl⟩, by simp, by simp⟩

/-- The id the server allocates next was never heard of. -/
theorem Wired.unheard (wired : p.Wired S) (small : (p.mux .server).nextId ≤ 0xFFFFFFFF) :
    (p.mux .server).made (UInt32.ofNat (p.mux .server).nextId) = 0 ∧
      UInt32.ofNat (p.mux .server).nextId ≠ 0 := by
  have acc := wired.accounted .server
  have word : (UInt32.ofNat (p.mux .server).nextId).toNat = (p.mux .server).nextId := by
    simp only [UInt32.toNat_ofNat']
    omega
  constructor
  · by_contra used
    have initiator : (p.mux .server).config.acceptsOpen = false := by
      rw [wired.config]; rfl
    exact absurd (acc.ids initiator _ (Nat.pos_of_ne_zero used)) word.not_lt
  · intro zero
    have positive := acc.nextId_pos
    rw [zero] at word
    simp at word
    omega

/-- Nothing on either wire is about an id that is not allocated. -/
theorem Wired.about_nil (wired : p.Wired S) {sid : StreamId} (nonzero : sid ≠ 0)
    (unmade : (p.mux .server).made sid = 0) (x : Side) : about sid (p.wire x) = [] := by
  apply List.filter_eq_nil_iff.mpr
  intro f member same
  have here : f.sid = sid := by simpa using same
  by_cases type : f.ftype = .goaway
  · have formed := wired.formed x f member
    simp only [Frame.WellFormed, type] at formed
    exact nonzero (here.symm.trans formed.1)
  · have := wired.known x f member type
    rw [here] at this
    omega

theorem opensOf_eq_zero_of_about {sid : StreamId} {frames : List Frame}
    (none : about sid frames = []) : opensOf sid frames = 0 := by
  apply List.countP_eq_zero.mpr
  intro f member both
  have := List.filter_eq_nil_iff.mp none f member
  simp_all

/-- The server opened a stream. -/
theorem Wired.open (wired : p.Wired S) {sent : Bool} (ledger : Side → Ref → Ledger)
    (small : (p.mux .server).nextId ≤ 0xFFFFFFFF)
    (acc : (Host.opened (p.mux .server) sent).Accounted) :
    Wired S ⟨Function.update p.mux .server (Host.opened (p.mux .server) sent),
      Function.update p.wire .server (p.wire .server ++
        emit sent .open_ (UInt32.ofNat (p.mux .server).nextId) []), ledger⟩ := by
  obtain ⟨unmade, nonzero⟩ := wired.unheard small
  have made : ∀ sid, (Host.opened (p.mux .server) sent).made sid =
      if sid = UInt32.ofNat (p.mux .server).nextId then 1 else (p.mux .server).made sid := by
    intro sid
    simp only [Host.opened, Mux.register, Mux.setStream, Function.update_apply, unmade]
  have more : ∀ sid, (p.mux .server).made sid ≤ (Host.opened (p.mux .server) sent).made sid := by
    intro sid
    rw [made]
    split
    next same => rw [same, unmade]; omega
    · exact le_refl _
  have counted : ∀ sid, opensOf sid (emit sent .open_ (UInt32.ofNat (p.mux .server).nextId) []) ≤
      if sid = UInt32.ofNat (p.mux .server).nextId then 1 else 0 := by
    intro sid
    cases sent with
    | false => simp [emit, opensOf]
    | true => simp [emit, opensOf, eq_comm]
  generalize here : UInt32.ofNat (p.mux .server).nextId = sid' at *
  constructor
  · intro y
    cases y
    · exact wired.config .server
    · exact wired.config .agent
  · intro y
    cases y
    · exact acc
    · exact wired.accounted .agent
  · intro sid
    show (Host.opened (p.mux .server) sent).made sid ≤ 1
    rw [made]
    split
    · exact le_refl _
    · exact wired.once sid
  · intro y r below
    cases y
    · show ∃ s, (Host.opened (p.mux .server) sent).heap r = some s
      replace below : r.gen < (Host.opened (p.mux .server) sent).made r.sid := below
      simp only [Host.opened, Mux.register, Mux.setStream, here, unmade]
      by_cases same : r = ⟨sid', 0⟩
      · exact ⟨_, by rw [same]; exact Function.update_self _ _ _⟩
      · rw [Function.update_of_ne same]
        apply wired.objects .server r
        rw [made] at below
        split at below
        next new => exact absurd (by cases r; simp_all) same
        · exact below
    · exact wired.objects .agent r below
  · intro sid
    show (p.mux .agent).made sid + opensOf sid (p.wire .server ++ emit sent .open_ sid' []) ≤
      (Host.opened (p.mux .server) sent).made sid
    have before := wired.opens sid
    have new := counted sid
    rw [opensOf_append, made]
    split
    next same => rw [if_pos same] at new; rw [same, unmade] at before; rw [same] at new ⊢; omega
    next other => rw [if_neg other] at new; omega
  · intro y f member
    cases y
    · rcases List.mem_append.mp member with old | new
      · exact wired.formed .server f old
      · rw [Host.mem_emit new]
        exact ⟨nonzero, rfl⟩
    · exact wired.formed .agent f member
  · intro y f member type
    cases y
    · show 0 < (Host.opened (p.mux .server) sent).made f.sid
      rcases List.mem_append.mp member with old | new
      · exact (wired.known .server f old type).trans_le (more f.sid)
      · rw [Host.mem_emit new, made]
        simp
    · exact (wired.known .agent f member type).trans_le (more f.sid)
  · exact wired.responder
  · intro sid positive
    replace positive : 0 < opensOf sid (p.wire .server ++ emit sent .open_ sid' []) := positive
    show ∃ rest, about sid (p.wire .server ++ emit sent .open_ sid' []) = _
    by_cases same : sid = sid'
    · subst same
      have none := wired.about_nil nonzero unmade .server
      rw [opensOf_append, opensOf_eq_zero_of_about none] at positive
      refine ⟨[], ?_⟩
      cases sent with
      | false => simp [emit, opensOf] at positive
      | true =>
        rw [about, List.filter_append, show (p.wire .server).filter _ = [] from none]
        simp [emit]
    · have new := counted sid
      rw [if_neg same] at new
      rw [opensOf_append] at positive
      obtain ⟨rest, first⟩ := wired.order sid (by omega)
      refine ⟨rest ++ about sid (emit sent .open_ sid' []), ?_⟩
      rw [about, List.filter_append, show (p.wire .server).filter _ = _ from first]
      rfl
  · intro y r task
    cases y
    · show ∃ s, (Host.opened (p.mux .server) sent).heap r = some s
      obtain ⟨s, found⟩ := wired.resets .server r task
      simp only [Host.opened, Mux.register, Mux.setStream]
      by_cases same : r = ⟨UInt32.ofNat (p.mux .server).nextId,
          (p.mux .server).made (UInt32.ofNat (p.mux .server).nextId)⟩
      · exact ⟨_, by rw [same]; exact Function.update_self _ _ _⟩
      · exact ⟨s, by rw [Function.update_of_ne same]; exact found⟩
    · exact wired.resets .agent r task
  · intro y sid task
    have old : .sendOnce sid ∈ (p.mux y).tasks := by cases y <;> exact task
    obtain ⟨nonzero', made'⟩ := wired.sendOnces y sid old
    exact ⟨nonzero', made'.trans_le (more sid)⟩

/-- Nothing that arrives makes the server allocate an id. -/
theorem Wired.server_made (wired : p.Wired S) {x : Side} {env : Env} {f : Frame} {e : Effect}
    (stepped : ((p.mux x).host env).step (.message (.binary f.message)) = some e) (sid : StreamId) :
    (Function.update p.mux x e.host.mux .server).made sid = (p.mux .server).made sid := by
  have acc := wired.accounted x
  have arrived := (Host.step_message (h := (p.mux x).host env) acc stepped).2.1.arrived acc
  cases x with
  | agent => rfl
  | server =>
    rcases arrived.made with same | ⟨sid', -, responder, -, -⟩
    · exact congrFun same sid
    · have config := wired.config .server
      rw [show ((p.mux .server).host env).mux = p.mux .server from rfl, config] at responder
      cases responder

/-- A frame arrived. -/
theorem Wired.deliver (wired : p.Wired S) {x : Side} {env : Env} {f : Frame} {rest : List Frame}
    {e : Effect} (ledger : Side → Ref → Ledger) (arriving : p.wire x.other = f :: rest)
    (stepped : ((p.mux x).host env).step (.message (.binary f.message)) = some e) :
    Wired S ⟨Function.update p.mux x e.host.mux, Function.update p.wire x.other rest, ledger⟩ := by
  have acc := wired.accounted x
  have arrived := (Host.step_message (h := (p.mux x).host env) acc stepped).2.1.arrived acc
  have acc' := ((acc.booked env).step stepped).mux
  rw [Message.frame_message] at arrived
  have kept : ∀ r s, (p.mux x).heap r = some s → ∃ t, e.host.mux.heap r = some t := by
    intro r s found
    obtain ⟨t, after, -⟩ := Host.step_touch (h := (p.mux x).host env) acc found stepped
    exact ⟨t, after⟩
  have less : ∀ y, ∀ g ∈ Function.update p.wire x.other rest y, g ∈ p.wire y := by
    intro y g member
    by_cases same : y = x.other
    · subst same
      rw [arriving]
      exact List.mem_cons_of_mem f (by simpa using member)
    · simpa [same] using member
  have server_made := wired.server_made stepped
  have opens_le : ∀ sid, opensOf sid (Function.update p.wire x.other rest .server) ≤
      opensOf sid (p.wire .server) := by
    intro sid
    cases x with
    | server => exact le_refl _
    | agent =>
      rw [show p.wire .server = f :: rest from arriving]
      show opensOf sid rest ≤ opensOf sid (f :: rest)
      rw [opensOf, opensOf, List.countP_cons]
      exact Nat.le_add_right _ _
  constructor
  · intro y
    by_cases same : y = x
    · subst same; simpa using arrived.config.trans (wired.config y)
    · simpa [same] using wired.config y
  · intro y
    by_cases same : y = x
    · subst same; simpa using acc'
    · simpa [same] using wired.accounted y
  · intro sid
    rw [server_made]
    exact wired.once sid
  · intro y r below
    by_cases same : y = x
    · subst same
      simp only [Function.update_self] at below ⊢
      rcases arrived.made with made | ⟨sid, -, -, made, created⟩
      · rw [made] at below
        obtain ⟨s, found⟩ := wired.objects y r below
        exact kept r s found
      · cases before : (p.mux y).heap r with
        | some s => exact kept r s before
        | none =>
          -- the only number below the new count that had no object is the one just used
          have full : ¬r.gen < (p.mux y).made r.sid := by
            intro old
            obtain ⟨s, found⟩ := wired.objects y r old
            rw [before] at found
            cases found
          rw [made] at below
          by_cases here : r.sid = sid
          · obtain ⟨rsid, rgen⟩ := r
            simp only at here
            subst here
            rw [Function.update_self] at below
            have last : rgen = (p.mux y).made rsid := by
              replace below : rgen < (p.mux y).made rsid + 1 := below
              simp only at full
              omega
            exact ⟨_, last ▸ created⟩
          · rw [Function.update_of_ne here] at below
            exact absurd below full
    · simp only [Function.update_of_ne same] at below ⊢
      exact wired.objects y r below
  · intro sid
    rw [server_made]
    have before := wired.opens sid
    have fewer := opens_le sid
    cases x with
    | server =>
      show (p.mux .agent).made sid + opensOf sid (p.wire .server) ≤ (p.mux .server).made sid
      exact before
    | agent =>
      show e.host.mux.made sid + opensOf sid rest ≤ (p.mux .server).made sid
      have shorter : opensOf sid rest ≤ opensOf sid (p.wire .server) := fewer
      rcases arrived.made with made | ⟨sid', carries, -, made, -⟩
      · rw [made]
        show (p.mux .agent).made sid + opensOf sid rest ≤ _
        omega
      · rw [made]
        by_cases same : sid = sid'
        · subst same
          rw [Function.update_self]
          show (p.mux .agent).made sid + 1 + opensOf sid rest ≤ _
          have one : opensOf sid (p.wire .server) = opensOf sid rest + 1 := by
            rw [show p.wire .server = f :: rest from arriving, Option.some.inj carries]
            simp [opensOf]
          omega
        · rw [Function.update_of_ne same]
          show (p.mux .agent).made sid + opensOf sid rest ≤ _
          omega
  · exact fun y g member => wired.formed y g (less y g member)
  · intro y g member type
    rw [server_made]
    exact wired.known y g (less y g member) type
  · exact fun g member => wired.responder g (less .agent g member)
  · intro sid positive
    have fewer := opens_le sid
    obtain ⟨tail, first⟩ := wired.order sid (positive.trans_le fewer)
    cases x with
    | server => exact ⟨tail, first⟩
    | agent =>
      show ∃ tail, about sid rest = _
      replace positive : 0 < opensOf sid rest := positive
      have all : p.wire .server = f :: rest := arriving
      rw [all] at first
      by_cases same : f.sid = sid
      · -- the frame that arrived was the OPEN, and there is no second one
        exfalso
        have opening : f = ⟨.open_, sid, []⟩ := by
          simp only [about, List.filter_cons, same, decide_true, if_true, List.cons.injEq] at first
          exact first.1
        have two : opensOf sid (p.wire .server) = opensOf sid rest + 1 := by
          rw [all, opening]
          simp [opensOf]
        have bound := wired.opens sid
        have once := wired.once sid
        omega
      · refine ⟨tail, ?_⟩
        simpa [about, List.filter_cons, same] using first
  · intro y r task
    by_cases same : y = x
    · subst same
      simp only [Function.update_self] at task ⊢
      rcases arrived.tasks _ task with old | ⟨r', s, here, found⟩ | ⟨g, -, here, -⟩
      · obtain ⟨s, found⟩ := wired.resets y r old
        exact kept r s found
      · cases here
        exact kept r s found
      · cases here
    · simp only [Function.update_of_ne same] at task ⊢
      exact wired.resets y r task
  · intro y sid task
    rw [server_made]
    by_cases same : y = x
    · subst same
      rcases arrived.tasks _ (by simpa using task) with old | ⟨r', s, here, -⟩ | ⟨g, carries, here, nonzero, type⟩
      · exact wired.sendOnces y sid old
      · cases here
      · cases here
        have same := Option.some.inj carries
        subst same
        exact ⟨nonzero, wired.known y.other f (by simp [arriving]) type⟩
    · exact wired.sendOnces y sid (by simpa [same] using task)

/-- Every step keeps the wires in order. -/
theorem Wired.step (wired : p.Wired S) {a : Action} {p' : Pair} (moved : p.step a = some p') :
    p'.Wired S := by
  cases a with
  | deliver x env =>
    obtain ⟨f, rest, e, arriving, stepped, rfl⟩ := step_deliver moved
    exact wired.deliver _ arriving stepped
  | act x env a =>
    obtain ⟨e, stepped, notMessage, rfl⟩ := step_act moved
    have acc := wired.accounted x
    have acc' := ((acc.booked env).step stepped).mux
    have kept : ∀ r s, (p.mux x).heap r = some s → ∃ t, e.host.mux.heap r = some t := by
      intro r s found
      obtain ⟨t, after, -⟩ := Host.step_touch (h := (p.mux x).host env) acc found stepped
      exact ⟨t, after⟩
    have sent : (∀ sent, a ≠ .openStream sent) → ∀ f ∈ e.out, f.WellFormed ∧
        (f.ftype ≠ .goaway → 0 < (p.mux .server).made f.sid) ∧ f.ftype ≠ .open_ :=
      fun closed f member =>
        wired.emitted (Host.step_out (h := (p.mux x).host env) acc stepped member) closed
    cases here : a.isLocal with
    | true =>
      have frame := Host.step_local stepped here
      have closed : ∀ sent, a ≠ .openStream sent := by
        rintro sent rfl
        cases here
      refine wired.extend _ frame.config acc' frame.made kept ?_ ?_
        (fun f member => (sent closed f member).1) (fun f member => (sent closed f member).2.1)
        (fun f member => (sent closed f member).2.2)
      · intro r task
        rcases frame.tasks _ task with old | ⟨sid, other, -⟩
        · exact wired.resets x r old
        · cases other
      · intro sid task
        rcases frame.tasks _ task with old | ⟨sid', other, -⟩
        · exact old
        · cases other
    | false =>
      cases a with
      | message msg => cases notMessage
      | connectionLost =>
        have out : e.out = [] ∧ e.host = ((p.mux x).host env).finish := by
          simp only [Host.step] at stepped
          split at stepped
          · cases stepped; exact ⟨rfl, rfl⟩
          · cases stepped
        obtain ⟨config, made, -, -, -⟩ := Host.Kept.finish (h := (p.mux x).host env)
        rw [← out.2] at config made
        have idle : e.host.mux.tasks = [] := by rw [out.2]; rfl
        refine wired.extend _ config acc' made kept ?_ ?_ ?_ ?_ ?_ <;> simp [idle, out.1]
      | openStream sent' =>
        obtain ⟨initiator, refused | ⟨small, mux, out⟩⟩ := Host.step_openStream stepped
        · obtain ⟨same, out⟩ := refused
          rw [same] at acc' kept ⊢
          rw [out]
          exact wired.extend _ rfl acc' rfl kept (wired.resets x) (fun _ => id) (by simp) (by simp)
            (by simp)
        · have server : x = .server := by
            cases x with
            | server => rfl
            | agent =>
              have config := wired.config .agent
              rw [show ((p.mux .agent).host env).mux = p.mux .agent from rfl, config] at initiator
              cases initiator
          subst server
          rw [mux] at acc' ⊢
          rw [out]
          exact wired.open _ small acc'
      | _ => cases here

end

end Pair

end Chute
