import Chute.Mux.Balance

/-!
# Two ends of a connection

The server's multiplexer and the agent's, joined by a channel in each direction
that delivers what was sent, in order and once. Beside them stands a ledger of what
the callers of each stream did and what they were given: it is history, and no step
depends on it.
-/
namespace Chute

inductive Side
  | server
  | agent
  deriving DecidableEq, Repr

namespace Side

def other : Side → Side
  | server => agent
  | agent => server

@[simp] theorem other_other (x : Side) : x.other.other = x := by cases x <;> rfl

@[simp] theorem other_ne (x : Side) : x.other ≠ x := by cases x <;> decide

@[simp] theorem ne_other (x : Side) : x ≠ x.other := by cases x <;> decide

end Side

/-- How the two multiplexers were built: with one flow window, and as initiator and
responder. -/
structure Setup where
  flowWindow : FlowWindow
  maxStreams : Side → Nat
  budgeted : Side → Bool

namespace Setup

def config (S : Setup) (x : Side) : Config :=
  ⟨S.flowWindow, S.maxStreams x, x == .agent, S.budgeted x⟩

def window (S : Setup) : Nat := S.flowWindow.val

/-- A relay and an agent as they are configured by default. -/
def standard : Setup := ⟨.default, fun _ => Chute.maxStreams, fun x => x == .server⟩

/-- A relay and an agent that agreed on a window of two bytes. -/
def narrow : Setup := ⟨⟨2, by decide, by decide⟩, fun _ => Chute.maxStreams, fun x => x == .server⟩

end Setup

/-- What the callers at one end of a stream did and saw. -/
structure Ledger where
  /-- The data given to `send`, in the order the calls got the lock. -/
  passed : List Bytes
  /-- A call of `send` raised or was cancelled. -/
  failed : Bool
  /-- No data was given to `send` after that. -/
  clean : Bool
  /-- `passed` and `failed` at the moment `send_eof` sent its frame. -/
  mark : Option (List Bytes × Bool)
  /-- The chunks `read` returned. -/
  taken : List Bytes
  /-- The lengths of those that were not passed to `ack` yet. -/
  pending : List Nat
  /-- The peer's EOF ended the receive direction. -/
  byEof : Bool
  /-- `read` returned `None`. -/
  told : Bool
  deriving DecidableEq, Repr

namespace Ledger

def new : Ledger := ⟨[], false, true, none, [], [], false, false⟩

/-- Record a call on the stream, which was `s` before it. -/
def note (l : Ledger) (s : Stream) (a : Action) (res : Result) : Ledger :=
  match a with
  | .send _ data _ =>
    { l with
      passed := l.passed ++ [data]
      clean := l.clean && !l.failed
      failed := l.failed || res == .raised }
  | .sendResume _ _ => { l with failed := l.failed || res == .raised }
  | .sendTimeout _ => { l with failed := true }
  | .sendRaise _ =>
    match s.sender with
    | some (.eof _) => l
    | _ => { l with failed := true }
  | .sendEof _ _ => if res = .suspended then { l with mark := some (l.passed, l.failed) } else l
  | .read _ =>
    match res with
    | .chunk (some c) => { l with taken := l.taken ++ [c], pending := l.pending ++ [c.length] }
    | .chunk none => { l with told := true }
    | _ => l
  | .ack _ n _ => { l with pending := l.pending.erase n }
  | _ => l

/-- The ledger after an action, by whether it was a call on this object. -/
def after (l : Ledger) (r : Ref) (s : Stream) (a : Action) (res : Result) : Ledger :=
  if a.target = some r then l.note s a res else l

end Ledger

structure Pair where
  mux : Side → Mux
  /-- The frames a side has sent that did not arrive yet. -/
  wire : Side → List Frame
  ledger : Side → Ref → Ledger

namespace Pair

def new (S : Setup) : Pair where
  mux := fun x => Mux.new (S.config x)
  wire := fun _ => []
  ledger := fun _ _ => Ledger.new

inductive Action
  | act (x : Side) (env : Env) (a : Chute.Action)
  | deliver (x : Side) (env : Env)

/-- The ledgers of one side after a local step. -/
def noted (m : Mux) (ledger : Ref → Ledger) (a : Chute.Action) (res : Result) (r : Ref) : Ledger :=
  match m.heap r with
  | some s => (ledger r).after r s a res
  | none => ledger r

/-- The ledgers of one side after an arrival. -/
def arrived (m : Mux) (ledger : Ref → Ledger) (f : Frame) (r : Ref) : Ledger :=
  if f.ftype = .eof ∧ m.registered f.sid = some r ∧ (m.heap r).any (fun s => s.recv = .open_) then
    { ledger r with byEof := true }
  else ledger r

def step (p : Pair) : Action → Option Pair
  | .act x env a =>
    -- messages come from the other side only
    if a.isMessage then none
    else
      (((p.mux x).host env).step a).map fun e =>
        { mux := Function.update p.mux x e.host.mux
          wire := Function.update p.wire x (p.wire x ++ e.out)
          ledger := Function.update p.ledger x (noted (p.mux x) (p.ledger x) a e.result) }
  | .deliver x env =>
    match p.wire x.other with
    | [] => none
    | f :: rest =>
      (((p.mux x).host env).step (.message (.binary f.message))).map fun e =>
        { mux := Function.update p.mux x e.host.mux
          wire := Function.update p.wire x.other rest
          ledger := Function.update p.ledger x (arrived (p.mux x) (p.ledger x) f) }

/-- A local step: what it took and what it left. -/
theorem step_act {p p' : Pair} {x : Side} {env : Env} {a : Chute.Action}
    (moved : p.step (.act x env a) = some p') :
    ∃ e, ((p.mux x).host env).step a = some e ∧ a.isMessage = false ∧
      p' = { mux := Function.update p.mux x e.host.mux
             wire := Function.update p.wire x (p.wire x ++ e.out)
             ledger := Function.update p.ledger x (noted (p.mux x) (p.ledger x) a e.result) } := by
  simp only [step] at moved
  split at moved
  · cases moved
  next here =>
    obtain ⟨e, stepped, rfl⟩ := Option.map_eq_some_iff.mp moved
    exact ⟨e, stepped, by simpa using here, rfl⟩

/-- A delivery: what it took and what it left. -/
theorem step_deliver {p p' : Pair} {x : Side} {env : Env}
    (moved : p.step (.deliver x env) = some p') :
    ∃ f rest e, p.wire x.other = f :: rest ∧
      ((p.mux x).host env).step (.message (.binary f.message)) = some e ∧
      p' = { mux := Function.update p.mux x e.host.mux
             wire := Function.update p.wire x.other rest
             ledger := Function.update p.ledger x (arrived (p.mux x) (p.ledger x) f) } := by
  simp only [step] at moved
  split at moved
  · cases moved
  next f rest arriving =>
    obtain ⟨e, stepped, rfl⟩ := Option.map_eq_some_iff.mp moved
    exact ⟨f, rest, e, arriving, stepped, rfl⟩

end Pair

end Chute
