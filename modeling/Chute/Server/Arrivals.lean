import Chute.Server.Courses

/-!
# The visitors of a run

Visitors come one at a time, each with a stream id that its multiplexer gives out only once,
and leave once.
-/
namespace Chute

/-- `open` fails at once, or takes the next id. -/
theorem Host.openStream_cases (h : Host) (sent : Bool) :
    (h.openStream sent).result = .raised ∨
      h.mux.nextId ≤ 0xFFFFFFFF ∧ (h.openStream sent).result = .suspended ∧
        (h.openStream sent).host.mux.nextId = h.mux.nextId + 1 := by
  unfold openStream
  simp only
  split
  · exact Or.inl rfl
  next able =>
    simp only [not_or] at able
    exact Or.inr ⟨by omega, rfl, rfl⟩

namespace Server

variable {s s' : Server} {i : Nat} {a : Action}

/-- The connection and the stream id of a visitor. -/
def Visitor.key (visitor : Visitor) : Nat × StreamId := (visitor.connection, visitor.stream.sid)

/-- What a step does to the visitors. -/
inductive Arrivals (a : Action) (s s' : Server) : Prop
  | stay (same : s'.visitors = s.visitors) (opens : ∀ v, a ≠ .visitorOpened v)
      (leaves : ∀ v, a ≠ .visitorLeft v)
  /-- A visitor comes, and is given the next stream id of its multiplexer. -/
  | came (label : String) (sent : Bool) (here : a = .visit label sent) (k : Nat) (p : Phase) (m m' : Mux)
      (gen : Nat) (before : s.courses[k]? = some (p, some m)) (small : m.nextId ≤ 0xFFFFFFFF)
      (after : s'.courses[k]? = some (p, some m')) (taken : m'.nextId = m.nextId + 1)
      (grown : s'.visitors = s.visitors ++ [⟨label, k, ⟨UInt32.ofNat m.nextId, gen⟩, .opening⟩])
  | opened (v : Nat) (visitor : Visitor) (here : a = .visitorOpened v) (found : s.visitors[v]? = some visitor)
      (opening : visitor.phase = .opening)
      (moved : s'.visitors = s.visitors.set v { visitor with phase := .relaying })
  | failed (v : Nat) (visitor : Visitor) (here : a = .visitorFailed v) (found : s.visitors[v]? = some visitor)
      (opening : visitor.phase = .opening)
      (moved : s'.visitors = s.visitors.set v { visitor with phase := .left })
  | left (v : Nat) (visitor : Visitor) (here : a = .visitorLeft v) (found : s.visitors[v]? = some visitor)
      (relaying : visitor.phase = .relaying)
      (moved : s'.visitors = s.visitors.set v { visitor with phase := .left })

theorem visitors_of_slots (same : s'.slots = s.slots) : s'.visitors = s.visitors := congrArg Prod.fst same

theorem visitors_setVisitor {v : Nat} {visitor : Visitor} (found : s.visitors[v]? = some visitor)
    (phase : VisitorPhase) :
    (s.setVisitor v phase).visitors = s.visitors.set v { visitor with phase := phase } := by
  obtain ⟨short, rfl⟩ := List.getElem?_eq_some_iff.mp found
  refine List.ext_getElem? fun j => ?_
  simp only [setVisitor, List.getElem?_modify, List.getElem?_set]
  split
  next here =>
    subst here
    simp [short]
  · simp

theorem visitors_leave {v : Nat} {visitor : Visitor} (found : s.visitors[v]? = some visitor)
    (gone : s.leave v visitor = some s') : s'.visitors = s.visitors.set v { visitor with phase := .left } := by
  obtain ⟨reg, -, rfl⟩ := Option.map_eq_some_iff.mp gone
  have released : ((s.setVisitor v .left).releaseVisitorBudget reg.accountId).visitors =
      (s.setVisitor v .left).visitors := congrArg Prod.fst (released_slot _ _)
  rw [released, visitors_setVisitor found]

theorem arrivals_visit (s : Server) (label : String) (sent : Bool) :
    Arrivals (.visit label sent) s (s.visit label sent) := by
  have selected := slots_selectAgentForVisitor s label
  unfold Server.visit
  cases chosen : s.selectAgentForVisitor label with
  | mk agent t =>
    rw [chosen] at selected
    cases agent with
    | none => exact .stay (visitors_of_slots selected) nofun nofun
    | some agent =>
      obtain ⟨k, reg⟩ := agent
      obtain ⟨rfl, -, known, -⟩ := selectAgentForVisitor_some chosen
      simp only
      split
      · exact .stay rfl nofun nofun
      next u acquired =>
        have visitors : (u.afterMux k reg ((u.host reg).openStream sent).host).visitors = t.visitors :=
          (visitors_of_slots (slots_afterMux u k reg _)).trans (visitors_tryAcquireVisitorBudget acquired)
        obtain ⟨c, found, registered⟩ := Option.bind_eq_some_iff.mp known
        have before : t.courses[k]? = some (c.phase, some reg.mux) :=
          found_course.mpr ⟨c, found, rfl, by rw [registered]; rfl⟩
        have after := courses_afterMux ((calm_tryAcquireVisitorBudget acquired).courses ▸ before)
          ((u.host reg).openStream sent).host
        rcases (u.host reg).openStream_cases sent with raised | ⟨small, suspended, taken⟩
        · rw [raised]
          refine .stay ?_ nofun nofun
          exact (congrArg Prod.fst (released_slot _ reg.accountId)).trans visitors
        · rw [suspended]
          refine .came label sent rfl k c.phase reg.mux _ _ before small ?_ taken (congrArg (· ++ _) visitors)
          have there : (u.afterMux k reg ((u.host reg).openStream sent).host).courses[k]? =
              some (c.phase, some ((u.host reg).openStream sent).host.mux) := by
            have calm := (calm_tryAcquireVisitorBudget acquired).courses
            rw [after, calm]
            simp [(List.getElem?_eq_some_iff.mp before).1]
          exact there

/-- Visitors come and go in their own steps. -/
theorem step_arrivals (moved : s.step a = some s') : Arrivals a s s' := by
  cases visits : a.visits with
  | false =>
    refine .stay (visitors_of_slots (slots_step moved visits)) ?_ ?_
    · rintro v rfl
      cases visits
    · rintro v rfl
      cases visits
  | true =>
    cases a with
    | visit label sent =>
      cases moved
      exact arrivals_visit s label sent
    | visitorOpened v =>
      obtain ⟨visitor, found, moved⟩ := Option.bind_eq_some_iff.mp moved
      split at moved
      next opening =>
        obtain ⟨t, stepped, rfl⟩ := Option.map_eq_some_iff.mp moved
        have visitors := visitors_of_slots (slots_muxStep stepped)
        have found' : t.visitors[v]? = some visitor := by rw [visitors]; exact found
        exact .opened v visitor rfl found opening (visitors ▸ visitors_setVisitor found' .relaying)
      · cases moved
    | visitorFailed v =>
      obtain ⟨visitor, found, moved⟩ := Option.bind_eq_some_iff.mp moved
      split at moved
      next opening =>
        obtain ⟨t, stepped, gone⟩ := Option.bind_eq_some_iff.mp moved
        have visitors := visitors_of_slots (slots_muxStep stepped)
        have found' : t.visitors[v]? = some visitor := by rw [visitors]; exact found
        exact .failed v visitor rfl found opening (visitors ▸ visitors_leave found' gone)
      · cases moved
    | visitorLeft v =>
      obtain ⟨visitor, found, moved⟩ := Option.bind_eq_some_iff.mp moved
      split at moved
      next relaying => exact .left v visitor rfl found relaying (visitors_leave found moved)
      · cases moved
    | _ => cases visits

end Server

end Chute
