import CastReceiver.Machine.Operations

/-!
# Worlds

A machine among everything that may happen to it. Requests are made in any order, also while a
command of an earlier request is still being carried out; alarms go off once their time has come,
however late; and the clock moves on at will. Each turn of a world is one stretch of the machine's
work: from a request or an alarm, or from the end of a command, to the next command or to the end
of the operation. So what holds of every world that can be reached holds of the machine between
operations and whenever a command goes out.
-/
namespace CastReceiver

deriving instance DecidableEq for Timer.Alarm

/-- What may happen to a machine. -/
inductive Occurrence where
  | call (c : Call)
  /-- An alarm goes off: a watchdog, or the deferred resume of discovery. -/
  | alarm (a : Timer.Alarm Task)
  | elapse (ms : Nat)
  /-- Alarms that were cancelled are noticed. -/
  | settle

namespace Occurrence

/-- An alarm goes off when its time has come, unless it was cancelled before. -/
def Possible (m : Machine) : Occurrence → Prop
  | alarm a => a ∈ m.watchdogs.timetable.due
  | _ => True

instance (m : Machine) : DecidablePred (Possible m)
  | alarm a => inferInstanceAs (Decidable (a ∈ m.watchdogs.timetable.due))
  | call _ | elapse _ | settle => isTrue trivial

/-- The address of a peer that asks to connect, or that launches without having asked. -/
def requester? : Occurrence → Option String
  | call (.report (.connectionRequest mac _)) => some mac
  | call (.report (.launchRequest l false)) => some l.sourceMac
  | _ => none

/-- What a machine does about an occurrence. -/
def run (m : Machine) : Occurrence → Run Reply
  | call c => m.perform c
  | alarm a =>
    let m := m.withTimetable (m.watchdogs.timetable.start a)
    if a.isVoid then .done m .nothing else (m.ring a).returning .nothing
  | elapse ms => .done (m.withTimetable { m.watchdogs.timetable with now := m.now + ms }) .nothing
  | settle => .done (m.withTimetable m.watchdogs.timetable.settled) .nothing

end Occurrence

/-- A machine, and the runs that wait for one of their commands to be carried out, the latest
first. -/
structure World where
  machine : Machine
  waiting : List (Machine → Run Reply) := []

/-- A machine after an occurrence, when nobody interferes while commands are carried out. -/
def Machine.undergo (m : Machine) (o : Occurrence) : Machine :=
  (o.run m).quietly.1

namespace Machine

/-- A machine after several occurrences, one after another. -/
def undergoes (m : Machine) : List Occurrence → Machine
  | [] => m
  | o :: os => (m.undergo o).undergoes os

/-- Several things may happen one after another. -/
def AllPossible (m : Machine) : List Occurrence → Prop
  | [] => True
  | o :: os => o.Possible m ∧ (m.undergo o).AllPossible os

instance decidableAllPossible : (m : Machine) → DecidablePred m.AllPossible
  | _, [] => isTrue trivial
  | m, o :: os =>
    have := decidableAllPossible (m.undergo o) os
    inferInstanceAs (Decidable (o.Possible m ∧ (m.undergo o).AllPossible os))

end Machine

inductive Turn where
  | happen (o : Occurrence)
  /-- The command that went out last has been carried out, and its run goes on. -/
  | resume

/-- Where a run stops: at a command, for which the rest of the run waits, or at its end. -/
def Run.pause (waiting : List (Machine → Run Reply)) : Run Reply → Option Command × World
  | .done m _ => (none, ⟨m, waiting⟩)
  | .issue m c next => (some c, ⟨m, next :: waiting⟩)

namespace World

/-- A machine to which nothing has happened. -/
def fresh (settings : SessionSettings) (nameSource : Option NameSource) : World where
  machine := { settings, nameSource }

/-- Anything may happen at any time, also while commands are being carried out. -/
def Possible (w : World) : Turn → Prop
  | .happen o => o.Possible w.machine
  | .resume => w.waiting.isEmpty = false

/-- The world after a turn, and the command at which the turn stops unless its operation is
over. -/
def turn (w : World) : Turn → Option Command × World
  | .happen o => (o.run w.machine).pause w.waiting
  | .resume =>
    match w.waiting with
    | [] => (none, w)
    | next :: waiting => (next w.machine).pause waiting

instance (w : World) : DecidablePred w.Possible
  | .happen o => inferInstanceAs (Decidable (o.Possible w.machine))
  | .resume => inferInstanceAs (Decidable (w.waiting.isEmpty = false))

/-- The world after several turns. -/
def turns (w : World) : List Turn → World
  | [] => w
  | t :: ts => (w.turn t).2.turns ts

/-- Several turns may be taken one after another. -/
def AllPossible (w : World) : List Turn → Prop
  | [] => True
  | t :: ts => w.Possible t ∧ (w.turn t).2.AllPossible ts

instance decidableAllPossible : (w : World) → DecidablePred w.AllPossible
  | _, [] => isTrue trivial
  | w, t :: ts =>
    have := decidableAllPossible (w.turn t).2 ts
    inferInstanceAs (Decidable (w.Possible t ∧ (w.turn t).2.AllPossible ts))

inductive Reachable : World → Prop where
  | fresh (settings : SessionSettings) (nameSource : Option NameSource) :
      Reachable (fresh settings nameSource)
  | turn {w : World} (h : Reachable w) (t : Turn) (ht : w.Possible t) : Reachable (w.turn t).2

theorem Reachable.turns {w : World} (h : w.Reachable) {ts : List Turn}
    (hts : w.AllPossible ts) : (w.turns ts).Reachable := by
  induction ts generalizing w with
  | nil => exact h
  | cons t ts ih => exact ih (h.turn t hts.1) hts.2

/-- A run that has been paused may also go on to its end without anything happening between. -/
theorem Reachable.quietly {r : Run Reply} {waiting : List (Machine → Run Reply)}
    (h : Reachable (r.pause waiting).2) : Reachable ⟨r.quietly.1, waiting⟩ := by
  induction r with
  | done m a => exact h
  | issue m c next ih => exact ih m (h.turn .resume rfl)

theorem Reachable.undergo {w : World} (h : w.Reachable) {o : Occurrence}
    (ho : o.Possible w.machine) : Reachable ⟨w.machine.undergo o, w.waiting⟩ :=
  Reachable.quietly (h.turn (.happen o) ho)

end World

end CastReceiver
