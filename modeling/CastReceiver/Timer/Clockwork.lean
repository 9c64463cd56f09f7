import CastReceiver.Timer.Timetable

/-!
# Letting time pass

A state that contains a timetable is driven by it. Settling lets every alarm go off that is due,
and what those set to be done at once; moving the clock stops at each time at which an alarm is
due on the way.
-/
namespace CastReceiver.Timer

/-- How a state is driven by the timetable in it. -/
structure Clockwork (σ α : Type) where
  timetable : σ → Timetable α
  withTimetable : σ → Timetable α → σ
  /-- The task of an alarm is carried out. -/
  goOff : Alarm α → σ → σ
  /-- Tasks may set alarms that are due at once so many times in a row, at most. -/
  echoes : σ → Nat

namespace Clockwork

variable {σ α : Type} (c : Clockwork σ α)

/-- One alarm goes off, unless it has been cancelled or is void. -/
def strike (s : σ) (a : Alarm α) : σ :=
  if (c.timetable s).isPending a.id then
    let s := c.withTimetable s ((c.timetable s).start a)
    if a.isVoid then s else c.goOff a s
  else s

/-- The alarms that are due go off, in the order in which they were set. -/
def round (s : σ) : σ :=
  (c.timetable s).due.foldl c.strike s

def rounds : Nat → σ → σ
  | 0, s => s
  | n + 1, s => if (c.timetable s).due.isEmpty then s else rounds n (c.round s)

/-- Everything that is due happens, and cancelled alarms are noticed. -/
def settle (s : σ) : σ :=
  let s := c.rounds (c.echoes s + 1) s
  c.withTimetable s (c.timetable s).settled

def setClock (s : σ) (now : Nat) : σ :=
  c.withTimetable s { c.timetable s with now }

/-- Settles, and moves the clock from `now` to `target`, settling at every time at which an alarm
is due on the way. -/
def moveClock (now target : Nat) (s : σ) : σ :=
  let s := c.settle s
  match (c.timetable s).next? with
  | some due =>
    if now < due ∧ due ≤ target then moveClock due target (c.setClock s due)
    else c.settle (c.setClock s target)
  | none => c.settle (c.setClock s target)
termination_by target - now
decreasing_by omega

/-- The clock moves on by `ms` milliseconds. -/
def advance (ms : Nat) (s : σ) : σ :=
  let now := (c.timetable s).now
  c.moveClock now (now + ms) s

end Clockwork

end CastReceiver.Timer
