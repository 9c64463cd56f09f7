/-!
# Timetables

Alarms on a virtual clock in milliseconds. An alarm goes off when its time has come, and a
repeating one again after every period, unless the period is zero: such an alarm never goes off. An
alarm that is cancelled never goes off either, but it counts as finished only after the timetable
has settled once more.
-/
namespace CastReceiver.Timer

/-- An alarm that is still to go off, and its task. -/
structure Alarm (α : Type) where
  id : Nat
  due : Nat
  /-- How long after it goes off a repeating alarm goes off again. -/
  period : Option Nat := none
  task : α

/-- An alarm that would repeat without time between is given up when it is due, and its task is
never carried out. -/
def Alarm.isVoid {α : Type} (a : Alarm α) : Bool :=
  a.period == some 0

structure Timetable (α : Type) where
  now : Nat := 0
  /-- No alarm has this number or a larger one. -/
  nextId : Nat := 1
  /-- The alarms still to go off, in the order in which they were set. -/
  alarms : List (Alarm α) := []
  /-- The alarms cancelled since the timetable last settled. -/
  stopping : List Nat := []
  /-- A timetable that has been stopped takes no alarm any more. -/
  running : Bool := true

namespace Timetable

variable {α : Type}

/-- Sets an alarm that goes off after `delay`, and gives its number. -/
def add (t : Timetable α) (delay : Nat) (period : Option Nat) (task : α) : Nat × Timetable α :=
  let alarm : Alarm α := { id := t.nextId, due := t.now + delay, period, task }
  (t.nextId,
    { t with
      nextId := t.nextId + 1
      alarms := if t.running then t.alarms ++ [alarm] else t.alarms })

def once (t : Timetable α) (delay : Nat) (task : α) : Nat × Timetable α :=
  t.add delay none task

def repeating (t : Timetable α) (period : Nat) (task : α) : Nat × Timetable α :=
  t.add period (some period) task

/-- Something to be done as soon as the timetable settles. -/
def defer (t : Timetable α) (task : α) : Nat × Timetable α :=
  t.once 0 task

def isPending (t : Timetable α) (id : Nat) : Bool :=
  t.alarms.any fun a => a.id == id

def remove (t : Timetable α) (id : Nat) : Timetable α :=
  { t with alarms := t.alarms.filter fun a => a.id != id }

/-- Stops an alarm from going off; one that is not pending is left alone. -/
def cancel (t : Timetable α) (id : Nat) : Timetable α :=
  if t.isPending id then { t.remove id with stopping := id :: t.stopping } else t

/-- The alarm went off for good, or its cancelling has been noticed. -/
def isFinished (t : Timetable α) (id : Nat) : Bool :=
  !t.isPending id && !t.stopping.contains id

/-- The alarms whose time has come, in the order in which they were set. -/
def due (t : Timetable α) : List (Alarm α) :=
  t.alarms.filter fun a => a.due ≤ t.now

/-- The timetable as an alarm goes off: one that repeats is set again, any other is gone. -/
def start (t : Timetable α) (a : Alarm α) : Timetable α :=
  match a.period with
  | none | some 0 => t.remove a.id
  | some period =>
    { t with
      alarms := t.alarms.map fun b => if b.id = a.id then { b with due := b.due + period } else b }

/-- Cancelled alarms are noticed. -/
def settled (t : Timetable α) : Timetable α :=
  { t with stopping := [] }

/-- When the next alarm goes off. -/
def next? (t : Timetable α) : Option Nat :=
  (t.alarms.map Alarm.due).min?

/-- No alarm goes off from here on. -/
def stop (t : Timetable α) : Timetable α :=
  { t with alarms := [], running := false }

end Timetable

end CastReceiver.Timer
