import CastReceiver.Json.Basic
import CastReceiver.Timer.Timetable

/-!
# Watchdogs

Each kind of watchdog has one slot. Setting one of a kind whose slot is filled cancels the alarm
there. An alarm that goes off does not empty its slot: its task has to claim the slot by the number
of the alarm, and a claim fails when the alarm was cancelled or replaced in the meantime.
-/
namespace CastReceiver.Timer

inductive WatchdogKind where
  /-- A connection request was not decided in time. -/
  | connectionAccept
  /-- An attempt to connect to a network was not resolved in time. -/
  | radioConnect
  /-- The name of the device is looked up until it is known. -/
  | friendlyNameRetry
  deriving DecidableEq, Inhabited

namespace WatchdogKind

/-- The kinds, in the order in which they are listed. -/
def all : List WatchdogKind := [.connectionAccept, .radioConnect, .friendlyNameRetry]

def name : WatchdogKind → String
  | .connectionAccept => "connectionAccept"
  | .radioConnect => "radioConnect"
  | .friendlyNameRetry => "friendlyNameRetry"

def toJson (k : WatchdogKind) : Json := .string k.name

def ofName? (s : String) : Option WatchdogKind :=
  all.find? fun k => k.name = s

end WatchdogKind

/-- A timetable, and for each kind of watchdog the number of the alarm in its slot. -/
structure Watchdogs (α : Type) where
  timetable : Timetable α := {}
  slot : WatchdogKind → Option Nat := fun _ => none

namespace Watchdogs

variable {α : Type}

/-- Fills or empties the slot of a kind. -/
def setSlot (w : Watchdogs α) (kind : WatchdogKind) (id : Option Nat) : Watchdogs α :=
  { w with slot := fun k => if k = kind then id else w.slot k }

/-- Empties the slot of a kind and cancels the alarm there; tells whether it was filled. -/
def cancel (w : Watchdogs α) (kind : WatchdogKind) : Bool × Watchdogs α :=
  match w.slot kind with
  | some id => (true, { w.setSlot kind none with timetable := w.timetable.cancel id })
  | none => (false, w)

def cancelAll (w : Watchdogs α) : Watchdogs α :=
  WatchdogKind.all.foldl (fun w kind => (w.cancel kind).2) w

/-- Puts an alarm into the slot of a kind; one that is there already is cancelled. -/
def install (w : Watchdogs α) (kind : WatchdogKind) (added : Nat × Timetable α) :
    Nat × Watchdogs α :=
  let w' := ({ w with timetable := added.2 }.cancel kind).2
  (added.1, w'.setSlot kind (some added.1))

/-- Sets a watchdog that goes off once. -/
def arm (w : Watchdogs α) (kind : WatchdogKind) (delay : Nat) (task : α) : Nat × Watchdogs α :=
  w.install kind (w.timetable.once delay task)

/-- Sets a watchdog that goes off after every period. -/
def armRepeating (w : Watchdogs α) (kind : WatchdogKind) (period : Nat) (task : α) :
    Nat × Watchdogs α :=
  w.install kind (w.timetable.repeating period task)

/-- The alarm is the one in the slot of its kind. -/
def isCurrent (w : Watchdogs α) (kind : WatchdogKind) (id : Nat) : Bool :=
  w.slot kind == some id

/-- Empties the slot of a kind if the alarm is the one there; tells whether it was. -/
def claim (w : Watchdogs α) (kind : WatchdogKind) (id : Nat) : Bool × Watchdogs α :=
  if w.isCurrent kind id then (true, w.setSlot kind none) else (false, w)

/-- The slot of a kind holds an alarm that is not finished. -/
def isArmed (w : Watchdogs α) (kind : WatchdogKind) : Bool :=
  match w.slot kind with
  | some id => !w.timetable.isFinished id
  | none => false

def armedKinds (w : Watchdogs α) : List WatchdogKind :=
  WatchdogKind.all.filter w.isArmed

end Watchdogs

end CastReceiver.Timer
