import CastReceiver.Timer.Clockwork
import CastReceiver.Timer.Watchdog

/-!
# Drills

Alarms and watchdogs whose tasks do nothing but report that they were carried out. Both are
numbered from zero in the order in which they are set.
-/
namespace CastReceiver.Timer

/-- What an alarm of a drill does when it goes off. -/
inductive Reaction where
  /-- An alarm that goes off once. -/
  | once
  /-- An alarm that goes off again until it has done so `limit` times; without a limit, or with the
  limit zero, there is no end. -/
  | repeating (limit : Option Nat)
  /-- A watchdog that claims its slot, or leaves it alone. -/
  | watch (kind : WatchdogKind) (claims : Bool)
  /-- A watchdog that goes off again while it is current, until it has done so `limit` times and
  claims its slot. -/
  | watchRepeating (kind : WatchdogKind) (limit : Option Nat)

/-- What an alarm reports when it goes off. -/
inductive Finding where
  | nothing
  /-- How often it has gone off. -/
  | count (n : Nat)
  /-- Whether it could claim its slot. -/
  | claimed (success : Bool)
  deriving DecidableEq

structure Firing where
  time : Nat
  isWatchdog : Bool
  id : Nat
  finding : Finding
  deriving DecidableEq

structure Drill where
  watchdogs : Watchdogs Reaction := {}
  /-- How often each alarm has gone off. -/
  counts : Nat → Nat := fun _ => 0
  /-- What has gone off, the latest last. -/
  fired : List Firing := []
  /-- The numbers of the alarms that are no watchdogs. -/
  timers : List Nat := []
  /-- The numbers of the alarms of the watchdogs. -/
  arms : List Nat := []

namespace Drill

def now (d : Drill) : Nat := d.watchdogs.timetable.now

def withTimetable (d : Drill) (t : Timetable Reaction) : Drill :=
  { d with watchdogs := { d.watchdogs with timetable := t } }

def report (d : Drill) (isWatchdog : Bool) (id : Nat) (finding : Finding) : Drill :=
  { d with fired := d.fired ++ [⟨d.now, isWatchdog, id, finding⟩] }

/-- One more time that an alarm has gone off, and whether it was the last. -/
def tick (d : Drill) (isWatchdog : Bool) (id : Nat) (limit : Option Nat) : Bool × Drill :=
  let n := d.counts id + 1
  let d := { d with counts := fun i => if i = id then n else d.counts i }
  (limit == some n, d.report isWatchdog id (.count n))

def claim (d : Drill) (kind : WatchdogKind) (id : Nat) : Bool × Drill :=
  let (success, watchdogs) := d.watchdogs.claim kind id
  (success, { d with watchdogs })

/-- The alarm does not go off again. -/
def finish (d : Drill) (id : Nat) : Drill :=
  d.withTimetable (d.watchdogs.timetable.remove id)

def goOff (a : Alarm Reaction) (d : Drill) : Drill :=
  match a.task with
  | .once => d.report false a.id .nothing
  | .repeating limit =>
    let (isLast, d) := d.tick false a.id limit
    if isLast then d.finish a.id else d
  | .watch kind claims =>
    if claims then
      let (success, d) := d.claim kind a.id
      d.report true a.id (.claimed success)
    else d.report true a.id .nothing
  | .watchRepeating kind limit =>
    if d.watchdogs.isCurrent kind a.id then
      let (isLast, d) := d.tick true a.id limit
      if isLast then (d.claim kind a.id).2.finish a.id else d
    else d.finish a.id

def clockwork : Clockwork Drill Reaction where
  timetable d := d.watchdogs.timetable
  withTimetable := withTimetable
  goOff := goOff
  echoes _ := 0

def settle (d : Drill) : Drill := clockwork.settle d

def advance (ms : Nat) (d : Drill) : Drill := clockwork.advance ms d

/-! ## Setting alarms -/

def addTimer (d : Drill) (added : Nat × Timetable Reaction) : Drill :=
  { d.withTimetable added.2 with timers := d.timers ++ [added.1] }

def once (d : Drill) (delay : Nat) : Drill :=
  d.addTimer (d.watchdogs.timetable.once delay .once)

def defer (d : Drill) : Drill :=
  d.addTimer (d.watchdogs.timetable.defer .once)

def repeating (d : Drill) (period : Nat) (limit : Option Nat) : Drill :=
  d.addTimer (d.watchdogs.timetable.repeating period (.repeating limit))

def addArm (d : Drill) (added : Nat × Watchdogs Reaction) : Drill :=
  { d with watchdogs := added.2, arms := d.arms ++ [added.1] }

def arm (d : Drill) (kind : WatchdogKind) (delay : Nat) (claims : Bool) : Drill :=
  d.addArm (d.watchdogs.arm kind delay (.watch kind claims))

def armRepeating (d : Drill) (kind : WatchdogKind) (period : Nat) (limit : Option Nat) : Drill :=
  d.addArm (d.watchdogs.armRepeating kind period (.watchRepeating kind limit))

def cancelTimer (d : Drill) (id : Nat) : Drill :=
  d.withTimetable (d.watchdogs.timetable.cancel id)

def cancel (d : Drill) (kind : WatchdogKind) : Bool × Drill :=
  let (filled, watchdogs) := d.watchdogs.cancel kind
  (filled, { d with watchdogs })

def cancelAll (d : Drill) : Drill :=
  { d with watchdogs := d.watchdogs.cancelAll }

end Drill

end CastReceiver.Timer
