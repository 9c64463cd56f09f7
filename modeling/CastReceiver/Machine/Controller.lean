import CastReceiver.Machine.Operations
import CastReceiver.Timer.Clockwork

/-!
# Controllers that call back

A controller follows rules when it carries a command out: the first rule that is made for the
command and not used up says which requests it makes of the machine meanwhile. Commands that those
requests issue are answered by the same rules, so each answer uses a rule up a little more and the
exchange comes to an end.
-/
namespace CastReceiver

/-- A request as a rule gives it, under a name; it may be unintelligible. -/
structure Scripted where
  label : String
  call : Except String Call

structure Rule where
  /-- The commands that the rule is made for. -/
  cue : String
  /-- How often the rule may still be used. -/
  uses : Nat
  script : List Scripted

/-- The word by which a rule says which commands it is made for. -/
def Command.cue (c : Command) : String :=
  match c with
  | .acceptClientConnection d => c.kind ++ ":" ++ d.name
  | _ => c.kind

namespace Rule

/-- Uses the first rule for a command up by one: its script, and the rules that are left. -/
def take? (c : Command) : List Rule → Option (List Scripted × List Rule)
  | [] => none
  | r :: rules =>
    if r.cue = c.cue ∧ 0 < r.uses then
      some (r.script, { r with uses := r.uses - 1 } :: rules)
    else (take? c rules).map fun (script, rules) => (script, r :: rules)

/-- How many more commands rules can answer. -/
def budget (rules : List Rule) : Nat :=
  rules.foldr (fun r n => r.uses + n) 0

end Rule

namespace Machine

/-- What a machine does about a scripted request. -/
def follow (m : Machine) (s : Scripted) : Run Reply :=
  match s.call with
  | .ok call => m.perform call
  | .error fault => .done m (.unintelligible fault)

end Machine

/-- Carries a command out by rules that answer at most so many commands. -/
def Rule.answer : Nat → List Rule → Command → Machine → List Rule × Machine
  | 0, rules, _, m => (rules, m)
  | n + 1, rules, c, m =>
    match take? c rules with
    | none => (rules, m)
    | some (script, rules) =>
      script.foldl (fun (rules, m) s =>
        let (rules, m, reply) := (m.follow s).answeredBy (answer n) rules
        (rules, m.record (.nested s.label reply))) (rules, m)

/-- A machine whose commands are carried out by rules. -/
structure Controlled where
  machine : Machine
  rules : List Rule := []

namespace Controlled

/-- A run to its end. -/
def complete (c : Controlled) (r : Run α) : Controlled × α :=
  let (rules, machine, a) := r.answeredBy (Rule.answer (Rule.budget c.rules)) c.rules
  (⟨machine, rules⟩, a)

def follow (c : Controlled) (s : Scripted) : Controlled × Reply :=
  c.complete (c.machine.follow s)

/-- Only rules make a task set an alarm that is due at once, so their budget bounds how often that
happens in a row. -/
def clockwork : Timer.Clockwork Controlled Task where
  timetable c := c.machine.watchdogs.timetable
  withTimetable c t := { c with machine := c.machine.withTimetable t }
  goOff a c := (c.complete (c.machine.ring a)).1
  echoes c := Rule.budget c.rules

def settle (c : Controlled) : Controlled := clockwork.settle c

def advance (ms : Nat) (c : Controlled) : Controlled := clockwork.advance ms c

/-- What the machine has said since the journal was last taken, and the machine without it. -/
def takeJournal (c : Controlled) : List Entry × Controlled :=
  (c.machine.journal, { c with machine := { c.machine with journal := [] } })

end Controlled

end CastReceiver
