import CastReceiver.Machine.Basic

/-!
# Runs

An operation of the machine changes it step by step and issues commands on the way. While a
command is carried out, whoever carries it out may make requests of its own, so a run hands the
machine over with each command and goes on with the machine that it is given back.
-/
namespace CastReceiver

inductive Run (α : Type) where
  /-- The operation is over. -/
  | done (m : Machine) (result : α)
  /-- A command goes out, and the run goes on with the machine as it is afterwards. -/
  | issue (m : Machine) (c : Command) (next : Machine → Run α)

namespace Run

variable {α β σ : Type}

/-- One run after another. -/
def bind : Run α → (Machine → α → Run β) → Run β
  | .done m a, f => f m a
  | .issue m c next, f => .issue m c fun m => (next m).bind f

/-- A run after one whose result is of no interest. -/
def andThen (r : Run α) (f : Machine → Run β) : Run β :=
  r.bind fun m _ => f m

def map (f : α → β) (r : Run α) : Run β :=
  r.bind fun m a => .done m (f a)

/-- A run whose result is known beforehand. -/
def returning (r : Run α) (b : β) : Run β :=
  r.map fun _ => b

@[simp] theorem bind_done (m : Machine) (a : α) (f : Machine → α → Run β) :
    (done m a).bind f = f m a := rfl

@[simp] theorem bind_issue (m : Machine) (c : Command) (next : Machine → Run α)
    (f : Machine → α → Run β) :
    (issue m c next).bind f = issue m c fun m => (next m).bind f := rfl

theorem bind_assoc {γ : Type} (r : Run α) (f : Machine → α → Run β) (g : Machine → β → Run γ) :
    (r.bind f).bind g = r.bind fun m a => (f m a).bind g := by
  induction r with
  | done m a => rfl
  | issue m c next ih => exact congrArg (issue m c) (funext ih)

theorem bind_unit (r : Run Unit) : (r.bind fun m _ => .done m ()) = r := by
  induction r with
  | done m a => rfl
  | issue m c next ih => exact congrArg (issue m c) (funext ih)

/-- A run in which nobody interferes. -/
def quietly : Run α → Machine × α
  | .done m a => (m, a)
  | .issue m _ next => (next m).quietly

@[simp] theorem quietly_done (m : Machine) (a : α) : (done m a).quietly = (m, a) := rfl

@[simp] theorem quietly_bind (r : Run α) (f : Machine → α → Run β) :
    (r.bind f).quietly = (f r.quietly.1 r.quietly.2).quietly := by
  induction r with
  | done m a => rfl
  | issue m c next ih => exact ih m

@[simp] theorem quietly_andThen (r : Run α) (f : Machine → Run β) :
    (r.andThen f).quietly = (f r.quietly.1).quietly :=
  quietly_bind r fun m _ => f m

@[simp] theorem quietly_map (r : Run α) (f : α → β) :
    (r.map f).quietly = (r.quietly.1, f r.quietly.2) :=
  quietly_bind r fun m a => .done m (f a)

@[simp] theorem quietly_returning (r : Run α) (b : β) :
    (r.returning b).quietly = (r.quietly.1, b) :=
  quietly_map r fun _ => b

/-- A run in which every command is answered by a party with a state of its own. -/
def answeredBy (answer : σ → Command → Machine → σ × Machine) : σ → Run α → σ × Machine × α
  | s, .done m a => (s, m, a)
  | s, .issue m c next =>
    let (s, m) := answer s c m
    (next m).answeredBy answer s

end Run

/-- A command enters the journal and goes out. -/
def Machine.command (m : Machine) (c : Command) : Run Unit :=
  .issue (m.emit (.command c)) c fun m => .done m ()

@[simp] theorem Machine.quietly_command (m : Machine) (c : Command) :
    (m.command c).quietly = (m.emit (.command c), ()) := rfl

end CastReceiver
