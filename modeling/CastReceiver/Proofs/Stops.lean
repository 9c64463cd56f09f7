import CastReceiver.Proofs.World

/-!
# Where runs stop

Most operations issue one command at most, and nothing is left to do once it has been carried out.
What such a brief run does is known from where it stops, whoever interferes meanwhile.
-/
namespace CastReceiver

namespace Run

variable {α β : Type}

/-- The machine where a run stops first: at a command or at its end. -/
def stop : Run α → Machine
  | .done m _ => m
  | .issue m _ _ => m

@[simp] theorem stop_done (m : Machine) (a : α) : (done m a).stop = m := rfl

@[simp] theorem stop_map (r : Run α) (f : α → β) : (r.map f).stop = r.stop := by
  cases r <;> rfl

@[simp] theorem stop_returning (r : Run α) (b : β) : (r.returning b).stop = r.stop :=
  stop_map r fun _ => b

@[simp] theorem stop_command (m : Machine) (c : Command) :
    (m.command c).stop = m.emit (.command c) := rfl

@[simp] theorem pause_machine (r : Run Reply) (waiting : List (Machine → Run Reply)) :
    (r.pause waiting).2.machine = r.stop := by
  cases r <;> rfl

/-- A run that is over with its first command, if it issues one at all, and what holds where it
stops. -/
def Brief (P : Machine → Prop) : Run α → Prop
  | .done m _ => P m
  | .issue m _ next => P m ∧ ∃ a, ∀ m', next m' = .done m' a

section Brief

variable {P Q : Machine → Prop} {r : Run α}

@[simp] theorem brief_done {m : Machine} {a : α} : (done m a).Brief P ↔ P m := Iff.rfl

@[simp] theorem brief_command {m : Machine} {c : Command} :
    (m.command c).Brief P ↔ P (m.emit (.command c)) :=
  ⟨And.left, fun h => ⟨h, (), fun _ => rfl⟩⟩

theorem Brief.map (h : r.Brief P) (f : α → β) : (r.map f).Brief P := by
  cases r with
  | done m a => exact h
  | issue m c next =>
    obtain ⟨hm, a, hnext⟩ := h
    exact ⟨hm, f a, fun m' => congrArg (fun r => r.map f) (hnext m')⟩

theorem Brief.returning (h : r.Brief P) (b : β) : (r.returning b).Brief P :=
  h.map fun _ => b

theorem Brief.mono (h : r.Brief P) (hPQ : ∀ m, P m → Q m) : r.Brief Q := by
  cases r with
  | done m a => exact hPQ m h
  | issue m c next => exact ⟨hPQ m h.1, h.2⟩

theorem Brief.quietly (h : r.Brief P) : P r.quietly.1 := by
  cases r with
  | done m a => exact h
  | issue m c next =>
    obtain ⟨hm, a, hnext⟩ := h
    show P (next m).quietly.1
    rwa [hnext]

end Brief

end Run

end CastReceiver
