import CastReceiver.Hub.Basic
import Mathlib.Data.List.Nodup

/-!
# The dispatcher of a hub at work

The dispatcher takes a notification from the queue and calls the listeners that are registered at
that moment one after another. Anything else may happen to the hub between two calls: a listener may
register another or remove itself, and more may be emitted. When nothing happens but what listeners
do while they are called, this is what `Hub.dispatch` does in one go (`dispatch_eq_steps`).
-/
namespace CastReceiver.Hub

/-- What can happen to a hub. -/
inductive Step where
  | register
  | unregister (id : Nat)
  | emit (e : Event)
  /-- The event goes out on the channel only. -/
  | publish (e : Event)
  /-- The dispatcher calls the next listener, or takes the next notification when it has called all
  of them. -/
  | progress
  deriving DecidableEq

/-- A notification on its way to the listeners that were registered when it was taken from the
queue. -/
structure Round where
  notification : Notification
  targets : List Nat
  deriving DecidableEq

def Round.deliveries (r : Round) : List Delivery :=
  r.targets.map (⟨·, r.notification⟩)

/-- A hub, and what its dispatcher has still to deliver before it takes the next notification. -/
structure Dispatching where
  hub : Hub
  due : List Delivery := []

def Change.step : Change → Step
  | .register => .register
  | .unregister id => .unregister id

/-- What happens while nobody but the dispatcher is at work: it goes on, and listeners that it calls
register others or remove them. -/
def Step.IsOwn (react : Reaction) (s : Step) : Prop :=
  s = .progress ∨ ∃ listener n, ∃ c ∈ react listener n, s = c.step

/-- The notifications that are emitted in some steps. -/
def notified (ss : List Step) : List Notification :=
  ss.filterMap fun
    | .emit (.notification n) => some n
    | _ => none

/-- The events that are to go out on the channel in some steps. -/
def published (ss : List Step) : List Event :=
  ss.filterMap fun
    | .emit e | .publish e => some e
    | _ => none

namespace Dispatching

def step (d : Dispatching) : Step → Dispatching
  | .register => { d with hub := d.hub.register.2 }
  | .unregister id => { d with hub := (d.hub.unregister id).2 }
  | .emit e => { d with hub := d.hub.emit e }
  | .publish e => { d with hub := d.hub.publish e }
  | .progress =>
    match d.due, d.hub.queue with
    | _ :: due, _ => { d with due }
    | [], n :: queue =>
      { hub := { d.hub with queue }, due := (Round.mk n d.hub.listeners).deliveries }
    | [], [] => d

/-- The listener that is called in a step, and with what. -/
def delivery? (d : Dispatching) : Step → Option Delivery
  | .progress => d.due.head?
  | _ => none

/-- What the dispatcher takes from the queue in a step, and the listeners that are registered
then. -/
def round? (d : Dispatching) : Step → Option Round
  | .progress => if d.due = [] then d.hub.queue.head?.map (⟨·, d.hub.listeners⟩) else none
  | _ => none

def steps (d : Dispatching) (ss : List Step) : Dispatching :=
  ss.foldl step d

def deliveries (d : Dispatching) : List Step → List Delivery
  | [] => []
  | s :: ss => (d.delivery? s).toList ++ (d.step s).deliveries ss

def rounds (d : Dispatching) : List Step → List Round
  | [] => []
  | s :: ss => (d.round? s).toList ++ (d.step s).rounds ss

variable (d : Dispatching) (s : Step) (ss ss' : List Step)

theorem steps_append : d.steps (ss ++ ss') = (d.steps ss).steps ss' :=
  List.foldl_append

theorem deliveries_append :
    d.deliveries (ss ++ ss') = d.deliveries ss ++ (d.steps ss).deliveries ss' := by
  induction ss generalizing d with
  | nil => rfl
  | cons s ss ih =>
    rw [List.cons_append, deliveries, deliveries, ih, List.append_assoc]
    rfl

/-! ## One step -/

theorem queue_step :
    (d.round? s).toList.map Round.notification ++ (d.step s).hub.queue =
      d.hub.queue ++ notified [s] := by
  cases s with
  | register | unregister | publish => simp [round?, step, notified, Hub.register, Hub.unregister,
      Hub.publish]
  | emit e =>
    cases e <;> simp [round?, step, notified, Hub.emit, Hub.notify, Hub.publish]
  | progress =>
    obtain ⟨hub, due⟩ := d
    cases due with
    | nil => cases hq : hub.queue <;> simp [round?, step, notified, hq]
    | cons x due => simp [round?, step, notified]

theorem due_step :
    (d.delivery? s).toList ++ (d.step s).due =
      d.due ++ (d.round? s).toList.flatMap Round.deliveries := by
  cases s with
  | register | unregister | emit | publish => simp [delivery?, round?, step]
  | progress =>
    obtain ⟨hub, due⟩ := d
    cases due with
    | nil => cases hq : hub.queue <;> simp [delivery?, round?, step, hq]
    | cons x due => simp [delivery?, round?, step]

theorem sent_step :
    (d.step s).hub.channel.sent = d.hub.channel.sent ++ published [s] := by
  cases s with
  | register | unregister => simp [step, published, Hub.register, Hub.unregister]
  | publish e => rfl
  | emit e => cases e <;> rfl
  | progress =>
    obtain ⟨hub, due⟩ := d
    cases due with
    | nil => cases hq : hub.queue <;> simp [step, published, hq]
    | cons x due => simp [step, published]

theorem capacity_step : (d.step s).hub.channel.capacity = d.hub.channel.capacity := by
  cases s with
  | register | unregister | publish => rfl
  | emit e => cases e <;> rfl
  | progress =>
    obtain ⟨hub, due⟩ := d
    cases due with
    | nil => cases hq : hub.queue <;> simp [step, hq]
    | cons x due => rfl

/-! ## Runs -/

/-- Notifications leave the queue in the order in which they were emitted. -/
theorem rounds_append_queue :
    (d.rounds ss).map Round.notification ++ (d.steps ss).hub.queue =
      d.hub.queue ++ notified ss := by
  induction ss generalizing d with
  | nil => simp [rounds, steps, notified]
  | cons s ss ih =>
    have hstep := d.queue_step s
    have hnotified : notified (s :: ss) = notified [s] ++ notified ss :=
      List.filterMap_append (l := [s])
    rw [rounds, List.map_append, List.append_assoc]
    show _ ++ (_ ++ ((d.step s).steps ss).hub.queue) = _
    rw [ih, ← List.append_assoc, hstep, List.append_assoc, hnotified]

/-- What is delivered, and what is still to be delivered, are the rounds one after another. -/
theorem deliveries_append_due :
    d.deliveries ss ++ (d.steps ss).due = d.due ++ (d.rounds ss).flatMap Round.deliveries := by
  induction ss generalizing d with
  | nil => simp [deliveries, rounds, steps]
  | cons s ss ih =>
    have hstep := d.due_step s
    rw [deliveries, rounds, List.flatMap_append, List.append_assoc]
    show _ ++ (_ ++ ((d.step s).steps ss).due) = _
    rw [ih, ← List.append_assoc, hstep, List.append_assoc]

theorem sent_steps :
    (d.steps ss).hub.channel.sent = d.hub.channel.sent ++ published ss := by
  induction ss generalizing d with
  | nil => simp [steps, published]
  | cons s ss ih =>
    have hpublished : published (s :: ss) = published [s] ++ published ss :=
      List.filterMap_append (l := [s])
    show ((d.step s).steps ss).hub.channel.sent = _
    rw [ih, sent_step, List.append_assoc, hpublished]

theorem capacity_steps : (d.steps ss).hub.channel.capacity = d.hub.channel.capacity := by
  induction ss generalizing d with
  | nil => rfl
  | cons s ss ih => exact (ih _).trans (d.capacity_step s)

/-! ## The dispatcher alone -/

variable (react : Reaction) (h : Hub) (n : Notification) (queue : List Notification)

theorem steps_changes (due : List Delivery) (cs : List Change) :
    steps ⟨h, due⟩ (cs.map Change.step) = ⟨cs.foldl apply h, due⟩ ∧
      deliveries ⟨h, due⟩ (cs.map Change.step) = [] := by
  induction cs generalizing h with
  | nil => exact ⟨rfl, rfl⟩
  | cons c cs ih => cases c <;> exact ih _

/-- The calls of one round, each with what the listener does meanwhile. -/
def calls (targets : List Nat) : List Step :=
  targets.flatMap fun listener => .progress :: (react listener n).map Change.step

theorem isOwn_calls {targets : List Nat} {s : Step} (hs : s ∈ calls react n targets) :
    s.IsOwn react := by
  obtain ⟨listener, -, hs⟩ := List.mem_flatMap.1 hs
  rcases List.mem_cons.1 hs with rfl | hs
  · exact .inl rfl
  · obtain ⟨c, hc, rfl⟩ := List.mem_map.1 hs
    exact .inr ⟨listener, n, c, hc, rfl⟩

theorem steps_calls (targets : List Nat) :
    steps ⟨h, (Round.mk n targets).deliveries⟩ (calls react n targets) =
        ⟨(targets.flatMap (react · n)).foldl apply h, []⟩ ∧
      deliveries ⟨h, (Round.mk n targets).deliveries⟩ (calls react n targets) =
        (Round.mk n targets).deliveries := by
  induction targets generalizing h with
  | nil => exact ⟨rfl, rfl⟩
  | cons listener targets ih =>
    have hcall : calls react n (listener :: targets) =
        [.progress] ++ ((react listener n).map Change.step ++ calls react n targets) := by
      simp [calls]
    have hchanges := steps_changes h (Round.mk n targets).deliveries (react listener n)
    have hprogress : steps ⟨h, (Round.mk n (listener :: targets)).deliveries⟩ [.progress] =
        ⟨h, (Round.mk n targets).deliveries⟩ := rfl
    obtain ⟨hsteps, hdeliveries⟩ := ih ((react listener n).foldl apply h)
    rw [hcall, steps_append, hprogress, steps_append, hchanges.1, hsteps, deliveries_append,
      hprogress, deliveries_append, hchanges.2, hchanges.1, hdeliveries, List.flatMap_cons,
      List.foldl_append]
    exact ⟨rfl, rfl⟩

/-- What listeners do does not depend on what waits in the queue. -/
theorem foldl_apply_withQueue (cs : List Change) :
    cs.foldl apply { h with queue } = { cs.foldl apply h with queue } := by
  induction cs generalizing h with
  | nil => rfl
  | cons c cs ih =>
    have happly : apply { h with queue } c = { apply h c with queue } := by cases c <;> rfl
    rw [List.foldl_cons, happly]
    exact ih (apply h c)

theorem queue_foldl_apply (cs : List Change) : (cs.foldl apply h).queue = h.queue := by
  induction cs generalizing h with
  | nil => rfl
  | cons c cs ih => cases c <;> exact ih _

theorem deliverAll_eq_steps (ns : List Notification) (hqueue : h.queue = []) :
    ∃ ss, (∀ s ∈ ss, s.IsOwn react) ∧
      steps ⟨{ h with queue := ns }, []⟩ ss = ⟨(deliverAll react ns h).2, []⟩ ∧
      deliveries ⟨{ h with queue := ns }, []⟩ ss = (deliverAll react ns h).1 ∧
      (deliverAll react ns h).2.queue = [] := by
  induction ns generalizing h with
  | nil =>
    have hsame : { h with queue := [] } = h := by rw [← hqueue]
    exact ⟨[], List.forall_mem_nil _, by rw [hsame]; rfl, rfl, hqueue⟩
  | cons n ns ih =>
    let h' := (h.deliver react n).2
    have hqueue' : h'.queue = [] := (queue_foldl_apply h _).trans hqueue
    obtain ⟨ss, hss, hsteps, hdeliveries, hempty⟩ := ih h' hqueue'
    let d : Dispatching := ⟨{ h with queue := ns }, (Round.mk n h.listeners).deliveries⟩
    have htake : steps ⟨{ h with queue := n :: ns }, []⟩ [.progress] = d := rfl
    have hcalls := steps_calls react { h with queue := ns } n h.listeners
    rw [foldl_apply_withQueue] at hcalls
    refine ⟨[.progress] ++ (calls react n h.listeners ++ ss), ?_, ?_, ?_, hempty⟩
    · intro s hs
      rcases List.mem_append.1 hs with hs | hs
      · exact .inl (List.mem_singleton.1 hs)
      · rcases List.mem_append.1 hs with hs | hs
        · exact isOwn_calls react n hs
        · exact hss s hs
    · rw [steps_append, htake, steps_append, hcalls.1]
      exact hsteps
    · rw [deliveries_append, htake, deliveries_append, hcalls.1, hcalls.2]
      show [] ++ (_ ++ deliveries ⟨{ h' with queue := ns }, []⟩ ss) = _
      rw [hdeliveries]
      rfl

/-- When nobody else is at work, the dispatcher delivers all that waits, as it is done in one
go. -/
theorem dispatch_eq_steps :
    ∃ ss, (∀ s ∈ ss, s.IsOwn react) ∧ steps ⟨h, []⟩ ss = ⟨(h.dispatch react).2, []⟩ ∧
      deliveries ⟨h, []⟩ ss = (h.dispatch react).1 ∧ (h.dispatch react).2.queue = [] :=
  deliverAll_eq_steps react { h with queue := [] } h.queue rfl

/-- The dispatcher can always finish what it has begun, and then take what waits in the queue. -/
theorem exists_progress (d : Dispatching) :
    ∃ ss, (∀ s ∈ ss, s = .progress) ∧ (d.steps ss).due = [] ∧ (d.steps ss).hub.queue = [] := by
  obtain ⟨h, due⟩ := d
  induction due with
  | nil =>
    obtain ⟨ss, hss, hsteps, -, hempty⟩ := dispatch_eq_steps (fun _ _ => []) h
    refine ⟨ss, fun s hs => ?_, ?_⟩
    · rcases hss s hs with hs | ⟨_, _, _, hc, _⟩
      · exact hs
      · cases hc
    · rw [hsteps]
      exact ⟨rfl, hempty⟩
  | cons x due ih =>
    obtain ⟨ss, hss, hquiet⟩ := ih
    exact ⟨.progress :: ss, List.forall_mem_cons.2 ⟨rfl, hss⟩, hquiet⟩

end Dispatching

end CastReceiver.Hub
