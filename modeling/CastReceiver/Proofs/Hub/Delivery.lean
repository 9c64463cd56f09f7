import CastReceiver.Proofs.Hub.Dispatcher

/-!
# Nothing is lost, told twice or out of order

However registrations, emissions and the work of the dispatcher alternate, a notification is
delivered once to each listener that was registered when the dispatcher took it from the queue, and
to nobody else; each listener sees notifications in the order in which they were emitted, and
nothing but notifications. Every event goes out once on the channel, whether or not anybody listens
(`delivered_once_in_order`).
-/
namespace CastReceiver.Hub

namespace Dispatching

/-- A hub to which nothing has happened. -/
def fresh (capacity : Nat) : Dispatching where
  hub := .ofCapacity capacity

variable {d : Dispatching} {s : Step} {ss : List Step} {id : Nat}

/-! ## Who is registered -/

/-- A listener got its number when it was registered, and has not been removed since. -/
def Registered (d : Dispatching) (ss : List Step) (id : Nat) : Prop :=
  ∃ before since, ss = before ++ .register :: since ∧ id = (d.steps before).hub.register.1 ∧
    .unregister id ∉ since

theorem registered_cons :
    d.Registered (s :: ss) id ↔
      (s = .register ∧ id = d.hub.nextListener ∧ .unregister id ∉ ss) ∨
        (d.step s).Registered ss id := by
  constructor
  · rintro ⟨before, since, hss, hid, hsince⟩
    cases before with
    | nil =>
      cases hss
      exact .inl ⟨rfl, hid, hsince⟩
    | cons s before =>
      cases hss
      exact .inr ⟨before, since, rfl, hid, hsince⟩
  · rintro (⟨rfl, hid, hss⟩ | ⟨before, since, rfl, hid, hsince⟩)
    · exact ⟨[], ss, rfl, hid, hss⟩
    · exact ⟨s :: before, since, rfl, hid, hsince⟩

theorem mem_listeners_step :
    id ∈ (d.step s).hub.listeners ↔
      (id ∈ d.hub.listeners ∧ s ≠ .unregister id) ∨ (s = .register ∧ id = d.hub.nextListener) := by
  cases s with
  | register => simp [step, Hub.register]
  | unregister removed => simp [step, Hub.unregister, @eq_comm _ id]
  | emit e => cases e <;> simp [step, Hub.emit, Hub.notify, Hub.publish]
  | publish e => simp [step, Hub.publish]
  | progress =>
    obtain ⟨hub, due⟩ := d
    cases due with
    | nil => cases hq : hub.queue <;> simp [step, hq]
    | cons x due => simp [step]

/-- The listeners are those that were there at the beginning and those that have been registered, as
far as they have not been removed. -/
theorem mem_listeners_steps :
    id ∈ (d.steps ss).hub.listeners ↔
      (id ∈ d.hub.listeners ∧ .unregister id ∉ ss) ∨ d.Registered ss id := by
  induction ss generalizing d with
  | nil => simp [steps, Registered]
  | cons s ss ih =>
    show id ∈ ((d.step s).steps ss).hub.listeners ↔ _
    rw [ih, mem_listeners_step, registered_cons, List.mem_cons]
    have hne : s ≠ .unregister id ↔ ¬ Step.unregister id = s := not_congr eq_comm
    rw [hne]
    tauto

/-- Every listener has a number of its own. -/
structure Orderly (d : Dispatching) : Prop where
  nodup : d.hub.listeners.Nodup
  fresh : ∀ id ∈ d.hub.listeners, id < d.hub.nextListener

theorem orderly_fresh (capacity : Nat) : (fresh capacity).Orderly :=
  ⟨List.nodup_nil, List.forall_mem_nil _⟩

theorem Orderly.step (hd : d.Orderly) (s : Step) : (d.step s).Orderly := by
  cases s with
  | register =>
    refine ⟨?_, fun id hid => ?_⟩
    · show (d.hub.listeners ++ [d.hub.nextListener]).Nodup
      rw [List.nodup_append]
      refine ⟨hd.nodup, List.nodup_singleton _, fun id hid next hnext => ?_⟩
      rw [List.mem_singleton.1 hnext]
      exact Nat.ne_of_lt (hd.fresh id hid)
    · show id < d.hub.nextListener + 1
      rcases List.mem_append.1 hid with hid | hid
      · exact Nat.lt_succ_of_lt (hd.fresh id hid)
      · rw [List.mem_singleton.1 hid]
        exact Nat.lt_succ_self _
  | unregister removed =>
    exact ⟨hd.nodup.filter _, fun id hid => hd.fresh id (List.mem_of_mem_filter hid)⟩
  | emit e => cases e <;> exact ⟨hd.nodup, hd.fresh⟩
  | publish e => exact ⟨hd.nodup, hd.fresh⟩
  | progress =>
    obtain ⟨hub, due⟩ := d
    cases due with
    | nil =>
      cases hq : hub.queue with
      | nil =>
        have hstep : Dispatching.step ⟨hub, []⟩ .progress = ⟨hub, []⟩ := by
          simp [Dispatching.step, hq]
        rwa [hstep]
      | cons n queue =>
        have hstep : (Dispatching.step ⟨hub, []⟩ .progress).hub = { hub with queue } := by
          simp [Dispatching.step, hq]
        refine ⟨?_, ?_⟩ <;> rw [hstep]
        · exact hd.nodup
        · exact hd.fresh
    | cons x due => exact ⟨hd.nodup, hd.fresh⟩

theorem Orderly.nodup_of_mem_rounds (hd : d.Orderly) {r : Round} (hr : r ∈ d.rounds ss) :
    r.targets.Nodup := by
  induction ss generalizing d with
  | nil => cases hr
  | cons s ss ih =>
    rcases List.mem_append.1 hr with hr | hr
    · cases s with
      | progress =>
        simp only [round?, Option.mem_toList] at hr
        split at hr
        · obtain ⟨n, -, rfl⟩ := Option.map_eq_some_iff.1 hr
          exact hd.nodup
        · cases hr
      | register | unregister | emit | publish => cases hr
    · exact ih (hd.step s) hr

/-! ## What a listener sees -/

/-- The notifications that a listener gets by some deliveries. -/
def seen (id : Nat) (xs : List Delivery) : List Notification :=
  xs.filterMap fun x => if x.listener = id then some x.notification else none

theorem seen_deliveries {r : Round} (hr : r.targets.Nodup) (id : Nat) :
    seen id r.deliveries = if id ∈ r.targets then [r.notification] else [] := by
  obtain ⟨n, targets⟩ := r
  induction targets with
  | nil => rfl
  | cons listener targets ih =>
    obtain ⟨hnew, htargets⟩ := List.nodup_cons.1 hr
    have hih := ih htargets
    simp only [Round.deliveries, seen] at hih
    by_cases hid : listener = id
    · subst hid
      simp [Round.deliveries, seen, hih, hnew]
    · simp [Round.deliveries, seen, hih, hid, Ne.symm hid]

/-- A listener sees each round once of which it is a target, and no other. -/
theorem seen_rounds {rs : List Round} (hrs : ∀ r ∈ rs, r.targets.Nodup) (id : Nat) :
    seen id (rs.flatMap Round.deliveries) =
      (rs.filter (id ∈ ·.targets)).map Round.notification := by
  induction rs with
  | nil => rfl
  | cons r rs ih =>
    obtain ⟨hr, hrs⟩ := List.forall_mem_cons.1 hrs
    have hfirst := seen_deliveries hr id
    rw [List.flatMap_cons, seen, List.filterMap_append]
    show seen id r.deliveries ++ seen id (rs.flatMap Round.deliveries) = _
    rw [hfirst, ih hrs]
    by_cases hid : id ∈ r.targets <;> simp [hid]

/-- Each notification is taken from the queue once, in the order of emission, and is delivered once
to each listener that is registered at that moment: what a listener has seen, with what is under way
to it, are the notifications that were taken while it was registered. What is only published does
not reach a listener, and neither does a state or a command. All events go out on the channel in
their order, where a reader that is not too slow gets those that came after it joined; and the
dispatcher can always bring the queue to its end. Between two rounds it can do so in one go, which
is `Hub.dispatch`, whatever listeners register and remove meanwhile. -/
theorem delivered_once_in_order (capacity : Nat) (ss : List Step) :
    ((fresh capacity).rounds ss).map Round.notification ++ ((fresh capacity).steps ss).hub.queue =
        notified ss ∧
      (∀ earlier r, ((fresh capacity).steps earlier).round? .progress = some r →
        ∀ id, id ∈ r.targets ↔ (fresh capacity).Registered earlier id) ∧
      (∀ id, seen id ((fresh capacity).deliveries ss) ++ seen id ((fresh capacity).steps ss).due =
        (((fresh capacity).rounds ss).filter (id ∈ ·.targets)).map Round.notification) ∧
      (∀ id, (seen id ((fresh capacity).deliveries ss)).Sublist (notified ss)) ∧
      ((fresh capacity).steps ss).hub.channel.sent = published ss ∧
      (∀ earlier later, ss = earlier ++ later →
        (published later).length ≤ (fresh capacity).hub.channel.capacity →
        ((fresh capacity).steps ss).hub.channel.read
          ((fresh capacity).steps earlier).hub.channel.position = ⟨0, published later⟩) ∧
      (∃ own, (∀ s ∈ own, s = .progress) ∧ ((fresh capacity).steps (ss ++ own)).due = [] ∧
        ((fresh capacity).steps (ss ++ own)).hub.queue = []) ∧
      ∀ react, ((fresh capacity).steps ss).due = [] →
        let dispatched := ((fresh capacity).steps ss).hub.dispatch react
        dispatched.2.queue = [] ∧ ∃ own, (∀ s ∈ own, s.IsOwn react) ∧
          (fresh capacity).steps (ss ++ own) = ⟨dispatched.2, []⟩ ∧
          (fresh capacity).deliveries (ss ++ own) =
            (fresh capacity).deliveries ss ++ dispatched.1 := by
  have hqueue : ((fresh capacity).rounds ss).map Round.notification ++
      ((fresh capacity).steps ss).hub.queue = notified ss := (fresh capacity).rounds_append_queue ss
  have hseen (id : Nat) :
      seen id ((fresh capacity).deliveries ss) ++ seen id ((fresh capacity).steps ss).due =
        (((fresh capacity).rounds ss).filter (id ∈ ·.targets)).map Round.notification := by
    have hdeliveries := (fresh capacity).deliveries_append_due ss
    have hnodup (r : Round) (hr : r ∈ (fresh capacity).rounds ss) : r.targets.Nodup :=
      (orderly_fresh capacity).nodup_of_mem_rounds hr
    rw [← seen_rounds hnodup, seen, seen, ← List.filterMap_append, hdeliveries]
    rfl
  have hsent (ss : List Step) : ((fresh capacity).steps ss).hub.channel.sent = published ss :=
    (fresh capacity).sent_steps ss
  refine ⟨hqueue, ?_, hseen, fun id => ?_, hsent ss, ?_, ?_, ?_⟩
  · intro earlier r hr id
    simp only [round?] at hr
    split at hr
    · obtain ⟨n, -, rfl⟩ := Option.map_eq_some_iff.1 hr
      rw [mem_listeners_steps]
      exact or_iff_right fun h => List.not_mem_nil h.1
    · cases hr
  · have hinitial := List.prefix_append (seen id ((fresh capacity).deliveries ss))
      (seen id ((fresh capacity).steps ss).due)
    rw [hseen] at hinitial
    have htaken := List.prefix_append (((fresh capacity).rounds ss).map Round.notification)
      ((fresh capacity).steps ss).hub.queue
    rw [hqueue] at htaken
    exact (hinitial.sublist.trans (List.filter_sublist.map _)).trans htaken.sublist
  · rintro earlier later rfl hroom
    have hparts : published (earlier ++ later) = published earlier ++ published later :=
      List.filterMap_append
    have hposition : ((fresh capacity).steps earlier).hub.channel.position =
        (published earlier).length := congrArg List.length (hsent earlier)
    rw [hposition, Channel.read_of_le, hsent, hparts, List.drop_left]
    rw [hsent, hparts, List.length_append, capacity_steps]
    omega
  · obtain ⟨own, hown, hquiet⟩ := exists_progress ((fresh capacity).steps ss)
    refine ⟨own, hown, ?_⟩
    rw [steps_append]
    exact hquiet
  · intro react hdue
    obtain ⟨own, hown, hsteps, hdeliveries, hempty⟩ :=
      dispatch_eq_steps react ((fresh capacity).steps ss).hub
    rw [← hdue] at hsteps hdeliveries
    refine ⟨hempty, own, hown, ?_, ?_⟩
    · rw [steps_append, hsteps, hdue]
    · rw [deliveries_append, hdeliveries]

/-- A listener that is removed in the middle of a round is called all the same, and one that comes
then is not. -/
example (n : Notification) :
    (fresh 4).deliveries [.register, .register, .emit (.notification n), .progress, .progress,
      .unregister 1, .register, .progress, .progress] = [⟨0, n⟩, ⟨1, n⟩] := rfl

end Dispatching

end CastReceiver.Hub
