import CastReceiver.Proofs.Session.Vigilance

/-!
# Requests that fail

A request that is refused or comes too late leaves no trace: the machine is the same as before, its
timers and its journal included, and no command has gone out. A decision cancels the watchdog of the
negotiation before it is known to be too late. When nobody interferes while commands are carried
out, there is no watchdog to cancel by then, because it is only set while a peer waits.
-/
namespace CastReceiver

/-! ## Success -/

/-- The request was neither refused nor too late. -/
def Reply.succeeds : Reply → Bool
  | .ack a => a.success
  | .refused _ | .unintelligible _ => false
  | .nothing | .flag _ | .phase _ => true

/-- The operation succeeds, or nothing happens at all. -/
def Run.Heeds {α : Type} (m : Machine) (succeeds : α → Bool) (r : Run α) : Prop :=
  succeeds r.quietly.2 = true ∨ ∃ a, r = .done m a

namespace Run

variable {α β : Type} {m : Machine} {succeeds : α → Bool} {succeeds' : β → Bool} {r : Run α}

theorem Heeds.map (h : r.Heeds m succeeds) (f : α → β)
    (hf : ∀ a, succeeds' (f a) = succeeds a) : (r.map f).Heeds m succeeds' := by
  rcases h with hsuccess | ⟨a, rfl⟩
  · left
    rw [quietly_map, hf]
    exact hsuccess
  · exact .inr ⟨f a, rfl⟩

theorem heeds_returning {b : β} (hb : succeeds' b = true) :
    (r.returning b).Heeds m succeeds' := by
  left
  rwa [quietly_returning]

end Run

/-! ## Watchdogs without a negotiation -/

/-- The watchdog is only set while a peer waits for a decision. -/
structure Watch.Apt (s : Watch) : Prop where
  sound : s.watchdogs.Sound
  negotiates : (s.watchdogs.slot .connectionAccept).isSome = true → s.Negotiates

theorem Watch.Apt.handles {s t : Watch} (hs : s.Apt) (h : s.Handles t) : t.Apt := by
  rcases h with hspared | hsettled
  · refine ⟨hspared.watchdogs.sound, fun hslot => ?_⟩
    rw [hspared.watchdogs.slot_eq] at hslot
    exact hspared.negotiates.2 (hs.negotiates hslot)
  · refine ⟨hsettled.watchdogs.sound, fun hslot => ?_⟩
    simp [hsettled.slot] at hslot

theorem Watch.Opens.apt {s t : Watch} (h : s.Opens t) : t.Apt :=
  ⟨h.watchdogs.sound, fun _ => h.negotiates⟩

namespace Machine

variable {m : Machine} {os : List Occurrence}

theorem undergo_apt (hm : m.watch.Apt) {o : Occurrence} (ho : o.Possible m) :
    (m.undergo o).watch.Apt := by
  rcases o.run_attends_or_opens hm.sound ho with hattends | hopens
  · exact hm.handles (hattends.quietly hm.sound)
  · exact hopens.quietly.apt

theorem undergoes_apt (hm : m.watch.Apt) (hos : m.AllPossible os) : (m.undergoes os).watch.Apt := by
  induction os generalizing m with
  | nil => exact hm
  | cons o os ih => exact ih (undergo_apt hm hos.1) hos.2

/-- Nothing is cancelled when nobody waits. -/
theorem disarm_of_apt (hm : m.watch.Apt) (hphase : ¬m.watch.Negotiates) :
    m.disarm .connectionAccept = m := by
  have hslot : m.watchdogs.slot .connectionAccept = none := by
    rw [← Option.not_isSome_iff_eq_none]
    exact fun hset => hphase (hm.negotiates hset)
  simp [disarm, Timer.Watchdogs.cancel, hslot]

/-! ## Operations -/

/-- An outcome is judged like the reply that tells it. -/
def Outcome.succeeds (o : Outcome) : Bool :=
  (Reply.ofOutcome o).succeeds

theorem enable_heeds (m : Machine) : m.enable.Heeds m Ack.success := by
  rw [enable]
  split
  · exact .inl rfl
  · dsimp only
    split
    · exact .inl rfl
    · split
      · exact .inl rfl
      · exact Run.heeds_returning rfl

theorem disable_heeds (m : Machine) : m.disable.Heeds m Outcome.succeeds := by
  rw [disable]
  split
  · exact .inl rfl
  · split
    · exact .inr ⟨_, rfl⟩
    · left
      rw [Run.quietly_andThen]
      rfl

theorem setEnabled_heeds (m : Machine) (enabled : Bool) :
    (m.setEnabled enabled).Heeds m Outcome.succeeds := by
  cases enabled with
  | false => exact disable_heeds m
  | true => exact (enable_heeds m).map Except.ok fun _ => rfl

/-- A decision that comes too late finds no watchdog to cancel. -/
theorem applyDecision_heeds (hm : m.watch.Apt) (d : Decision) :
    (m.applyDecision d).Heeds m Ack.success := by
  unfold applyDecision
  dsimp only
  split
  case h_1 =>
    split
    · exact Run.heeds_returning rfl
    · exact .inl rfl
  case h_2 | h_3 | h_4 => exact Run.heeds_returning rfl
  case h_5 d phase _ hdirect hdirect' hconnecting hconnecting' =>
    right
    refine ⟨.stale (.noRequestPending m.phase), ?_⟩
    have hphase : ¬m.watch.Negotiates := by
      rintro (hphase | hphase)
      · cases d
        · exact hconnecting hphase rfl
        · exact hconnecting' hphase rfl
      · cases d
        · exact hdirect hphase rfl
        · exact hdirect' hphase rfl
    rw [disarm_of_apt hm hphase]

theorem decide_heeds (hm : m.watch.Apt) (text : String) :
    (m.decide text).Heeds m Outcome.succeeds := by
  rw [decide]
  split
  · exact .inr ⟨_, rfl⟩
  · exact (applyDecision_heeds hm _).map Except.ok fun _ => rfl

theorem stopConnection_heeds (m : Machine) (mac name : String) :
    (m.stopConnection mac name).Heeds m Outcome.succeeds := by
  rw [stopConnection]
  split
  · exact .inr ⟨_, rfl⟩
  · split
    · exact Run.heeds_returning rfl
    · exact .inr ⟨_, rfl⟩
  · exact .inr ⟨_, rfl⟩

theorem endSession_succeeds (m : Machine) (mac name : String) (phase : Phase)
    (reason : StopReason) : (m.endSession mac name phase reason).quietly.2.success = true := by
  rw [endSession]
  split
  · rfl
  · dsimp only
    generalize (if reason.isFailure then m.notifyError ⟨mac, name⟩ reason else m).disarm
      .connectionAccept = m₁
    split
    · rw [Run.quietly_returning]
      rfl
    · rfl

theorem playerStopped_heeds (m : Machine) (mac : String) (reason : StopReason) :
    (m.playerStopped mac reason).Heeds m Ack.success := by
  rw [playerStopped]
  split
  · exact Run.heeds_returning rfl
  · split
    · exact .inr ⟨_, rfl⟩
    · exact .inl (endSession_succeeds _ _ _ _ _)

theorem updatePlayer_heeds (m : Machine) (mac state : String) (code : Nat) :
    (m.updatePlayer mac state code).Heeds m Outcome.succeeds := by
  rw [updatePlayer]
  split
  · exact .inr ⟨_, rfl⟩
  · exact (playerStopped_heeds m mac _).map Except.ok fun _ => rfl
  · exact .inl rfl

theorem perform_heeds (hm : m.watch.Apt) (c : Call) : (m.perform c).Heeds m Reply.succeeds := by
  cases c with
  | start | shutdown | report => exact Run.heeds_returning rfl
  | isEnabled | phase => exact .inl rfl
  | setEnabled enabled => exact (setEnabled_heeds m enabled).map _ fun _ => rfl
  | decide text => exact (decide_heeds hm text).map _ fun _ => rfl
  | stop mac name => exact (stopConnection_heeds m mac name).map _ fun _ => rfl
  | player mac state code => exact (updatePlayer_heeds m mac state code).map _ fun _ => rfl
  | backendDiscovery enabled =>
    have hpassed : (m.setBackendDiscovery enabled).Heeds m Ack.success :=
      Run.heeds_returning rfl
    exact hpassed.map _ fun _ => rfl

/-- When nobody interferes while commands are carried out, a request that fails is over at once and
has changed nothing. -/
theorem unchanged_of_failed (settings : SessionSettings) (nameSource : Option NameSource)
    (os : List Occurrence) (hos : (World.fresh settings nameSource).machine.AllPossible os)
    (c : Call) :
    let m := (World.fresh settings nameSource).machine.undergoes os
    ∀ reply, (m.perform c).quietly.2 = reply → reply.succeeds = false →
      m.perform c = .done m reply := by
  intro m reply hreply hfailed
  have hfresh : (World.fresh settings nameSource).machine.watch.Apt :=
    ⟨Timer.Watchdogs.timely_empty.toSound, fun h => nomatch h⟩
  rcases perform_heeds (undergoes_apt hfresh hos) c with hsuccess | ⟨a, hdone⟩
  · rw [hreply, hfailed] at hsuccess
    cases hsuccess
  · rw [hdone] at hreply ⊢
    exact congrArg (Run.done m) hreply

/-- The connection of a peer is to be stopped before anybody has decided about the peer. All three
watchdogs stay set. -/
theorem unchanged_of_stop_in_negotiation :
    ∃ (m : Machine) (reply : Reply), m.phase = .connecting ∧
      m.watchdogs.armedKinds = Timer.WatchdogKind.all ∧ reply.succeeds = false ∧
      m.perform (.stop "aa" "A") = .done m reply := by
  let os : List Occurrence :=
    [.call .start, .call (.setEnabled true), .call (.report (.connectionRequest "aa" "A")),
      .call (.report (.wifiStateChanged .connecting))]
  let nobody : Option NameSource := some fun _ => none
  have hos : (World.fresh {} nobody).machine.AllPossible os := by decide +kernel
  have hunchanged := unchanged_of_failed {} nobody os hos (.stop "aa" "A")
    (.ack (.stale (.stopAlreadyReceived .connecting))) (by decide +kernel) rfl
  exact ⟨_, _, by decide +kernel, by decide +kernel, rfl, hunchanged⟩

end Machine

end CastReceiver
