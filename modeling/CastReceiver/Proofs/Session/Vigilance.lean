import CastReceiver.Proofs.Session.Attendance
import CastReceiver.Proofs.Upkeep

/-!
# No negotiation hangs

When nobody interferes while commands are carried out, the watchdog of a negotiation is set exactly
while a peer waits for a decision, and it goes off when the time since the latest request is up.
Requests that are made during commands may leave a watchdog set that nobody needs; but between
operations no peer waits without one.
-/
namespace CastReceiver

open Timer (Watchdogs)

/-! ## Undisturbed runs -/

namespace Watch

variable {s t : Watch} {latest : Option Nat}

/-- The watchdog is set exactly during a negotiation, and goes off when the time is up since the
latest request. -/
structure Timed (latest : Option Nat) (s : Watch) : Prop where
  sound : s.watchdogs.Sound
  isSome_iff : (s.watchdogs.slot .connectionAccept).isSome = true ↔ s.Negotiates
  goesOffAt : s.Negotiates → ∃ time, latest = some time ∧
    s.watchdogs.GoesOffAt .connectionAccept (time + s.settings.connectionAcceptTimeout)

theorem Timed.handles (hs : s.Timed latest) (h : s.Handles t) : t.Timed latest := by
  rcases h with hspared | hsettled
  · refine ⟨hspared.watchdogs.sound, ?_, fun hnegotiates => ?_⟩
    · rw [hspared.watchdogs.slot_eq, hspared.negotiates]
      exact hs.isSome_iff
    · obtain ⟨time, hlatest, hdue⟩ := hs.goesOffAt (hspared.negotiates.1 hnegotiates)
      rw [hspared.settings]
      exact ⟨time, hlatest, hspared.watchdogs.goesOffAt _ hdue⟩
  · refine ⟨hsettled.watchdogs.sound, ?_, fun hnegotiates => absurd hnegotiates hsettled.ended⟩
    rw [hsettled.slot]
    exact iff_of_false nofun hsettled.ended

theorem Opens.timed (h : s.Opens t) : t.Timed (some s.watchdogs.timetable.now) where
  sound := h.watchdogs.sound
  isSome_iff := iff_of_true h.goesOffAt.isSome_slot h.negotiates
  goesOffAt _ := by
    rw [h.settings]
    exact ⟨_, rfl, h.goesOffAt⟩

theorem Timed.isArmed_iff (hs : s.Timed latest) :
    s.watchdogs.isArmed .connectionAccept = true ↔ s.Negotiates := by
  constructor
  · intro harmed
    exact hs.isSome_iff.1 (Watchdogs.isSome_slot_of_isArmed harmed)
  · intro hnegotiates
    obtain ⟨time, -, hdue⟩ := hs.goesOffAt hnegotiates
    exact hdue.isArmed

end Watch

namespace Machine

variable {m : Machine} {latest : Option Nat} {os : List Occurrence}

/-- When a peer last asked and was not turned away. -/
def latestRequest (m : Machine) (latest : Option Nat) : List Occurrence → Option Nat
  | [] => latest
  | o :: os => (m.undergo o).latestRequest
      (if o.requester?.isSome && m.gate.enabled then some m.now else latest) os

theorem undergo_timed (hm : m.watch.Timed latest) (hmanual : m.settings.autoAccept = false)
    {o : Occurrence} (ho : o.Possible m) :
    (m.undergo o).settings = m.settings ∧ (m.undergo o).watch.Timed
      (if o.requester?.isSome && m.gate.enabled then some m.now else latest) := by
  split
  case isTrue hrequest =>
    rw [Bool.and_eq_true] at hrequest
    have hopens := (o.run_opens hm.sound hmanual hrequest.1 hrequest.2).quietly
    exact ⟨hopens.settings, hopens.timed⟩
  case isFalse hother =>
    rw [Bool.and_eq_true, not_and] at hother
    have hattends : (o.run m).Attends m :=
      o.run_attends hm.sound ho fun hrequest henabled => absurd henabled (hother hrequest)
    have hhandles := hattends.quietly hm.sound
    exact ⟨hhandles.elim Watch.Spares.settings Watch.Settles.settings, hm.handles hhandles⟩

theorem undergoes_timed (hm : m.watch.Timed latest) (hmanual : m.settings.autoAccept = false)
    (hos : m.AllPossible os) : (m.undergoes os).settings = m.settings ∧
      (m.undergoes os).watch.Timed (m.latestRequest latest os) := by
  induction os generalizing m latest with
  | nil => exact ⟨rfl, hm⟩
  | cons o os ih =>
    obtain ⟨hsettings, htimed⟩ := undergo_timed hm hmanual hos.1
    obtain ⟨hsettings', htimed'⟩ := ih htimed (hsettings ▸ hmanual) hos.2
    exact ⟨hsettings'.trans hsettings, htimed'⟩

end Machine

/-! ## Worlds -/

namespace Watch

/-- The alarm in the slot of the watchdog is to go off. -/
structure Alert (s : Watch) : Prop where
  sound : s.watchdogs.Sound
  goesOffAt : (s.watchdogs.slot .connectionAccept).isSome = true →
    ∃ time, s.watchdogs.GoesOffAt .connectionAccept time

/-- No peer waits without a watchdog. -/
def Watched (s : Watch) : Prop :=
  s.Negotiates → (s.watchdogs.slot .connectionAccept).isSome = true

theorem alert_of_none {s : Watch} (hs : s.watchdogs.Sound)
    (hslot : s.watchdogs.slot .connectionAccept = none) : s.Alert where
  sound := hs
  goesOffAt h := by simp [hslot] at h

end Watch

/-- Negotiations are watched between operations. -/
def vigilance : Upkeep where
  sound m := m.watch.Alert
  ensues m m' := m.watchdogs.Ensues m'.watchdogs
  tidy m := m.watch.Watched
  refl hm := .refl hm.sound
  trans := .trans

section Vigilance

variable {m m' : Machine}

theorem Watch.Handles.step (h : m.watch.Handles m'.watch) (hm : m.watch.Alert) :
    vigilance.Step m m' := by
  rcases h with hspared | hsettled
  · refine ⟨⟨hspared.watchdogs.sound, fun hslot => ?_⟩, hspared.watchdogs.toEnsues, ?_⟩
    · rw [hspared.watchdogs.slot_eq] at hslot
      obtain ⟨time, hdue⟩ := hm.goesOffAt hslot
      exact ⟨time, hspared.watchdogs.goesOffAt time hdue⟩
    · intro hwatched hnegotiates
      rw [hspared.watchdogs.slot_eq]
      exact hwatched (hspared.negotiates.1 hnegotiates)
  · exact ⟨Watch.alert_of_none hsettled.watchdogs.sound hsettled.slot, hsettled.watchdogs,
      fun _ hnegotiates => absurd hnegotiates hsettled.ended⟩

theorem Watch.Settles.mends (h : m.watch.Settles m'.watch) : vigilance.Mends m m' where
  sound := Watch.alert_of_none h.watchdogs.sound h.slot
  ensues := h.watchdogs
  tidy hnegotiates := absurd hnegotiates h.ended

theorem Watch.Opens.mends (h : m.watch.Opens m'.watch) : vigilance.Mends m m' where
  sound := ⟨h.watchdogs.sound, fun _ => ⟨_, h.goesOffAt⟩⟩
  ensues := h.watchdogs
  tidy _ := h.goesOffAt.isSome_slot

theorem Watch.Alert.congr (hm : m.watch.Alert) (h : m'.watchdogs = m.watchdogs) :
    m'.watch.Alert where
  sound := by
    show m'.watchdogs.Sound
    rw [h]
    exact hm.sound
  goesOffAt := by
    show (m'.watchdogs.slot _).isSome = true → ∃ time, m'.watchdogs.GoesOffAt _ time
    rw [h]
    exact hm.goesOffAt

theorem ensues_of_eq (hm : m.watch.Alert) (h : m'.watchdogs = m.watchdogs) :
    vigilance.ensues m m' := by
  show m.watchdogs.Ensues m'.watchdogs
  rw [h]
  exact .refl hm.sound

theorem Watch.Leaves.mends (h : m.watch.Leaves m'.watch) (hm : m.watch.Alert) :
    vigilance.Mends m m' := by
  obtain ⟨hended, phase, hm'⟩ := h
  have hwatchdogs : m'.watchdogs = m.watchdogs := congrArg Watch.watchdogs hm'
  exact ⟨hm.congr hwatchdogs, ensues_of_eq hm hwatchdogs,
    fun hnegotiates => absurd hnegotiates hended⟩

theorem Run.Attends.keeps {α : Type} {r : Run α} (h : r.Attends m) (hm : m.watch.Alert) :
    r.Keeps vigilance m := by
  cases h with
  | brief h => exact (h.mono fun _ h => h.step hm).keeps
  | spares hr hf =>
    apply Run.keeps_bind (hr.mono fun _ h => Watch.Handles.step (.inl h) hm)
    intro m₁ a hm₁ hensues
    exact (hf m₁ a hm₁.sound hensues).mono fun _ h => h.step hm₁
  | cancels hr hf =>
    apply Run.keeps_bind_of_mends
      (hr.mono fun _ h => ⟨Watch.alert_of_none h.1.sound h.2.1, h.1⟩)
    intro m₁ a hm₁ _
    exact (hf m₁ a).mono fun _ h => h.mends hm₁
  | ends hr hf =>
    apply Run.keeps_bind_of_mends (hr.mono fun _ h => ⟨hm.congr h.1, ensues_of_eq hm h.1⟩)
    intro m₁ a hm₁ _
    exact (hf m₁ a hm₁.sound).mono fun _ h => h.mends

/-- Whatever happens, the watchdog of a negotiation is set when the operation is over. -/
theorem vigilance_governs : vigilance.Governs where
  fresh settings nameSource := by
    have hidle : ¬(World.fresh settings nameSource).machine.watch.Negotiates :=
      Watch.not_negotiates rfl
    exact ⟨Watch.alert_of_none Watchdogs.timely_empty.toSound rfl, fun h => absurd h hidle⟩
  runs m o hm ho := by
    rcases o.run_attends_or_opens hm.sound ho with hattends | hopens
    · exact hattends.keeps hm
    · exact (hopens.mono fun _ h => h.mends.step).keeps

end Vigilance

namespace World

/-- The timers of a machine are in order at all times. -/
theorem Reachable.sound {w : World} (h : w.Reachable) : w.machine.watchdogs.Sound :=
  (Upkeep.reachable_upheld vigilance_governs h).sound.sound

/-- In manual mode and without interference, the watchdog is set exactly while a peer waits for a
decision, and goes off when its time is up since the latest request. Whatever requests are made
during commands, no peer waits without a watchdog between operations. -/
theorem negotiations_watched :
    (∀ (settings : SessionSettings) (nameSource : Option NameSource) (os : List Occurrence),
      settings.autoAccept = false → (fresh settings nameSource).machine.AllPossible os →
        let m := (fresh settings nameSource).machine.undergoes os
        (m.watchdogs.isArmed .connectionAccept = true ↔
          m.phase = .connecting ∨ m.phase = .directLaunchConnecting) ∧
        (m.watchdogs.isArmed .connectionAccept = true →
          ∃ time, (fresh settings nameSource).machine.latestRequest none os = some time ∧
            m.watchdogs.deadline .connectionAccept =
              some (time + settings.connectionAcceptTimeout))) ∧
    ∀ w : World, w.Reachable → w.waiting = [] →
      w.machine.phase = .connecting ∨ w.machine.phase = .directLaunchConnecting →
        w.machine.watchdogs.isArmed .connectionAccept = true := by
  constructor
  · intro settings nameSource os hmanual hos m
    have hidle : ¬(fresh settings nameSource).machine.watch.Negotiates :=
      Watch.not_negotiates rfl
    have hfresh : (fresh settings nameSource).machine.watch.Timed none :=
      ⟨Watchdogs.timely_empty.toSound, iff_of_false nofun hidle, fun h => absurd h hidle⟩
    obtain ⟨hsettings, htimed⟩ := Machine.undergoes_timed hfresh hmanual hos
    refine ⟨htimed.isArmed_iff, fun harmed => ?_⟩
    obtain ⟨time, hlatest, hdue⟩ := htimed.goesOffAt (htimed.isArmed_iff.1 harmed)
    have hsettings' : m.watch.settings = settings := hsettings
    rw [hsettings'] at hdue
    exact ⟨time, hlatest, htimed.sound.deadline_eq hdue⟩
  · intro w hw hover hnegotiates
    obtain ⟨halert, hwatched⟩ := Upkeep.reachable_tidy vigilance_governs hw hover
    obtain ⟨time, hdue⟩ := halert.goesOffAt (hwatched hnegotiates)
    exact hdue.isArmed

/-- A second peer asks ten milliseconds after the first one; and a peer asks while discovery is
being started. -/
theorem negotiations_watched_from_the_second_request :
    (∃ os : List Occurrence, (fresh {} none).machine.AllPossible os ∧
      (fresh {} none).machine.latestRequest none os = some 15 ∧
      ((fresh {} none).machine.undergoes os).watchdogs.deadline .connectionAccept =
        some (15 + ({} : SessionSettings).connectionAcceptTimeout)) ∧
    ∃ w : World, w.Reachable ∧ w.waiting = [] ∧
      w.machine.watchdogs.isArmed .connectionAccept = true := by
  constructor
  · let asks (mac name : String) : Occurrence := .call (.report (.connectionRequest mac name))
    let os : List Occurrence :=
      [.call (.setEnabled true), .elapse 5, asks "aa" "A", .elapse 10, asks "bb" "B", .elapse 3]
    have hos : (fresh {} none).machine.AllPossible os := by decide +kernel
    have hlatest : (fresh {} none).machine.latestRequest none os = some 15 := by decide +kernel
    have hphase : ((fresh {} none).machine.undergoes os).phase = .connecting := by decide +kernel
    have hwatched := negotiations_watched.1 {} none os rfl hos
    obtain ⟨time, htime, hdeadline⟩ := hwatched.2 (hwatched.1.2 (.inl hphase))
    obtain rfl : 15 = time := Option.some.inj (hlatest.symm.trans htime)
    exact ⟨os, hos, hlatest, hdeadline⟩
  · let ts : List Turn := [.happen (.call (.setEnabled true)),
      .happen (.call (.report (.connectionRequest "aa" "A"))), .resume]
    let w := (fresh {} none).turns ts
    have hw : w.Reachable := (Reachable.fresh {} none).turns (by decide +kernel)
    have hphase : w.machine.phase = .connecting := by decide +kernel
    exact ⟨w, hw, rfl, negotiations_watched.2 w hw rfl (.inl hphase)⟩

end World

end CastReceiver
