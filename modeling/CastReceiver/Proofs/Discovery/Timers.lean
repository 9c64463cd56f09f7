import CastReceiver.Machine.Basic
import Mathlib.Data.List.Nodup

/-!
# The timers of a machine

The alarms of a machine have numbers of their own, and an alarm whose number is in the slot of a
watchdog is an alarm of that watchdog. So no timer cancels an alarm that is not its own, and a
filled slot of the radio watchdog means that its alarm is still to go off.
-/
namespace CastReceiver.Timer

namespace Timetable

variable {α : Type} (t : Timetable α)

/-- An alarm that is not pending need not be taken out. -/
@[simp] theorem cancel_alarms (id : Nat) :
    (t.cancel id).alarms = t.alarms.filter fun a => a.id != id := by
  rw [cancel]
  split
  case isTrue => rfl
  case isFalse h =>
    rw [eq_comm, List.filter_eq_self]
    intro a ha
    simp only [isPending, List.any_eq_true, not_exists, not_and] at h
    simpa using h a ha

@[simp] theorem cancel_nextId (id : Nat) : (t.cancel id).nextId = t.nextId := by
  rw [cancel]
  split <;> rfl

@[simp] theorem cancel_running (id : Nat) : (t.cancel id).running = t.running := by
  rw [cancel]
  split <;> rfl

@[simp] theorem cancel_now (id : Nat) : (t.cancel id).now = t.now := by
  rw [cancel]
  split <;> rfl

variable (a : Alarm α)

@[simp] theorem start_nextId : (t.start a).nextId = t.nextId := by
  rw [start]
  split <;> rfl

@[simp] theorem start_running : (t.start a).running = t.running := by
  rw [start]
  split <;> rfl

@[simp] theorem start_now : (t.start a).now = t.now := by
  rw [start]
  split <;> rfl

theorem start_ids : ((t.start a).alarms.map Alarm.id).Sublist (t.alarms.map Alarm.id) := by
  rw [start]
  split
  case h_3 period _ _ =>
    have hids : (Alarm.id ∘ fun b : Alarm α =>
        if b.id = a.id then { b with due := b.due + period } else b) = Alarm.id := by
      funext b
      dsimp only [Function.comp]
      split <;> rfl
    rw [List.map_map, hids]
  all_goals exact List.filter_sublist.map _

/-- What is pending after an alarm has gone off was pending before. -/
theorem exists_of_mem_start {b : Alarm α} (hb : b ∈ (t.start a).alarms) :
    ∃ c ∈ t.alarms, c.id = b.id ∧ c.task = b.task ∧ c.period = b.period := by
  rw [start] at hb
  split at hb
  case h_3 =>
    obtain ⟨c, hc, rfl⟩ := List.mem_map.1 hb
    refine ⟨c, hc, ?_⟩
    split <;> exact ⟨rfl, rfl, rfl⟩
  all_goals exact ⟨b, List.mem_of_mem_filter hb, rfl, rfl, rfl⟩

/-- Only the alarm that has gone off may not be pending any more. -/
theorem exists_mem_start {b : Alarm α} (hb : b ∈ t.alarms) (hid : b.id ≠ a.id) :
    b ∈ (t.start a).alarms := by
  rw [start]
  split
  case h_3 => exact List.mem_map.2 ⟨b, hb, if_neg hid⟩
  all_goals exact List.mem_filter.2 ⟨hb, by simpa using hid⟩

variable {t a} in
/-- A repeating alarm that goes off is set again. -/
theorem mem_start_of_period (ha : a ∈ t.alarms) {period : Nat} (hperiod : a.period = some period)
    (hpos : 0 < period) : { a with due := a.due + period } ∈ (t.start a).alarms := by
  obtain ⟨p, rfl⟩ := Nat.exists_eq_succ_of_ne_zero (Nat.pos_iff_ne_zero.1 hpos)
  rw [start, hperiod]
  exact List.mem_map.2 ⟨a, ha, (if_pos rfl).trans (by rw [← hperiod])⟩

end Timetable

namespace Watchdogs

/-- Every alarm has a number of its own, and is known by it. -/
structure Sound (w : Watchdogs Task) : Prop where
  running : w.timetable.running = true
  fresh : ∀ a ∈ w.timetable.alarms, a.id < w.timetable.nextId
  distinct : (w.timetable.alarms.map Alarm.id).Nodup
  taken : ∀ kind id, w.slot kind = some id → id < w.timetable.nextId
  owned : ∀ kind id, w.slot kind = some id →
    ∀ a ∈ w.timetable.alarms, a.id = id → a.task = .watchdog kind
  /-- A start of discovery is not given up. -/
  prompt : ∀ a ∈ w.timetable.alarms, a.task = .resumeDiscovery → a.isVoid = false

/-- The alarm in the slot of the radio watchdog is still to go off. -/
structure Timely (w : Watchdogs Task) : Prop extends w.Sound where
  pending : ∀ id, w.slot .radioConnect = some id →
    ∃ a ∈ w.timetable.alarms, a.id = id ∧ a.isVoid = false

/-- Discovery is about to start again. -/
def Resumes (w : Watchdogs Task) : Prop :=
  ∃ a ∈ w.timetable.alarms, a.task = .resumeDiscovery

instance (w : Watchdogs Task) : Decidable w.Resumes :=
  inferInstanceAs (Decidable (∃ a ∈ w.timetable.alarms, a.task = .resumeDiscovery))

variable {w : Watchdogs Task}

theorem timely_empty : Timely {} where
  running := rfl
  fresh := nofun
  distinct := List.nodup_nil
  taken := nofun
  owned := nofun
  prompt := nofun
  pending := nofun

/-- A filled slot of the radio watchdog means that the watchdog is set. -/
theorem Timely.isArmed (hw : w.Timely) (h : (w.slot .radioConnect).isSome = true) :
    w.isArmed .radioConnect = true := by
  obtain ⟨id, hid⟩ := Option.isSome_iff_exists.1 h
  obtain ⟨a, ha, haid, -⟩ := hw.pending id hid
  have hpending : w.timetable.isPending id = true :=
    List.any_eq_true.2 ⟨a, ha, by simpa using haid⟩
  simp [Watchdogs.isArmed, hid, Timetable.isFinished, hpending]

/-- The alarm of another watchdog, or none of a watchdog, is not the one in a slot. -/
theorem Sound.id_ne (hw : w.Sound) {kind : WatchdogKind} {id : Nat} (hid : w.slot kind = some id)
    {a : Alarm Task} (ha : a ∈ w.timetable.alarms) (htask : a.task ≠ .watchdog kind) :
    a.id ≠ id :=
  fun h => htask (hw.owned kind id hid a ha h)

theorem isSome_slot_of_isArmed {kind : WatchdogKind} (h : w.isArmed kind = true) :
    (w.slot kind).isSome = true := by
  rw [isArmed] at h
  split at h
  case h_1 hid => simp [hid]
  case h_2 => cases h

/-! ## Taking alarms out -/

section Removal

variable {α : Type} (w : Watchdogs α) (kind : WatchdogKind)

@[simp] theorem setSlot_slot (id : Option Nat) (k : WatchdogKind) :
    (w.setSlot kind id).slot k = if k = kind then id else w.slot k := rfl

@[simp] theorem cancel_slot (k : WatchdogKind) :
    (w.cancel kind).2.slot k = if k = kind then none else w.slot k := by
  rw [cancel]
  split
  case h_1 => rfl
  case h_2 h =>
    split
    · simp_all
    · rfl

@[simp] theorem install_slot (added : Nat × Timetable α) (k : WatchdogKind) :
    (w.install kind added).2.slot k = if k = kind then some added.1 else w.slot k := by
  rw [install]
  dsimp only
  rw [setSlot_slot, cancel_slot]
  split <;> rfl

@[simp] theorem cancel_nextId : (w.cancel kind).2.timetable.nextId = w.timetable.nextId := by
  rw [cancel]
  split <;> simp

@[simp] theorem cancel_running : (w.cancel kind).2.timetable.running = w.timetable.running := by
  rw [cancel]
  split <;> simp

@[simp] theorem cancel_now : (w.cancel kind).2.timetable.now = w.timetable.now := by
  rw [cancel]
  split <;> simp

@[simp] theorem install_now (added : Nat × Timetable α) :
    (w.install kind added).2.timetable.now = added.2.now := by
  show (cancel { w with timetable := added.2 } kind).2.timetable.now = _
  rw [cancel_now]

theorem cancel_alarms_sublist :
    (w.cancel kind).2.timetable.alarms.Sublist w.timetable.alarms := by
  rw [cancel]
  split
  · simp
  · exact List.Sublist.refl _

end Removal

/-- What is in the slots after one was emptied was there before. -/
theorem slot_eq_some_of_emptied {α : Type} {w : Watchdogs α} {kind k : WatchdogKind} {id : Nat}
    (h : (if k = kind then none else w.slot k) = some id) : w.slot k = some id := by
  split at h
  · exact nomatch h
  · exact h

/-- Alarms may be taken out, and slots emptied. -/
theorem Sound.thin (hw : w.Sound) {w' : Watchdogs Task}
    (hrunning : w'.timetable.running = w.timetable.running)
    (hnext : w'.timetable.nextId = w.timetable.nextId)
    (hids : (w'.timetable.alarms.map Alarm.id).Sublist (w.timetable.alarms.map Alarm.id))
    (halarms : ∀ b ∈ w'.timetable.alarms,
      ∃ c ∈ w.timetable.alarms, c.id = b.id ∧ c.task = b.task ∧ c.period = b.period)
    (hslot : ∀ kind id, w'.slot kind = some id → w.slot kind = some id) : w'.Sound where
  running := hrunning.trans hw.running
  fresh b hb := by
    obtain ⟨c, hc, hid, -⟩ := halarms b hb
    rw [hnext, ← hid]
    exact hw.fresh c hc
  distinct := hw.distinct.sublist hids
  taken kind id hid := by
    rw [hnext]
    exact hw.taken kind id (hslot kind id hid)
  owned kind id hid b hb hbid := by
    obtain ⟨c, hc, hcid, htask, -⟩ := halarms b hb
    rw [← htask]
    exact hw.owned kind id (hslot kind id hid) c hc (hcid.trans hbid)
  prompt b hb htask := by
    obtain ⟨c, hc, -, hctask, hperiod⟩ := halarms b hb
    rw [Alarm.isVoid, ← hperiod]
    exact hw.prompt c hc (hctask.trans htask)

theorem mem_cancel {α : Type} {w : Watchdogs α} {kind : WatchdogKind} {a : Alarm α}
    (ha : a ∈ w.timetable.alarms) (hid : ∀ id, w.slot kind = some id → a.id ≠ id) :
    a ∈ (w.cancel kind).2.timetable.alarms := by
  rw [cancel]
  split
  case h_1 id h => simpa [ha] using hid id h
  case h_2 => exact ha

theorem Sound.cancel (hw : w.Sound) (kind : WatchdogKind) : (w.cancel kind).2.Sound := by
  have hsublist := w.cancel_alarms_sublist kind
  refine hw.thin (by simp) (by simp) (hsublist.map _) ?_ ?_
  · exact fun b hb => ⟨b, hsublist.subset hb, rfl, rfl, rfl⟩
  · intro k id hid
    rw [cancel_slot] at hid
    exact slot_eq_some_of_emptied hid

theorem Timely.cancel (hw : w.Timely) (kind : WatchdogKind) : (w.cancel kind).2.Timely where
  toSound := hw.toSound.cancel kind
  pending id hid := by
    rw [cancel_slot] at hid
    split at hid
    case isTrue => exact nomatch hid
    case isFalse hkind =>
      obtain ⟨a, ha, haid, hvoid⟩ := hw.pending id hid
      have htask := hw.owned _ _ hid a ha haid
      refine ⟨a, mem_cancel ha fun id' hid' => hw.id_ne hid' ha ?_, haid, hvoid⟩
      simpa [htask] using hkind

theorem Timely.cancelAll (hw : w.Timely) : w.cancelAll.Timely :=
  ((hw.cancel .connectionAccept).cancel .radioConnect).cancel .friendlyNameRetry

theorem Resumes.cancel (h : w.Resumes) (hw : w.Sound) (kind : WatchdogKind) :
    (w.cancel kind).2.Resumes := by
  obtain ⟨a, ha, htask⟩ := h
  exact ⟨a, mem_cancel ha fun id hid => hw.id_ne hid ha (by simp [htask]), htask⟩

theorem Sound.emptySlot (hw : w.Sound) (kind : WatchdogKind) : (w.setSlot kind none).Sound := by
  refine hw.thin rfl rfl (List.Sublist.refl _) ?_ fun _ _ => slot_eq_some_of_emptied
  exact fun b hb => ⟨b, hb, rfl, rfl, rfl⟩

theorem Timely.emptySlot (hw : w.Timely) (kind : WatchdogKind) :
    (w.setSlot kind none).Timely where
  toSound := hw.toSound.emptySlot kind
  pending id hid := by
    rw [setSlot_slot] at hid
    split at hid
    · exact nomatch hid
    · exact hw.pending id hid

/-! ## Setting alarms -/

section Addition

variable (delay : Nat) (period : Option Nat) (task : Task)

theorem add_alarms (hw : w.Sound) :
    (w.timetable.add delay period task).2.alarms = w.timetable.alarms ++
      [{ id := w.timetable.nextId, due := w.timetable.now + delay, period, task }] :=
  if_pos hw.running

theorem Sound.add (hw : w.Sound) (hprompt : task = .resumeDiscovery → period = none) :
    Sound { w with timetable := (w.timetable.add delay period task).2 } where
  running := hw.running
  fresh a ha := by
    rw [add_alarms _ _ _ hw, List.mem_append, List.mem_singleton] at ha
    rcases ha with ha | rfl
    · exact Nat.lt_succ_of_lt (hw.fresh a ha)
    · exact Nat.lt_succ_self _
  distinct := by
    rw [add_alarms _ _ _ hw, List.map_append, List.nodup_append]
    refine ⟨hw.distinct, List.nodup_singleton _, ?_⟩
    intro id hid next hnext
    obtain ⟨a, ha, rfl⟩ := List.mem_map.1 hid
    obtain rfl := List.mem_singleton.1 hnext
    exact Nat.ne_of_lt (hw.fresh a ha)
  taken kind id hid := Nat.lt_succ_of_lt (hw.taken kind id hid)
  owned kind id hid a ha haid := by
    rw [add_alarms _ _ _ hw, List.mem_append, List.mem_singleton] at ha
    rcases ha with ha | rfl
    · exact hw.owned kind id hid a ha haid
    · exact absurd haid (Nat.ne_of_gt (hw.taken kind id hid))
  prompt a ha htask := by
    rw [add_alarms _ _ _ hw, List.mem_append, List.mem_singleton] at ha
    rcases ha with ha | rfl
    · exact hw.prompt a ha htask
    · simp [Alarm.isVoid, hprompt htask]

theorem Timely.add (hw : w.Timely) (hprompt : task = .resumeDiscovery → period = none) :
    Timely { w with timetable := (w.timetable.add delay period task).2 } where
  toSound := hw.toSound.add delay period task hprompt
  pending id hid := by
    obtain ⟨a, ha, h⟩ := hw.pending id hid
    refine ⟨a, ?_, h⟩
    rw [add_alarms _ _ _ hw.toSound]
    exact List.mem_append_left _ ha

theorem Sound.fillSlot (hw : w.Sound) {kind : WatchdogKind} {a : Alarm Task}
    (ha : a ∈ w.timetable.alarms) (htask : a.task = .watchdog kind) :
    (w.setSlot kind (some a.id)).Sound where
  running := hw.running
  fresh := hw.fresh
  distinct := hw.distinct
  prompt := hw.prompt
  taken k id hid := by
    rw [setSlot_slot] at hid
    split at hid
    · obtain rfl := Option.some.inj hid
      exact hw.fresh a ha
    · exact hw.taken k id hid
  owned k id hid b hb hbid := by
    rw [setSlot_slot] at hid
    split at hid
    case isTrue hk =>
      obtain rfl := Option.some.inj hid
      obtain rfl := List.inj_on_of_nodup_map hw.distinct hb ha hbid
      rw [hk, htask]
    case isFalse => exact hw.owned k id hid b hb hbid

theorem Timely.fillSlot (hw : w.Timely) {kind : WatchdogKind} {a : Alarm Task}
    (ha : a ∈ w.timetable.alarms) (htask : a.task = .watchdog kind)
    (hvoid : kind = .radioConnect → a.isVoid = false) : (w.setSlot kind (some a.id)).Timely where
  toSound := hw.toSound.fillSlot ha htask
  pending id hid := by
    rw [setSlot_slot] at hid
    split at hid
    case isTrue hk =>
      obtain rfl := Option.some.inj hid
      exact ⟨a, ha, rfl, hvoid hk.symm⟩
    case isFalse => exact hw.pending id hid

/-- An alarm that is installed is pending. -/
theorem Sound.mem_install (hw : w.Sound) (kind : WatchdogKind) :
    { id := w.timetable.nextId, due := w.timetable.now + delay, period, task := .watchdog kind } ∈
      (w.install kind (w.timetable.add delay period (.watchdog kind))).2.timetable.alarms := by
  apply mem_cancel
  · rw [add_alarms _ _ _ hw]
    exact List.mem_append_right _ (List.mem_singleton.2 rfl)
  · exact fun id hid => Nat.ne_of_gt (hw.taken kind id hid)

theorem Sound.install (hw : w.Sound) (kind : WatchdogKind) :
    (w.install kind (w.timetable.add delay period (.watchdog kind))).2.Sound :=
  ((hw.add delay period (.watchdog kind) nofun).cancel kind).fillSlot
    (hw.mem_install delay period kind) rfl

theorem Timely.install (hw : w.Timely) (kind : WatchdogKind)
    (hperiod : kind = .radioConnect → period = none) :
    (w.install kind (w.timetable.add delay period (.watchdog kind))).2.Timely := by
  have hadded := hw.add delay period (.watchdog kind) nofun
  apply (hadded.cancel kind).fillSlot (hw.mem_install delay period kind) rfl
  intro hkind
  simp [Alarm.isVoid, hperiod hkind]

theorem Resumes.install (h : w.Resumes) (hw : w.Sound) (kind : WatchdogKind) :
    (w.install kind (w.timetable.add delay period (.watchdog kind))).2.Resumes := by
  obtain ⟨a, ha, htask⟩ := h
  have hmem : a ∈ (w.timetable.add delay period (.watchdog kind)).2.alarms := by
    rw [add_alarms _ _ _ hw]
    exact List.mem_append_left _ ha
  have hresumes :
      Resumes { w with timetable := (w.timetable.add delay period (.watchdog kind)).2 } :=
    ⟨a, hmem, htask⟩
  exact hresumes.cancel (hw.add _ _ _ nofun) kind

/-- A start of discovery that is put off is about to come. -/
theorem resumes_defer (hw : w.Sound) :
    Resumes { w with timetable := (w.timetable.defer .resumeDiscovery).2 } := by
  refine ⟨⟨w.timetable.nextId, w.timetable.now + 0, none, .resumeDiscovery⟩, ?_, rfl⟩
  show _ ∈ (w.timetable.add 0 none .resumeDiscovery).2.alarms
  rw [add_alarms _ _ _ hw]
  exact List.mem_append_right _ (List.mem_singleton.2 rfl)

end Addition

/-! ## Alarms that go off -/

section Start

variable {a : Alarm Task}

theorem Sound.start (hw : w.Sound) (a : Alarm Task) :
    Sound { w with timetable := w.timetable.start a } := by
  refine hw.thin (by simp) (by simp) (w.timetable.start_ids a) ?_ fun _ _ h => h
  exact fun b hb => w.timetable.exists_of_mem_start a hb

/-- An alarm goes off that is not in the slot of the radio watchdog, or that is given up. -/
theorem Timely.start (hw : w.Timely) (ha : a ∈ w.timetable.alarms)
    (hradio : w.slot .radioConnect ≠ some a.id ∨ a.isVoid = true) :
    Timely { w with timetable := w.timetable.start a } where
  toSound := hw.toSound.start a
  pending id hid := by
    obtain ⟨b, hb, hbid, hvoid⟩ := hw.pending id hid
    refine ⟨b, w.timetable.exists_mem_start a hb fun hsame => ?_, hbid, hvoid⟩
    obtain rfl := List.inj_on_of_nodup_map hw.distinct hb ha hsame
    rcases hradio with hslot | hgiven
    · exact hslot (hbid ▸ hid)
    · exact nomatch hvoid.symm.trans hgiven

/-- The slot of the radio watchdog is emptied when its alarm has gone off. -/
theorem Timely.start_emptySlot (hw : w.Timely) (a : Alarm Task) :
    (setSlot { w with timetable := w.timetable.start a } .radioConnect none).Timely where
  toSound := (hw.toSound.start a).emptySlot _
  pending id hid := by simp at hid

theorem Resumes.start (h : w.Resumes) (hw : w.Sound) (ha : a ∈ w.timetable.alarms)
    (htask : a.task ≠ .resumeDiscovery) : Resumes { w with timetable := w.timetable.start a } := by
  obtain ⟨b, hb, hbtask⟩ := h
  refine ⟨b, w.timetable.exists_mem_start a hb fun hsame => ?_, hbtask⟩
  obtain rfl := List.inj_on_of_nodup_map hw.distinct hb ha hsame
  exact htask hbtask

end Start

section Finish

variable {id : Nat}

/-- The alarm of another watchdog is finished. -/
theorem Timely.remove (hw : w.Timely) {kind : WatchdogKind} (hkind : kind ≠ .radioConnect)
    (hid : ∀ a ∈ w.timetable.alarms, a.id = id → a.task = .watchdog kind) :
    Timely { w with timetable := w.timetable.remove id } where
  toSound := by
    refine hw.thin rfl rfl (List.filter_sublist.map _) ?_ fun _ _ h => h
    exact fun b hb => ⟨b, List.mem_of_mem_filter hb, rfl, rfl, rfl⟩
  pending id' hid' := by
    obtain ⟨a, ha, haid, hvoid⟩ := hw.pending id' hid'
    refine ⟨a, List.mem_filter.2 ⟨ha, ?_⟩, haid, hvoid⟩
    have htask := hw.owned _ id' hid' a ha haid
    simp only [bne_iff_ne, ne_eq]
    intro hsame
    exact hkind (Task.watchdog.inj ((hid a ha hsame).symm.trans htask))

theorem Resumes.remove (h : w.Resumes) {kind : WatchdogKind}
    (hid : ∀ a ∈ w.timetable.alarms, a.id = id → a.task = .watchdog kind) :
    Resumes { w with timetable := w.timetable.remove id } := by
  obtain ⟨a, ha, htask⟩ := h
  refine ⟨a, List.mem_filter.2 ⟨ha, ?_⟩, htask⟩
  simp only [bne_iff_ne, ne_eq]
  intro hsame
  simp [hid a ha hsame] at htask

end Finish

end Watchdogs

end CastReceiver.Timer
