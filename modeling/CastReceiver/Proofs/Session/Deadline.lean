import CastReceiver.Proofs.Discovery.Timers

/-!
# Deadlines

While timers are set, cancelled and go off, the alarm in the slot of one watchdog goes off when it
was to, unless something is done about this very slot. Numbers are not given out twice, so an alarm
that is known by its number does not become another one.
-/
namespace CastReceiver.Timer.Watchdogs

variable {w w' w'' : Watchdogs Task} {kind k : WatchdogKind} {t : Nat}

/-- The alarm in the slot of a kind is to go off at a time. -/
def GoesOffAt (w : Watchdogs Task) (kind : WatchdogKind) (t : Nat) : Prop :=
  ∃ a ∈ w.timetable.alarms, w.slot kind = some a.id ∧ a.due = t ∧ a.isVoid = false

/-- When the alarm in the slot of a kind goes off. -/
def deadline (w : Watchdogs Task) (kind : WatchdogKind) : Option Nat :=
  (w.slot kind).bind fun id => (w.timetable.alarms.find? fun a => a.id == id).map Alarm.due

theorem GoesOffAt.isSome_slot (h : w.GoesOffAt kind t) : (w.slot kind).isSome = true := by
  obtain ⟨a, -, hslot, -⟩ := h
  simp [hslot]

theorem GoesOffAt.isArmed (h : w.GoesOffAt kind t) : w.isArmed kind = true := by
  obtain ⟨a, ha, hslot, -, -⟩ := h
  have hpending : w.timetable.isPending a.id = true := List.any_eq_true.2 ⟨a, ha, by simp⟩
  simp [Watchdogs.isArmed, hslot, Timetable.isFinished, hpending]

theorem Sound.deadline_eq (hw : w.Sound) (h : w.GoesOffAt kind t) : w.deadline kind = some t := by
  obtain ⟨a, ha, hslot, rfl, -⟩ := h
  have hfind : (w.timetable.alarms.find? fun b => b.id == a.id) = some a := by
    cases hfound : w.timetable.alarms.find? fun b => b.id == a.id with
    | none => simpa using List.find?_eq_none.1 hfound a ha
    | some b =>
      have hid : b.id = a.id := by simpa using List.find?_some hfound
      rw [List.inj_on_of_nodup_map hw.distinct (List.mem_of_find?_eq_some hfound) ha hid]
  simp [deadline, hslot, hfind]

/-- Some time later: no alarm has taken the number of another one, and none has come back to a slot
that it had left. -/
structure Ensues (w w' : Watchdogs Task) : Prop where
  sound : w'.Sound
  nextId_le : w.timetable.nextId ≤ w'.timetable.nextId
  known : ∀ b ∈ w'.timetable.alarms, b.id < w.timetable.nextId →
    ∃ a ∈ w.timetable.alarms, a.id = b.id ∧ a.task = b.task
  slots : ∀ k id, w'.slot k = some id → id < w.timetable.nextId → w.slot k = some id

/-- Some time later, when nothing was done about the watchdog of a kind. -/
structure Spares (kind : WatchdogKind) (w w' : Watchdogs Task) : Prop extends w.Ensues w' where
  slot_eq : w'.slot kind = w.slot kind
  goesOffAt : ∀ t, w.GoesOffAt kind t → w'.GoesOffAt kind t

theorem Ensues.refl (hw : w.Sound) : w.Ensues w where
  sound := hw
  nextId_le := Nat.le_refl _
  known b hb _ := ⟨b, hb, rfl, rfl⟩
  slots _ _ hid _ := hid

theorem Ensues.trans (h : w.Ensues w') (h' : w'.Ensues w'') : w.Ensues w'' where
  sound := h'.sound
  nextId_le := Nat.le_trans h.nextId_le h'.nextId_le
  known c hc hid := by
    obtain ⟨b, hb, hbid, hbtask⟩ := h'.known c hc (Nat.lt_of_lt_of_le hid h.nextId_le)
    obtain ⟨a, ha, haid, hatask⟩ := h.known b hb (hbid ▸ hid)
    exact ⟨a, ha, haid.trans hbid, hatask.trans hbtask⟩
  slots k id hid hlt :=
    h.slots k id (h'.slots k id hid (Nat.lt_of_lt_of_le hlt h.nextId_le)) hlt

theorem Spares.refl (hw : w.Sound) : Spares kind w w where
  toEnsues := .refl hw
  slot_eq := rfl
  goesOffAt _ h := h

theorem Spares.trans (h : Spares kind w w') (h' : Spares kind w' w'') : Spares kind w w'' where
  toEnsues := h.toEnsues.trans h'.toEnsues
  slot_eq := h'.slot_eq.trans h.slot_eq
  goesOffAt t ht := h'.goesOffAt t (h.goesOffAt t ht)

/-- Alarms may be taken out, and slots emptied. -/
theorem Ensues.of_thin (hw' : w'.Sound) (hnext : w'.timetable.nextId = w.timetable.nextId)
    (halarms : ∀ b ∈ w'.timetable.alarms,
      ∃ a ∈ w.timetable.alarms, a.id = b.id ∧ a.task = b.task)
    (hslots : ∀ k id, w'.slot k = some id → w.slot k = some id) : w.Ensues w' where
  sound := hw'
  nextId_le := Nat.le_of_eq hnext.symm
  known b hb _ := halarms b hb
  slots k id hid _ := hslots k id hid

/-! ## Cancelling -/

theorem ensues_cancel (hw : w.Sound) (k : WatchdogKind) : w.Ensues (w.cancel k).2 := by
  apply Ensues.of_thin (hw.cancel k) (cancel_nextId w k)
  · intro b hb
    exact ⟨b, (w.cancel_alarms_sublist k).subset hb, rfl, rfl⟩
  · intro k' id hid
    rw [cancel_slot] at hid
    exact slot_eq_some_of_emptied hid

theorem spares_cancel (hw : w.Sound) (h : k ≠ kind) : Spares kind w (w.cancel k).2 where
  toEnsues := ensues_cancel hw k
  slot_eq := by
    rw [cancel_slot]
    exact if_neg h.symm
  goesOffAt t := by
    rintro ⟨a, ha, hslot, hdue, hvoid⟩
    have htask := hw.owned kind _ hslot a ha rfl
    refine ⟨a, mem_cancel ha fun id hid => ?_, ?_, hdue, hvoid⟩
    · apply hw.id_ne hid ha
      simpa [htask] using h.symm
    · rw [cancel_slot, if_neg h.symm]
      exact hslot

theorem ensues_cancelAll (hw : w.Sound) : w.Ensues w.cancelAll := by
  have haccept := ensues_cancel hw .connectionAccept
  have hradio := ensues_cancel haccept.sound .radioConnect
  exact haccept.trans (hradio.trans (ensues_cancel hradio.sound .friendlyNameRetry))

theorem cancelAll_slot (w : Watchdogs Task) (kind : WatchdogKind) :
    w.cancelAll.slot kind = none := by
  simp only [cancelAll, WatchdogKind.all, List.foldl_cons, List.foldl_nil, cancel_slot]
  cases kind <;> simp

theorem ensues_emptySlot (hw : w.Sound) (k : WatchdogKind) : w.Ensues (w.setSlot k none) := by
  exact .of_thin (hw.emptySlot k) rfl (fun b hb => ⟨b, hb, rfl, rfl⟩)
    fun _ _ hid => slot_eq_some_of_emptied hid

theorem spares_emptySlot (hw : w.Sound) (h : k ≠ kind) :
    Spares kind w (w.setSlot k none) where
  toEnsues := ensues_emptySlot hw k
  slot_eq := if_neg h.symm
  goesOffAt t := by
    rintro ⟨a, ha, hslot, hdue, hvoid⟩
    exact ⟨a, ha, (if_neg h.symm).trans hslot, hdue, hvoid⟩

/-! ## Setting -/

section Addition

variable (delay : Nat) (period : Option Nat)

theorem ensues_add (hw : w.Sound) (task : Task)
    (hprompt : task = .resumeDiscovery → period = none) :
    w.Ensues { w with timetable := (w.timetable.add delay period task).2 } where
  sound := hw.add delay period task hprompt
  nextId_le := Nat.le_succ _
  known b hb hid := by
    rw [add_alarms _ _ _ hw, List.mem_append, List.mem_singleton] at hb
    rcases hb with hb | rfl
    · exact ⟨b, hb, rfl, rfl⟩
    · exact absurd hid (Nat.lt_irrefl _)
  slots _ _ hid _ := hid

theorem spares_add (hw : w.Sound) (task : Task)
    (hprompt : task = .resumeDiscovery → period = none) :
    Spares kind w { w with timetable := (w.timetable.add delay period task).2 } where
  toEnsues := ensues_add delay period hw task hprompt
  slot_eq := rfl
  goesOffAt t := by
    rintro ⟨a, ha, h⟩
    refine ⟨a, ?_, h⟩
    rw [add_alarms _ _ _ hw]
    exact List.mem_append_left _ ha

theorem ensues_install (hw : w.Sound) (k : WatchdogKind) :
    w.Ensues (w.install k (w.timetable.add delay period (.watchdog k))).2 := by
  have hadded := ensues_add delay period hw (.watchdog k) nofun
  have hcancelled := hadded.trans (ensues_cancel hadded.sound k)
  refine ⟨hw.install delay period k, hcancelled.nextId_le, hcancelled.known, ?_⟩
  intro k' id hid hlt
  rw [install_slot] at hid
  split at hid
  · obtain rfl := Option.some.inj hid
    exact absurd hlt (Nat.lt_irrefl _)
  · exact hid

theorem spares_install (hw : w.Sound) (h : k ≠ kind) :
    Spares kind w (w.install k (w.timetable.add delay period (.watchdog k))).2 where
  toEnsues := ensues_install delay period hw k
  slot_eq := by
    rw [install_slot]
    exact if_neg h.symm
  goesOffAt t ht := by
    let added : Watchdogs Task :=
      { w with timetable := (w.timetable.add delay period (.watchdog k)).2 }
    have hadded : Spares kind w added := spares_add delay period hw (.watchdog k) nofun
    have hcancelled := spares_cancel hadded.sound h
    obtain ⟨a, ha, hslot, hdue⟩ := hcancelled.goesOffAt t (hadded.goesOffAt t ht)
    refine ⟨a, ha, ?_, hdue⟩
    rw [install_slot, if_neg h.symm]
    rwa [cancel_slot, if_neg h.symm] at hslot

/-- A watchdog that is set goes off after its delay. -/
theorem goesOffAt_install (hw : w.Sound) (kind : WatchdogKind) :
    (w.install kind (w.timetable.add delay none (.watchdog kind))).2.GoesOffAt kind
      (w.timetable.now + delay) := by
  refine ⟨_, hw.mem_install delay none kind, ?_, rfl, rfl⟩
  rw [install_slot]
  exact if_pos rfl

end Addition

/-! ## Going off -/

theorem ensues_start (hw : w.Sound) (a : Alarm Task) :
    w.Ensues { w with timetable := w.timetable.start a } := by
  refine .of_thin (hw.start a) (w.timetable.start_nextId a) (fun b hb => ?_) fun _ _ hid => hid
  obtain ⟨c, hc, hid, htask, -⟩ := w.timetable.exists_of_mem_start a hb
  exact ⟨c, hc, hid, htask⟩

/-- An alarm goes off that is not in the slot of the kind, or that is given up. -/
theorem spares_start (hw : w.Sound) {a : Alarm Task} (ha : a ∈ w.timetable.alarms)
    (h : w.slot kind ≠ some a.id ∨ a.isVoid = true) :
    Spares kind w { w with timetable := w.timetable.start a } where
  toEnsues := ensues_start hw a
  slot_eq := rfl
  goesOffAt t := by
    rintro ⟨b, hb, hslot, hdue, hvoid⟩
    refine ⟨b, w.timetable.exists_mem_start a hb fun hsame => ?_, hslot, hdue, hvoid⟩
    obtain rfl := List.inj_on_of_nodup_map hw.distinct hb ha hsame
    rcases h with hother | hgiven
    · exact hother hslot
    · exact nomatch hvoid.symm.trans hgiven

/-- The alarm of another watchdog is finished. -/
theorem spares_remove (hw : w.Sound) (h : k ≠ kind) {id : Nat}
    (hid : ∀ a ∈ w.timetable.alarms, a.id = id → a.task = .watchdog k) :
    Spares kind w { w with timetable := w.timetable.remove id } where
  sound := by
    refine hw.thin rfl rfl (List.filter_sublist.map _) ?_ fun _ _ hslot => hslot
    exact fun b hb => ⟨b, List.mem_of_mem_filter hb, rfl, rfl, rfl⟩
  nextId_le := Nat.le_refl _
  known b hb _ := ⟨b, List.mem_of_mem_filter hb, rfl, rfl⟩
  slots _ _ hid _ := hid
  slot_eq := rfl
  goesOffAt t := by
    rintro ⟨a, ha, hslot, hdue, hvoid⟩
    refine ⟨a, List.mem_filter.2 ⟨ha, ?_⟩, hslot, hdue, hvoid⟩
    have htask := hw.owned kind _ hslot a ha rfl
    rw [bne_iff_ne]
    intro hsame
    exact h (Task.watchdog.inj ((hid a ha hsame).symm.trans htask))

/-- Time passes, and cancelled alarms are noticed. -/
theorem spares_clock (hw : w.Sound) (now : Nat) (stopping : List Nat) :
    Spares kind w { w with timetable := { w.timetable with now, stopping } } where
  sound := ⟨hw.running, hw.fresh, hw.distinct, hw.taken, hw.owned, hw.prompt⟩
  nextId_le := Nat.le_refl _
  known b hb _ := ⟨b, hb, rfl, rfl⟩
  slots _ _ hid _ := hid
  slot_eq := rfl
  goesOffAt _ h := h

end CastReceiver.Timer.Watchdogs
