import CastReceiver.Proofs.Discovery.Steadiness
import CastReceiver.Proofs.FriendlyName.Operations

/-!
# The name of the device is looked up until it is known

A start looks the name up, and a watchdog looks it up again after every interval until there is an
answer, which is passed on once. As long as nobody starts the machine again or shuts it down, no
other work changes when this happens, provided that time does not pass the moment of the next
look-up.
-/
namespace CastReceiver

namespace Occurrence

/-- Time does not pass the moment at which the name is to be looked up again. -/
def InTime (m : Machine) : Occurrence → Prop
  | elapse ms => ∀ a ∈ m.watchdogs.timetable.alarms,
    m.watchdogs.slot .friendlyNameRetry = some a.id → m.now + ms ≤ a.due
  | _ => True

instance (m : Machine) : DecidablePred (InTime m)
  | elapse ms => inferInstanceAs (Decidable (∀ a ∈ m.watchdogs.timetable.alarms,
    m.watchdogs.slot .friendlyNameRetry = some a.id → m.now + ms ≤ a.due))
  | call _ | alarm _ | settle => isTrue trivial

/-- Everything but a start, a shutdown, the watchdog of the name and the time that passes. -/
def IsAloof (m : Machine) : Occurrence → Prop
  | call c => c ≠ .start ∧ c ≠ .shutdown
  | alarm a => m.watchdogs.slot .friendlyNameRetry ≠ some a.id
  | elapse _ => False
  | settle => True

end Occurrence

namespace Machine

variable {m m' : Machine}

/-- Time never passes the moment at which the name is to be looked up again. -/
def AllInTime (m : Machine) : List Occurrence → Prop
  | [] => True
  | o :: os => o.InTime m ∧ (m.undergo o).AllInTime os

instance decidableAllInTime : (m : Machine) → DecidablePred m.AllInTime
  | _, [] => isTrue trivial
  | m, o :: os =>
    have := decidableAllInTime (m.undergo o) os
    inferInstanceAs (Decidable (o.InTime m ∧ (m.undergo o).AllInTime os))

theorem undergo_aloof (hm : m.watchdogs.Sound) {o : Occurrence} (ho : o.IsAloof m) :
    m.Aloof (m.undergo o) := by
  cases o with
  | call c => exact perform_aloof (.refl hm) ho.1 ho.2
  | alarm a =>
    have halarmed : m.Aloof (m.alarmed a) :=
      (Aloof.refl hm).timers (Timer.Timetable.start_now ..)
        (Timer.Watchdogs.undisturbed_start hm ho)
    unfold undergo Occurrence.run
    dsimp only
    split
    · exact halarmed
    · exact Run.staysAloof_returning.2 (ring_aloof halarmed ho)
  | elapse ms => exact ho.elim
  | settle =>
    exact (Aloof.refl hm).timers rfl (Timer.Watchdogs.undisturbed_clock hm m.now [])

/-! ## One look-up -/

theorem nameNews_looked (m : Machine) : m.looked.nameNews = m.nameNews ++ [.lookedUp m.now] :=
  List.filterMap_append ..

theorem nameNews_passedOn (m : Machine) (name : String) :
    (m.emit (.command (.setFriendlyName name))).nameNews =
      m.nameNews ++ [.passedOn m.now name] :=
  List.filterMap_append ..

/-- A look-up tells whether the name is known, and passes it on if it is. -/
theorem quietly_refreshFriendlyName {source : NameSource} (hsource : m.nameSource = some source)
    (hknown : m.session.friendlyName = none) :
    ∃ m', m.refreshFriendlyName.quietly = (m', (source m.lookups).isSome) ∧
      m'.watchdogs = m.watchdogs ∧
      m'.errand = { m.errand with
        lookups := m.lookups + 1
        known := source m.lookups
        news := m.nameNews ++ .lookedUp m.now ::
          (source m.lookups).toList.map (.passedOn m.now) } := by
  rw [refreshFriendlyName_of_some hsource]
  cases source m.lookups with
  | none =>
    refine ⟨m.looked, rfl, rfl, ?_⟩
    show (⟨_, _, _, _, m.looked.nameNews, _⟩ : Errand) = _
    rw [nameNews_looked]
    show (⟨_, _, _, m.session.friendlyName, _, _⟩ : Errand) = _
    rw [hknown]
    rfl
  | some name =>
    refine ⟨_, rfl, rfl, ?_⟩
    show (⟨_, _, _, _, ((m.looked.withFriendlyName name).emit
      (.command (.setFriendlyName name))).nameNews, _⟩ : Errand) = _
    rw [nameNews_passedOn]
    show (⟨_, _, _, _, m.looked.nameNews ++ _, _⟩ : Errand) = _
    rw [nameNews_looked, List.append_assoc]
    rfl

end Machine

/-! ## The search for a name -/

/-- All that becomes of the name up to the n-th repetition: it is looked up after every interval,
and passed on with the answer that is one. -/
def NameNews.upTo (interval : Nat) (source : NameSource) (t₀ n : Nat) : List NameNews :=
  (List.range (n + 1)).map (fun k => .lookedUp (t₀ + k * interval)) ++
    (source n).toList.map (.passedOn (t₀ + n * interval))

theorem NameNews.upTo_zero (interval : Nat) (source : NameSource) (t₀ : Nat) :
    upTo interval source t₀ 0 = .lookedUp t₀ :: (source 0).toList.map (.passedOn t₀) := by
  simp [upTo]

theorem NameNews.upTo_succ (interval t₀ : Nat) {source : NameSource} {n : Nat}
    (hn : source n = none) :
    upTo interval source t₀ (n + 1) = upTo interval source t₀ n ++
      .lookedUp (t₀ + (n + 1) * interval) ::
        (source (n + 1)).toList.map (.passedOn (t₀ + (n + 1) * interval)) := by
  rw [upTo, upTo, hn, List.range_succ, List.map_append]
  simp

namespace Machine

variable {settings : SessionSettings} {source : NameSource} {t₀ n : Nat} {m m' : Machine}

/-- Nobody has looked the name up yet. -/
structure Unsought (settings : SessionSettings) (source : NameSource) (m : Machine) : Prop where
  sound : m.watchdogs.Sound
  errand : m.errand = { settings, source, lookups := 0, known := none, news := [], now := m.now }
  slot : m.watchdogs.slot .friendlyNameRetry = none

/-- The name has been looked up at `t₀` and `n` times since, and it is known if the last answer has
been one; otherwise the alarm of the next look-up is set. -/
structure Sought (settings : SessionSettings) (source : NameSource) (t₀ n : Nat) (m : Machine) :
    Prop where
  sound : m.watchdogs.Sound
  errand : m.errand = {
    settings, source, lookups := n + 1, known := source n
    news := NameNews.upTo settings.friendlyNameRetryInterval source t₀ n
    now := m.now }
  absent : ∀ k < n, source k = none
  unknown : source n = none → ∃ a ∈ m.watchdogs.timetable.alarms,
    m.watchdogs.slot .friendlyNameRetry = some a.id ∧
    a.due = t₀ + (n + 1) * settings.friendlyNameRetryInterval ∧
    a.period = some settings.friendlyNameRetryInterval ∧ m.now ≤ a.due
  known : source n ≠ none → m.watchdogs.slot .friendlyNameRetry = none

theorem unsought_fresh (settings : SessionSettings) (source : NameSource) :
    (World.fresh settings (some source)).machine.Unsought settings source :=
  ⟨Timer.Watchdogs.timely_empty.toSound, rfl, rfl⟩

/-! What is aloof changes nothing about the search, and neither does time. -/

theorem Aloof.now_eq (h : m.Aloof m') : m'.now = m.now := congrArg Errand.now h.errand

theorem Unsought.aloof (hm : m.Unsought settings source) (h : m.Aloof m') :
    m'.Unsought settings source where
  sound := h.sound
  errand := by rw [h.errand, hm.errand, h.now_eq]
  slot := h.watchdogs.slot_eq.trans hm.slot

theorem Sought.aloof (hm : m.Sought settings source t₀ n) (h : m.Aloof m') :
    m'.Sought settings source t₀ n where
  sound := h.sound
  errand := by rw [h.errand, hm.errand, h.now_eq]
  absent := hm.absent
  unknown hn := by
    obtain ⟨a, ha, hslot, hdue, hperiod, hnow⟩ := hm.unknown hn
    exact ⟨a, h.watchdogs.mem a ha hslot, h.watchdogs.slot_eq.trans hslot, hdue, hperiod,
      h.now_eq ▸ hnow⟩
  known hn := h.watchdogs.slot_eq.trans (hm.known hn)

theorem undisturbed_elapse (hm : m.watchdogs.Sound) (ms : Nat) :
    m.watchdogs.Undisturbed .friendlyNameRetry (m.undergo (.elapse ms)).watchdogs :=
  Timer.Watchdogs.undisturbed_clock hm _ _

theorem errand_elapse (m : Machine) (ms : Nat) :
    (m.undergo (.elapse ms)).errand = { m.errand with now := m.now + ms } := rfl

theorem Unsought.elapse (hm : m.Unsought settings source) (ms : Nat) :
    (m.undergo (.elapse ms)).Unsought settings source where
  sound := (undisturbed_elapse hm.sound ms).sound
  errand := by
    rw [errand_elapse, hm.errand]
    rfl
  slot := hm.slot

theorem Sought.elapse (hm : m.Sought settings source t₀ n) {ms : Nat}
    (hms : (Occurrence.elapse ms).InTime m) :
    (m.undergo (.elapse ms)).Sought settings source t₀ n where
  sound := (undisturbed_elapse hm.sound ms).sound
  errand := by
    rw [errand_elapse, hm.errand]
    rfl
  absent := hm.absent
  unknown hn := by
    obtain ⟨a, ha, hslot, hdue, hperiod, -⟩ := hm.unknown hn
    exact ⟨a, ha, hslot, hdue, hperiod, hms a ha hslot⟩
  known := hm.known

/-! The search goes on when the alarm goes off. -/

/-- The watchdog of the name, when it is current, looks the name up, and is over with an answer. -/
theorem retryFriendlyName_of_current {id : Nat}
    (hslot : m.watchdogs.slot .friendlyNameRetry = some id)
    (hsource : m.nameSource = some source) (hknown : m.session.friendlyName = none) :
    let m' := (m.retryFriendlyName id).quietly.1
    m'.errand = { m.errand with
      lookups := m.lookups + 1
      known := source m.lookups
      news := m.nameNews ++ .lookedUp m.now ::
        (source m.lookups).toList.map (.passedOn m.now) } ∧
    m'.watchdogs = if (source m.lookups).isSome then
        { m.watchdogs.setSlot .friendlyNameRetry none with
          timetable := m.watchdogs.timetable.remove id }
      else m.watchdogs := by
  obtain ⟨m₁, hquietly, hwatchdogs, herrand⟩ := quietly_refreshFriendlyName hsource hknown
  have hcurrent : m.watchdogs.isCurrent .friendlyNameRetry id = true := beq_iff_eq.2 hslot
  rw [retryFriendlyName_eq, if_pos hcurrent, Run.quietly_bind, hquietly, ← herrand, ← hwatchdogs]
  cases hanswer : source m.lookups with
  | none => exact ⟨rfl, rfl⟩
  | some name =>
    have hclaim : m₁.watchdogs.claim .friendlyNameRetry id =
        (true, m₁.watchdogs.setSlot .friendlyNameRetry none) := by
      rw [hwatchdogs, Timer.Watchdogs.claim, if_pos hcurrent]
    have hclaimed : (m₁.claim .friendlyNameRetry id).2 =
        { m₁ with watchdogs := m₁.watchdogs.setSlot .friendlyNameRetry none } := by
      rw [claim, hclaim]
    show ((m₁.claim .friendlyNameRetry id).2.finishAlarm id).errand = _ ∧
      ((m₁.claim .friendlyNameRetry id).2.finishAlarm id).watchdogs = _
    rw [hclaimed]
    exact ⟨rfl, rfl⟩

/-- The name is looked up once more when the alarm of its watchdog goes off. -/
theorem Sought.repeat (hpos : 0 < settings.friendlyNameRetryInterval)
    (hm : m.Sought settings source t₀ n) {a : Timer.Alarm Task}
    (hdue : a ∈ m.watchdogs.timetable.due)
    (hslot : m.watchdogs.slot .friendlyNameRetry = some a.id) :
    (m.undergo (.alarm a)).Sought settings source t₀ (n + 1) := by
  obtain ⟨ha, hcome⟩ := List.mem_filter.1 hdue
  have hn : source n = none := by
    by_contra hn
    exact nomatch hslot.symm.trans (hm.known hn)
  -- The alarm that goes off is the one that was set for this moment.
  obtain ⟨b, hb, hbslot, hbdue, hperiod, hnow⟩ := hm.unknown hn
  obtain rfl : b = a := List.inj_on_of_nodup_map hm.sound.distinct hb ha
    (Option.some.inj (hbslot.symm.trans hslot))
  have htime : m.now = t₀ + (n + 1) * settings.friendlyNameRetryInterval :=
    (Nat.le_antisymm hnow (of_decide_eq_true hcome)).trans hbdue
  have hvoid : ¬b.isVoid = true := by
    rw [Timer.Alarm.isVoid, hperiod, beq_iff_eq]
    exact fun h => Nat.ne_of_gt hpos (Option.some.inj h)
  have htask : b.task = .watchdog .friendlyNameRetry := hm.sound.owned _ _ hslot b ha rfl
  let m₁ := m.alarmed b
  have hrun : m.undergo (.alarm b) = (m₁.retryFriendlyName b.id).quietly.1 := by
    show (Occurrence.run m (.alarm b)).quietly.1 = _
    rw [Occurrence.run, if_neg hvoid, Run.quietly_returning, ring, htask]
    rfl
  have herrand₁ : m₁.errand = m.errand := by
    have hnow₁ : m₁.now = m.now := Timer.Timetable.start_now ..
    show (⟨_, _, _, _, _, m₁.now⟩ : Errand) = _
    rw [hnow₁]
    rfl
  have hfields := herrand₁.trans hm.errand
  obtain ⟨herrand, hwatchdogs⟩ := retryFriendlyName_of_current (m := m₁) hslot
    (congrArg Errand.source hfields) ((congrArg Errand.known hfields).trans hn)
  rw [hfields, show m₁.lookups = n + 1 from congrArg Errand.lookups hfields,
    show m₁.nameNews = _ from congrArg Errand.news hfields,
    show m₁.now = m.now from congrArg Errand.now hfields, htime,
    ← NameNews.upTo_succ _ _ hn] at herrand
  rw [show m₁.lookups = n + 1 from congrArg Errand.lookups hfields] at hwatchdogs
  rw [← hrun] at herrand hwatchdogs
  have hnow' : (m.undergo (.alarm b)).now = m.now :=
    (congrArg Errand.now herrand).trans htime.symm
  have habsent : ∀ k < n + 1, source k = none := fun k hk =>
    (Nat.lt_succ_iff_lt_or_eq.1 hk).elim (hm.absent k) fun h => h ▸ hn
  have hsound₁ : m₁.watchdogs.Sound := hm.sound.start b
  refine ⟨?_, ?_, habsent, fun hunknown => ?_, fun hanswer => ?_⟩
  · rw [hwatchdogs]
    split
    · have hempty := hsound₁.emptySlot .friendlyNameRetry
      have hother : (m₁.watchdogs.setSlot .friendlyNameRetry none).slot .friendlyNameRetry ≠
          some b.id := fun h => Option.some_ne_none _ h.symm
      exact (Timer.Watchdogs.undisturbed_remove hempty hother).sound
    · exact hsound₁
  · rw [herrand, hnow', htime]
  · have hleft : (m.undergo (.alarm b)).watchdogs = m₁.watchdogs := by
      rw [hwatchdogs, hunknown]
      rfl
    rw [hleft, hnow']
    refine ⟨_, Timer.Timetable.mem_start_of_period ha hperiod hpos, hslot, ?_, hperiod, ?_⟩
    · show b.due + _ = _
      rw [hbdue, Nat.add_assoc, ← Nat.succ_mul]
    · exact Nat.le_trans hnow (Nat.le_add_right _ _)
  · rw [hwatchdogs, if_pos (Option.isSome_iff_ne_none.2 hanswer)]
    rfl

/-! The search begins with a start. -/

/-- The watchdog of the name is set when the first look-up has come to nothing. -/
theorem Sought.of_first_lookup (hsound : m.watchdogs.Sound)
    (hslot : m.watchdogs.slot .friendlyNameRetry = none)
    (herrand : m.errand = {
      settings, source, lookups := 1, known := source 0
      news := NameNews.upTo settings.friendlyNameRetryInterval source m.now 0
      now := m.now }) :
    (if (source 0).isSome then m else m.armFriendlyNameRetry).Sought settings source m.now 0 := by
  have habsent : ∀ k < 0, source k = none := nofun
  cases hanswer : source 0 with
  | some name =>
    show m.Sought settings source m.now 0
    exact ⟨hsound, herrand, habsent, (fun h => nomatch hanswer.symm.trans h), fun _ => hslot⟩
  | none =>
    show m.armFriendlyNameRetry.Sought settings source m.now 0
    have hinterval : m.settings.friendlyNameRetryInterval = settings.friendlyNameRetryInterval :=
      congrArg (fun e => e.settings.friendlyNameRetryInterval) herrand
    have hnow : m.armFriendlyNameRetry.now = m.now := Timer.Watchdogs.install_now ..
    refine ⟨hsound.install _ _ _, ?_, habsent, fun _ => ?_, fun h => absurd hanswer h⟩
    · have hsame : m.armFriendlyNameRetry.errand = m.errand := by
        show (⟨_, _, _, _, _, m.armFriendlyNameRetry.now⟩ : Errand) = _
        rw [hnow]
        rfl
      rw [hsame, herrand, hnow]
    · rw [hnow, ← hinterval, Nat.zero_add, Nat.one_mul]
      refine ⟨_, hsound.mem_install _ _ _, ?_, rfl, rfl, Nat.le_add_right _ _⟩
      show (Timer.Watchdogs.install ..).2.slot _ = _
      rw [Timer.Watchdogs.install_slot, if_pos rfl]
      rfl

/-- A start looks the name up for the first time. -/
theorem Unsought.start (hm : m.Unsought settings source) :
    (m.undergo (.call .start)).Sought settings source m.now 0 := by
  have hlookups : m.lookups = 0 := congrArg Errand.lookups hm.errand
  have hnews : m.nameNews = [] := congrArg Errand.news hm.errand
  obtain ⟨m₁, hquietly, hwatchdogs, herrand⟩ := quietly_refreshFriendlyName
    (congrArg Errand.source hm.errand) (congrArg Errand.known hm.errand)
  have hnow : m₁.now = m.now := congrArg Errand.now herrand
  rw [hlookups] at hquietly
  rw [hlookups, hnews, hm.errand, List.nil_append, ← NameNews.upTo_zero, ← hnow] at herrand
  let m₂ := if (source 0).isSome then m₁ else m₁.armFriendlyNameRetry
  have hsought : m₂.Sought settings source m.now 0 := by
    rw [← hnow]
    exact .of_first_lookup (hwatchdogs ▸ hm.sound) (hwatchdogs ▸ hm.slot) herrand
  have hrun : m.undergo (.call .start) = (if m₂.settings.enableOnStart then
      (m₂.setEnabled true).returning () else .done m₂ ()).quietly.1 := by
    show (m.start.returning _).quietly.1 = _
    rw [Run.quietly_returning, Machine.start, Run.quietly_bind, hquietly]
  rw [hrun]
  refine hsought.aloof ?_
  have hrefl : m₂.Aloof m₂ := .refl hsought.sound
  split
  · exact Run.staysAloof_returning.2 (Run.staysAloof_map.2 (enable_aloof hrefl))
  · exact hrefl

/-! ## Whole runs -/

variable {os : List Occurrence}

/-- Before a start, nothing looks the name up. -/
theorem Unsought.undergoes (hm : m.Unsought settings source)
    (hos : ∀ o ∈ os, o ≠ .call .start ∧ o ≠ .call .shutdown) :
    (m.undergoes os).Unsought settings source := by
  induction os generalizing m with
  | nil => exact hm
  | cons o os ih =>
    refine ih ?_ fun o' ho' => hos o' (by simp [ho'])
    obtain ⟨hstart, hshutdown⟩ := hos o (by simp)
    cases o with
    | elapse ms => exact hm.elapse ms
    | call c =>
      exact hm.aloof (undergo_aloof hm.sound
        ⟨fun h => hstart (congrArg _ h), fun h => hshutdown (congrArg _ h)⟩)
    | alarm a =>
      have hother : (Occurrence.alarm a).IsAloof m := by
        show m.watchdogs.slot .friendlyNameRetry ≠ some a.id
        rw [hm.slot]
        exact fun h => Option.some_ne_none _ h.symm
      exact hm.aloof (undergo_aloof hm.sound hother)
    | settle => exact hm.aloof (undergo_aloof hm.sound trivial)

theorem Sought.undergo (hpos : 0 < settings.friendlyNameRetryInterval)
    (hm : m.Sought settings source t₀ n) {o : Occurrence} (ho : o.Possible m) (htime : o.InTime m)
    (hstart : o ≠ .call .start) (hshutdown : o ≠ .call .shutdown) :
    ∃ n', (m.undergo o).Sought settings source t₀ n' := by
  cases o with
  | elapse ms => exact ⟨n, hm.elapse htime⟩
  | call c =>
    exact ⟨n, hm.aloof (undergo_aloof hm.sound
      ⟨fun h => hstart (congrArg _ h), fun h => hshutdown (congrArg _ h)⟩)⟩
  | alarm a =>
    by_cases hslot : m.watchdogs.slot .friendlyNameRetry = some a.id
    · exact ⟨n + 1, hm.repeat hpos ho hslot⟩
    · exact ⟨n, hm.aloof (undergo_aloof hm.sound hslot)⟩
  | settle => exact ⟨n, hm.aloof (undergo_aloof hm.sound trivial)⟩

/-- After a start, the search goes on until there is an answer. -/
theorem Sought.undergoes (hpos : 0 < settings.friendlyNameRetryInterval)
    (hm : m.Sought settings source t₀ n) (hos : m.AllPossible os) (htime : m.AllInTime os)
    (hothers : ∀ o ∈ os, o ≠ .call .start ∧ o ≠ .call .shutdown) :
    ∃ n', (m.undergoes os).Sought settings source t₀ n' := by
  induction os generalizing m n with
  | nil => exact ⟨n, hm⟩
  | cons o os ih =>
    obtain ⟨hstart, hshutdown⟩ := hothers o (by simp)
    obtain ⟨n', hm'⟩ := hm.undergo hpos hos.1 htime.1 hstart hshutdown
    exact ih hm' hos.2 htime.2 fun o' ho' => hothers o' (by simp [ho'])

/-- The watchdog of the name is set as long as the name is not known. -/
theorem Sought.armed_iff (hm : m.Sought settings source t₀ n) :
    m.watchdogs.isArmed .friendlyNameRetry = true ↔ source n = none := by
  cases hn : source n with
  | some name => simp [Timer.Watchdogs.isArmed, hm.known (by simp [hn])]
  | none =>
    obtain ⟨a, ha, hslot, -⟩ := hm.unknown hn
    have hpending : m.watchdogs.timetable.isPending a.id = true :=
      List.any_eq_true.2 ⟨a, ha, by simp⟩
    simp [Timer.Watchdogs.isArmed, hslot, Timer.Timetable.isFinished, hpending]

/-- The next look-up has not been missed. -/
theorem Sought.now_le (hm : m.Sought settings source t₀ n) (hn : source n = none) :
    m.now ≤ t₀ + (n + 1) * settings.friendlyNameRetryInterval ∧
      (m.watchdogs.timetable.due = [] →
        m.now < t₀ + (n + 1) * settings.friendlyNameRetryInterval) := by
  obtain ⟨a, ha, -, hdue, -, hnow⟩ := hm.unknown hn
  rw [← hdue]
  refine ⟨hnow, fun hnothing => Nat.lt_of_not_le fun hcome => ?_⟩
  have hmem : a ∈ m.watchdogs.timetable.due :=
    List.mem_filter.2 ⟨ha, decide_eq_true hcome⟩
  rw [hnothing] at hmem
  exact absurd hmem List.not_mem_nil

end Machine

namespace World

/-- The name of the device is looked up when the machine is started and after every interval since,
up to the first answer and not after it; the answer is passed on once, at that time. Nobody knows
the name before that, and everybody from then on; its watchdog is set from a start without an answer
on until there is one. This holds at every point of a run in which the machine is started once and
not shut down, whatever else happens before and after. The interval is positive, as the settings
have to be for an interval at all, and the alarm of the watchdog goes off in time: the clock never
passes the moment at which it is due (`AllInTime`). Other alarms may be late. -/
theorem name_looked_up_until_known (settings : SessionSettings) (source : NameSource)
    (before after : List Occurrence) (hpos : 0 < settings.friendlyNameRetryInterval) :
    let m₀ := (fresh settings (some source)).machine.undergoes before
    let m₁ := m₀.undergo (.call .start)
    let m := m₁.undergoes after
    let interval := settings.friendlyNameRetryInterval
    .call .start ∉ before ++ after → .call .shutdown ∉ before ++ after →
    m₁.AllPossible after → m₁.AllInTime after →
      (m₀.nameNews = [] ∧ m₀.session.friendlyName = none ∧
        m₀.watchdogs.isArmed .friendlyNameRetry = false) ∧
      ∃ n, (∀ k < n, source k = none) ∧
        m.nameNews = (List.range (n + 1)).map (fun k => .lookedUp (m₀.now + k * interval)) ++
          (source n).toList.map (.passedOn (m₀.now + n * interval)) ∧
        m.session.friendlyName = source n ∧
        (m.watchdogs.isArmed .friendlyNameRetry = true ↔ source n = none) ∧
        (source n = none → m.now ≤ m₀.now + (n + 1) * interval ∧
          (m.watchdogs.timetable.due = [] → m.now < m₀.now + (n + 1) * interval)) := by
  intro m₀ m₁ m interval hstart hshutdown hafter htime
  have hothers (o : Occurrence) (ho : o ∈ before ++ after) :
      o ≠ .call .start ∧ o ≠ .call .shutdown :=
    ⟨fun h => hstart (h ▸ ho), fun h => hshutdown (h ▸ ho)⟩
  have hm₀ : m₀.Unsought settings source :=
    (Machine.unsought_fresh settings source).undergoes fun o ho => hothers o (by simp [ho])
  obtain ⟨n, hm⟩ := hm₀.start.undergoes hpos hafter htime fun o ho => hothers o (by simp [ho])
  refine ⟨⟨congrArg Errand.news hm₀.errand, congrArg Errand.known hm₀.errand, ?_⟩, n, hm.absent,
    congrArg Errand.news hm.errand, congrArg Errand.known hm.errand, hm.armed_iff, hm.now_le⟩
  rw [Timer.Watchdogs.isArmed, hm₀.slot]

/-- The third look-up has an answer. Meanwhile the service is enabled, and a peer asks to connect. -/
theorem name_looked_up_until_third_answer :
    let source : NameSource := .ofList [none, none, some "TV"]
    let m₁ := ((fresh {} (some source)).machine.undergo (.elapse 100)).undergo (.call .start)
    let retry (due : Nat) : Occurrence :=
      .alarm { id := 1, due, period := some 5000, task := .watchdog .friendlyNameRetry }
    let after : List Occurrence := [.call (.setEnabled true), .elapse 5000, retry 5100,
      .call (.report (.connectionRequest "aa" "A")), .elapse 5000, retry 10100, .elapse 9000]
    m₁.AllPossible after ∧ (m₁.undergoes after).nameNews =
      [.lookedUp 100, .lookedUp 5100, .lookedUp 10100, .passedOn 10100 "TV"] := by
  intro source m₁ retry after
  have hafter : m₁.AllPossible after := by decide +kernel
  have htime : m₁.AllInTime after := by decide +kernel
  obtain ⟨-, n, habsent, hnews, -, -, hnow⟩ := name_looked_up_until_known {} source
    [.elapse 100] after (by decide) (by simp [after, retry]) (by simp [after, retry]) hafter htime
  refine ⟨hafter, hnews.trans ?_⟩
  -- A third look-up has not been missed, and there is none after it.
  match n with
  | 0 | 1 => exact absurd (hnow rfl).1 (by decide +kernel)
  | 2 => decide +kernel
  | k + 3 => exact absurd (habsent 2 (by omega)) (by decide +kernel)

end World

end CastReceiver
