import CastReceiver.Proofs.Timer.Clockwork

/-!
# Watchdogs go off on time

A watchdog that is set once is carried out once, when its delay is over, unless its slot is cleared
before; a repeating one is carried out after every period, until its slot is cleared or it ceases by
itself. A watchdog that was claimed or replaced has lost its slot, so nothing that is cancelled
later is meant for it. Time can always go on to the moment at which it is carried out
(`instances_run_on_time`). A repeating watchdog without time between is given up and never carried
out (`not_runs_without_period`).
-/
namespace CastReceiver.Timer.Watchdogs

variable {α : Type} {w : Watchdogs α} {i : Incident α} {is : List (Incident α)} {a b : Alarm α}
  {kind : WatchdogKind} {id delay period : Nat} {task : α}

/-! ## Which alarm a number belongs to -/

/-- The number has been given for this kind, and no slot of another kind holds it. -/
structure Given (w : Watchdogs α) (kind : WatchdogKind) (id : Nat) : Prop where
  lt : id < w.timetable.nextId
  kind_eq : ∀ k, w.slot k = some id → k = kind

theorem Given.undergo (h : w.Given kind id) (i : Incident α) : (w.undergo i).Given kind id where
  lt := Nat.lt_of_lt_of_le h.lt (w.nextId_le_undergo i)
  kind_eq k hk := by
    rcases slot_undergo.1 hk with hnew | hk
    · have hlt := h.lt
      rcases w.given?_cases i with ⟨hnone, -⟩ | ⟨_, hnext, -⟩
      · rw [hnone] at hnew
        cases hnew
      · rw [hnext] at hnew
        cases hnew
        omega
    · exact h.kind_eq k hk.1

theorem eq_of_goOff (hw : w.Regular) (ha : a ∈ w.timetable.alarms)
    (hb : w.Possible (.goOff b)) (hid : b.id = a.id) : b = a ∧ w.timetable.now = a.due := by
  obtain ⟨hmem, hdue⟩ := List.mem_filter.1 hb
  obtain rfl := hw.eq_of_id_eq hmem ha hid
  have hpunctual := hw.punctual b hmem
  have hlate : b.due ≤ w.timetable.now := of_decide_eq_true hdue
  exact ⟨rfl, by omega⟩

/-- The watchdog is cancelled or replaced while it has its slot, or ceases by itself. -/
def Ends (w : Watchdogs α) (kind : WatchdogKind) (id : Nat) (i : Incident α) : Prop :=
  w.Withdraws kind id i ∨ i = .cease id

theorem idle_of_ends (h : w.Ends kind id i) : (w.undergo i).Idle id := by
  rcases h with h | rfl
  · exact idle_of_withdraws h
  · exact w.idle_cease id

theorem Ends.begun?_eq_none (h : w.Ends kind id i) : i.begun? id = none := by
  rcases h with ⟨-, hclears⟩ | rfl
  · cases i with
    | goOff a => exact hclears.elim
    | _ => rfl
  · rfl

/-- A pending alarm stays as it is unless it goes off or its watchdog ends. -/
theorem mem_undergo_of_given (hw : w.Regular) (hgiven : w.Given kind a.id)
    (ha : a ∈ w.timetable.alarms) (hends : ¬ w.Ends kind a.id i)
    (hgoes : ∀ b, i = .goOff b → b.id ≠ a.id) : a ∈ (w.undergo i).timetable.alarms := by
  refine mem_undergo hw ha (fun k hk => ?_) (fun h => hends (.inr h)) hgoes
  obtain rfl := hgiven.kind_eq k hk.1
  exact hends (.inl hk)

/-! ## When an alarm is carried out -/

/-- The alarm with this number is to go off at this time, which has not passed. -/
def Awaits (w : Watchdogs α) (id time : Nat) : Prop :=
  w.timetable.now ≤ time ∧ ∃ a ∈ w.timetable.alarms, a.id = id ∧ a.due = time

/-- The slot of the watchdog is cleared before it is carried out. -/
def Forestalled (w : Watchdogs α) (kind : WatchdogKind) (id : Nat) (is : List (Incident α)) :
    Prop :=
  ∃ earlier i later, is = earlier ++ i :: later ∧
    (w.undergoes earlier).Withdraws kind id i ∧ w.runs id earlier = []

/-- The watchdog is carried out once when it is due, unless it is forestalled. -/
structure RunsOnce (w : Watchdogs α) (kind : WatchdogKind) (id due : Nat) (task : α)
    (is : List (Incident α)) : Prop where
  forestalled : w.Forestalled kind id is → w.runs id is = []
  kept : ¬ w.Forestalled kind id is →
    w.runs id is = [(due, task)] ∨ w.runs id is = [] ∧ (w.undergoes is).Awaits id due

/-- The watchdog is carried out when it is due and after every period from then on, until it
ends. -/
structure RunsRepeatedly (w : Watchdogs α) (kind : WatchdogKind) (id due period : Nat) (task : α)
    (is : List (Incident α)) : Prop where
  times : w.runs id is =
    (List.range (w.runs id is).length).map fun k => (due + k * period, task)
  ended : ∀ earlier i later, is = earlier ++ i :: later →
    (w.undergoes earlier).Ends kind id i → w.runs id is = w.runs id earlier
  kept : (∀ earlier i later, is = earlier ++ i :: later →
      ¬ (w.undergoes earlier).Ends kind id i) →
    (w.undergoes is).Awaits id (due + (w.runs id is).length * period)

theorem runs_of_begun?_eq_none (h : i.begun? id = none) :
    w.runs id (i :: is) = (w.undergo i).runs id is := by
  rw [runs, h]
  rfl

/-- An alarm that is over is not carried out any more, and one without time between never is. -/
theorem runs_eq_nil (hw : w.Regular) (hid : id < w.timetable.nextId)
    (hvoid : ∀ a ∈ w.timetable.alarms, a.id = id → a.period = some 0) (his : w.AllPossible is) :
    w.runs id is = [] := by
  induction is generalizing w with
  | nil => rfl
  | cons i is ih =>
    obtain ⟨hi, his⟩ := his
    have hnone : i.begun? id = none := by
      cases i with
      | goOff a =>
        refine if_neg fun ⟨haid, ha⟩ => ?_
        have hperiod := hvoid a (List.mem_of_mem_filter hi) haid
        simp [Alarm.isVoid, hperiod] at ha
      | _ => rfl
    rw [runs_of_begun?_eq_none hnone]
    refine ih (hw.undergo hi) (Nat.lt_of_lt_of_le hid (w.nextId_le_undergo i)) ?_ his
    rintro b hb rfl
    obtain ⟨c, hc, hcb, hperiod⟩ := exists_of_mem_undergo hw hb hid
    rw [← hperiod]
    exact hvoid c hc hcb

theorem runs_of_idle (hw : w.Regular) (hid : id < w.timetable.nextId) (h : w.Idle id)
    (his : w.AllPossible is) : w.runs id is = [] :=
  runs_eq_nil hw hid (fun a ha haid => absurd haid (h a ha)) his

/-- After its end, an alarm is not carried out any more. -/
theorem runs_of_ends {earlier later : List (Incident α)} (hw : w.Regular)
    (hid : id < w.timetable.nextId) (his : w.AllPossible (earlier ++ i :: later))
    (hends : (w.undergoes earlier).Ends kind id i) :
    w.runs id (earlier ++ i :: later) = w.runs id earlier := by
  obtain ⟨hearlier, hi, hlater⟩ := allPossible_append.1 his
  have hw' := hw.undergoes hearlier
  have hid' : id < ((w.undergoes earlier).undergo i).timetable.nextId := by
    have hmono : w.timetable.nextId ≤ (w.undergoes earlier).timetable.nextId :=
      w.nextId_le_undergoes earlier
    exact Nat.lt_of_lt_of_le (Nat.lt_of_lt_of_le hid hmono) (nextId_le_undergo _ i)
  rw [runs_append, runs_of_begun?_eq_none hends.begun?_eq_none,
    runs_of_idle (hw'.undergo hi) hid' (idle_of_ends hends) hlater, List.append_nil]

theorem runs_goOff (hvoid : a.isVoid = false) :
    w.runs a.id (.goOff a :: is) =
      (w.timetable.now, a.task) :: (w.undergo (.goOff a)).runs a.id is := by
  rw [runs, Incident.begun?, if_pos ⟨rfl, hvoid⟩]
  rfl

/-- An alarm that does not repeat goes off once when it is due, unless its watchdog is withdrawn
before. -/
theorem runs_once (hw : w.Regular) (hgiven : w.Given kind a.id) (ha : a ∈ w.timetable.alarms)
    (hperiod : a.period = none) (his : w.AllPossible is)
    (hkept : ¬ w.Forestalled kind a.id is) :
    w.runs a.id is = [(a.due, a.task)] ∨
      w.runs a.id is = [] ∧ (w.undergoes is).Awaits a.id a.due := by
  have hvoid : a.isVoid = false := by simp [Alarm.isVoid, hperiod]
  induction is generalizing w with
  | nil => exact .inr ⟨rfl, hw.punctual a ha, a, ha, rfl, rfl⟩
  | cons i is ih =>
    obtain ⟨hi, his⟩ := his
    by_cases hgoes : ∃ b, i = .goOff b ∧ b.id = a.id
    · obtain ⟨b, rfl, hid⟩ := hgoes
      obtain ⟨rfl, hnow⟩ := eq_of_goOff hw ha hi hid
      have hidle : (w.undergo (.goOff b)).Idle b.id := idle_goOff (.inl hperiod)
      have hid := Nat.lt_of_lt_of_le hgiven.lt (w.nextId_le_undergo (.goOff b))
      left
      rw [runs_goOff hvoid, runs_of_idle (hw.undergo hi) hid hidle his, hnow]
    · have hnone := Incident.begun?_eq_none_of_not_goOff hgoes
      have hends : ¬ w.Ends kind a.id i := by
        rintro (hwithdraws | rfl)
        · exact hkept ⟨[], i, is, rfl, hwithdraws, rfl⟩
        · exact hi a ha rfl hperiod
      have hmem := mem_undergo_of_given hw hgiven ha hends fun b hb hid => hgoes ⟨b, hb, hid⟩
      rw [runs_of_begun?_eq_none hnone]
      refine ih (hw.undergo hi) (hgiven.undergo i) hmem his ?_
      rintro ⟨earlier, j, later, rfl, hj, hearlier⟩
      refine hkept ⟨i :: earlier, j, later, rfl, hj, ?_⟩
      rwa [runs_of_begun?_eq_none hnone]

/-- A repeating alarm goes off after every period, up to the end of its watchdog. -/
theorem runs_repeating (hw : w.Regular) (hgiven : w.Given kind a.id) (ha : a ∈ w.timetable.alarms)
    (hperiod : a.period = some period) (hpositive : 0 < period) (his : w.AllPossible is) :
    w.runs a.id is =
        (List.range (w.runs a.id is).length).map (fun k => (a.due + k * period, a.task)) ∧
      ((∀ earlier i later, is = earlier ++ i :: later →
          ¬ (w.undergoes earlier).Ends kind a.id i) →
        (w.undergoes is).Awaits a.id (a.due + (w.runs a.id is).length * period)) := by
  induction is generalizing w a with
  | nil =>
    refine ⟨rfl, fun _ => ?_⟩
    rw [runs, List.length_nil, Nat.zero_mul]
    exact ⟨hw.punctual a ha, a, ha, rfl, rfl⟩
  | cons i is ih =>
    obtain ⟨hi, his⟩ := his
    have hw' := hw.undergo hi
    have hgiven' := hgiven.undergo i
    by_cases hgoes : ∃ b, i = .goOff b ∧ b.id = a.id
    · obtain ⟨b, rfl, hid⟩ := hgoes
      obtain ⟨rfl, hnow⟩ := eq_of_goOff hw ha hi hid
      have hvoid : b.isVoid = false := by
        simpa [Alarm.isVoid, hperiod] using Nat.ne_of_gt hpositive
      -- From here on it is as if the alarm had been set to go off one period later.
      obtain ⟨htimes, hkept⟩ :=
        ih (a := { b with due := b.due + period }) hw' hgiven'
          (Timetable.mem_start_of_period ha hperiod hpositive) hperiod his
      have hshift : (fun k => (b.due + period + k * period, b.task)) =
          (fun k => (b.due + k * period, b.task)) ∘ Nat.succ := by
        funext k
        simp only [Function.comp, Nat.succ_mul, Prod.mk.injEq, and_true]
        omega
      rw [runs_goOff hvoid, List.length_cons]
      refine ⟨?_, fun hends => ?_⟩
      · rw [List.range_succ_eq_map, List.map_cons, List.map_map, ← hshift, Nat.zero_mul, hnow]
        exact congrArg (_ :: ·) htimes
      · rw [Nat.succ_mul, Nat.add_comm _ period, ← Nat.add_assoc]
        exact hkept fun earlier j later his =>
          hends (.goOff b :: earlier) j later (congrArg (_ :: ·) his)
    · have hnone := Incident.begun?_eq_none_of_not_goOff hgoes
      by_cases hends : w.Ends kind a.id i
      · have hnever : w.runs a.id ([] ++ i :: is) = w.runs a.id [] :=
          runs_of_ends hw hgiven.lt ⟨hi, his⟩ hends
        rw [List.nil_append] at hnever
        rw [hnever]
        exact ⟨rfl, fun hkept => (hkept [] i is rfl hends).elim⟩
      · have hmem := mem_undergo_of_given hw hgiven ha hends fun b hb hid => hgoes ⟨b, hb, hid⟩
        obtain ⟨htimes, hkept⟩ := ih hw' hgiven' hmem hperiod his
        rw [runs_of_begun?_eq_none hnone]
        exact ⟨htimes, fun h => hkept fun earlier j later his =>
          h (i :: earlier) j later (congrArg (i :: ·) his)⟩

/-! ## Watchdogs that have just been set -/

theorem given_install (hw : w.Regular) (kind : WatchdogKind) (delay : Nat) (period : Option Nat)
    (task : α) :
    (w.install kind (w.timetable.add delay period task)).2.Given kind w.timetable.nextId where
  lt := by
    have hnext : (w.install kind (w.timetable.add delay period task)).2.timetable.nextId =
        w.timetable.nextId + 1 := cancel_nextId _ kind
    rw [hnext]
    exact Nat.lt_succ_self _
  kind_eq k hk := by
    rw [install_slot] at hk
    split at hk
    case isTrue h => exact h
    case isFalse => exact absurd (hw.taken k _ hk) (Nat.lt_irrefl _)

theorem alarm_mem_install (hw : w.Regular) (kind : WatchdogKind) (delay : Nat)
    (period : Option Nat) (task : α) :
    ⟨w.timetable.nextId, w.timetable.now + delay, period, task⟩ ∈
      (w.install kind (w.timetable.add delay period task)).2.timetable.alarms := by
  apply mem_cancel
  · rw [hw.add_alarms]
    exact List.mem_append_right _ (List.mem_singleton.2 rfl)
  · exact fun id hid => Nat.ne_of_gt (hw.taken kind id hid)

theorem runsOnce_arm (hw : w.Regular) (his : (w.arm kind delay task).2.AllPossible is) :
    (w.arm kind delay task).2.RunsOnce kind (w.arm kind delay task).1
      (w.timetable.now + delay) task is where
  forestalled := by
    rintro ⟨earlier, i, later, rfl, hwithdraws, hearlier⟩
    have hgiven := given_install hw kind delay none task
    exact (runs_of_ends (hw.install kind delay none task) hgiven.lt his (.inl hwithdraws)).trans
      hearlier
  kept := runs_once (hw.install kind delay none task) (given_install hw kind delay none task)
    (alarm_mem_install hw kind delay none task) rfl his

theorem runsRepeatedly_armRepeating (hw : w.Regular) (hpositive : 0 < period)
    (his : (w.armRepeating kind period task).2.AllPossible is) :
    (w.armRepeating kind period task).2.RunsRepeatedly kind (w.armRepeating kind period task).1
      (w.timetable.now + period) period task is := by
  have hw' := hw.install kind period (some period) task
  have hgiven := given_install hw kind period (some period) task
  have hmem := alarm_mem_install hw kind period (some period) task
  obtain ⟨htimes, hkept⟩ := runs_repeating hw' hgiven hmem rfl hpositive his
  refine ⟨htimes, ?_, hkept⟩
  rintro earlier i later rfl hends
  exact runs_of_ends hw' hgiven.lt his hends

theorem not_runs_without_period (hw : w.Regular)
    (his : (w.armRepeating kind 0 task).2.AllPossible is) :
    (w.armRepeating kind 0 task).2.runs (w.armRepeating kind 0 task).1 is = [] := by
  have hw' := hw.install kind 0 (some 0) task
  refine runs_eq_nil hw' (given_install hw kind 0 (some 0) task).lt (fun a ha hid => ?_) his
  rw [hw'.eq_of_id_eq ha (alarm_mem_install hw kind 0 (some 0) task) hid]

/-- A watchdog without time between keeps its slot, but it is not carried out. -/
theorem not_runsRepeatedly_without_period :
    let w := (armRepeating (α := Unit) {} .radioConnect 0 ()).2
    let is := [.goOff ⟨1, 0, some 0, ()⟩, .elapse 10]
    w.AllPossible is ∧ (w.undergoes is).isCurrent .radioConnect 1 = true ∧ w.runs 1 is = [] ∧
      ¬ w.RunsRepeatedly .radioConnect 1 0 0 () is := by
  intro w is
  refine ⟨by decide, by decide, by decide, fun h => ?_⟩
  have hawaits : (w.undergoes is).timetable.now ≤ 0 := by
    refine (h.kept fun earlier i later his hends => ?_).1
    have hi : i ∈ is := by
      rw [his]
      exact List.mem_append_right _ List.mem_cons_self
    simp only [is, List.mem_cons, List.not_mem_nil, or_false] at hi
    rcases hi with rfl | rfl <;> rcases hends with ⟨-, hclears⟩ | hcease
    · exact hclears
    · cases hcease
    · exact hclears
    · cases hcease
  exact absurd hawaits (by decide)

theorem mem_armedKinds : kind ∈ w.armedKinds ↔ w.isArmed kind = true := by
  have hall : kind ∈ WatchdogKind.all := by cases kind <;> decide
  simp [armedKinds, hall]

theorem claim_eq_isCurrent (w : Watchdogs α) (kind : WatchdogKind) (id : Nat) :
    (w.claim kind id).1 = w.isCurrent kind id := by
  rw [claim]
  split
  case isTrue h => rw [h]
  case isFalse h => simpa using h

/-- What can be relied on after these incidents: when watchdogs that were set on the way are carried
out, which numbers were given, and what is said of the slots at the end. -/
structure Punctual (is : List (Incident α)) : Prop where
  once : ∀ before kind delay task since, is = before ++ .arm kind delay task :: since →
    let w := undergoes {} before
    (w.arm kind delay task).2.RunsOnce kind (w.arm kind delay task).1
      (w.timetable.now + delay) task since
  repeatedly : ∀ before kind period task since,
    is = before ++ .armRepeating kind period task :: since → 0 < period →
    let w := undergoes {} before
    (w.armRepeating kind period task).2.RunsRepeatedly kind (w.armRepeating kind period task).1
      (w.timetable.now + period) period task since
  /-- A watchdog without time between is given up. -/
  never : ∀ before kind task since, is = before ++ .armRepeating kind 0 task :: since →
    let w := undergoes {} before
    (w.armRepeating kind 0 task).2.runs (w.armRepeating kind 0 task).1 since = []
  /-- The alarms that are due on the way go off, and time goes on as far as one likes. -/
  goesOn : ∀ ms, ∃ own, (∀ i ∈ own, i.IsTimely) ∧ AllPossible {} (is ++ own) ∧
    (undergoes {} (is ++ own)).timetable.now = (undergoes {} is).timetable.now + ms ∧
    (undergoes {} (is ++ own)).timetable.due = []
  distinct : (numbers {} is).Nodup
  current : ∀ kind id, (undergoes {} is).isCurrent kind id = true ↔ Holds {} kind id is
  claimed : ∀ kind id, ((undergoes {} is).claim kind id).1 = true ↔ Holds {} kind id is
  armed : ∀ kind, kind ∈ (undergoes {} is).armedKinds ↔ (undergoes {} is).isArmed kind = true
  ordered : (undergoes {} is).armedKinds.Sublist WatchdogKind.all
  nodup : (undergoes {} is).armedKinds.Nodup

/-- However watchdogs are set, cancelled and claimed while alarms go off and time passes, each is
carried out exactly when it should be, and is known by a number of its own as long as it has its
slot. -/
theorem instances_run_on_time (his : AllPossible {} is) : Punctual is := by
  have hregular {before since : List (Incident α)} {i : Incident α}
      (hparts : is = before ++ i :: since) :
      (undergoes {} before).Regular ∧ ((undergoes {} before).undergo i).AllPossible since := by
    rw [hparts, allPossible_append] at his
    exact ⟨regular_empty.undergoes his.1, his.2.2⟩
  have hcurrent (kind : WatchdogKind) (id : Nat) :
      (undergoes {} is).isCurrent kind id = true ↔ Holds {} kind id is := by
    rw [isCurrent, beq_iff_eq, slot_undergoes]
    exact or_iff_right fun h => by cases h.1
  refine
    { once := fun before kind delay task since hparts => ?_
      repeatedly := fun before kind period task since hparts hpositive => ?_
      never := fun before kind task since hparts => ?_
      goesOn := fun ms => ?_
      distinct := ?_
      current := hcurrent
      claimed := fun kind id => ?_
      armed := fun kind => mem_armedKinds
      ordered := List.filter_sublist
      nodup := List.Nodup.filter _ (by decide) }
  · obtain ⟨hw, hsince⟩ := hregular hparts
    exact runsOnce_arm hw hsince
  · obtain ⟨hw, hsince⟩ := hregular hparts
    exact runsRepeatedly_armRepeating hw hpositive hsince
  · obtain ⟨hw, hsince⟩ := hregular hparts
    exact not_runs_without_period hw hsince
  · obtain ⟨own, htimely, hpossible, hquiet⟩ := exists_advance (regular_empty.undergoes his) ms
    refine ⟨own, htimely, allPossible_append.2 ⟨his, hpossible⟩, ?_⟩
    rw [undergoes_append]
    exact hquiet
  · rw [numbers_eq]
    exact List.nodup_range'
  · rw [claim_eq_isCurrent]
    exact hcurrent kind id

/-- The first watchdog is claimed before another of its kind is set, and so it is not cancelled. -/
def rehearsal : List (Incident WatchdogKind) :=
  [.arm .connectionAccept 100 .connectionAccept, .armRepeating .radioConnect 40 .radioConnect,
    .elapse 40, .goOff ⟨2, 40, some 40, .radioConnect⟩, .claim .connectionAccept 1,
    .arm .connectionAccept 10 .connectionAccept, .elapse 10,
    .goOff ⟨3, 50, none, .connectionAccept⟩, .elapse 30, .goOff ⟨2, 80, some 40, .radioConnect⟩,
    .cease 2, .elapse 20, .goOff ⟨1, 100, none, .connectionAccept⟩, .elapse 5]

theorem punctual_rehearsal :
    AllPossible {} rehearsal ∧ Punctual rehearsal ∧
      runs {} 1 rehearsal = [(100, .connectionAccept)] ∧
      runs {} 2 rehearsal = [(40, .radioConnect), (80, .radioConnect)] ∧
      runs {} 3 rehearsal = [(50, .connectionAccept)] := by
  have hpossible : AllPossible {} rehearsal := by decide
  exact ⟨hpossible, instances_run_on_time hpossible, by decide, by decide, by decide⟩

end CastReceiver.Timer.Watchdogs
