import CastReceiver.Proofs.Discovery.Timers
import CastReceiver.Proofs.World

/-!
# What happens to watchdogs

Watchdogs are set, cancelled and claimed, alarms go off, and time passes, in any order. What the
task of an alarm does to the watchdogs when it is carried out comes as further incidents, between
which others may be at work. Time never passes the moment at which an alarm is due: the alarm goes
off first.
-/
namespace CastReceiver.Timer

/-- What can happen to watchdogs. -/
inductive Incident (α : Type) where
  | arm (kind : WatchdogKind) (delay : Nat) (task : α)
  | armRepeating (kind : WatchdogKind) (period : Nat) (task : α)
  | cancel (kind : WatchdogKind)
  | cancelAll
  | claim (kind : WatchdogKind) (id : Nat)
  /-- An alarm goes off, and its task is begun. -/
  | goOff (a : Alarm α)
  /-- The task of a repeating alarm does not want to be carried out again. -/
  | cease (id : Nat)
  | elapse (ms : Nat)
  /-- Alarms that were cancelled are noticed. -/
  | settle

namespace Incident

variable {α : Type}

/-- The slot of this kind is emptied, or filled again, and the alarm there cancelled. -/
def Clears (kind : WatchdogKind) : Incident α → Prop
  | arm k _ _ | armRepeating k _ _ | cancel k => k = kind
  | cancelAll => True
  | _ => False

/-- The task of the alarm with this number, if it is carried out. -/
def begun? (id : Nat) : Incident α → Option α
  | goOff a => if a.id = id ∧ a.isVoid = false then some a.task else none
  | _ => none

theorem begun?_eq_none_of_not_goOff {id : Nat} {i : Incident α}
    (h : ¬ ∃ a, i = goOff a ∧ a.id = id) : i.begun? id = none := by
  cases i with
  | goOff a => exact if_neg fun ⟨hid, _⟩ => h ⟨a, rfl, hid⟩
  | _ => rfl

end Incident

namespace Watchdogs

variable {α : Type}

def undergo (w : Watchdogs α) : Incident α → Watchdogs α
  | .arm kind delay task => (w.arm kind delay task).2
  | .armRepeating kind period task => (w.armRepeating kind period task).2
  | .cancel kind => (w.cancel kind).2
  | .cancelAll => w.cancelAll
  | .claim kind id => (w.claim kind id).2
  | .goOff a => { w with timetable := w.timetable.start a }
  | .cease id => { w with timetable := w.timetable.remove id }
  | .elapse ms => { w with timetable := { w.timetable with now := w.timetable.now + ms } }
  | .settle => { w with timetable := w.timetable.settled }

/-- An alarm goes off when it is due, unless it was cancelled, and before time goes on. Only a
repeating one may cease, if it is still pending at all. -/
def Possible (w : Watchdogs α) : Incident α → Prop
  | .goOff a => a ∈ w.timetable.due
  | .cease id => ∀ a ∈ w.timetable.alarms, a.id = id → a.period ≠ none
  | .elapse ms => ∀ a ∈ w.timetable.alarms, w.timetable.now + ms ≤ a.due
  | _ => True

def undergoes (w : Watchdogs α) (is : List (Incident α)) : Watchdogs α :=
  is.foldl undergo w

def AllPossible (w : Watchdogs α) : List (Incident α) → Prop
  | [] => True
  | i :: is => w.Possible i ∧ (w.undergo i).AllPossible is

/-- When the task of the alarm with this number is carried out, and which task it is. -/
def runs (w : Watchdogs α) (id : Nat) : List (Incident α) → List (Nat × α)
  | [] => []
  | i :: is => ((i.begun? id).map (w.timetable.now, ·)).toList ++ (w.undergo i).runs id is

/-- The kind of watchdog that is set, and the number it is given. -/
def given? (w : Watchdogs α) : Incident α → Option (WatchdogKind × Nat)
  | .arm kind delay task => some (kind, (w.arm kind delay task).1)
  | .armRepeating kind period task => some (kind, (w.armRepeating kind period task).1)
  | _ => none

/-- The numbers that are given. -/
def numbers (w : Watchdogs α) : List (Incident α) → List Nat
  | [] => []
  | i :: is => ((w.given? i).map Prod.snd).toList ++ (w.undergo i).numbers is

section Decidable

variable [DecidableEq α]

instance (w : Watchdogs α) : DecidablePred w.Possible
  | .goOff a => inferInstanceAs (Decidable (a ∈ w.timetable.due))
  | .cease id =>
    inferInstanceAs (Decidable (∀ a ∈ w.timetable.alarms, a.id = id → a.period ≠ none))
  | .elapse ms =>
    inferInstanceAs (Decidable (∀ a ∈ w.timetable.alarms, w.timetable.now + ms ≤ a.due))
  | .arm .. | .armRepeating .. | .cancel _ | .cancelAll | .claim .. | .settle => isTrue trivial

instance decidableAllPossible : (w : Watchdogs α) → DecidablePred w.AllPossible
  | _, [] => isTrue trivial
  | w, i :: is =>
    have := decidableAllPossible (w.undergo i) is
    inferInstanceAs (Decidable (w.Possible i ∧ (w.undergo i).AllPossible is))

end Decidable

variable {w : Watchdogs α} {i : Incident α} {is is' : List (Incident α)} {a b : Alarm α}
  {kind : WatchdogKind} {id : Nat}

theorem undergoes_append (w : Watchdogs α) (is is' : List (Incident α)) :
    w.undergoes (is ++ is') = (w.undergoes is).undergoes is' :=
  List.foldl_append

theorem allPossible_append :
    w.AllPossible (is ++ is') ↔ w.AllPossible is ∧ (w.undergoes is).AllPossible is' := by
  induction is generalizing w with
  | nil => simp [AllPossible, undergoes]
  | cons i is ih =>
    rw [List.cons_append, AllPossible, AllPossible, ih, and_assoc]
    rfl

theorem runs_append (w : Watchdogs α) (id : Nat) (is is' : List (Incident α)) :
    w.runs id (is ++ is') = w.runs id is ++ (w.undergoes is).runs id is' := by
  induction is generalizing w with
  | nil => rfl
  | cons i is ih =>
    rw [List.cons_append, runs, runs, ih, List.append_assoc]
    rfl

/-! ## Numbers, slots and deadlines -/

/-- Alarms have numbers of their own, which slots hold only after they were given, and no alarm is
overdue. -/
structure Regular (w : Watchdogs α) : Prop where
  running : w.timetable.running = true
  fresh : ∀ a ∈ w.timetable.alarms, a.id < w.timetable.nextId
  distinct : (w.timetable.alarms.map Alarm.id).Nodup
  taken : ∀ kind id, w.slot kind = some id → id < w.timetable.nextId
  punctual : ∀ a ∈ w.timetable.alarms, w.timetable.now ≤ a.due

theorem regular_empty : Regular (α := α) {} where
  running := rfl
  fresh := nofun
  distinct := List.nodup_nil
  taken := nofun
  punctual := nofun

namespace Regular

/-- Alarms may be taken out and slots emptied, as long as the clock stands. -/
theorem thin (hw : w.Regular) {w' : Watchdogs α}
    (hrunning : w'.timetable.running = w.timetable.running)
    (hnext : w'.timetable.nextId = w.timetable.nextId)
    (hnow : w'.timetable.now = w.timetable.now)
    (halarms : w'.timetable.alarms.Sublist w.timetable.alarms)
    (hslot : ∀ kind id, w'.slot kind = some id → w.slot kind = some id) : w'.Regular where
  running := hrunning.trans hw.running
  fresh a ha := by
    rw [hnext]
    exact hw.fresh a (halarms.subset ha)
  distinct := hw.distinct.sublist (halarms.map _)
  taken kind id hid := by
    rw [hnext]
    exact hw.taken kind id (hslot kind id hid)
  punctual a ha := by
    rw [hnow]
    exact hw.punctual a (halarms.subset ha)

theorem cancel (hw : w.Regular) (kind : WatchdogKind) : (w.cancel kind).2.Regular := by
  refine hw.thin (by simp) (by simp) (by simp) (w.cancel_alarms_sublist kind) ?_
  intro k id hid
  rw [cancel_slot] at hid
  exact slot_eq_some_of_emptied hid

theorem add_alarms (hw : w.Regular) (delay : Nat) (period : Option Nat) (task : α) :
    (w.timetable.add delay period task).2.alarms = w.timetable.alarms ++
      [{ id := w.timetable.nextId, due := w.timetable.now + delay, period, task }] :=
  if_pos hw.running

theorem add (hw : w.Regular) (delay : Nat) (period : Option Nat) (task : α) :
    Regular { w with timetable := (w.timetable.add delay period task).2 } where
  running := hw.running
  fresh a ha := by
    rw [hw.add_alarms, List.mem_append, List.mem_singleton] at ha
    rcases ha with ha | rfl
    · exact Nat.lt_succ_of_lt (hw.fresh a ha)
    · exact Nat.lt_succ_self _
  distinct := by
    rw [hw.add_alarms, List.map_append, List.nodup_append]
    refine ⟨hw.distinct, List.nodup_singleton _, ?_⟩
    intro id hid next hnext
    obtain ⟨a, ha, rfl⟩ := List.mem_map.1 hid
    obtain rfl := List.mem_singleton.1 hnext
    exact Nat.ne_of_lt (hw.fresh a ha)
  taken kind id hid := Nat.lt_succ_of_lt (hw.taken kind id hid)
  punctual a ha := by
    rw [hw.add_alarms, List.mem_append, List.mem_singleton] at ha
    rcases ha with ha | rfl
    · exact hw.punctual a ha
    · exact Nat.le_add_right _ _

theorem install (hw : w.Regular) (kind : WatchdogKind) (delay : Nat) (period : Option Nat)
    (task : α) : (w.install kind (w.timetable.add delay period task)).2.Regular := by
  have hcancel := (hw.add delay period task).cancel kind
  refine ⟨hcancel.running, hcancel.fresh, hcancel.distinct, fun k id hid => ?_, hcancel.punctual⟩
  have hnext : (w.install kind (w.timetable.add delay period task)).2.timetable.nextId =
      w.timetable.nextId + 1 := cancel_nextId _ kind
  rw [hnext]
  rw [install_slot] at hid
  split at hid
  · cases hid
    exact Nat.lt_succ_self _
  · exact Nat.lt_succ_of_lt (hw.taken k id hid)

theorem start (hw : w.Regular) (a : Alarm α) :
    Regular { w with timetable := w.timetable.start a } where
  running := (w.timetable.start_running a).trans hw.running
  fresh b hb := by
    obtain ⟨c, hc, hid, -⟩ := w.timetable.exists_of_mem_start a hb
    rw [Timetable.start_nextId, ← hid]
    exact hw.fresh c hc
  distinct := hw.distinct.sublist (w.timetable.start_ids a)
  taken kind id hid := by
    rw [Timetable.start_nextId]
    exact hw.taken kind id hid
  punctual b hb := by
    rw [Timetable.start_now]
    rw [Timetable.start] at hb
    split at hb
    case h_3 period _ _ =>
      obtain ⟨c, hc, rfl⟩ := List.mem_map.1 hb
      have := hw.punctual c hc
      split
      · exact Nat.le_add_right_of_le this
      · exact this
    all_goals exact hw.punctual b (List.mem_of_mem_filter hb)

theorem undergo (hw : w.Regular) (hi : w.Possible i) : (w.undergo i).Regular := by
  cases i with
  | arm kind delay task => exact hw.install kind delay none task
  | armRepeating kind period task => exact hw.install kind period (some period) task
  | cancel kind => exact hw.cancel kind
  | cancelAll =>
    exact ((hw.cancel .connectionAccept).cancel .radioConnect).cancel .friendlyNameRetry
  | claim kind id =>
    show (w.claim kind id).2.Regular
    rw [claim]
    split
    · exact hw.thin rfl rfl rfl (List.Sublist.refl _) fun _ _ => slot_eq_some_of_emptied
    · exact hw
  | goOff a => exact hw.start a
  | cease id => exact hw.thin rfl rfl rfl List.filter_sublist fun _ _ h => h
  | elapse ms => exact ⟨hw.running, hw.fresh, hw.distinct, hw.taken, hi⟩
  | settle => exact ⟨hw.running, hw.fresh, hw.distinct, hw.taken, hw.punctual⟩

theorem undergoes (hw : w.Regular) (his : w.AllPossible is) : (w.undergoes is).Regular := by
  induction is generalizing w with
  | nil => exact hw
  | cons i is ih => exact ih (hw.undergo his.1) his.2

theorem eq_of_id_eq (hw : w.Regular) (ha : a ∈ w.timetable.alarms) (hb : b ∈ w.timetable.alarms)
    (hid : a.id = b.id) : a = b :=
  List.inj_on_of_nodup_map hw.distinct ha hb hid

end Regular

/-! ## New numbers -/

theorem slot_of_cancel {k : WatchdogKind} (h : (w.cancel kind).2.slot k = some id) :
    w.slot k = some id := by
  rw [cancel_slot] at h
  exact slot_eq_some_of_emptied h

/-- Either no watchdog is set, or the next number is given to one. -/
theorem given?_cases (w : Watchdogs α) (i : Incident α) :
    (w.given? i = none ∧ (w.undergo i).timetable.nextId = w.timetable.nextId) ∨
      ∃ kind, w.given? i = some (kind, w.timetable.nextId) ∧ i.Clears kind ∧
        (w.undergo i).timetable.nextId = w.timetable.nextId + 1 := by
  cases i with
  | arm kind delay task => exact .inr ⟨kind, rfl, rfl, cancel_nextId _ kind⟩
  | armRepeating kind period task => exact .inr ⟨kind, rfl, rfl, cancel_nextId _ kind⟩
  | cancel kind => exact .inl ⟨rfl, cancel_nextId w kind⟩
  | cancelAll => exact .inl ⟨rfl, by simp [undergo, cancelAll, WatchdogKind.all]⟩
  | claim kind id =>
    refine .inl ⟨rfl, ?_⟩
    show (w.claim kind id).2.timetable.nextId = _
    rw [claim]
    split <;> rfl
  | goOff a => exact .inl ⟨rfl, w.timetable.start_nextId a⟩
  | cease | elapse | settle => exact .inl ⟨rfl, rfl⟩

theorem nextId_le_undergo (w : Watchdogs α) (i : Incident α) :
    w.timetable.nextId ≤ (w.undergo i).timetable.nextId := by
  rcases w.given?_cases i with ⟨-, h⟩ | ⟨kind, -, -, h⟩ <;> omega

theorem nextId_le_undergoes (w : Watchdogs α) (is : List (Incident α)) :
    w.timetable.nextId ≤ (w.undergoes is).timetable.nextId := by
  induction is generalizing w with
  | nil => exact Nat.le_refl _
  | cons i is ih => exact Nat.le_trans (w.nextId_le_undergo i) (ih _)

/-- Numbers are given one after another. -/
theorem numbers_eq (w : Watchdogs α) (is : List (Incident α)) :
    w.numbers is = List.range' w.timetable.nextId (w.numbers is).length := by
  induction is generalizing w with
  | nil => rfl
  | cons i is ih =>
    have hrest := ih (w.undergo i)
    rw [numbers]
    rcases w.given?_cases i with ⟨hgiven, hnext⟩ | ⟨kind, hgiven, -, hnext⟩ <;>
      rw [hnext] at hrest <;> rw [hgiven]
    · exact hrest
    · show _ :: _ = _
      rw [hrest]
      simp [List.range'_succ]

/-! ## What the slots hold -/

/-- A slot holds the number that is given for it, or still what it held before. -/
theorem slot_undergo :
    (w.undergo i).slot kind = some id ↔
      w.given? i = some (kind, id) ∨
        (w.slot kind = some id ∧ ¬ i.Clears kind ∧ i ≠ .claim kind id) := by
  cases i with
  | arm k delay task | armRepeating k period task =>
    simp only [undergo, arm, armRepeating, given?, install_slot, Incident.Clears, @eq_comm _ kind]
    split
    case isTrue hk => simp [hk, install]
    case isFalse hk => simp [hk]
  | cancel k =>
    simp only [undergo, given?, cancel_slot, Incident.Clears, @eq_comm _ kind]
    split
    case isTrue hk => simp [hk]
    case isFalse hk => simp [hk]
  | cancelAll =>
    cases kind <;> simp [undergo, given?, cancelAll, WatchdogKind.all, Incident.Clears]
  | claim k claimed =>
    simp only [undergo, claim, isCurrent, given?, Incident.Clears, beq_iff_eq]
    split
    case isTrue hslot =>
      by_cases hk : kind = k
      · subst hk
        simp [hslot]
      · simp [hk, @eq_comm _ _ kind]
    case isFalse hslot =>
      have hne : w.slot kind = some id → ¬ (k = kind ∧ claimed = id) := by
        rintro h ⟨rfl, rfl⟩
        exact hslot h
      simp
      tauto
  | goOff | cease | elapse | settle => simp [undergo, given?, Incident.Clears]

/-- The number was given for this kind, whose slot has been neither cleared nor claimed since. -/
def Holds (w : Watchdogs α) (kind : WatchdogKind) (id : Nat) (is : List (Incident α)) : Prop :=
  ∃ before i since, is = before ++ i :: since ∧
    (w.undergoes before).given? i = some (kind, id) ∧
    ∀ j ∈ since, ¬ j.Clears kind ∧ j ≠ .claim kind id

theorem holds_cons :
    w.Holds kind id (i :: is) ↔
      (w.given? i = some (kind, id) ∧ ∀ j ∈ is, ¬ j.Clears kind ∧ j ≠ .claim kind id) ∨
        (w.undergo i).Holds kind id is := by
  constructor
  · rintro ⟨before, j, since, his, hgiven, hsince⟩
    cases before with
    | nil =>
      cases his
      exact .inl ⟨hgiven, hsince⟩
    | cons i before =>
      cases his
      exact .inr ⟨before, j, since, rfl, hgiven, hsince⟩
  · rintro (⟨hgiven, hsince⟩ | ⟨before, j, since, rfl, hgiven, hsince⟩)
    · exact ⟨[], i, is, rfl, hgiven, hsince⟩
    · exact ⟨i :: before, j, since, rfl, hgiven, hsince⟩

theorem slot_undergoes :
    (w.undergoes is).slot kind = some id ↔
      (w.slot kind = some id ∧ ∀ j ∈ is, ¬ j.Clears kind ∧ j ≠ .claim kind id) ∨
        w.Holds kind id is := by
  induction is generalizing w with
  | nil => simp [undergoes, Holds]
  | cons i is ih =>
    show ((w.undergo i).undergoes is).slot kind = some id ↔ _
    rw [ih, slot_undergo, holds_cons, List.forall_mem_cons]
    tauto

/-! ## One alarm -/

/-- No alarm with this number is pending. -/
def Idle (w : Watchdogs α) (id : Nat) : Prop :=
  ∀ a ∈ w.timetable.alarms, a.id ≠ id

/-- The slot of this kind is cleared while it holds this number. -/
def Withdraws (w : Watchdogs α) (kind : WatchdogKind) (id : Nat) (i : Incident α) : Prop :=
  w.slot kind = some id ∧ i.Clears kind

theorem Idle.cancel (h : w.Idle id) (kind : WatchdogKind) : (w.cancel kind).2.Idle id :=
  fun a ha => h a ((w.cancel_alarms_sublist kind).subset ha)

theorem idle_cancel (h : w.slot kind = some id) : (w.cancel kind).2.Idle id := by
  intro a ha
  simp only [Watchdogs.cancel, h, Timetable.cancel_alarms, List.mem_filter] at ha
  simpa using ha.2

/-- What is pending was pending before, or has just been set. -/
theorem exists_of_mem_undergo (hw : w.Regular) (hb : b ∈ (w.undergo i).timetable.alarms)
    (hid : b.id < w.timetable.nextId) :
    ∃ c ∈ w.timetable.alarms, c.id = b.id ∧ c.period = b.period := by
  have hcancel {w : Watchdogs α} {kind : WatchdogKind}
      (hb : b ∈ (w.cancel kind).2.timetable.alarms) : b ∈ w.timetable.alarms :=
    (w.cancel_alarms_sublist kind).subset hb
  have hinstall {kind : WatchdogKind} {delay : Nat} {period : Option Nat} {task : α}
      (hb : b ∈ (w.install kind (w.timetable.add delay period task)).2.timetable.alarms) :
      b ∈ w.timetable.alarms := by
    have hadded : b ∈ (w.timetable.add delay period task).2.alarms := hcancel hb
    rw [hw.add_alarms, List.mem_append, List.mem_singleton] at hadded
    rcases hadded with hold | rfl
    · exact hold
    · exact absurd hid (Nat.lt_irrefl _)
  cases i with
  | arm kind delay task | armRepeating kind period task => exact ⟨b, hinstall hb, rfl, rfl⟩
  | cancel kind => exact ⟨b, hcancel hb, rfl, rfl⟩
  | cancelAll => exact ⟨b, hcancel (hcancel (hcancel hb)), rfl, rfl⟩
  | claim kind claimed =>
    simp only [undergo, claim] at hb
    refine ⟨b, ?_, rfl, rfl⟩
    split at hb <;> exact hb
  | goOff a =>
    obtain ⟨c, hc, hid, -, hperiod⟩ := w.timetable.exists_of_mem_start a hb
    exact ⟨c, hc, hid, hperiod⟩
  | cease other => exact ⟨b, List.mem_of_mem_filter hb, rfl, rfl⟩
  | elapse | settle => exact ⟨b, hb, rfl, rfl⟩

/-- What is over does not come back, since its number is not given again. -/
theorem Idle.undergo (hw : w.Regular) (hid : id < w.timetable.nextId) (h : w.Idle id)
    (i : Incident α) : (w.undergo i).Idle id := by
  rintro b hb rfl
  obtain ⟨c, hc, hcb, -⟩ := exists_of_mem_undergo hw hb hid
  exact h c hc hcb

theorem idle_of_withdraws (h : w.Withdraws kind id i) : (w.undergo i).Idle id := by
  obtain ⟨hslot, hclears⟩ := h
  cases i with
  | arm k delay task =>
    obtain rfl : k = kind := hclears
    exact idle_cancel (w := { w with timetable := (w.timetable.once delay task).2 }) hslot
  | armRepeating k period task =>
    obtain rfl : k = kind := hclears
    exact idle_cancel (w := { w with timetable := (w.timetable.repeating period task).2 }) hslot
  | cancel k =>
    obtain rfl : k = kind := hclears
    exact idle_cancel hslot
  | cancelAll =>
    cases kind with
    | connectionAccept =>
      exact ((idle_cancel hslot).cancel .radioConnect).cancel .friendlyNameRetry
    | radioConnect =>
      refine (idle_cancel ?_).cancel .friendlyNameRetry
      simpa using hslot
    | friendlyNameRetry =>
      apply idle_cancel
      simpa using hslot
  | claim | goOff | cease | elapse | settle => exact hclears.elim

theorem idle_cease (w : Watchdogs α) (id : Nat) : (w.undergo (.cease id)).Idle id := by
  intro a ha
  simpa using (List.mem_filter.1 ha).2

theorem mem_cancel_of_slot_ne (ha : a ∈ w.timetable.alarms) (hkind : w.slot kind ≠ some a.id) :
    a ∈ (w.cancel kind).2.timetable.alarms := by
  refine mem_cancel ha ?_
  rintro id hid rfl
  exact hkind hid

theorem mem_install (hw : w.Regular) (ha : a ∈ w.timetable.alarms)
    (hkind : w.slot kind ≠ some a.id) (delay : Nat) (period : Option Nat) (task : α) :
    a ∈ (w.install kind (w.timetable.add delay period task)).2.timetable.alarms := by
  refine mem_cancel_of_slot_ne ?_ hkind
  rw [hw.add_alarms]
  exact List.mem_append_left _ ha

/-- A pending alarm stays as it is unless it goes off, is withdrawn or ceases. -/
theorem mem_undergo (hw : w.Regular) (ha : a ∈ w.timetable.alarms)
    (hwithdrawn : ∀ kind, ¬ w.Withdraws kind a.id i) (hceased : i ≠ .cease a.id)
    (hgoes : ∀ b, i = .goOff b → b.id ≠ a.id) : a ∈ (w.undergo i).timetable.alarms := by
  cases i with
  | arm kind delay task =>
    exact mem_install hw ha (fun h => hwithdrawn kind ⟨h, rfl⟩) delay none task
  | armRepeating kind period task =>
    exact mem_install hw ha (fun h => hwithdrawn kind ⟨h, rfl⟩) period (some period) task
  | cancel kind => exact mem_cancel_of_slot_ne ha fun h => hwithdrawn kind ⟨h, rfl⟩
  | cancelAll =>
    have hslot (kind : WatchdogKind) : w.slot kind ≠ some a.id :=
      fun h => hwithdrawn kind ⟨h, trivial⟩
    have hfirst := mem_cancel_of_slot_ne ha (hslot .connectionAccept)
    have hsecond := mem_cancel_of_slot_ne hfirst fun h => hslot .radioConnect (slot_of_cancel h)
    exact mem_cancel_of_slot_ne hsecond fun h =>
      hslot .friendlyNameRetry (slot_of_cancel (slot_of_cancel h))
  | claim kind claimed =>
    show a ∈ (w.claim kind claimed).2.timetable.alarms
    rw [claim]
    split <;> exact ha
  | goOff b => exact w.timetable.exists_mem_start b ha (Ne.symm (hgoes b rfl))
  | cease id =>
    refine List.mem_filter.2 ⟨ha, ?_⟩
    simp only [bne_iff_ne, ne_eq]
    rintro rfl
    exact hceased rfl
  | elapse | settle => exact ha

/-- An alarm that goes off for good is over. -/
theorem idle_goOff (hperiod : a.period = none ∨ a.period = some 0) :
    (w.undergo (.goOff a)).Idle a.id := by
  intro b hb
  simp only [undergo] at hb
  rw [Timetable.start] at hb
  split at hb
  case h_3 period hpositive hsome =>
    rcases hperiod with h | h <;> rw [hsome] at h <;> cases h
    exact (hpositive rfl).elim
  all_goals simpa using (List.mem_filter.1 hb).2

end Watchdogs

end CastReceiver.Timer
