import CastReceiver.Proofs.Timer.Incidents
import CastReceiver.Timer.Drill

/-!
# Watchdogs driven by a clockwork

A clockwork lets alarms go off as they are due and moves its clock on. As long as the tasks of
alarms only let their own watchdog claim a slot or cease, all that comes of it is possible for
watchdogs, and nothing is due any more when the clock stands again (`Drives.advance_becomes`). So
time can always go on (`exists_advance`), and what holds of watchdogs after every possible run holds
of those in a drill (`Drill.obeys_becomes`).
-/
namespace CastReceiver.Timer

namespace Incident

variable {α : Type}

/-- An alarm goes off, or the clock is moved on. -/
def IsTimely : Incident α → Prop
  | goOff _ | elapse _ | settle => True
  | _ => False

/-- A task lets its own watchdog claim a slot or cease. -/
def IsOwn (id : Nat) (i : Incident α) : Prop :=
  (∃ kind, i = claim kind id) ∨ i = cease id

end Incident

namespace Watchdogs

variable {α : Type} {P : Incident α → Prop} {w w' w'' : Watchdogs α} {i : Incident α}
  {is : List (Incident α)} {a b : Alarm α} {id : Nat}

/-- Incidents of one sort, which are possible one after another, lead to these watchdogs. -/
def Becomes (P : Incident α → Prop) (w w' : Watchdogs α) : Prop :=
  ∃ is, (∀ i ∈ is, P i) ∧ w.AllPossible is ∧ w' = w.undergoes is

theorem becomes_refl (w : Watchdogs α) : w.Becomes P w :=
  ⟨[], List.forall_mem_nil _, trivial, rfl⟩

theorem becomes_undergo (hi : P i) (hpossible : w.Possible i) : w.Becomes P (w.undergo i) :=
  ⟨[i], List.forall_mem_singleton.2 hi, ⟨hpossible, trivial⟩, rfl⟩

theorem Becomes.trans (h : w.Becomes P w') (h' : w'.Becomes P w'') : w.Becomes P w'' := by
  obtain ⟨is, hsort, hpossible, rfl⟩ := h
  obtain ⟨is', hsort', hpossible', rfl⟩ := h'
  refine ⟨is ++ is', fun i hi => ?_, allPossible_append.2 ⟨hpossible, hpossible'⟩, ?_⟩
  · rcases List.mem_append.1 hi with hi | hi
    · exact hsort i hi
    · exact hsort' i hi
  · rw [undergoes_append]

theorem Becomes.regular (h : w.Becomes P w') (hw : w.Regular) : w'.Regular := by
  obtain ⟨is, -, hpossible, rfl⟩ := h
  exact hw.undergoes hpossible

/-- The alarm that goes off is not due any more, and the others are left alone. -/
theorem mem_due_goOff (hw : w.Regular) (hb : b ∈ w.timetable.due) :
    a ∈ (w.undergo (.goOff b)).timetable.due ↔ a ∈ w.timetable.due ∧ a.id ≠ b.id := by
  obtain ⟨hmem, hdue⟩ := List.mem_filter.1 hb
  have hlate : b.due ≤ w.timetable.now := of_decide_eq_true hdue
  have hpunctual := hw.punctual b hmem
  show a ∈ (w.timetable.start b).due ↔ _
  simp only [Timetable.due, List.mem_filter, Timetable.start_now, decide_eq_true_eq]
  constructor
  · rintro ⟨ha, hnow⟩
    rw [Timetable.start] at ha
    split at ha
    case h_3 period hpositive _ =>
      obtain ⟨c, hc, rfl⟩ := List.mem_map.1 ha
      have hperiod : 0 < period := Nat.pos_of_ne_zero hpositive
      by_cases hid : c.id = b.id
      · -- No alarm is overdue, so one period later this one is not due yet.
        obtain rfl := hw.eq_of_id_eq hc hmem hid
        rw [if_pos rfl] at hnow
        dsimp only at hnow
        omega
      · rw [if_neg hid] at hnow ⊢
        exact ⟨⟨hc, hnow⟩, hid⟩
    all_goals
      obtain ⟨ha, hid⟩ := List.mem_filter.1 ha
      exact ⟨⟨ha, hnow⟩, by simpa using hid⟩
  · rintro ⟨⟨ha, hnow⟩, hid⟩
    exact ⟨w.timetable.exists_mem_start b ha hid, hnow⟩

/-! ## What tasks do -/

/-- The clock and the alarms with other numbers are left alone. -/
structure AffectsOnly (w : Watchdogs α) (id : Nat) (w' : Watchdogs α) : Prop where
  now : w'.timetable.now = w.timetable.now
  subset : ∀ a ∈ w'.timetable.alarms, a ∈ w.timetable.alarms
  others : ∀ a ∈ w.timetable.alarms, a.id ≠ id → a ∈ w'.timetable.alarms

theorem AffectsOnly.trans (h : w.AffectsOnly id w') (h' : w'.AffectsOnly id w'') :
    w.AffectsOnly id w'' where
  now := h'.now.trans h.now
  subset a ha := h.subset a (h'.subset a ha)
  others a ha hid := h'.others a (h.others a ha hid) hid

theorem affectsOnly_undergo (hown : i.IsOwn id) : w.AffectsOnly id (w.undergo i) := by
  rcases hown with ⟨kind, rfl⟩ | rfl
  · show w.AffectsOnly id (w.claim kind id).2
    rw [claim]
    split <;> exact ⟨rfl, fun _ h => h, fun _ h _ => h⟩
  · refine ⟨rfl, fun a ha => List.mem_of_mem_filter ha, fun a ha hid => ?_⟩
    exact List.mem_filter.2 ⟨ha, by simpa using hid⟩

theorem affectsOnly_undergoes (hown : ∀ i ∈ is, i.IsOwn id)
    (hrepeats : ∀ a ∈ w.timetable.alarms, a.id = id → a.period ≠ none) :
    w.AllPossible is ∧ w.AffectsOnly id (w.undergoes is) := by
  induction is generalizing w with
  | nil => exact ⟨trivial, rfl, fun _ h => h, fun _ h _ => h⟩
  | cons i is ih =>
    obtain ⟨hi, hown⟩ := List.forall_mem_cons.1 hown
    have honly : w.AffectsOnly id (w.undergo i) := affectsOnly_undergo hi
    obtain ⟨hpossible, hrest⟩ := ih hown fun a ha => hrepeats a (honly.subset a ha)
    refine ⟨⟨?_, hpossible⟩, honly.trans hrest⟩
    rcases hi with ⟨kind, rfl⟩ | rfl
    · exact trivial
    · exact hrepeats

/-- An alarm that does not repeat is not pending any more when its task is carried out. -/
theorem repeats_goOff (hw : w.Regular) (hb : b ∈ w.timetable.alarms) :
    ∀ a ∈ (w.undergo (.goOff b)).timetable.alarms, a.id = b.id → a.period ≠ none := by
  intro a ha hid hperiod
  obtain ⟨c, hc, hca, -, hcperiod⟩ := w.timetable.exists_of_mem_start b ha
  obtain rfl := hw.eq_of_id_eq hc hb (hca.trans hid)
  exact idle_goOff (.inl (hcperiod.trans hperiod)) a ha hid

theorem lt_due (h : w.timetable.due = []) (ha : a ∈ w.timetable.alarms) :
    w.timetable.now < a.due := by
  have hlate := List.filter_eq_nil_iff.1 h a ha
  rwa [decide_eq_true_eq, Nat.not_le] at hlate

end Watchdogs

/-! ## Clockworks -/

namespace Clockwork

variable {σ α : Type} {c : Clockwork σ α} {view : σ → Watchdogs α} {P : Incident α → Prop} {s : σ}
  {b : Alarm α} {bs : List (Alarm α)} {now target : Nat}

/-- The timetable of the clockwork is that of the watchdogs in its state, and tasks do nothing to
watchdogs but incidents of one sort. -/
structure Drives (c : Clockwork σ α) (view : σ → Watchdogs α) (P : Incident α → Prop) : Prop where
  timetable : ∀ s, c.timetable s = (view s).timetable
  withTimetable : ∀ s t, view (c.withTimetable s t) = { view s with timetable := t }
  timely : ∀ i, i.IsTimely → P i
  goOff : ∀ a s, ∃ is, (∀ i ∈ is, P i ∧ i.IsOwn a.id) ∧
    view (c.goOff a s) = (view s).undergoes is

namespace Drives

/-- Only what was due and is not the alarm that has gone off is still due. -/
theorem strike_becomes (hc : c.Drives view P) (hs : (view s).Regular)
    (hb : b ∈ (view s).timetable.due) :
    (view s).Becomes P (view (c.strike s b)) ∧
      (view (c.strike s b)).timetable.now = (view s).timetable.now ∧
      ∀ a, a ∈ (view (c.strike s b)).timetable.due ↔
        a ∈ (view s).timetable.due ∧ a.id ≠ b.id := by
  have hmem := List.mem_of_mem_filter hb
  have hpending : (c.timetable s).isPending b.id = true := by
    rw [hc.timetable]
    exact List.any_eq_true.2 ⟨b, hmem, by simp⟩
  let begun := c.withTimetable s ((c.timetable s).start b)
  have hview : view begun = (view s).undergo (.goOff b) := by
    rw [hc.withTimetable, hc.timetable]
    rfl
  have hbegun : (view s).Becomes P ((view s).undergo (.goOff b)) :=
    Watchdogs.becomes_undergo (hc.timely _ trivial) hb
  have hnow : ((view s).undergo (.goOff b)).timetable.now = (view s).timetable.now :=
    (view s).timetable.start_now b
  have hdue (a : Alarm α) := Watchdogs.mem_due_goOff (a := a) hs hb
  have hstrike : c.strike s b = if b.isVoid then begun else c.goOff b begun := if_pos hpending
  rw [hstrike]
  split
  · rw [hview]
    exact ⟨hbegun, hnow, hdue⟩
  · obtain ⟨is, hown, hresult⟩ := hc.goOff b begun
    rw [hview] at hresult
    obtain ⟨hpossible, honly⟩ :=
      Watchdogs.affectsOnly_undergoes (fun i hi => (hown i hi).2) (Watchdogs.repeats_goOff hs hmem)
    rw [hresult]
    refine ⟨hbegun.trans ⟨is, fun i hi => (hown i hi).1, hpossible, rfl⟩, honly.now.trans hnow,
      fun a => ?_⟩
    rw [← hdue, Timetable.due, Timetable.due, List.mem_filter, List.mem_filter, honly.now]
    constructor
    · rintro ⟨ha, hlate⟩
      exact ⟨honly.subset a ha, hlate⟩
    · rintro ⟨ha, hlate⟩
      have hid : a.id ≠ b.id := ((hdue a).1 (List.mem_filter.2 ⟨ha, hlate⟩)).2
      exact ⟨honly.others a ha hid, hlate⟩

theorem strikes_become (hc : c.Drives view P) (hs : (view s).Regular)
    (hbs : ∀ b ∈ bs, b ∈ (view s).timetable.due) (hids : (bs.map Alarm.id).Nodup) :
    (view s).Becomes P (view (bs.foldl c.strike s)) ∧
      (view (bs.foldl c.strike s)).timetable.now = (view s).timetable.now ∧
      ∀ a, a ∈ (view (bs.foldl c.strike s)).timetable.due ↔
        a ∈ (view s).timetable.due ∧ a.id ∉ bs.map Alarm.id := by
  induction bs generalizing s with
  | nil => exact ⟨(view s).becomes_refl, rfl, fun a => by simp⟩
  | cons b bs ih =>
    obtain ⟨hb, hbs⟩ := List.forall_mem_cons.1 hbs
    obtain ⟨hid, hids⟩ := List.nodup_cons.1 hids
    obtain ⟨hstrike, hnow, hdue⟩ := hc.strike_becomes hs hb
    have hrest : ∀ c' ∈ bs, c' ∈ (view (c.strike s b)).timetable.due := by
      intro c' hc'
      refine (hdue c').2 ⟨hbs c' hc', fun h => hid ?_⟩
      rw [← h]
      exact List.mem_map_of_mem hc'
    obtain ⟨hstrikes, hnow', hdue'⟩ := ih (hstrike.regular hs) hrest hids
    refine ⟨hstrike.trans hstrikes, hnow'.trans hnow, fun a => ?_⟩
    rw [List.foldl_cons, hdue', hdue, List.map_cons, List.mem_cons, not_or, and_assoc]

theorem round_becomes (hc : c.Drives view P) (hs : (view s).Regular) :
    (view s).Becomes P (view (c.round s)) ∧
      (view (c.round s)).timetable.now = (view s).timetable.now ∧
      (view (c.round s)).timetable.due = [] := by
  have hids : ((view s).timetable.due.map Alarm.id).Nodup :=
    hs.distinct.sublist (List.filter_sublist.map _)
  obtain ⟨hround, hnow, hdue⟩ := hc.strikes_become hs (fun _ h => h) hids
  rw [Clockwork.round, hc.timetable]
  refine ⟨hround, hnow, List.eq_nil_iff_forall_not_mem.2 fun a ha => ?_⟩
  obtain ⟨hmem, hid⟩ := (hdue a).1 ha
  exact hid (List.mem_map_of_mem hmem)

/-- One round is enough, since no task sets an alarm. -/
theorem rounds_eq (hc : c.Drives view P) (hs : (view s).Regular) (n : Nat) :
    c.rounds (n + 1) s = c.round s := by
  have hquiet : (c.timetable (c.round s)).due = [] := by
    rw [hc.timetable]
    exact (hc.round_becomes hs).2.2
  rw [rounds]
  split
  case isTrue h =>
    rw [Clockwork.round, List.isEmpty_iff.1 h]
    rfl
  case isFalse =>
    cases n with
    | zero => rfl
    | succ n => rw [rounds, hquiet, List.isEmpty_nil, if_pos rfl]

theorem settle_becomes (hc : c.Drives view P) (hs : (view s).Regular) :
    (view s).Becomes P (view (c.settle s)) ∧
      (view (c.settle s)).timetable.now = (view s).timetable.now ∧
      (view (c.settle s)).timetable.due = [] := by
  have hview : view (c.settle s) = (view (c.round s)).undergo .settle := by
    rw [Clockwork.settle, hc.rounds_eq hs, hc.withTimetable, hc.timetable]
    rfl
  obtain ⟨hround, hnow, hdue⟩ := hc.round_becomes hs
  rw [hview]
  exact ⟨hround.trans (Watchdogs.becomes_undergo (hc.timely _ trivial) trivial), hnow, hdue⟩

theorem setClock_becomes (hc : c.Drives view P) (hnow : (view s).timetable.now ≤ target)
    (htarget : ∀ a ∈ (view s).timetable.alarms, target ≤ a.due) :
    (view s).Becomes P (view (c.setClock s target)) ∧
      (view (c.setClock s target)).timetable.now = target := by
  have hsum : (view s).timetable.now + (target - (view s).timetable.now) = target :=
    Nat.add_sub_cancel' hnow
  have hview : view (c.setClock s target) =
      (view s).undergo (.elapse (target - (view s).timetable.now)) := by
    rw [setClock, hc.withTimetable, hc.timetable, Watchdogs.undergo, hsum]
  rw [hview]
  refine ⟨Watchdogs.becomes_undergo (hc.timely _ trivial) fun a ha => ?_, hsum⟩
  rw [hsum]
  exact htarget a ha

theorem moveClock_becomes (hc : c.Drives view P) (hs : (view s).Regular)
    (hnow : (view s).timetable.now = now) (hle : now ≤ target) :
    (view s).Becomes P (view (c.moveClock now target s)) ∧
      (view (c.moveClock now target s)).timetable.now = target ∧
      (view (c.moveClock now target s)).timetable.due = [] := by
  have hend {s : σ} (hs : (view s).Regular) (hnow : (view s).timetable.now ≤ target)
      (hlast : ∀ a ∈ (view (c.settle s)).timetable.alarms, target ≤ a.due) :
      (view s).Becomes P (view (c.settle (c.setClock (c.settle s) target))) ∧
        (view (c.settle (c.setClock (c.settle s) target))).timetable.now = target ∧
        (view (c.settle (c.setClock (c.settle s) target))).timetable.due = [] := by
    obtain ⟨hsettle, hsettled, -⟩ := hc.settle_becomes hs
    rw [← hsettled] at hnow
    obtain ⟨hclock, htarget⟩ := hc.setClock_becomes hnow hlast
    have hbefore := hsettle.trans hclock
    obtain ⟨hagain, hstands, hdue⟩ := hc.settle_becomes (hbefore.regular hs)
    exact ⟨hbefore.trans hagain, hstands.trans htarget, hdue⟩
  induction now, s using moveClock.induct c target with
  | case1 now s settled due hnext hbound ih =>
    rw [moveClock, hnext]
    dsimp only
    rw [if_pos hbound]
    rw [hc.timetable] at hnext
    have hmin := List.min?_eq_some_iff.1 hnext
    obtain ⟨hsettle, hsettled, -⟩ := hc.settle_becomes hs
    have hearlier : (view (c.settle s)).timetable.now ≤ due := by
      rw [hsettled, hnow]
      exact Nat.le_of_lt hbound.1
    obtain ⟨hclock, hstands⟩ :=
      hc.setClock_becomes hearlier fun a ha => hmin.2 _ (List.mem_map_of_mem ha)
    have hbefore := hsettle.trans hclock
    obtain ⟨hmove, hquiet⟩ := ih (hbefore.regular hs) hstands hbound.2
    exact ⟨hbefore.trans hmove, hquiet⟩
  | case2 now s settled due hnext hbound =>
    rw [moveClock, hnext]
    dsimp only
    rw [if_neg hbound]
    rw [hc.timetable] at hnext
    have hmin := List.min?_eq_some_iff.1 hnext
    obtain ⟨-, hsettled, hquiet⟩ := hc.settle_becomes hs
    -- What is pending now is due later than now, so it is the target that comes first.
    have hlater : now < due := by
      obtain ⟨a, ha, hdue⟩ := List.mem_map.1 hmin.1
      rw [← hnow, ← hsettled, ← hdue]
      exact Watchdogs.lt_due hquiet ha
    refine hend hs (by rwa [hnow]) fun a ha => ?_
    have hfirst := hmin.2 _ (List.mem_map_of_mem ha)
    omega
  | case3 now s settled hnext =>
    rw [moveClock, hnext]
    rw [hc.timetable] at hnext
    have hnone := List.map_eq_nil_iff.1 (List.min?_eq_none_iff.1 hnext)
    refine hend hs (by rwa [hnow]) fun a ha => ?_
    rw [show (view (c.settle s)).timetable.alarms = [] from hnone] at ha
    cases ha

theorem advance_becomes (hc : c.Drives view P) (hs : (view s).Regular) (ms : Nat) :
    (view s).Becomes P (view (c.advance ms s)) ∧
      (view (c.advance ms s)).timetable.now = (view s).timetable.now + ms ∧
      (view (c.advance ms s)).timetable.due = [] := by
  rw [Clockwork.advance, hc.timetable]
  exact hc.moveClock_becomes hs rfl (Nat.le_add_right _ _)

end Drives

end Clockwork

/-! ## Tasks that do nothing -/

namespace Watchdogs

variable {α : Type} {w : Watchdogs α}

/-- Watchdogs whose alarms go off without consequences. -/
def clockwork : Clockwork (Watchdogs α) α where
  timetable := timetable
  withTimetable w t := { w with timetable := t }
  goOff _ w := w
  echoes _ := 0

theorem clockwork_drives : (clockwork (α := α)).Drives id Incident.IsTimely where
  timetable _ := rfl
  withTimetable _ _ := rfl
  timely _ h := h
  goOff _ _ := ⟨[], List.forall_mem_nil _, rfl⟩

/-- Time can always go on, once the alarms have gone off that are due on the way. -/
theorem exists_advance (hw : w.Regular) (ms : Nat) :
    ∃ is, (∀ i ∈ is, i.IsTimely) ∧ w.AllPossible is ∧
      (w.undergoes is).timetable.now = w.timetable.now + ms ∧
      (w.undergoes is).timetable.due = [] := by
  obtain ⟨⟨is, htimely, hpossible, hresult⟩, hquiet⟩ := clockwork_drives.advance_becomes hw ms
  have hadvance : clockwork.advance ms w = w.undergoes is := hresult
  refine ⟨is, htimely, hpossible, ?_⟩
  rw [← hadvance]
  exact hquiet

end Watchdogs

/-! ## Drills -/

namespace Drill

variable {d : Drill}

theorem clockwork_drives : clockwork.Drives watchdogs fun _ => True where
  timetable _ := rfl
  withTimetable _ _ := rfl
  timely _ _ := trivial
  goOff a d := by
    show ∃ is, _ ∧ (goOff a d).watchdogs = _
    rw [goOff]
    cases a.task with
    | once => exact ⟨[], List.forall_mem_nil _, rfl⟩
    | repeating limit =>
      dsimp only
      split
      · exact ⟨[.cease a.id], List.forall_mem_singleton.2 ⟨trivial, .inr rfl⟩, rfl⟩
      · exact ⟨[], List.forall_mem_nil _, rfl⟩
    | watch kind claims =>
      cases claims with
      | true =>
        exact ⟨[.claim kind a.id], List.forall_mem_singleton.2 ⟨trivial, .inl ⟨kind, rfl⟩⟩, rfl⟩
      | false => exact ⟨[], List.forall_mem_nil _, rfl⟩
    | watchRepeating kind limit =>
      dsimp only
      split
      · split
        · refine ⟨[.claim kind a.id, .cease a.id], List.forall_mem_cons.2 ⟨?_, ?_⟩, rfl⟩
          · exact ⟨trivial, .inl ⟨kind, rfl⟩⟩
          · exact List.forall_mem_singleton.2 ⟨trivial, .inr rfl⟩
        · exact ⟨[], List.forall_mem_nil _, rfl⟩
      · exact ⟨[.cease a.id], List.forall_mem_singleton.2 ⟨trivial, .inr rfl⟩, rfl⟩

/-- What can be asked of the watchdogs in a drill. -/
inductive Order where
  | arm (kind : WatchdogKind) (delay : Nat) (claims : Bool)
  | armRepeating (kind : WatchdogKind) (period : Nat) (limit : Option Nat)
  | cancel (kind : WatchdogKind)
  | cancelAll
  | claim (kind : WatchdogKind) (id : Nat)
  | settle
  | advance (ms : Nat)

def obey (d : Drill) : Order → Drill
  | .arm kind delay claims => d.arm kind delay claims
  | .armRepeating kind period limit => d.armRepeating kind period limit
  | .cancel kind => (d.cancel kind).2
  | .cancelAll => d.cancelAll
  | .claim kind id => (d.claim kind id).2
  | .settle => d.settle
  | .advance ms => d.advance ms

theorem obey_becomes (hd : d.watchdogs.Regular) (o : Order) :
    d.watchdogs.Becomes (fun _ => True) (d.obey o).watchdogs := by
  cases o with
  | arm kind delay claims =>
    exact Watchdogs.becomes_undergo (i := .arm kind delay (Reaction.watch kind claims))
      trivial trivial
  | armRepeating kind period limit =>
    exact Watchdogs.becomes_undergo
      (i := .armRepeating kind period (Reaction.watchRepeating kind limit)) trivial trivial
  | cancel kind => exact Watchdogs.becomes_undergo (i := .cancel kind) trivial trivial
  | cancelAll => exact Watchdogs.becomes_undergo (i := .cancelAll) trivial trivial
  | claim kind id => exact Watchdogs.becomes_undergo (i := .claim kind id) trivial trivial
  | settle => exact (clockwork_drives.settle_becomes hd).1
  | advance ms => exact (clockwork_drives.advance_becomes hd ms).1

theorem obeys_becomes (hd : d.watchdogs.Regular) (os : List Order) :
    d.watchdogs.Becomes (fun _ => True) (os.foldl obey d).watchdogs := by
  induction os generalizing d with
  | nil => exact d.watchdogs.becomes_refl
  | cons o os ih =>
    have hfirst := obey_becomes hd o
    exact hfirst.trans (ih (hfirst.regular hd))

end Drill

end CastReceiver.Timer
