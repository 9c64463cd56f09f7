import CastReceiver.Proofs.Disabled
import CastReceiver.Proofs.Service.Mirror
import CastReceiver.Proofs.Session.Deadline

/-!
# Shutdowns

A shutdown cancels every timer, stops discovery if it runs, and then forgets everything. The
controller may make requests while it stops discovery, and what they set up is not torn down again:
a watchdog that is set then stays set, and discovery that is started then goes on although the
machine has forgotten it. When the controller leaves neither behind, a shutdown is a complete reset.
-/
namespace CastReceiver

/-! ## The last word on discovery -/

namespace Account

variable {o : Occurrence} {a b : Account}

/-- Whether discovery was started or stopped last, if either. -/
def lastToggle? (a : Account) : Option Bool :=
  (a.log.filterMap Mark.toggle?).getLast?

theorem lastToggle?_note (a : Account) (mark : Mark) :
    (a.note mark).lastToggle? = mark.toggle?.or a.lastToggle? := by
  cases h : mark.toggle? <;> simp [lastToggle?, note, h]

@[simp] theorem lastToggle?_enter (a : Account) (target : Phase) :
    (a.enter target).lastToggle? = a.lastToggle? := by
  rw [lastToggle?, enter_log]
  split <;> simp [lastToggle?, Mark.toggle?]

/-- Discovery runs exactly if it was started last. -/
def Honest (a : Account) : Prop :=
  a.lastToggle? = some true ↔ a.gate.active = true

theorem Honest.enter (h : a.Honest) (target : Phase) : (a.enter target).Honest := by
  rwa [Honest, lastToggle?_enter, enter_gate]

/-- A mark that says nothing of discovery leaves the gate alone. -/
theorem Honest.note (h : a.Honest) {mark : Mark} (hmark : mark.toggle? = none) :
    (a.note mark).Honest := by
  rw [Honest, lastToggle?_note, hmark, Option.none_or]
  exact h

theorem honest_toggled {c : Command} {active : Bool} (hc : c.toggle? = some active)
    (ha : a.gate.active = active) : (a.note (.command c)).Honest := by
  rw [Honest, lastToggle?_note, show (Mark.command c).toggle? = some active from hc]
  simp [note, ha]

theorem Honest.deed (ha : a.Honest) (ho : o ≠ .call .shutdown) (h : Deed o a b) : b.Honest := by
  cases h with
  | enter => exact ha.enter _
  | directLaunch | abort => exact (ha.enter _).enter _
  | launch _ _ hmark => rcases hmark with rfl | rfl <;> exact (ha.enter _).note rfl
  | command hmay => exact ha.note (toggle?_eq_none_of_mayIssue hmay)
  | startDiscovery =>
    refine honest_toggled rfl ?_
    dsimp only
    split <;> simp
  | stopDiscovery =>
    refine honest_toggled rfl ?_
    dsimp only
    split <;> simp
  | switchOn => exact Honest.note (a := { a with gate := _ }) ha rfl
  | switchOff => exact ha
  | announceOff => exact ha.note rfl
  | leave ho' | forget ho' => exact absurd ho' ho

/-- Forgetting the gate is honest if discovery does not run. -/
theorem Honest.forget (ha : a.Honest) :
    ({ a with phase := .idle, id := none, gate := {} } : Account).Honest ↔
      a.gate.active = false := by
  show (a.lastToggle? = some true ↔ false = true) ↔ a.gate.active = false
  rw [iff_congr ha Iff.rfl]
  simp

/-- What has been stopped last does not run. -/
theorem Honest.ne_iff (ha : a.Honest) : a.lastToggle? ≠ some true ↔ a.gate.active = false := by
  rw [Ne, not_congr ha, Bool.not_eq_true]

end Account

/-! ## What a shutdown leaves behind -/

namespace Machine

/-- The machine at the moment at which a shutdown tells the controller to stop discovery. -/
def parting (m : Machine) : Machine :=
  { m.disarmAll with gate := { m.gate with active := false } }.emit (.command .stopDiscovery)

theorem shutdown_of_inactive {m : Machine} (h : m.gate.active = false) :
    m.shutdown = .done m.disarmAll.reset () := by
  have hgate : m.disarmAll.gate.deactivate? = none := if_neg (by rw [disarmAll, h]; decide)
  simp only [shutdown, hgate]

theorem shutdown_of_active {m : Machine} (h : m.gate.active = true) :
    m.shutdown = .issue m.parting .stopDiscovery fun m => .done m.reset () := by
  have hgate : m.disarmAll.gate.deactivate? = some { m.gate with active := false } := if_pos h
  simp only [shutdown, hgate]
  rfl

theorem armedKinds_disarmAll (m : Machine) : m.disarmAll.watchdogs.armedKinds = [] := by
  have hunarmed (kind : Timer.WatchdogKind) : m.disarmAll.watchdogs.isArmed kind = false := by
    simp only [disarmAll, Timer.Watchdogs.isArmed, Timer.Watchdogs.cancelAll_slot]
  simp [Timer.Watchdogs.armedKinds, hunarmed]

/-- After a reset only watchdogs tell a machine from a new one. -/
theorem snapshot_reset_eq_iff (m : Machine) (settings : SessionSettings)
    (nameSource : Option NameSource) :
    m.reset.snapshot = (World.fresh settings nameSource).machine.snapshot ↔
      m.watchdogs.armedKinds = [] := by
  have hfresh : (World.fresh settings nameSource).machine.watchdogs.armedKinds = [] := rfl
  simp only [snapshot, reset, Snapshot.mk.injEq, hfresh]
  simp [World.fresh]

end Machine

/-- All that follows on the stop of discovery in a shutdown is that everything is forgotten. The
flag tells the first stretch of work from the last one. -/
def parting : Regime (Machine × Bool) where
  view m := (m, false)
  opened _ m := (m, true)
  good _ := True
  allows o s c t := o = .call .shutdown → s.2 = false → c = none ∧ t.1 = s.1.reset

theorem parting_governs : parting.Governs where
  fresh _ _ := trivial
  kept _ _ := trivial
  keptOpened _ _ := trivial
  runs m o _ _ := by
    by_cases ho : o = .call .shutdown
    · subst ho
      refine Run.completes_returning.2 ?_
      cases hactive : m.gate.active with
      | false =>
        rw [Machine.shutdown_of_inactive hactive]
        exact fun _ h => absurd h.symm Bool.false_ne_true
      | true =>
        rw [Machine.shutdown_of_active hactive]
        exact ⟨fun _ h => absurd h.symm Bool.false_ne_true, fun m _ _ _ => ⟨rfl, rfl⟩⟩
    · exact Run.obeys_of_forall (fun _ _ _ h => absurd h ho) (fun _ _ _ h => absurd h ho) _ _

namespace World

variable {w : World} {os : List Occurrence} {t : Turn} {ts : List Turn}

/-- A shutdown returns at the end of a turn. -/
def ShutsDown (w : World) (os : List Occurrence) (t : Turn) : Prop :=
  (t.works os).head? = some (.call .shutdown) ∧ (w.turn t).1 = none

instance (w : World) (os : List Occurrence) : DecidablePred (w.ShutsDown os) :=
  fun _ => inferInstanceAs (Decidable (_ ∧ _))

/-- No shutdown forgets discovery that runs. -/
def StopsDiscovery (w : World) (os : List Occurrence) : List Turn → Prop
  | [] => True
  | t :: ts => (w.ShutsDown os t → w.machine.gate.active = false) ∧
      (w.turn t).2.StopsDiscovery (w.underway os t) ts

instance decidableStopsDiscovery :
    (w : World) → (os : List Occurrence) → DecidablePred (w.StopsDiscovery os)
  | _, _, [] => isTrue trivial
  | w, os, t :: ts =>
    have := decidableStopsDiscovery (w.turn t).2 (w.underway os t) ts
    inferInstanceAs (Decidable ((w.ShutsDown os t → w.machine.gate.active = false) ∧
      (w.turn t).2.StopsDiscovery (w.underway os t) ts))

/-- A shutdown that finds discovery stopped returns at once. -/
theorem turn_shutdown_of_inactive (h : w.machine.gate.active = false) :
    w.turn (.happen (.call .shutdown)) = (none, ⟨w.machine.disarmAll.reset, w.waiting⟩) := by
  show ((w.machine.shutdown.returning Reply.nothing).pause w.waiting) = _
  rw [Machine.shutdown_of_inactive h]
  rfl

theorem turn_shutdown_of_active (h : w.machine.gate.active = true) :
    (w.turn (.happen (.call .shutdown))).1 = some .stopDiscovery ∧
      (w.turn (.happen (.call .shutdown))).2.machine = w.machine.parting := by
  show ((w.machine.shutdown.returning Reply.nothing).pause w.waiting).1 = _ ∧
    ((w.machine.shutdown.returning Reply.nothing).pause w.waiting).2.machine = _
  rw [Machine.shutdown_of_active h]
  exact ⟨rfl, rfl⟩

/-- In the turn in which a shutdown returns everything is forgotten. Every timer has just been
cancelled, or else the turn starts where the controller has stopped discovery. -/
theorem ShutsDown.machine_eq (hw : parting.Attended w os) (ht : w.Possible t)
    (h : w.ShutsDown os t) :
    t = .happen (.call .shutdown) ∧ w.machine.gate.active = false ∧
        (w.turn t).2.machine = w.machine.disarmAll.reset ∨
      t = .resume ∧ (w.turn t).2.machine = w.machine.reset := by
  obtain ⟨hhead, hover⟩ := h
  cases t with
  | happen o =>
    obtain rfl : o = .call .shutdown := Option.some.inj hhead
    cases hactive : w.machine.gate.active with
    | false => exact .inl ⟨rfl, rfl, by rw [turn_shutdown_of_inactive hactive]⟩
    | true =>
      rw [(turn_shutdown_of_active hactive).1] at hover
      cases hover
  | resume =>
    obtain ⟨-, o, others, hworks, hallows⟩ := Regime.turn_attended parting_governs hw ht
    rw [hworks] at hhead
    exact .inr ⟨rfl, (hallows (Option.some.inj hhead) rfl).2⟩

/-- Only a shutdown that forgets discovery that runs makes an account dishonest. -/
theorem honest_turn (hw : w.Observed os) (hparting : parting.Attended w os) (ht : w.Possible t)
    (hstops : w.ShutsDown os t → w.machine.gate.active = false)
    (hhonest : w.machine.account.Honest) : (w.turn t).2.machine.account.Honest := by
  obtain ⟨o, others, hworks, hdeeds⟩ := hw.deeds ht
  by_cases ho : o = .call .shutdown
  · subst ho
    by_cases hover : (w.turn t).1 = none
    · have hends : w.ShutsDown os t := ⟨by rw [hworks]; rfl, hover⟩
      have hforgotten := hhonest.forget.2 (hstops hends)
      rcases hends.machine_eq hparting ht with ⟨-, -, hsame⟩ | ⟨-, hsame⟩
      · rw [hsame]
        exact hforgotten
      · rw [hsame]
        exact hforgotten
    · -- The shutdown has told the controller to stop discovery.
      cases t with
      | resume =>
        obtain ⟨-, o, others', hworks', hallows⟩ :=
          Regime.turn_attended parting_governs hparting ht
        obtain ⟨rfl, -⟩ := List.cons.inj (hworks.symm.trans hworks')
        exact absurd (hallows rfl rfl).1 hover
      | happen o =>
        obtain rfl : o = .call .shutdown := (List.cons.inj hworks).1
        cases hactive : w.machine.gate.active with
        | false => exact absurd (congrArg Prod.fst (turn_shutdown_of_inactive hactive)) hover
        | true =>
          rw [(turn_shutdown_of_active hactive).2, Machine.parting, Machine.account_command]
          exact Account.honest_toggled rfl rfl
  · exact hdeeds.keeps (fun _ _ ha hd => ha.deed ho hd) hhonest

theorem honest_turns (hw : w.Observed os) (hparting : parting.Attended w os)
    (hts : w.AllPossible ts) (hstops : w.StopsDiscovery os ts)
    (hhonest : w.machine.account.Honest) : (w.turns ts).machine.account.Honest := by
  induction ts generalizing w os with
  | nil => exact hhonest
  | cons t ts ih =>
    exact ih (hw.turn hts.1) (Regime.turn_attended parting_governs hparting hts.1).1 hts.2
      hstops.2 (honest_turn hw hparting hts.1 hstops.1 hhonest)

theorem parting_attended_turns (hw : parting.Attended w os) (hts : w.AllPossible ts) :
    parting.Attended (w.turns ts) (w.underways os ts) := by
  induction ts generalizing w os with
  | nil => exact hw
  | cons t ts ih => exact ih (Regime.turn_attended parting_governs hw hts.1).1 hts.2

/-- A shutdown during which nobody interferes leaves a new machine behind. -/
theorem snapshot_undergo_shutdown (m : Machine) (settings : SessionSettings)
    (nameSource : Option NameSource) :
    (m.undergo (.call .shutdown)).snapshot =
      (World.fresh settings nameSource).machine.snapshot := by
  show (m.shutdown.returning Reply.nothing).quietly.1.snapshot = _
  rw [Run.quietly_returning]
  cases hactive : m.gate.active with
  | false =>
    rw [Machine.shutdown_of_inactive hactive]
    exact (Machine.snapshot_reset_eq_iff ..).2 m.armedKinds_disarmAll
  | true =>
    rw [Machine.shutdown_of_active hactive]
    exact (Machine.snapshot_reset_eq_iff m.parting ..).2 m.armedKinds_disarmAll

theorem lastToggle?_undergo_shutdown {m : Machine} (hm : m.account.Honest) :
    (m.undergo (.call .shutdown)).account.lastToggle? ≠ some true := by
  show (m.shutdown.returning Reply.nothing).quietly.1.account.lastToggle? ≠ some true
  rw [Run.quietly_returning]
  cases hactive : m.gate.active with
  | false =>
    rw [Machine.shutdown_of_inactive hactive]
    exact hm.ne_iff.2 hactive
  | true =>
    rw [Machine.shutdown_of_active hactive]
    show m.parting.account.lastToggle? ≠ some true
    rw [Machine.parting, Machine.account_command, Account.lastToggle?_note]
    exact fun h => absurd (Option.some.inj h) Bool.false_ne_true

/-- After any turns, a shutdown during which nobody interferes is a complete reset. When the
controller makes requests meanwhile, it is one if and only if no watchdog is set when the controller
has stopped discovery; and discovery, unless a shutdown has forgotten it before, has been stopped
last if and only if it does not run by then. -/
theorem shutdown_resets_iff (settings : SessionSettings) (nameSource : Option NameSource)
    (hts : (fresh settings nameSource).AllPossible ts) :
    let w := (fresh settings nameSource).turns ts
    let os := (fresh settings nameSource).underways [] ts
    let new := (fresh settings nameSource).machine.snapshot
    ((w.machine.undergo (.call .shutdown)).snapshot = new ∧
      ((fresh settings nameSource).StopsDiscovery [] ts →
        (w.machine.undergo (.call .shutdown)).account.lastToggle? ≠ some true)) ∧
    (w.Possible t → w.ShutsDown os t →
      ((w.turn t).2.machine.snapshot = new ↔
        t = .happen (.call .shutdown) ∨ w.machine.watchdogs.armedKinds = []) ∧
      ((fresh settings nameSource).StopsDiscovery [] ts →
        ((w.turn t).2.machine.account.lastToggle? ≠ some true ↔
          w.machine.gate.active = false))) := by
  intro w os new
  have hparting : parting.Attended w os :=
    parting_attended_turns (Regime.attended_fresh parting_governs settings nameSource) hts
  have hhonest (hstops : (fresh settings nameSource).StopsDiscovery [] ts) :
      w.machine.account.Honest :=
    honest_turns (observed_fresh settings nameSource)
      (Regime.attended_fresh parting_governs settings nameSource) hts hstops
      (show none = some true ↔ false = true by decide)
  refine ⟨⟨snapshot_undergo_shutdown _ _ _, fun hstops => lastToggle?_undergo_shutdown
    (hhonest hstops)⟩, fun ht hends => ⟨?_, fun hstops => ?_⟩⟩
  · rcases hends.machine_eq hparting ht with ⟨rfl, -, hsame⟩ | ⟨rfl, hsame⟩
    · rw [hsame, Machine.snapshot_reset_eq_iff]
      exact iff_of_true w.machine.armedKinds_disarmAll (.inl rfl)
    · rw [hsame, Machine.snapshot_reset_eq_iff]
      simp
  · have hkept : (w.turn t).2.machine.account.lastToggle? = w.machine.account.lastToggle? := by
      rcases hends.machine_eq hparting ht with ⟨-, -, hsame⟩ | ⟨-, hsame⟩ <;> rw [hsame] <;> rfl
    rw [hkept]
    exact (hhonest hstops).ne_iff

/-- Discovery runs, and the name of the device is looked up again and again. -/
def advertising : List Turn :=
  [.happen (.call .start), .happen (.call (.setEnabled true)), .resume]

/-- While a shutdown stops discovery, the controller only reports that it has not got anywhere, and
asks which phase the session is in. -/
def harmlessShutdown : List Turn :=
  [.happen (.call .shutdown), .happen (.call (.report .discoveryRestarted)), .happen (.call .phase)]

/-- A shutdown with a timer set and with requests that set up nothing is a complete reset. -/
theorem resets_of_harmless_requests :
    let nobody : Option NameSource := some fun _ => none
    let w := (fresh {} nobody).turns (advertising ++ harmlessShutdown)
    ((fresh {} nobody).turns advertising).machine.watchdogs.armedKinds = [.friendlyNameRetry] ∧
      (w.turn .resume).2.machine.snapshot = (fresh {} nobody).machine.snapshot ∧
      (w.turn .resume).2.machine.account.lastToggle? ≠ some true := by
  intro nobody w
  have hts : (fresh {} nobody).AllPossible (advertising ++ harmlessShutdown) := by decide +kernel
  have hresets := (shutdown_resets_iff (t := .resume) {} nobody hts).2 (by decide +kernel)
    (by decide +kernel)
  exact ⟨by decide +kernel, hresets.1.2 (.inr (by decide +kernel)),
    (hresets.2 (by decide +kernel)).2 (by decide +kernel)⟩

/-- While a shutdown stops discovery, an attempt to connect to a network begins: its watchdog stays
set. Or the service is disabled and enabled again: discovery goes on after the shutdown. -/
theorem not_reset_by_shutdown :
    let w (ts : List Turn) := (fresh {} none).turns ts
    let os (ts : List Turn) := (fresh {} none).underways [] ts
    (¬∀ ts t, (fresh {} none).AllPossible ts → (w ts).Possible t → (w ts).ShutsDown (os ts) t →
      ((w ts).turn t).2.machine.snapshot = (fresh {} none).machine.snapshot) ∧
    ¬∀ ts t, (fresh {} none).AllPossible ts → (w ts).Possible t → (w ts).ShutsDown (os ts) t →
      ((w ts).turn t).2.machine.account.lastToggle? ≠ some true := by
  let call (c : Call) : Turn := .happen (.call c)
  let stopping : List Turn := advertising ++ [call .shutdown]
  intro w os
  constructor
  · intro h
    have hnew := h (stopping ++ [call (.report (.wifiStateChanged .connecting))]) .resume
      (by decide +kernel) (by decide +kernel) (by decide +kernel)
    exact absurd hnew (by decide +kernel)
  · intro h
    have hstopped := h (stopping ++ [call (.setEnabled false), call (.setEnabled true), .resume])
      .resume (by decide +kernel) (by decide +kernel) (by decide +kernel)
    exact absurd hstopped (by decide +kernel)

end World

end CastReceiver
