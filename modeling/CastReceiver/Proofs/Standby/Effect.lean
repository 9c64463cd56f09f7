import CastReceiver.Machine.Snapshot
import CastReceiver.Proofs.Discovery.Operations
import CastReceiver.Proofs.Nesting
import CastReceiver.Proofs.Standby.Operations
import Mathlib.Data.List.Forall2

/-!
# When network standby takes effect

A change of network standby is meant to count from the next change of the power mode on. It does so
in every mode but one: in light sleep, whether discovery is forbidden depends on network standby
itself, and is found out anew each time. There a change counts at once
(`standby_goes_unnoticed_iff`).
-/
namespace CastReceiver

/-! ## Worlds that cannot be told apart -/

/-- Two runs that wait go on alike. -/
def Run.WaitAlike (next next' : Machine → Run Reply) : Prop :=
  ∀ m m', m.Alike m' → (next m).Alike (next' m')

structure World.Alike (w w' : World) : Prop where
  machine : w.machine.Alike w'.machine
  waiting : List.Forall₂ Run.WaitAlike w.waiting w'.waiting

namespace Run

variable {r r' : Run Reply} {waiting waiting' : List (Machine → Run Reply)}

theorem Alike.pause (h : r.Alike r') (hwaiting : List.Forall₂ WaitAlike waiting waiting') :
    (r'.pause waiting').1 = (r.pause waiting).1 ∧
      (r.pause waiting).2.Alike (r'.pause waiting').2 := by
  cases h with
  | done h => exact ⟨rfl, h, hwaiting⟩
  | issue h hnext => exact ⟨rfl, h, .cons hnext hwaiting⟩

theorem Alike.reply? (h : r.Alike r') : r'.reply? = r.reply? := by
  cases h <;> rfl

end Run

/-- What is seen of a turn: the command at which it stops, the reply to an operation that is over,
what the machine looks like afterwards, and all that it has said. -/
structure Sight where
  command : Option Command
  reply : Option Reply
  snapshot : Snapshot
  journal : List Entry
  deriving DecidableEq

namespace Machine

variable {m m' : Machine}

theorem Alike.snapshot (h : m.Alike m') : m'.snapshot = m.snapshot := by
  obtain ⟨p, hp, rfl⟩ := h
  unfold Machine.snapshot
  rw [show (m.withPower p).power = p from rfl, hp.mode, hp.resumes]
  rfl

theorem Alike.journal (h : m.Alike m') : m'.journal = m.journal := by
  obtain ⟨p, hp, rfl⟩ := h
  rfl

end Machine

/-- The power mode does not change. -/
def Turn.keepsMode : Turn → Bool
  | .happen o => o.keepsMode
  | .resume => true

namespace World

variable {w w' : World} {t : Turn} {ts : List Turn}

def sight (w : World) (t : Turn) : Sight where
  command := (w.turn t).1
  reply := w.reply? t
  snapshot := (w.turn t).2.machine.snapshot
  journal := (w.turn t).2.machine.journal

/-- All that is seen of several turns. -/
def sights (w : World) : List Turn → List Sight
  | [] => []
  | t :: ts => w.sight t :: (w.turn t).2.sights ts

/-- As long as the power mode does not change, whatever may happen in one world may happen in the
other, and is seen to go the same way. -/
def LooksLike (w w' : World) : Prop :=
  ∀ ts : List Turn, ts.all Turn.keepsMode → w.AllPossible ts →
    w'.AllPossible ts ∧ w'.sights ts = w.sights ts

theorem Alike.possible (h : w.Alike w') (ht : w.Possible t) : w'.Possible t := by
  obtain ⟨m, waiting⟩ := w
  obtain ⟨m', waiting'⟩ := w'
  obtain ⟨⟨p, -, rfl⟩, hwaiting⟩ := h
  cases t with
  | happen o => cases o <;> exact ht
  | resume => cases hwaiting <;> exact ht

/-- A turn that does not change the power mode goes alike. One world goes on like itself even
then. -/
theorem Alike.turn (h : w.Alike w') (ht : t.keepsMode = true ∨ w' = w) :
    (w.turn t).2.Alike (w'.turn t).2 ∧ w'.sight t = w.sight t := by
  suffices h' : (w'.turn t).1 = (w.turn t).1 ∧ (w.turn t).2.Alike (w'.turn t).2 ∧
      w'.reply? t = w.reply? t by
    obtain ⟨hc, hw, hreply⟩ := h'
    refine ⟨hw, ?_⟩
    unfold sight
    rw [hc, hreply, hw.machine.snapshot, hw.machine.journal]
  cases t with
  | happen o =>
    have hrun := o.run_alike h.machine (ht.imp_right fun h => congrArg World.machine h)
    obtain ⟨hc, hw⟩ := hrun.pause h.waiting
    exact ⟨hc, hw, hrun.reply?⟩
  | resume =>
    obtain ⟨m, waiting⟩ := w
    obtain ⟨m', waiting'⟩ := w'
    obtain ⟨hm, hwaiting⟩ := h
    cases hwaiting with
    | nil => exact ⟨rfl, ⟨hm, .nil⟩, rfl⟩
    | cons hnext hwaiting =>
      obtain ⟨hc, hw⟩ := (hnext m m' hm).pause hwaiting
      exact ⟨hc, hw, (hnext m m' hm).reply?⟩

/-- What waits in a world was begun by one machine, so it goes on like itself. -/
theorem Reachable.alike_self (hw : w.Reachable) : w.Alike w := by
  induction hw with
  | fresh => exact ⟨.refl _, .nil⟩
  | turn _ t _ ih => exact (ih.turn (.inr rfl)).1

theorem Alike.looksLike (h : w.Alike w') : w.LooksLike w' := by
  intro ts hkept hts
  induction ts generalizing w w' with
  | nil => exact ⟨trivial, rfl⟩
  | cons t ts ih =>
    rw [List.all_cons, Bool.and_eq_true] at hkept
    obtain ⟨hw, hsight⟩ := h.turn (.inl hkept.1)
    obtain ⟨hpossible, hsights⟩ := ih hw hkept.2 hts.2
    exact ⟨⟨h.possible hts.1, hpossible⟩, congrArg₂ List.cons hsight hsights⟩

end World

/-! ## What gives a change away -/

/-- In light sleep, and only there, network standby says whether discovery is forbidden. -/
theorem Power.isSuspended_withStandby_iff (p : Power) (networkStandby : Bool) :
    isSuspended { p with networkStandby } = p.isSuspended ↔
      (p.mode = .lightSleep → p.networkStandby = networkStandby) := by
  unfold isSuspended suspends
  cases p.mode <;> simp [eq_comm]

namespace Machine

variable {m : Machine}

/-- Nothing is left to do once discovery has been told to stop. -/
theorem suspendDiscovery_stop (m : Machine) :
    m.suspendDiscovery.stop = m.suspendDiscovery.quietly.1 := by
  unfold suspendDiscovery
  split <;> rfl

/-- Discovery stops when the radio begins to connect. -/
theorem wifiChanged_connecting_stop (m : Machine) :
    (m.wifiChanged .connecting).stop.gate = { m.gate with active := false } ∧
      (m.wifiChanged .connecting).stop.power = m.power ∧
      (m.wifiChanged .connecting).stop.radio.connecting = true := by
  let m₁ := { m with radio := ⟨.connecting, true⟩ }
  have hrun : m.wifiChanged .connecting =
    m₁.suspendDiscovery.andThen fun m => .done m.armRadioConnect () := rfl
  have hgate := m₁.suspendDiscovery_gate
  have hpower := m₁.suspendDiscovery_power
  have hradio := m₁.suspendDiscovery_radio
  rw [← m₁.suspendDiscovery_stop] at hgate hpower hradio
  rw [hrun]
  generalize m₁.suspendDiscovery = r at *
  cases r <;> exact ⟨hgate, hpower, congrArg Radio.connecting hradio⟩

theorem resumeDiscovery_stop_of_connecting (hradio : m.radio.connecting = true) :
    m.resumeDiscovery.stop.gate = m.gate ∧ m.resumeDiscovery.stop.power = m.power ∧
      m.resumeDiscovery.stop.radio = m.radio := by
  unfold resumeDiscovery
  rw [if_pos hradio, Run.stop_done]
  split <;> exact ⟨rfl, rfl, rfl⟩

/-- While the radio connects, a service that is switched on has to wait. -/
theorem enable_stop (hradio : m.radio.connecting = true) :
    m.enable.stop.gate = { m.gate with enabled := true } ∧
      m.enable.stop.power.isSuspended = m.power.isSuspended ∧
      m.enable.stop.radio = m.radio := by
  unfold enable
  split
  case isTrue henabled =>
    refine ⟨?_, rfl, rfl⟩
    show m.gate = _
    rw [← henabled]
  case isFalse =>
    dsimp only
    split
    case h_1 power htake => exact ⟨rfl, Power.isSuspended_of_takeResume htake, rfl⟩
    case h_2 =>
      split
      case h_1 power hdefer => exact ⟨rfl, Power.isSuspended_eq_of_deferUntilWake hdefer, rfl⟩
      case h_2 =>
        rw [Run.stop_returning]
        obtain ⟨hgate, hpower, hwaits⟩ := resumeDiscovery_stop_of_connecting
          (m := { m with gate := { m.gate with enabled := true } }.announceEnabled true) hradio
        exact ⟨hgate, congrArg Power.isSuspended hpower, hwaits⟩

/-- Discovery that is wanted starts unless the power mode forbids it. -/
theorem resumeDiscovery_pause (hgate : m.gate = ⟨true, false⟩)
    (hradio : m.radio.connecting = false) (waiting : List (Machine → Run Reply)) :
    ((m.resumeDiscovery.returning .nothing).pause waiting).1 =
      if m.power.isSuspended then none else some .restartDiscovery := by
  unfold resumeDiscovery
  rw [if_neg (Bool.eq_false_iff.1 hradio), hgate]
  cases m.power.isSuspended <;> rfl

theorem wifiChanged_disconnected_pause (hgate : m.gate = ⟨true, false⟩)
    (hradio : m.radio.connecting = true) (waiting : List (Machine → Run Reply)) :
    (((m.wifiChanged .disconnected).returning .nothing).pause waiting).1 =
      if m.power.isSuspended then none else some .restartDiscovery := by
  have hresolved : m.radio.change .disconnected = (.resume, ⟨.disconnected, false⟩) := by
    simp [Radio.change, Radio.resolve, hradio]
  have hrun : m.wifiChanged .disconnected =
      ({ m with radio := ⟨.disconnected, false⟩ }.disarm .radioConnect).resumeDiscovery := by
    rw [wifiChanged, hresolved]
  rw [hrun]
  exact resumeDiscovery_pause (m := { m with radio := ⟨.disconnected, false⟩ }.disarm .radioConnect)
    hgate rfl waiting

end Machine

namespace World

variable {w w' : World}

/-- The radio begins to connect, the service is switched on, and the radio no longer connects. -/
def probe : List Turn :=
  [.happen (.call (.report (.wifiStateChanged .connecting))), .happen (.call (.setEnabled true)),
    .happen (.call (.report (.wifiStateChanged .disconnected)))]

/-- In the end discovery starts, unless the power mode forbids it. -/
theorem commands_probe (w : World) :
    ((w.sights probe).map Sight.command).getLast? =
      some (if w.machine.power.isSuspended then none else some .restartDiscovery) := by
  let w₁ := (w.turn (.happen (.call (.report (.wifiStateChanged .connecting))))).2
  let w₂ := (w₁.turn (.happen (.call (.setEnabled true)))).2
  have hw₁ : w₁.machine = (w.machine.wifiChanged .connecting).stop :=
    (Run.pause_machine ..).trans (Run.stop_returning ..)
  have hw₂ : w₂.machine = w₁.machine.enable.stop :=
    (Run.pause_machine ..).trans ((Run.stop_map ..).trans (Run.stop_map ..))
  obtain ⟨hgate₁, hpower₁, hradio₁⟩ := w.machine.wifiChanged_connecting_stop
  rw [← hw₁] at hgate₁ hpower₁ hradio₁
  obtain ⟨hgate₂, hpower₂, hradio₂⟩ := Machine.enable_stop hradio₁
  rw [← hw₂, hgate₁] at hgate₂
  rw [← hw₂, hpower₁] at hpower₂
  rw [← hw₂] at hradio₂
  have hlast : ((w.sights probe).map Sight.command).getLast? =
    some (((w₂.machine.wifiChanged .disconnected).returning .nothing).pause w₂.waiting).1 := rfl
  rw [hlast, Machine.wifiChanged_disconnected_pause hgate₂ (hradio₂ ▸ hradio₁), hpower₂]

theorem allPossible_probe (w : World) : w.AllPossible probe :=
  ⟨trivial, trivial, trivial, trivial⟩

/-- Two worlds in only one of which the power mode forbids discovery can be told apart. -/
theorem LooksLike.suspended (h : w.LooksLike w') :
    w'.machine.power.isSuspended = w.machine.power.isSuspended := by
  obtain ⟨-, hsights⟩ := h probe rfl w.allPossible_probe
  have hcommands := w'.commands_probe
  rw [hsights, w.commands_probe] at hcommands
  cases hw : w.machine.power.isSuspended <;> cases hw' : w'.machine.power.isSuspended <;>
    simp_all

/-- A change of network standby is not seen by itself. Whatever happens afterwards goes the same way
as without it until the power mode changes, and whether discovery is forbidden does not change,
exactly if the device is not in light sleep or network standby stays as it was. -/
theorem standby_goes_unnoticed_iff (hw : w.Reachable) (enabled : Bool) :
    let report : Turn := .happen (.call (.report (.networkStandbyChanged enabled)))
    let unheeded := w.machine.power.mode = .lightSleep → w.machine.power.networkStandby = enabled
    w.sight report = ⟨none, some .nothing, w.machine.snapshot, w.machine.journal⟩ ∧
      (w.LooksLike (w.turn report).2 ↔ unheeded) ∧
      ((w.turn report).2.machine.power.isSuspended = w.machine.power.isSuspended ↔ unheeded) := by
  intro report unheeded
  have hsuspended := w.machine.power.isSuspended_withStandby_iff enabled
  refine ⟨rfl, ⟨fun h => hsuspended.1 h.suspended, fun h => ?_⟩, hsuspended⟩
  apply Alike.looksLike
  let power := { w.machine.power with networkStandby := enabled }
  exact ⟨⟨power, ⟨rfl, rfl, hsuspended.2 h⟩, rfl⟩, hw.alike_self.waiting⟩

/-- In deep sleep nothing depends on network standby. -/
theorem standby_goes_unnoticed_in_deep_sleep :
    ∃ w : World, w.machine.gate.enabled = true ∧ w.machine.power.mode = .deepSleep ∧
      w.LooksLike (w.turn (.happen (.call (.report (.networkStandbyChanged true))))).2 := by
  let ts : List Turn := [.happen (.call (.setEnabled true)), .resume,
    .happen (.call (.report (.powerModeChanged .on .deepSleep))), .resume]
  have hw : ((fresh {} none).turns ts).Reachable :=
    (Reachable.fresh {} none).turns (by decide +kernel)
  have hdeep : ((fresh {} none).turns ts).machine.power.mode = .deepSleep := by decide +kernel
  obtain ⟨-, hlooks, -⟩ := standby_goes_unnoticed_iff hw true
  have hunheeded := hlooks.2 fun hlight => nomatch hdeep.symm.trans hlight
  exact ⟨_, by decide +kernel, hdeep, hunheeded⟩

/-- A service is switched on in light sleep. Right after network standby it starts discovery, which
would otherwise wait until the device wakes up. -/
theorem standby_noticed_in_light_sleep :
    ¬∀ w : World, w.Reachable → ∀ enabled,
      w.LooksLike (w.turn (.happen (.call (.report (.networkStandbyChanged enabled))))).2 := by
  intro hall
  let ts : List Turn := [.happen (.call (.report (.powerModeChanged .on .lightSleep)))]
  have hw : ((fresh {} none).turns ts).Reachable :=
    (Reachable.fresh {} none).turns (by decide +kernel)
  obtain ⟨-, hsights⟩ := hall _ hw true [.happen (.call (.setEnabled true))] rfl
    (by decide +kernel)
  exact absurd hsights (by decide +kernel)

end World

end CastReceiver
