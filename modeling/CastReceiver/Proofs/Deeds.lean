import CastReceiver.Proofs.Underway
import Mathlib.Logic.Relation

/-!
# Deeds

What can be told of a session from outside: its phase and name, the gate of discovery, and what the
journal says of them. A stretch of work changes this account by a few kinds of deeds. Each says what
it has looked at, what it writes down, and to which occurrences it is left.
-/
namespace CastReceiver

/-! ## Accounts -/

/-- A change of the phase as it is announced. -/
structure Change where
  source : Phase
  target : Phase
  id : Option SessionId
  deriving DecidableEq

/-- What an entry of the journal says of the session, the gate and the commands. -/
inductive Mark where
  | changed (c : Change)
  | enabled (value : Bool)
  /-- Listeners are told of a launch. -/
  | launch (l : Launch)
  | command (c : Command)
  deriving DecidableEq

/-- The change of the phase that a mark announces. -/
def Mark.change? : Mark → Option Change
  | changed c => some c
  | _ => none

def Event.mark? : Event → Option Mark
  | .state (.changed source target id _) => some (.changed ⟨source, target, id⟩)
  | .state (.enabledChanged value _) => some (.enabled value)
  | .notification (.launchRequest l _) => some (.launch l)
  | .command c => some (.command c)
  | _ => none

def Entry.mark? (e : Entry) : Option Mark :=
  match e.happening with
  | .event e => e.mark?
  | _ => none

structure Account where
  settings : SessionSettings
  phase : Phase
  id : Option SessionId
  /-- How many names have been given to attempts to cast. -/
  attempts : Nat
  gate : Gate
  log : List Mark

namespace Account

def note (a : Account) (m : Mark) : Account :=
  { a with log := a.log ++ [m] }

/-- A phase is entered, and announced unless nothing has changed. -/
def enter (a : Account) (target : Phase) : Account :=
  let begins := target.holdsPendingPeer && a.phase ≠ .directLaunchRequested
  let id :=
    if target.isUnengaged then none
    else if begins then some (.nth a.attempts)
    else a.id
  let a' := { a with
    phase := target, id, attempts := if begins then a.attempts + 1 else a.attempts }
  if a.phase = target && !target.holdsPendingPeer then a'
  else a'.note (.changed ⟨a.phase, target, id⟩)

/-- Discovery starts. -/
def startDiscovery (a : Account) : Account :=
  let a := { a with gate := { a.gate with active := true } }
  (if a.phase = .idle then a.enter .discoverable else a).note (.command .restartDiscovery)

/-- Discovery stops. -/
def stopDiscovery (a : Account) : Account :=
  let a := { a with gate := { a.gate with active := false } }
  (if a.phase = .discoverable then a.enter .idle else a).note (.command .stopDiscovery)

section Discovery

variable {a : Account} {P : Account → Prop}

/-- What holds once discovery has started: an idle session is advertised, and any other stays as it
is. -/
theorem startDiscovery_keeps (hnote : ∀ b, P b → P (b.note (.command .restartDiscovery)))
    (henter : a.phase = .idle →
      P ({ a with gate := { a.gate with active := true } }.enter .discoverable))
    (hstay : a.phase ≠ .idle → P { a with gate := { a.gate with active := true } }) :
    P a.startDiscovery := by
  refine hnote _ ?_
  dsimp only
  split
  case isTrue hidle => exact henter hidle
  case isFalse hbusy => exact hstay hbusy

/-- What holds once discovery has stopped: a session that is advertised becomes idle, and any other
stays as it is. -/
theorem stopDiscovery_keeps (hnote : ∀ b, P b → P (b.note (.command .stopDiscovery)))
    (henter : a.phase = .discoverable →
      P ({ a with gate := { a.gate with active := false } }.enter .idle))
    (hstay : a.phase ≠ .discoverable → P { a with gate := { a.gate with active := false } }) :
    P a.stopDiscovery := by
  refine hnote _ ?_
  dsimp only
  split
  case isTrue hdiscoverable => exact henter hdiscoverable
  case isFalse hbusy => exact hstay hbusy

end Discovery

/-- The changes of the phase that have been announced. -/
def changes (a : Account) : List Change :=
  a.log.filterMap Mark.change?

section Enter

variable (a : Account) (target : Phase)

@[simp] theorem enter_phase : (a.enter target).phase = target := by
  unfold enter
  dsimp only
  split <;> rfl

@[simp] theorem enter_gate : (a.enter target).gate = a.gate := by
  unfold enter
  dsimp only
  split <;> rfl

@[simp] theorem enter_settings : (a.enter target).settings = a.settings := by
  unfold enter
  dsimp only
  split <;> rfl

theorem enter_id : (a.enter target).id =
    if target.isUnengaged then none
    else if target.holdsPendingPeer && a.phase ≠ .directLaunchRequested then some (.nth a.attempts)
    else a.id := by
  unfold enter
  dsimp only
  split <;> rfl

theorem enter_log : (a.enter target).log =
    if a.phase = target && !target.holdsPendingPeer then a.log
    else a.log ++ [.changed ⟨a.phase, target, (a.enter target).id⟩] := by
  unfold enter
  dsimp only
  split <;> rfl

end Enter

/-- Only marks of one kind have been written down since an account was `a₀`. -/
def Adds (a₀ : Account) (P : Mark → Prop) (a : Account) : Prop :=
  ∃ news, a.log = a₀.log ++ news ∧ ∀ mark ∈ news, P mark

section Adds

variable {a₀ a : Account} {P : Mark → Prop}

theorem adds_refl : a.Adds P a := ⟨[], (List.append_nil _).symm, nofun⟩

theorem Adds.note (h : a₀.Adds P a) {mark : Mark} (hmark : P mark) : a₀.Adds P (a.note mark) := by
  obtain ⟨news, hlog, hnews⟩ := h
  refine ⟨news ++ [mark], by rw [Account.note, hlog, List.append_assoc], fun x hx => ?_⟩
  rcases List.mem_append.1 hx with hx | hx
  · exact hnews x hx
  · exact List.mem_singleton.1 hx ▸ hmark

theorem Adds.enter (h : a₀.Adds P a) {target : Phase}
    (htarget : ∀ c : Change, c.target = target → P (.changed c)) : a₀.Adds P (a.enter target) := by
  rw [Adds, enter_log]
  split
  · exact h
  · exact h.note (htarget ⟨a.phase, target, (a.enter target).id⟩ rfl)

end Adds

end Account

namespace Machine

def account (m : Machine) : Account where
  settings := m.settings
  phase := m.phase
  id := m.session.id
  attempts := m.attempts
  gate := m.gate
  log := m.journal.filterMap Entry.mark?

section Account

variable (m : Machine)

theorem account_emit (e : Event) :
    (m.emit e).account = { m.account with log := m.account.log ++ e.mark?.toList } := by
  cases h : e.mark? <;> simp [account, emit, record, phase, Entry.mark?, h]

/-- What is of no interest to an account leaves it as it is. -/
theorem account_emit_of_unmarked {e : Event} (he : e.mark? = none) :
    (m.emit e).account = m.account := by
  rw [account_emit, he, Option.toList_none, List.append_nil]

theorem account_emit_of_marked {e : Event} {mark : Mark} (he : e.mark? = some mark) :
    (m.emit e).account = m.account.note mark := by
  rw [account_emit, he]
  rfl

@[simp] theorem account_command (c : Command) :
    (m.emit (.command c)).account = m.account.note (.command c) :=
  m.account_emit_of_marked rfl

@[simp] theorem account_notifyLaunch (l : Launch) :
    (m.notifyLaunch l).account = m.account.note (.launch l) :=
  m.account_emit_of_marked rfl

@[simp] theorem account_announceEnabled (enabled : Bool) :
    (m.announceEnabled enabled).account = m.account.note (.enabled enabled) :=
  m.account_emit_of_marked rfl

@[simp] theorem account_notifyRequest (p : Peer) : (m.notifyRequest p).account = m.account :=
  m.account_emit_of_unmarked rfl

@[simp] theorem account_notifyError (p : Peer) (reason : StopReason) :
    (m.notifyError p reason).account = m.account :=
  m.account_emit_of_unmarked rfl

@[simp] theorem account_setPlayer (mac : String) (state : PlayerState) :
    (m.setPlayer mac state).account = m.account :=
  account_emit_of_unmarked _ rfl

@[simp] theorem account_looked : m.looked.account = m.account := by
  simp [looked, account, record, phase, Entry.mark?]

@[simp] theorem account_enter (target : Phase) (pending : Option PendingPeer) :
    (m.enter target pending).account = m.account.enter target := by
  have hsource : m.account.phase = m.session.phase := rfl
  unfold enter Account.enter
  dsimp only
  rw [hsource]
  split
  · rfl
  · rw [account_emit_of_marked _ rfl]
    rfl

@[simp] theorem account_adopt (pending : Option PendingPeer) :
    (m.adopt pending).account = m.account := by
  unfold adopt
  split
  · rfl
  · split <;> rfl

end Account

end Machine

/-! ## Deeds -/

/-- An occurrence that may enable the service. -/
def Occurrence.Enables (s : SessionSettings) : Occurrence → Prop
  | .call (.setEnabled true) => True
  | .call .start => s.enableOnStart = true
  | _ => False

instance (s : SessionSettings) : DecidablePred (Occurrence.Enables s)
  | .call (.setEnabled true) => isTrue trivial
  | .call .start => inferInstanceAs (Decidable (s.enableOnStart = true))
  | .call (.setEnabled false) | .call .shutdown | .call .isEnabled | .call .phase
  | .call (.decide _) | .call (.stop ..) | .call (.player ..) | .call (.backendDiscovery _)
  | .call (.report _) | .alarm _ | .elapse _ | .settle => isFalse id

namespace Account

/-- Which phases may be entered one by one. -/
def MayEnter (a : Account) : Phase → Prop
  | .idle => True
  | .discoverable => a.phase.awaitsRestart = true ∧ a.gate.active = true
  | .connecting => a.gate.enabled = true
  | .connectionAccepted | .connectionRejected =>
    a.phase = .connecting ∨ a.phase = .directLaunchConnecting
  | .restartingSession => a.phase.isUnengaged = false
  | _ => False

/-- Which commands may go out by themselves. -/
def MayIssue (a : Account) : Command → Prop
  | .restartDiscovery | .stopDiscovery | .beginPlayback _ => False
  | .acceptClientConnection .accept | .switchLaunchRequestContext _ =>
    a.phase = .connectionAccepted
  | .restartSessionDiscovery _ => a.phase = .restartingSession
  | _ => True

end Account

/-- Something that a stretch of work for an occurrence may do to an account. -/
inductive Deed (o : Occurrence) (a : Account) : Account → Prop
  | enter {target : Phase} (h : a.MayEnter target) : Deed o a (a.enter target)
  /-- A launch that nobody has asked for is negotiated at once. -/
  | directLaunch (h : a.gate.enabled = true) :
      Deed o a ((a.enter .directLaunchRequested).enter .directLaunchConnecting)
  /-- An accepted connection is torn down, and the session ends at once. -/
  | abort {target : Phase} (h : a.phase = .connectionAccepted)
      (htarget : target = .idle ∨ target = .restartingSession) :
      Deed o a ((a.enter .abortingConnection).enter target)
  /-- A peer launches that has been accepted. -/
  | launch {l : Launch} {mark : Mark} (ho : o = .call (.report (.launchRequest l true)))
      (h : a.phase = .connectionAccepted)
      (hmark : mark = .launch l ∨ mark = .command (.beginPlayback l)) :
      Deed o a ((a.enter .playerLaunched).note mark)
  | command {c : Command} (h : a.MayIssue c) : Deed o a (a.note (.command c))
  | startDiscovery (henabled : a.gate.enabled = true) (hactive : a.gate.active = false) :
      Deed o a a.startDiscovery
  | stopDiscovery (hactive : a.gate.active = true) : Deed o a a.stopDiscovery
  | switchOn (ho : o.Enables a.settings) :
      Deed o a ({ a with gate := { a.gate with enabled := true } }.note (.enabled true))
  | switchOff (ho : o = .call (.setEnabled false)) (h : a.phase ≠ .playerLaunched) :
      Deed o a { a with gate := { a.gate with enabled := false } }
  | announceOff (ho : o = .call (.setEnabled false)) : Deed o a (a.note (.enabled false))
  /-- Discovery stops for good. -/
  | leave (ho : o = .call .shutdown) (hactive : a.gate.active = true) :
      Deed o a
        ({ a with gate := { a.gate with active := false } }.note (.command .stopDiscovery))
  | forget (ho : o = .call .shutdown) : Deed o a { a with phase := .idle, id := none, gate := {} }

/-- What one stretch of work may do. -/
def Deeds (o : Occurrence) : Account → Account → Prop :=
  Relation.ReflTransGen (Deed o)

namespace Deeds

variable {o : Occurrence} {s a b : Account}

theorem refl : Deeds o a a := Relation.ReflTransGen.refl

theorem deed (h : Deeds o s a) (hd : Deed o a b) : Deeds o s b := .tail h hd

theorem enter (h : Deeds o s a) (target : Phase) (htarget : a.MayEnter target) :
    Deeds o s (a.enter target) :=
  h.deed (.enter htarget)

theorem command (h : Deeds o s a) {c : Command} (hc : a.MayIssue c) :
    Deeds o s (a.note (.command c)) :=
  h.deed (.command hc)

/-- What every deed keeps is kept by a stretch of work. -/
theorem keeps {P : Account → Prop} (hP : ∀ a b, P a → Deed o a b → P b) (h : Deeds o s a)
    (hs : P s) : P a := by
  induction h with
  | refl => exact hs
  | tail _ hd ih => exact hP _ _ ih hd

end Deeds

/-- The phases through which a stretch of work only passes are not those in which it ends. -/
def Account.Settled (a : Account) : Prop :=
  a.phase ≠ .directLaunchRequested ∧ a.phase ≠ .abortingConnection

theorem Machine.settled_fresh (settings : SessionSettings) (nameSource : Option NameSource) :
    ({ settings, nameSource } : Machine).account.Settled :=
  show Phase.idle ≠ .directLaunchRequested ∧ Phase.idle ≠ .abortingConnection by decide

namespace Account

variable {o : Occurrence} {a b : Account}

theorem settled_of_mayEnter {target : Phase} (h : a.MayEnter target) :
    (a.enter target).Settled := by
  unfold Settled
  rw [enter_phase]
  cases target <;> simp_all [MayEnter]

theorem Settled.deed (ha : a.Settled) (h : Deed o a b) : b.Settled := by
  cases h with
  | enter htarget => exact settled_of_mayEnter htarget
  | directLaunch | launch => simp [Settled, note]
  | abort _ htarget => rcases htarget with rfl | rfl <;> simp [Settled]
  | command | switchOn | switchOff | announceOff | leave => exact ha
  | startDiscovery =>
    exact startDiscovery_keeps (fun _ h => h) (fun _ => by simp [Settled]) fun _ => ha
  | stopDiscovery =>
    exact stopDiscovery_keeps (fun _ h => h) (fun _ => by simp [Settled]) fun _ => ha
  | forget => simp [Settled]

/-- A phase without a peer has no name. -/
def Unnamed (a : Account) : Prop :=
  a.phase.isUnengaged = true → a.id = none

theorem unnamed_enter (target : Phase) : (a.enter target).Unnamed := by
  intro hunengaged
  rw [enter_phase] at hunengaged
  rw [enter_id, if_pos hunengaged]

theorem Unnamed.deed (ha : a.Unnamed) (h : Deed o a b) : b.Unnamed := by
  cases h with
  | enter | directLaunch | abort => exact unnamed_enter _
  | launch => exact unnamed_enter (a := a) .playerLaunched
  | command | switchOn | switchOff | announceOff | leave => exact ha
  | startDiscovery =>
    exact startDiscovery_keeps (fun _ h => h) (fun _ => unnamed_enter _) fun _ => ha
  | stopDiscovery =>
    exact stopDiscovery_keeps (fun _ h => h) (fun _ => unnamed_enter _) fun _ => ha
  | forget => exact fun _ => rfl

end Account

end CastReceiver
