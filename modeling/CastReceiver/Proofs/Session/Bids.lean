import CastReceiver.Proofs.Deeds
import CastReceiver.Proofs.Session.Attendance
import CastReceiver.Proofs.Session.Parties

/-!
# Bids for the receiver

A peer bids for the receiver when it asks to connect, and when it launches without having asked. The
two are alike: the bid is taken in, and then it is considered, which comes to an acceptance in
automatic mode and to a question otherwise. A direct launch passes through one more phase on the way.
-/
namespace CastReceiver

inductive Bid where
  | connect (mac name : String)
  /-- A launch that nobody has asked for. -/
  | launch (l : Launch)
  deriving DecidableEq

namespace Bid

def occurrence : Bid → Occurrence
  | connect mac name => .call (.report (.connectionRequest mac name))
  | launch l => .call (.report (.launchRequest l false))

def peer : Bid → Peer
  | connect mac name => ⟨mac, name⟩
  | launch l => l.peer

/-- The peer as it waits for a decision. -/
def pending : Bid → PendingPeer
  | connect mac name => { mac, name }
  | launch l => .ofLaunch l

/-- The phases through which a bid is taken in; in the last one it waits for a decision. -/
def ways : Bid → List Phase
  | connect .. => [.connecting]
  | launch _ => [.directLaunchRequested, .directLaunchConnecting]

/-- The changes that are announced when a bid is taken in. -/
def opening (source : Phase) (x : SessionId) : Bid → List Change
  | connect .. => [⟨source, .connecting, some x⟩]
  | launch _ => [⟨source, .directLaunchRequested, some x⟩,
      ⟨.directLaunchRequested, .directLaunchConnecting, some x⟩]

def phase : Bid → Phase
  | connect .. => .connecting
  | launch _ => .directLaunchConnecting

/-- The command that passes the acceptance of a bid on. -/
def acceptance : Bid → Command
  | connect .. => .acceptClientConnection .accept
  | launch l => .switchLaunchRequestContext l

variable {b : Bid}

@[simp] theorem peer_pending (b : Bid) : b.pending.peer = b.peer := by
  cases b <;> rfl

theorem phase_eq_or (b : Bid) : b.phase = .connecting ∨ b.phase = .directLaunchConnecting := by
  cases b with
  | connect => exact .inl rfl
  | launch => exact .inr rfl

theorem isSome_requester (b : Bid) : b.occurrence.requester?.isSome = true := by
  cases b <;> rfl

theorem exists_of_requester {o : Occurrence} (ho : o.requester?.isSome = true) :
    ∃ b : Bid, o = b.occurrence := by
  unfold Occurrence.requester? at ho
  split at ho
  case h_1 mac name => exact ⟨.connect mac name, rfl⟩
  case h_2 l => exact ⟨.launch l, rfl⟩
  case h_3 => exact nomatch ho

end Bid

namespace Account

/-- An account goes through several phases. -/
def pass (a : Account) (targets : List Phase) : Account :=
  targets.foldl enter a

/-- A phase with a pending peer begins an attempt under the next name. -/
theorem enter_id_of_holds {a : Account} {target : Phase} (htarget : target.holdsPendingPeer = true)
    (hphase : a.phase ≠ .directLaunchRequested) :
    (a.enter target).id = some (.nth a.attempts) := by
  have hengaged : target.isUnengaged = false := by
    cases target <;> first | rfl | cases htarget
  rw [enter_id]
  simp [hengaged, htarget, hphase]

/-- A direct launch keeps the name under which it has been taken in. -/
theorem enter_id_of_directLaunch {a : Account} (hphase : a.phase = .directLaunchRequested) :
    (a.enter .directLaunchConnecting).id = a.id := by
  rw [enter_id, hphase]
  rfl

/-- A bid opens an attempt under the next name. -/
theorem pass_ways_id {a : Account} (b : Bid) (hphase : a.phase ≠ .directLaunchRequested) :
    (a.pass b.ways).id = some (.nth a.attempts) := by
  cases b with
  | connect => exact enter_id_of_holds rfl hphase
  | launch =>
    exact (enter_id_of_directLaunch (a.enter_phase _)).trans (enter_id_of_holds rfl hphase)

end Account

namespace Machine

variable {m : Machine} {b : Bid}

/-- A peer that bids while another one plays asks to take over. -/
def askToTakeOver (m : Machine) (p : Peer) : Machine :=
  if m.phase = .playerLaunched then m.setPreempting (some p) else m

/-- The machine once a bid has been taken in. Nothing has been decided about it yet. -/
def takeIn (m : Machine) (b : Bid) : Machine :=
  b.ways.foldl (fun m target => m.enter target (some b.pending)) (m.askToTakeOver b.peer)

/-- The request that a direct launch implies finds the launch where it was taken in. -/
theorem connectionRequested_of_directLaunch {l : Launch} (henabled : m.gate.enabled = true)
    (hphase : m.phase = .directLaunchRequested) (hpending : m.session.pending = some (.ofLaunch l)) :
    m.connectionRequested l.sourceMac l.sourceName =
      (m.enter .directLaunchConnecting (some (.ofLaunch l))).considerRequest
        l.sourceMac l.sourceName := by
  have hcached : (some (PendingPeer.ofLaunch l)).filter
      (fun p => sameMac p.mac l.sourceMac) = some (.ofLaunch l) := by
    simp [Option.filter, PendingPeer.ofLaunch]
  rw [connectionRequested, if_neg (by simp [henabled])]
  dsimp only
  rw [hphase, hpending, hcached, if_pos rfl, if_neg (by decide)]
  rfl

/-- A direct launch is taken in and considered, whatever the phase. -/
theorem directLaunch_takeIn (henabled : m.gate.enabled = true) (l : Launch) :
    m.directLaunch l =
      (m.takeIn (.launch l)).considerRequest l.sourceMac l.sourceName := by
  rw [directLaunch, if_neg (by simp [henabled])]
  apply connectionRequested_of_directLaunch
  · rw [enter_gate]
    split <;> exact henabled
  · exact enter_phase ..
  · rw [enter_session]
    rfl

/-- A bid that is taken in is considered. -/
theorem run_bid_of_enabled (henabled : m.gate.enabled = true)
    (hphase : m.phase ≠ .directLaunchRequested) :
    b.occurrence.run m =
      ((m.takeIn b).considerRequest b.peer.mac b.peer.name).returning .nothing := by
  cases b with
  | connect mac name =>
    have hrun : m.connectionRequested mac name =
        (m.takeIn (.connect mac name)).considerRequest mac name := by
      rw [connectionRequested, if_neg (by simp [henabled])]
      dsimp only
      rw [if_neg hphase]
      rfl
    exact congrArg (fun r => r.returning Reply.nothing) hrun
  | launch l =>
    exact congrArg (fun r => r.returning Reply.nothing) (directLaunch_takeIn henabled l)

/-! What a bid changes when it is taken in. -/

theorem parties_takeIn (m : Machine) (b : Bid) :
    (m.takeIn b).parties = m.parties.ask b.phase b.pending := by
  have hpreempting : (m.askToTakeOver b.peer).parties = { m.parties with
      preempting := if m.phase = .playerLaunched then some b.peer else m.session.preempting } := by
    rw [askToTakeOver]
    split <;> rfl
  have hphase : m.parties.phase = m.phase := rfl
  cases b with
  | connect mac name =>
    show ((m.askToTakeOver _).enter _ _).parties = _
    rw [parties_enter, hpreempting]
    rfl
  | launch l =>
    show (((m.askToTakeOver _).enter _ _).enter _ _).parties = _
    rw [parties_enter, parties_enter, hpreempting]
    rfl

@[simp] theorem account_askToTakeOver (m : Machine) (p : Peer) :
    (m.askToTakeOver p).account = m.account := by
  rw [askToTakeOver]
  split <;> rfl

theorem account_takeIn (m : Machine) (b : Bid) :
    (m.takeIn b).account = m.account.pass b.ways := by
  cases b with
  | connect mac name =>
    show ((m.askToTakeOver _).enter _ _).account = _
    rw [account_enter, account_askToTakeOver]
    rfl
  | launch l =>
    show (((m.askToTakeOver _).enter _ _).enter _ _).account = _
    rw [account_enter, account_enter, account_askToTakeOver]
    rfl

end Machine

end CastReceiver
