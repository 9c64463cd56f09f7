import CastReceiver.Proofs.World

/-!
# The spelling of addresses

The address of a network card may be spelled in several ways. A spelling rewrites every address that
occurs in some data, and takes care that addresses are the same afterwards if they were before, and
only then. Whatever a machine does without anybody else being involved, it does alike in every
spelling.
-/
namespace CastReceiver

/-- A way to spell the addresses of network cards. -/
structure Spelling where
  write : String → String
  same (a b : String) : sameMac (write a) (write b) = sameMac a b

variable (s : Spelling)

/-! ## Data -/

def Peer.respell (p : Peer) : Peer :=
  { p with mac := s.write p.mac }

def PendingPeer.respell (p : PendingPeer) : PendingPeer :=
  { p with mac := s.write p.mac }

def Launch.respell (l : Launch) : Launch :=
  { l with sourceMac := s.write l.sourceMac }

/-- Only one refusal quotes an address. -/
def SessionError.respell : SessionError → SessionError
  | .identityMismatch mac name => .identityMismatch (s.write mac) name
  | e => e

def Reply.respell : Reply → Reply
  | .refused e => .refused (e.respell s)
  | r => r

def Notification.respell : Notification → Notification
  | .connectionRequest p time => .connectionRequest (p.respell s) time
  | .connectionError p code time => .connectionError (p.respell s) code time
  | .launchRequest l time => .launchRequest (l.respell s) time

def StateEvent.respell : StateEvent → StateEvent
  | .playerStateChanged mac state time => .playerStateChanged (s.write mac) state time
  | e => e

def Command.respell : Command → Command
  | .restartSessionDiscovery mac => .restartSessionDiscovery (s.write mac)
  | .switchLaunchRequestContext l => .switchLaunchRequestContext (l.respell s)
  | .beginPlayback l => .beginPlayback (l.respell s)
  | c => c

def Event.respell : Event → Event
  | .notification n => .notification (n.respell s)
  | .state e => .state (e.respell s)
  | .command c => .command (c.respell s)

def Happening.respell : Happening → Happening
  | .event e => .event (e.respell s)
  | .nameLookup => .nameLookup
  | .nested label reply => .nested label (reply.respell s)

def Entry.respell (e : Entry) : Entry :=
  { e with happening := e.happening.respell s }

def Session.respell (x : Session) : Session :=
  { x with
    pending := x.pending.map (PendingPeer.respell s)
    active := x.active.map (Peer.respell s)
    preempting := x.preempting.map (Peer.respell s) }

def Machine.respell (m : Machine) : Machine :=
  { m with
    session := m.session.respell s
    journal := m.journal.map (Entry.respell s) }

def Report.respell : Report → Report
  | .connectionRequest mac name => .connectionRequest (s.write mac) name
  | .launchRequest l reported => .launchRequest (l.respell s) reported
  | r => r

def Call.respell : Call → Call
  | .stop mac name => .stop (s.write mac) name
  | .player mac state code => .player (s.write mac) state code
  | .report r => .report (r.respell s)
  | c => c

def Occurrence.respell : Occurrence → Occurrence
  | .call c => .call (c.respell s)
  | o => o

def Turn.respell : Turn → Turn
  | .happen o => .happen (o.respell s)
  | .resume => .resume

/-! ## Comparisons -/

section Compare

variable (mac name : String)

@[simp] theorem Peer.sameMac_respell (p : Peer) :
    sameMac (p.respell s).mac (s.write mac) = sameMac p.mac mac :=
  s.same p.mac mac

@[simp] theorem PendingPeer.sameMac_respell (p : PendingPeer) :
    sameMac (p.respell s).mac (s.write mac) = sameMac p.mac mac :=
  s.same p.mac mac

@[simp] theorem Peer.matchesIdentity_respell (p : Peer) :
    (p.respell s).matchesIdentity (s.write mac) name = p.matchesIdentity mac name := by
  rw [matchesIdentity, sameMac_respell]
  rfl

theorem PendingPeer.launch?_respell (p : PendingPeer) :
    (p.respell s).launch? = p.launch?.map (Launch.respell s) := by
  cases hsource : p.sourceIp <;> cases hsink : p.sinkIp <;>
    simp [launch?, respell, Launch.respell, hsource, hsink]

namespace Session

variable (x : Session)

theorem isSuperseded_respell : (x.respell s).isSuperseded (s.write mac) = x.isSuperseded mac := by
  simp only [isSuperseded, respell, Option.any_map, Peer.sameMac_respell,
    PendingPeer.sameMac_respell]

theorem connected_respell : (x.respell s).connected = x.connected.map (Peer.respell s) := by
  simp only [connected, respell, Option.toList_map, List.map_append]

theorem any_connected_respell (p q : Peer → Bool) (hpq : ∀ y, p (y.respell s) = q y) :
    (x.respell s).connected.any p = x.connected.any q := by
  rw [connected_respell, List.any_map]
  exact congrArg _ (funext hpq)

theorem nameFor_respell : (x.respell s).nameFor (s.write mac) = x.nameFor mac := by
  have hknown : (x.respell s).active.toList ++ (x.respell s).preempting.toList ++
      ((x.respell s).pending.map PendingPeer.peer).toList =
        (x.active.toList ++ x.preempting.toList ++
          (x.pending.map PendingPeer.peer).toList).map (Peer.respell s) := by
    simp only [respell, Option.toList_map, List.map_append, Option.map_map, List.map_map]
    rfl
  rw [nameFor, nameFor, hknown, List.find?_map, Option.map_map]
  simp only [Function.comp_def, Peer.sameMac_respell]
  rfl

end Session

end Compare

/-! ## Steps of a machine -/

namespace Machine

variable (m : Machine)

theorem respell_record (h : Happening) :
    (m.record h).respell s = (m.respell s).record (h.respell s) := by
  simp only [record, respell, List.map_append]
  rfl

@[simp] theorem respell_emit (e : Event) :
    (m.emit e).respell s = (m.respell s).emit (e.respell s) :=
  respell_record s m (.event e)

@[simp] theorem respell_notifyError (p : Peer) (reason : StopReason) :
    (m.notifyError p reason).respell s = (m.respell s).notifyError (p.respell s) reason :=
  respell_emit s m _

@[simp] theorem respell_notifyRequest (p : Peer) :
    (m.notifyRequest p).respell s = (m.respell s).notifyRequest (p.respell s) :=
  respell_emit s m _

@[simp] theorem respell_notifyLaunch (l : Launch) :
    (m.notifyLaunch l).respell s = (m.respell s).notifyLaunch (l.respell s) :=
  respell_emit s m _

@[simp] theorem respell_announceEnabled (enabled : Bool) :
    (m.announceEnabled enabled).respell s = (m.respell s).announceEnabled enabled :=
  respell_emit s m _

@[simp] theorem respell_setPlayer (mac : String) (state : PlayerState) :
    (m.setPlayer mac state).respell s = (m.respell s).setPlayer (s.write mac) state :=
  respell_emit s { m with session := { m.session with player := state } } _

theorem respell_entered (target : Phase) (pending : Option PendingPeer) :
    (m.entered target pending).respell s =
      (m.respell s).entered target (pending.map (PendingPeer.respell s)) := by
  unfold entered Session.respell
  cases target.forgetsPeers <;> rfl

@[simp] theorem respell_enter (target : Phase) (pending : Option PendingPeer) :
    (m.enter target pending).respell s =
      (m.respell s).enter target (pending.map (PendingPeer.respell s)) := by
  have hentered := respell_entered s m target pending
  have hsource : (m.respell s).session.phase = m.session.phase := rfl
  unfold enter
  dsimp only
  rw [← hentered, hsource]
  split
  · rfl
  · rw [respell_emit]
    rfl

@[simp] theorem respell_silencePlayer :
    m.silencePlayer.respell s = (m.respell s).silencePlayer := rfl

@[simp] theorem respell_adopt (pending : Option PendingPeer) :
    (m.adopt pending).respell s =
      (m.respell s).adopt (pending.map (PendingPeer.respell s)) := by
  cases pending with
  | none => rfl
  | some p =>
    have hvacant : ((m.respell s).session.preempting.isNone ||
        (m.respell s).session.active.isNone) =
          (m.session.preempting.isNone || m.session.active.isNone) := by
      simp only [respell, Session.respell, Option.isNone_map]
    rw [Option.map_some, adopt, adopt, hvacant]
    split <;> rfl

end Machine

end CastReceiver
