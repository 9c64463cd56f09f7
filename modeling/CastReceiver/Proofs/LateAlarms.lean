import CastReceiver.Proofs.Session.Vigilance

/-!
# Alarms that come late

The alarm of a watchdog may already have begun to go off when it is cancelled, replaced or claimed.
What it does then comes late: after any number of other requests, or while a command is being
carried out. Since numbers are not given out twice, an alarm that has left its slot never comes back
to it. So what comes late finds that it is not current, and does nothing (`passes_eq_turns`).
-/
namespace CastReceiver

namespace Timer.Watchdogs

variable {w w' : Watchdogs Task} {kind : WatchdogKind} {id : Nat}

/-- The number has been given out, but the alarm is not in the slot of this kind any more. -/
def Gone (w : Watchdogs Task) (kind : WatchdogKind) (id : Nat) : Prop :=
  id < w.timetable.nextId ∧ w.slot kind ≠ some id

instance (w : Watchdogs Task) (kind : WatchdogKind) (id : Nat) : Decidable (w.Gone kind id) :=
  inferInstanceAs (Decidable (_ ∧ _))

/-- What is gone does not come back. -/
theorem Gone.ensues (hgone : w.Gone kind id) (h : w.Ensues w') : w'.Gone kind id :=
  ⟨Nat.lt_of_lt_of_le hgone.1 h.nextId_le, fun hid => hgone.2 (h.slots kind id hid hgone.1)⟩

theorem claim_of_gone (hgone : w.Gone kind id) : w.claim kind id = (false, w) := by
  have hcurrent : w.isCurrent kind id = false := beq_eq_false_iff_ne.2 hgone.2
  simp [claim, hcurrent]

end Timer.Watchdogs

/-! ## What a watchdog does -/

namespace Machine

variable {m : Machine} {kind : Timer.WatchdogKind} {id : Nat}

/-- What the alarm of a watchdog does, and whether it asks not to go off again. -/
def callBack (m : Machine) (kind : Timer.WatchdogKind) (id : Nat) : Run Bool :=
  match kind with
  | .connectionAccept => (m.connectionAcceptExpired id).returning false
  | .radioConnect => (m.radioConnectExpired id).returning false
  | .friendlyNameRetry => m.lookUpAgain id

/-- A watchdog that goes off in time does no more than that, and goes off again unless it asks not
to. -/
theorem expire_eq_callBack (m : Machine) (kind : Timer.WatchdogKind) (id : Nat) :
    m.expire kind id = (m.callBack kind id).bind fun m ceases =>
      .done (if ceases then m.finishAlarm id else m) () := by
  cases kind with
  | connectionAccept =>
    show _ = (Run.bind _ _).bind _
    rw [Run.bind_assoc]
    exact (Run.bind_unit _).symm
  | radioConnect =>
    show _ = (Run.bind _ _).bind _
    rw [Run.bind_assoc]
    exact (Run.bind_unit _).symm
  | friendlyNameRetry => rfl

/-- An alarm that is not in its slot any more has no business with the machine. -/
theorem callBack_of_gone (hgone : m.watchdogs.Gone kind id) :
    ∃ ceases, m.callBack kind id = .done m ceases := by
  have hclaim : m.claim kind id = (false, m) := by
    simp [claim, Timer.Watchdogs.claim_of_gone hgone]
  cases kind with
  | connectionAccept =>
    refine ⟨false, ?_⟩
    rw [callBack, connectionAcceptExpired, hclaim]
    rfl
  | radioConnect =>
    refine ⟨false, ?_⟩
    rw [callBack, radioConnectExpired, hclaim]
    rfl
  | friendlyNameRetry =>
    refine ⟨true, ?_⟩
    have hcurrent : m.watchdogs.isCurrent .friendlyNameRetry id = false :=
      beq_eq_false_iff_ne.2 hgone.2
    simp [callBack, lookUpAgain, hcurrent]

end Machine

/-! ## Runs in which alarms come late -/

/-- A turn, or an alarm that comes late. -/
inductive Passage where
  | turn (t : Turn)
  | late (kind : Timer.WatchdogKind) (id : Nat)

namespace Passage

def turn? : Passage → Option Turn
  | turn t => some t
  | late .. => none

/-- A run without the alarms that come late. -/
def turns (ps : List Passage) : List Turn :=
  ps.filterMap turn?

end Passage

namespace World

variable {w : World} {past : List Machine} {ps : List Passage}

/-- The world after a passage, and the command that goes out. -/
def pass (w : World) : Passage → Option Command × World
  | .turn t => w.turn t
  | .late kind id => ((w.machine.callBack kind id).returning .nothing).pause w.waiting

def passes (w : World) : List Passage → World
  | [] => w
  | p :: ps => (w.pass p).2.passes ps

/-- An alarm comes late if it is gone, or was at any moment before. -/
def Passable (past : List Machine) (w : World) : Passage → Prop
  | .turn t => w.Possible t
  | .late kind id => ∃ m ∈ w.machine :: past, m.watchdogs.Gone kind id

instance (past : List Machine) (w : World) : DecidablePred (w.Passable past)
  | .turn t => inferInstanceAs (Decidable (w.Possible t))
  | .late kind id =>
    inferInstanceAs (Decidable (∃ m ∈ w.machine :: past, m.watchdogs.Gone kind id))

/-- A run with alarms that come late, from a world with a past. -/
def AllPassable (past : List Machine) (w : World) : List Passage → Prop
  | [] => True
  | p :: ps => w.Passable past p ∧ (w.pass p).2.AllPassable (w.machine :: past) ps

instance decidableAllPassable :
    (past : List Machine) → (w : World) → DecidablePred (w.AllPassable past)
  | _, _, [] => isTrue trivial
  | past, w, p :: ps =>
    have := decidableAllPassable (w.machine :: past) (w.pass p).2 ps
    inferInstanceAs (Decidable (w.Passable past p ∧ (w.pass p).2.AllPassable _ ps))

/-- Everything that is past has led to the present machine. -/
def Follows (past : List Machine) (w : World) : Prop :=
  ∀ m ∈ past, m.watchdogs.Ensues w.machine.watchdogs

theorem Follows.cons (hw : w.Reachable) (hpast : w.Follows past) :
    w.Follows (w.machine :: past) := by
  intro m hm
  rcases List.mem_cons.1 hm with rfl | hm
  · exact .refl hw.sound
  · exact hpast m hm

theorem Follows.turn (hw : w.Reachable) (hpast : w.Follows past) {t : Turn} (ht : w.Possible t) :
    (w.turn t).2.Follows (w.machine :: past) := by
  have hensues : w.machine.watchdogs.Ensues (w.turn t).2.machine.watchdogs :=
    Upkeep.turn_ensues vigilance_governs hw ht
  intro m hm
  exact (hpast.cons hw m hm).trans hensues

/-- An alarm that comes late leaves no trace. -/
theorem pass_late (hw : w.Reachable) (hpast : w.Follows past) {kind : Timer.WatchdogKind}
    {id : Nat} (hlate : w.Passable past (.late kind id)) :
    w.pass (.late kind id) = (none, w) := by
  obtain ⟨m, hm, hgone⟩ := hlate
  obtain ⟨ceases, hdone⟩ := Machine.callBack_of_gone (hgone.ensues (hpast.cons hw m hm))
  show ((w.machine.callBack kind id).returning .nothing).pause w.waiting = _
  rw [hdone]
  rfl

theorem passes_eq_of_follows (hw : w.Reachable) (hpast : w.Follows past)
    (hps : w.AllPassable past ps) :
    w.AllPossible (Passage.turns ps) ∧ w.passes ps = w.turns (Passage.turns ps) := by
  induction ps generalizing w past with
  | nil => exact ⟨trivial, rfl⟩
  | cons p ps ih =>
    obtain ⟨hp, hps⟩ := hps
    cases p with
    | turn t =>
      obtain ⟨hpossible, hpasses⟩ := ih (hw.turn t hp) (hpast.turn hw hp) hps
      exact ⟨⟨hp, hpossible⟩, hpasses⟩
    | late kind id =>
      -- The run goes on from the same world, only with a longer past.
      have hlate := congrArg Prod.snd (pass_late hw hpast hp)
      dsimp only at hlate
      rw [hlate] at hps
      show _ ∧ (w.pass (.late kind id)).2.passes ps = _
      rw [hlate]
      exact ih hw (hpast.cons hw) hps

/-- Without the alarms that come late, a run is possible as well and leads to the same world: the
same machine with the same journal, and the same runs that wait. This holds at every point of a run,
because a run up to a point is a run. What comes late is all that an alarm does in time, up to the
question whether it goes off again. -/
theorem passes_eq_turns (settings : SessionSettings) (nameSource : Option NameSource)
    (ps : List Passage) (hps : (fresh settings nameSource).AllPassable [] ps) :
    (fresh settings nameSource).AllPossible (Passage.turns ps) ∧
      (fresh settings nameSource).passes ps =
        (fresh settings nameSource).turns (Passage.turns ps) ∧
      ∀ (m : Machine) (kind : Timer.WatchdogKind) (id : Nat),
        m.expire kind id = (m.callBack kind id).bind fun m ceases =>
          .done (if ceases then m.finishAlarm id else m) () := by
  obtain ⟨hpossible, hpasses⟩ :=
    passes_eq_of_follows (.fresh settings nameSource) (List.forall_mem_nil _) hps
  exact ⟨hpossible, hpasses, Machine.expire_eq_callBack⟩

/-- The watchdog of a first request goes off after a second one has replaced it, and that of the
second one while its acceptance is carried out. -/
theorem passes_eq_turns_of_replaced :
    ∃ ps : List Passage, .late .connectionAccept 1 ∈ ps ∧ .late .connectionAccept 2 ∈ ps ∧
      (fresh {} none).AllPassable [] ps ∧
      (fresh {} none).passes ps = (fresh {} none).turns (Passage.turns ps) := by
  let happens (c : Call) : Passage := .turn (.happen (.call c))
  let ps : List Passage :=
    [happens (.setEnabled true), .turn .resume,
      happens (.report (.connectionRequest "aa" "A")),
      happens (.report (.connectionRequest "bb" "B")), .late .connectionAccept 1,
      happens (.decide "Accept"), .late .connectionAccept 2, .turn .resume]
  have hps : (fresh {} none).AllPassable [] ps := by decide +kernel
  exact ⟨ps, by simp [ps], by simp [ps], hps, (passes_eq_turns {} none ps hps).2.1⟩

end World

end CastReceiver
