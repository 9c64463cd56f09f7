import CastReceiver.Proofs.Session.Vigilance

/-!
# Requests inside commands

Most operations have nothing left to do once their last command has been carried out. Requests that
are made meanwhile then find the same machine as requests that are made right afterwards, and it
does not matter which of the two happens (`nested_eq_later`). The one command of such an operation
after which there is something left to do is the flush of a session that another peer preempts.
-/
namespace CastReceiver

/-- The operation has nothing left to do after its last command. What is left out goes on after a
command: it sets or cancels timers, ends a negotiation or forgets everything. -/
def Call.endsWithCommand : Call → Bool
  | .start | .shutdown | .setEnabled false | .report (.powerModeChanged _ _)
  | .report (.wifiStateChanged .connecting) => false
  | _ => true

def Occurrence.endsWithCommand : Occurrence → Bool
  | .call c => c.endsWithCommand
  | .alarm a => a.task ≠ .watchdog .friendlyNameRetry
  | .elapse _ | .settle => true

theorem Radio.change_ne_suppress {r r' : Radio} {state : WifiState} (hstate : state ≠ .connecting) :
    r.change state ≠ (.suppress, r') := by
  intro h
  cases state with
  | connecting => exact hstate rfl
  | unknown => exact nomatch congrArg Prod.fst h
  | connected | failed | disconnected => exact (connecting_of_resolve h).1 rfl

namespace Run

variable {α β : Type} {preempts : Prop} {r : Run α}

/-- The result of a run that is over. -/
def reply? : Run α → Option α
  | .done _ a => some a
  | .issue .. => none

/-- Nothing is left to do after a command, unless a session was flushed that another peer
preempts. -/
def Concludes (preempts : Prop) : Run α → Prop
  | .done _ _ => True
  | .issue _ c next => (∃ a, ∀ m, next m = .done m a) ∨
      preempts ∧ c = .flushCurrentSession ∧
        ∀ m, m.watchdogs.Sound → (next m).Brief fun _ => True

theorem Brief.concludes {P : Machine → Prop} (h : r.Brief P) : r.Concludes preempts := by
  cases r with
  | done m a => trivial
  | issue m c next => exact .inl h.2

theorem Concludes.returning (h : r.Concludes preempts) (b : β) :
    (r.returning b).Concludes preempts := by
  cases r with
  | done m a => trivial
  | issue m c next =>
    rcases h with ⟨a, hnext⟩ | ⟨hpreempts, hc, hnext⟩
    · exact .inl ⟨b, fun m' => congrArg (fun r => r.returning b) (hnext m')⟩
    · exact .inr ⟨hpreempts, hc, fun m' hm' => (hnext m' hm').returning b⟩

end Run

namespace Machine

variable {m : Machine} {preempts : Prop}

/-- Whoever is preempted is flushed first; the acceptance is the end. -/
theorem considerRequest_concludes (hm : m.watchdogs.Sound) (hpreempts : preempts)
    (mac name : String) : (m.considerRequest mac name).Concludes preempts := by
  have haccepts : ∀ m' : Machine, m'.watchdogs.Sound →
      ((m'.applyDecision .accept).returning ()).Brief fun _ => True :=
    fun m' hm' => ((applyDecision_settles hm' .accept).mono fun _ _ => trivial).returning ()
  rw [considerRequest]
  split
  case isTrue =>
    rw [endPreempted]
    split
    case isTrue =>
      dsimp only
      split
      · exact .inr ⟨hpreempts, rfl, haccepts⟩
      · exact (haccepts ((m.setPreempting none).setActive none) hm).concludes
    case isFalse => exact (haccepts m hm).concludes
  case isFalse => trivial

/-- Only an attempt to connect to a network stops discovery. -/
theorem wifiChanged_concludes (hm : m.watchdogs.Sound) {state : WifiState}
    (hstate : state ≠ .connecting) : (m.wifiChanged state).Concludes preempts := by
  rw [wifiChanged]
  split
  case h_1 hchange => exact absurd hchange (Radio.change_ne_suppress hstate)
  case h_2 radio _ =>
    have hdisarmed := hm.cancel .radioConnect
    exact (resumeDiscovery_spares (m := { m with radio }.disarm .radioConnect)
      hdisarmed).concludes
  case h_3 => trivial

end Machine

namespace Occurrence

variable {m : Machine} {o : Occurrence}

theorem call_concludes (hm : m.watchdogs.Sound) {c : Call} (hc : (call c).requester? = none)
    (hends : c.endsWithCommand = true) : ((call c).run m).Concludes preempts := by
  cases c with
  | start | shutdown => exact nomatch hends
  | isEnabled | phase => trivial
  | setEnabled enabled =>
    cases enabled with
    | false => exact nomatch hends
    | true => exact (((Machine.enable_spares hm).map Except.ok).map _).concludes
  | decide text => exact ((Machine.decide_handles hm text).map _).concludes
  | stop mac name => exact ((Machine.stopConnection_spares hm mac name).map _).concludes
  | player mac state code =>
    exact ((Machine.updatePlayer_handles hm mac state code).map _).concludes
  | backendDiscovery enabled =>
    have hpassed : (m.command (.setBackendDiscovery enabled)).Brief fun _ => True :=
      Run.brief_command.2 trivial
    exact ((hpassed.returning _).map _).concludes
  | report r =>
    apply Run.Concludes.returning
    cases r with
    | connectionRequest mac name => exact nomatch hc
    | launchRequest l reported =>
      cases reported with
      | false => exact nomatch hc
      | true => exact (Machine.acceptedLaunch_spares hm l).concludes
    | discoveryRestarted | networkStandbyChanged _ => trivial
    | powerModeChanged old new => exact nomatch hends
    | wifiStateChanged state =>
      apply Machine.wifiChanged_concludes hm
      rintro rfl
      exact nomatch hends

theorem alarm_concludes (hm : m.watchdogs.Sound) {a : Timer.Alarm Task}
    (ha : a ∈ m.watchdogs.timetable.alarms) (hends : (alarm a).endsWithCommand = true) :
    ((alarm a).run m).Concludes preempts := by
  have hstart : (m.alarmed a).watchdogs.Sound := hm.start a
  unfold run
  dsimp only
  split
  case isTrue => trivial
  case isFalse =>
    apply Run.Concludes.returning
    rw [Machine.ring]
    split
    case h_1 => exact (Machine.resumeDiscovery_spares hstart).concludes
    case h_2 kind htask =>
      cases kind with
      | connectionAccept => exact (Machine.connectionAcceptExpired_handles hm ha).concludes
      | radioConnect => exact (Machine.radioConnectExpired_spares hstart a.id).concludes
      | friendlyNameRetry => simp [endsWithCommand, htask] at hends

theorem run_concludes (hm : m.watchdogs.Sound) (ho : o.Possible m)
    (hends : o.endsWithCommand = true) :
    (o.run m).Concludes (o.requester?.isSome = true) := by
  by_cases hrequest : o.requester?.isSome = true
  · cases henabled : m.gate.enabled with
    | true =>
      obtain ⟨m₁, phase, mac, name, hm₁, -, hrun⟩ :=
        Machine.run_requester_of_enabled hrequest henabled
      have hwatchdogs : m₁.watchdogs = m.watchdogs := congrArg Watch.watchdogs hm₁
      rw [hrun]
      apply Run.Concludes.returning
      exact Machine.considerRequest_concludes (hwatchdogs ▸ hm) hrequest mac name
    | false =>
      rw [Machine.run_requester_of_disabled hrequest henabled]
      exact ((Run.brief_command (P := fun _ => True).2 trivial).returning _).concludes
  · rw [Option.not_isSome_iff_eq_none] at hrequest
    cases o with
    | call c => exact call_concludes hm hrequest hends
    | alarm a => exact alarm_concludes hm (List.mem_of_mem_filter ho) hends
    | elapse ms | settle => trivial

end Occurrence

namespace World

variable {w w' : World} {o : Occurrence} {c : Command} {ts : List Turn}

/-- The reply to the operation that is over after a turn, if one is. -/
def reply? (w : World) : Turn → Option Reply
  | .happen o => (o.run w.machine).reply?
  | .resume =>
    match w.waiting with
    | [] => none
    | next :: _ => (next w.machine).reply?

/-! ## Worlds on top of others -/

/-- A world in which other runs have been waiting for longer. -/
def above (w : World) (base : List (Machine → Run Reply)) : World :=
  ⟨w.machine, w.waiting ++ base⟩

section Above

variable (base : List (Machine → Run Reply))

theorem pause_above (r : Run Reply) (waiting : List (Machine → Run Reply)) :
    r.pause (waiting ++ base) = ((r.pause waiting).1, (r.pause waiting).2.above base) := by
  cases r <;> rfl

theorem turn_above {t : Turn} (ht : w.Possible t) :
    (w.above base).turn t = ((w.turn t).1, (w.turn t).2.above base) := by
  cases t with
  | happen o => exact pause_above base _ _
  | resume =>
    rcases w with ⟨m, _ | ⟨next, waiting⟩⟩
    · cases ht
    · exact pause_above base _ _

theorem possible_above {t : Turn} (ht : w.Possible t) : (w.above base).Possible t := by
  cases t with
  | happen o => exact ht
  | resume =>
    rcases w with ⟨m, _ | ⟨next, waiting⟩⟩
    · cases ht
    · rfl

/-- Runs that have been waiting for longer are left alone. -/
theorem turns_above (hts : w.AllPossible ts) :
    (w.above base).AllPossible ts ∧ (w.above base).turns ts = (w.turns ts).above base := by
  induction ts generalizing w with
  | nil => exact ⟨trivial, rfl⟩
  | cons t ts ih =>
    obtain ⟨hpossible, hturns⟩ := ih hts.2
    have hturn := congrArg Prod.snd (turn_above base hts.1)
    refine ⟨⟨possible_above base hts.1, ?_⟩, ?_⟩
    · rw [hturn]
      exact hpossible
    · show ((w.above base).turn t).2.turns ts = _
      rw [hturn]
      exact hturns

end Above

/-- Requests are made of a machine one after another, each with whatever is requested during its
own commands, and all of them come to their end. -/
structure Serves (m : Machine) (ts : List Turn) : Prop where
  possible : AllPossible { machine := m } ts
  complete : (turns { machine := m } ts).waiting = []

/-- Wherever the requests are made, they make the same of the machine. -/
theorem Serves.turns_eq (hts : Serves w.machine ts) : w.AllPossible ts ∧
    w.turns ts = ⟨(turns { machine := w.machine } ts).machine, w.waiting⟩ := by
  obtain ⟨hpossible, hturns⟩ := turns_above w.waiting hts.possible
  refine ⟨hpossible, hturns.trans ?_⟩
  rw [above, hts.complete]
  rfl

/-! ## Operations and their last commands -/

/-- The operation that began with an occurrence in one world has just issued a command in another
one. Any requests may have been made during its earlier commands. -/
inductive Issues (w : World) (o : Occurrence) : Command → World → Prop where
  | first {c : Command} (ho : o.Possible w.machine) (hc : (w.turn (.happen o)).1 = some c) :
      Issues w o c (w.turn (.happen o)).2
  | later {c c' : Command} {w' : World} {ts : List Turn} (h : Issues w o c w')
      (hts : Serves w'.machine ts) (hc : ((w'.turns ts).turn .resume).1 = some c') :
      Issues w o c' ((w'.turns ts).turn .resume).2

/-- The next command, when nobody interferes with the one before. -/
theorem Issues.next {c' : Command} (h : w.Issues o c w') (hc : (w'.turn .resume).1 = some c') :
    w.Issues o c' (w'.turn .resume).2 := by
  have hnone : Serves w'.machine [] := ⟨trivial, rfl⟩
  exact h.later hnone hc

/-- A run that stops at a command waits for it, with no more left to do than there may be. -/
theorem concludes_of_pause {P : Prop} {r : Run Reply} {waiting : List (Machine → Run Reply)}
    (hr : r.Concludes P) (hc : (r.pause waiting).1 = some c) :
    ∃ next, (r.pause waiting).2.waiting = next :: waiting ∧
      (Run.issue (r.pause waiting).2.machine c next).Concludes P := by
  cases r with
  | done m a => exact nomatch hc
  | issue m c₁ next =>
    obtain rfl : c₁ = c := Option.some.inj hc
    exact ⟨next, rfl, hr⟩

theorem Issues.waiting (hw : w.Reachable) (hends : o.endsWithCommand = true)
    (h : w.Issues o c w') : w'.Reachable ∧ ∃ next, w'.waiting = next :: w.waiting ∧
      (Run.issue w'.machine c next).Concludes (o.requester?.isSome = true) := by
  induction h with
  | first ho hc =>
    exact ⟨hw.turn _ ho, concludes_of_pause (o.run_concludes hw.sound ho hends) hc⟩
  | @later c c' w' ts h hts hc ih =>
    obtain ⟨hw', next, hwaiting, hconcludes⟩ := ih
    -- Whatever was requested meanwhile, the run that waits is the one that waited before.
    obtain ⟨hpossible, hturns⟩ := hts.turns_eq
    have hserved : (w'.turns ts).Reachable := hw'.turns hpossible
    rw [hturns, hwaiting] at hserved hc ⊢
    refine ⟨hserved.turn .resume rfl, concludes_of_pause ?_ hc⟩
    rcases hconcludes with ⟨a, hnext⟩ | ⟨-, -, hnext⟩
    · rw [hnext]
      trivial
    · exact (hnext _ hserved.sound).concludes

/-- Requests that are made during the last command of an operation might as well be made right
after the operation: its reply is the same, and so is all that becomes of the machine. Of the
commands of a request to connect or to launch, the flush of a preempted session is not the last. -/
theorem Reachable.nested_eq_later (hw : w.Reachable) (hends : o.endsWithCommand = true)
    (h : w.Issues o c w') (hc : c = .flushCurrentSession → o.requester? = none)
    (hts : Serves w'.machine ts) :
    let after := (w'.turn .resume).2
    (w'.turns ts).turn .resume = (none, after.turns ts) ∧ after.AllPossible ts ∧
      after.waiting = w.waiting ∧ (w'.turns ts).reply? .resume = w'.reply? .resume ∧
      (w'.reply? .resume).isSome = true := by
  obtain ⟨-, next, hwaiting, hconcludes⟩ := h.waiting hw hends
  obtain ⟨a, hnext⟩ : ∃ a, ∀ m, next m = .done m a := by
    rcases hconcludes with hlast | ⟨hrequest, hflush, -⟩
    · exact hlast
    · simp [hc hflush] at hrequest
  rcases w' with ⟨m, waiting⟩
  obtain rfl : waiting = next :: w.waiting := hwaiting
  have hresume : ∀ m', World.turn ⟨m', next :: w.waiting⟩ .resume = (none, ⟨m', w.waiting⟩) := by
    intro m'
    show (next m').pause w.waiting = _
    rw [hnext]
    rfl
  have hreply : ∀ m', World.reply? ⟨m', next :: w.waiting⟩ .resume = some a := by
    intro m'
    show (next m').reply? = _
    rw [hnext]
    rfl
  obtain ⟨-, hinside⟩ := hts.turns_eq
  obtain ⟨hpossible, hafter⟩ := Serves.turns_eq (w := ⟨m, w.waiting⟩) hts
  intro after
  have hdone : after = ⟨m, w.waiting⟩ := congrArg Prod.snd (hresume m)
  rw [hdone, hinside, hresume, hreply, hreply, hafter]
  exact ⟨rfl, hpossible, rfl, rfl, rfl⟩

/-- A second peer asks while the stream of the first one is rendered. It launches as soon as it is
accepted, and the player reports while its playback is begun. -/
theorem launch_inside_acceptance :
    ∃ (w w' : World) (o : Occurrence) (ts : List Turn), w.Reachable ∧
      o.requester? = some "bb" ∧ w.Issues o (.acceptClientConnection .accept) w' ∧
      (w'.turns ts).machine.phase = .playerLaunched ∧
      (w'.turns ts).turn .resume = (none, (w'.turn .resume).2.turns ts) := by
  let asks (mac name : String) : Occurrence := .call (.report (.connectionRequest mac name))
  let launches (mac name : String) : Occurrence :=
    .call (.report (.launchRequest ⟨.v4 ⟨10, 0, 0, 3⟩, mac, name, .v4 ⟨10, 0, 0, 1⟩⟩ true))
  let w := (fresh { autoAccept := true } none).turns
    [.happen (.call (.setEnabled true)), .resume, .happen (asks "aa" "A"), .resume,
      .happen (launches "aa" "A"), .resume]
  let w' := ((w.turn (.happen (asks "bb" "B"))).2.turn .resume).2
  let ts : List Turn :=
    [.happen (launches "bb" "B"), .happen (.call (.player "bb" "Playing" 0)), .resume]
  have hw : w.Reachable := (Reachable.fresh _ _).turns (by decide +kernel)
  have hflush : w.Issues (asks "bb" "B") .flushCurrentSession
      (w.turn (.happen (asks "bb" "B"))).2 := .first trivial (by decide +kernel)
  have haccept : w.Issues (asks "bb" "B") (.acceptClientConnection .accept) w' :=
    hflush.next (by decide +kernel)
  have hts : Serves w'.machine ts := ⟨by decide +kernel, by decide +kernel⟩
  have hlast := hw.nested_eq_later (o := asks "bb" "B") rfl haccept (fun h => nomatch h) hts
  exact ⟨w, w', _, ts, hw, rfl, haccept, by decide +kernel, hlast.1⟩

end World

end CastReceiver
