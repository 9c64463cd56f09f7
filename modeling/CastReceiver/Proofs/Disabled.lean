import CastReceiver.Proofs.Conduct
import CastReceiver.Proofs.Discovery.Sleep
import CastReceiver.Proofs.Session.Seats

/-!
# A service that is disabled

A disabled service is at rest, unless disabling it is still under way, and what makes it busy again
is only that it is enabled. Until then its phase stays idle, nobody is negotiated with, and of the
commands only those go out that turn a peer away or pass something on.
-/
namespace CastReceiver

/-! ## How disabling and shutting down end -/

/-- These occurrences leave an idle phase behind, if they do anything. -/
def Occurrence.Closes (o : Occurrence) : Prop :=
  o = .call (.setEnabled false) ∨ o = .call .shutdown

/-- A disabling or a shutdown ends with an idle phase, unless it is over at once and has done
nothing. The flag tells its first stretch of work from the others. -/
def closing : Regime (Account × Bool) where
  view m := (m.account, false)
  opened _ m := (m.account, true)
  good _ := True
  allows o s c t := o.Closes → c = none → t.1.phase = .idle ∨ s.2 = true ∧ t.1 = s.1

theorem Run.obeys_of_forall {σ α : Type} {d : Discipline σ} {post : σ → Machine → α → Prop}
    (hallows : ∀ s c t, d.allows s (some c) t) (hpost : ∀ s m a, post s m a) (s : σ)
    (r : Run α) : r.Obeys d post s := by
  induction r generalizing s with
  | done m a => exact hpost s m a
  | issue m c next ih => exact ⟨hallows s c _, fun m' _ => ih m' _⟩

namespace Machine

variable {o : Occurrence} (m : Machine)

theorem disable_closes : m.disable.Completes (closing.under o) (m.account, true) := by
  rw [disable]
  split
  · exact fun _ _ => .inr ⟨rfl, rfl⟩
  · split
    · exact fun _ _ => .inr ⟨rfl, rfl⟩
    · refine Run.obeys_andThen.2 (Run.obeys_of_forall (fun _ _ _ _ h => ?_) ?_ _ _)
      · exact absurd h (Option.some_ne_none _)
      · exact fun _ _ _ _ _ => .inl (enter_phase ..)

theorem shutdown_closes : m.shutdown.Completes (closing.under o) (m.account, true) := by
  unfold shutdown
  dsimp only
  split
  · exact fun _ _ => .inl rfl
  · refine Run.obeys_andThen.2 (Run.obeys_of_forall (fun _ _ _ _ h => ?_) ?_ _ _)
    · exact absurd h (Option.some_ne_none _)
    · exact fun _ _ _ _ _ => .inl rfl

end Machine

theorem closing_governs : closing.Governs where
  fresh _ _ := trivial
  kept _ _ := trivial
  keptOpened _ _ := trivial
  runs m o _ _ := by
    by_cases ho : o.Closes
    · rcases ho with rfl | rfl
      · exact Run.completes_map.2 m.disable_closes
      · exact Run.completes_returning.2 m.shutdown_closes
    · exact Run.obeys_of_forall (fun _ _ _ h => absurd h ho) (fun _ _ _ h => absurd h ho) _ _

/-! ## What an account shows meanwhile -/

namespace Account

variable {o : Occurrence} {a b : Account} {os : List Occurrence}

/-- A disabled service that is idle enters no other phase. -/
theorem eq_idle_of_mayEnter {target : Phase} (h : a.MayEnter target)
    (henabled : a.gate.enabled = false) (hidle : a.phase = .idle) : target = .idle := by
  cases target <;> simp_all [MayEnter, Phase.awaitsRestart, Phase.isUnengaged]

/-- Only while it is being disabled is a disabled service not idle, and only during a shutdown is
a session advertised that cannot be discovered. -/
structure Sober (os : List Occurrence) (a : Account) : Prop where
  idle : a.gate.enabled = false → a.phase = .idle ∨ .call (.setEnabled false) ∈ os
  discoverable : a.phase = .discoverable → a.gate.active = true ∨ .call .shutdown ∈ os

theorem Sober.mono {os' : List Occurrence} (ha : a.Sober os) (h : os ⊆ os') : a.Sober os' where
  idle henabled := (ha.idle henabled).imp_right fun ho => h ho
  discoverable hphase := (ha.discoverable hphase).imp_right fun ho => h ho

theorem Sober.enter (ha : a.Sober os) {target : Phase}
    (hidle : a.gate.enabled = false → a.phase = .idle → target = .idle)
    (hdiscoverable : target = .discoverable → a.gate.active = true) :
    (a.enter target).Sober os where
  idle henabled := by
    rw [enter_gate] at henabled
    rw [enter_phase]
    exact (ha.idle henabled).imp_left (hidle henabled)
  discoverable hphase := by
    rw [enter_phase] at hphase
    rw [enter_gate]
    exact .inl (hdiscoverable hphase)

/-- What is written down does not count. -/
theorem Sober.note (ha : a.Sober os) (mark : Mark) : (a.note mark).Sober os :=
  ⟨ha.idle, ha.discoverable⟩

/-- A stretch of work for an occurrence that is under way keeps an account sober. -/
theorem Sober.deed (ha : a.Sober os) (hmem : o ∈ os) (h : Deed o a b) : b.Sober os := by
  have hsingle (target : Phase) (htarget : target ≠ .discoverable)
      (hidle : a.gate.enabled = false → a.phase ≠ .idle) : (a.enter target).Sober os :=
    ha.enter (fun h h' => absurd h' (hidle h)) fun h => absurd h htarget
  cases h with
  | @enter target h =>
    refine ha.enter (eq_idle_of_mayEnter h) ?_
    rintro rfl
    exact h.2
  | directLaunch henabled =>
    have hdisabled : a.gate.enabled ≠ false := Bool.ne_false_iff.2 henabled
    have hrequested := hsingle .directLaunchRequested (by decide)
      fun h => absurd h hdisabled
    refine hrequested.enter (fun h => ?_) fun h => absurd h (by decide)
    rw [enter_gate] at h
    exact absurd h hdisabled
  | abort h htarget =>
    have haborting := hsingle .abortingConnection (by decide) fun _ => by
      rw [h]
      decide
    refine haborting.enter (fun _ hidle => ?_) ?_
    · rw [enter_phase] at hidle
      exact absurd hidle (by decide)
    · rcases htarget with rfl | rfl <;> exact fun h => absurd h (by decide)
  | launch _ h =>
    refine (hsingle .playerLaunched (by decide) fun _ => ?_).note _
    rw [h]
    decide
  | command => exact ha.note _
  | startDiscovery henabled =>
    have hdisabled : a.gate.enabled ≠ false := Bool.ne_false_iff.2 henabled
    have hstarted : { a with gate := { a.gate with active := true } }.Sober os :=
      ⟨fun h => absurd h hdisabled, fun _ => .inl rfl⟩
    exact startDiscovery_keeps (fun _ h => h.note _)
      (fun _ => hstarted.enter (fun h => absurd h hdisabled) fun _ => rfl) fun _ => hstarted
  | stopDiscovery =>
    refine stopDiscovery_keeps (fun _ h => h.note _) (fun _ => ?_)
      fun hbusy => ⟨ha.idle, fun hdiscoverable => absurd hdiscoverable hbusy⟩
    refine ⟨fun _ => .inl (enter_phase ..), fun hphase => ?_⟩
    rw [enter_phase] at hphase
    exact absurd hphase (by decide)
  | switchOn => exact ⟨fun h => absurd h.symm Bool.false_ne_true, ha.discoverable⟩
  | switchOff ho => exact ⟨fun _ => .inr (ho ▸ hmem), ha.discoverable⟩
  | announceOff => exact ha.note _
  | leave ho => exact ⟨ha.idle, fun _ => .inr (ho ▸ hmem)⟩
  | forget =>
    refine ⟨fun _ => .inl rfl, fun hphase => ?_⟩
    change Phase.idle = .discoverable at hphase
    exact absurd hphase (by decide)

end Account

/-! ## What else is gone when nobody is engaged -/

/-- Discovery does not run while an attempt to connect to a network is going on. -/
theorem Conditions.Step.unobstructed {c c' : Conditions} (h : c.Step c')
    (hc : c.gate.active = true → c.radio.connecting = false) :
    c'.gate.active = true → c'.radio.connecting = false := by
  cases h with
  | enter | timers | enable | wake | ignore => exact hc
  | activate _ hfree => exact fun _ => hfree
  | disable | suppress | stop | reset => exact nofun
  | @sleep _ stop _ _ =>
    cases stop with
    | true => exact nofun
    | false => exact hc
  | radio h => exact fun hactive => h (hc hactive)

namespace World

variable {w : World} {os : List Occurrence} {t : Turn} {ts : List Turn}

/-- A world, and the occurrences under way in it, with all that is known of both. -/
structure Observed (w : World) (os : List Occurrence) : Prop where
  conduct : conduct.Attended w os
  closing : closing.Attended w os
  sober : w.machine.account.Sober os
  unnamed : w.machine.account.Unnamed

theorem observed_fresh (settings : SessionSettings) (nameSource : Option NameSource) :
    (fresh settings nameSource).Observed [] where
  conduct := Regime.attended_fresh conduct_governs settings nameSource
  closing := Regime.attended_fresh closing_governs settings nameSource
  sober := ⟨fun _ => .inl rfl, nofun⟩
  unnamed _ := rfl

/-- The deeds of a turn, and the occurrence that they are done for. -/
theorem Observed.deeds (hw : w.Observed os) (ht : w.Possible t) :
    ∃ o others, t.works os = o :: others ∧
      Deeds o w.machine.account (w.turn t).2.machine.account := by
  obtain ⟨-, o, others, hworks, hdeeds⟩ := Regime.turn_attended conduct_governs hw.conduct ht
  cases t <;> exact ⟨o, others, hworks, hdeeds⟩

theorem Observed.turn (hw : w.Observed os) (ht : w.Possible t) :
    (w.turn t).2.Observed (w.underway os t) := by
  obtain ⟨hconduct, -⟩ := Regime.turn_attended conduct_governs hw.conduct ht
  obtain ⟨hclosing, o, others, hworks, hcloses⟩ :=
    Regime.turn_attended closing_governs hw.closing ht
  obtain ⟨o', others', hworks', hdeeds⟩ := hw.deeds ht
  obtain ⟨rfl, rfl⟩ := List.cons.inj (hworks.symm.trans hworks')
  refine ⟨hconduct, hclosing, ?_, hdeeds.keeps (fun _ _ ha h => ha.deed h) hw.unnamed⟩
  have hwork : os ⊆ o :: others := by
    rw [← hworks]
    cases t with
    | happen => exact List.subset_cons_self ..
    | resume => exact List.Subset.refl _
  have hafter : (w.turn t).2.machine.account.Sober (o :: others) :=
    hdeeds.keeps (fun _ _ ha h => ha.deed List.mem_cons_self h) (hw.sober.mono hwork)
  rw [underway, hworks, List.tail_cons]
  split
  case isTrue => exact hafter
  case isFalse hover =>
    -- The occurrence is over. If it was to close the session it has done so, or was over at once;
    -- any other one has not been an excuse.
    by_cases ho : o.Closes
    · rcases hcloses ho (Option.not_isSome_iff_eq_none.1 hover) with hidle | ⟨hfirst, hsame⟩
      · exact ⟨fun _ => .inl hidle, fun hphase => absurd (hidle.symm.trans hphase) (by decide)⟩
      · cases t with
        | happen o' =>
          obtain ⟨-, rfl⟩ := List.cons.inj hworks
          have hunchanged : (w.turn (.happen o')).2.machine.account = w.machine.account := hsame
          rw [hunchanged]
          exact hw.sober
        | resume => exact absurd hfirst Bool.false_ne_true
    · refine ⟨fun h => (hafter.idle h).imp_right fun hmem => ?_,
        fun h => (hafter.discoverable h).imp_right fun hmem => ?_⟩
      · exact List.mem_of_ne_of_mem (fun h => ho (.inl h.symm)) hmem
      · exact List.mem_of_ne_of_mem (fun h => ho (.inr h.symm)) hmem

theorem Observed.turns (hw : w.Observed os) (hts : w.AllPossible ts) :
    (w.turns ts).Observed (w.underways os ts) := by
  induction ts generalizing w os with
  | nil => exact hw
  | cons t ts ih => exact ih (hw.turn hts.1) hts.2

theorem Reachable.unobstructed (hw : w.Reachable) :
    w.machine.gate.active = true → w.machine.radio.connecting = false := by
  induction hw with
  | fresh => exact nofun
  | @turn w hw t ht ih =>
    refine (hw.steps ht).keeps (fun _ _ hc h => h.unobstructed hc) ?_
    cases t with
    | resume => exact ih
    | happen o =>
      show (o.found w.machine).gate.active = true → (o.found w.machine).radio.connecting = false
      unfold Occurrence.found
      split <;> exact ih

end World

/-! ## Nothing starts by itself -/

/-- A command on which neither discovery nor the session depends. -/
def Command.isCalm : Command → Bool
  | .acceptClientConnection .reject | .flushCurrentSession | .setBackendDiscovery _
  | .setFriendlyName _ => true
  | _ => false

/-- Nothing has happened to the session. -/
def Mark.isCalm : Mark → Bool
  | .command c => c.isCalm
  | .enabled _ => true
  | .changed _ | .launch _ => false

namespace Account

variable {o : Occurrence} {a₀ a b : Account}

theorem isCalm_of_mayIssue {c : Command} (h : a.MayIssue c) (hidle : a.phase = .idle) :
    c.isCalm = true := by
  cases c with
  | restartDiscovery | stopDiscovery | beginPlayback => cases h
  | acceptClientConnection d =>
    cases d with
    | accept => exact absurd (hidle.symm.trans h) (by decide)
    | reject => rfl
  | switchLaunchRequestContext | restartSessionDiscovery =>
    exact absurd (hidle.symm.trans h) (by decide)
  | flushCurrentSession | setBackendDiscovery | setFriendlyName => rfl

/-- Since an account was `a₀`, the service has been disabled and idle, and nothing was written down
that does not go with it. -/
structure Dormant (a₀ a : Account) : Prop where
  settings : a.settings = a₀.settings
  gate : a.gate = {}
  idle : a.phase = .idle
  calm : a₀.Adds (fun mark => mark.isCalm = true) a

theorem Dormant.note (h : a₀.Dormant a) {mark : Mark} (hmark : mark.isCalm = true) :
    a₀.Dormant (a.note mark) :=
  ⟨h.settings, h.gate, h.idle, h.calm.note hmark⟩

theorem Dormant.enter_idle (h : a₀.Dormant a) : a₀.Dormant (a.enter .idle) where
  settings := (enter_settings ..).trans h.settings
  gate := (enter_gate ..).trans h.gate
  idle := enter_phase ..
  calm := by
    rw [Adds, enter_log, if_pos (by rw [h.idle]; decide)]
    exact h.calm

/-- Only what enables the service ends its rest. -/
theorem Dormant.deed (ha : a₀.Dormant a) (ho : ¬o.Enables a₀.settings) (h : Deed o a b) :
    a₀.Dormant b := by
  have henabled : a.gate.enabled = false := congrArg Gate.enabled ha.gate
  have hactive : a.gate.active = false := congrArg Gate.active ha.gate
  have hidle := ha.idle
  cases h with
  | enter h =>
    obtain rfl := eq_idle_of_mayEnter h henabled hidle
    exact ha.enter_idle
  | directLaunch h | startDiscovery h => exact absurd (h.symm.trans henabled) (by decide)
  | abort h | launch _ h => exact absurd (h.symm.trans hidle) (by decide)
  | command h => exact ha.note (isCalm_of_mayIssue h hidle)
  | stopDiscovery h | leave _ h => exact absurd (h.symm.trans hactive) (by decide)
  | switchOn h => exact absurd (ha.settings ▸ h) ho
  | switchOff => exact ⟨ha.settings, by rw [ha.gate], hidle, ha.calm⟩
  | announceOff => exact ha.note rfl
  | forget => exact ⟨ha.settings, rfl, rfl, ha.calm⟩

end Account

/-- Nobody is engaged with the machine, and it is not looking for anybody. -/
structure Machine.AtRest (m : Machine) : Prop where
  idle : m.session.phase = .idle
  unnamed : m.session.id = none
  pending : m.session.pending = none
  active : m.session.active = none
  preempting : m.session.preempting = none
  inactive : m.gate.active = false

theorem Machine.AtRest.dormant {m : Machine} (h : m.AtRest) (henabled : m.gate.enabled = false) :
    m.account.Dormant m.account := by
  have hgate : m.gate = {} := by
    have hinactive := h.inactive
    generalize m.gate = gate at henabled hinactive ⊢
    obtain ⟨enabled, active⟩ := gate
    subst henabled hinactive
    rfl
  exact ⟨rfl, hgate, h.idle, Account.adds_refl⟩

namespace World

variable {w : World} {os : List Occurrence} {ts : List Turn}

theorem Reachable.atRest (hw : w.Reachable) (hunnamed : w.machine.account.Unnamed)
    (henabled : w.machine.gate.enabled = false) (hidle : w.machine.phase = .idle) :
    w.machine.AtRest := by
  have hkept : w.machine.parties.Kept := Discipline.reachable_good shifting_governs hw
  have hforgotten := hw.forgotten (show w.machine.phase.forgetsPeers = true by rw [hidle]; rfl)
  refine ⟨hidle, hunnamed ?_, ?_, hforgotten.1, hforgotten.2, ?_⟩
  · show w.machine.phase.isUnengaged = true
    rw [hidle]
    rfl
  · cases hpending : w.machine.session.pending with
    | none => rfl
    | some p =>
      rcases hkept.isSome_iff.1 (congrArg Option.isSome hpending) with hphase | hphase <;>
        exact absurd (hidle.symm.trans hphase) (by decide)
  · cases hactive : w.machine.gate.active with
    | false => rfl
    | true => exact absurd (henabled.symm.trans (hw.wanted hactive)) (by decide)

/-- As long as nothing enables it, a disabled service stays as it is. -/
theorem Observed.dormant_turns (hw : w.Observed []) (hrest : w.machine.AtRest)
    (henabled : w.machine.gate.enabled = false) (hts : w.AllPossible ts)
    (hnever : ∀ o, .happen o ∈ ts → ¬o.Enables w.machine.settings) :
    w.machine.account.Dormant (w.turns ts).machine.account :=
  Regime.turns_keep conduct_governs (P := fun o => ¬o.Enables w.machine.settings)
    (fun _ _ => rfl)
    (fun o _ _ _ ho _ h hs => h.keeps (fun _ _ ha h => ha.deed (o := o) ho h) hs)
    hw.conduct nofun hts hnever (hrest.dormant henabled)

/-- After any turns, a disabled service is at rest unless disabling it is still under way, and
stays idle and silent until something enables it. Discovery runs only if it is wanted and nothing
obstructs it, and it does run if a session is advertised, unless a shutdown is under way. Nothing is
under way between operations. -/
theorem disabled_at_rest (settings : SessionSettings) (nameSource : Option NameSource)
    (hts : (fresh settings nameSource).AllPossible ts) :
    let w := (fresh settings nameSource).turns ts
    let os := (fresh settings nameSource).underways [] ts
    (w.waiting = [] → os = []) ∧
    (w.machine.gate.enabled = false → w.machine.AtRest ∨ .call (.setEnabled false) ∈ os) ∧
    (w.machine.gate.active = true →
      w.machine.gate.enabled = true ∧ w.machine.radio.connecting = false) ∧
    (w.machine.phase = .discoverable → w.machine.gate.active = true ∨ .call .shutdown ∈ os) ∧
    (w.waiting = [] → w.machine.gate.enabled = false → ∀ later, w.AllPossible later →
      (∀ o, .happen o ∈ later → ¬o.Enables w.machine.settings) →
      (w.turns later).machine.phase = .idle ∧
        w.machine.account.Adds (fun mark => mark.isCalm = true) (w.turns later).machine.account) := by
  intro w os
  have hreachable : w.Reachable := (Reachable.fresh settings nameSource).turns hts
  have hobserved : w.Observed os := (observed_fresh settings nameSource).turns hts
  have hnone (hover : w.waiting = []) : os = [] := hobserved.conduct.eq_nil hover
  have hrests (henabled : w.machine.gate.enabled = false) :
      w.machine.AtRest ∨ .call (.setEnabled false) ∈ os :=
    (hobserved.sober.idle henabled).imp_left (hreachable.atRest hobserved.unnamed henabled)
  refine ⟨hnone, hrests, fun hactive => ⟨hreachable.wanted hactive,
    hreachable.unobstructed hactive⟩, hobserved.sober.discoverable, ?_⟩
  intro hover henabled later hlater hnever
  have hos : os = [] := hnone hover
  rw [hos] at hobserved hrests
  have hrest : w.machine.AtRest := (hrests henabled).resolve_right nofun
  have hdormant := hobserved.dormant_turns hrest henabled hlater hnever
  exact ⟨hdormant.idle, hdormant.calm⟩

/-- A service is disabled while a peer waits for a decision. The decision comes too late, another
peer asks in vain, and so does a launch of the first one. -/
theorem at_rest_after_late_decision :
    ∃ w : World, w.Reachable ∧ w.machine.AtRest ∧
      let later : List Turn := [.happen (.call (.decide "Accept")),
        .happen (.call (.report (.connectionRequest "bb" "B"))), .resume,
        .happen (.call (.report (.launchRequest
          ⟨.v4 ⟨10, 0, 0, 2⟩, "aa", "A", .v4 ⟨10, 0, 0, 1⟩⟩ true)))]
      (w.turns later).machine.phase = .idle ∧
        w.machine.account.Adds (fun mark => mark.isCalm = true)
          (w.turns later).machine.account := by
  let ts : List Turn := [.happen (.call (.setEnabled true)), .resume,
    .happen (.call (.report (.connectionRequest "aa" "A"))),
    .happen (.call (.setEnabled false)), .resume]
  have hts : (fresh {} none).AllPossible ts := by decide +kernel
  obtain ⟨hnone, hrests, -, -, hstays⟩ := disabled_at_rest {} none hts
  have hrest := (hrests (by decide +kernel)).resolve_right (by rw [hnone rfl]; exact nofun)
  refine ⟨_, (Reachable.fresh {} none).turns hts, hrest, ?_⟩
  refine hstays rfl (by decide +kernel) _ (by decide +kernel) fun o ho => ?_
  simp only [List.mem_cons, Turn.happen.injEq, reduceCtorEq, false_or, List.not_mem_nil,
    or_false] at ho
  rcases ho with rfl | rfl | rfl <;> exact id

end World

end CastReceiver
