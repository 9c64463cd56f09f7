import CastReceiver.Proofs.Disabled

/-!
# Launches that overtake the end of a service

A disabling is refused while a peer plays, and ends every other session. But the session ends only
after discovery has been stopped, and a launch that is reported meanwhile is honoured although the
service is disabled already. A launch at any other time finds an enabled service, and without such a
launch no disabling ends a session that has come to the player.
-/
namespace CastReceiver

/-- The mark tells of a launch: it makes the player run, asks it to, or tells listeners to. -/
def Mark.launches : Mark → Bool
  | .changed c => c.target = .playerLaunched
  | .launch _ | .command (.beginPlayback _) => true
  | _ => false

theorem Mark.launches_of_isCalm {mark : Mark} (h : mark.isCalm = true) :
    mark.launches = false := by
  cases mark with
  | changed | launch => cases h
  | enabled => rfl
  | command c =>
    cases c with
    | beginPlayback => cases h
    | _ => rfl

/-- A peer launches that has asked before. -/
def Occurrence.IsLaunch (o : Occurrence) : Prop :=
  ∃ l, o = .call (.report (.launchRequest l true))

namespace Account

variable {o : Occurrence} {a₀ a b : Account}

/-- What has been written down since an account was `a₀`. -/
def since (a₀ a : Account) : List Mark :=
  a.log.drop a₀.log.length

theorem Adds.since {P : Mark → Prop} (h : a₀.Adds P a) : ∀ mark ∈ a₀.since a, P mark := by
  obtain ⟨news, hlog, hnews⟩ := h
  rw [Account.since, hlog, List.drop_left]
  exact hnews

/-- What a stretch of work does about launches that has set out from `a₀`: only a launch tells of
one or makes the player run, and it leaves the operator's wish alone. -/
structure Entitled (o : Occurrence) (a₀ a : Account) : Prop where
  marks : a₀.Adds (fun mark => mark.launches = true → o.IsLaunch) a
  phase : a.phase = .playerLaunched → a₀.phase = .playerLaunched ∨ o.IsLaunch
  enabled : o.IsLaunch → a.gate.enabled = a₀.gate.enabled

theorem Entitled.note (h : a₀.Entitled o a) {mark : Mark}
    (hmark : mark.launches = true → o.IsLaunch) : a₀.Entitled o (a.note mark) :=
  ⟨h.marks.note hmark, h.phase, h.enabled⟩

theorem Entitled.enter (h : a₀.Entitled o a) {target : Phase}
    (htarget : target = .playerLaunched → o.IsLaunch) : a₀.Entitled o (a.enter target) where
  marks := by
    refine h.marks.enter fun c hc hlaunches => htarget ?_
    rwa [Mark.launches, decide_eq_true_eq, hc] at hlaunches
  phase hphase := by
    rw [enter_phase] at hphase
    exact .inr (htarget hphase)
  enabled ho := by
    rw [enter_gate]
    exact h.enabled ho

theorem Entitled.withActive (h : a₀.Entitled o a) (active : Bool) :
    a₀.Entitled o { a with gate := { a.gate with active } } :=
  ⟨h.marks, h.phase, h.enabled⟩

theorem Entitled.deed (h : a₀.Entitled o a) (hd : Deed o a b) : a₀.Entitled o b := by
  cases hd with
  | enter hmay =>
    refine h.enter ?_
    rintro rfl
    exact hmay.elim
  | directLaunch =>
    exact (h.enter fun h => absurd h (by decide)).enter fun h => absurd h (by decide)
  | abort _ htarget =>
    refine (h.enter fun h => absurd h (by decide)).enter ?_
    rcases htarget with rfl | rfl <;> exact fun h => absurd h (by decide)
  | launch ho => exact (h.enter fun _ => ⟨_, ho⟩).note fun _ => ⟨_, ho⟩
  | @command c hmay =>
    refine h.note fun hlaunches => ?_
    cases c with
    | beginPlayback => exact hmay.elim
    | _ => cases hlaunches
  | startDiscovery =>
    exact startDiscovery_keeps (fun _ h => h.note fun h => absurd h (by decide))
      (fun _ => (h.withActive true).enter fun h => absurd h (by decide)) fun _ => h.withActive true
  | stopDiscovery =>
    exact stopDiscovery_keeps (fun _ h => h.note fun h => absurd h (by decide))
      (fun _ => (h.withActive false).enter fun h => absurd h (by decide))
      fun _ => h.withActive false
  | switchOn ho =>
    have hon : a₀.Entitled o { a with gate := { a.gate with enabled := true } } := by
      refine ⟨h.marks, h.phase, ?_⟩
      rintro ⟨l, rfl⟩
      exact ho.elim
    exact hon.note fun h => absurd h (by decide)
  | switchOff ho =>
    refine ⟨h.marks, h.phase, ?_⟩
    rintro ⟨l, rfl⟩
    cases ho
  | announceOff => exact h.note fun h => absurd h (by decide)
  | leave => exact (h.withActive false).note fun h => absurd h (by decide)
  | forget ho =>
    refine ⟨h.marks, fun hphase => ?_, ?_⟩
    · change Phase.idle = .playerLaunched at hphase
      exact absurd hphase (by decide)
    · rintro ⟨l, rfl⟩
      cases ho

end Account

namespace World

variable {w : World} {os : List Occurrence} {t : Turn} {ts : List Turn}

/-- What is written down in a turn. -/
def said (w : World) (t : Turn) : List Mark :=
  w.machine.account.since (w.turn t).2.machine.account

/-- A launch is honoured in a turn. -/
def Launches (w : World) (t : Turn) : Prop :=
  (∃ mark ∈ w.said t, mark.launches = true) ∨
    w.machine.phase ≠ .playerLaunched ∧ (w.turn t).2.machine.phase = .playerLaunched

instance (w : World) : DecidablePred w.Launches := fun _ => inferInstanceAs (Decidable (_ ∨ _))

/-- No launch is honoured while the service is being disabled. -/
def LaunchesApart (w : World) (os : List Occurrence) : List Turn → Prop
  | [] => True
  | t :: ts => (.call (.setEnabled false) ∈ t.works os → ¬w.Launches t) ∧
      (w.turn t).2.LaunchesApart (w.underway os t) ts

instance decidableLaunchesApart :
    (w : World) → (os : List Occurrence) → DecidablePred (w.LaunchesApart os)
  | _, _, [] => isTrue trivial
  | w, os, t :: ts =>
    have := decidableLaunchesApart (w.turn t).2 (w.underway os t) ts
    inferInstanceAs (Decidable ((.call (.setEnabled false) ∈ t.works os → ¬w.Launches t) ∧
      (w.turn t).2.LaunchesApart (w.underway os t) ts))

/-- A launch that is honoured is one that has been reported, and leaves the service as it was. -/
theorem Observed.isLaunch (hw : w.Observed os) (ht : w.Possible t) (hlaunches : w.Launches t) :
    ∃ o others, t.works os = o :: others ∧ o.IsLaunch ∧
      Deeds o w.machine.account (w.turn t).2.machine.account ∧
      (w.turn t).2.machine.gate.enabled = w.machine.gate.enabled := by
  obtain ⟨o, others, hworks, hdeeds⟩ := hw.deeds ht
  have hentitled : w.machine.account.Entitled o (w.turn t).2.machine.account :=
    hdeeds.keeps (fun _ _ h hd => h.deed hd) ⟨Account.adds_refl, .inl, fun _ => rfl⟩
  have ho : o.IsLaunch := by
    rcases hlaunches with ⟨mark, hmark, hlaunch⟩ | ⟨hbefore, hafter⟩
    · exact hentitled.marks.since mark hmark hlaunch
    · exact (hentitled.phase hafter).resolve_left hbefore
  exact ⟨o, others, hworks, ho, hdeeds, hentitled.enabled ho⟩

/-- A launch finds an enabled service, unless it comes while the service is being disabled. -/
theorem Observed.enabled_of_launches (hw : w.Observed os) (hreachable : w.Reachable)
    (ht : w.Possible t) (hlaunches : w.Launches t)
    (hapart : .call (.setEnabled false) ∉ os) :
    w.machine.gate.enabled = true ∧ (w.turn t).2.machine.gate.enabled = true := by
  obtain ⟨o, others, -, ⟨l, rfl⟩, hdeeds, hsame⟩ := hw.isLaunch ht hlaunches
  cases henabled : w.machine.gate.enabled with
  | true => exact ⟨rfl, hsame.trans henabled⟩
  | false =>
    have hidle : w.machine.phase = .idle := (hw.sober.idle henabled).resolve_right hapart
    have hrest := hreachable.atRest hw.unnamed henabled hidle
    have hdormant : w.machine.account.Dormant (w.turn t).2.machine.account :=
      hdeeds.keeps (fun _ _ ha h => ha.deed id h) (hrest.dormant henabled)
    rcases hlaunches with ⟨mark, hmark, hlaunch⟩ | ⟨-, hafter⟩
    · have hcalm := Mark.launches_of_isCalm (hdormant.calm.since mark hmark)
      exact absurd (hlaunch.symm.trans hcalm) (by decide)
    · exact absurd (hdormant.idle.symm.trans hafter) (by decide)

/-- A disabling that finds the player running is refused at once. -/
theorem turn_disable_of_launched (hphase : w.machine.phase = .playerLaunched) :
    w.turn (.happen (.call (.setEnabled false))) = (none, w) := by
  have hrefused : ∃ outcome, w.machine.disable = .done w.machine outcome := by
    rw [Machine.disable]
    split
    · exact ⟨_, rfl⟩
    · exact ⟨_, rfl⟩
  obtain ⟨outcome, hrefused⟩ := hrefused
  show ((w.machine.disable.map Reply.ofOutcome).pause w.waiting) = (none, w)
  rw [hrefused]
  rfl

theorem mem_works_of_mem_underway {o : Occurrence} (h : o ∈ w.underway os t) : o ∈ t.works os := by
  rw [underway] at h
  split at h
  · exact h
  · exact List.mem_of_mem_tail h

/-- While the service is being disabled the player does not run, if no launch is honoured. -/
theorem not_launched_turn
    (hnot : .call (.setEnabled false) ∈ os → w.machine.phase ≠ .playerLaunched)
    (hapart : .call (.setEnabled false) ∈ t.works os → ¬w.Launches t)
    (hmem : .call (.setEnabled false) ∈ w.underway os t) :
    (w.turn t).2.machine.phase ≠ .playerLaunched := by
  have hworks := mem_works_of_mem_underway hmem
  by_cases hphase : w.machine.phase = .playerLaunched
  · have hfresh : .call (.setEnabled false) ∉ os := fun h => hnot h hphase
    cases t with
    | resume => exact absurd hworks hfresh
    | happen o =>
      obtain rfl : .call (.setEnabled false) = o :=
        (List.mem_cons.1 hworks).resolve_right hfresh
      rw [underway, turn_disable_of_launched hphase] at hmem
      exact absurd hmem hfresh
  · exact fun hafter => hapart hworks (.inr ⟨hphase, hafter⟩)

theorem LaunchesApart.not_launched
    (hnot : .call (.setEnabled false) ∈ os → w.machine.phase ≠ .playerLaunched)
    (hapart : w.LaunchesApart os ts) (hmem : .call (.setEnabled false) ∈ w.underways os ts) :
    (w.turns ts).machine.phase ≠ .playerLaunched := by
  -- A disabling may also happen later on, when it finds the player running and is refused, so the
  -- phase is only known while one is under way.
  induction ts generalizing w os with
  | nil => exact hnot hmem
  | cons t ts ih => exact ih (not_launched_turn hnot hapart.1) hapart.2 hmem

/-- After any turns, a launch that is honoured finds an enabled service, unless it comes while the
service is being disabled. As long as none does, no disabling takes the session from a player that
runs. -/
theorem launches_enabled (settings : SessionSettings) (nameSource : Option NameSource)
    (hts : (fresh settings nameSource).AllPossible ts) :
    let w := (fresh settings nameSource).turns ts
    let os := (fresh settings nameSource).underways [] ts
    w.Possible t →
      (w.Launches t → .call (.setEnabled false) ∉ os →
        w.machine.gate.enabled = true ∧ (w.turn t).2.machine.gate.enabled = true) ∧
      ((fresh settings nameSource).LaunchesApart [] ts → ∀ others,
        t.works os = .call (.setEnabled false) :: others → w.machine.phase = .playerLaunched →
          (w.turn t).2.machine.phase = .playerLaunched) := by
  intro w os ht
  have hobserved : w.Observed os := (observed_fresh settings nameSource).turns hts
  have hreachable : w.Reachable := (Reachable.fresh settings nameSource).turns hts
  refine ⟨fun hlaunches hapart => hobserved.enabled_of_launches hreachable ht hlaunches hapart, ?_⟩
  intro hapart others hworks hphase
  cases t with
  | happen o =>
    obtain ⟨rfl, -⟩ := List.cons.inj hworks
    rw [turn_disable_of_launched hphase]
    exact hphase
  | resume =>
    have hmem : .call (.setEnabled false) ∈ os := by
      rw [show os = _ from hworks]
      exact List.mem_cons_self
    exact absurd hphase (hapart.not_launched nofun hmem)

/-- A peer is accepted. -/
def accepting : List Turn :=
  let call (c : Call) : Turn := .happen (.call c)
  [call (.setEnabled true), .resume, call (.report (.connectionRequest "aa" "A")),
    call (.decide "Accept"), .resume]

/-- The accepted peer launches. -/
def acceptedLaunches : Turn :=
  .happen (.call (.report (.launchRequest ⟨default, "aa", "A", default⟩ true)))

/-- An accepted peer launches, and the service cannot be disabled then. -/
theorem launches_enabled_of_accepted :
    ((fresh {} none).turns accepting).machine.gate.enabled = true ∧
      let playing := (fresh {} none).turns (accepting ++ [acceptedLaunches])
      playing.machine.phase = .playerLaunched ∧
        (playing.turn (.happen (.call (.setEnabled false)))).2.machine.phase = .playerLaunched := by
  have hpossible : (fresh {} none).AllPossible (accepting ++ [acceptedLaunches]) := by
    decide +kernel
  have haccepted : (fresh {} none).AllPossible accepting := by decide +kernel
  have hlaunches := (launches_enabled (t := acceptedLaunches) {} none haccepted
    (by decide +kernel)).1 (by decide +kernel) (by decide +kernel)
  have hplaying : ((fresh {} none).turns (accepting ++ [acceptedLaunches])).machine.phase =
      .playerLaunched := by decide +kernel
  have hrefused := (launches_enabled (t := .happen (.call (.setEnabled false))) {} none
    hpossible trivial).2 (by decide +kernel) _ rfl hplaying
  exact ⟨hlaunches.1, hplaying, hrefused⟩

/-- A service is disabled, and the accepted peer launches while discovery is being stopped: the
launch is honoured, and then its session ends. -/
theorem launched_while_disabled :
    (¬∀ (w : World) (t : Turn), w.Reachable → w.Possible t → w.Launches t →
      w.machine.gate.enabled = true) ∧
    ¬∀ (ts : List Turn) (t : Turn) (others : List Occurrence), (fresh {} none).AllPossible ts →
      ((fresh {} none).turns ts).Possible t →
      t.works ((fresh {} none).underways [] ts) = .call (.setEnabled false) :: others →
      ((fresh {} none).turns ts).machine.phase = .playerLaunched →
        (((fresh {} none).turns ts).turn t).2.machine.phase = .playerLaunched := by
  let ts := accepting ++ [.happen (.call (.setEnabled false))]
  constructor
  · intro h
    have hw : ((fresh {} none).turns ts).Reachable :=
      (Reachable.fresh {} none).turns (by decide +kernel)
    have henabled := h _ acceptedLaunches hw (by decide +kernel) (by decide +kernel)
    exact absurd henabled (by decide +kernel)
  · intro h
    have hkept := h (ts ++ [acceptedLaunches]) .resume [] (by decide +kernel) (by decide +kernel)
      (by decide +kernel) (by decide +kernel)
    exact absurd hkept (by decide +kernel)

end World

end CastReceiver
