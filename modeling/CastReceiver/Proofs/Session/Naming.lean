import CastReceiver.Proofs.Session.Bids
import CastReceiver.Proofs.Session.Operations
import CastReceiver.Proofs.Session.Trace
import CastReceiver.Proofs.Tally

/-!
# Names of attempts

An attempt to cast has a name from the moment its bid is taken in, and no two attempts share one.
Besides, a name can only be lost: it goes with every change of the phase that is announced, until
the session ends or the next bid is taken in, and then it is never seen again. This holds whoever
interferes while commands are carried out.
-/
namespace CastReceiver

theorem SessionId.nth_injective : Function.Injective SessionId.nth := by
  intro k n h
  have hdigits : Nat.toDigits 10 k = Nat.toDigits 10 n := by
    simpa [nth, Text.decimal, Text.digits, String.ofList_inj] using h
  rw [← Nat.ofDigitChars_ten_toDigits (n := k), hdigits, Nat.ofDigitChars_ten_toDigits]

/-! ## The register of names -/

/-- Between two occurrences of a name there is no other, nor is there none. -/
def Contiguous (names : List (Option SessionId)) : Prop :=
  ∀ (x : SessionId) (before between after : List (Option SessionId)),
    names = before ++ some x :: (between ++ some x :: after) → ∀ y ∈ between, y = some x

/-- A name is added that is new, or that comes last already. -/
theorem Contiguous.concat {names : List (Option SessionId)} (h : Contiguous names)
    {y : Option SessionId} (hy : ∀ x, y = some x → some x ∈ names → names.getLast? = some (some x)) :
    Contiguous (names ++ [y]) := by
  intro x before between after hsplit
  rcases List.eq_nil_or_concat after with rfl | ⟨after, z, rfl⟩
  · rw [← List.cons_append, ← List.append_assoc] at hsplit
    obtain ⟨rfl, hlast⟩ := List.append_inj' hsplit rfl
    obtain rfl := List.singleton_inj.1 hlast
    rcases List.eq_nil_or_concat between with rfl | ⟨between, z, rfl⟩
    · exact nofun
    · -- The name comes last already, where the part between ends.
      have hz : z = some x := by
        have hlatest := hy x rfl (by simp)
        rwa [List.concat_eq_append, ← List.cons_append, ← List.append_assoc,
          List.getLast?_concat, Option.some_inj] at hlatest
      subst hz
      intro z hz
      rw [List.concat_eq_append, List.mem_append, List.mem_singleton] at hz
      rcases hz with hz | rfl
      · exact h x before between [] (by simp) z hz
      · rfl
  · have hsplit' : names ++ [y] =
        (before ++ some x :: (between ++ some x :: after)) ++ [z] := by
      simpa [List.concat_eq_append] using hsplit
    exact h x before between after (List.append_inj' hsplit' rfl).1

/-- What there is to say of names: the one that is in use, how many have been given, and those that
went with the changes of the phase. -/
structure Register where
  id : Option SessionId
  attempts : Nat
  names : List (Option SessionId)

namespace Register

/-- All that can happen to names at a time. -/
inductive Step (r : Register) : Register → Prop where
  | stay : Step r r
  /-- An attempt begins. -/
  | begin : Step r ⟨some (.nth r.attempts), r.attempts + 1,
      r.names ++ [some (.nth r.attempts)]⟩
  /-- A change is announced within the attempt. -/
  | go : Step r { r with names := r.names ++ [r.id] }
  | clear : Step r { r with id := none, names := r.names ++ [none] }
  /-- The name is lost without a word. -/
  | forget : Step r { r with id := none }

/-- Names are given one after another, and stay in use together. -/
structure Orderly (r : Register) : Prop where
  given : ∀ x, some x ∈ r.names → ∃ k < r.attempts, x = .nth k
  /-- The name in use is the last one that was announced. -/
  latest : ∀ x, r.id = some x → r.names.getLast? = some (some x)
  contiguous : Contiguous r.names

/-- A name that was given is not in use any more. -/
structure Retired (x : SessionId) (r : Register) : Prop where
  given : ∃ k < r.attempts, x = .nth k
  unused : r.id ≠ some x

variable {r r' : Register} {x : SessionId}

/-- The next name has not been given before. -/
theorem Orderly.nth_not_mem (h : r.Orderly) : some (.nth r.attempts) ∉ r.names := by
  intro hmem
  obtain ⟨k, hk, heq⟩ := h.given _ hmem
  exact absurd (SessionId.nth_injective heq) (by omega)

theorem Step.orderly (h : Step r r') (hr : r.Orderly) : r'.Orderly := by
  obtain ⟨hgiven, hlatest, hcontiguous⟩ := hr
  cases h with
  | stay => exact ⟨hgiven, hlatest, hcontiguous⟩
  | begin =>
    refine ⟨fun x hx => ?_, fun x hx => ?_, hcontiguous.concat fun x hx hmem => ?_⟩
    · rcases List.mem_append.1 hx with hx | hx
      · obtain ⟨k, hk, rfl⟩ := hgiven x hx
        exact ⟨k, Nat.lt_succ_of_lt hk, rfl⟩
      · exact ⟨r.attempts, Nat.lt_succ_self _, Option.some.inj (List.mem_singleton.1 hx)⟩
    · rw [← hx, List.getLast?_concat]
    · rw [← hx] at hmem
      exact absurd hmem (Orderly.nth_not_mem ⟨hgiven, hlatest, hcontiguous⟩)
  | go =>
    refine ⟨fun x hx => ?_, fun x hx => ?_, hcontiguous.concat fun x hx _ => hlatest x hx⟩
    · rcases List.mem_append.1 hx with hx | hx
      · exact hgiven x hx
      · have hlast := hlatest x (List.mem_singleton.1 hx).symm
        exact hgiven x (List.mem_of_getLast? hlast)
    · exact List.getLast?_concat.trans (congrArg some hx)
  | clear =>
    refine ⟨fun x hx => ?_, nofun, hcontiguous.concat nofun⟩
    rcases List.mem_append.1 hx with hx | hx
    · exact hgiven x hx
    · exact nomatch List.mem_singleton.1 hx
  | forget => exact ⟨hgiven, nofun, hcontiguous⟩

/-- Names that are added are in use when they are. -/
theorem Step.names_eq (h : Step r r') : r'.names = r.names ∨ r'.names = r.names ++ [r'.id] := by
  cases h with
  | stay | forget => exact .inl rfl
  | begin | go | clear => exact .inr rfl

/-- What holds of the names added before and of the name in use now, holds of all that are added. -/
theorem Step.added {before : Register} {P : Option SessionId → Prop} (h : Step r r')
    (hadded : ∃ later, r.names = before.names ++ later ∧ ∀ y ∈ later, P y) (hid : P r'.id) :
    ∃ later, r'.names = before.names ++ later ∧ ∀ y ∈ later, P y := by
  obtain ⟨later, hnames, hlater⟩ := hadded
  rcases h.names_eq with hnames' | hnames'
  · exact ⟨later, hnames'.trans hnames, hlater⟩
  · refine ⟨later ++ [r'.id], by rw [hnames', hnames, List.append_assoc], fun y hy => ?_⟩
    rcases List.mem_append.1 hy with hy | hy
    · exact hlater y hy
    · rw [List.mem_singleton.1 hy]
      exact hid

theorem Step.retired (h : Step r r') (hr : r.Retired x) : r'.Retired x := by
  obtain ⟨⟨k, hk, rfl⟩, hunused⟩ := hr
  cases h with
  | stay | go => exact ⟨⟨k, hk, rfl⟩, hunused⟩
  | begin =>
    refine ⟨⟨k, Nat.lt_succ_of_lt hk, rfl⟩, fun h => ?_⟩
    exact absurd (SessionId.nth_injective (Option.some.inj h)) (by omega)
  | clear | forget => exact ⟨⟨k, hk, rfl⟩, nofun⟩

/-- A step that begins no attempt. -/
theorem Step.id_eq_or (h : Step r r') :
    r.attempts ≤ r'.attempts ∧ (r'.attempts = r.attempts → r'.id = r.id ∨ r'.id = none) := by
  cases h with
  | stay | go => exact ⟨Nat.le_refl _, fun _ => .inl rfl⟩
  | begin => exact ⟨Nat.le_succ _, fun h => absurd h (Nat.succ_ne_self _)⟩
  | clear | forget => exact ⟨Nat.le_refl _, fun _ => .inr rfl⟩

/-- Several steps, one after another. -/
def Steps : Register → Register → Prop :=
  Relation.ReflTransGen Step

theorem Steps.orderly (h : Steps r r') (hr : r.Orderly) : r'.Orderly := by
  induction h with
  | refl => exact hr
  | tail _ hstep ih => exact hstep.orderly ih

/-- A name that is not in use any more is never seen again. -/
theorem Steps.retired (h : Steps r r') (hr : r.Retired x) :
    r'.Retired x ∧ ∃ later, r'.names = r.names ++ later ∧ ∀ y ∈ later, y ≠ some x := by
  induction h with
  | refl => exact ⟨hr, [], (List.append_nil _).symm, nofun⟩
  | tail _ hstep ih =>
    obtain ⟨hretired, hadded⟩ := ih
    have hretired' := hstep.retired hretired
    exact ⟨hretired', hstep.added hadded hretired'.unused⟩

/-- While no attempt begins, a name is kept until it is lost. -/
theorem Steps.id_eq_or (h : Steps r r') :
    r.attempts ≤ r'.attempts ∧ (r'.attempts = r.attempts → (r'.id = r.id ∨ r'.id = none) ∧
      ∃ later, r'.names = r.names ++ later ∧ ∀ y ∈ later, y = r.id ∨ y = none) := by
  induction h with
  | refl => exact ⟨Nat.le_refl _, fun _ => ⟨.inl rfl, [], (List.append_nil _).symm, nofun⟩⟩
  | @tail s t _ hstep ih =>
    obtain ⟨hle, ih⟩ := ih
    obtain ⟨hle', hid'⟩ := hstep.id_eq_or
    refine ⟨Nat.le_trans hle hle', fun hsame => ?_⟩
    have hboth : s.attempts = r.attempts ∧ t.attempts = s.attempts := by omega
    obtain ⟨hid, hadded⟩ := ih hboth.1
    have hid'' : t.id = r.id ∨ t.id = none := by
      rcases hid' hboth.2 with h | h
      · rwa [h]
      · exact .inr h
    exact ⟨hid'', hstep.added hadded hid''⟩

end Register

/-! ## The register of an account -/

namespace Account

variable {o : Occurrence} {a b : Account}

/-- The names that went with the changes of the phase. -/
def names (a : Account) : List (Option SessionId) :=
  a.changes.map Change.id

def register (a : Account) : Register where
  id := a.id
  attempts := a.attempts
  names := a.names

theorem register_note {mark : Mark} (hmark : mark.change? = none) :
    (a.note mark).register = a.register := by
  simp [register, names, changes, note, hmark]

theorem names_enter {target : Phase} : (a.enter target).names =
    if a.phase = target && !target.holdsPendingPeer then a.names
    else a.names ++ [(a.enter target).id] := by
  rw [names, changes_enter]
  split
  · rfl
  · exact List.map_append

theorem enter_attempts (a : Account) (target : Phase) : (a.enter target).attempts =
    if target.holdsPendingPeer && a.phase ≠ .directLaunchRequested then a.attempts + 1
    else a.attempts := by
  unfold enter
  dsimp only
  split <;> rfl

/-- Whatever phase is entered, one step happens to the names. -/
theorem register_enter (a : Account) (target : Phase) :
    a.register.Step (a.enter target).register := by
  have hregister : (a.enter target).register =
      ⟨(a.enter target).id, (a.enter target).attempts, (a.enter target).names⟩ := rfl
  rw [hregister]
  by_cases hbegins : target.holdsPendingPeer = true ∧ a.phase ≠ .directLaunchRequested
  · have hengaged : target.isUnengaged = false := by
      cases target <;> first | rfl | cases hbegins.1
    have hid : (a.enter target).id = some (.nth a.attempts) := by
      rw [enter_id]
      simp [hengaged, hbegins]
    have hattempts : (a.enter target).attempts = a.attempts + 1 := by
      rw [enter_attempts]
      simp [hbegins]
    have hnames : (a.enter target).names = a.names ++ [(a.enter target).id] := by
      rw [names_enter]
      simp [hbegins]
    rw [hnames, hid, hattempts]
    exact .begin
  · have hid : (a.enter target).id = if target.isUnengaged then none else a.id := by
      rw [enter_id]
      split
      · rfl
      · rw [if_neg (by simpa using hbegins)]
    have hattempts : (a.enter target).attempts = a.attempts := by
      rw [enter_attempts, if_neg (by simpa using hbegins)]
    rw [names_enter, hid, hattempts]
    cases target.isUnengaged with
    | true =>
      rw [if_pos rfl]
      split
      · exact .forget
      · exact .clear
    | false =>
      rw [if_neg Bool.false_ne_true]
      split
      · exact .stay
      · exact .go

/-- Every deed is one step for the names, or two. -/
theorem steps_of_deed (h : Deed o a b) : a.register.Steps b.register := by
  have henter (a : Account) (target : Phase) : a.register.Steps (a.enter target).register :=
    .single (a.register_enter target)
  have hnote {a b : Account} {c : Command} (h : a.register.Steps b.register) :
      a.register.Steps (b.note (.command c)).register := by
    rwa [register_note rfl]
  cases h with
  | enter => exact henter a _
  | directLaunch | abort => exact (henter a _).trans (henter _ _)
  | launch _ _ hmark =>
    rw [register_note (by rcases hmark with rfl | rfl <;> rfl)]
    exact henter a .playerLaunched
  | command => exact hnote .refl
  | startDiscovery =>
    exact startDiscovery_keeps (P := fun b => a.register.Steps b.register) (fun _ => hnote)
      (fun _ => henter { a with gate := { a.gate with active := true } } _) fun _ => .refl
  | stopDiscovery =>
    exact stopDiscovery_keeps (P := fun b => a.register.Steps b.register) (fun _ => hnote)
      (fun _ => henter { a with gate := { a.gate with active := false } } _) fun _ => .refl
  | switchOn =>
    rw [register_note rfl]
    exact .refl
  | announceOff =>
    rw [register_note rfl]
    exact .refl
  | switchOff => exact .refl
  | leave => exact hnote .refl
  | forget => exact .single .forget

theorem steps_of_deeds (h : Deeds o a b) : a.register.Steps b.register := by
  induction h with
  | refl => exact .refl
  | tail _ hdeed ih => exact ih.trans (steps_of_deed hdeed)

theorem Named.deed (ha : a.Named) (h : Deed o a b) : b.Named := by
  cases h with
  | enter h => exact ha.enter (engaged_of_mayEnter h)
  | directLaunch =>
    have hrequested : (a.enter .directLaunchRequested).Named := ha.enter fun _ => nofun
    exact hrequested.enter fun _ => nofun
  | abort h htarget =>
    have hengaged : a.phase.isUnengaged = false := by
      rw [h]
      rfl
    refine (ha.enter fun _ _ => hengaged).enter fun _ _ => ?_
    rw [enter_phase]
    rfl
  | launch _ h =>
    have hengaged : a.phase.isUnengaged = false := by
      rw [h]
      rfl
    have hlaunched : (a.enter .playerLaunched).Named := ha.enter fun _ _ => hengaged
    exact hlaunched
  | command | switchOn | switchOff | announceOff | leave => exact ha
  | startDiscovery =>
    let a₁ : Account := { a with gate := { a.gate with active := true } }
    exact startDiscovery_keeps (fun _ h => h) (fun _ => Named.enter (a := a₁) ha nofun) fun _ => ha
  | stopDiscovery =>
    let a₁ : Account := { a with gate := { a.gate with active := false } }
    exact stopDiscovery_keeps (fun _ h => h) (fun _ => Named.enter (a := a₁) ha nofun) fun _ => ha
  | forget => rfl

/-- The names of a fresh account. -/
theorem orderly_fresh (settings : SessionSettings) (nameSource : Option NameSource) :
    (World.fresh settings nameSource).machine.account.register.Orderly where
  given := nofun
  latest := nofun
  contiguous x before between after h := by
    change [] = before ++ some x :: (between ++ some x :: after) at h
    simp at h

/-! ## Bids -/

/-- A session goes on under its name. -/
structure Continues (a b : Account) : Prop where
  id : b.id = a.id
  changes : ∃ later, b.changes = a.changes ++ later ∧ ∀ c ∈ later, c.id = a.id

theorem Continues.refl (a : Account) : a.Continues a :=
  ⟨rfl, [], (List.append_nil _).symm, nofun⟩

theorem Continues.note (h : a.Continues b) {mark : Mark} (hmark : mark.change? = none) :
    a.Continues (b.note mark) := by
  have hchanges : (b.note mark).changes = b.changes := by
    simp [Account.changes, Account.note, hmark]
  obtain ⟨later, hlater, hids⟩ := h.changes
  exact ⟨h.id, later, hchanges.trans hlater, hids⟩

theorem continues_accepted (a : Account) : a.Continues (a.enter .connectionAccepted) := by
  have hid : (a.enter .connectionAccepted).id = a.id := a.enter_id .connectionAccepted
  refine ⟨hid, ?_⟩
  rw [changes_enter]
  split
  · exact ⟨[], (List.append_nil _).symm, nofun⟩
  · refine ⟨[_], rfl, fun c hc => ?_⟩
    rw [List.mem_singleton.1 hc, hid]

/-- The changes by which a bid is taken in carry its name. -/
theorem changes_pass_ways (b : Bid) (hphase : a.phase ≠ .directLaunchRequested) :
    (a.pass b.ways).changes = a.changes ++ b.opening a.phase (.nth a.attempts) := by
  have hopened {target : Phase} (htarget : target.holdsPendingPeer = true) :
      (a.enter target).changes = a.changes ++ [⟨a.phase, target, some (.nth a.attempts)⟩] := by
    rw [changes_enter, if_neg (by simp [htarget]), enter_id_of_holds htarget hphase]
  cases b with
  | connect mac name => exact hopened rfl
  | launch l =>
    have hid := pass_ways_id (.launch l) hphase
    show ((a.enter .directLaunchRequested).enter .directLaunchConnecting).changes = _
    rw [changes_enter, if_neg (by simp [Phase.holdsPendingPeer]), hopened rfl, enter_phase,
      List.append_assoc]
    exact congrArg (fun id => _ ++ ([_] ++ [Change.mk _ _ id])) hid

end Account

namespace Machine

variable {m : Machine}

/-- An acceptance does not touch the name. -/
theorem applyDecision_continues (m : Machine) :
    m.account.Continues (m.applyDecision .accept).stop.account := by
  have haccepted : m.account.Continues
      (((m.disarm .connectionAccept).adopt m.session.pending).enter
        .connectionAccepted).account := by
    rw [account_enter, account_adopt]
    exact m.account.continues_accepted
  unfold applyDecision
  dsimp only
  split
  case h_1 =>
    split
    · rw [Run.stop_returning, Run.stop_command, account_command]
      exact haccepted.note rfl
    · exact haccepted
  case h_2 | h_4 => contradiction
  case h_3 =>
    rw [Run.stop_returning, Run.stop_command, account_command]
    exact haccepted.note rfl
  case h_5 => exact .refl _

theorem considerRequest_continues (m : Machine) (mac name : String) :
    m.account.Continues (m.considerRequest mac name).stop.account := by
  rw [considerRequest]
  split
  · rw [endPreempted]
    split
    · dsimp only
      split
      case h_1 p _ =>
        show m.account.Continues (((((m.setPreempting none).setActive none).notifyError p
          .newConnection).emit (.command .flushCurrentSession)).account)
        rw [account_command, account_notifyError]
        exact (Account.Continues.refl m.account).note rfl
      case h_2 =>
        rw [Run.andThen, Run.bind_done, Run.stop_returning]
        exact applyDecision_continues ((m.setPreempting none).setActive none)
    · rw [Run.andThen, Run.bind_done, Run.stop_returning]
      exact applyDecision_continues m
  · rw [Run.stop_done, account_notifyRequest]
    exact .refl m.account

end Machine

/-! ## Worlds -/

namespace World

variable {w : World} {t : Turn} {ts : List Turn}

theorem Reachable.deeds (hw : w.Reachable) (ht : w.Possible t) :
    ∃ o, Deeds o w.machine.account (w.turn t).2.machine.account := by
  obtain ⟨o, hdeeds⟩ := Regime.reachable_follows conduct_governs hw ht
  cases t <;> exact ⟨o, hdeeds⟩

theorem Reachable.register_steps (hw : w.Reachable) (ht : w.Possible t) :
    w.machine.account.register.Steps (w.turn t).2.machine.account.register := by
  obtain ⟨o, hdeeds⟩ := hw.deeds ht
  exact Account.steps_of_deeds hdeeds

theorem Reachable.register_steps_turns (hw : w.Reachable) (hts : w.AllPossible ts) :
    w.machine.account.register.Steps (w.turns ts).machine.account.register := by
  induction ts generalizing w with
  | nil => exact .refl
  | cons t ts ih => exact (hw.register_steps hts.1).trans (ih (hw.turn t hts.1) hts.2)

theorem Reachable.orderly (hw : w.Reachable) : w.machine.account.register.Orderly := by
  induction hw with
  | fresh settings nameSource => exact Account.orderly_fresh settings nameSource
  | turn hw t ht ih => exact (hw.register_steps ht).orderly ih

theorem Reachable.named (hw : w.Reachable) : w.machine.account.Named := by
  induction hw with
  | fresh => rfl
  | turn hw t ht ih =>
    obtain ⟨o, hdeeds⟩ := hw.deeds ht
    exact hdeeds.keeps (fun _ _ => Account.Named.deed) ih

/-- Where the tally sets out from in a turn that takes no bid in. -/
theorem Reachable.attempts_eq (hw : w.Reachable) (ht : w.Possible t)
    (hbid : ∀ b : Bid, t = .happen b.occurrence → w.machine.gate.enabled = false) :
    (w.turn t).2.machine.attempts = w.machine.attempts := by
  have hstays : counting.allows (counting.origin Occurrence.counted w t) (w.turn t).1
      (w.turn t).2.machine.tally := Discipline.reachable_allows counting_governs hw ht
  have horigin : counting.origin Occurrence.counted w t = w.machine.tally := by
    cases t with
    | resume => rfl
    | happen o =>
      refine if_neg fun hcounted => ?_
      rw [Bool.and_eq_true] at hcounted
      obtain ⟨b, rfl⟩ := Bid.exists_of_requester hcounted.1
      exact absurd (hbid b rfl) (by simp [hcounted.2])
  rw [horigin] at hstays
  exact hstays.attempts

/-- A bid that is taken in opens an attempt under the next name. -/
theorem Reachable.turn_bid (hw : w.Reachable) (henabled : w.machine.gate.enabled = true)
    (b : Bid) : let x := SessionId.nth w.machine.attempts
    let a := (w.turn (.happen b.occurrence)).2.machine.account
    a.id = some x ∧ ∃ later, a.changes =
      w.machine.account.changes ++ b.opening w.machine.phase x ++ later ∧
        ∀ c ∈ later, c.id = some x := by
  intro x a
  have hkept : w.machine.parties.Kept := Discipline.reachable_good shifting_governs hw
  have hstop : a = ((w.machine.takeIn b).considerRequest b.peer.mac b.peer.name).stop.account := by
    show ((b.occurrence.run w.machine).pause w.waiting).2.machine.account = _
    rw [Run.pause_machine, Machine.run_bid_of_enabled henabled hkept.not_requested,
      Run.stop_returning]
  have hcontinues := (w.machine.takeIn b).considerRequest_continues b.peer.mac b.peer.name
  rw [← hstop, Machine.account_takeIn] at hcontinues
  have hid := Account.pass_ways_id (a := w.machine.account) b hkept.not_requested
  have hchanges := Account.changes_pass_ways (a := w.machine.account) b hkept.not_requested
  obtain ⟨hid', later, hchanges', hlater⟩ := hcontinues
  rw [hid] at hid' hlater
  rw [hchanges] at hchanges'
  exact ⟨hid', later, hchanges', hlater⟩

/-- Between operations and whenever a command goes out: a session has a name exactly while a peer is
engaged. Every bid that is taken in gets one that has not been seen before, and the changes it is
announced by carry it; no other turn gives a name, though one may be lost then. The name in use is
the last one that was announced, those that were announced stay together, and once a name is not in
use it is never seen again. -/
theorem Reachable.attempts_named (hw : w.Reachable) :
    let m := w.machine
    (m.session.id = none ↔ m.phase = .idle ∨ m.phase = .discoverable) ∧
    (m.gate.enabled = true → ∀ b : Bid, ∃ x, some x ∉ m.account.names ∧
      let a := (w.turn (.happen b.occurrence)).2.machine.account
      a.id = some x ∧ ∃ later, a.changes = m.account.changes ++ b.opening m.phase x ++ later ∧
        ∀ c ∈ later, c.id = some x) ∧
    (∀ t, w.Possible t → (∀ b : Bid, t = .happen b.occurrence → m.gate.enabled = false) →
      let a := (w.turn t).2.machine.account
      (a.id = m.session.id ∨ a.id = none) ∧ ∃ later, a.names = m.account.names ++ later ∧
        ∀ y ∈ later, y = m.session.id ∨ y = none) ∧
    (∀ x, m.session.id = some x → m.account.names.getLast? = some (some x)) ∧
    Contiguous m.account.names ∧
    ∀ x, some x ∈ m.account.names → m.session.id ≠ some x → ∀ ts, w.AllPossible ts →
      let a := (w.turns ts).machine.account
      a.id ≠ some x ∧ ∃ later, a.names = m.account.names ++ later ∧ some x ∉ later := by
  intro m
  have horderly := hw.orderly
  refine ⟨?_, fun henabled b => ?_, fun t ht hbid => ?_, horderly.latest, horderly.contiguous,
    fun x hx hunused ts hts => ?_⟩
  · have hnamed : m.session.id.isSome = !m.phase.isUnengaged := hw.named
    rw [← Option.isNone_iff_eq_none, ← Option.not_isSome, hnamed, Bool.not_not]
    cases m.phase <;> decide
  · exact ⟨_, horderly.nth_not_mem, hw.turn_bid henabled b⟩
  · exact (hw.register_steps ht).id_eq_or.2 (hw.attempts_eq ht hbid)
  · obtain ⟨hretired, later, hnames, hlater⟩ :=
      (hw.register_steps_turns hts).retired ⟨horderly.given x hx, hunused⟩
    exact ⟨hretired.unused, later, hnames, fun hx => hlater _ hx rfl⟩

/-- A second peer launches while the acceptance of the first one is passed on. The attempt of the
first one is over for good. -/
theorem attempts_named_of_nested_launch :
    ∃ w : World, w.Reachable ∧ w.waiting.length = 1 ∧ w.machine.account.names =
        [none, some (.nth 0), some (.nth 0), some (.nth 1), some (.nth 1)] ∧
      ∀ ts, w.AllPossible ts → (w.turns ts).machine.session.id ≠ some (.nth 0) := by
  let ts : List Turn := [.happen (.call (.setEnabled true)), .resume,
    .happen (.call (.report (.connectionRequest "aa" "A"))),
    .happen (.call (.decide "Accept")),
    .happen (.call (.report (.launchRequest
      ⟨.v4 ⟨10, 0, 0, 2⟩, "bb", "B", .v4 ⟨10, 0, 0, 1⟩⟩ false)))]
  let w := (fresh {} none).turns ts
  have hw : w.Reachable := (Reachable.fresh {} none).turns (by decide +kernel)
  have hnames : w.machine.account.names =
      [none, some (.nth 0), some (.nth 0), some (.nth 1), some (.nth 1)] := by decide +kernel
  have hunused : w.machine.session.id ≠ some (.nth 0) := by decide +kernel
  have hwaiting : w.waiting.length = 1 := by decide +kernel
  obtain ⟨-, -, -, -, -, hretired⟩ := hw.attempts_named
  refine ⟨w, hw, hwaiting, hnames, fun ts hts => ?_⟩
  exact (hretired (.nth 0) (by rw [hnames]; simp) hunused ts hts).1

end World

end CastReceiver
