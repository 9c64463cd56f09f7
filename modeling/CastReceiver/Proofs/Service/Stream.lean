import CastReceiver.Proofs.Service.Mirror
import CastReceiver.Service.Connection
import CastReceiver.Service.Route

/-!
# The stream of events

All that the service says goes out on one channel. Whoever has connected and is never too slow can
tell by the first snapshot and the events since what a new snapshot would say of the session, of the
service and of discovery. It does no harm to have joined the channel before the snapshot was taken,
and it makes no difference whether alarms go off in time.
-/
namespace CastReceiver

/-! ## Driven by time -/

namespace Timer

/-- A pending alarm will go off at another time than it was set for. -/
def Timetable.postpone {α : Type} (t : Timetable α) (id due : Nat) : Timetable α :=
  { t with alarms := t.alarms.map fun a => if a.id = id then { a with due } else a }

namespace Clockwork

variable {σ α : Type}

/-- A property that alarms and the clock leave alone. -/
structure Preserves (c : Clockwork σ α) (P : σ → Prop) : Prop where
  withTimetable : ∀ s t, P s → P (c.withTimetable s t)
  goOff : ∀ a s, P s → P (c.goOff a s)

namespace Preserves

variable {c : Clockwork σ α} {P : σ → Prop} {s : σ}

theorem strike (h : c.Preserves P) (hs : P s) (a : Alarm α) : P (c.strike s a) := by
  unfold Clockwork.strike
  split
  · dsimp only
    split
    · exact h.withTimetable _ _ hs
    · exact h.goOff _ _ (h.withTimetable _ _ hs)
  · exact hs

theorem settle (h : c.Preserves P) (hs : P s) : P (c.settle s) := by
  have hround (s : σ) (hs : P s) : P (c.round s) := by
    unfold round
    generalize (c.timetable s).due = due
    induction due generalizing s with
    | nil => exact hs
    | cons a due ih => exact ih _ (h.strike hs a)
  have hrounds (n : Nat) (s : σ) (hs : P s) : P (c.rounds n s) := by
    induction n generalizing s with
    | zero => exact hs
    | succ n ih =>
      unfold rounds
      split
      · exact hs
      · exact ih _ (hround s hs)
  exact h.withTimetable _ _ (hrounds _ s hs)

theorem advance (h : c.Preserves P) (hs : P s) (ms : Nat) : P (c.advance ms s) := by
  have hend (s : σ) (target : Nat) (hs : P s) :
      P (c.settle (c.setClock (c.settle s) target)) :=
    h.settle (h.withTimetable _ _ (h.settle hs))
  have hmove (target now : Nat) (s : σ) (hs : P s) : P (c.moveClock now target s) := by
    induction now, s using Clockwork.moveClock.induct c target with
    | case1 now s _ due hdue hbound ih =>
      rw [moveClock, hdue]
      dsimp only
      rw [if_pos hbound]
      exact ih (h.withTimetable _ _ (h.settle hs))
    | case2 now s _ due hdue hbound =>
      rw [moveClock, hdue]
      dsimp only
      rw [if_neg hbound]
      exact hend s target hs
    | case3 now s _ hdue =>
      rw [moveClock, hdue]
      exact hend s target hs
  exact hmove _ _ s hs

end Preserves

end Clockwork

end Timer

/-! ## What goes out -/

def Entry.event? (e : Entry) : Option Event :=
  match e.happening with
  | .event e => some e
  | _ => none

theorem Entry.mark?_eq (e : Entry) : e.mark? = e.event?.bind Event.mark? := by
  obtain ⟨time, happening⟩ := e
  cases happening <;> rfl

namespace Service

variable {s s' s'' : Service}

theorem sent_publishEntry (h : Hub) (e : Entry) :
    (publishEntry h e).channel.sent = h.channel.sent ++ e.event?.toList := by
  obtain ⟨time, happening⟩ := e
  cases happening with
  | event e => cases e <;> rfl
  | nameLookup | nested => exact (List.append_nil _).symm

theorem sent_publishJournal (s : Service) :
    s.publishJournal.hub.channel.sent =
      s.hub.channel.sent ++ s.machine.journal.filterMap Entry.event? := by
  unfold publishJournal
  dsimp only
  generalize s.hub = hub
  induction s.machine.journal generalizing hub with
  | nil => exact (List.append_nil _).symm
  | cons e journal ih =>
    rw [List.foldl_cons, ih, sent_publishEntry, List.append_assoc]
    cases h : e.event? <;> simp [h]

/-- What has become of a service: the machine is silent, and what has gone out tells all that has
changed. -/
structure Continues (s s' : Service) : Prop where
  silent : s'.machine.Silent
  sent : ∃ news, s'.hub.channel.sent = s.hub.channel.sent ++ news ∧
    s.machine.account.mirror.Tells (news.filterMap Event.mark?) s'.machine.account.mirror

theorem Continues.refl (hs : s.machine.Silent) : s.Continues s :=
  ⟨hs, [], (List.append_nil _).symm, rfl⟩

theorem Continues.trans (h : s.Continues s') (h' : s'.Continues s'') : s.Continues s'' := by
  obtain ⟨-, news, hsent, htells⟩ := h
  obtain ⟨hsilent, news', hsent', htells'⟩ := h'
  refine ⟨hsilent, news ++ news', by rw [hsent', hsent, List.append_assoc], ?_⟩
  rw [List.filterMap_append]
  exact htells.append htells'

/-- What concerns neither the machine nor the channel does not count. -/
theorem Continues.of_eq (h : s.Continues s') (hmachine : s''.machine = s'.machine)
    (hchannel : s''.hub.channel.sent = s'.hub.channel.sent) : s.Continues s'' := by
  obtain ⟨hsilent, hsent⟩ := h
  rw [← hmachine] at hsilent hsent
  rw [← hchannel] at hsent
  exact ⟨hsilent, hsent⟩

theorem Continues.withTimetable (h : s.Continues s') (t : Timer.Timetable Task) :
    s.Continues { s' with machine := s'.machine.withTimetable t } :=
  ⟨⟨h.silent.journal, h.silent.settled, h.silent.unnamed⟩, h.sent⟩

/-- An operation that tells all that it changes continues the stream. -/
theorem Continues.complete {α : Type} {r : Run α} (h : s.Continues s')
    (htells : s'.machine.Tells r.quietly.1) : s.Continues (s'.complete r).2 := by
  refine h.trans ⟨⟨rfl, htells.settled, htells.unnamed⟩, r.quietly.1.journal.filterMap Entry.event?,
    ?_, ?_⟩
  · exact sent_publishJournal { s' with machine := r.quietly.1 }
  · have hmarks : (r.quietly.1.journal.filterMap Entry.event?).filterMap Event.mark? =
        r.quietly.1.account.log := by
      rw [List.filterMap_filterMap]
      exact List.filterMap_congr fun e _ => (Entry.mark?_eq e).symm
    rw [hmarks]
    exact htells.tells

theorem Continues.call (h : s.Continues s') {c : Call} (hc : c ≠ .shutdown) :
    s.Continues (s'.call c).2 :=
  h.complete (h.silent.perform_tells hc)

theorem Continues.goOff (h : s.Continues s') (a : Timer.Alarm Task) :
    s.Continues (clockwork.goOff a s') :=
  h.complete (h.silent.ring_tells a)

end Service

/-! ## Requests -/

theorem exists_of_map_eq_ok {α β ε : Type} {x : Except ε α} {f : α → β} {b : β}
    (h : x.map f = .ok b) : ∃ a, f a = b := by
  cases x with
  | error e => cases h
  | ok a => exact ⟨a, Except.ok.inj h⟩

/-- What is posted never shuts the machine down. -/
theorem Route.intake_ne_shutdown {route : Route} {intake : String → Except Json.Fault Call}
    (h : route.intake? = some intake) {text : String} {c : Call} (hc : intake text = .ok c) :
    c ≠ .shutdown := by
  cases route with
  | health | session | socket => cases h
  | enabled | accept | stop | player | backendDiscovery | events =>
    cases h
    obtain ⟨found, rfl⟩ := exists_of_map_eq_ok hc
    exact nofun

theorem Http.Request.exists_of_entity_eq_ok {α : Type} {r : Http.Request}
    {parse : String → Except Json.Fault α} {a : α} (h : r.entity parse = .ok a) :
    parse r.body = .ok a := by
  rw [entity] at h
  split at h
  · split at h
    case h_1 hparse =>
      cases h
      exact hparse
    case h_2 | h_3 => cases h
  · cases h

namespace Service

/-- A request to a route comes to nothing, or to a request to the machine. -/
theorem respond_eq_or (s : Service) (r : Http.Request) :
    (s.respond r).2 = s ∨ ∃ c, c ≠ .shutdown ∧ (s.respond r).2 = (s.call c).2 := by
  rw [respond]
  split
  · exact .inl rfl
  · split
    · exact .inl rfl
    · split
      case h_3 route _ _ =>
        rw [post]
        split
        · exact .inl rfl
        case h_2 intake hintake =>
          split
          · exact .inl rfl
          case h_2 c hentity =>
            have hc := Http.Request.exists_of_entity_eq_ok hentity
            exact .inr ⟨c, Route.intake_ne_shutdown hintake hc, rfl⟩
      all_goals exact .inl rfl

end Service

namespace Hub

@[simp] theorem channel_foldl_apply (h : Hub) (changes : List Change) :
    (changes.foldl apply h).channel = h.channel := by
  induction changes generalizing h with
  | nil => rfl
  | cons change changes ih =>
    rw [List.foldl_cons, ih]
    cases change <;> rfl

@[simp] theorem channel_deliverAll (react : Reaction) (ns : List Notification) (h : Hub) :
    (deliverAll react ns h).2.channel = h.channel := by
  induction ns generalizing h with
  | nil => rfl
  | cons n ns ih =>
    show (deliverAll react ns (h.deliver react n).2).2.channel = h.channel
    rw [ih, deliver, channel_foldl_apply]

end Hub

/-! ## The service among all that may happen to it -/

namespace Service

/-- What may happen to a service: requests of every kind, clients that come, speak, listen and go,
listeners that do, time that passes, and alarms that go off in time, late, or after they were
cancelled. -/
inductive Act where
  | call (c : Call)
  | request (r : Http.Request)
  | connect
  | message (c : Connection) (text : String)
  | attend (c : Connection)
  | disconnect (c : Connection)
  | closeAll
  | register
  | unregister (id : Nat)
  | dispatch (react : Hub.Reaction)
  | settle
  /-- Time passes, and every alarm goes off in time. -/
  | advance (ms : Nat)
  /-- Time passes, and no alarm goes off. -/
  | elapse (ms : Nat)
  /-- An alarm goes off that is due, however late. -/
  | goOff (id : Nat)
  /-- An alarm is put off, as one that repeats may be when it has gone off late. -/
  | postpone (id due : Nat)
  /-- The alarm of a watchdog goes off, although it may have been cancelled or replaced. -/
  | late (kind : Timer.WatchdogKind) (id : Nat)

/-- The alarm of this number goes off, if it is due. -/
def goOff (s : Service) (id : Nat) : Service :=
  match (clockwork.timetable s).due.find? (·.id == id) with
  | some a => clockwork.strike s a
  | none => s

def act (s : Service) : Act → Service
  | .call c => (s.call c).2
  | .request r => (s.respond r).2
  | .connect => s.connect.2.2
  | .message c text => (s.receive c text).2
  | .attend c => (s.attend c).2.2
  | .disconnect c => s.disconnect c
  | .closeAll => s.closeAll.2
  | .register => { s with hub := s.hub.register.2 }
  | .unregister id => { s with hub := (s.hub.unregister id).2 }
  | .dispatch react => { s with hub := (s.hub.dispatch react).2 }
  | .settle => s.settle
  | .advance ms => s.advance ms
  | .elapse ms => clockwork.setClock s ((clockwork.timetable s).now + ms)
  | .goOff id => s.goOff id
  | .postpone id due =>
    clockwork.withTimetable s ((clockwork.timetable s).postpone id due)
  | .late kind id => (s.complete (s.machine.expire kind id)).2

variable {s s' : Service} {a : Act}

theorem attend_service (s : Service) (c : Connection) :
    (s.attend c).2.2.machine = s.machine ∧ (s.attend c).2.2.hub = s.hub := by
  rw [attend]
  split <;> exact ⟨rfl, rfl⟩

theorem Continues.receive (h : s.Continues s') (c : Connection) (text : String) :
    s.Continues (s'.receive c text).2 := by
  rw [Service.receive]
  split
  case h_1 r _ =>
    have hcounted : s.Continues { s' with
        clients := s'.clients.recordEvent c.client s'.machine.now } := h.of_eq rfl rfl
    exact hcounted.call nofun
  case h_2 | h_3 => exact h

theorem goOff_preserves {P : Service → Prop} (h : clockwork.Preserves P) (hs : P s) (id : Nat) :
    P (s.goOff id) := by
  unfold goOff
  split
  · exact h.strike hs _
  · exact hs

theorem continues_preserved (s : Service) : clockwork.Preserves s.Continues where
  withTimetable _ t h := h.withTimetable t
  goOff a _ h := h.goOff a

/-- Whatever happens short of a shutdown continues the stream. -/
theorem act_continues (hs : s.machine.Silent) (ha : a ≠ .call .shutdown) :
    s.Continues (s.act a) := by
  have hrefl : s.Continues s := .refl hs
  cases a with
  | call c => exact hrefl.call fun hc => ha (congrArg Act.call hc)
  | request r =>
    rcases s.respond_eq_or r with hsame | ⟨c, hc, hcalls⟩
    · rw [act, hsame]
      exact hrefl
    · rw [act, hcalls]
      exact hrefl.call hc
  | message c text => exact hrefl.receive c text
  | attend c =>
    obtain ⟨hmachine, hhub⟩ := s.attend_service c
    exact hrefl.of_eq hmachine (congrArg (fun h => h.channel.sent) hhub)
  | connect | disconnect | closeAll | register | unregister => exact hrefl.of_eq rfl rfl
  | dispatch react =>
    refine hrefl.of_eq rfl ?_
    exact congrArg Hub.Channel.sent (Hub.channel_deliverAll react _ _)
  | settle => exact s.continues_preserved.settle hrefl
  | advance ms => exact s.continues_preserved.advance hrefl ms
  | elapse | postpone => exact hrefl.withTimetable _
  | goOff id => exact goOff_preserves s.continues_preserved hrefl id
  | late kind id => exact hrefl.goOff { id, due := 0, task := .watchdog kind }

/-- A service that has been made of its settings and has not been shut down. -/
inductive Running : Service → Prop
  | made {s : Service} {settings : Settings} {nameSource : Option NameSource}
      (h : ofSettings settings nameSource = .ok s) : Running s
  | act {s : Service} (h : Running s) {a : Act} (ha : a ≠ .call .shutdown) : Running (s.act a)

/-- All that is known of a service can be told from what has gone out. -/
theorem Running.tells (h : s.Running) : s.machine.Silent ∧
    ({} : Mirror).Tells (s.hub.channel.sent.filterMap Event.mark?) s.machine.account.mirror := by
  induction h with
  | @made s settings nameSource h =>
    rw [ofSettings] at h
    split at h
    · cases h
    · cases h
      exact ⟨⟨rfl, Machine.settled_fresh settings.session nameSource, fun _ => rfl⟩, rfl⟩
  | act _ ha ih =>
    obtain ⟨hsilent, news, hsent, htells⟩ := act_continues ih.1 ha
    refine ⟨hsilent, ?_⟩
    rw [hsent, List.filterMap_append]
    exact ih.2.append htells

end Service

/-! ## Clients -/

/-- What a client knows after one more thing has arrived. -/
def Mirror.take (m : Mirror) : Arrival → Mirror
  | .message (.initialState s) => .ofSnapshot s
  | .message (.event e) => m.hear e
  | _ => m

namespace Service

/-- A client has connected to a service at some time, has joined the channel then or before, and has
never lost an event: its end of the connection, and what it knows. -/
inductive Followed : Service → Connection → Mirror → Prop
  | connect {s : Service} (h : s.Running) {position : Nat}
      (hposition : position ≤ s.hub.channel.position) (m : Mirror) :
      Followed s.connect.2.2 { s.connect.2.1 with position } (m.take (.message s.connect.1))
  | act {s : Service} {c : Connection} {m : Mirror} (h : Followed s c m) {a : Act}
      (ha : a ≠ .call .shutdown) : Followed (s.act a) c m
  | attend {s : Service} {c c' : Connection} {m : Mirror} (h : Followed s c m)
      (hmissed : (s.hub.channel.read c.position).missed = 0)
      (hopen : (s.attend c).2.1 = some c') :
      Followed (s.attend c).2.2 c' ((s.attend c).1.foldl Mirror.take m)

variable {s : Service} {c : Connection} {m : Mirror}

/-- All that has gone out, heard from the beginning on, tells what is known of a service. -/
theorem Running.foldl_hear (h : s.Running) :
    s.hub.channel.sent.foldl Mirror.hear {} = s.machine.account.mirror := by
  rw [Mirror.foldl_hear]
  exact h.tells.2.foldl_learn

theorem Followed.running (h : s.Followed c m) : s.Running := by
  induction h with
  | connect h => exact h.act (a := .connect) nofun
  | act _ ha ih => exact ih.act ha
  | @attend s c c' m _ _ _ ih => exact ih.act (a := .attend c) nofun

/-- What has not arrived yet is all that separates a client from the service. -/
structure Lags (s : Service) (c : Connection) (m : Mirror) : Prop where
  position : c.position ≤ s.hub.channel.position
  hears : (s.hub.channel.sent.drop c.position).foldl Mirror.hear m = s.machine.account.mirror

theorem Lags.act (h : s.Lags c m) (hs : s.Running) {a : Act} (ha : a ≠ .call .shutdown) :
    (s.act a).Lags c m := by
  obtain ⟨-, news, hsent, htells⟩ := act_continues hs.tells.1 ha
  refine ⟨?_, ?_⟩
  · rw [Hub.Channel.position, hsent, List.length_append]
    exact Nat.le_add_right_of_le h.position
  · rw [hsent, List.drop_append_of_le_length h.position, List.foldl_append, h.hears,
      Mirror.foldl_hear]
    exact htells.foldl_learn

/-- A client that joins the channel before it gets the snapshot hears some of what it has seen. -/
theorem Running.connect_lags (h : s.Running) {position : Nat}
    (hposition : position ≤ s.hub.channel.position) (client : Nat) :
    s.connect.2.2.Lags ⟨client, position⟩ (.ofSnapshot s.machine.snapshot) := by
  refine ⟨hposition, ?_⟩
  show (s.hub.channel.sent.drop position).foldl Mirror.hear s.machine.account.mirror =
    s.machine.account.mirror
  rw [← h.foldl_hear, Mirror.foldl_hear_drop]

/-- A client that loses nothing gets all that has not arrived yet. -/
theorem Lags.attend {c' : Connection} (h : s.Lags c m)
    (hmissed : (s.hub.channel.read c.position).missed = 0) (hopen : (s.attend c).2.1 = some c') :
    (s.attend c).2.2.Lags c' ((s.attend c).1.foldl Mirror.take m) := by
  rw [Service.attend] at hopen ⊢
  split at hopen
  case isTrue => cases hopen
  case isFalse hcancelled =>
    obtain rfl := Option.some.inj hopen
    rw [if_neg hcancelled]
    refine ⟨le_refl s.hub.channel.position, ?_⟩
    show (s.hub.channel.sent.drop s.hub.channel.sent.length).foldl Mirror.hear
      (List.foldl Mirror.take m ((s.hub.channel.read c.position).items.map _)) = _
    have hread : s.hub.channel.read c.position = ⟨0, s.hub.channel.sent.drop c.position⟩ :=
      Hub.Channel.read_of_le (Nat.sub_le_iff_le_add.1 (Nat.le_of_sub_eq_zero hmissed))
    rw [List.drop_length, hread, List.foldl_map]
    exact h.hears

theorem Followed.lags (h : s.Followed c m) : s.Lags c m := by
  induction h with
  | connect h hposition => exact h.connect_lags hposition _
  | act h ha ih => exact ih.act h.running ha
  | attend _ hmissed hopen ih => exact ih.attend hmissed hopen

/-- The mirror of a client is right whenever all events have arrived at it, and discovery is started
and stopped by turns. -/
theorem Running.followed (hs : s.Running) :
    (false :: s.hub.channel.sent.filterMap Event.toggle?).IsChain (· ≠ ·) ∧
      ∀ c m, s.Followed c m →
        (s.hub.channel.sent.drop c.position).foldl Mirror.hear m = .ofSnapshot s.machine.snapshot ∧
        (c.position = s.hub.channel.position → m = .ofSnapshot s.machine.snapshot) := by
  refine ⟨?_, fun c m hfollowed => ⟨hfollowed.lags.hears, fun harrived => ?_⟩⟩
  · have hchain := hs.tells.2.isChain
    rwa [List.filterMap_filterMap] at hchain
  · have hhears := hfollowed.lags.hears
    rw [harrived, Hub.Channel.position, List.drop_length] at hhears
    exact hhears

/-- A client joins the channel before discovery starts, gets its snapshot afterwards, and then all
events with those that it has already seen the outcome of. Meanwhile a peer asks and is not decided
about, and its watchdog goes off five seconds late. -/
theorem followed_from_early_position :
    let made : Service := ⟨{}, { settings := Settings.session {}, nameSource := none },
      .ofCapacity 100, {}⟩
    let before := (made.act (.call .start)).act .settle
    let asked := before.connect.2.2.act (.call (.report (.connectionRequest "aa" "A")))
    let s := (asked.act (.elapse 45000)).act (.goOff 1)
    let after := (s.attend ⟨1, 0⟩).2.2
    let m : Mirror := ⟨.restartingSession, some (.nth 0), true, true⟩
    before.hub.channel.position = 3 ∧
      (s.attend ⟨1, 0⟩).1.foldl Mirror.take (.ofSnapshot before.machine.snapshot) = m ∧
      after.hub.channel.sent.filterMap Event.toggle? = [true] ∧
      m = .ofSnapshot after.machine.snapshot := by
  intro made before asked s after m
  have hmade : ofSettings {} none = .ok made := rfl
  have hbefore : before.Running :=
    ((Running.made hmade).act (a := .call .start) nofun).act (a := .settle) nofun
  have hend : { before.connect.2.1 with position := 0 } = (⟨1, 0⟩ : Connection) := by
    decide +kernel
  have hjoined : before.connect.2.2.Followed ⟨1, 0⟩ (.ofSnapshot before.machine.snapshot) :=
    hend ▸ .connect hbefore (Nat.zero_le _) {}
  have hasked : asked.Followed ⟨1, 0⟩ (.ofSnapshot before.machine.snapshot) :=
    hjoined.act (a := .call (.report (.connectionRequest "aa" "A"))) nofun
  have hexpired : s.Followed ⟨1, 0⟩ (.ofSnapshot before.machine.snapshot) :=
    (hasked.act (a := .elapse 45000) nofun).act (a := .goOff 1) nofun
  have hopen : (s.attend ⟨1, 0⟩).2.1 = some ⟨1, 8⟩ := by decide +kernel
  have htake :
      (s.attend ⟨1, 0⟩).1.foldl Mirror.take (.ofSnapshot before.machine.snapshot) = m := by
    decide +kernel
  have hfollowed : after.Followed ⟨1, 8⟩ m :=
    htake ▸ hexpired.attend (by decide +kernel) hopen
  have hright := (Running.followed hfollowed.running).2 ⟨1, 8⟩ m hfollowed
  exact ⟨by decide +kernel, htake, by decide +kernel, hright.2 (by decide +kernel)⟩

end Service

end CastReceiver
