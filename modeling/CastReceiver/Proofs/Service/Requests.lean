import CastReceiver.Proofs.Service.Stream
import CastReceiver.Proofs.Session.Refusals

/-!
# Requests to the service

Of all requests only one that is posted, with the right type and a text that is understood, asks
something of the machine (`Service.asked?`), and it asks for one thing only. Every other request
leaves the service as it is, and so does one that the machine refuses. Only a refusal is answered by
an error with a body.
-/
namespace CastReceiver

/-! ## Refusals -/

/-- The machine did not refuse what it was asked. -/
def Reply.isGranted : Reply → Bool
  | .refused _ => false
  | _ => true

theorem Reply.isGranted_eq_false_iff {reply : Reply} :
    reply.isGranted = false ↔ ∃ e, reply = .refused e := by
  cases reply <;> simp [isGranted]

theorem Reply.isGranted_of_succeeds {reply : Reply} (h : reply.succeeds = true) :
    reply.isGranted = true := by
  cases reply with
  | refused => cases h
  | _ => rfl

theorem Run.Heeds.mono {α : Type} {m : Machine} {succeeds succeeds' : α → Bool} {r : Run α}
    (h : r.Heeds m succeeds) (hsucceeds : ∀ a, succeeds a = true → succeeds' a = true) :
    r.Heeds m succeeds' :=
  h.imp_left (hsucceeds _)

namespace Machine

variable (m : Machine)

/-- A decision is refused only if it is none. One that comes too late may still cancel a timer. -/
theorem decide_granted (text : String) :
    ((m.decide text).map Reply.ofOutcome).Heeds m Reply.isGranted := by
  rw [decide]
  split
  · exact .inr ⟨_, rfl⟩
  · left
    simp only [Run.quietly_map]
    rfl

/-- Whatever is refused is refused at once, and nothing has happened. -/
theorem perform_granted (c : Call) : (m.perform c).Heeds m Reply.isGranted := by
  cases c with
  | start | shutdown | report => exact Run.heeds_returning rfl
  | isEnabled | phase => exact .inl rfl
  | decide text => exact m.decide_granted text
  | setEnabled enabled =>
    have hheeds : (m.perform (.setEnabled enabled)).Heeds m Reply.succeeds :=
      (setEnabled_heeds m enabled).map _ fun _ => rfl
    exact hheeds.mono fun _ => Reply.isGranted_of_succeeds
  | stop mac name =>
    have hheeds : (m.perform (.stop mac name)).Heeds m Reply.succeeds :=
      (stopConnection_heeds m mac name).map _ fun _ => rfl
    exact hheeds.mono fun _ => Reply.isGranted_of_succeeds
  | player mac state code =>
    have hheeds : (m.perform (.player mac state code)).Heeds m Reply.succeeds :=
      (updatePlayer_heeds m mac state code).map _ fun _ => rfl
    exact hheeds.mono fun _ => Reply.isGranted_of_succeeds
  | backendDiscovery enabled =>
    left
    show ((m.setBackendDiscovery enabled).map Reply.ack).quietly.2.isGranted = true
    rw [Run.quietly_map]
    rfl

end Machine

/-! ## What a request asks for -/

namespace Service

open Http (Request)

variable {s : Service} {r : Request} {c : Call}

/-- The request to the machine that a request to the service stands for, if it stands for one. -/
def asked? (r : Request) : Option Call :=
  if r.method = .post then do
    let route ← Route.ofPath? r.path
    let intake ← route.intake?
    (r.entity intake).toOption
  else none

/-- A request that stands for one to the machine is answered by the machine. -/
theorem respond_of_asked (h : asked? r = some c) :
    s.respond r = (responseOf (s.call c).1, (s.call c).2) := by
  unfold asked? at h
  split at h
  case isFalse => cases h
  case isTrue hpost =>
    simp only [Option.bind_eq_bind, Option.bind_eq_some_iff] at h
    obtain ⟨route, hroute, intake, hintake, hentity⟩ := h
    have hcall : r.entity intake = .ok c := by
      cases hresult : r.entity intake with
      | error status =>
        rw [hresult] at hentity
        cases hentity
      | ok c' =>
        rw [hresult] at hentity
        rw [Option.some.inj hentity]
    simp [respond, post, hpost, hroute, hintake, hcall]

/-- What can be read of the service is a success or has no body. -/
theorem read?_status {route : Route} {response : Http.Response}
    (h : s.read? route = some response) : response.status = 200 ∨ response.body = none := by
  cases route with
  | health | session | enabled =>
    cases h
    exact .inl rfl
  | socket =>
    cases h
    exact .inr rfl
  | accept | stop | player | backendDiscovery | events => cases h

/-- Any other request changes nothing, and fails without a body if it fails. -/
theorem respond_of_not_asked (h : asked? r = none) :
    (s.respond r).2 = s ∧
      ((s.respond r).1.status = 200 ∨ (s.respond r).1.body = none) := by
  unfold respond
  split
  · exact ⟨rfl, .inl rfl⟩
  · split
    case h_1 => exact ⟨rfl, .inr rfl⟩
    case h_2 route hroute =>
      split
      case h_1 =>
        refine ⟨rfl, ?_⟩
        cases hread : s.read? route with
        | none => exact .inr rfl
        | some response => exact read?_status hread
      case h_2 =>
        refine ⟨rfl, .inr ?_⟩
        unfold readHead?
        split
        · rfl
        · cases s.read? route <;> rfl
      case h_3 hmethod =>
        rw [asked?, if_pos hmethod] at h
        simp only [hroute, Option.bind_eq_bind, Option.bind_some] at h
        unfold post
        split
        case h_1 => exact ⟨rfl, .inr rfl⟩
        case h_2 intake hintake =>
          split
          case h_1 => exact ⟨rfl, .inr rfl⟩
          case h_2 c hentity =>
            rw [hintake, Option.bind_some, hentity] at h
            cases h
      case h_4 => exact ⟨rfl, .inr rfl⟩

/-- A request to the machine that is refused leaves a silent service as it is. -/
theorem call_of_refused (hs : s.machine.journal = []) {e : SessionError}
    (h : (s.call c).1 = .refused e) : (s.call c).2 = s := by
  have hdone : s.machine.perform c = .done s.machine (.refused e) := by
    change (s.machine.perform c).quietly.2 = .refused e at h
    rcases s.machine.perform_granted c with hgranted | ⟨a, hdone⟩
    · rw [h] at hgranted
      cases hgranted
    · rw [hdone] at h ⊢
      exact congrArg (Run.done s.machine) h
  have hsilent : { s.machine with journal := [] } = s.machine :=
    congrArg (fun journal => { s.machine with journal }) hs.symm
  simp only [call, complete, hdone, Run.quietly_done, publishJournal, hs, hsilent, List.foldl_nil]

/-- The machine's answer is a success unless it has refused. -/
theorem responseOf_of_granted {reply : Reply} (h : reply.isGranted = true) :
    (responseOf reply).status = 200 := by
  cases reply with
  | refused e => cases h
  | _ => rfl

/-- The status of an error tells a violation of policy from the other refusals. -/
theorem responseOf_refused (e : SessionError) :
    responseOf (.refused e) =
      { status := if e.code = "policy_violation" then 409 else 400
        body := some (Failure.session e).toJson } := by
  cases e <;> rfl

/-! ## Services that can be reached -/

/-- A service that has been made of its settings, whatever has happened to it since. -/
inductive Reachable : Service → Prop
  | made {s : Service} {settings : Settings} {nameSource : Option NameSource}
      (h : ofSettings settings nameSource = .ok s) : Reachable s
  | act {s : Service} (h : Reachable s) (a : Act) : Reachable (s.act a)
  | shutdown {s : Service} (h : Reachable s) : Reachable s.shutdown

theorem silence_preserved :
    clockwork.Preserves fun s : Service => s.machine.journal = [] where
  withTimetable _ _ h := h
  goOff _ _ _ := rfl

theorem journal_act (hs : s.machine.journal = []) (a : Act) : (s.act a).machine.journal = [] := by
  cases a with
  | call c => rfl
  | request r =>
    rcases s.respond_eq_or r with hsame | ⟨c, -, hcalls⟩
    · rwa [act, hsame]
    · rw [act, hcalls]
      rfl
  | message c text =>
    show (s.receive c text).2.machine.journal = []
    rw [receive]
    split
    · rfl
    · exact hs
    · exact hs
  | attend c =>
    show (s.attend c).2.2.machine.journal = []
    rwa [(s.attend_service c).1]
  | connect | disconnect | closeAll | register | unregister | dispatch => exact hs
  | settle => exact silence_preserved.settle hs
  | advance ms => exact silence_preserved.advance hs ms
  | elapse | postpone => exact hs
  | goOff id => exact goOff_preserves silence_preserved hs id
  | late => rfl

theorem Reachable.acts (h : s.Reachable) (as : List Act) : (as.foldl Service.act s).Reachable := by
  induction as generalizing s with
  | nil => exact h
  | cons a as ih => exact ih (h.act a)

/-- Between requests all that has been said has gone out. -/
theorem Reachable.journal (h : s.Reachable) : s.machine.journal = [] := by
  induction h with
  | @made s settings nameSource h =>
    rw [ofSettings] at h
    split at h
    · cases h
    · cases h
      rfl
  | act _ a ih => exact journal_act ih a
  | shutdown => rfl

/-- What is posted is asked of the machine, and nothing is asked otherwise. -/
theorem method_of_asked (h : asked? r = some c) : r.method = .post := by
  by_contra hmethod
  rw [asked?, if_neg hmethod] at h
  cases h

/-- Only a request that the machine grants changes anything. -/
theorem respond_of_failed (hs : s.machine.journal = []) (h : (s.respond r).1.status ≠ 200) :
    (s.respond r).2 = s := by
  cases hasked : asked? r with
  | none => exact (respond_of_not_asked hasked).1
  | some c =>
    rw [respond_of_asked hasked] at h ⊢
    cases hgranted : (s.call c).1.isGranted with
    | true => exact absurd (responseOf_of_granted hgranted) h
    | false =>
      obtain ⟨e, hrefused⟩ := Reply.isGranted_eq_false_iff.1 hgranted
      exact call_of_refused hs hrefused

theorem respond_of_reading (h : r.method = .get ∨ r.method = .head ∨ r.method = .options) :
    (s.respond r).2 = s := by
  cases hasked : asked? r with
  | none => exact (respond_of_not_asked hasked).1
  | some c => simp [method_of_asked hasked] at h

/-- An error with a body reports a refusal. -/
theorem error_with_body_iff :
    (s.respond r).1.status ≠ 200 ∧ (s.respond r).1.body.isSome = true ↔
      ∃ c e, asked? r = some c ∧ (s.call c).1 = .refused e := by
  constructor
  · rintro ⟨hstatus, hbody⟩
    cases hasked : asked? r with
    | none =>
      rcases (respond_of_not_asked (s := s) hasked).2 with hsuccess | hnone
      · exact absurd hsuccess hstatus
      · rw [hnone] at hbody
        cases hbody
    | some c =>
      rw [respond_of_asked hasked] at hstatus
      have hgranted : (s.call c).1.isGranted = false :=
        Bool.eq_false_iff.2 fun h => hstatus (responseOf_of_granted h)
      obtain ⟨e, hrefused⟩ := Reply.isGranted_eq_false_iff.1 hgranted
      exact ⟨c, e, rfl, hrefused⟩
  · rintro ⟨c, e, hasked, hrefused⟩
    rw [respond_of_asked hasked, hrefused, responseOf_refused]
    refine ⟨?_, rfl⟩
    dsimp only
    split <;> decide

theorem reply_report (s : Service) (e : Report) : (s.call (.report e)).1 = .nothing := by
  show ((s.machine.receive e).returning Reply.nothing).quietly.2 = .nothing
  rw [Run.quietly_returning]

/-- A report that is posted is passed on, or is answered by a failure. -/
theorem respond_events (hpost : r.method = .post) (hpath : r.path = "/api/events") :
    (∃ e, r.contentType.any Http.isJsonType = true ∧ Report.parse r.body = .ok e ∧
        s.respond r = (.ok Ack.done.toJson, (s.call (.report e)).2)) ∨
      ((s.respond r).1.status ≠ 200 ∧
        ¬(r.contentType.any Http.isJsonType = true ∧ ∃ e, Report.parse r.body = .ok e)) := by
  have hroute : Route.ofPath? "/api/events" = some .events := by decide +kernel
  have hrespond : s.respond r = s.post .events r := by
    simp [respond, hpost, hpath, hroute]
  rw [hrespond]
  simp only [post, Route.intake?, Request.entity]
  by_cases hjson : r.contentType.any Http.isJsonType = true
  · rw [if_pos hjson]
    cases hparse : Report.parse r.body with
    | ok e =>
      refine .inl ⟨e, hjson, rfl, ?_⟩
      show (responseOf (s.call (.report e)).1, (s.call (.report e)).2) = _
      rw [reply_report]
      rfl
    | error fault =>
      right
      cases fault with
      | malformed => exact ⟨show 400 ≠ 200 by decide, by simp⟩
      | unfit => exact ⟨show 422 ≠ 200 by decide, by simp⟩
  · rw [if_neg hjson]
    exact .inr ⟨show 415 ≠ 200 by decide, fun h => hjson h.1⟩

/-- A request that fails or only reads leaves the service as it is: the machine with its timers, the
clients, and all that has gone out. An error has a body if and only if the machine has refused what
it was asked, and its status tells a violation of policy from the other refusals. A report that is
posted is answered by success if and only if its type is that of JSON and its text is understood,
and then it has been passed on once. -/
theorem Reachable.respond_changes (h : s.Reachable) (r : Request) :
    ((s.respond r).1.status ≠ 200 ∨ r.method = .get ∨ r.method = .head ∨ r.method = .options →
      (s.respond r).2 = s) ∧
    ((s.respond r).1.status ≠ 200 ∧ (s.respond r).1.body.isSome = true ↔
      ∃ c e, asked? r = some c ∧ (s.call c).1 = .refused e) ∧
    (∀ c e, asked? r = some c → (s.call c).1 = .refused e →
      (s.respond r).1.status = (if e.code = "policy_violation" then 409 else 400) ∧
        (s.respond r).1.body = some (Failure.session e).toJson) ∧
    (r.method = .post → r.path = "/api/events" →
      ((s.respond r).1.status = 200 ↔
        r.contentType.any Http.isJsonType = true ∧ ∃ e, Report.parse r.body = .ok e) ∧
      ((s.respond r).1.status = 200 → ∃ e, Report.parse r.body = .ok e ∧
        s.respond r = (.ok Ack.done.toJson, (s.call (.report e)).2))) := by
  refine ⟨?_, error_with_body_iff, ?_, ?_⟩
  · rintro (hfailed | hreading)
    · exact respond_of_failed h.journal hfailed
    · exact respond_of_reading hreading
  · intro c e hasked hrefused
    rw [respond_of_asked hasked, hrefused, responseOf_refused]
    exact ⟨rfl, rfl⟩
  · intro hpost hpath
    rcases respond_events (s := s) hpost hpath with ⟨e, hjson, hparse, hrespond⟩ | ⟨hfailed, hnot⟩
    · rw [hrespond]
      exact ⟨iff_of_true rfl ⟨hjson, e, hparse⟩, fun _ => ⟨e, hparse, rfl⟩⟩
    · exact ⟨iff_of_false hfailed hnot, fun hsuccess => absurd hsuccess hfailed⟩

/-- The service is to be disabled while a peer plays. It refuses, and stays as it is. -/
theorem respond_changes_nothing_while_playing :
    let made : Service := ⟨{}, { settings := Settings.session {}, nameSource := none },
      .ofCapacity 100, {}⟩
    let launch : Launch := ⟨.v4 ⟨10, 0, 0, 2⟩, "aa", "A", .v4 ⟨10, 0, 0, 1⟩⟩
    let calls : List Call := [.setEnabled true, .report (.connectionRequest "aa" "A"),
      .decide "Accept", .report (.launchRequest launch true)]
    let playing := (calls.map Act.call).foldl act made
    let r : Request :=
      { method := .post, target := "/api/enabled", contentType := some "application/json"
        body := "\x7b\"enabled\":false\x7d" }
    playing.machine.phase = .playerLaunched ∧ (playing.respond r).1.status = 409 ∧
      (playing.respond r).2 = playing := by
  intro made launch calls playing r
  have hmade : ofSettings {} none = .ok made := rfl
  have hplaying : playing.Reachable := (Reachable.made hmade).acts (calls.map Act.call)
  have hchanges := hplaying.respond_changes r
  have hasked : asked? r = some (.setEnabled false) := by decide +kernel
  have hrefused : (playing.call (.setEnabled false)).1 = .refused .playerRunning := by
    decide +kernel
  have hstatus : (playing.respond r).1.status = 409 :=
    (hchanges.2.2.1 _ _ hasked hrefused).1.trans (by decide +kernel)
  exact ⟨by decide +kernel, hstatus, hchanges.1 (.inl (by rw [hstatus]; decide))⟩

end Service

end CastReceiver
