import CastReceiver.Proofs.Reports
import CastReceiver.Proofs.Service.Requests

/-!
# What comes in

A report may be posted, or be sent on a socket inside another record. Where it is posted it is read
from its text, and on a socket it is taken from a value that has been read; both come to the same.
-/
namespace CastReceiver

variable {text : String}

namespace Incoming

/-- What a value stands for. -/
def ofJson? (j : Json) : Option Incoming := do
  let (tag, body) ← j.taggedOf? tags false
  ofBody? tag body

theorem parse_eq_ok_iff {i : Incoming} :
    parse text = .ok i ↔ ∃ j, Json.parse text = some j ∧ ofJson? j = some i := by
  refine Json.whole_tagged_iff ofBody? read fun s => ?_
  unfold read
  congr
  funext ⟨⟨tag, body⟩, rest⟩
  dsimp only
  cases ofBody? tag body <;> rfl

/-- The text that delivers a report, which is its payload. -/
def envelope (payload : String) : String :=
  "\x7b\"type\":\"EVENT\",\"payload\":" ++ payload ++ "\x7d"

theorem toList_envelope (payload : String) :
    (envelope payload).toList =
      '{' :: Text.join ',' [Json.quoted "type" ++ ':' :: Json.render (.string "EVENT"),
        Json.quoted "payload" ++ ':' :: payload.toList] ++ ['}'] := by
  have hopen : "\x7b\"type\":\"EVENT\",\"payload\":".toList =
      '{' :: (Json.quoted "type" ++ ':' :: Json.render (.string "EVENT") ++
        ',' :: (Json.quoted "payload" ++ [':'])) := by
    decide +kernel
  have hclose : "\x7d".toList = ['}'] := rfl
  have happend : (envelope payload).toList =
      "\x7b\"type\":\"EVENT\",\"payload\":".toList ++ payload.toList ++ "\x7d".toList :=
    String.toList_append.trans (congrArg (· ++ _) String.toList_append)
  rw [happend, hopen, hclose]
  simp only [Text.join, List.append_assoc, List.cons_append, List.nil_append]

/-- The payload nests one level deeper inside its envelope. -/
theorem parse_envelope {payload : String} {j : Json} (h : Json.parse payload = some j)
    (hdepth : j.depth < Json.maxDepth) :
    Json.parse (envelope payload) = some (.object [("type", .string "EVENT"), ("payload", j)]) := by
  have htype := (Json.IsPlain.string "EVENT").isMember "type"
  have hpayload : Json.IsMember (Json.quoted "payload" ++ ':' :: payload.toList) ("payload", j) :=
    ⟨Json.quoted "payload", payload.toList, rfl, Json.parse_quoted "payload",
      by rwa [String.ofList_toList], hdepth⟩
  refine Json.parse_of_isObject ?_ (.cons htype (.cons hpayload .nil))
  exact ⟨[], [], Json.isBlank_nil, Json.isBlank_nil, toList_envelope payload⟩

theorem ofJson?_envelope {j : Json} {r : Report} (h : Report.ofJson? true j = some r) :
    ofJson? (.object [("type", .string "EVENT"), ("payload", j)]) = some (.report r) := by
  have htagged : Json.taggedOf? tags false (.object [("type", .string "EVENT"), ("payload", j)]) =
      some ("EVENT", .members [("payload", j)]) := rfl
  rw [ofJson?, htagged]
  show (Report.ofJson? true j).map Incoming.report = _
  rw [h]
  rfl

/-- A report comes out of its envelope as it is read by itself. -/
theorem parse_envelope_eq_ok {payload : String} {r : Report} (h : Report.parse payload = .ok r)
    (hdepth : ∀ j ∈ Json.parse payload, j.depth < Json.maxDepth) :
    parse (envelope payload) = .ok (.report r) := by
  obtain ⟨j, hj, hr⟩ := Report.parse_eq_ok_iff.1 h
  exact parse_eq_ok_iff.2
    ⟨_, parse_envelope hj (hdepth j hj), ofJson?_envelope (Report.ofJson?_numbered hr)⟩

end Incoming

/-! ## Counters of clients -/

/-- A report counts for the client that has delivered it, and for no other. -/
theorem Clients.find?_recordEvent (cs : Clients) (id now id' : Nat) :
    (cs.recordEvent id now).find? id' =
      (cs.find? id').map fun c => if id' = id then c.record now else c := by
  have hid : (fun c : Client => (if c.id = id then c.record now else c).id == id') =
      fun c => c.id == id' := by
    funext c
    split <;> rfl
  rw [find?, recordEvent, List.find?_map, find?, Function.comp_def, hid]
  refine Option.map_congr fun c hc => ?_
  obtain rfl : c.id = id' := by simpa using List.find?_some hc
  rfl

namespace Service

open Http (Request)

theorem call_withClients (s : Service) (clients : Clients) (c : Call) :
    { s with clients }.call c = ((s.call c).1, { (s.call c).2 with clients }) :=
  rfl

/-- A report that is accepted when it is posted is accepted from a socket as well, without a reply.
It counts for the client that has sent it, and for no other, and all else comes to the same. Any
other text than a report or a heartbeat gets one reply, that it is invalid, and changes nothing. -/
theorem intake_agrees (s : Service) (c : Connection) :
    (∀ r : Request, r.method = .post → r.path = "/api/events" → (s.respond r).1.status = 200 →
      (∀ j ∈ Json.parse r.body, j.depth ≤ 126) →
        s.receive c (Incoming.envelope r.body) =
            (none, { (s.respond r).2 with
              clients := s.clients.recordEvent c.client s.machine.now }) ∧
          ∀ id, ((s.clients.recordEvent c.client s.machine.now).find? id).map
              Client.eventsReceived =
            (s.clients.find? id).map fun client =>
              if id = c.client then client.eventsReceived + 1 else client.eventsReceived) ∧
    ∀ text, (∀ j ∈ Json.parse text, Incoming.ofJson? j = none) →
      s.receive c text = (some .invalidMessage, s) := by
  refine ⟨fun r hpost hpath hstatus hdepth => ⟨?_, fun id => ?_⟩, fun text hnone => ?_⟩
  · rcases respond_events (s := s) hpost hpath with ⟨e, -, hparse, hrespond⟩ | ⟨hfailed, -⟩
    · have henvelope := Incoming.parse_envelope_eq_ok hparse fun j hj =>
        Nat.lt_succ_of_le (hdepth j hj)
      rw [receive, henvelope, hrespond]
      dsimp only
      rw [call_withClients]
    · exact absurd hstatus hfailed
  · rw [Clients.find?_recordEvent, Option.map_map]
    refine Option.map_congr fun client _ => ?_
    rw [Function.comp_apply]
    split <;> rfl
  · cases hparse : Incoming.parse text with
    | error fault => rw [receive, hparse]
    | ok i =>
      obtain ⟨j, hj, hi⟩ := Incoming.parse_eq_ok_iff.1 hparse
      rw [hnone j hj] at hi
      cases hi

/-- Two clients are connected to a service that runs, and the second reports that a peer asks to
connect. What goes out is what would have gone out if the report had been posted. Then it sends a
record without a type. -/
theorem intake_agrees_on_request :
    let made : Service := ⟨{}, { settings := Settings.session {}, nameSource := none },
      .ofCapacity 100, {}⟩
    let s := (made.connect.2.2.connect.2.2.call (.setEnabled true)).2
    let c := made.connect.2.2.connect.2.1
    let r : Request :=
      { method := .post, target := "/api/events", contentType := some "application/json"
        body := "\x7b\"name\":\"A\",\"mac\":\"aa\",\"type\":\"connectionRequest\"\x7d" }
    let s' := (s.receive c (Incoming.envelope r.body)).2
    (s.respond r).1.status = 200 ∧ s'.machine = (s.respond r).2.machine ∧
      s'.hub = (s.respond r).2.hub ∧
      s'.hub.channel.sent.drop s.hub.channel.position =
        [.state (.changed .discoverable .connecting (some (.nth 0)) 0),
          .notification (.connectionRequest ⟨"aa", "A"⟩ 0)] ∧
      (s'.clients.find? 1).map Client.eventsReceived = some 0 ∧
      (s'.clients.find? 2).map Client.eventsReceived = some 1 ∧
      s'.receive c "\x7b\x7d" = (some .invalidMessage, s') := by
  intro made s c r s'
  have hstatus : (s.respond r).1.status = 200 := by decide +kernel
  obtain ⟨hreceive, hcounters⟩ :=
    (s.intake_agrees c).1 r rfl (by decide +kernel) hstatus (by decide +kernel)
  have hclients : s'.clients = s.clients.recordEvent c.client s.machine.now :=
    congrArg (fun x => x.2.clients) hreceive
  refine ⟨hstatus, congrArg (fun x => x.2.machine) hreceive,
    congrArg (fun x => x.2.hub) hreceive, by decide +kernel, ?_, ?_,
    (s'.intake_agrees c).2 _ (by decide +kernel)⟩
  · rw [hclients, hcounters 1]
    decide +kernel
  · rw [hclients, hcounters 2]
    decide +kernel

end Service

end CastReceiver
