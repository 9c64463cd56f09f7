import CastReceiver.Proofs.Nesting
import CastReceiver.Proofs.Spelling.Operations
import Mathlib.Data.List.Forall2

/-!
# The case of letters in addresses

Whatever happens to a machine, whoever interferes while commands are carried out, it goes the same
way in every spelling of the addresses. One such spelling writes them in lower case; so two machines
to which the same happens, but for the case of letters in addresses, do the same but for that case.
-/
namespace CastReceiver

/-! ## Worlds in another spelling -/

variable {s : Spelling}

/-- A run that waits goes on alike in another spelling. -/
def Spelling.Waits (s : Spelling) (next next' : Machine → Run Reply) : Prop :=
  ∀ m, (next m).Respells s (Reply.respell s) (next' (m.respell s))

/-- A world in another spelling. -/
structure World.Respells (s : Spelling) (w w' : World) : Prop where
  machine : w'.machine = w.machine.respell s
  waiting : List.Forall₂ s.Waits w.waiting w'.waiting

namespace Run

variable {r r' : Run Reply} {waiting waiting' : List (Machine → Run Reply)}

theorem Respells.pause (h : r.Respells s (Reply.respell s) r')
    (hwaiting : List.Forall₂ s.Waits waiting waiting') :
    (r'.pause waiting').1 = (r.pause waiting).1.map (Command.respell s) ∧
      (r.pause waiting).2.Respells s (r'.pause waiting').2 := by
  cases h with
  | done hm _ => exact ⟨rfl, hm, hwaiting⟩
  | issue hm hc hnext => exact ⟨congrArg some hc, hm, .cons hnext hwaiting⟩

theorem Respells.reply? (h : r.Respells s (Reply.respell s) r') :
    r'.reply? = r.reply?.map (Reply.respell s) := by
  cases h with
  | done _ hb => exact congrArg some hb
  | issue => rfl

end Run

namespace World

variable {w w' : World} {ts : List Turn}

/-- Nothing has been spelled yet. -/
theorem respells_fresh (s : Spelling) (settings : SessionSettings)
    (nameSource : Option NameSource) :
    (fresh settings nameSource).Respells s (fresh settings nameSource) where
  machine := rfl
  waiting := .nil

namespace Respells

theorem possible_iff (h : w.Respells s w') (t : Turn) :
    w'.Possible (t.respell s) ↔ w.Possible t := by
  obtain ⟨m, waiting⟩ := w
  obtain ⟨m', waiting'⟩ := w'
  obtain ⟨rfl, hwaiting⟩ := h
  cases t with
  | resume => cases hwaiting <;> exact Iff.rfl
  | happen o => cases o <;> exact Iff.rfl

/-- A turn goes the same way in every spelling. -/
theorem turn (h : w.Respells s w') (t : Turn) :
    (w'.turn (t.respell s)).1 = (w.turn t).1.map (Command.respell s) ∧
      (w.turn t).2.Respells s (w'.turn (t.respell s)).2 ∧
      w'.reply? (t.respell s) = (w.reply? t).map (Reply.respell s) := by
  obtain ⟨m, waiting⟩ := w
  obtain ⟨m', waiting'⟩ := w'
  obtain ⟨rfl, hwaiting⟩ := h
  cases t with
  | happen o =>
    have hrun := o.run_respells (s := s) m
    obtain ⟨hc, hw⟩ := hrun.pause hwaiting
    exact ⟨hc, hw, hrun.reply?⟩
  | resume =>
    cases hwaiting with
    | nil => exact ⟨rfl, ⟨rfl, .nil⟩, rfl⟩
    | cons hnext hwaiting =>
      obtain ⟨hc, hw⟩ := (hnext m).pause hwaiting
      exact ⟨hc, hw, (hnext m).reply?⟩

theorem turns (h : w.Respells s w') (ts : List Turn) :
    (w'.AllPossible (ts.map (Turn.respell s)) ↔ w.AllPossible ts) ∧
      (w.turns ts).Respells s (w'.turns (ts.map (Turn.respell s))) := by
  induction ts generalizing w w' with
  | nil => exact ⟨Iff.rfl, h⟩
  | cons t ts ih =>
    obtain ⟨-, hw, -⟩ := h.turn t
    obtain ⟨hpossible, hturns⟩ := ih hw
    exact ⟨and_congr (h.possible_iff t) hpossible, hturns⟩

end Respells

end World

/-! ## Lower case -/

/-- Addresses are written in lower case. -/
def lowerCase : Spelling where
  write a := String.ofList (Text.lower a.toList)
  same a b := by
    simp only [sameMac, Text.sameLetters, String.toList_ofList, Text.lower_lower]

/-- In lower case, the same addresses are spelled alike, and no others. -/
theorem lowerCase_write_eq_iff {a b : String} :
    lowerCase.write a = lowerCase.write b ↔ sameMac a b = true := by
  rw [sameMac, Text.sameLetters_iff]
  exact String.ofList_inj

/-- Two turns are the same but for the case of letters in addresses. -/
def Turn.Variant (t t' : Turn) : Prop :=
  t.respell lowerCase = t'.respell lowerCase

/-- Two machines are the same but for the case of letters in addresses, and these occur only in the
peers and in the journal. -/
structure Machine.Variant (m m' : Machine) : Prop where
  settings : m.settings = m'.settings
  phase : m.phase = m'.phase
  id : m.session.id = m'.session.id
  attempts : m.attempts = m'.attempts
  player : m.session.player = m'.session.player
  friendlyName : m.session.friendlyName = m'.session.friendlyName
  gate : m.gate = m'.gate
  power : m.power = m'.power
  radio : m.radio = m'.radio
  watchdogs : m.watchdogs = m'.watchdogs
  pending : m.session.pending.map (PendingPeer.respell lowerCase) =
    m'.session.pending.map (PendingPeer.respell lowerCase)
  active : m.session.active.map (Peer.respell lowerCase) =
    m'.session.active.map (Peer.respell lowerCase)
  preempting : m.session.preempting.map (Peer.respell lowerCase) =
    m'.session.preempting.map (Peer.respell lowerCase)
  /-- All that has been said and all that has been commanded, in the same order. -/
  journal : m.journal.map (Entry.respell lowerCase) = m'.journal.map (Entry.respell lowerCase)

/-- Two replies are the same but for the case of letters in an address that is quoted. -/
structure Reply.Variant (r r' : Reply) : Prop where
  eq_respell : r.respell lowerCase = r'.respell lowerCase
  ack (a : Ack) : r = .ack a ↔ r' = .ack a
  refused (code : String) : (∃ e, r = .refused e ∧ e.code = code) ↔
    ∃ e, r' = .refused e ∧ e.code = code

theorem Machine.variant_of_respell {m m' : Machine}
    (h : m.respell lowerCase = m'.respell lowerCase) : m.Variant m' where
  settings := congrArg (fun m => m.settings) h
  phase := congrArg (fun m => m.session.phase) h
  id := congrArg (fun m => m.session.id) h
  attempts := congrArg (fun m => m.attempts) h
  player := congrArg (fun m => m.session.player) h
  friendlyName := congrArg (fun m => m.session.friendlyName) h
  gate := congrArg (fun m => m.gate) h
  power := congrArg (fun m => m.power) h
  radio := congrArg (fun m => m.radio) h
  watchdogs := congrArg (fun m => m.watchdogs) h
  pending := congrArg (fun m => m.session.pending) h
  active := congrArg (fun m => m.session.active) h
  preempting := congrArg (fun m => m.session.preempting) h
  journal := congrArg (fun m => m.journal) h

theorem SessionError.code_respell (e : SessionError) : (e.respell s).code = e.code := by
  cases e <;> rfl

namespace Reply

/-- What a reply acknowledges, and with which code it refuses, is the same in every spelling. -/
theorem kind_respell (r : Reply) (a : Ack) (code : String) :
    (r.respell s = .ack a ↔ r = .ack a) ∧
      ((∃ e, r.respell s = .refused e ∧ e.code = code) ↔ ∃ e, r = .refused e ∧ e.code = code) := by
  cases r with
  | refused e => simp [respell, SessionError.code_respell]
  | nothing | flag | phase | ack | unintelligible => simp [respell]

theorem variant_of_respell {r r' : Reply} (h : r.respell lowerCase = r'.respell lowerCase) :
    r.Variant r' where
  eq_respell := h
  ack a := by
    rw [← (r.kind_respell (s := lowerCase) a "").1, h]
    exact (r'.kind_respell a "").1
  refused code := by
    rw [← (r.kind_respell (s := lowerCase) .done code).2, h]
    exact (r'.kind_respell .done code).2

end Reply

namespace World

/-- The case of letters in addresses never matters: to two machines with the same settings, the same
happens but for that case. Then the second one can take all these turns too; both are in the same
state and have said and commanded the same, and whatever happens to both next, they go on with the
same command and give the same reply, all but for the case of letters in addresses. -/
theorem letter_case_never_matters {settings : SessionSettings} {nameSource : Option NameSource}
    {ts ts' : List Turn} (hts : (fresh settings nameSource).AllPossible ts)
    (hsame : List.Forall₂ Turn.Variant ts ts') :
    let w := (fresh settings nameSource).turns ts
    let w' := (fresh settings nameSource).turns ts'
    (fresh settings nameSource).AllPossible ts' ∧ w.machine.Variant w'.machine ∧
      w.waiting.length = w'.waiting.length ∧
      ∀ t t', t.Variant t' → w.Possible t → w'.Possible t' ∧
        (w.turn t).1.map (Command.respell lowerCase) =
          (w'.turn t').1.map (Command.respell lowerCase) ∧
        Option.Rel Reply.Variant (w.reply? t) (w'.reply? t') := by
  intro w w'
  have hfresh := respells_fresh lowerCase settings nameSource
  obtain ⟨hpossible, hw⟩ := hfresh.turns ts
  obtain ⟨hpossible', hw'⟩ := hfresh.turns ts'
  have hmap : ts.map (Turn.respell lowerCase) = ts'.map (Turn.respell lowerCase) := by
    rw [← List.forall₂_eq_eq_eq, List.forall₂_map_left_iff, List.forall₂_map_right_iff]
    exact hsame
  rw [← hmap] at hpossible' hw'
  refine ⟨hpossible'.1 (hpossible.2 hts), ?_, ?_, fun t t' ht hpossible => ?_⟩
  · exact Machine.variant_of_respell (hw.machine.symm.trans hw'.machine)
  · exact hw.waiting.length_eq.trans hw'.waiting.length_eq.symm
  · obtain ⟨hc, -, hreply⟩ := hw.turn t
    obtain ⟨hc', -, hreply'⟩ := hw'.turn t'
    have hpossible' := hw'.possible_iff t'
    rw [← ht] at hc' hreply' hpossible'
    refine ⟨hpossible'.1 ((hw.possible_iff t).2 hpossible), hc.symm.trans hc', ?_⟩
    have hreplies : (w.reply? t).map (Reply.respell lowerCase) =
        (w'.reply? t').map (Reply.respell lowerCase) := hreply.symm.trans hreply'
    cases hr : w.reply? t <;> cases hr' : w'.reply? t' <;> rw [hr, hr'] at hreplies
    · exact .none
    · exact nomatch hreplies
    · exact nomatch hreplies
    · exact .some (Reply.variant_of_respell (Option.some.inj hreplies))

/-- One peer is connected twice, and stops its connection in yet another spelling. -/
theorem letter_case_never_matters_to_a_stop :
    ∃ w w' : World, w.machine.Variant w'.machine ∧
      w.machine.session.active = some ⟨"0a:b1", "A"⟩ ∧
      w'.machine.session.active = some ⟨"0A:b1", "A"⟩ ∧
      (w.turn (.happen (.call (.stop "0a:B1" "A")))).1.map (Command.respell lowerCase) =
        (w'.turn (.happen (.call (.stop "0a:b1" "A")))).1.map (Command.respell lowerCase) := by
  let ts (mac : String) : List Turn := [.happen (.call (.setEnabled true)), .resume,
    .happen (.call (.report (.connectionRequest mac "A"))), .happen (.call (.decide "Accept")),
    .resume]
  have hts : (fresh {} none).AllPossible (ts "0a:b1") := by decide +kernel
  have hsame : List.Forall₂ Turn.Variant (ts "0a:b1") (ts "0A:b1") := by
    have hmac : lowerCase.write "0a:b1" = lowerCase.write "0A:b1" :=
      lowerCase_write_eq_iff.2 (by decide +kernel)
    refine .cons rfl (.cons rfl (.cons ?_ (.cons rfl (.cons rfl .nil))))
    exact congrArg (fun mac => Turn.happen (.call (.report (.connectionRequest mac "A")))) hmac
  have hactive : ((fresh {} none).turns (ts "0a:b1")).machine.session.active =
    some ⟨"0a:b1", "A"⟩ := by decide +kernel
  have hactive' : ((fresh {} none).turns (ts "0A:b1")).machine.session.active =
    some ⟨"0A:b1", "A"⟩ := by decide +kernel
  have hstops : Turn.Variant (.happen (.call (.stop "0a:B1" "A")))
      (.happen (.call (.stop "0a:b1" "A"))) := by
    have hmac : lowerCase.write "0a:B1" = lowerCase.write "0a:b1" :=
      lowerCase_write_eq_iff.2 (by decide +kernel)
    exact congrArg (fun mac => Turn.happen (.call (.stop mac "A"))) hmac
  obtain ⟨-, hvariant, -, hnext⟩ := letter_case_never_matters hts hsame
  obtain ⟨-, hcommand, -⟩ := hnext _ _ hstops trivial
  exact ⟨_, _, hvariant, hactive, hactive', hcommand⟩

end World

end CastReceiver
