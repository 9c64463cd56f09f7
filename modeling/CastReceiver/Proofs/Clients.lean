import CastReceiver.Clients
import Mathlib.Data.List.Nodup
import Mathlib.Data.List.TakeWhile

/-!
# The registry of clients tells its history

Clients are registered and released, deliver reports and are told to close, in any order. What the
registry says at the end can be read off what was done: it has one entry for every client that was
registered and not released since, and the entry says what happened to that client in the meantime
(`registry_tells_history`).
-/
namespace CastReceiver

namespace Clients

/-- What can be done to the registry. -/
inductive Action where
  | register (now : Nat)
  | record (id now : Nat)
  | release (id : Nat)
  | closeAll
  deriving DecidableEq

/-- When a client has delivered reports. -/
def reports (id : Nat) (as : List Action) : List Nat :=
  as.filterMap fun
    | .record reporter now => if reporter = id then some now else none
    | _ => none

def perform (cs : Clients) : Action → Clients
  | .register now => (cs.register now).2
  | .record id now => cs.recordEvent id now
  | .release id => cs.release id
  | .closeAll => cs.closeAll.2

/-- The registry after all this was done, one after another. -/
def performs (cs : Clients) (as : List Action) : Clients :=
  as.foldl perform cs

/-- The stay of a client: the number it was given, when it was registered, and all that was done
afterwards. -/
structure Stay where
  id : Nat
  since : Nat
  rest : List Action
  deriving DecidableEq

/-- The stays of the clients that are registered in the course of this. -/
def stays (cs : Clients) : List Action → List Stay
  | [] => []
  | .register now :: as =>
    ⟨(cs.register now).1, now, as⟩ :: (cs.perform (.register now)).stays as
  | a :: as => (cs.perform a).stays as

namespace Stay

/-- What the registry says of a client that has not been released. -/
def client? (s : Stay) : Option Client :=
  if .release s.id ∈ s.rest then none
  else some {
    id := s.id
    connectedAt := s.since
    eventsReceived := (reports s.id s.rest).length
    lastEventAt := (reports s.id s.rest).getLast?
    cancelled := decide (.closeAll ∈ s.rest) }

/-- What was done before the client was released. -/
def meantime (s : Stay) : List Action :=
  s.rest.takeWhile (· ≠ .release s.id)

end Stay

/-- At some moment the entry of the client said that its token was cancelled. A token that is
cancelled stays so, also when the client is released. -/
def IsCancelled (as : List Action) (id : Nat) : Prop :=
  ∃ earlier, earlier <+: as ∧
    ∃ c ∈ (performs {} earlier).entries, c.id = id ∧ c.cancelled = true

variable {cs : Clients} {a : Action} {as bs : List Action} {s : Stay} {id now : Nat}

/-! ## What becomes of one client -/

theorem reports_record (id now : Nat) (as : List Action) :
    reports id (.record id now :: as) = now :: reports id as := by
  simp [reports]

theorem reports_of_ne (h : ∀ now, a ≠ .record id now) : reports id (a :: as) = reports id as := by
  cases a with
  | record reporter now =>
    have hne : reporter ≠ id := by
      rintro rfl
      exact h now rfl
    simp [reports, hne]
  | register | release | closeAll => rfl

end Clients

namespace Client

open Clients (Action reports)

variable {c : Client} {a : Action} {as : List Action}

/-- One thing that is done to the registry, as far as it concerns one client. -/
def undergo? (c : Client) : Action → Option Client
  | .register _ => some c
  | .record id now => some (if c.id = id then c.record now else c)
  | .release id => if c.id = id then none else some c
  | .closeAll => some c.cancel

/-- All that is done to the registry, as far as it concerns one client. -/
def later? (c : Client) (as : List Action) : Option Client :=
  if .release c.id ∈ as then none
  else some { c with
    eventsReceived := c.eventsReceived + (reports c.id as).length
    lastEventAt := (reports c.id as).getLast?.or c.lastEventAt
    cancelled := c.cancelled || decide (.closeAll ∈ as) }

theorem later?_nil (c : Client) : c.later? [] = some c := by
  simp [later?, reports]

theorem later?_cons (c : Client) (a : Action) (as : List Action) :
    c.later? (a :: as) = (c.undergo? a).bind (·.later? as) := by
  cases a with
  | register now =>
    simp [undergo?, later?, Clients.reports_of_ne]
  | record id now =>
    by_cases hid : c.id = id
    · subst hid
      have hlast : (now :: reports c.id as).getLast?.or c.lastEventAt =
          (reports c.id as).getLast?.or (some now) := by
        rw [List.getLast?_cons]
        cases (reports c.id as).getLast? <;> rfl
      simp [undergo?, later?, record, Clients.reports_record, hlast, Nat.add_assoc, Nat.add_comm 1]
    · have hne : ∀ time, Action.record id now ≠ .record c.id time := by
        rintro time ⟨⟩
        exact hid rfl
      simp [undergo?, hid, later?, Clients.reports_of_ne hne]
  | release id =>
    by_cases hid : c.id = id
    · simp [undergo?, later?, hid]
    · simp [undergo?, later?, hid, Clients.reports_of_ne]
  | closeAll =>
    simp [undergo?, later?, cancel, Clients.reports_of_ne]

end Client

namespace Clients

variable {cs : Clients} {a : Action} {as bs : List Action} {s : Stay} {id : Nat}

/-! ## What becomes of the registry -/

theorem Stay.client?_eq (s : Stay) :
    s.client? = Client.later? { id := s.id, connectedAt := s.since } s.rest := by
  simp [Stay.client?, Client.later?]

/-- The client of a registration. -/
def newcomers (cs : Clients) : Action → List Client
  | .register now => [{ id := cs.nextId, connectedAt := now }]
  | _ => []

theorem entries_perform (cs : Clients) (a : Action) :
    (cs.perform a).entries = cs.entries.filterMap (·.undergo? a) ++ cs.newcomers a := by
  cases a with
  | register now =>
    simp [perform, register, newcomers, Client.undergo?]
  | record id now =>
    simp only [perform, recordEvent, newcomers, List.append_nil, Client.undergo?]
    rw [← List.filterMap_eq_map]
    rfl
  | release id =>
    simp only [perform, release, newcomers, List.append_nil, Client.undergo?]
    rw [← List.filterMap_eq_filter]
    congr 1
    ext c
    by_cases hid : c.id = id <;> simp [hid]
  | closeAll =>
    simp only [perform, closeAll, newcomers, List.append_nil, Client.undergo?]
    rw [← List.filterMap_eq_map]
    rfl

theorem stays_cons (cs : Clients) (a : Action) (as : List Action) :
    cs.stays (a :: as) =
      (cs.newcomers a).map (fun c => ⟨c.id, c.connectedAt, as⟩) ++ (cs.perform a).stays as := by
  cases a <;> rfl

/-- The entries are those of the clients that were there already, and of those that came, as far as
they have not been released. -/
theorem entries_performs (cs : Clients) (as : List Action) :
    (cs.performs as).entries =
      cs.entries.filterMap (·.later? as) ++ (cs.stays as).filterMap Stay.client? := by
  induction as generalizing cs with
  | nil =>
    simp [performs, stays, Client.later?_nil]
  | cons a as ih =>
    have hnew : (cs.newcomers a).filterMap (·.later? as) =
        ((cs.newcomers a).map fun c => (⟨c.id, c.connectedAt, as⟩ : Stay)).filterMap
          Stay.client? := by
      cases a with
      | register now =>
        rw [newcomers, List.map_singleton, List.filterMap_cons, List.filterMap_cons,
          Stay.client?_eq]
        rfl
      | record | release | closeAll => rfl
    show ((cs.perform a).performs as).entries = _
    rw [ih, entries_perform, stays_cons, List.filterMap_append, List.filterMap_append, hnew,
      List.filterMap_filterMap, List.append_assoc]
    simp only [Client.later?_cons]

/-- Numbers are given one after another, in the order of registration. -/
theorem ids_stays (cs : Clients) (as : List Action) :
    (cs.stays as).map Stay.id = List.range' cs.nextId (cs.stays as).length := by
  induction as generalizing cs with
  | nil => rfl
  | cons a as ih =>
    cases a with
    | register now =>
      have hnext : (cs.perform (.register now)).nextId = cs.nextId + 1 := rfl
      rw [stays, List.map_cons, ih, hnext, List.length_cons, List.range'_succ]
      rfl
    | record | release | closeAll => exact ih _

theorem pairwise_stays (cs : Clients) (as : List Action) :
    (cs.stays as).Pairwise fun s s' => s.id < s'.id := by
  rw [← List.pairwise_map (f := Stay.id) (R := (· < ·)), ids_stays]
  exact List.pairwise_lt_range'

theorem Stay.id_of_client? {c : Client} (h : s.client? = some c) : c.id = s.id := by
  unfold client? at h
  split at h
  · cases h
  · cases h
    rfl

theorem eq_of_id_eq {t : Stay} (hs : s ∈ cs.stays as) (ht : t ∈ cs.stays as)
    (hid : s.id = t.id) : s = t := by
  have hnodup : ((cs.stays as).map Stay.id).Nodup := by
    rw [ids_stays]
    exact List.nodup_range'
  exact List.inj_on_of_nodup_map hnodup hs ht hid

/-- A stay begins with a registration, at which the client gets its number. -/
theorem mem_stays_iff :
    s ∈ cs.stays as ↔ ∃ before, as = before ++ .register s.since :: s.rest ∧
      s.id = ((cs.performs before).register s.since).1 := by
  induction as generalizing cs with
  | nil => simp [stays]
  | cons a as ih =>
    rw [stays_cons, List.mem_append, ih]
    constructor
    · rintro (h | ⟨before, rfl, hid⟩)
      · cases a with
        | register now =>
          obtain rfl := List.mem_singleton.1 h
          exact ⟨[], rfl, rfl⟩
        | record | release | closeAll => cases h
      · exact ⟨a :: before, rfl, hid⟩
    · rintro ⟨before, has, hid⟩
      cases before with
      | nil =>
        cases has
        refine .inl (List.mem_singleton.2 ?_)
        cases s
        cases hid
        rfl
      | cons b before =>
        cases has
        exact .inr ⟨before, rfl, hid⟩

/-- More may be done afterwards, or less. -/
theorem mem_stays_append (hs : s ∈ cs.stays as) :
    { s with rest := s.rest ++ bs } ∈ cs.stays (as ++ bs) := by
  obtain ⟨before, rfl, hid⟩ := mem_stays_iff.1 hs
  exact mem_stays_iff.2 ⟨before, by simp, hid⟩

/-! ## Tokens -/

/-- A token is cancelled when all clients are told to close and its client is still registered. -/
theorem isCancelled_iff (hs : s ∈ stays {} as) : IsCancelled as s.id ↔ .closeAll ∈ s.meantime := by
  constructor
  · rintro ⟨earlier, ⟨later, rfl⟩, c, hc, hid, hcancelled⟩
    rw [entries_performs, List.mem_append] at hc
    have hc' : c ∈ (stays {} earlier).filterMap Stay.client? := hc.resolve_left nofun
    obtain ⟨t, ht, htc⟩ := List.mem_filterMap.1 hc'
    have hst : s = { t with rest := t.rest ++ later } := by
      apply eq_of_id_eq hs (mem_stays_append ht)
      rw [← hid, Stay.id_of_client? htc]
    unfold Stay.client? at htc
    split at htc
    case isTrue => cases htc
    case isFalse hreleased =>
      cases htc
      have hkept : ∀ a ∈ t.rest, decide (a ≠ .release t.id) = true := by
        rintro a ha
        rw [decide_eq_true_eq]
        rintro rfl
        exact hreleased ha
      rw [hst, Stay.meantime, List.takeWhile_append_of_pos hkept]
      exact List.mem_append_left _ (of_decide_eq_true hcancelled)
  · intro hclose
    obtain ⟨before, rfl, hid⟩ := mem_stays_iff.1 hs
    have hprefix : s.meantime <+: s.rest := List.takeWhile_prefix _
    let t : Stay := { s with rest := s.meantime }
    let earlier : List Action := before ++ .register s.since :: s.meantime
    have ht : t ∈ stays {} earlier := mem_stays_iff.2 ⟨before, rfl, hid⟩
    have hreleased : .release t.id ∉ t.rest := by
      intro h
      have hne := List.mem_takeWhile_imp h
      simp [t] at hne
    obtain ⟨c, hc⟩ : ∃ c, t.client? = some c := ⟨_, if_neg hreleased⟩
    have hcid : c.id = t.id := Stay.id_of_client? hc
    refine ⟨earlier, ?_, c, ?_, hcid, ?_⟩
    · exact (List.prefix_append_right_inj before).2 ((List.prefix_cons_inj _).2 hprefix)
    · rw [entries_performs, List.mem_append]
      exact .inr (List.mem_filterMap.2 ⟨t, ht, hc⟩)
    · rw [Stay.client?, if_neg hreleased] at hc
      cases hc
      exact decide_eq_true hclose

/-! ## The history -/

/-- The registry lists the clients that were registered and have not been released, in the order of
their numbers, and no number is given twice. Each entry says how many reports the client has
delivered, when the latest was, and whether the clients have been told to close since it was
registered; this is also what becomes of its token, which is not cancelled any more once the client
is released. Whoever is registered is told to close and counted, and remains registered. -/
theorem registry_tells_history (as : List Action) :
    (performs {} as).entries = (stays {} as).filterMap Stay.client? ∧
      (performs {} as).count = (performs {} as).entries.length ∧
      ((performs {} as).entries.map Client.id).Pairwise (· < ·) ∧
      ((stays {} as).map Stay.id).Pairwise (· < ·) ∧
      (∀ c ∈ (performs {} as).entries, c.lastEventAt = none ↔ c.eventsReceived = 0) ∧
      (∀ s ∈ stays {} as, IsCancelled as s.id ↔ .closeAll ∈ s.meantime) ∧
      (performs {} as).closeAll.1 = (performs {} as).entries.length ∧
      (performs {} as).closeAll.2.entries = (performs {} as).entries.map Client.cancel := by
  have hentries : (performs {} as).entries = (stays {} as).filterMap Stay.client? :=
    entries_performs {} as
  have hstays := pairwise_stays {} as
  refine ⟨hentries, rfl, ?_, List.pairwise_map.2 hstays, ?_, fun s => isCancelled_iff, rfl, rfl⟩
  · rw [hentries, List.pairwise_map, List.pairwise_filterMap]
    refine hstays.imp fun hlt c hc c' hc' => ?_
    rw [Stay.id_of_client? hc, Stay.id_of_client? hc']
    exact hlt
  · intro c hc
    rw [hentries] at hc
    obtain ⟨s, -, hs⟩ := List.mem_filterMap.1 hc
    unfold Stay.client? at hs
    split at hs
    · cases hs
    · cases hs
      simp

/-- Two clients, of which the first reports and is released after all were told to close, and a
third one that comes later. -/
example :
    (performs {} [.register 10, .register 20, .record 1 30, .closeAll, .release 1,
      .register 40, .record 2 50, .record 2 60]).entries =
    [⟨2, 20, 2, some 60, true⟩, ⟨3, 40, 0, none, false⟩] := by
  decide

end Clients

end CastReceiver
