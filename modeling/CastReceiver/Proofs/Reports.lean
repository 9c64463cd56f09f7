import CastReceiver.Event.Report
import CastReceiver.Proofs.Address.ReadBack
import CastReceiver.Proofs.Json.Objects
import Mathlib.Data.List.Perm.Basic

/-!
# Reports as they are written

A report is read back from the text that it is written as. In any text of an object that stands for
a report the members may change places, and more members may come in whose names mean nothing to it.
-/
namespace CastReceiver

/-! ## Values of members -/

namespace Json

variable {members members' : Members} {name : String}

theorem valuesOf_append (members members' : Members) :
    valuesOf name (members ++ members') = valuesOf name members ++ valuesOf name members' :=
  List.filterMap_append

theorem valuesOf_eq_nil (h : ∀ m ∈ members, m.1 ≠ name) : valuesOf name members = [] :=
  List.filterMap_eq_nil_iff.2 fun m hm => if_neg (h m hm)

/-- Neither the order of the members nor those of other names matter to the values of a name. -/
theorem valuesOf_perm {extra : Members} (h : members'.Perm (members ++ extra))
    (hextra : ∀ m ∈ extra, m.1 ≠ name) : (valuesOf name members').Perm (valuesOf name members) := by
  have hperm : (valuesOf name members').Perm (valuesOf name (members ++ extra)) := h.filterMap _
  rwa [valuesOf_append, valuesOf_eq_nil hextra, List.append_nil] at hperm

theorem valuesOf_singleton {j : Json} (h : valuesOf name members = [j])
    (hperm : (valuesOf name members').Perm (valuesOf name members)) :
    valuesOf name members' = [j] := by
  rwa [h, List.perm_singleton] at hperm

theorem valuesOf_filter (h : name ≠ tagName) (members : Members) :
    valuesOf name (members.filter (·.1 ≠ tagName)) = valuesOf name members := by
  rw [valuesOf, valuesOf, List.filterMap_filter]
  refine List.filterMap_congr fun m _ => ?_
  by_cases hm : m.1 = tagName
  · have hne : m.1 ≠ name := fun he => h (he.symm.trans hm)
    simp [hm, Ne.symm h]
  · simp [hm]

theorem required?_perm {names : List String} {js : List Json}
    (h : (Body.members members).required? names = some js)
    (hperm : ∀ name ∈ names, (valuesOf name members').Perm (valuesOf name members)) :
    (Body.members members').required? names = some js := by
  rw [Body.required?] at h ⊢
  induction names generalizing js with
  | nil => exact h
  | cons name names ih =>
    rw [List.mapM_cons] at h ⊢
    obtain ⟨j, hj, h⟩ := Option.bind_eq_some_iff.1 h
    obtain ⟨js', hjs, h⟩ := Option.bind_eq_some_iff.1 h
    split at hj
    case h_2 => cases hj
    case h_1 j' hvalues =>
      cases hj
      have hsame := valuesOf_singleton hvalues (hperm name List.mem_cons_self)
      simp only [hsame, ih hjs fun n hn => hperm n (List.mem_cons_of_mem _ hn),
        Option.bind_eq_bind, Option.bind_some]
      exact h

end Json

variable {found found' : Json.Members}

theorem Launch.ofMembers?_perm {l : Launch} (h : ofMembers? found = some l)
    (hperm : ∀ name ∈ l.members.map Prod.fst,
      (Json.valuesOf name found').Perm (Json.valuesOf name found)) :
    ofMembers? found' = some l := by
  unfold ofMembers? at h
  split at h
  case h_2 => cases h
  case h_1 sourceIp mac name sinkIp hsource hmac hname hsink =>
    have hsource' := Json.valuesOf_singleton hsource (hperm "sourceIp" (by simp [members]))
    have hmac' := Json.valuesOf_singleton hmac (hperm "sourceMac" (by simp [members]))
    have hname' := Json.valuesOf_singleton hname (hperm "sourceName" (by simp [members]))
    have hsink' := Json.valuesOf_singleton hsink (hperm "sinkIp" (by simp [members]))
    simpa only [ofMembers?, hsource', hmac', hname', hsink'] using h

namespace Report

variable {text : String} {r : Report}

/-! ## Reports as values -/

/-- A text is a report if and only if it stands for a value that is one. -/
theorem parse_eq_ok_iff :
    parse text = .ok r ↔ ∃ j, Json.parse text = some j ∧ ofJson? false j = some r := by
  refine Json.whole_tagged_iff ofBody? read fun s => ?_
  unfold read
  congr
  funext ⟨⟨kind, body⟩, rest⟩
  dsimp only
  cases ofBody? kind body <;> rfl

theorem ofJson?_numbered {j : Json} (h : ofJson? false j = some r) : ofJson? true j = some r := by
  obtain ⟨⟨kind, body⟩, htagged, hbody⟩ := Option.bind_eq_some_iff.1 h
  exact Option.bind_eq_some_iff.2 ⟨(kind, body), Json.taggedOf?_numbered htagged, hbody⟩

/-- The names that mean something to a report. -/
def names (r : Report) : List String :=
  Json.tagName :: r.members.map Prod.fst

theorem launchOfBody?_perm (h : launchOfBody? (.members found) = some r)
    (hperm : ∀ name ∈ r.members.map Prod.fst,
      (Json.valuesOf name found').Perm (Json.valuesOf name found)) :
    launchOfBody? (.members found') = some r := by
  obtain ⟨launch, hlaunch, h⟩ := Option.bind_eq_some_iff.1 h
  obtain ⟨reported, rfl⟩ : ∃ reported, r = .launchRequest launch reported := by
    split at h
    · exact ⟨_, (Option.some.inj h).symm⟩
    · exact ⟨_, (Option.some.inj h).symm⟩
    · cases h
  have hlaunch' : Launch.ofMembers? found' = some launch :=
    Launch.ofMembers?_perm hlaunch fun name hname => hperm name (by simp [members, hname])
  have hreported := hperm "connectionReported" (by simp [members])
  simp only [launchOfBody?, hlaunch', Option.bind_eq_bind, Option.bind_some]
  split at h
  case h_1 hnone =>
    rw [hnone, List.perm_nil] at hreported
    rw [hreported]
    exact h
  case h_2 b hone =>
    rw [Json.valuesOf_singleton hone hreported]
    exact h
  case h_3 => cases h

/-- A report needs the values of its own names, and no others. -/
theorem ofBody?_perm {kind : String} (h : ofBody? kind (.members found) = some r)
    (hperm : ∀ name ∈ r.members.map Prod.fst,
      (Json.valuesOf name found').Perm (Json.valuesOf name found)) :
    ofBody? kind (.members found') = some r := by
  unfold ofBody? at h
  split at h
  case h_1 =>
    split at h
    case h_2 => cases h
    case h_1 mac name hrequired =>
      cases h
      simp only [ofBody?, Json.required?_perm hrequired hperm]
  case h_2 => exact launchOfBody?_perm h hperm
  case h_3 =>
    obtain ⟨js, hrequired, h⟩ := Option.map_eq_some_iff.1 h
    cases h
    simp only [ofBody?, Json.required?_perm hrequired hperm, Option.map_some]
  case h_4 =>
    split at h
    case h_2 => cases h
    case h_1 old new hrequired =>
      obtain ⟨oldMode, hold, h⟩ := Option.bind_eq_some_iff.1 h
      obtain ⟨newMode, hnew, h⟩ := Option.bind_eq_some_iff.1 h
      cases h
      simp only [ofBody?, Json.required?_perm hrequired hperm, hold, hnew, Option.bind_eq_bind,
        Option.bind_some]
  case h_5 =>
    split at h
    case h_2 => cases h
    case h_1 enabled hrequired =>
      cases h
      simp only [ofBody?, Json.required?_perm hrequired hperm]
  case h_6 =>
    split at h
    case h_2 => cases h
    case h_1 state hrequired =>
      obtain ⟨wifi, hwifi, h⟩ := Option.map_eq_some_iff.1 h
      cases h
      simp only [ofBody?, Json.required?_perm hrequired hperm, hwifi, Option.map_some]
  case h_7 => cases h

theorem ofJson?_launch (l : Launch) (reported : Bool) :
    ofJson? false (toJson (.launchRequest l reported)) = some (.launchRequest l reported) := by
  have haddress (a : Address) : Address.ofJson? a.toJson = some a := a.parse?_text
  have hlaunch : Launch.ofMembers? (members (.launchRequest l reported)) = some l := by
    show (do some ⟨← Address.ofJson? l.sourceIp.toJson, l.sourceMac, l.sourceName,
      ← Address.ofJson? l.sinkIp.toJson⟩) = some l
    rw [haddress, haddress]
    rfl
  have hbody : ofJson? false (toJson (.launchRequest l reported)) =
      launchOfBody? (.members (members (.launchRequest l reported))) := rfl
  rw [hbody, launchOfBody?, hlaunch]
  rfl

/-- A report is taken from the value that it is written as. -/
theorem ofJson?_toJson (r : Report) : ofJson? false r.toJson = some r := by
  cases r with
  | launchRequest l reported => exact ofJson?_launch l reported
  | powerModeChanged old new => cases old <;> cases new <;> rfl
  | wifiStateChanged state => cases state <;> rfl
  | _ => rfl

theorem isPlain_members (r : Report) : ∀ m ∈ r.members, Json.IsPlain m.2 := by
  cases r with
  | launchRequest l reported =>
    simp only [members, Launch.members, List.forall_mem_append, List.forall_mem_cons]
    exact ⟨⟨.string _, .string _, .string _, .string _, List.forall_mem_nil _⟩, .bool _,
      List.forall_mem_nil _⟩
  | connectionRequest mac name =>
    simp only [members, List.forall_mem_cons]
    exact ⟨.string _, .string _, List.forall_mem_nil _⟩
  | discoveryRestarted => simp [members]
  | powerModeChanged old new =>
    simp only [members, List.forall_mem_cons]
    exact ⟨.string _, .string _, List.forall_mem_nil _⟩
  | networkStandbyChanged enabled =>
    simp only [members, List.forall_mem_cons]
    exact ⟨.bool _, List.forall_mem_nil _⟩
  | wifiStateChanged state =>
    simp only [members, List.forall_mem_cons]
    exact ⟨.string _, List.forall_mem_nil _⟩

theorem parse_text (r : Report) : parse r.toJson.text = .ok r := by
  have hplain : ∀ m ∈ (Json.tagName, Json.string r.kind) :: r.members, Json.IsPlain m.2 :=
    List.forall_mem_cons.2 ⟨.string _, r.isPlain_members⟩
  exact parse_eq_ok_iff.2 ⟨r.toJson, Json.parse_text _ _ hplain, r.ofJson?_toJson⟩

theorem tagName_not_mem (r : Report) : Json.tagName ∉ r.members.map Prod.fst := by
  cases r <;> simp [members, Launch.members, Json.tagName]

/-- A report is still found when members change places and members of other names come in. -/
theorem ofJson?_perm {members members' extra : Json.Members}
    (h : ofJson? false (.object members) = some r) (hperm : members'.Perm (members ++ extra))
    (hextra : ∀ m ∈ extra, m.1 ∉ r.names) : ofJson? false (.object members') = some r := by
  obtain ⟨⟨kind, body⟩, htagged, hbody⟩ := Option.bind_eq_some_iff.1 h
  obtain ⟨hparted, rfl⟩ := Json.taggedOf?_object_iff.1 htagged
  obtain ⟨htag, hkind, -⟩ := Json.parted_none_iff.1 hparted
  have hvalues (name : String) (hname : name ∈ r.names) :
      (Json.valuesOf name members').Perm (Json.valuesOf name members) :=
    Json.valuesOf_perm hperm fun m hm he => hextra m hm (he ▸ hname)
  have htag' : Json.valuesOf Json.tagName members' = [.string kind] :=
    Json.valuesOf_singleton htag (hvalues _ List.mem_cons_self)
  refine Option.bind_eq_some_iff.2 ⟨(kind, .members (members'.filter (·.1 ≠ Json.tagName))),
    Json.taggedOf?_object_iff.2 ⟨Json.parted_none_iff.2 ⟨htag', hkind, rfl⟩, rfl⟩, ?_⟩
  refine ofBody?_perm hbody fun name hname => ?_
  have hne : name ≠ Json.tagName := fun he => r.tagName_not_mem (he ▸ hname)
  rw [Json.valuesOf_filter hne, Json.valuesOf_filter hne]
  exact hvalues name (List.mem_cons_of_mem _ hname)

theorem parse_of_permuted {text' : String} {pieces pieces' extra : List (List Char)}
    (hobject : Json.IsObject text pieces) (hpieces : ∀ piece ∈ pieces, ∃ m, Json.IsMember piece m)
    (h : parse text = .ok r) (hobject' : Json.IsObject text' pieces')
    (hperm : pieces'.Perm (pieces ++ extra))
    (hextra : ∀ piece ∈ extra, ∃ m, Json.IsMember piece m ∧ m.1 ∉ r.names) :
    parse text' = .ok r := by
  obtain ⟨members, hmembers, -⟩ := Json.exists_members (P := fun _ => True)
    fun piece hpiece => (hpieces piece hpiece).imp fun _ hm => ⟨hm, trivial⟩
  obtain ⟨more, hmore, hnames⟩ := Json.exists_members hextra
  obtain ⟨members', hmembers', hperm'⟩ :=
    List.perm_comp_forall₂ hperm (List.rel_append hmembers hmore)
  obtain ⟨j, hj, hr⟩ := parse_eq_ok_iff.1 h
  rw [Json.parse_of_isObject hobject hmembers] at hj
  cases hj
  exact parse_eq_ok_iff.2 ⟨_, Json.parse_of_isObject hobject' hmembers',
    ofJson?_perm hr hperm' hnames⟩

theorem isObject_of_parse_eq_ok {members : Json.Members}
    (hobject : Json.parse text = some (.object members)) (h : parse text = .ok r) :
    ∃ pieces, Json.IsObject text pieces ∧ List.Forall₂ Json.IsMember pieces members := by
  refine Json.isObject_of_parse ?_ hobject
  rintro rfl
  obtain ⟨j, hj, hr⟩ := parse_eq_ok_iff.1 h
  rw [hobject] at hj
  cases hj
  cases hr

/-- A report survives being written: it is read back from its text. A text of an object is read as
the same report when its members change places and others come in whose names mean nothing to the
report, and every text of an object that is read as a report is made of the texts of its members. An
address is read back from its text. -/
theorem survives_writing (r : Report) :
    parse r.toJson.text = .ok r ∧
    (∀ text pieces, Json.IsObject text pieces → (∀ piece ∈ pieces, ∃ m, Json.IsMember piece m) →
      parse text = .ok r → ∀ text' pieces' extra, Json.IsObject text' pieces' →
        pieces'.Perm (pieces ++ extra) →
        (∀ piece ∈ extra, ∃ m, Json.IsMember piece m ∧ m.1 ∉ r.names) → parse text' = .ok r) ∧
    (∀ text members, Json.parse text = some (.object members) → parse text = .ok r →
      ∃ pieces, Json.IsObject text pieces ∧ List.Forall₂ Json.IsMember pieces members) ∧
    ∀ a : Address, Address.parse? a.text = some a :=
  ⟨r.parse_text, fun _ _ hobject hpieces h _ _ _ hobject' hperm hextra =>
      parse_of_permuted hobject hpieces h hobject' hperm hextra,
    fun _ _ => isObject_of_parse_eq_ok, Address.parse?_text⟩

/-- The members of a launch request stand in reverse order, with another one in front. -/
theorem survives_writing_in_reverse :
    let mapped : Address := .v6 ⟨[0, 0, 0, 0, 0, 0xFFFF, 0x0A00, 2], rfl⟩
    let linkLocal : Address := .v6 ⟨[0xFE80, 0, 0, 0, 0, 0, 0, 1], rfl⟩
    let r : Report := .launchRequest ⟨mapped, "aa", "\"A\"\n", linkLocal⟩ false
    parse ("\x7b\"noise\":[1e3, \x7b\"type\":null\x7d],\"connectionReported\":false," ++
      "\"sinkIp\":\"fe80::1\",\"sourceName\":\"\\\"A\\\"\\n\",\"sourceMac\":\"aa\"," ++
      "\"sourceIp\":\"::ffff:10.0.0.2\",\"type\":\"launchRequest\"\x7d") = .ok r := by
  intro mapped linkLocal r
  let pieces := ((Json.tagName, Json.string r.kind) :: r.members).map Json.writtenMember
  let noise := Json.quoted "noise" ++ ':' :: "[1e3, \x7b\"type\":null\x7d]".toList
  have hpieces : ∀ piece ∈ pieces, ∃ m, Json.IsMember piece m := by
    refine List.forall_mem_map.2 fun m hm => ⟨m, ?_⟩
    rcases List.mem_cons.1 hm with rfl | hm
    · exact (Json.IsPlain.string _).isMember _
    · exact (r.isPlain_members m hm).isMember _
  have hnoise : ∃ m, Json.IsMember noise m ∧ m.1 ∉ r.names := by
    obtain ⟨j, hj⟩ := Option.isSome_iff_exists.1 (show
      (Json.parse (String.ofList "[1e3, \x7b\"type\":null\x7d]".toList)).isSome by decide +kernel)
    have hdepth : ∀ j ∈ Json.parse (String.ofList "[1e3, \x7b\"type\":null\x7d]".toList),
        j.depth < Json.maxDepth := by decide +kernel
    have hname : "noise" ∉ r.names := by decide +kernel
    exact ⟨("noise", j), ⟨_, _, rfl, Json.parse_quoted "noise", hj, hdepth j hj⟩, hname⟩
  refine (survives_writing r).2.1 r.toJson.text pieces (Json.isObject_text _ _) hpieces
    (survives_writing r).1 _ (noise :: pieces.reverse) [noise] ?_ ?_ ?_
  · exact ⟨[], [], Json.isBlank_nil, Json.isBlank_nil, by decide +kernel⟩
  · exact (List.perm_append_singleton noise pieces.reverse).symm.trans
      ((List.reverse_perm pieces).append_right [noise])
  · exact List.forall_mem_singleton.2 hnoise

end Report

end CastReceiver
