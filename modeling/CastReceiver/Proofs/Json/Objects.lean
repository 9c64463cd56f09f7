import CastReceiver.Json.Printer
import CastReceiver.Proofs.Json.Tagged

/-!
# Texts of objects

The text of an object is made of the texts of its members, each of them a name, a colon and a value.
Where blanks stand does not matter, and every text that stands for an object is made in this way.
-/
namespace CastReceiver.Json

variable {piece : List Char} {m : String × Json} {text : String} {members : Members}

/-- The text of a member: its name and its value, each with blanks around it. An object nests one
level deeper than its members. -/
def IsMember (piece : List Char) (m : String × Json) : Prop :=
  ∃ name val, piece = name ++ ':' :: val ∧
    parse (String.ofList name) = some (.string m.1) ∧
    parse (String.ofList val) = some m.2 ∧ m.2.depth < maxDepth

theorem parse_ofList_iff {s : List Char} {j : Json} :
    parse (String.ofList s) = some j ↔
      ∃ rest, value .exact maxDepth s = some (j, rest) ∧ IsBlank rest := by
  rw [parse_eq_some_iff, String.toList_ofList]

theorem fills_taggedMember_iff : Fills taggedMember piece m ↔ IsMember piece m := by
  constructor
  · rintro ⟨blank, hread, hblank⟩
    obtain ⟨s₁, cs, s₂, val, hs, hcs, hm, hs₂, hvalue⟩ := member_eq_some_iff.1 hread
    obtain ⟨b, hb, rfl, hquote⟩ := exists_of_skipSpace hs
    obtain ⟨name, rfl, hname⟩ := stringRest_delimited .exact hcs trivial
    obtain ⟨b', hb', rfl, -⟩ := exists_of_skipSpace hs₂
    have hdepth : m.2.depth < maxDepth :=
      (depth_le_of_value hvalue).trans_lt (by decide)
    refine ⟨b ++ '"' :: name ++ b', val, by simp, parse_ofList_iff.2 ⟨b', ?_, hb'⟩,
      parse_ofList_iff.2 ⟨blank, value_of_depth_le hvalue hdepth.le, hblank⟩, hdepth⟩
    exact value_string_iff.2 ⟨name ++ b', cs, skipSpace_front hb hquote, hname b' trivial, hm⟩
  · rintro ⟨name, val, rfl, hname, hval, hdepth⟩
    obtain ⟨b', hstring, hb'⟩ := parse_ofList_iff.1 hname
    obtain ⟨blank, hvalue, hblank⟩ := parse_ofList_iff.1 hval
    obtain ⟨s', cs, hs, hcs, hm⟩ := value_string_iff.1 hstring
    obtain ⟨b, hb, rfl, hquote⟩ := exists_of_skipSpace hs
    obtain ⟨quoted, rfl, hquoted⟩ := stringRest_delimited .exact hcs trivial
    refine ⟨blank, member_eq_some_iff.2 ⟨quoted ++ (b' ++ ':' :: val), cs, b' ++ ':' :: val, val, ?_,
      hquoted _ trivial, hm, skipSpace_append_cons hb' (by decide) val,
      value_of_depth_le hvalue (Nat.le_of_lt_succ hdepth)⟩, hblank⟩
    simpa using skipSpace_append_cons hb hquote (quoted ++ (b' ++ ':' :: val))

/-- A text in which members stand in braces with commas between them. -/
def IsObject (text : String) (pieces : List (List Char)) : Prop :=
  ∃ before after, IsBlank before ∧ IsBlank after ∧
    text.toList = before ++ '{' :: Text.join ',' pieces ++ '}' :: after

theorem fills_taggedMember : Fills taggedMember = IsMember :=
  funext fun _ => funext fun _ => propext fills_taggedMember_iff

theorem parse_of_isObject {pieces : List (List Char)} (htext : IsObject text pieces)
    (hpieces : List.Forall₂ IsMember pieces members) : parse text = some (.object members) := by
  obtain ⟨before, after, hbefore, hafter, htext⟩ := htext
  refine parse_eq_some_iff.2 ⟨after, ?_, hafter⟩
  rw [htext]
  refine (value_brace_iff (n := maxDepth - 1) (skipSpace_front hbefore (by decide))).2
    ⟨members, rfl, reads_taggedMember.contents_eq_some_iff.2 ?_⟩
  cases hpieces with
  | nil => exact .inl ⟨rfl, skipSpace_cons (by decide) _⟩
  | @cons piece m pieces ms hpiece hpieces =>
    rw [← fills_taggedMember] at hpiece hpieces
    obtain ⟨s₁, hread, htail⟩ := reads_taggedMember.elements_iff_pieces.2
      ⟨piece, pieces, rfl, hpiece, hpieces⟩
    exact .inr ⟨m, ms, s₁, rfl, hread, htail⟩

/-- Every text of an object that is not empty is made of the texts of its members. -/
theorem isObject_of_parse (hmembers : members ≠ []) (h : parse text = some (.object members)) :
    ∃ pieces, IsObject text pieces ∧ List.Forall₂ IsMember pieces members := by
  obtain ⟨after, hvalue, hafter⟩ := parse_eq_some_iff.1 h
  rcases value_eq_some_iff.1 hvalue with hscalar | ⟨_, _, _, -, -, hj, -⟩ |
    ⟨n, s, ms, hn, hs, hj, hcontents⟩
  · cases scalar_depth hscalar
  · cases hj
  · cases hn
    cases hj
    rcases reads_taggedMember.contents_eq_some_iff.1 hcontents with
      ⟨hempty, -⟩ | ⟨m, ms, s₁, rfl, hread, htail⟩
    · exact absurd hempty hmembers
    · obtain ⟨piece, pieces, rfl, hpiece, hpieces⟩ :=
        reads_taggedMember.elements_iff_pieces.1 ⟨s₁, hread, htail⟩
      obtain ⟨before, hbefore, htext, -⟩ := exists_of_skipSpace hs
      rw [fills_taggedMember] at hpiece hpieces
      exact ⟨piece :: pieces, ⟨before, after, hbefore, hafter, by simp [htext]⟩,
        .cons hpiece hpieces⟩

theorem exists_members {P : String × Json → Prop} {pieces : List (List Char)}
    (h : ∀ piece ∈ pieces, ∃ m, IsMember piece m ∧ P m) :
    ∃ members, List.Forall₂ IsMember pieces members ∧ ∀ m ∈ members, P m := by
  induction pieces with
  | nil => exact ⟨[], .nil, by simp⟩
  | cons piece pieces ih =>
    obtain ⟨hpiece, hpieces⟩ := List.forall_mem_cons.1 h
    obtain ⟨m, hm, hP⟩ := hpiece
    obtain ⟨members, hmembers, hall⟩ := ih hpieces
    exact ⟨m :: members, .cons hm hmembers, List.forall_mem_cons.2 ⟨hP, hall⟩⟩

/-! ## Written forms -/

section Written

variable {care : Care}

theorem hex4_codeUnit {n : Nat} (h : n < 0x20) :
    hex4 n = ['0', '0', Nat.digitChar (n / 16), Nat.digitChar (n % 16)] ∧
      codeUnit '0' '0' (Nat.digitChar (n / 16)) (Nat.digitChar (n % 16)) = some n := by
  revert n
  decide

/-- A character is read as it is written. -/
theorem spelled_escape (care : Care) (c : Char) : Spelled care (escape c) c := by
  unfold escape
  split
  case isTrue hc =>
    subst hc
    exact .short rfl
  split
  case isTrue hc =>
    subst hc
    exact .short rfl
  split
  case isTrue hc =>
    subst hc
    exact .short rfl
  split
  case isTrue hc =>
    subst hc
    exact .short rfl
  split
  case isTrue hc =>
    subst hc
    exact .short rfl
  split
  case isTrue hc =>
    obtain rfl : c = Char.ofNat 8 := by rw [← hc, Char.ofNat_toNat]
    exact .short rfl
  split
  case isTrue hc =>
    obtain rfl : c = Char.ofNat 12 := by rw [← hc, Char.ofNat_toNat]
    exact .short rfl
  split
  case isTrue hc =>
    obtain ⟨hhex, hunit⟩ := hex4_codeUnit hc
    have hspelled : Spelled care ['\\', 'u', '0', '0', Nat.digitChar (c.toNat / 16),
        Nat.digitChar (c.toNat % 16)] (Char.ofNat c.toNat) := by
      refine .unit hunit (.inr ?_)
      simp only [isHighSurrogate, isLowSurrogate, Bool.and_eq_false_iff, decide_eq_false_iff_not]
      omega
    rwa [Char.ofNat_toNat, ← hhex] at hspelled
  case isFalse hquote hbackslash _ _ _ _ _ hcontrol => exact .plain hquote hbackslash hcontrol

theorem stringRest_escape (s t : List Char) :
    stringRest care (s.flatMap escape ++ '"' :: t) = some (s, t) := by
  refine stringRest_eq_some_iff.2 ⟨s.map escape, ?_, rfl⟩
  rw [List.forall₂_map_left_iff]
  exact List.forall₂_same.2 fun c _ => spelled_escape care c

theorem parse_quoted (s : String) : parse (String.ofList (quoted s)) = some (.string s) := by
  refine parse_ofList_iff.2 ⟨[], value_string_iff.2 ?_, isBlank_nil⟩
  refine ⟨s.toList.flatMap escape ++ ['"'], s.toList, ?_, stringRest_escape _ _, by simp⟩
  exact skipSpace_cons (by decide) _

theorem parse_bool (b : Bool) : parse (String.ofList (render (.bool b))) = some (.bool b) := by
  cases b <;> rfl

/-- A value of a member that is read as it is written. -/
theorem isMember_written {j : Json} (h : parse (String.ofList (render j)) = some j)
    (hdepth : j.depth < maxDepth) (name : String) :
    IsMember (quoted name ++ ':' :: render j) (name, j) :=
  ⟨quoted name, render j, rfl, parse_quoted name, h, hdepth⟩

/-- A value without parts that is read as it is written: a text or a flag. -/
inductive IsPlain : Json → Prop
  | string (s : String) : IsPlain (.string s)
  | bool (b : Bool) : IsPlain (.bool b)

theorem IsPlain.isMember {j : Json} (h : j.IsPlain) (name : String) :
    IsMember (quoted name ++ ':' :: render j) (name, j) := by
  cases h with
  | string s =>
    have hrender : render (.string s) = quoted s := by rw [render]
    refine isMember_written ?_ (by simp [depth, maxDepth]) name
    rw [hrender, parse_quoted]
  | bool b => exact isMember_written (parse_bool b) (by simp [depth, maxDepth]) name

/-- The text of a member as it is written. -/
def writtenMember (m : String × Json) : List Char := quoted m.1 ++ ':' :: render m.2

theorem renderMembers_eq (m : String × Json) (members : Members) :
    renderMembers (m :: members) =
      Text.join ',' ((m :: members).map writtenMember) ++ ['}'] := by
  induction members generalizing m with
  | nil =>
    rw [renderMembers]
    rfl
  | cons m' members ih =>
    rw [renderMembers, ih]
    · simp [Text.join, writtenMember]
    · simp

theorem isObject_text (m : String × Json) (members : Members) :
    IsObject (Json.text (.object (m :: members))) ((m :: members).map writtenMember) := by
  refine ⟨[], [], isBlank_nil, isBlank_nil, ?_⟩
  rw [Json.text, String.toList_ofList, render, renderMembers_eq]
  rfl

/-- An object of texts and flags is read as it is written. -/
theorem parse_text (m : String × Json) (members : Members)
    (h : ∀ m' ∈ m :: members, IsPlain m'.2) :
    parse (Json.text (.object (m :: members))) = some (.object (m :: members)) := by
  refine parse_of_isObject (isObject_text m members) ?_
  rw [List.forall₂_map_left_iff]
  exact List.forall₂_same.2 fun m' hm' => (h m' hm').isMember m'.1

end Written

end CastReceiver.Json
