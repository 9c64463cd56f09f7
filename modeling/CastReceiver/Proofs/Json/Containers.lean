import CastReceiver.Proofs.Json.Locality
import CastReceiver.Text.Split

/-!
# What containers hold

The elements of a container stand between its brackets with commas between them. So the text of a
container is that of its elements joined by commas, and each element is read by itself. Reading a
value is local, and a deeper bound changes nothing for a value that does not nest so deep.
-/
namespace CastReceiver.Json

variable {α : Type} {close : Char} {read : List Char → Option (α × List Char)}
variable {s t rest : List Char} {as : List α} {a : α}

/-! ## Elements -/

/-- What stands behind an element of a container: the bracket that closes it, or a comma and another
element. -/
inductive Tail (close : Char) (read : List Char → Option (α × List Char)) :
    List Char → List α → List Char → Prop
  | close {s rest : List Char} (h : skipSpace s = close :: rest) : Tail close read s [] rest
  | comma {s s₁ s₂ rest : List Char} {a : α} {as : List α} (h : skipSpace s = ',' :: s₁)
      (hread : read s₁ = some (a, s₂)) (htail : Tail close read s₂ as rest) :
      Tail close read s (a :: as) rest

/-- A reader of what a container holds that `close` closes. -/
structure Reads (close : Char) (read : List Char → Option (α × List Char)) : Prop where
  isClose : close = ']' ∨ close = '}'
  isLocal : Local Stops read
  starts : ∀ ⦃s a rest⦄, read s = some (a, rest) → ∃ c t, skipSpace s = c :: t ∧ c ≠ close

namespace Reads

variable (h : Reads close read)
include h

theorem goesOn_close : goesOn close = false := by
  rcases h.isClose with rfl | rfl <;> decide

theorem isSpace_close : isSpace close = false := by
  rcases h.isClose with rfl | rfl <;> decide

theorem close_ne : close ≠ ',' := by
  rcases h.isClose with rfl | rfl <;> decide

theorem stops (htail : Tail close read s as rest) : Stops s := by
  cases htail with
  | close hs => exact stops_of_skipSpace hs h.goesOn_close
  | comma hs => exact stops_of_skipSpace hs (by decide)

theorem length_lt (htail : Tail close read s as rest) : as.length < s.length := by
  induction htail with
  | close hs =>
    obtain ⟨b, -, rfl, -⟩ := exists_of_skipSpace hs
    simp only [List.length_nil, List.length_append, List.length_cons]
    omega
  | comma hs hread htail ih =>
    obtain ⟨b, -, rfl, -⟩ := exists_of_skipSpace hs
    have hle := h.isLocal.length_le hread (h.stops htail)
    simp only [List.length_cons, List.length_append]
    omega

/-- One or more elements up to the closing bracket. -/
theorem elements_eq_some_iff {n : Nat} :
    elements close read n s = some (as, rest) ↔
      as.length ≤ n ∧ ∃ a as' s₁, as = a :: as' ∧ read s = some (a, s₁) ∧
        Tail close read s₁ as' rest := by
  induction n generalizing s as with
  | zero =>
    refine iff_of_false (by simp [elements]) ?_
    rintro ⟨hn, _, _, _, rfl, -⟩
    cases hn
  | succ n ih =>
    constructor
    · intro hsome
      rw [elements] at hsome
      obtain ⟨⟨a, s₁⟩, hread, hsome⟩ := Option.bind_eq_some_iff.1 hsome
      dsimp only at hsome
      split at hsome
      case h_1 s₂ hs₁ =>
        obtain ⟨⟨as', rest'⟩, hmore, hsome⟩ := Option.bind_eq_some_iff.1 hsome
        cases hsome
        obtain ⟨hn, a', as'', s₃, rfl, hread', htail⟩ := ih.1 hmore
        exact ⟨by simpa using hn, a, _, s₁, rfl, hread, .comma hs₁ hread' htail⟩
      case h_2 c s₂ _ hs₁ =>
        split at hsome
        case isTrue hc =>
          cases hsome
          exact ⟨by simp, a, [], s₁, rfl, hread, .close (hc ▸ hs₁)⟩
        case isFalse => cases hsome
      case h_3 => cases hsome
    · rintro ⟨hn, a, as', s₁, rfl, hread, htail⟩
      simp only [elements, hread, Option.bind_eq_bind, Option.bind_some]
      cases htail with
      | close hs₁ =>
        rw [hs₁]
        split
        case h_1 heq => exact absurd (List.cons.inj heq).1 h.close_ne
        case h_2 c s₂ _ heq =>
          obtain ⟨rfl, rfl⟩ := List.cons.inj heq
          rw [if_pos rfl]
        case h_3 heq => cases heq
      | @comma _ s₂ s₃ _ a' as'' hs₁ hread' htail' =>
        rw [hs₁]
        have hmore : elements close read n s₂ = some (a' :: as'', rest) :=
          ih.2 ⟨by simpa using hn, a', as'', s₃, rfl, hread', htail'⟩
        simp only [hmore, Option.bind_some]

theorem contents_eq_some_iff :
    contents close read s = some (as, rest) ↔
      (as = [] ∧ skipSpace s = close :: rest) ∨
        ∃ a as' s₁, as = a :: as' ∧ read s = some (a, s₁) ∧ Tail close read s₁ as' rest := by
  unfold contents
  split
  case h_1 c s' hs =>
    by_cases hc : c = close
    · subst hc
      rw [if_pos rfl]
      constructor
      · intro hsome
        cases hsome
        exact .inl ⟨rfl, hs⟩
      · rintro (⟨rfl, hs'⟩ | ⟨a, as', s₁, rfl, hread, -⟩)
        · rw [hs] at hs'
          cases hs'
          rfl
        · obtain ⟨c', t, hs', hne⟩ := h.starts hread
          rw [hs] at hs'
          exact absurd (List.cons.inj hs').1.symm hne
    · rw [if_neg hc, h.elements_eq_some_iff]
      constructor
      · exact fun ⟨_, hmore⟩ => .inr hmore
      · rintro (⟨-, hs'⟩ | ⟨a, as', s₁, rfl, hread, htail⟩)
        · rw [hs] at hs'
          exact absurd (List.cons.inj hs').1 hc
        · refine ⟨?_, a, as', s₁, rfl, hread, htail⟩
          exact (h.length_lt htail).trans_le (h.isLocal.length_le hread (h.stops htail))
  case h_2 hs =>
    refine iff_of_false (by simp) ?_
    rintro (⟨-, hs'⟩ | ⟨a, as', s₁, rfl, hread, -⟩)
    · rw [hs] at hs'
      cases hs'
    · obtain ⟨c, t, hs', -⟩ := h.starts hread
      rw [hs] at hs'
      cases hs'

theorem tail_local (htail : Tail close read s as rest) :
    ∃ front, s = front ++ rest ∧ ∀ t, Tail close read (front ++ t) as t := by
  induction htail with
  | @close s rest hs =>
    obtain ⟨b, hb, rfl, hc⟩ := exists_of_skipSpace hs
    refine ⟨b ++ [close], by simp, fun t => .close ?_⟩
    rw [List.append_assoc, List.singleton_append, skipSpace_append_cons hb hc]
  | @comma s s₁ s₂ rest a as hs hread htail ih =>
    obtain ⟨b, hb, rfl, hc⟩ := exists_of_skipSpace hs
    obtain ⟨front, rfl, hfront⟩ := h.isLocal hread (h.stops htail)
    obtain ⟨more, rfl, hmore⟩ := ih
    refine ⟨b ++ ',' :: front ++ more, by simp, fun t => ?_⟩
    have hs' : skipSpace (b ++ ',' :: front ++ more ++ t) = ',' :: (front ++ (more ++ t)) := by
      simp only [List.append_assoc, List.cons_append]
      exact skipSpace_append_cons hb hc _
    exact .comma hs' (hfront (more ++ t) (h.stops (hmore t))) (hmore t)

theorem contents_delimited : Delimited (contents close read) := by
  intro s as rest hsome _
  rcases h.contents_eq_some_iff.1 hsome with ⟨rfl, hs⟩ | ⟨a, as', s₁, rfl, hread, htail⟩
  · obtain ⟨b, hb, rfl, hc⟩ := exists_of_skipSpace hs
    refine ⟨b ++ [close], by simp, fun t _ => h.contents_eq_some_iff.2 (.inl ⟨rfl, ?_⟩)⟩
    rw [List.append_assoc, List.singleton_append, skipSpace_append_cons hb hc]
  · obtain ⟨front, rfl, hfront⟩ := h.isLocal hread (h.stops htail)
    obtain ⟨more, rfl, hmore⟩ := h.tail_local htail
    refine ⟨front ++ more, by simp, fun t _ => h.contents_eq_some_iff.2 (.inr ?_)⟩
    refine ⟨a, as', more ++ t, rfl, ?_, hmore t⟩
    rw [List.append_assoc]
    exact hfront _ (h.stops (hmore t))

end Reads

theorem Tail.mono {read' : List Char → Option (α × List Char)} {P : α → Prop}
    (htail : Tail close read s as rest) (has : ∀ a ∈ as, P a)
    (hread : ∀ ⦃s a rest⦄, read s = some (a, rest) → P a → read' s = some (a, rest)) :
    Tail close read' s as rest := by
  induction htail with
  | close hs => exact .close hs
  | comma hs hfirst _ ih =>
    refine .comma hs (hread hfirst (has _ List.mem_cons_self)) (ih fun a ha => ?_)
    exact has a (List.mem_cons_of_mem _ ha)

theorem Tail.forall_mem {P : α → Prop} (htail : Tail close read s as rest)
    (hread : ∀ ⦃s a rest⦄, read s = some (a, rest) → P a) : ∀ a ∈ as, P a := by
  induction htail with
  | close => simp
  | comma _ hfirst _ ih => exact List.forall_mem_cons.2 ⟨hread hfirst, ih⟩

namespace Reads

/-- A property of all that a reader reads is one of all elements. -/
theorem forall_mem_contents (h : Reads close read) {P : α → Prop}
    (hsome : contents close read s = some (as, rest))
    (hread : ∀ ⦃s a rest⦄, read s = some (a, rest) → P a) : ∀ a ∈ as, P a := by
  rcases h.contents_eq_some_iff.1 hsome with ⟨rfl, -⟩ | ⟨a, as', s₁, rfl, hfirst, htail⟩
  · simp
  · exact List.forall_mem_cons.2 ⟨hread hfirst, htail.forall_mem hread⟩

/-- Two readers that agree on the elements agree on the container. -/
theorem contents_mono {read' : List Char → Option (α × List Char)} (h : Reads close read)
    (h' : Reads close read') {P : α → Prop} (hsome : contents close read s = some (as, rest))
    (has : ∀ a ∈ as, P a)
    (hread : ∀ ⦃s a rest⦄, read s = some (a, rest) → P a → read' s = some (a, rest)) :
    contents close read' s = some (as, rest) := by
  rw [h'.contents_eq_some_iff]
  rcases h.contents_eq_some_iff.1 hsome with hempty | ⟨a, as', s₁, rfl, hfirst, htail⟩
  · exact .inl hempty
  · obtain ⟨ha, has'⟩ := List.forall_mem_cons.1 has
    exact .inr ⟨a, as', s₁, rfl, hread hfirst ha, htail.mono has' hread⟩

end Reads

/-! ## Pieces of text -/

/-- An element takes up a text, blanks behind it apart. -/
def Fills (read : List Char → Option (α × List Char)) (piece : List Char) (a : α) : Prop :=
  ∃ blank, read piece = some (a, blank) ∧ IsBlank blank

namespace Reads

variable (h : Reads close read)
include h

theorem fills_of_read {front blank : List Char} (hread : read (front ++ rest) = some (a, rest))
    (hrest : Stops rest) (hblank : IsBlank blank) : Fills read (front ++ blank) a := by
  obtain ⟨front', hfront, hlocal⟩ := h.isLocal hread hrest
  obtain rfl := List.append_cancel_right hfront
  exact ⟨blank, hlocal blank hblank.stops, hblank⟩

theorem read_of_fills {piece : List Char} (hpiece : Fills read piece a) (hstop : Stops t) :
    ∃ blank, IsBlank blank ∧ read (piece ++ t) = some (a, blank ++ t) := by
  obtain ⟨blank, hread, hblank⟩ := hpiece
  obtain ⟨front, rfl, hfront⟩ := h.isLocal hread hblank.stops
  refine ⟨blank, hblank, ?_⟩
  rw [List.append_assoc]
  exact hfront _ (stops_append hblank hstop)

/-- The elements of a container are the pieces of its text between the commas. -/
theorem elements_iff_pieces :
    (∃ s₁, read s = some (a, s₁) ∧ Tail close read s₁ as rest) ↔
      ∃ piece pieces, s = Text.join ',' (piece :: pieces) ++ close :: rest ∧
        Fills read piece a ∧ List.Forall₂ (Fills read) pieces as := by
  constructor
  · rintro ⟨s₁, hread, htail⟩
    induction htail generalizing s a with
    | close hs =>
      obtain ⟨front, rfl, -⟩ := h.isLocal hread (h.stops (.close hs))
      obtain ⟨b, hb, rfl, -⟩ := exists_of_skipSpace hs
      refine ⟨front ++ b, [], by simp [Text.join], ?_, .nil⟩
      exact h.fills_of_read hread (h.stops (.close hs)) hb
    | comma hs hread' htail ih =>
      have hstops := h.stops (.comma hs hread' htail)
      obtain ⟨front, rfl, -⟩ := h.isLocal hread hstops
      obtain ⟨b, hb, rfl, -⟩ := exists_of_skipSpace hs
      obtain ⟨piece, pieces, rfl, hpiece, hpieces⟩ := ih hread'
      refine ⟨front ++ b, piece :: pieces, by simp [Text.join], ?_, .cons hpiece hpieces⟩
      exact h.fills_of_read hread hstops hb
  · rintro ⟨piece, pieces, rfl, hpiece, hpieces⟩
    induction hpieces generalizing piece a with
    | nil =>
      obtain ⟨b, hb, hread⟩ := h.read_of_fills hpiece (stops_cons h.goesOn_close rest)
      exact ⟨_, hread, .close (skipSpace_append_cons hb h.isSpace_close rest)⟩
    | @cons piece' a' pieces as hpiece' _ ih =>
      obtain ⟨s₂, hread', htail⟩ := ih piece' hpiece'
      have hstop : Stops (',' :: (Text.join ',' (piece' :: pieces) ++ close :: rest)) :=
        stops_cons (by decide) _
      obtain ⟨b, hb, hread⟩ := h.read_of_fills hpiece hstop
      refine ⟨b ++ ',' :: (Text.join ',' (piece' :: pieces) ++ close :: rest), ?_, ?_⟩
      · simpa [Text.join] using hread
      · exact .comma (skipSpace_append_cons hb (by decide) _) hread' htail

end Reads

/-! ## Members -/

section Members

variable {care : Care} {readValue : List Char → Option (Json × List Char)} {m : String × Json}

theorem member_steps :
    member care readValue s = some (m, rest) ↔
      ∃ s₁ s₂, memberName care s = some (m.1, s₁) ∧ afterColon? s₁ = some s₂ ∧
        readValue s₂ = some (m.2, rest) := by
  constructor
  · intro h
    rw [member] at h
    obtain ⟨⟨name, s₁⟩, hname, h⟩ := Option.bind_eq_some_iff.1 h
    obtain ⟨s₂, hcolon, h⟩ := Option.bind_eq_some_iff.1 h
    obtain ⟨⟨j, s₃⟩, hread, h⟩ := Option.bind_eq_some_iff.1 h
    cases h
    exact ⟨s₁, s₂, hname, hcolon, hread⟩
  · rintro ⟨s₁, s₂, hname, hcolon, hread⟩
    simp only [member, hname, hcolon, hread, Option.bind_eq_bind, Option.bind_some]

theorem member_eq_some_iff :
    member care readValue s = some (m, rest) ↔
      ∃ s₁ cs s₂ s₃, skipSpace s = '"' :: s₁ ∧ stringRest care s₁ = some (cs, s₂) ∧
        m.1 = String.ofList cs ∧ skipSpace s₂ = ':' :: s₃ ∧ readValue s₃ = some (m.2, rest) := by
  rw [member_steps]
  constructor
  · rintro ⟨s₂, s₃, hname, hcolon, hread⟩
    unfold memberName at hname
    split at hname
    case h_2 => cases hname
    case h_1 s₁ hs =>
      obtain ⟨⟨cs, s₂'⟩, hcs, heq⟩ := Option.map_eq_some_iff.1 hname
      obtain ⟨hm, rfl⟩ := Prod.mk.inj heq
      unfold afterColon? at hcolon
      split at hcolon
      case h_2 => cases hcolon
      case h_1 s₃' hs₂ =>
        cases hcolon
        exact ⟨s₁, cs, _, s₃, hs, hcs, hm.symm, hs₂, hread⟩
  · rintro ⟨s₁, cs, s₂, s₃, hs, hcs, hm, hs₂, hread⟩
    exact ⟨s₂, s₃, by simp [memberName, hs, hcs, hm], by simp [afterColon?, hs₂], hread⟩

theorem member_skipSpace (s : List Char) :
    member care readValue (skipSpace s) = member care readValue s := by
  simp only [member, memberName, skipSpace_skipSpace]

theorem reads_members (h : Local Stops readValue) : Reads '}' (member care readValue) where
  isClose := .inr rfl
  isLocal := by
    intro s m rest hread hrest
    obtain ⟨s₁, cs, s₂, s₃, hs, hcs, hm, hs₂, hvalue⟩ := member_eq_some_iff.1 hread
    obtain ⟨b, hb, rfl, hquote⟩ := exists_of_skipSpace hs
    obtain ⟨key, rfl, hkey⟩ := stringRest_delimited care hcs trivial
    obtain ⟨b', hb', rfl, hcolon⟩ := exists_of_skipSpace hs₂
    obtain ⟨front, rfl, hfront⟩ := h hvalue hrest
    refine ⟨b ++ '"' :: key ++ b' ++ ':' :: front, by simp, fun t ht => ?_⟩
    refine member_eq_some_iff.2
      ⟨key ++ (b' ++ ':' :: (front ++ t)), cs, b' ++ ':' :: (front ++ t), front ++ t, ?_,
        hkey _ trivial, hm, skipSpace_append_cons hb' hcolon _, hfront t ht⟩
    simp only [List.append_assoc, List.cons_append]
    exact skipSpace_append_cons hb hquote _
  starts := by
    intro s m rest hread
    obtain ⟨s₁, -, -, -, hs, -⟩ := member_eq_some_iff.1 hread
    exact ⟨_, s₁, hs, by decide⟩

end Members

/-! ## Depth -/

section Depth

variable {j : Json} {d : Nat}

mutual

/-- How deep the containers of a value nest. -/
def depth : Json → Nat
  | .array items => depthItems items + 1
  | .object members => depthMembers members + 1
  | _ => 0

def depthItems : List Json → Nat
  | [] => 0
  | j :: items => max j.depth (depthItems items)

def depthMembers : List (String × Json) → Nat
  | [] => 0
  | (_, j) :: members => max j.depth (depthMembers members)

end

theorem depthItems_le_iff {items : List Json} :
    depthItems items ≤ d ↔ ∀ j ∈ items, j.depth ≤ d := by
  induction items with
  | nil => simp [depthItems]
  | cons j items ih => rw [depthItems, Nat.max_le, ih, List.forall_mem_cons]

theorem depthMembers_le_iff {members : List (String × Json)} :
    depthMembers members ≤ d ↔ ∀ m ∈ members, m.2.depth ≤ d := by
  induction members with
  | nil => simp [depthMembers]
  | cons m members ih => rw [depthMembers, Nat.max_le, ih, List.forall_mem_cons]

end Depth

/-! ## Values -/

section Values

variable {care : Care} {j : Json} {d : Nat}

theorem afterWord?_eq_some_iff {word : List Char} :
    afterWord? word s = some rest ↔ s = word ++ rest := by
  induction word generalizing s with
  | nil => simp [afterWord?]
  | cons w word ih =>
    cases s with
    | nil => simp [afterWord?]
    | cons c s =>
      rw [afterWord?]
      split
      case isTrue hw => rw [ih, hw, List.cons_append, List.cons_inj_right]
      case isFalse hw => simp [Ne.symm hw]

theorem word_of_map {word : List Char} {j' : Json}
    (h : (afterWord? word s).map (j', ·) = some (j, rest)) : s = word ++ rest ∧ j = j' := by
  obtain ⟨rest', hword, heq⟩ := Option.map_eq_some_iff.1 h
  cases heq
  exact ⟨afterWord?_eq_some_iff.1 hword, rfl⟩

theorem map_word (word : List Char) (j : Json) (t : List Char) :
    (afterWord? word (word ++ t)).map (j, ·) = some (j, t) := by
  rw [afterWord?_eq_some_iff.2 rfl]
  rfl

theorem scalar_of_number {c : Char} (h : (decide (c = '-') || isDecimal c) = true)
    (s : List Char) : scalar care (c :: s) = number care (c :: s) := by
  rw [scalar.eq_def]
  split
  case h_1 heq => obtain ⟨rfl, -⟩ := List.cons.inj heq; exact absurd h (by decide)
  case h_2 heq => obtain ⟨rfl, -⟩ := List.cons.inj heq; exact absurd h (by decide)
  case h_3 heq => obtain ⟨rfl, -⟩ := List.cons.inj heq; exact absurd h (by decide)
  case h_4 heq => obtain ⟨rfl, -⟩ := List.cons.inj heq; exact absurd h (by decide)
  case h_5 heq =>
    obtain ⟨rfl, rfl⟩ := List.cons.inj heq
    rw [if_pos h]
  case h_6 heq => cases heq

/-- A value that is not a container is a word or a string, or else a number. -/
theorem scalar_cases (h : scalar care s = some (j, rest)) :
    (j.depth = 0 ∧ ∃ front, s = front ++ rest ∧ ∀ t, scalar care (front ++ t) = some (j, t)) ∨
      ∃ c s', s = c :: s' ∧ (decide (c = '-') || isDecimal c) = true ∧
        number care s = some (j, rest) := by
  rw [scalar.eq_def] at h
  split at h
  case h_1 s =>
    obtain ⟨rfl, rfl⟩ := word_of_map h
    exact .inl ⟨rfl, ['n', 'u', 'l', 'l'], rfl, map_word ['u', 'l', 'l'] .null⟩
  case h_2 s =>
    obtain ⟨rfl, rfl⟩ := word_of_map h
    exact .inl ⟨rfl, ['t', 'r', 'u', 'e'], rfl, map_word ['r', 'u', 'e'] (.bool true)⟩
  case h_3 s =>
    obtain ⟨rfl, rfl⟩ := word_of_map h
    exact .inl ⟨rfl, ['f', 'a', 'l', 's', 'e'], rfl, map_word ['a', 'l', 's', 'e'] (.bool false)⟩
  case h_4 s =>
    obtain ⟨⟨cs, rest'⟩, hcs, heq⟩ := Option.map_eq_some_iff.1 h
    cases heq
    obtain ⟨front, rfl, hfront⟩ := stringRest_delimited care hcs trivial
    refine .inl ⟨rfl, '"' :: front, rfl, fun t => ?_⟩
    show (stringRest care (front ++ t)).map _ = _
    rw [hfront t trivial]
    rfl
  case h_5 c s _ _ _ _ =>
    split at h
    case isTrue hc => exact .inr ⟨c, s, rfl, hc, h⟩
    case isFalse => cases h
  case h_6 => cases h

theorem number_form (h : number care s = some (j, rest)) :
    (∃ n, j = .integer n) ∨ ∃ m e, j = .real m e := by
  have htoJson (n : Numeral) : (∃ m, n.toJson = .integer m) ∨ ∃ m e, n.toJson = .real m e := by
    unfold Numeral.toJson
    dsimp only
    split
    · split <;> split <;> simp
    · simp
  have hmagnitude {negative : Bool} {s : List Char}
      (h : magnitude care negative s = some (j, rest)) :
      (∃ n, j = .integer n) ∨ ∃ m e, j = .real m e := by
    simp only [magnitude, Option.bind_eq_bind, Option.bind_eq_some_iff] at h
    obtain ⟨w, -, f, -, e, -, h⟩ := h
    split at h
    · cases h
    · cases h
      exact htoJson _
  by_cases hs : s.head? = some '-'
  · obtain ⟨s', rfl⟩ := List.head?_eq_some_iff.1 hs
    exact hmagnitude h
  · exact hmagnitude (number_of_ne hs ▸ h)

theorem scalar_depth (h : scalar care s = some (j, rest)) : j.depth = 0 := by
  rcases scalar_cases h with ⟨hdepth, -⟩ | ⟨c, s', -, -, hnumber⟩
  · exact hdepth
  · rcases number_form hnumber with ⟨n, rfl⟩ | ⟨m, e, rfl⟩ <;> rfl

theorem scalar_string_iff {name : String} :
    scalar care s = some (.string name, rest) ↔
      ∃ s' cs, s = '"' :: s' ∧ stringRest care s' = some (cs, rest) ∧ name = String.ofList cs := by
  constructor
  · intro h
    rw [scalar.eq_def] at h
    split at h
    case h_1 => cases (word_of_map h).2
    case h_2 => cases (word_of_map h).2
    case h_3 => cases (word_of_map h).2
    case h_4 s' =>
      obtain ⟨⟨cs, rest'⟩, hcs, heq⟩ := Option.map_eq_some_iff.1 h
      cases heq
      exact ⟨s', cs, rfl, hcs, rfl⟩
    case h_5 =>
      split at h
      · rcases number_form h with ⟨n, hn⟩ | ⟨m, e, hn⟩ <;> cases hn
      · cases h
    case h_6 => cases h
  · rintro ⟨s', cs, rfl, hcs, rfl⟩
    show (stringRest care s').map _ = _
    rw [hcs]
    rfl

theorem scalar_local (care : Care) : Local Stops (scalar care) := by
  intro s j rest h hrest
  rcases scalar_cases h with ⟨-, front, rfl, hfront⟩ | ⟨c, s', rfl, hc, hnumber⟩
  · exact ⟨front, rfl, fun t _ => hfront t⟩
  · obtain ⟨front, hs, hfront⟩ := number_local care hnumber hrest
    cases front with
    | nil => cases hfront [] stops_nil
    | cons c' front =>
      obtain ⟨rfl, rfl⟩ := List.cons.inj hs
      refine ⟨c :: front, rfl, fun t ht => ?_⟩
      rw [List.cons_append, scalar_of_number hc]
      exact hfront t ht

theorem scalar_bracket (s : List Char) : scalar care ('[' :: s) = none := rfl

theorem scalar_brace (s : List Char) : scalar care ('{' :: s) = none := rfl

theorem value_eq_some_iff :
    value care d s = some (j, rest) ↔
      scalar care (skipSpace s) = some (j, rest) ∨
      (∃ n s' js, d = n + 1 ∧ skipSpace s = '[' :: s' ∧ j = .array js ∧
        contents ']' (value care n) s' = some (js, rest)) ∨
      ∃ n s' ms, d = n + 1 ∧ skipSpace s = '{' :: s' ∧ j = .object ms ∧
        contents '}' (member care (value care n)) s' = some (ms, rest) := by
  rw [value.eq_def]
  split
  case h_1 s' n hs =>
    rw [hs, scalar_bracket]
    constructor
    · intro h
      obtain ⟨⟨js, rest'⟩, hjs, heq⟩ := Option.map_eq_some_iff.1 h
      cases heq
      exact .inr (.inl ⟨n, s', js, rfl, rfl, rfl, hjs⟩)
    · rintro (h | ⟨n', s'', js, hn, hs', rfl, hjs⟩ | ⟨n', s'', js, -, hs', -⟩)
      · cases h
      · cases hn
        cases hs'
        rw [hjs]
        rfl
      · cases hs'
  case h_2 s' n hs =>
    rw [hs, scalar_brace]
    constructor
    · intro h
      obtain ⟨⟨ms, rest'⟩, hms, heq⟩ := Option.map_eq_some_iff.1 h
      cases heq
      exact .inr (.inr ⟨n, s', ms, rfl, rfl, rfl, hms⟩)
    · rintro (h | ⟨n', s'', js, -, hs', -⟩ | ⟨n', s'', ms, hn, hs', rfl, hms⟩)
      · cases h
      · cases hs'
      · cases hn
        cases hs'
        rw [hms]
        rfl
  case h_3 harray hobject =>
    constructor
    · exact .inl
    · rintro (h | ⟨n, s', js, rfl, hs, -⟩ | ⟨n, s', ms, rfl, hs, -⟩)
      · exact h
      · exact absurd rfl (harray s' n hs)
      · exact absurd rfl (hobject s' n hs)

theorem value_bracket_iff {n : Nat} (hs : skipSpace s = '[' :: t) :
    value care (n + 1) s = some (j, rest) ↔
      ∃ js, j = .array js ∧ contents ']' (value care n) t = some (js, rest) := by
  rw [value_eq_some_iff, hs, scalar_bracket]
  constructor
  · rintro (h | ⟨_, _, js, hn, hs', rfl, hjs⟩ | ⟨_, _, _, -, hs', -⟩)
    · cases h
    · cases hn
      cases hs'
      exact ⟨js, rfl, hjs⟩
    · cases hs'
  · rintro ⟨js, rfl, hjs⟩
    exact .inr (.inl ⟨n, t, js, rfl, rfl, rfl, hjs⟩)

theorem value_brace_iff {n : Nat} (hs : skipSpace s = '{' :: t) :
    value care (n + 1) s = some (j, rest) ↔
      ∃ ms, j = .object ms ∧ contents '}' (member care (value care n)) t = some (ms, rest) := by
  rw [value_eq_some_iff, hs, scalar_brace]
  constructor
  · rintro (h | ⟨_, _, _, -, hs', -⟩ | ⟨_, _, ms, hn, hs', rfl, hms⟩)
    · cases h
    · cases hs'
    · cases hn
      cases hs'
      exact ⟨ms, rfl, hms⟩
  · rintro ⟨ms, rfl, hms⟩
    exact .inr (.inr ⟨n, t, ms, rfl, rfl, rfl, hms⟩)

theorem value_skipSpace (s : List Char) : value care d (skipSpace s) = value care d s := by
  rw [value.eq_def, value.eq_def care d s, skipSpace_skipSpace]

theorem value_string_iff {name : String} :
    value care d s = some (.string name, rest) ↔
      ∃ s' cs, skipSpace s = '"' :: s' ∧ stringRest care s' = some (cs, rest) ∧
        name = String.ofList cs := by
  rw [value_eq_some_iff, scalar_string_iff]
  simp

theorem value_starts (h : value care d s = some (j, rest)) :
    ∃ c t, skipSpace s = c :: t ∧ c ≠ ']' := by
  rcases value_eq_some_iff.1 h with hscalar | ⟨_, s', _, -, hs, -⟩ | ⟨_, s', _, -, hs, -⟩
  · cases hs : skipSpace s with
    | nil =>
      rw [hs] at hscalar
      cases hscalar
    | cons c t =>
      refine ⟨c, t, rfl, ?_⟩
      rintro rfl
      rw [hs] at hscalar
      cases hscalar
  · exact ⟨_, s', hs, by decide⟩
  · exact ⟨_, s', hs, by decide⟩

theorem reads_elements (h : Local Stops (value care d)) : Reads ']' (value care d) :=
  ⟨.inl rfl, h, fun _ _ _ => value_starts⟩

theorem skipSpace_front {b front t' : List Char} {c : Char} (hb : IsBlank b)
    (hc : isSpace c = false) : skipSpace (b ++ c :: front ++ t') = c :: (front ++ t') := by
  rw [List.append_assoc, List.cons_append, skipSpace_append_cons hb hc]

theorem value_of_scalar (h : scalar care (skipSpace s) = some (j, rest)) (hrest : Stops rest) :
    ∃ front, s = front ++ rest ∧ ∀ t, Stops t → value care d (front ++ t) = some (j, t) := by
  cases hs : skipSpace s with
  | nil =>
    rw [hs] at h
    cases h
  | cons c s' =>
    rw [hs] at h
    obtain ⟨b, hb, rfl, hc⟩ := exists_of_skipSpace hs
    obtain ⟨front, hfront, hscalar⟩ := scalar_local care h hrest
    cases front with
    | nil => cases hscalar [] stops_nil
    | cons c' front =>
      obtain ⟨rfl, rfl⟩ := List.cons.inj hfront
      refine ⟨b ++ c :: front, by simp, fun t ht => value_eq_some_iff.2 (.inl ?_)⟩
      rw [skipSpace_front hb hc]
      exact hscalar t ht

/-- How a value is read does not depend on what follows it, unless that goes on a number. -/
theorem value_local (care : Care) (d : Nat) : Local Stops (value care d) := by
  induction d using Nat.strong_induction_on with
  | _ d ih =>
    intro s j rest h hrest
    rcases value_eq_some_iff.1 h with hscalar | ⟨n, s', js, rfl, hs, rfl, hjs⟩ |
      ⟨n, s', ms, rfl, hs, rfl, hms⟩
    · exact value_of_scalar hscalar hrest
    · have hread := reads_elements (ih n n.lt_succ_self)
      obtain ⟨b, hb, rfl, hc⟩ := exists_of_skipSpace hs
      obtain ⟨front, rfl, hfront⟩ := hread.contents_delimited hjs trivial
      refine ⟨b ++ '[' :: front, by simp, fun t _ => ?_⟩
      exact (value_bracket_iff (skipSpace_front hb hc)).2 ⟨js, rfl, hfront t trivial⟩
    · have hread : Reads '}' (member care (value care n)) := reads_members (ih n n.lt_succ_self)
      obtain ⟨b, hb, rfl, hc⟩ := exists_of_skipSpace hs
      obtain ⟨front, rfl, hfront⟩ := hread.contents_delimited hms trivial
      refine ⟨b ++ '{' :: front, by simp, fun t _ => ?_⟩
      exact (value_brace_iff (skipSpace_front hb hc)).2 ⟨ms, rfl, hfront t trivial⟩

theorem reads_values (care : Care) (d : Nat) : Reads ']' (value care d) :=
  reads_elements (value_local care d)

theorem reads_valueMembers (care : Care) (d : Nat) : Reads '}' (member care (value care d)) :=
  reads_members (value_local care d)

theorem depth_le_of_value (h : value care d s = some (j, rest)) : j.depth ≤ d := by
  induction d using Nat.strong_induction_on generalizing s j rest with
  | _ d ih =>
    rcases value_eq_some_iff.1 h with hscalar | ⟨n, s', js, rfl, hs, rfl, hjs⟩ |
      ⟨n, s', ms, rfl, hs, rfl, hms⟩
    · rw [scalar_depth hscalar]
      exact d.zero_le
    · refine Nat.succ_le_succ (depthItems_le_iff.2 ?_)
      exact (reads_values care n).forall_mem_contents hjs fun _ _ _ => ih n n.lt_succ_self
    · refine Nat.succ_le_succ (depthMembers_le_iff.2 ?_)
      refine (reads_valueMembers care n).forall_mem_contents hms fun _ m _ hm => ?_
      obtain ⟨-, -, -, _, -, -, -, -, hvalue⟩ := member_eq_some_iff.1 hm
      exact ih n n.lt_succ_self hvalue

/-- Another bound makes no difference to a value that nests no deeper. -/
theorem value_of_depth_le {d' : Nat} (h : value care d s = some (j, rest)) (hd : j.depth ≤ d') :
    value care d' s = some (j, rest) := by
  induction d using Nat.strong_induction_on generalizing s j rest d' with
  | _ d ih =>
    rcases value_eq_some_iff.1 h with hscalar | ⟨n, s', js, rfl, hs, rfl, hjs⟩ |
      ⟨n, s', ms, rfl, hs, rfl, hms⟩
    · exact value_eq_some_iff.2 (.inl hscalar)
    · obtain ⟨n', rfl⟩ := Nat.exists_eq_add_one_of_ne_zero (Nat.ne_zero_of_lt hd)
      have hjs' : contents ']' (value care n') s' = some (js, rest) :=
        (reads_values care n).contents_mono (reads_values care n') hjs
          (depthItems_le_iff.1 (Nat.le_of_succ_le_succ hd))
          fun _ _ _ hj hdepth => ih n n.lt_succ_self hj hdepth
      exact (value_bracket_iff hs).2 ⟨js, rfl, hjs'⟩
    · obtain ⟨n', rfl⟩ := Nat.exists_eq_add_one_of_ne_zero (Nat.ne_zero_of_lt hd)
      have hms' : contents '}' (member care (value care n')) s' = some (ms, rest) := by
        refine (reads_valueMembers care n).contents_mono (reads_valueMembers care n') hms
          (depthMembers_le_iff.1 (Nat.le_of_succ_le_succ hd)) fun _ m _ hm hdepth => ?_
        obtain ⟨s₁, cs, s₂, s₃, hs, hcs, hname, hs₂, hvalue⟩ := member_eq_some_iff.1 hm
        exact member_eq_some_iff.2
          ⟨s₁, cs, s₂, s₃, hs, hcs, hname, hs₂, ih n n.lt_succ_self hvalue hdepth⟩
      exact (value_brace_iff hs).2 ⟨ms, rfl, hms'⟩

end Values

end CastReceiver.Json
