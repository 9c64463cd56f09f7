import CastReceiver.Address.Basic
import Mathlib.Data.List.TakeWhile
import Mathlib.Data.Nat.Digits.Defs

/-!
# Addresses are read back

The text of an address stands for that address and for no other, of either version, wherever zeros
are left out of it.
-/
namespace CastReceiver

/-! ## Numerals -/

namespace Text

variable {base n m : Nat} {c : Char} {cs : List Char}

theorem digitValue_digitChar {d : Nat} (h : d < 16) : digitValue (Nat.digitChar d) = some d := by
  revert d
  decide

theorem numeralFrom_append (base n : Nat) (cs ds : List Char) :
    numeralFrom base n (cs ++ ds) =
      (numeralFrom base n cs).bind fun m => numeralFrom base m ds := by
  induction cs generalizing n with
  | nil => rfl
  | cons c cs ih =>
    rw [List.cons_append, numeralFrom, numeralFrom]
    cases digitValue c with
    | none => rfl
    | some d =>
      dsimp only
      split
      · exact ih _
      · rfl

theorem numeralFrom_digit {d : Nat} (hbase : base ≤ 16) (hd : d < base) :
    numeralFrom base n [Nat.digitChar d] = some (n * base + d) := by
  simp [numeralFrom, digitValue_digitChar (hd.trans_le hbase), hd]

theorem numeralFrom_digits (hbase : 1 < base) (hbase' : base ≤ 16) (n : Nat) :
    numeralFrom base 0 (digits base n) = some n := by
  induction n using Nat.strong_induction_on with
  | _ n ih =>
    rw [digits, Nat.toDigits_eq_if hbase]
    split
    case isTrue hn =>
      rw [numeralFrom_digit hbase' hn, Nat.zero_mul, Nat.zero_add]
    case isFalse hn =>
      have hdiv : n / base < n := Nat.div_lt_self (by omega) hbase
      have hmod : n % base < base := Nat.mod_lt n (by omega)
      rw [numeralFrom_append, ← digits, ih _ hdiv, Option.bind_some, numeralFrom_digit hbase' hmod,
        Nat.div_add_mod']

theorem digits_ne_nil (base n : Nat) : digits base n ≠ [] :=
  Nat.toDigits_ne_nil

/-- A number is read back from its digits. -/
theorem numeral_digits (hbase : 1 < base) (hbase' : base ≤ 16) (n : Nat) :
    numeral base (digits base n) = some n := by
  have hne : (digits base n).isEmpty = false := by
    simpa using digits_ne_nil base n
  rw [numeral, hne]
  exact numeralFrom_digits hbase hbase' n

theorem digit_of_numeralFrom (h : numeralFrom base n cs = some m) (hc : c ∈ cs) :
    (digitValue c).isSome = true := by
  induction cs generalizing n with
  | nil => cases hc
  | cons d cs ih =>
    rw [numeralFrom] at h
    cases hd : digitValue d with
    | none =>
      rw [hd] at h
      cases h
    | some v =>
      rw [hd] at h
      dsimp only at h
      split at h
      case isFalse => cases h
      case isTrue =>
        rcases List.mem_cons.1 hc with rfl | hc
        · rw [hd]
          rfl
        · exact ih h hc

/-- Only digits make a numeral. -/
theorem digit_of_numeral (h : numeral base cs = some n) (hc : c ∈ cs) :
    (digitValue c).isSome = true := by
  unfold numeral at h
  split at h
  · cases h
  · exact digit_of_numeralFrom h hc

theorem numeral_eq_none (hc : digitValue c = none) (h : c ∈ cs) : numeral base cs = none := by
  cases hn : numeral base cs with
  | none => rfl
  | some n =>
    have hdigit := digit_of_numeral hn h
    rw [hc] at hdigit
    cases hdigit

theorem not_mem_digits (hbase : 1 < base) (hbase' : base ≤ 16) (hc : digitValue c = none) :
    c ∉ digits base n := by
  intro hmem
  have hnone : numeral base (digits base n) = none := numeral_eq_none hc hmem
  rw [numeral_digits hbase hbase'] at hnone
  cases hnone

/-! ## Pieces -/

variable {sep : Char}

theorem exists_mem_split (h : c ∈ cs) (hne : c ≠ sep) : ∃ piece ∈ split sep cs, c ∈ piece := by
  induction cs with
  | nil => cases h
  | cons d cs ih =>
    rw [split]
    split
    case isTrue hd =>
      obtain rfl | h := List.mem_cons.1 h
      · exact absurd hd hne
      · obtain ⟨piece, hpiece, hc⟩ := ih h
        exact ⟨piece, List.mem_cons_of_mem _ hpiece, hc⟩
    case isFalse =>
      split
      case h_1 first pieces hsplit =>
        obtain rfl | h := List.mem_cons.1 h
        · exact ⟨c :: first, List.mem_cons_self, List.mem_cons_self⟩
        · obtain ⟨piece, hpiece, hc⟩ := ih h
          rw [hsplit] at hpiece
          obtain rfl | hpiece := List.mem_cons.1 hpiece
          · exact ⟨d :: piece, List.mem_cons_self, List.mem_cons_of_mem _ hc⟩
          · exact ⟨piece, List.mem_cons_of_mem _ hpiece, hc⟩
      case h_2 hsplit => exact absurd hsplit (split_ne_nil sep cs)

theorem splitTwice?_cons (h : c ≠ sep) (cs : List Char) :
    splitTwice? sep (c :: cs) = (splitTwice? sep cs).map fun (a, b) => (c :: a, b) := by
  cases cs with
  | nil => rfl
  | cons d cs => rw [splitTwice?, if_neg fun hboth => h hboth.1]

theorem splitTwice?_append {piece : List Char} (h : sep ∉ piece) (cs : List Char) :
    splitTwice? sep (piece ++ cs) = (splitTwice? sep cs).map fun (a, b) => (piece ++ a, b) := by
  induction piece with
  | nil => simp
  | cons c piece ih =>
    have hc : c ≠ sep := fun e => h (e ▸ List.mem_cons_self)
    rw [List.cons_append, splitTwice?_cons hc, ih fun m => h (List.mem_cons_of_mem c m),
      Option.map_map]
    rfl

theorem join_cons_cons (p q : List Char) (pieces : List (List Char)) :
    join sep (p :: q :: pieces) = p ++ sep :: join sep (q :: pieces) := rfl

theorem mem_join_cons_cons (p q : List Char) (pieces : List (List Char)) :
    sep ∈ join sep (p :: q :: pieces) := by
  simp [join_cons_cons]

theorem exists_of_join_cons (c : Char) (p : List Char) (pieces : List (List Char)) :
    ∃ rest, join sep ((c :: p) :: pieces) = c :: rest := by
  cases pieces with
  | nil => exact ⟨p, rfl⟩
  | cons q qs => exact ⟨_, rfl⟩

/-- No separator stands twice where no piece is empty. -/
theorem splitTwice?_join {pieces : List (List Char)}
    (h : ∀ piece ∈ pieces, sep ∉ piece ∧ piece ≠ []) (hcs : splitTwice? sep cs = none) :
    splitTwice? sep (join sep pieces ++ cs) = none := by
  induction pieces with
  | nil => exact hcs
  | cons piece pieces ih =>
    obtain ⟨hsep, -⟩ := h piece List.mem_cons_self
    cases pieces with
    | nil =>
      rw [join, splitTwice?_append hsep, hcs]
      rfl
    | cons q qs =>
      obtain ⟨hq, hne⟩ := h q (by simp)
      obtain ⟨c, q, rfl⟩ := List.exists_cons_of_ne_nil hne
      have hrest := ih fun p hp => h p (List.mem_cons_of_mem _ hp)
      have hc : c ≠ sep := fun e => hq (e ▸ List.mem_cons_self)
      rw [join_cons_cons, List.append_assoc, splitTwice?_append hsep]
      obtain ⟨rest, hjoin⟩ : ∃ rest, join sep ((c :: q) :: qs) = c :: rest :=
        exists_of_join_cons c q qs
      rw [hjoin, List.cons_append] at hrest
      rw [hjoin, List.cons_append, List.cons_append, splitTwice?, if_neg fun hboth => hc hboth.2,
        hrest]
      rfl

/-- A separator is first found twice behind a text that holds none. -/
theorem splitTwice?_eq_some {before : List Char} (h : splitTwice? sep (before ++ [sep]) = none)
    (after : List Char) :
    splitTwice? sep (before ++ sep :: sep :: after) = some (before, after) := by
  induction before with
  | nil => simp [splitTwice?]
  | cons c before ih =>
    obtain ⟨d, rest, hrest, hrest'⟩ : ∃ d rest, before ++ [sep] = d :: rest ∧
        before ++ sep :: sep :: after = d :: (rest ++ sep :: after) := by
      cases before with
      | nil => exact ⟨sep, [], rfl, rfl⟩
      | cons d before => exact ⟨d, before ++ [sep], rfl, by simp⟩
    rw [hrest] at ih
    rw [hrest'] at ih
    rw [List.cons_append, hrest, splitTwice?] at h
    rw [List.cons_append, hrest', splitTwice?]
    split at h
    case isTrue => cases h
    case isFalse hne =>
      rw [if_neg hne, ih (Option.map_eq_none_iff.1 h)]
      rfl

end Text

/-! ## Version 4 -/

namespace Address

open Text

namespace V4

theorem octet?_digits (o : Fin 256) : octet? (digits 10 o.val) = some o := by
  revert o
  decide +kernel

theorem parse?_render (v : V4) : parse? v.render = some v := by
  have hsplit : split '.' v.render = [v.a, v.b, v.c, v.d].map fun o => digits 10 o.val := by
    refine split_join (by simp) fun piece hpiece => ?_
    obtain ⟨o, -, rfl⟩ := List.mem_map.1 hpiece
    exact not_mem_digits (by decide) (by decide) rfl
  rw [parse?, hsplit]
  simp [octet?_digits]

/-- No colon stands in the text of an address of version 4. -/
theorem parse?_eq_none {cs : List Char} (h : ':' ∈ cs) : parse? cs = none := by
  have hoctet (piece : List Char) (hpiece : ':' ∈ piece) : octet? piece = none := by
    rw [octet?, numeral_eq_none rfl hpiece]
    split <;> rfl
  obtain ⟨piece, hpiece, hcolon⟩ := exists_mem_split h (show ':' ≠ '.' by decide)
  have hnone := hoctet piece hcolon
  unfold parse?
  split
  case h_2 => rfl
  case h_1 a b c d hsplit =>
    rw [hsplit] at hpiece
    simp only [List.mem_cons, List.not_mem_nil, or_false] at hpiece
    rcases hpiece with rfl | rfl | rfl | rfl <;> simp [hnone]

end V4

/-! ## Version 6 -/

namespace V6

theorem group?_digits (g : Group) : group? (digits 16 g.val) = some g := by
  have hlength : (digits 16 g.val).length ≤ 4 :=
    (Nat.length_toDigits_le_iff (by decide) (by decide)).2 g.isLt
  rw [group?, if_pos hlength, numeral_digits (by decide) (by decide)]
  simp

/-- The pieces of a text of groups. -/
abbrev pieces (groups : List Group) : List (List Char) :=
  groups.map fun g => digits 16 g.val

theorem mem_pieces {groups : List Group} {piece : List Char} (h : piece ∈ pieces groups) :
    ':' ∉ piece ∧ piece ≠ [] := by
  obtain ⟨g, -, rfl⟩ := List.mem_map.1 h
  exact ⟨not_mem_digits (by decide) (by decide) rfl, digits_ne_nil 16 g.val⟩

theorem groupsOf?_pieces (embeds : Bool) (groups : List Group) :
    groupsOf? embeds (pieces groups) = some groups := by
  induction groups with
  | nil => rfl
  | cons g groups ih =>
    cases groups with
    | nil => simp [groupsOf?, group?_digits]
    | cons g' groups =>
      simp only [List.map_cons] at ih
      simp [groupsOf?, group?_digits, ih]

theorem split_renderGroups {groups : List Group} (h : groups ≠ []) :
    split ':' (renderGroups groups) = pieces groups :=
  split_join (by simpa using h) fun _ hpiece => (mem_pieces hpiece).1

theorem renderGroups_cons_ne_nil (g : Group) (groups : List Group) :
    renderGroups (g :: groups) ≠ [] := by
  obtain ⟨c, p, hdigits⟩ := List.exists_cons_of_ne_nil (digits_ne_nil 16 g.val)
  obtain ⟨rest, hjoin⟩ : ∃ rest, join ':' ((c :: p) :: pieces groups) = c :: rest :=
    exists_of_join_cons c p _
  rw [renderGroups, List.map_cons, hdigits, hjoin]
  exact List.cons_ne_nil c rest

theorem side?_renderGroups (embeds : Bool) (groups : List Group) :
    side? embeds (renderGroups groups) = some groups := by
  cases groups with
  | nil => rfl
  | cons g groups =>
    have hne : ¬(renderGroups (g :: groups)).isEmpty = true := by
      simpa using renderGroups_cons_ne_nil g groups
    rw [side?, if_neg hne, split_renderGroups (List.cons_ne_nil g groups), groupsOf?_pieces]

theorem splitTwice?_renderGroups (groups : List Group) {cs : List Char}
    (hcs : splitTwice? ':' cs = none) : splitTwice? ':' (renderGroups groups ++ cs) = none :=
  splitTwice?_join (fun _ => mem_pieces) hcs

theorem replicate_zerosFrom (groups : List Group) (start : Nat) :
    groups.take start ++ List.replicate (zerosFrom groups start) 0 ++
      groups.drop (start + zerosFrom groups start) = groups := by
  have hzeros : (groups.drop start).takeWhile (· = 0) =
      List.replicate (zerosFrom groups start) 0 := by
    refine List.eq_replicate_of_mem fun g hg => ?_
    simpa using List.mem_takeWhile_imp hg
  have hrest : groups.drop (start + zerosFrom groups start) =
      (groups.drop start).dropWhile (· = 0) := by
    have happend := List.takeWhile_append_dropWhile (p := fun g : Group => g = 0)
      (l := groups.drop start)
    rw [← List.drop_drop]
    nth_rewrite 1 [← happend]
    exact List.drop_left
  rw [hrest, ← hzeros, List.append_assoc, List.takeWhile_append_dropWhile, List.take_append_drop]

/-- The longest run of zeros can be left out and put back. -/
theorem replicate_longestRun (groups : List Group) :
    groups.take (longestRun groups).1 ++ List.replicate (longestRun groups).2 0 ++
      groups.drop ((longestRun groups).1 + (longestRun groups).2) = groups := by
  unfold longestRun
  refine List.foldlRecOn (motive := fun run : Nat × Nat =>
    groups.take run.1 ++ List.replicate run.2 0 ++ groups.drop (run.1 + run.2) = groups)
    _ _ (by simp) fun run hrun start _ => ?_
  dsimp only
  split
  · exact replicate_zerosFrom groups start
  · exact hrun

theorem ofGroups?_groups (v : V6) : ofGroups? v.groups = some v := by
  rw [ofGroups?, dif_pos v.size]

/-- The groups are found again where more than one is left out. -/
theorem parse?_of_left_out {v : V6} {front back : List Group} {n : Nat} (hn : 0 < n)
    (hgroups : front ++ List.replicate n 0 ++ back = v.groups) {before after : List Char}
    (hsplit : splitTwice? ':' (before ++ [':']) = none) (hbefore : side? false before = some front)
    (hafter : side? true after = some back) :
    parse? (before ++ ':' :: ':' :: after) = some v := by
  have hsize := v.size
  rw [← hgroups, List.length_append, List.length_append, List.length_replicate] at hsize
  have hmissing : 8 - (front.length + back.length) = n := by omega
  rw [parse?, splitTwice?_eq_some hsplit]
  simp only [hbefore, hafter, hmissing, Option.bind_eq_bind, Option.bind_some, hgroups,
    if_neg hn.ne', ofGroups?_groups]

theorem groups_of_embedded? {v : V6} {w : V4} (h : v.embedded? = some w) :
    v.groups = List.replicate 5 0 ++ 0xFFFF :: ofV4 w := by
  unfold embedded? at h
  split at h
  case h_2 => cases h
  case h_1 a b c d e f g k hgroups =>
    split at h
    case isFalse => cases h
    case isTrue hzeros =>
      obtain ⟨rfl, rfl, rfl, rfl, rfl, rfl⟩ := hzeros
      cases h
      rw [hgroups]
      simp [ofV4, Nat.div_add_mod']

theorem side?_embedded (w : V4) :
    side? true ('f' :: 'f' :: 'f' :: 'f' :: ':' :: w.render) = some (0xFFFF :: ofV4 w) := by
  have hcolon : ':' ∉ w.render := fun h => by
    have hparse := V4.parse?_render w
    rw [V4.parse?_eq_none h] at hparse
    cases hparse
  have hsplit : split ':' ('f' :: 'f' :: 'f' :: 'f' :: ':' :: w.render) =
      [['f', 'f', 'f', 'f'], w.render] := by
    rw [← split_of_not_mem hcolon]
    exact split_append_cons (show ':' ∉ ['f', 'f', 'f', 'f'] by decide) w.render
  have hpoint : '.' ∈ w.render := mem_join_cons_cons _ _ _
  have hgroup : group? w.render = none := by
    rw [group?, numeral_eq_none rfl hpoint]
    split <;> rfl
  have hfirst : group? ['f', 'f', 'f', 'f'] = some 0xFFFF := by decide
  rw [side?, if_neg (by simp), hsplit]
  simp [groupsOf?, hfirst, hgroup, V4.parse?_render]

theorem parse?_render (v : V6) : parse? v.render = some v := by
  rw [render]
  split
  case h_1 w hw =>
    have hgroups : [] ++ List.replicate 5 0 ++ (0xFFFF :: ofV4 w) = v.groups :=
      (groups_of_embedded? hw).symm
    show parse? ([] ++ ':' :: ':' :: ('f' :: 'f' :: 'f' :: 'f' :: ':' :: w.render)) = some v
    exact parse?_of_left_out (by decide) hgroups rfl rfl (side?_embedded w)
  case h_2 hnone =>
    have hrun := replicate_longestRun v.groups
    dsimp only
    split
    case isTrue hlong =>
      exact parse?_of_left_out (Nat.zero_lt_of_lt hlong) hrun
        (splitTwice?_renderGroups _ rfl) (side?_renderGroups false _) (side?_renderGroups true _)
    case isFalse =>
      have hsplit : splitTwice? ':' (renderGroups v.groups) = none := by
        simpa using splitTwice?_renderGroups v.groups (show splitTwice? ':' [] = none from rfl)
      have hne : v.groups ≠ [] := by
        intro hnil
        have hsize := v.size
        rw [hnil] at hsize
        cases hsize
      rw [parse?, hsplit]
      dsimp only
      rw [split_renderGroups hne, groupsOf?_pieces, Option.bind_some, ofGroups?_groups]

/-- There is a colon in every address of version 6. -/
theorem colon_mem_render (v : V6) : ':' ∈ v.render := by
  rw [render]
  split
  · simp
  · dsimp only
    split
    · simp
    · obtain ⟨groups, hsize⟩ := v
      match groups, hsize with
      | a :: b :: groups, _ => exact mem_join_cons_cons _ _ _

end V6

theorem parse?_text (a : Address) : parse? a.text = some a := by
  rw [parse?, text, String.toList_ofList]
  cases a with
  | v4 v => rw [render, V4.parse?_render]
  | v6 v =>
    rw [render, V4.parse?_eq_none v.colon_mem_render, V6.parse?_render]
    rfl

end Address

end CastReceiver
