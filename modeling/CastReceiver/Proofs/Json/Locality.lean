import CastReceiver.Json.Reader
import Mathlib.Data.List.Forall2
import Mathlib.Data.List.TakeWhile

/-!
# How far a reader looks

A reader takes its part off the front of a text. A string ends with its quote, whatever comes after
it; only a number may be gone on by the text behind it (`Stops`). So what a reader makes of a part
it makes of it before every text that stops it (`Local`).
-/
namespace CastReceiver.Json

variable {α β : Type} {s t rest : List Char} {c : Char}

/-! ## Blanks -/

/-- A text of nothing but blanks. -/
def IsBlank (s : List Char) : Prop := ∀ c ∈ s, isSpace c = true

theorem isBlank_nil : IsBlank [] := by
  simp [IsBlank]

theorem isBlank_iff : IsBlank s ↔ skipSpace s = [] :=
  List.dropWhile_eq_nil_iff.symm

theorem skipSpace_append {b : List Char} (h : IsBlank b) (s : List Char) :
    skipSpace (b ++ s) = skipSpace s :=
  List.dropWhile_append_of_pos h

theorem skipSpace_cons (h : isSpace c = false) (s : List Char) : skipSpace (c :: s) = c :: s :=
  List.dropWhile_cons_of_neg (by simp [h])

theorem skipSpace_append_cons {b : List Char} (hb : IsBlank b) (hc : isSpace c = false)
    (s : List Char) : skipSpace (b ++ c :: s) = c :: s := by
  rw [skipSpace_append hb, skipSpace_cons hc]

/-- What is skipped are blanks, and what follows them is none. -/
theorem exists_of_skipSpace (h : skipSpace s = c :: t) :
    ∃ b, IsBlank b ∧ s = b ++ c :: t ∧ isSpace c = false := by
  refine ⟨s.takeWhile isSpace, fun d hd => ?_, ?_, ?_⟩
  · exact List.mem_takeWhile_imp hd
  · rw [← h, skipSpace, List.takeWhile_append_dropWhile]
  · have hhead := List.head?_dropWhile_not isSpace s
    rw [skipSpace] at h
    simpa [h] using hhead

theorem skipSpace_skipSpace (s : List Char) : skipSpace (skipSpace s) = skipSpace s := by
  cases h : skipSpace s with
  | nil => rfl
  | cons c t =>
    obtain ⟨-, -, -, hc⟩ := exists_of_skipSpace h
    exact skipSpace_cons hc t

/-! ## Texts that stop a reader -/

/-- A character that may go on a number. -/
def goesOn (c : Char) : Bool :=
  isDecimal c || c = '.' || c = 'e' || c = 'E' || c = '+' || c = '-'

/-- A text that does not go on a number before it. -/
def Stops (s : List Char) : Prop := ∀ c ∈ s.head?, goesOn c = false

theorem stops_nil : Stops [] := by
  simp [Stops]

theorem stops_cons (h : goesOn c = false) (s : List Char) : Stops (c :: s) := by
  simp [Stops, h]

theorem goesOn_of_isSpace (h : isSpace c = true) : goesOn c = false := by
  simp only [isSpace, Bool.or_eq_true, decide_eq_true_eq] at h
  rcases h with ((rfl | rfl) | rfl) | rfl <;> decide

theorem Stops.not_decimal (h : Stops (c :: t)) : isDecimal c = false := by
  have hc := h c rfl
  simp only [goesOn, Bool.or_eq_false_iff] at hc
  exact hc.1.1.1.1.1

/-- Blanks stop a number, and so does what follows them. -/
theorem stops_append {b : List Char} (hb : IsBlank b) (hs : Stops s) : Stops (b ++ s) := by
  cases b with
  | nil => exact hs
  | cons c b => exact stops_cons (goesOn_of_isSpace (hb c List.mem_cons_self)) _

theorem IsBlank.stops (h : IsBlank s) : Stops s := by
  simpa using stops_append h stops_nil

theorem stops_of_skipSpace (h : skipSpace s = c :: t) (hc : goesOn c = false) : Stops s := by
  obtain ⟨b, hb, rfl, -⟩ := exists_of_skipSpace h
  exact stops_append hb (stops_cons hc t)

/-! ## Local readers -/

/-- What a reader takes off the front of a text it takes in the same way before every text that
`stops` it. -/
def Local (stops : List Char → Prop) (read : List Char → Option (α × List Char)) : Prop :=
  ∀ ⦃s a rest⦄, read s = some (a, rest) → stops rest →
    ∃ front, s = front ++ rest ∧ ∀ t, stops t → read (front ++ t) = some (a, t)

/-- The part that a reader takes can tell by itself where it ends. -/
abbrev Delimited (read : List Char → Option (α × List Char)) : Prop :=
  Local (fun _ => True) read

theorem Local.length_le {stops : List Char → Prop} {read : List Char → Option (α × List Char)}
    (h : Local stops read) {a : α} (hread : read s = some (a, rest)) (hrest : stops rest) :
    rest.length ≤ s.length := by
  obtain ⟨front, rfl, -⟩ := h hread hrest
  simp

/-! ## Strings -/

section Strings

variable {care : Care} {cs w : List Char}

/-- The ways to write a character inside quotes. -/
inductive Spelled (care : Care) : List Char → Char → Prop
  | plain {c : Char} (hquote : c ≠ '"') (hbackslash : c ≠ '\\') (hcontrol : ¬c.toNat < 0x20) :
      Spelled care [c] c
  | short {e c : Char} (h : shortEscape e = some c) : Spelled care ['\\', e] c
  | unit {a b c d : Char} {u : Nat} (h : codeUnit a b c d = some u)
      (hu : care = .skimmed ∨ isHighSurrogate u = false ∧ isLowSurrogate u = false) :
      Spelled care ['\\', 'u', a, b, c, d] (Char.ofNat u)
  | pair {a b c d e f g k : Char} {u v : Nat} (hcare : care ≠ .skimmed)
      (hu : codeUnit a b c d = some u) (hhigh : isHighSurrogate u = true)
      (hv : codeUnit e f g k = some v) (hlow : isLowSurrogate v = true) :
      Spelled care ['\\', 'u', a, b, c, d, '\\', 'u', e, f, g, k] (surrogatePair u v)

theorem not_low_of_high {u : Nat} (h : isHighSurrogate u = true) : isLowSurrogate u = false := by
  simp only [isHighSurrogate, isLowSurrogate, Bool.and_eq_true, Bool.and_eq_false_iff,
    decide_eq_true_eq, decide_eq_false_iff_not] at *
  omega

theorem stringRest_spelled (h : Spelled care w c) (s : List Char) :
    stringRest care (w ++ s) = (stringRest care s).map fun (cs, rest) => (c :: cs, rest) := by
  cases h with
  | plain hquote hbackslash hcontrol =>
    rw [List.singleton_append, stringRest.eq_def]
    simp only [if_neg hquote, if_neg hbackslash, if_neg hcontrol]
    cases stringRest care s <;> rfl
  | @short e _ h =>
    have hu : e ≠ 'u' := by
      rintro rfl
      cases h
    conv_lhs => rw [stringRest.eq_def]
    simp [hu, h]
    cases stringRest care s <;> rfl
  | unit h hu =>
    conv_lhs => rw [stringRest.eq_def]
    simp [h, hu]
    cases stringRest _ s <;> rfl
  | pair hcare hu hhigh hv hlow =>
    conv_lhs => rw [stringRest.eq_def]
    simp [hcare, hu, hhigh, not_low_of_high hhigh, hv, hlow]
    cases stringRest _ s <;> rfl

theorem exists_of_cons {r : Option (List Char × List Char)}
    (h : (r.bind fun x => some (c :: x.1, x.2)) = some (cs, rest)) :
    ∃ cs', cs = c :: cs' ∧ r = some (cs', rest) := by
  obtain ⟨⟨cs', rest'⟩, hr, h⟩ := Option.bind_eq_some_iff.1 h
  cases h
  exact ⟨cs', rfl, hr⟩

/-- A string goes on with a character, or ends. -/
theorem stringRest_cases (h : stringRest care s = some (cs, rest)) :
    (cs = [] ∧ s = '"' :: rest) ∨
      ∃ w c cs' s', Spelled care w c ∧ cs = c :: cs' ∧ s = w ++ s' ∧
        stringRest care s' = some (cs', rest) := by
  rw [stringRest.eq_def] at h
  split at h
  · cases h
  · split at h
    case isTrue hquote =>
      cases h
      exact .inl ⟨rfl, by rw [hquote]⟩
    case isFalse c s hquote =>
      right
      split at h
      case isTrue hbackslash =>
        subst hbackslash
        split at h
        case h_1 a b c d s =>
          obtain ⟨u, hu, h⟩ := Option.bind_eq_some_iff.1 h
          split at h
          case isTrue hfits =>
            obtain ⟨cs', rfl, hs⟩ := exists_of_cons h
            simp only [Bool.or_eq_true, decide_eq_true_eq, Bool.not_eq_true',
              Bool.or_eq_false_iff] at hfits
            exact ⟨_, _, cs', s, .unit hu hfits, rfl, rfl, hs⟩
          case isFalse hpair =>
            simp only [Bool.or_eq_true, decide_eq_true_eq, Bool.not_eq_true', not_or,
              Bool.not_eq_false] at hpair
            split at h
            case isTrue => cases h
            case isFalse hlow =>
              split at h
              case h_1 _ e f g k s _ =>
                obtain ⟨v, hv, h⟩ := Option.bind_eq_some_iff.1 h
                split at h
                case isTrue hvlow =>
                  obtain ⟨cs', rfl, hs⟩ := exists_of_cons h
                  exact ⟨_, _, cs', s, .pair hpair.1 hu (hpair.2.resolve_right hlow) hv hvlow,
                    rfl, rfl, hs⟩
                case isFalse => cases h
              case h_2 => cases h
        case h_2 e s _ =>
          obtain ⟨c, hc, h⟩ := Option.bind_eq_some_iff.1 h
          obtain ⟨cs', rfl, hs⟩ := exists_of_cons h
          exact ⟨_, c, cs', s, .short hc, rfl, rfl, hs⟩
        case h_3 => cases h
      case isFalse hbackslash =>
        split at h
        case isTrue => cases h
        case isFalse hcontrol =>
          obtain ⟨cs', rfl, hs⟩ := exists_of_cons h
          exact ⟨[c], c, cs', s, .plain hquote hbackslash hcontrol, rfl, rfl, hs⟩

/-- A string is read if and only if it is written character by character, up to its quote. -/
theorem stringRest_eq_some_iff :
    stringRest care s = some (cs, rest) ↔
      ∃ ws, List.Forall₂ (Spelled care) ws cs ∧ s = ws.flatten ++ '"' :: rest := by
  constructor
  · intro h
    induction cs generalizing s with
    | nil =>
      rcases stringRest_cases h with ⟨-, rfl⟩ | ⟨w, c, cs', s', -, hcs, -⟩
      · exact ⟨[], .nil, rfl⟩
      · cases hcs
    | cons c cs ih =>
      rcases stringRest_cases h with ⟨hcs, -⟩ | ⟨w, c', cs', s', hw, hcs, rfl, hs'⟩
      · cases hcs
      · obtain ⟨rfl, rfl⟩ := List.cons.inj hcs
        obtain ⟨ws, hws, rfl⟩ := ih hs'
        exact ⟨w :: ws, .cons hw hws, by simp⟩
  · rintro ⟨ws, hws, rfl⟩
    induction hws with
    | nil => rw [List.flatten_nil, List.nil_append, stringRest.eq_def]; rfl
    | cons hw _ ih =>
      rw [List.flatten_cons, List.append_assoc, stringRest_spelled hw, ih]
      rfl

theorem stringRest_delimited (care : Care) : Delimited (stringRest care) := by
  intro s cs rest h _
  obtain ⟨ws, hws, rfl⟩ := stringRest_eq_some_iff.1 h
  refine ⟨ws.flatten ++ ['"'], by simp, fun t _ => ?_⟩
  exact stringRest_eq_some_iff.2 ⟨ws, hws, by simp⟩

end Strings

/-! ## Numbers -/

section Numbers

/-- Reads of a longer text what `r` is of the shorter one. -/
abbrev before (t : List Char) (r : Option (α × List Char)) : Option (α × List Char) :=
  r.map fun (a, rest) => (a, rest ++ t)

theorem Stops.takeWhile_append (h : Stops t) (s : List Char) :
    (s ++ t).takeWhile isDecimal = s.takeWhile isDecimal := by
  induction s with
  | nil =>
    cases t with
    | nil => rfl
    | cons c t => exact List.takeWhile_cons_of_neg (by simp [h.not_decimal])
  | cons c s ih => by_cases hc : isDecimal c = true <;> simp [hc, ih]

theorem Stops.dropWhile_append (h : Stops t) (s : List Char) :
    (s ++ t).dropWhile isDecimal = s.dropWhile isDecimal ++ t := by
  induction s with
  | nil =>
    cases t with
    | nil => rfl
    | cons c t => exact List.dropWhile_cons_of_neg (by simp [h.not_decimal])
  | cons c s ih => by_cases hc : isDecimal c = true <;> simp [hc, ih]

theorem someDigits_append (h : Stops t) (s : List Char) :
    someDigits (s ++ t) = before t (someDigits s) := by
  simp only [someDigits, h.takeWhile_append, h.dropWhile_append]
  split <;> rfl

theorem wholeDigits_of_ne {c : Char} (h : c ≠ '0') (s : List Char) :
    wholeDigits (c :: s) = someDigits (c :: s) := by
  rw [wholeDigits]
  exact fun s' he => h (List.cons.inj he).1

theorem wholeDigits_append (h : Stops t) (s : List Char) :
    wholeDigits (s ++ t) = before t (wholeDigits s) := by
  cases s with
  | nil =>
    cases t with
    | nil => rfl
    | cons c t =>
      have hc : c ≠ '0' := by
        rintro rfl
        exact absurd h.not_decimal (by decide)
      rw [List.nil_append, wholeDigits_of_ne hc]
      exact someDigits_append h []
  | cons c s =>
    by_cases hc : c = '0'
    · subst hc
      have hhead : (s ++ t).head?.any isDecimal = s.head?.any isDecimal := by
        cases s with
        | nil =>
          cases t with
          | nil => rfl
          | cons c t => exact h.not_decimal
        | cons c s => rfl
      simp only [List.cons_append, wholeDigits, hhead]
      split <;> rfl
    · rw [List.cons_append, wholeDigits_of_ne hc, wholeDigits_of_ne hc]
      exact someDigits_append h (c :: s)

theorem fractionDigits_append (h : Stops t) (s : List Char) :
    fractionDigits (s ++ t) = before t (fractionDigits s) := by
  cases s with
  | nil =>
    cases t with
    | nil => rfl
    | cons c t =>
      have hc : c ≠ '.' := by
        rintro rfl
        exact absurd (h _ rfl) (by decide)
      rw [List.nil_append, fractionDigits]
      · rfl
      · exact fun s' he => hc (List.cons.inj he).1
  | cons c s =>
    by_cases hc : c = '.'
    · subst hc
      exact someDigits_append h s
    · rw [List.cons_append, fractionDigits, fractionDigits]
      · rfl
      · exact fun s' he => hc (List.cons.inj he).1
      · exact fun s' he => hc (List.cons.inj he).1

/-- Whether an exponent is positive, and what follows its sign. -/
def afterSign (s : List Char) : Bool × List Char :=
  if s.head? = some '+' then (true, s.tail)
  else if s.head? = some '-' then (false, s.tail)
  else (true, s)

theorem afterSign_append (h : Stops t) (s : List Char) :
    afterSign (s ++ t) = ((afterSign s).1, (afterSign s).2 ++ t) := by
  cases s with
  | nil =>
    have hhead {c : Char} (hc : goesOn c = true) : t.head? ≠ some c := fun ht => by
      rw [h c ht] at hc
      cases hc
    simp [afterSign, hhead (c := '+') (by decide), hhead (c := '-') (by decide)]
  | cons c s =>
    by_cases hplus : c = '+'
    · simp [afterSign, hplus]
    · by_cases hminus : c = '-' <;> simp [afterSign, hplus, hminus]

theorem exponentDigits_cons (c : Char) (s : List Char) :
    exponentDigits (c :: s) =
      if c = 'e' || c = 'E' then
        (someDigits (afterSign s).2).map fun (ds, s') => (some ((afterSign s).1, ds), s')
      else some (none, c :: s) := by
  rw [exponentDigits.eq_def]
  dsimp only
  split
  · split
    · rfl
    · rfl
    case h_3 hplus hminus =>
      have hhead (c : Char) (h : ∀ s', s = c :: s' → False) : s.head? ≠ some c := by
        intro hs
        obtain ⟨s', rfl⟩ := List.head?_eq_some_iff.1 hs
        exact h s' rfl
      rw [afterSign, if_neg (hhead '+' hplus), if_neg (hhead '-' hminus)]
  · rfl

theorem exponentDigits_append (h : Stops t) (s : List Char) :
    exponentDigits (s ++ t) = before t (exponentDigits s) := by
  cases s with
  | nil =>
    cases t with
    | nil => rfl
    | cons c t =>
      have hc : ¬(decide (c = 'e') || decide (c = 'E')) = true := by
        have hc := h c rfl
        simp only [goesOn, Bool.or_eq_false_iff] at hc
        simp [hc]
      rw [List.nil_append, exponentDigits_cons, if_neg hc]
      rfl
  | cons c s =>
    rw [List.cons_append, exponentDigits_cons, exponentDigits_cons, afterSign_append h,
      someDigits_append h]
    split
    · cases someDigits (afterSign s).2 <;> rfl
    · rfl

/-- A number after its sign. -/
def magnitude (care : Care) (negative : Bool) (s : List Char) : Option (Json × List Char) := do
  let (whole, s) ← wholeDigits s
  let (fraction, s) ← fractionDigits s
  let (exponent, s) ← exponentDigits s
  let n : Numeral := ⟨negative, whole, fraction, exponent⟩
  if care = .exact && !n.inRange then none else some (n.toJson, s)

theorem magnitude_append (h : Stops t) (care : Care) (negative : Bool) (s : List Char) :
    magnitude care negative (s ++ t) = before t (magnitude care negative s) := by
  unfold magnitude
  rw [wholeDigits_append h]
  cases wholeDigits s with
  | none => rfl
  | some x =>
    simp only [before, Option.map_some, Option.bind_eq_bind, Option.bind_some]
    rw [fractionDigits_append h]
    cases fractionDigits x.2 with
    | none => rfl
    | some y =>
      simp only [before, Option.map_some, Option.bind_some]
      rw [exponentDigits_append h]
      cases exponentDigits y.2 with
      | none => rfl
      | some z =>
        simp only [before, Option.map_some, Option.bind_some]
        split <;> rfl

theorem number_of_ne {care : Care} (h : s.head? ≠ some '-') :
    number care s = magnitude care false s := by
  have hunsigned : ∀ s' : List Char, s = '-' :: s' → False := fun s' hs => h (hs ▸ rfl)
  simp [number, magnitude]

theorem number_append (h : Stops t) (care : Care) (s : List Char) :
    number care (s ++ t) = before t (number care s) := by
  by_cases hs : s.head? = some '-'
  · obtain ⟨s', rfl⟩ := List.head?_eq_some_iff.1 hs
    exact magnitude_append h care true s'
  · have hst : (s ++ t).head? ≠ some '-' := by
      cases s with
      | nil => exact fun ht => absurd (h _ ht) (by decide)
      | cons c s => exact hs
    rw [number_of_ne hs, number_of_ne hst]
    exact magnitude_append h care false s

theorem someDigits_suffix {ds : List Char} (h : someDigits s = some (ds, rest)) : rest <:+ s := by
  unfold someDigits at h
  dsimp only at h
  split at h
  · cases h
  · cases h
    exact List.dropWhile_suffix isDecimal

theorem wholeDigits_suffix {ds : List Char} (h : wholeDigits s = some (ds, rest)) :
    rest <:+ s := by
  unfold wholeDigits at h
  split at h
  · split at h
    · cases h
    · cases h
      exact List.suffix_cons '0' rest
  · exact someDigits_suffix h

theorem fractionDigits_suffix {ds : List Char} (h : fractionDigits s = some (ds, rest)) :
    rest <:+ s := by
  unfold fractionDigits at h
  split at h
  case h_1 s => exact (someDigits_suffix h).trans (List.suffix_cons '.' s)
  case h_2 =>
    cases h
    exact List.suffix_rfl

theorem afterSign_suffix (s : List Char) : (afterSign s).2 <:+ s := by
  unfold afterSign
  split
  · exact List.tail_suffix s
  · split
    · exact List.tail_suffix s
    · exact List.suffix_rfl

theorem exponentDigits_suffix {e : Option (Bool × List Char)}
    (h : exponentDigits s = some (e, rest)) : rest <:+ s := by
  cases s with
  | nil =>
    cases h
    exact List.suffix_rfl
  | cons c s =>
    rw [exponentDigits_cons] at h
    split at h
    · obtain ⟨⟨ds, rest'⟩, hdigits, heq⟩ := Option.map_eq_some_iff.1 h
      cases heq
      exact (someDigits_suffix hdigits).trans ((afterSign_suffix s).trans (List.suffix_cons c s))
    · cases h
      exact List.suffix_rfl

theorem magnitude_suffix {care : Care} {negative : Bool} {j : Json}
    (h : magnitude care negative s = some (j, rest)) : rest <:+ s := by
  simp only [magnitude, Option.bind_eq_bind, Option.bind_eq_some_iff, Prod.exists] at h
  obtain ⟨w, s₁, hwhole, f, s₂, hfraction, e, s₃, hexponent, h⟩ := h
  split at h
  · cases h
  · cases h
    exact (exponentDigits_suffix hexponent).trans
      ((fractionDigits_suffix hfraction).trans (wholeDigits_suffix hwhole))

theorem number_suffix {care : Care} {j : Json} (h : number care s = some (j, rest)) :
    rest <:+ s := by
  by_cases hs : s.head? = some '-'
  · obtain ⟨s', rfl⟩ := List.head?_eq_some_iff.1 hs
    exact (magnitude_suffix h).trans (List.suffix_cons '-' s')
  · exact magnitude_suffix (number_of_ne hs ▸ h)

theorem number_local (care : Care) : Local Stops (number care) := by
  intro s j rest h hrest
  obtain ⟨front, rfl⟩ := number_suffix h
  rw [number_append hrest] at h
  obtain ⟨⟨j', rest'⟩, hfront, heq⟩ := Option.map_eq_some_iff.1 h
  obtain ⟨rfl, hnil⟩ := Prod.mk.inj heq
  obtain rfl : rest' = [] := List.append_left_eq_self.1 hnil
  refine ⟨front, rfl, fun t ht => ?_⟩
  rw [number_append ht, hfront]
  rfl

end Numbers

end CastReceiver.Json
