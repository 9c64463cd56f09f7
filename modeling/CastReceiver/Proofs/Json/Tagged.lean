import CastReceiver.Json.Record
import CastReceiver.Proofs.Json.Containers

/-!
# Tagged records as values

A tagged record is taken apart while it is read, and its tag is looked at as soon as it comes up.
Nothing else is read than if the whole value had been read first: a text holds a tagged record if
and only if it stands for a value that holds one.
-/
namespace CastReceiver.Json

variable {α β : Type} {s s' s₁ rest : List Char} {j : Json}

/-! ## Steps of a reader that tells why it fails -/

theorem ok_of_bind {x : Except Fault α} {f : α → Except Fault β} {b : β}
    (h : (x >>= f) = .ok b) : ∃ a, x = .ok a ∧ f a = .ok b := by
  cases x with
  | error => cases h
  | ok a => exact ⟨a, rfl, h⟩

theorem bind_of_ok {x : Except Fault α} {a : α} (h : x = .ok a) (f : α → Except Fault β) :
    (x >>= f) = f a := by
  rw [h]
  rfl

theorem orMalformed_eq_ok_iff {o : Option α} {a : α} : orMalformed o = .ok a ↔ o = some a := by
  cases o <;> simp [orMalformed]

theorem afterClose_eq_ok_iff {close : Char} :
    afterClose close s = .ok rest ↔ skipSpace s = close :: rest := by
  unfold afterClose
  split
  case h_1 c s' hs =>
    rw [hs]
    split
    case isTrue hc => simp [hc]
    case isFalse hc => simp [hc]
  case h_2 hs => simp [hs]

theorem nextElement?_eq_none_iff {close : Char} {isFirst : Bool} :
    nextElement? close isFirst s = .ok none ↔ ∃ rest, skipSpace s = close :: rest := by
  unfold nextElement?
  split
  case h_1 hs => simp [hs]
  case h_2 c s' hs =>
    rw [hs]
    split
    case isTrue hc => simp [hc]
    case isFalse hc =>
      refine iff_of_false (fun h => ?_) (by simp [hc])
      split at h
      · cases h
      · split at h
        · split at h
          · cases h
          · split at h <;> cases h
        · cases h

theorem nextElement?_first_iff {close : Char} :
    nextElement? close true s = .ok (some s₁) ↔
      skipSpace s = s₁ ∧ ∃ c t, s₁ = c :: t ∧ c ≠ close := by
  unfold nextElement?
  split
  case h_1 hs =>
    refine iff_of_false (by simp) ?_
    rintro ⟨rfl, c, t, hs', -⟩
    rw [hs] at hs'
    cases hs'
  case h_2 c s' hs =>
    rw [hs]
    split
    case isTrue hc =>
      refine iff_of_false (by simp) ?_
      rintro ⟨rfl, c', t, hs', hne⟩
      cases hs'
      exact hne hc
    case isFalse hc =>
      rw [if_pos rfl]
      constructor
      · intro h
        cases h
        exact ⟨rfl, c, s', rfl, hc⟩
      · rintro ⟨rfl, -⟩
        rfl

theorem nextElement?_more_iff {close : Char} (hclose : close ≠ ',') :
    nextElement? close false s = .ok (some s₁) ↔
      ∃ s₀, skipSpace s = ',' :: s₀ ∧ skipSpace s₀ = s₁ ∧ ∃ c t, s₁ = c :: t ∧ c ≠ close := by
  constructor
  · intro h
    unfold nextElement? at h
    split at h
    case h_1 => cases h
    case h_2 c s₀ hs =>
      split at h
      case isTrue => cases h
      case isFalse =>
        rw [if_neg (by decide)] at h
        split at h
        case isFalse => cases h
        case isTrue hcomma =>
          split at h
          case h_1 => cases h
          case h_2 d t hs₀ =>
            split at h
            case isTrue => cases h
            case isFalse hd =>
              cases h
              exact ⟨s₀, hcomma ▸ hs, hs₀, d, t, rfl, hd⟩
  · rintro ⟨s₀, hs, hs₀, c, t, rfl, hc⟩
    simp [nextElement?, hs, hs₀, hc, Ne.symm hclose]

theorem fitting_eq_ok_iff {accepts : Json → Bool} :
    fitting accepts s = .ok (j, rest) ↔
      scalar .exact (skipSpace s) = some (j, rest) ∧ accepts j = true := by
  unfold fitting
  split
  case h_1 hs => simp [hs, scalar_bracket]
  case h_2 hs => simp [hs, scalar_brace]
  case h_3 =>
    constructor
    · intro h
      obtain ⟨⟨j', rest'⟩, hscalar, h⟩ := ok_of_bind h
      dsimp only at h
      split at h
      case isTrue hj =>
        cases h
        exact ⟨orMalformed_eq_ok_iff.1 hscalar, hj⟩
      case isFalse => cases h
    · rintro ⟨hscalar, hj⟩
      rw [hscalar]
      exact if_pos hj

/-- A tag is read like any value. -/
theorem fitting_tag_iff {tags : List String} {d : Nat} :
    fitting (isTag tags) s = .ok (j, rest) ↔
      value .exact d s = some (j, rest) ∧ isTag tags j = true := by
  rw [fitting_eq_ok_iff]
  refine and_congr_left fun hj => ?_
  cases j with
  | string name => rw [scalar_string_iff, value_string_iff]
  | _ => cases hj

/-! ## Members -/

/-- The reader of the members of a tagged object. -/
abbrev taggedMember : List Char → Option ((String × Json) × List Char) :=
  member .exact (value .exact (maxDepth - 1))

variable {tags : List String} {n : Nat} {tag tag' : Option Json} {ms : Members}

/-- A member is the tag, of which there is one only, or belongs to the others. -/
inductive Puts (tags : List String) (m : String × Json) :
    Option Json → Members → Option Json → Members → Prop
  | tag {ms : Members} (hname : m.1 = tagName) (htag : isTag tags m.2 = true) :
      Puts tags m none ms (some m.2) ms
  | other {tag : Option Json} {ms : Members} (hname : m.1 ≠ tagName) :
      Puts tags m tag (m :: ms) tag ms

theorem taggedMembers_step {isFirst : Bool} (hnext : nextElement? '}' isFirst s = .ok (some s₁)) :
    taggedMembers tags (n + 1) isFirst tag s = .ok ((tag', ms), s') ↔
      ∃ m s₂ tag₁ ms₁, taggedMember s₁ = some (m, s₂) ∧ Puts tags m tag ms tag₁ ms₁ ∧
        taggedMembers tags n false tag₁ s₂ = .ok ((tag', ms₁), s') := by
  constructor
  · intro h
    rw [taggedMembers, bind_of_ok hnext] at h
    obtain ⟨⟨name, s₂⟩, hname, h⟩ := ok_of_bind h
    rw [orMalformed_eq_ok_iff] at hname
    dsimp only at h
    split at h
    case isTrue htag =>
      split at h
      case isTrue => cases h
      case isFalse hnone =>
        obtain ⟨s₃, hcolon, h⟩ := ok_of_bind h
        obtain ⟨⟨j, s₄⟩, hfits, hmore⟩ := ok_of_bind h
        rw [orMalformed_eq_ok_iff] at hcolon
        obtain ⟨hvalue, hj⟩ := fitting_tag_iff.1 hfits
        have hm : taggedMember s₁ = some ((name, j), s₄) :=
          member_steps.2 ⟨s₂, s₃, hname, hcolon, hvalue⟩
        obtain rfl : tag = none := by simpa using hnone
        exact ⟨(name, j), s₄, some j, ms, hm, .tag htag hj, hmore⟩
    case isFalse htag =>
      obtain ⟨s₃, hcolon, h⟩ := ok_of_bind h
      obtain ⟨⟨j, s₄⟩, hvalue, h⟩ := ok_of_bind h
      obtain ⟨⟨⟨tag'', ms₁⟩, s₅⟩, hmore, h⟩ := ok_of_bind h
      rw [orMalformed_eq_ok_iff] at hcolon hvalue
      cases h
      have hm : taggedMember s₁ = some ((name, j), s₄) :=
        member_steps.2 ⟨s₂, s₃, hname, hcolon, hvalue⟩
      exact ⟨(name, j), s₄, tag, ms₁, hm, .other htag, hmore⟩
  · rintro ⟨m, s₂, tag₁, ms₁, hm, hputs, hmore⟩
    obtain ⟨s₃, s₄, hname, hcolon, hvalue⟩ := member_steps.1 hm
    have hname' : orMalformed (memberName .exact s₁) = .ok (m.1, s₃) :=
      orMalformed_eq_ok_iff.2 hname
    have hcolon' : orMalformed (afterColon? s₃) = .ok s₄ := orMalformed_eq_ok_iff.2 hcolon
    rw [taggedMembers, bind_of_ok hnext]
    dsimp only
    rw [bind_of_ok hname']
    dsimp only
    cases hputs with
    | tag htag hj =>
      rw [if_pos htag, if_neg (by simp), bind_of_ok hcolon',
        bind_of_ok (fitting_tag_iff.2 ⟨hvalue, hj⟩)]
      exact hmore
    | other htag =>
      have hvalue' : orMalformed (value .exact (maxDepth - 1) s₄) = .ok (m.2, s₂) :=
        orMalformed_eq_ok_iff.2 hvalue
      rw [if_neg htag, bind_of_ok hcolon', bind_of_ok hvalue']
      dsimp only
      rw [bind_of_ok hmore]

theorem valuesOf_cons_of_eq {m : String × Json} {name : String} (h : m.1 = name) (ms : Members) :
    valuesOf name (m :: ms) = m.2 :: valuesOf name ms := by
  simp [valuesOf, h]

theorem valuesOf_cons_of_ne {m : String × Json} {name : String} (h : m.1 ≠ name) (ms : Members) :
    valuesOf name (m :: ms) = valuesOf name ms := by
  simp [valuesOf, h]

/-- Members are parted into the tag and all others. -/
inductive Parted (tags : List String) : Option Json → Members → Option Json → Members → Prop
  | nil {tag : Option Json} : Parted tags tag [] tag []
  | cons {m : String × Json} {items ms ms₁ : Members} {tag tag₁ tag' : Option Json}
      (hputs : Puts tags m tag ms tag₁ ms₁) (h : Parted tags tag₁ items tag' ms₁) :
      Parted tags tag (m :: items) tag' ms

variable {items : Members}

theorem parted_some_iff :
    Parted tags (some j) items tag' ms ↔
      tag' = some j ∧ ms = items ∧ valuesOf tagName items = [] := by
  induction items generalizing ms with
  | nil =>
    constructor
    · intro h
      cases h
      exact ⟨rfl, rfl, rfl⟩
    · rintro ⟨rfl, rfl, -⟩
      exact .nil
  | cons m items ih =>
    constructor
    · intro h
      obtain - | ⟨- | hname, h⟩ := h
      obtain ⟨rfl, rfl, hnone⟩ := ih.1 h
      exact ⟨rfl, rfl, (valuesOf_cons_of_ne hname _).trans hnone⟩
    · rintro ⟨rfl, rfl, hnone⟩
      by_cases hname : m.1 = tagName
      · rw [valuesOf_cons_of_eq hname] at hnone
        cases hnone
      · rw [valuesOf_cons_of_ne hname] at hnone
        exact .cons (.other hname) (ih.2 ⟨rfl, rfl, hnone⟩)

theorem filter_of_valuesOf (h : valuesOf tagName items = []) :
    items.filter (·.1 ≠ tagName) = items := by
  refine List.filter_eq_self.2 fun m hm => ?_
  have hnone := List.filterMap_eq_nil_iff.1 h m hm
  simpa using hnone

/-- Members are parted if and only if one of them holds a tag, and one only. -/
theorem parted_none_iff :
    Parted tags none items (some j) ms ↔
      valuesOf tagName items = [j] ∧ isTag tags j = true ∧ ms = items.filter (·.1 ≠ tagName) := by
  induction items generalizing ms with
  | nil =>
    refine iff_of_false (fun h => ?_) (fun h => ?_)
    · cases h
    · cases h.1
  | cons m items ih =>
    by_cases hname : m.1 = tagName
    · rw [valuesOf_cons_of_eq hname, List.filter_cons_of_neg (by simp [hname]), List.cons.injEq]
      constructor
      · intro h
        obtain - | ⟨⟨-, htag⟩ | hne, h⟩ := h
        · obtain ⟨hj, rfl, hnone⟩ := parted_some_iff.1 h
          cases hj
          exact ⟨⟨rfl, hnone⟩, htag, (filter_of_valuesOf hnone).symm⟩
        · exact absurd hname hne
      · rintro ⟨⟨rfl, hnone⟩, htag, rfl⟩
        exact .cons (.tag hname htag)
          (parted_some_iff.2 ⟨rfl, filter_of_valuesOf hnone, hnone⟩)
    · rw [valuesOf_cons_of_ne hname, List.filter_cons_of_pos (by simp [hname])]
      constructor
      · intro h
        obtain - | ⟨⟨he, -⟩ | -, h⟩ := h
        · exact absurd he hname
        · obtain ⟨hvalues, htag, rfl⟩ := ih.1 h
          exact ⟨hvalues, htag, rfl⟩
      · rintro ⟨hvalues, htag, rfl⟩
        exact .cons (.other hname) (ih.2 ⟨hvalues, htag, rfl⟩)

theorem taggedMember_skipSpace (s : List Char) : taggedMember (skipSpace s) = taggedMember s :=
  member_skipSpace s

theorem reads_taggedMember : Reads '}' taggedMember :=
  reads_valueMembers .exact (maxDepth - 1)

/-- What is read behind a member are the other members of the object. -/
theorem tail_of_taggedMembers (h : taggedMembers tags n false tag s = .ok ((tag', ms), s'))
    (hclose : afterClose '}' s' = .ok rest) :
    ∃ items, Tail '}' taggedMember s items rest ∧ Parted tags tag items tag' ms := by
  induction n generalizing s tag ms with
  | zero => cases h
  | succ n ih =>
    cases hnext : nextElement? '}' false s with
    | error fault =>
      rw [taggedMembers, hnext] at h
      cases h
    | ok next =>
      cases next with
      | none =>
        rw [taggedMembers, bind_of_ok hnext] at h
        cases h
        exact ⟨[], .close (afterClose_eq_ok_iff.1 hclose), .nil⟩
      | some s₁ =>
        obtain ⟨s₀, hs, rfl, -⟩ := (nextElement?_more_iff (by decide)).1 hnext
        obtain ⟨m, s₂, tag₁, ms₁, hm, hputs, hmore⟩ := (taggedMembers_step hnext).1 h
        rw [taggedMember_skipSpace] at hm
        obtain ⟨items, htail, hparted⟩ := ih hmore
        exact ⟨m :: items, .comma hs hm htail, .cons hputs hparted⟩

theorem taggedMembers_of_tail (h : Tail '}' taggedMember s items rest)
    (hparted : Parted tags tag items tag' ms) (hn : items.length < n) :
    ∃ s', taggedMembers tags n false tag s = .ok ((tag', ms), s') ∧
      afterClose '}' s' = .ok rest := by
  induction h generalizing n tag ms with
  | @close s rest hs =>
    obtain ⟨n, rfl⟩ := Nat.exists_eq_add_one_of_ne_zero (Nat.ne_zero_of_lt hn)
    have hnext : nextElement? '}' false s = .ok none := nextElement?_eq_none_iff.2 ⟨rest, hs⟩
    cases hparted
    refine ⟨s, ?_, afterClose_eq_ok_iff.2 hs⟩
    rw [taggedMembers, bind_of_ok hnext]
  | @comma s s₁ s₂ rest m items hs hm htail ih =>
    obtain ⟨n, rfl⟩ := Nat.exists_eq_add_one_of_ne_zero (Nat.ne_zero_of_lt hn)
    have hn' : items.length < n := by simpa using hn
    obtain ⟨c, t, hs₁, hc⟩ := reads_taggedMember.starts hm
    have hnext : nextElement? '}' false s = .ok (some (skipSpace s₁)) :=
      (nextElement?_more_iff (by decide)).2 ⟨s₁, hs, rfl, c, t, hs₁, hc⟩
    rw [← taggedMember_skipSpace] at hm
    cases hparted with
    | @cons _ _ _ ms₁ _ tag₁ _ hputs hparted =>
      obtain ⟨s', hmore, hclose⟩ := ih hparted hn'
      exact ⟨s', (taggedMembers_step hnext).2 ⟨m, s₂, tag₁, ms₁, hm, hputs, hmore⟩, hclose⟩

/-- The members of a tagged object whose brace is open. -/
theorem taggedMembers_eq_ok_iff :
    (∃ s', taggedMembers tags (s.length + 1) true none s = .ok ((some j, ms), s') ∧
        afterClose '}' s' = .ok rest) ↔
      ∃ items, contents '}' taggedMember s = some (items, rest) ∧
        Parted tags none items (some j) ms := by
  constructor
  · rintro ⟨s', h, hclose⟩
    cases hnext : nextElement? '}' true s with
    | error fault =>
      rw [taggedMembers, hnext] at h
      cases h
    | ok next =>
      cases next with
      | none =>
        rw [taggedMembers, bind_of_ok hnext] at h
        cases h
      | some s₁ =>
        obtain ⟨rfl, -⟩ := nextElement?_first_iff.1 hnext
        obtain ⟨m, s₂, tag₁, ms₁, hm, hputs, hmore⟩ := (taggedMembers_step hnext).1 h
        rw [taggedMember_skipSpace] at hm
        obtain ⟨items, htail, hparted⟩ := tail_of_taggedMembers hmore hclose
        exact ⟨m :: items, reads_taggedMember.contents_eq_some_iff.2
          (.inr ⟨m, items, s₂, rfl, hm, htail⟩), .cons hputs hparted⟩
  · rintro ⟨items, hcontents, hparted⟩
    rcases reads_taggedMember.contents_eq_some_iff.1 hcontents with
      ⟨rfl, -⟩ | ⟨m, items, s₂, rfl, hm, htail⟩
    · cases hparted
    · obtain ⟨c, t, hs, hc⟩ := reads_taggedMember.starts hm
      have hnext : nextElement? '}' true s = .ok (some (skipSpace s)) :=
        nextElement?_first_iff.2 ⟨rfl, c, t, hs, hc⟩
      have hn : items.length < s.length :=
        (reads_taggedMember.length_lt htail).trans_le
          (reads_taggedMember.isLocal.length_le hm (reads_taggedMember.stops htail))
      rw [← taggedMember_skipSpace] at hm
      cases hparted with
      | @cons _ _ _ ms₁ _ tag₁ _ hputs hparted =>
        obtain ⟨s', hmore, hclose⟩ := taggedMembers_of_tail htail hparted hn
        exact ⟨s', (taggedMembers_step hnext).2 ⟨m, s₂, tag₁, ms₁, hm, hputs, hmore⟩, hclose⟩

/-! ## Elements -/

theorem tail_of_taggedElements {items : List Json} (h : taggedElements n s = .ok (items, s'))
    (hclose : afterClose ']' s' = .ok rest) :
    Tail ']' (value .exact (maxDepth - 1)) s items rest := by
  induction n generalizing s items with
  | zero => cases h
  | succ n ih =>
    cases hnext : nextElement? ']' false s with
    | error fault =>
      rw [taggedElements, hnext] at h
      cases h
    | ok next =>
      cases next with
      | none =>
        rw [taggedElements, bind_of_ok hnext] at h
        cases h
        exact .close (afterClose_eq_ok_iff.1 hclose)
      | some s₁ =>
        obtain ⟨s₀, hs, rfl, -⟩ := (nextElement?_more_iff (by decide)).1 hnext
        rw [taggedElements, bind_of_ok hnext] at h
        obtain ⟨⟨j, s₂⟩, hvalue, h⟩ := ok_of_bind h
        obtain ⟨⟨items', s₃⟩, hmore, h⟩ := ok_of_bind h
        rw [orMalformed_eq_ok_iff, value_skipSpace] at hvalue
        cases h
        exact .comma hs hvalue (ih hmore)

theorem taggedElements_of_tail {items : List Json}
    (h : Tail ']' (value .exact (maxDepth - 1)) s items rest) (hn : items.length < n) :
    ∃ s', taggedElements n s = .ok (items, s') ∧ afterClose ']' s' = .ok rest := by
  induction h generalizing n with
  | @close s rest hs =>
    obtain ⟨n, rfl⟩ := Nat.exists_eq_add_one_of_ne_zero (Nat.ne_zero_of_lt hn)
    have hnext : nextElement? ']' false s = .ok none := nextElement?_eq_none_iff.2 ⟨rest, hs⟩
    refine ⟨s, ?_, afterClose_eq_ok_iff.2 hs⟩
    rw [taggedElements, bind_of_ok hnext]
  | @comma s s₁ s₂ rest j items hs hvalue _ ih =>
    obtain ⟨n, rfl⟩ := Nat.exists_eq_add_one_of_ne_zero (Nat.ne_zero_of_lt hn)
    obtain ⟨s', hmore, hclose⟩ := ih (show items.length < n by simpa using hn)
    obtain ⟨c, t, hs₁, hc⟩ := value_starts hvalue
    have hnext : nextElement? ']' false s = .ok (some (skipSpace s₁)) :=
      (nextElement?_more_iff (by decide)).2 ⟨s₁, hs, rfl, c, t, hs₁, hc⟩
    refine ⟨s', ?_, hclose⟩
    rw [taggedElements, bind_of_ok hnext]
    dsimp only
    rw [value_skipSpace, bind_of_ok (orMalformed_eq_ok_iff.2 hvalue)]
    dsimp only
    rw [bind_of_ok hmore]

/-! ## Records -/

theorem tagOf?_eq_some_iff {name : String} :
    tagOf? tags false j = some name ↔ j = .string name ∧ isTag tags j = true := by
  cases j with
  | string s => by_cases h : s ∈ tags <;> simp [tagOf?, isTag, h]
  | integer n => simp [tagOf?]
  | _ => simp [tagOf?]

theorem taggedOf?_object_iff {name : String} {body : Body} :
    taggedOf? tags false (.object items) = some (name, body) ↔
      Parted tags none items (some (.string name)) (items.filter (·.1 ≠ tagName)) ∧
        body = .members (items.filter (·.1 ≠ tagName)) := by
  rw [parted_none_iff, taggedOf?]
  split
  case h_1 j hvalues =>
    rw [hvalues, Option.map_eq_some_iff]
    constructor
    · rintro ⟨tag, htag, heq⟩
      cases heq
      obtain ⟨rfl, hj⟩ := tagOf?_eq_some_iff.1 htag
      exact ⟨⟨rfl, hj, rfl⟩, rfl⟩
    · rintro ⟨⟨hj, htag, -⟩, rfl⟩
      cases hj
      exact ⟨name, tagOf?_eq_some_iff.2 ⟨rfl, htag⟩, rfl⟩
  case h_2 hne =>
    refine iff_of_false (by simp) ?_
    rintro ⟨⟨hvalues, -⟩, -⟩
    exact hne _ hvalues

theorem taggedOf?_array_iff {js : List Json} {name : String} {body : Body} :
    taggedOf? tags false (.array js) = some (name, body) ↔
      ∃ items, js = .string name :: items ∧ isTag tags (.string name) = true ∧
        body = .elements items := by
  cases js with
  | nil => simp [taggedOf?]
  | cons j items =>
    rw [taggedOf?, Option.map_eq_some_iff]
    constructor
    · rintro ⟨tag, htag, heq⟩
      cases heq
      obtain ⟨rfl, hj⟩ := tagOf?_eq_some_iff.1 htag
      exact ⟨items, rfl, hj, rfl⟩
    · rintro ⟨_, hcons, htag, rfl⟩
      cases hcons
      exact ⟨name, tagOf?_eq_some_iff.2 ⟨rfl, htag⟩, rfl⟩

/-- A tag that is written as a name does not need a number. -/
theorem taggedOf?_numbered {name : String} {body : Body}
    (h : taggedOf? tags false j = some (name, body)) :
    taggedOf? tags true j = some (name, body) := by
  have htag {j : Json} {name : String} (h : tagOf? tags false j = some name) :
      tagOf? tags true j = some name := by
    obtain ⟨rfl, -⟩ := tagOf?_eq_some_iff.1 h
    exact h
  cases j with
  | object members =>
    rw [taggedOf?] at h ⊢
    split at h
    case h_1 =>
      obtain ⟨name', hname, heq⟩ := Option.map_eq_some_iff.1 h
      exact Option.map_eq_some_iff.2 ⟨name', htag hname, heq⟩
    case h_2 => cases h
  | array js =>
    cases js with
    | nil => cases h
    | cons j items =>
      obtain ⟨name', hname, heq⟩ := Option.map_eq_some_iff.1 h
      exact Option.map_eq_some_iff.2 ⟨name', htag hname, heq⟩
  | _ => cases h

theorem tagged_brace_iff {t : List Char} {name : String} {body : Body}
    (hs : skipSpace s = '{' :: t) :
    tagged tags s = .ok ((name, body), rest) ↔
      ∃ items, contents '}' taggedMember t = some (items, rest) ∧
        taggedOf? tags false (.object items) = some (name, body) := by
  simp only [tagged, hs]
  constructor
  · intro h
    obtain ⟨⟨⟨tag, ms⟩, s₁⟩, hmembers, h⟩ := ok_of_bind h
    dsimp only at h
    split at h
    case h_2 => cases h
    case h_1 =>
      obtain ⟨rest', hclose, h⟩ := ok_of_bind h
      cases h
      obtain ⟨items, hcontents, hparted⟩ := taggedMembers_eq_ok_iff.1 ⟨s₁, hmembers, hclose⟩
      obtain rfl := (parted_none_iff.1 hparted).2.2
      exact ⟨items, hcontents, taggedOf?_object_iff.2 ⟨hparted, rfl⟩⟩
  · rintro ⟨items, hcontents, htagged⟩
    obtain ⟨hparted, rfl⟩ := taggedOf?_object_iff.1 htagged
    obtain ⟨s₁, hmembers, hclose⟩ := taggedMembers_eq_ok_iff.2 ⟨items, hcontents, hparted⟩
    rw [bind_of_ok hmembers]
    dsimp only
    rw [bind_of_ok hclose]

theorem tagged_bracket_iff {t : List Char} {name : String} {body : Body}
    (hs : skipSpace s = '[' :: t) :
    tagged tags s = .ok ((name, body), rest) ↔
      ∃ js, contents ']' (value .exact (maxDepth - 1)) t = some (js, rest) ∧
        taggedOf? tags false (.array js) = some (name, body) := by
  have hreads := reads_values .exact (maxDepth - 1)
  simp only [tagged, hs]
  constructor
  · intro h
    obtain ⟨next, hnext, h⟩ := ok_of_bind h
    split at h
    case h_1 => cases h
    case h_2 s₁ =>
      obtain ⟨rfl, -⟩ := nextElement?_first_iff.1 hnext
      obtain ⟨⟨j, s₂⟩, hfits, h⟩ := ok_of_bind h
      obtain ⟨hvalue, htag⟩ := (fitting_tag_iff (d := maxDepth - 1)).1 hfits
      rw [value_skipSpace] at hvalue
      split at h
      case h_2 => cases h
      case h_1 tag s₂' heq =>
        obtain ⟨rfl, rfl⟩ := Prod.mk.inj heq
        obtain ⟨⟨items, s₃⟩, helements, h⟩ := ok_of_bind h
        obtain ⟨rest', hclose, h⟩ := ok_of_bind h
        cases h
        have htail := tail_of_taggedElements helements hclose
        exact ⟨_, hreads.contents_eq_some_iff.2 (.inr ⟨_, items, _, rfl, hvalue, htail⟩),
          taggedOf?_array_iff.2 ⟨items, rfl, htag, rfl⟩⟩
  · rintro ⟨js, hcontents, htagged⟩
    obtain ⟨items, rfl, htag, rfl⟩ := taggedOf?_array_iff.1 htagged
    rcases hreads.contents_eq_some_iff.1 hcontents with ⟨hnil, -⟩ | ⟨j, js, s₂, hcons, hj, htail⟩
    · cases hnil
    · cases hcons
      obtain ⟨c, t', hs₁, hc⟩ := value_starts hj
      have hnext : nextElement? ']' true t = .ok (some (skipSpace t)) :=
        nextElement?_first_iff.2 ⟨rfl, c, t', hs₁, hc⟩
      obtain ⟨s₃, helements, hclose⟩ :=
        taggedElements_of_tail htail ((hreads.length_lt htail).trans (Nat.lt_succ_self _))
      rw [← value_skipSpace] at hj
      rw [bind_of_ok hnext]
      dsimp only
      rw [bind_of_ok (fitting_tag_iff.2 ⟨hj, htag⟩)]
      dsimp only
      rw [bind_of_ok helements]
      dsimp only
      rw [bind_of_ok hclose]

/-- A text starts with a tagged record if and only if it starts with a value that holds one. -/
theorem tagged_eq_ok_iff {name : String} {body : Body} :
    tagged tags s = .ok ((name, body), rest) ↔
      ∃ j, value .exact maxDepth s = some (j, rest) ∧
        taggedOf? tags false j = some (name, body) := by
  by_cases hobject : ∃ t, skipSpace s = '{' :: t
  · obtain ⟨t, hs⟩ := hobject
    rw [tagged_brace_iff hs]
    constructor
    · rintro ⟨items, hcontents, htagged⟩
      exact ⟨_, (value_brace_iff hs).2 ⟨items, rfl, hcontents⟩, htagged⟩
    · rintro ⟨j, hvalue, htagged⟩
      obtain ⟨items, rfl, hcontents⟩ := (value_brace_iff hs).1 hvalue
      exact ⟨items, hcontents, htagged⟩
  by_cases harray : ∃ t, skipSpace s = '[' :: t
  · obtain ⟨t, hs⟩ := harray
    rw [tagged_bracket_iff hs]
    constructor
    · rintro ⟨js, hcontents, htagged⟩
      exact ⟨_, (value_bracket_iff hs).2 ⟨js, rfl, hcontents⟩, htagged⟩
    · rintro ⟨j, hvalue, htagged⟩
      obtain ⟨js, rfl, hcontents⟩ := (value_bracket_iff hs).1 hvalue
      exact ⟨js, hcontents, htagged⟩
  -- Any other value holds no record.
  refine iff_of_false (fun h => ?_) ?_
  · unfold tagged at h
    split at h
    case h_1 t hs => exact hobject ⟨t, hs⟩
    case h_2 t hs => exact harray ⟨t, hs⟩
    case h_3 =>
      obtain ⟨_, -, h⟩ := ok_of_bind h
      cases h
  · rintro ⟨j, hvalue, htagged⟩
    rcases value_eq_some_iff.1 hvalue with hscalar | ⟨_, t, _, -, hs, -⟩ | ⟨_, t, _, -, hs, -⟩
    · have hdepth := scalar_depth hscalar
      cases j with
      | array => cases hdepth
      | object => cases hdepth
      | _ => cases htagged
    · exact harray ⟨t, hs⟩
    · exact hobject ⟨t, hs⟩

/-! ## Whole texts -/

theorem parse_eq_some_iff {text : String} :
    parse text = some j ↔
      ∃ rest, value .exact maxDepth text.toList = some (j, rest) ∧ IsBlank rest := by
  unfold parse
  constructor
  · intro h
    obtain ⟨⟨j', rest⟩, hvalue, h⟩ := Option.bind_eq_some_iff.1 h
    dsimp only at h
    split at h
    case isTrue hblank =>
      cases h
      exact ⟨rest, hvalue, isBlank_iff.2 (List.isEmpty_iff.1 hblank)⟩
    case isFalse => cases h
  · rintro ⟨rest, hvalue, hblank⟩
    simp [hvalue, isBlank_iff.1 hblank]

theorem whole_eq_ok_iff {read : List Char → Except Fault (α × List Char)} {text : String} {a : α} :
    whole read text = .ok a ↔ ∃ rest, read text.toList = .ok (a, rest) ∧ IsBlank rest := by
  unfold whole
  constructor
  · intro h
    obtain ⟨⟨a', rest⟩, hread, h⟩ := ok_of_bind h
    dsimp only at h
    split at h
    case isTrue hblank =>
      cases h
      exact ⟨rest, hread, isBlank_iff.2 (List.isEmpty_iff.1 hblank)⟩
    case isFalse => cases h
  · rintro ⟨rest, hread, hblank⟩
    rw [bind_of_ok hread]
    simp [isBlank_iff.1 hblank]

/-- A whole text is understood as a tagged record if and only if the value that it stands for is. -/
theorem whole_tagged_iff (make? : String → Body → Option α)
    (read : List Char → Except Fault (α × List Char))
    (hread : ∀ s, read s = (do
      let ((tag, body), s) ← tagged tags s
      match make? tag body with
      | some a => .ok (a, s)
      | none => .error .unfit)) {text : String} {a : α} :
    whole read text = .ok a ↔ ∃ j, parse text = some j ∧
      (do
        let (tag, body) ← taggedOf? tags false j
        make? tag body) = some a := by
  rw [whole_eq_ok_iff]
  constructor
  · rintro ⟨rest, h, hblank⟩
    rw [hread] at h
    obtain ⟨⟨⟨name, body⟩, rest'⟩, htagged, h⟩ := ok_of_bind h
    dsimp only at h
    split at h
    case h_2 => cases h
    case h_1 a' hmake =>
      cases h
      obtain ⟨j, hvalue, hj⟩ := tagged_eq_ok_iff.1 htagged
      exact ⟨j, parse_eq_some_iff.2 ⟨rest, hvalue, hblank⟩,
        Option.bind_eq_some_iff.2 ⟨(name, body), hj, hmake⟩⟩
  · rintro ⟨j, hparse, h⟩
    obtain ⟨⟨name, body⟩, hj, hmake⟩ := Option.bind_eq_some_iff.1 h
    obtain ⟨rest, hvalue, hblank⟩ := parse_eq_some_iff.1 hparse
    refine ⟨rest, ?_, hblank⟩
    rw [hread, bind_of_ok (tagged_eq_ok_iff.2 ⟨j, hvalue, hj⟩)]
    dsimp only at hmake ⊢
    rw [hmake]

end CastReceiver.Json
