import CastReceiver.Server.Settings
import Mathlib.Data.List.TakeWhile
import Mathlib.Data.Nat.Digits.Defs
import Mathlib.Tactic.Ring

/-!
# What the environment overrides

Four settings of a server can be overridden by a variable each. Numbers, truth values and names are
written by three different rules, which are stated here without the functions that read them. A
variable that is absent, or whose value breaks its rule, leaves its setting alone
(`environment_overrides_exactly`).
-/
namespace CastReceiver

/-! ## Decimal numbers -/

namespace Text

variable {c : Char} {cs : List Char} {n m d : Nat}

/-- The value of decimal digits, the most significant first. -/
def decimalValue (ds : List Char) : Nat :=
  Nat.ofDigits 10 (ds.reverse.map fun c => c.toNat - '0'.toNat)

/-- A plus sign or none, and one digit at least. -/
def IsDecimal (cs : List Char) (n : Nat) : Prop :=
  ∃ sign ds, cs = sign ++ ds ∧ (sign = [] ∨ sign = ['+']) ∧ ds ≠ [] ∧
    (∀ c ∈ ds, c.isDigit = true) ∧ decimalValue ds = n

theorem decimalValue_cons (c : Char) (ds : List Char) :
    decimalValue (c :: ds) = (c.toNat - '0'.toNat) * 10 ^ ds.length + decimalValue ds := by
  simp only [decimalValue, List.reverse_cons, List.map_append, Nat.ofDigits_append, List.map_cons,
    List.map_nil, Nat.ofDigits_singleton, List.length_map, List.length_reverse]
  ring

theorem isDigit_iff : c.isDigit = true ↔ '0' ≤ c ∧ c ≤ '9' := by
  simp [Char.isDigit, Char.le_def]

/-- Decimal digits are those whose value is less than ten, which leaves out the letters. -/
theorem digitValue_decimal_iff :
    (digitValue c = some d ∧ d < 10) ↔ c.isDigit = true ∧ d = c.toNat - '0'.toNat := by
  rw [isDigit_iff]
  unfold digitValue
  by_cases hdigit : '0' ≤ c ∧ c ≤ '9'
  · have hle : c.toNat ≤ '9'.toNat := hdigit.2
    have hvalue : c.toNat - '0'.toNat < 10 := by
      have h9 : '9'.toNat = 57 := rfl
      have h0 : '0'.toNat = 48 := rfl
      omega
    rw [if_pos hdigit, Option.some.injEq]
    constructor
    · exact fun h => ⟨hdigit, h.1.symm⟩
    · rintro ⟨-, rfl⟩
      exact ⟨rfl, hvalue⟩
  · rw [if_neg hdigit]
    refine iff_of_false ?_ fun h => hdigit h.1
    rintro ⟨h, hlt⟩
    split at h
    · cases h
      omega
    · split at h
      · cases h
        omega
      · cases h

theorem numeralFrom_decimal_iff :
    numeralFrom 10 n cs = some m ↔
      (∀ c ∈ cs, c.isDigit = true) ∧ n * 10 ^ cs.length + decimalValue cs = m := by
  induction cs generalizing n with
  | nil => simp [numeralFrom, decimalValue]
  | cons c cs ih =>
    rw [List.forall_mem_cons, decimalValue_cons, List.length_cons]
    by_cases hc : c.isDigit = true
    · obtain ⟨hvalue, hlt⟩ := digitValue_decimal_iff.2 ⟨hc, rfl⟩
      have hsum : (n * 10 + (c.toNat - '0'.toNat)) * 10 ^ cs.length + decimalValue cs =
          n * 10 ^ (cs.length + 1) +
            ((c.toNat - '0'.toNat) * 10 ^ cs.length + decimalValue cs) := by
        ring
      rw [numeralFrom, hvalue]
      dsimp only
      rw [if_pos hlt, ih, hsum]
      simp [hc]
    · refine iff_of_false ?_ fun h => hc h.1.1
      rw [numeralFrom]
      split
      case h_1 d hd =>
        split
        case isTrue hlt => exact absurd (digitValue_decimal_iff.1 ⟨hd, hlt⟩).1 hc
        case isFalse => exact nofun
      case h_2 => exact nofun

theorem numeral_decimal_iff :
    numeral 10 cs = some n ↔
      cs ≠ [] ∧ (∀ c ∈ cs, c.isDigit = true) ∧ decimalValue cs = n := by
  unfold numeral
  by_cases hcs : cs = []
  · simp [hcs]
  · have hempty : cs.isEmpty = false := by simpa using hcs
    rw [hempty, if_neg Bool.false_ne_true, numeralFrom_decimal_iff]
    simp [hcs]

/-- Reading accepts exactly the decimal numbers up to the limit. -/
theorem natural_eq_some_iff {limit : Nat} :
    natural limit cs = some n ↔ IsDecimal cs n ∧ n ≤ limit := by
  unfold natural
  rw [Option.filter_eq_some_iff, decide_eq_true_eq]
  refine and_congr_left fun _ => ?_
  constructor
  · intro h
    split at h
    case h_1 rest => exact ⟨['+'], rest, rfl, .inr rfl, numeral_decimal_iff.1 h⟩
    case h_2 => exact ⟨[], cs, rfl, .inl rfl, numeral_decimal_iff.1 h⟩
  · rintro ⟨sign, ds, rfl, rfl | rfl, hne, hdigits, hvalue⟩
    · -- The first digit is no sign.
      split
      case h_1 rest hrest =>
        have hplus : '+'.isDigit = true := hdigits '+' (by simp_all)
        exact absurd hplus (by decide)
      case h_2 => exact numeral_decimal_iff.2 ⟨hne, hdigits, hvalue⟩
    · exact numeral_decimal_iff.2 ⟨hne, hdigits, hvalue⟩

/-! ## Blank ends -/

def AllBlank (cs : List Char) : Prop := ∀ c ∈ cs, isBlank c = true

theorem exists_of_trim (cs : List Char) :
    ∃ before after, cs = before ++ trim cs ++ after ∧ AllBlank before ∧ AllBlank after := by
  let rest := (cs.dropWhile isBlank).reverse
  refine ⟨cs.takeWhile isBlank, (rest.takeWhile isBlank).reverse, ?_, ?_, ?_⟩
  · have hrest : cs.dropWhile isBlank = trim cs ++ (rest.takeWhile isBlank).reverse := by
      rw [trim, ← List.reverse_append, List.takeWhile_append_dropWhile, List.reverse_reverse]
    rw [List.append_assoc, ← hrest, List.takeWhile_append_dropWhile]
  · exact fun c hc => List.mem_takeWhile_imp hc
  · exact fun c hc => List.mem_takeWhile_imp (List.mem_reverse.1 hc)

theorem dropWhile_blank_append {before rest : List Char} (hbefore : AllBlank before)
    (hrest : ∀ c ∈ rest.head?, isBlank c = false) :
    (before ++ rest).dropWhile isBlank = rest := by
  induction before with
  | nil =>
    cases rest with
    | nil => rfl
    | cons c rest => exact List.dropWhile_cons_of_neg (by simp [hrest c rfl])
  | cons c before ih =>
    rw [List.cons_append, List.dropWhile_cons_of_pos (hbefore c List.mem_cons_self)]
    exact ih fun d hd => hbefore d (List.mem_cons_of_mem c hd)

/-- Trimming takes off blank ends, and no more if no blank character is left. -/
theorem trim_append {before word after : List Char} (hbefore : AllBlank before)
    (hafter : AllBlank after) (hword : ∀ c ∈ word, isBlank c = false) :
    trim (before ++ word ++ after) = word := by
  by_cases hnil : word = []
  · have hblank : AllBlank (before ++ after) := by
      intro c hc
      rcases List.mem_append.1 hc with hc | hc
      · exact hbefore c hc
      · exact hafter c hc
    have hdrop : (before ++ after ++ []).dropWhile isBlank = [] :=
      dropWhile_blank_append hblank nofun
    rw [List.append_nil] at hdrop
    rw [hnil, List.append_nil, trim, hdrop]
    rfl
  · have hhead : ∀ c ∈ (word ++ after).head?, isBlank c = false := by
      intro c hc
      rw [List.head?_append, List.head?_eq_some_head hnil, Option.some_or] at hc
      obtain rfl := Option.some.inj hc
      exact hword _ (List.head_mem hnil)
    have hlast : ∀ c ∈ word.reverse.head?, isBlank c = false := fun c hc =>
      hword c (List.mem_reverse.1 (List.mem_of_mem_head? hc))
    have hblank : AllBlank after.reverse := fun c hc => hafter c (List.mem_reverse.1 hc)
    rw [trim, List.append_assoc, dropWhile_blank_append hbefore hhead, List.reverse_append,
      dropWhile_blank_append hblank hlast, List.reverse_reverse]

/-- The lower case of a character is blank only if the character is. -/
theorem toLower_of_isBlank (hc : isBlank c = true) : c.toLower = c := by
  refine dif_neg fun h => ?_
  simp only [isBlank, Bool.or_eq_true, Bool.and_eq_true, decide_eq_true_eq, beq_iff_eq,
    UInt32.le_iff_toNat_le, ← UInt32.toNat_inj, UInt32.reduceToNat] at hc
  have hge : 65 ≤ c.val.toNat := UInt32.le_iff_toNat_le.1 h.1
  have hle : c.val.toNat ≤ 90 := UInt32.le_iff_toNat_le.1 h.2
  omega

end Text

/-! ## Truth values -/

namespace ServerSettings

open Text (IsDecimal AllBlank isBlank)

/-- The words for a truth value. -/
def flagWords : Bool → List String
  | true => ["1", "true", "yes", "on"]
  | false => ["0", "false", "no", "off"]

/-- A word for a truth value in any case, with blanks before and after it. -/
def IsFlag (text : String) (value : Bool) : Prop :=
  ∃ before word after, text.toList = before ++ word ++ after ∧
    AllBlank before ∧ AllBlank after ∧ String.ofList (Text.lower word) ∈ flagWords value

theorem not_isBlank_of_mem_flagWords {value : Bool} {word : List Char}
    (hword : String.ofList (Text.lower word) ∈ flagWords value) {c : Char} (hc : c ∈ word) :
    isBlank c = false := by
  by_contra hblank
  rw [Bool.not_eq_false] at hblank
  have hmem : c ∈ Text.lower word := by
    have := List.mem_map_of_mem (f := Char.toLower) hc
    rwa [Text.toLower_of_isBlank hblank] at this
  have hletters : ∀ value, ((flagWords value).all fun w => w.toList.all (!isBlank ·)) = true := by
    decide
  have hall := List.all_eq_true.1 (hletters value) _ hword
  have hc := List.all_eq_true.1 hall c (by simpa using hmem)
  simp [hblank] at hc

theorem flagWord?_eq_some_iff {text : String} {value : Bool} :
    flagWord? text = some value ↔ IsFlag text value := by
  have hword : flagWord? text = some value ↔
      String.ofList (Text.lower (Text.trim text.toList)) ∈ flagWords value := by
    unfold flagWord?
    generalize String.ofList (Text.lower (Text.trim text.toList)) = word
    cases value <;> split <;> simp_all [flagWords]
  rw [hword]
  constructor
  · intro h
    obtain ⟨before, after, heq, hbefore, hafter⟩ := Text.exists_of_trim text.toList
    exact ⟨before, _, after, heq, hbefore, hafter, h⟩
  · rintro ⟨before, word, after, heq, hbefore, hafter, h⟩
    have hinner : ∀ c ∈ word, isBlank c = false := fun c => not_isBlank_of_mem_flagWords h
    rw [heq, Text.trim_append hbefore hafter hinner]
    exact h

/-! ## The settings -/

/-- What becomes of a setting: it is what is given, and stays what it was if nothing is. -/
def Settled {α : Type} (given : α → Prop) (old new : α) : Prop :=
  (∀ a, given a → new = a) ∧ ((∀ a, ¬ given a) → new = old)

namespace Settled

variable {α : Type} {given : α → Prop} {old new new' : α}

theorem unique (h : Settled given old new) (h' : Settled given old new') : new = new' := by
  by_cases hgiven : ∃ a, given a
  · obtain ⟨a, ha⟩ := hgiven
    rw [h.1 a ha, h'.1 a ha]
  · have hnone : ∀ a, ¬ given a := not_exists.1 hgiven
    rw [h.2 hnone, h'.2 hnone]

theorem again (h : Settled given old new) : Settled given new new :=
  ⟨h.1, fun _ => rfl⟩

/-- What is given is what is found, if anything is found. -/
theorem getD {found : Option α} (hgiven : ∀ a, given a ↔ found = some a) (old : α) :
    Settled given old (found.getD old) := by
  refine ⟨fun a ha => ?_, fun hnone => ?_⟩
  · rw [(hgiven a).1 ha, Option.getD_some]
  · have hfound : found = none := by
      by_contra h
      obtain ⟨a, ha⟩ := Option.ne_none_iff_exists'.1 h
      exact hnone a ((hgiven a).2 ha)
    rw [hfound, Option.getD_none]

end Settled

variable (e : Environment) (name : String)

/-- A variable gives a decimal number that is not too large. -/
def GivesNumber (limit n : Nat) : Prop :=
  ∃ text, e name = some text ∧ IsDecimal text.toList n ∧ n ≤ limit

def GivesFlag (value : Bool) : Prop :=
  ∃ text, e name = some text ∧ IsFlag text value

/-- A variable gives a name, as it stands, unless it has nothing but blanks. -/
def GivesName (value : Option String) : Prop :=
  ∃ text, e name = some text ∧ (∃ c ∈ text.toList, isBlank c = false) ∧ value = some text

variable {e name}

theorem settled_number (limit old : Nat) :
    Settled (GivesNumber e name limit) old
      (((e name).bind fun text => Text.natural limit text.toList).getD old) := by
  apply Settled.getD
  intro n
  simp only [GivesNumber, Option.bind_eq_some_iff, Text.natural_eq_some_iff]

theorem settled_flag (old : Bool) :
    Settled (GivesFlag e name) old (((e name).bind flagWord?).getD old) := by
  apply Settled.getD
  intro value
  simp only [GivesFlag, Option.bind_eq_some_iff, flagWord?_eq_some_iff]

theorem configuredName?_eq_some_iff {text value : String} :
    configuredName? text = some value ↔ (∃ c ∈ text.toList, isBlank c = false) ∧ text = value := by
  have hink : Text.hasInk text = true ↔ ∃ c ∈ text.toList, isBlank c = false := by
    simp [Text.hasInk]
  rw [configuredName?, Option.ite_none_right_eq_some, Option.some.injEq, hink]

theorem settled_name (old : Option String) :
    Settled (GivesName e name) old (((e name).bind configuredName?).or old) := by
  have hor (found : Option String) : found.or old = (found.map some).getD old := by
    cases found <;> rfl
  rw [hor]
  apply Settled.getD
  intro value
  simp only [GivesName, Option.map_eq_some_iff, Option.bind_eq_some_iff,
    configuredName?_eq_some_iff]
  constructor
  · rintro ⟨text, htext, hink, rfl⟩
    exact ⟨text, ⟨text, htext, hink, rfl⟩, rfl⟩
  · rintro ⟨text, ⟨_, htext, hink, rfl⟩, rfl⟩
    exact ⟨_, htext, hink, rfl⟩

/-- Settings after the environment has overridden what it can. -/
structure Overridden (e : Environment) (s s' : ServerSettings) : Prop where
  bindPort :
    Settled (GivesNumber e "CASTGATE_BIND_PORT" (2 ^ 16 - 1)) s.bindPort s'.bindPort
  autoAccept : Settled (GivesFlag e "CASTGATE_AUTO_ACCEPT") s.autoAccept s'.autoAccept
  friendlyName : Settled (GivesName e "CASTGATE_FRIENDLY_NAME") s.friendlyName s'.friendlyName
  connectionAcceptTimeout :
    Settled (GivesNumber e "CASTGATE_CONNECTION_ACCEPT_TIMEOUT_MS" (2 ^ 64 - 1))
      s.connectionAcceptTimeout s'.connectionAcceptTimeout
  enableOnStart : s'.enableOnStart = s.enableOnStart
  radioConnectTimeout : s'.radioConnectTimeout = s.radioConnectTimeout
  friendlyNameRetryInterval : s'.friendlyNameRetryInterval = s.friendlyNameRetryInterval

variable {s s' s'' : ServerSettings}

theorem Overridden.unique (h : Overridden e s s') (h' : Overridden e s s'') : s' = s'' := by
  cases s'
  cases s''
  simp only [mk.injEq]
  exact ⟨h.bindPort.unique h'.bindPort, h.autoAccept.unique h'.autoAccept,
    h.enableOnStart.trans h'.enableOnStart.symm, h.friendlyName.unique h'.friendlyName,
    h.connectionAcceptTimeout.unique h'.connectionAcceptTimeout,
    h.radioConnectTimeout.trans h'.radioConnectTimeout.symm,
    h.friendlyNameRetryInterval.trans h'.friendlyNameRetryInterval.symm⟩

theorem Overridden.again (h : Overridden e s s') : Overridden e s' s' :=
  ⟨h.bindPort.again, h.autoAccept.again, h.friendlyName.again, h.connectionAcceptTimeout.again,
    rfl, rfl, rfl⟩

theorem overridden_override (e : Environment) (s : ServerSettings) :
    Overridden e s (s.override e) where
  bindPort := settled_number limit16 s.bindPort
  autoAccept := settled_flag s.autoAccept
  friendlyName := settled_name s.friendlyName
  connectionAcceptTimeout := settled_number limit64 s.connectionAcceptTimeout
  enableOnStart := rfl
  radioConnectTimeout := rfl
  friendlyNameRetryInterval := rfl

/-- The room of the channel cannot be set here, so only the times matter. -/
theorem isValid_toSettings_iff (s : ServerSettings) :
    s.toSettings.isValid = true ↔ s.connectionAcceptTimeout ≠ 0 ∧ s.radioConnectTimeout ≠ 0 ∧
      s.friendlyNameRetryInterval ≠ 0 := by
  simp only [Settings.isValid, Settings.objection?, toSettings]
  by_cases hconnection : s.connectionAcceptTimeout = 0 <;>
    by_cases hradio : s.radioConnectTimeout = 0 <;>
      by_cases hname : s.friendlyNameRetryInterval = 0 <;> simp [hconnection, hradio, hname]

/-- The environment overrides a setting exactly if the name of the setting gives a value by the
rule of that setting; what it does not override stays as it was. Doing this a second time changes
nothing, and the settings that come out are fit for the receiver unless a time is zero. -/
theorem environment_overrides_exactly (s : ServerSettings) (e : Environment) :
    (∀ s', s.override e = s' ↔ Overridden e s s') ∧
      (s.override e).override e = s.override e ∧
      ((s.override e).toSettings.isValid = true ↔
        (s.override e).connectionAcceptTimeout ≠ 0 ∧ (s.override e).radioConnectTimeout ≠ 0 ∧
          (s.override e).friendlyNameRetryInterval ≠ 0) := by
  have hoverridden := overridden_override e s
  refine ⟨fun s' => ⟨?_, hoverridden.unique⟩, ?_, isValid_toSettings_iff _⟩
  · rintro rfl
    exact hoverridden
  · exact (overridden_override e (s.override e)).unique hoverridden.again

/-- Numbers up to the limit are taken, with a sign and zeros in front; one more is too much. -/
example :
    Text.natural limit16 "+0065535".toList = some 65535 ∧
      Text.natural limit16 "65536".toList = none ∧ Text.natural limit16 " 1".toList = none ∧
      flagWord? "\tOn " = some true ∧ flagWord? "o n" = none := by
  decide

end ServerSettings

end CastReceiver
