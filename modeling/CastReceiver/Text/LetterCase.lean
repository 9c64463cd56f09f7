/-!
# Letter case

Case is that of the 26 ASCII letters; every other character is its own lower case.
-/
namespace CastReceiver.Text

def lower (cs : List Char) : List Char :=
  cs.map Char.toLower

/-- A letter in lower case stays as it is. -/
theorem toLower_toLower (c : Char) : c.toLower.toLower = c.toLower := by
  by_cases h : c.val ≥ 'A'.val ∧ c.val ≤ 'Z'.val
  · have hval : c.toLower.val = c.val + 32 := congrArg Char.val (dif_pos h)
    refine dif_neg fun h' => ?_
    rw [hval] at h'
    have hle : c.val.toNat ≤ 90 := UInt32.le_iff_toNat_le.1 h.2
    have hge : 65 ≤ c.val.toNat := UInt32.le_iff_toNat_le.1 h.1
    have hle' : (c.val + 32).toNat ≤ 90 := UInt32.le_iff_toNat_le.1 h'.2
    rw [UInt32.toNat_add, Nat.mod_eq_of_lt] at hle'
    · change c.val.toNat + 32 ≤ 90 at hle'
      omega
    · show c.val.toNat + 32 < _
      omega
  · have hsame : c.toLower = c := dif_neg h
    rw [hsame, hsame]

theorem lower_lower (cs : List Char) : lower (lower cs) = lower cs := by
  simp only [lower, List.map_map, Function.comp_def, toLower_toLower]

/-- Two texts are the same but for the case of ASCII letters. -/
def sameLetters (a b : String) : Bool :=
  lower a.toList == lower b.toList

theorem sameLetters_iff {a b : String} :
    sameLetters a b = true ↔ lower a.toList = lower b.toList := by
  simp [sameLetters]

@[simp] theorem sameLetters_refl (a : String) : sameLetters a a = true := by
  simp [sameLetters]

theorem sameLetters_comm (a b : String) : sameLetters a b = sameLetters b a := by
  simp only [sameLetters, Bool.beq_comm]

theorem sameLetters_trans {a b c : String} (h : sameLetters a b = true)
    (h' : sameLetters b c = true) : sameLetters a c = true := by
  rw [sameLetters_iff] at *
  exact h.trans h'

end CastReceiver.Text
