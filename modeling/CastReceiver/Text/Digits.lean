/-!
# Numerals

Natural numbers written in the digits of a base up to sixteen, read and written. Reading takes
lower and upper case digits alike; writing uses lower case and no leading zero.
-/
namespace CastReceiver.Text

/-- The value of a digit, whatever the base. -/
def digitValue (c : Char) : Option Nat :=
  if '0' ≤ c ∧ c ≤ '9' then some (c.toNat - '0'.toNat)
  else if 'a' ≤ c ∧ c ≤ 'f' then some (c.toNat - 'a'.toNat + 10)
  else if 'A' ≤ c ∧ c ≤ 'F' then some (c.toNat - 'A'.toNat + 10)
  else none

/-- `c` is a digit of `base`. -/
def isDigit (base : Nat) (c : Char) : Bool :=
  (digitValue c).any (· < base)

/-- The number that digits stand for after those that stand for `n`. -/
def numeralFrom (base n : Nat) : List Char → Option Nat
  | [] => some n
  | c :: cs => match digitValue c with
    | some d => if d < base then numeralFrom base (n * base + d) cs else none
    | none => none

/-- The number that one or more digits stand for. -/
def numeral (base : Nat) (cs : List Char) : Option Nat :=
  if cs.isEmpty then none else numeralFrom base 0 cs

/-- A decimal number of at most `limit`; one plus sign may stand in front. -/
def natural (limit : Nat) (cs : List Char) : Option Nat :=
  let digits := match cs with
    | '+' :: rest => rest
    | _ => cs
  (numeral 10 digits).filter (· ≤ limit)

/-- The digits of a number, most significant first. -/
def digits (base n : Nat) : List Char :=
  Nat.toDigits base n

/-- A number in decimal. -/
def decimal (n : Nat) : String :=
  String.ofList (digits 10 n)

end CastReceiver.Text
