/-!
# JSON values

A value as the messages and the settings see it. Numbers that are written as whole numbers of 64
bits are exact; every other number is a `real`, whose value no message uses. Members keep the
order in which they were written, and a name may occur more than once.
-/
namespace CastReceiver

inductive Json where
  | null
  | bool (value : Bool)
  | integer (value : Int)
  | real (mantissa exponent : Int)
  | string (value : String)
  | array (items : List Json)
  | object (members : List (String × Json))
  deriving Inhabited

namespace Json

def natural (n : Nat) : Json := .integer n

/-- The value of an optional field: absent values are `null`. -/
def orNull (encode : α → Json) : Option α → Json
  | some a => encode a
  | none => .null

/-- The values of all members called `name`, in the order of the members. -/
def valuesOf (name : String) (members : List (String × Json)) : List Json :=
  members.filterMap fun (n, v) => if n = name then some v else none

/-- The first member of an object called `name`. -/
def get? (j : Json) (name : String) : Option Json :=
  match j with
  | .object members => members.lookup name
  | _ => none

def asString? : Json → Option String
  | .string s => some s
  | _ => none

def asBool? : Json → Option Bool
  | .bool b => some b
  | _ => none

/-- A whole number from zero to `limit`. -/
def asNatural? (limit : Nat) : Json → Option Nat
  | .integer n => if 0 ≤ n ∧ n ≤ limit then some n.toNat else none
  | _ => none

def asArray? : Json → Option (List Json)
  | .array items => some items
  | _ => none

end Json

/-- The largest number of 16 bits. -/
def limit16 : Nat := UInt16.size - 1

/-- The largest number of 32 bits. -/
def limit32 : Nat := UInt32.size - 1

/-- The largest number of 64 bits. -/
def limit64 : Nat := UInt64.size - 1

end CastReceiver
