import CastReceiver.Text.Digits

/-!
# Scalars

A scalar is a text, and how it is written says what else it may stand for: only a plain scalar is a
number, a truth value or nothing, unless a block says by its tag that it is one.
-/
namespace CastReceiver.Yaml

inductive Style where
  | plain
  | singleQuoted
  | doubleQuoted
  | literal
  | folded
  deriving DecidableEq

structure Scalar where
  text : String
  style : Style := .plain
  /-- The full name of the type that is stated for the scalar. -/
  tag : Option String := none
  deriving DecidableEq

/-- The full name of one of the common types. -/
def commonTag (name : String) : String :=
  "tag:yaml.org,2002:" ++ name

/-- The rest of a text that starts with a word. -/
def after? (word cs : List Char) : Option (List Char) :=
  if word.isPrefixOf cs then some (cs.drop word.length) else none

/-- The words for truth values. -/
def flagWord? : String → Option Bool
  | "true" | "True" | "TRUE" => some true
  | "false" | "False" | "FALSE" => some false
  | _ => none

/-- A text of digits that starts with a zero is no decimal number, a single zero apart. -/
def hasLeadingZero : List Char → Bool
  | '0' :: c :: cs => (c :: cs).all (Text.isDigit 10)
  | _ => false

/-- The bases of numbers by what stands before their digits. -/
def bases : List (List Char × Nat) :=
  [(['0', 'x'], 16), (['0', 'o'], 8), (['0', 'b'], 2)]

/-- The digits of a number after its plus sign. -/
def unsigned? (cs : List Char) : Option Nat :=
  match bases.findSome? fun (word, base) => (after? word cs).bind (Text.numeral base) with
  | some n => some n
  | none => if hasLeadingZero cs then none else Text.numeral 10 cs

/-- A number of at most `limit`; one plus sign may stand in front. -/
def natural? (limit : Nat) (text : String) : Option Nat :=
  let digits := match text.toList with
    | '+' :: cs => cs
    | cs => cs
  (unsigned? digits).filter (· ≤ limit)

/-- The words for nothing. -/
def isNullWord (text : String) : Bool :=
  ["null", "Null", "NULL", "~"].contains text

namespace Scalar

/-- Nothing is written at all. -/
def isEmpty (s : Scalar) : Bool :=
  s.style = .plain && s.text = ""

/-- The scalar may stand for a value of a common type. -/
def mayBe (name : String) (s : Scalar) : Bool :=
  s.style = .plain || (s.style = .literal && s.tag = some (commonTag name))

def flag? (s : Scalar) : Option Bool :=
  if s.mayBe "bool" then flagWord? s.text else none

def natural? (limit : Nat) (s : Scalar) : Option Nat :=
  if s.mayBe "int" then Yaml.natural? limit s.text else none

/-- The text of a scalar, or nothing if it stands for that. A scalar that is said to be nothing has
to be a word for it. -/
def optionalText? (s : Scalar) : Option (Option String) :=
  if s.style ≠ .plain then some (some s.text)
  else match s.tag with
    | none => some (if s.text = "" || isNullWord s.text then none else some s.text)
    | some tag =>
      if tag ≠ commonTag "null" then some (some s.text)
      else if isNullWord s.text then some none else none

end Scalar

end CastReceiver.Yaml
