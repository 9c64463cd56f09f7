import CastReceiver.Json.Basic
import CastReceiver.Text.Digits

/-!
# Writing JSON

The written form has no blanks. A quote, a backslash and the control characters are escaped, by
their short escapes where there are such; every other character stands for itself.
-/
namespace CastReceiver.Json

/-- The four digits of an escape `\u`. -/
def hex4 (n : Nat) : List Char :=
  let ds := Text.digits 16 n
  List.replicate (4 - ds.length) '0' ++ ds

/-- One character inside quotes. -/
def escape (c : Char) : List Char :=
  if c = '"' then ['\\', '"']
  else if c = '\\' then ['\\', '\\']
  else if c = '\n' then ['\\', 'n']
  else if c = '\r' then ['\\', 'r']
  else if c = '\t' then ['\\', 't']
  else if c.toNat = 8 then ['\\', 'b']
  else if c.toNat = 12 then ['\\', 'f']
  else if c.toNat < 0x20 then '\\' :: 'u' :: hex4 c.toNat
  else [c]

def quoted (s : String) : List Char :=
  '"' :: s.toList.flatMap escape ++ ['"']

def signed (n : Int) : List Char :=
  if n < 0 then '-' :: Text.digits 10 n.natAbs else Text.digits 10 n.natAbs

mutual

/-- The written form of a value. -/
def render : Json → List Char
  | .null => ['n', 'u', 'l', 'l']
  | .bool true => ['t', 'r', 'u', 'e']
  | .bool false => ['f', 'a', 'l', 's', 'e']
  | .integer n => signed n
  | .real m e => signed m ++ 'e' :: signed e
  | .string s => quoted s
  | .array items => '[' :: renderItems items
  | .object members => '{' :: renderMembers members

/-- The rest of an array whose next element is the first of a list, up to its bracket. -/
def renderItems : List Json → List Char
  | [] => [']']
  | [j] => render j ++ [']']
  | j :: items => render j ++ ',' :: renderItems items

def renderMembers : List (String × Json) → List Char
  | [] => ['}']
  | [(name, j)] => quoted name ++ ':' :: render j ++ ['}']
  | (name, j) :: members => quoted name ++ ':' :: render j ++ ',' :: renderMembers members

end

def text (j : Json) : String :=
  String.ofList (render j)

end CastReceiver.Json
