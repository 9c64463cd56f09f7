import CastReceiver.Json.Basic
import CastReceiver.Text.Digits

/-!
# Reading JSON

Values are read from the front of a text, with a bound on how deep containers may nest. A value
that nobody asked for may be `skimmed` instead of `exact`: then escapes of halves of surrogate
pairs and numbers too large for a binary floating-point number of 64 bits pass unnoticed.
-/
namespace CastReceiver.Json

inductive Care where
  /-- Every value is understood. -/
  | exact
  /-- Only the shape of the text is checked. -/
  | skimmed
  deriving DecidableEq

/-- Containers may nest this deep. -/
def maxDepth : Nat := 127

def isSpace (c : Char) : Bool :=
  c = ' ' || c = '\n' || c = '\t' || c = '\r'

def skipSpace (s : List Char) : List Char :=
  s.dropWhile isSpace

/-- The rest of a text that starts with `word`. -/
def afterWord? : List Char → List Char → Option (List Char)
  | [], s => some s
  | w :: word, c :: s => if w = c then afterWord? word s else none
  | _ :: _, [] => none

/-! ## Strings -/

def shortEscape : Char → Option Char
  | '"' => some '"'
  | '\\' => some '\\'
  | '/' => some '/'
  | 'b' => some (Char.ofNat 8)
  | 'f' => some (Char.ofNat 12)
  | 'n' => some '\n'
  | 'r' => some '\r'
  | 't' => some '\t'
  | _ => none

/-- The number that the four digits of an escape `\u` stand for. -/
def codeUnit (a b c d : Char) : Option Nat :=
  Text.numeral 16 [a, b, c, d]

/-- The character of a pair of surrogates. -/
def surrogatePair (high low : Nat) : Char :=
  Char.ofNat (0x10000 + (high - 0xD800) * 0x400 + (low - 0xDC00))

def isHighSurrogate (u : Nat) : Bool := 0xD800 ≤ u && u < 0xDC00

def isLowSurrogate (u : Nat) : Bool := 0xDC00 ≤ u && u < 0xE000

/-- The rest of a string whose quote is open, and the text after its closing quote. -/
def stringRest (care : Care) : List Char → Option (List Char × List Char)
  | [] => none
  | c :: s =>
    if c = '"' then some ([], s)
    else if c = '\\' then
      match s with
      | 'u' :: a :: b :: c :: d :: s => do
        let u ← codeUnit a b c d
        if care = .skimmed || !(isHighSurrogate u || isLowSurrogate u) then
          let (cs, rest) ← stringRest care s
          some (Char.ofNat u :: cs, rest)
        else if isLowSurrogate u then none
        else match s with
          | '\\' :: 'u' :: e :: f :: g :: h :: s => do
            let v ← codeUnit e f g h
            if isLowSurrogate v then
              let (cs, rest) ← stringRest care s
              some (surrogatePair u v :: cs, rest)
            else none
          | _ => none
      | e :: s => do
        let c ← shortEscape e
        let (cs, rest) ← stringRest care s
        some (c :: cs, rest)
      | [] => none
    else if c.toNat < 0x20 then none
    else do
      let (cs, rest) ← stringRest care s
      some (c :: cs, rest)

/-! ## Numbers -/

/-- Adds decimal digits to a number while it fits 64 bits, and counts the digits from the first
that no longer does. -/
def significand : Nat → List Char → Nat × Nat
  | n, [] => (n, 0)
  | n, c :: cs =>
    let m := n * 10 + (c.toNat - '0'.toNat)
    if m ≤ limit64 then significand m cs else (n, (c :: cs).length)

/-- The nearest number of 53 significant binary digits, a tie going to the even one. -/
def roundTo53 (n : Nat) : Nat :=
  if n < Nat.pow 2 53 then n
  else
    let shift := n.log2 - 52
    let q := n >>> shift
    let r := n - (q <<< shift)
    let half := Nat.pow 2 (shift - 1)
    (if r > half || (r == half && q % 2 == 1) then q + 1 else q) <<< shift

/-- The product of a number and a power of ten stays below the largest floating-point number of
64 bits when both are rounded first. -/
def fitsDouble (n : Nat) (exponent : Int) : Bool :=
  if n = 0 || exponent ≤ 0 then true
  else if exponent > 308 then false
  else roundTo53 n * roundTo53 (Nat.pow 10 exponent.toNat) < Nat.pow 2 1024 - Nat.pow 2 970

/-- The parts of a number as it is written. -/
structure Numeral where
  negative : Bool
  whole : List Char
  fraction : List Char
  exponent : Option (Bool × List Char)

def isDecimal (c : Char) : Bool := '0' ≤ c && c ≤ '9'

/-- The value of decimal digits. -/
def digitsValue (cs : List Char) : Nat :=
  cs.foldl (fun n c => n * 10 + (c.toNat - '0'.toNat)) 0

namespace Numeral

/-- The significant digits and the power of ten that they are multiplied by, exponent apart. -/
def scaled (n : Numeral) : Nat × Int :=
  let (w, dropped) := significand 0 n.whole
  let (m, unused) := significand w n.fraction
  (m, (dropped : Int) - (n.fraction.length - unused : Nat))

/-- The number can be held as a floating-point number of 64 bits. -/
def inRange (n : Numeral) : Bool :=
  let (m, scale) := n.scaled
  match n.exponent with
  | none => fitsDouble m scale
  | some (true, ds) =>
    let e := digitsValue ds
    m = 0 || (e ≤ Nat.pow 2 31 - 1 && fitsDouble m (scale + e))
  | some (false, ds) =>
    let e := digitsValue ds
    e > Nat.pow 2 31 - 1 || fitsDouble m (scale - e)

/-- A number written as a whole number of 64 bits is that integer; a zero with a minus sign, like
all others, is not. -/
def toJson (n : Numeral) : Json :=
  let m := digitsValue (n.whole ++ n.fraction)
  let signedM : Int := if n.negative then -m else m
  match n.exponent with
  | none =>
    if n.fraction.isEmpty && (if n.negative then 0 < m && m ≤ Nat.pow 2 63 else m ≤ limit64) then
      .integer signedM
    else .real signedM (-n.fraction.length)
  | some (up, ds) =>
    let e : Int := digitsValue ds
    .real signedM ((if up then e else -e) - n.fraction.length)

end Numeral

/-- One or more digits from the front of a text. -/
def someDigits (s : List Char) : Option (List Char × List Char) :=
  let ds := s.takeWhile isDecimal
  if ds.isEmpty then none else some (ds, s.dropWhile isDecimal)

/-- The digits before a point: a zero, or digits that do not start with one. -/
def wholeDigits : List Char → Option (List Char × List Char)
  | '0' :: s => if (s.head?.any isDecimal) then none else some (['0'], s)
  | s => someDigits s

def fractionDigits : List Char → Option (List Char × List Char)
  | '.' :: s => someDigits s
  | s => some ([], s)

def exponentDigits : List Char → Option (Option (Bool × List Char) × List Char)
  | c :: s =>
    if c = 'e' || c = 'E' then
      match s with
      | '+' :: s => (someDigits s).map fun (ds, s) => (some (true, ds), s)
      | '-' :: s => (someDigits s).map fun (ds, s) => (some (false, ds), s)
      | s => (someDigits s).map fun (ds, s) => (some (true, ds), s)
    else some (none, c :: s)
  | [] => some (none, [])

def number (care : Care) (s : List Char) : Option (Json × List Char) := do
  let (negative, s) := match s with
    | '-' :: s => (true, s)
    | s => (false, s)
  let (whole, s) ← wholeDigits s
  let (fraction, s) ← fractionDigits s
  let (exponent, s) ← exponentDigits s
  let n : Numeral := ⟨negative, whole, fraction, exponent⟩
  if care = .exact && !n.inRange then none else some (n.toJson, s)

/-! ## Values -/

/-- A value that is not a container, from a text that starts with it. -/
def scalar (care : Care) (s : List Char) : Option (Json × List Char) :=
  match s with
  | 'n' :: s => (afterWord? ['u', 'l', 'l'] s).map (Json.null, ·)
  | 't' :: s => (afterWord? ['r', 'u', 'e'] s).map (Json.bool true, ·)
  | 'f' :: s => (afterWord? ['a', 'l', 's', 'e'] s).map (Json.bool false, ·)
  | '"' :: s => (stringRest care s).map fun (cs, rest) => (.string (String.ofList cs), rest)
  | c :: s => if c = '-' || isDecimal c then number care (c :: s) else none
  | [] => none

/-- One or more elements with commas between them, up to the bracket that closes them. -/
def elements (close : Char) (read : List Char → Option (α × List Char)) :
    Nat → List Char → Option (List α × List Char)
  | 0, _ => none
  | fuel + 1, s => do
    let (a, s) ← read s
    match skipSpace s with
    | ',' :: s =>
      let (as, rest) ← elements close read fuel s
      some (a :: as, rest)
    | c :: rest => if c = close then some ([a], rest) else none
    | [] => none

/-- What a container holds whose bracket is open. Each element takes a character at least, so the
length of the text bounds their number. -/
def contents (close : Char) (read : List Char → Option (α × List Char)) (s : List Char) :
    Option (List α × List Char) :=
  match skipSpace s with
  | c :: rest => if c = close then some ([], rest) else elements close read s.length s
  | [] => none

/-- The name of a member, from a text that has blanks before it at most. -/
def memberName (care : Care) (s : List Char) : Option (String × List Char) :=
  match skipSpace s with
  | '"' :: s => (stringRest care s).map fun (cs, rest) => (String.ofList cs, rest)
  | _ => none

/-- The text after the colon between the name and the value of a member. -/
def afterColon? (s : List Char) : Option (List Char) :=
  match skipSpace s with
  | ':' :: s => some s
  | _ => none

def member (care : Care) (read : List Char → Option (Json × List Char)) (s : List Char) :
    Option ((String × Json) × List Char) := do
  let (name, s) ← memberName care s
  let s ← afterColon? s
  let (j, s) ← read s
  some ((name, j), s)

/-- A value in which at most `depth` containers nest, from the front of a text. -/
def value (care : Care) (depth : Nat) (s : List Char) : Option (Json × List Char) :=
  match skipSpace s, depth with
  | '[' :: s, depth + 1 => (contents ']' (value care depth) s).map fun (js, s) => (.array js, s)
  | '{' :: s, depth + 1 =>
    (contents '}' (member care (value care depth)) s).map fun (ms, s) => (.object ms, s)
  | s, _ => scalar care s

/-- The value that a whole text stands for. -/
def parse (s : String) : Option Json := do
  let (j, rest) ← value .exact maxDepth s.toList
  if (skipSpace rest).isEmpty then some j else none

/-- The rest of a text after a value that nobody asked for, however deep it nests. -/
def skim (s : List Char) : Option (List Char) :=
  (value .skimmed s.length s).map (·.2)

end CastReceiver.Json
