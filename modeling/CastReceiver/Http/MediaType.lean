import CastReceiver.Text.LetterCase
import CastReceiver.Text.Split

/-!
# Media types

The type of the content of a message, such as `application/json; charset=utf-8`: a type, a slash
and a subtype, after which parameters may follow. Names are tokens, in which the case of letters
does not matter; the value of a parameter is a token or a quoted text.
-/
namespace CastReceiver.Http

/-- The characters of tokens. -/
def isTokenChar (c : Char) : Bool :=
  c.isAlphanum || "!#$%&'*+-.^_`|~".toList.contains c

/-- The characters that a quoted text is made of. -/
def isQuotable (c : Char) : Bool :=
  0x20 ≤ c.toNat && c.toNat ≤ 0x7E

/-- What follows the closing quote of a quoted text. The text is not empty, so a quote that comes
first belongs to it; a backslash is a character like any other. -/
def afterQuoted? : List Char → Option (List Char)
  | [] => none
  | c :: s =>
    match s.dropWhile fun c => isQuotable c && c ≠ '"' with
    | '"' :: rest => if isQuotable c then some rest else none
    | _ => none

/-- What follows the value of a parameter, up to the semicolon before the next one. -/
def afterValue? : List Char → Option (List Char)
  | '"' :: s => do
    match (← afterQuoted? s).dropWhile (· = ' ') with
    | [] => some []
    | c :: s => if c = ';' then some s else none
  | s =>
    match s.dropWhile isTokenChar with
    | [] => some []
    | c :: rest => if c = ';' && s.head? != some ';' then some rest else none

/-- What follows the name of a parameter and its equals sign. -/
def afterName? (s : List Char) : Option (List Char) :=
  match s.dropWhile isTokenChar with
  | '=' :: rest => if s.head? = some '=' then none else some rest
  | _ => none

/-- A list of parameters is well formed. Each takes two characters at least, so the length of the
text bounds their number. -/
def areParameters : Nat → List Char → Bool
  | 0, _ => false
  | fuel + 1, s =>
    match s.dropWhile (· = ' ') with
    | [] => true
    | s => ((afterName? s).bind afterValue?).any (areParameters fuel)

/-- The format that a subtype names: what stands after its last plus sign, unless the sign is its
first character, or else all of it. -/
def formatsOf (subtype : List Char) : List (List Char) :=
  match subtype with
  | [] => []
  | c :: rest =>
    match (Text.split '+' rest).reverse with
    | suffix :: first :: others =>
      [c :: Text.join '+' (first :: others).reverse, suffix]
    | _ => [subtype]

/-- A media type stands for JSON. -/
def isJsonType (s : String) : Bool :=
  let (type, rest) := s.toList.span isTokenChar
  match rest with
  | '/' :: rest =>
    let (subtype, rest) := rest.span isTokenChar
    let endsWell := match rest with
      | [] => true
      | c :: rest => c = ';' && !subtype.isEmpty && areParameters (rest.length + 1) rest
    endsWell && Text.lower type == "application".toList &&
      (formatsOf subtype).any fun f => Text.lower f == "json".toList
  | _ => false

end CastReceiver.Http
