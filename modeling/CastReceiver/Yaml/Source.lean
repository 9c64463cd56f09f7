/-!
# Text with positions

A document is read as characters that know where they stand, because its structure depends on
columns and lines. Line breaks are unified first; two breaks that are characters of Unicode alone
stay what they are.
-/
namespace CastReceiver.Yaml

/-- A character and where it stands, all counted from zero. -/
structure Mark where
  char : Char
  line : Nat
  column : Nat
  /-- How many octets come before. -/
  offset : Nat

abbrev Source := List Mark

/-- The characters that a document may contain. -/
def isAllowed (c : Char) : Bool :=
  c = '\t' || c = '\n' || c = '\r' || (0x20 ≤ c.val && c.val ≤ 0x7E) || c.val == 0x85 ||
  (0xA0 ≤ c.val && c.val ≤ 0xFFFD) || 0x10000 ≤ c.val

def nextLine : Char := Char.ofNat 0x85

/-- The character that tells the order of octets. -/
def byteOrderMark : Char := Char.ofNat 0xFEFF

/-- A line break, as there are after unification. -/
def isBreak (c : Char) : Bool :=
  c = '\n' || c.val == 0x2028 || c.val == 0x2029

def isBlank (c : Char) : Bool :=
  c = ' ' || c = '\t'

/-- Blanks and breaks. -/
def isGap (c : Char) : Bool :=
  isBlank c || isBreak c

/-- A carriage return, with a line feed after it or not, and a next-line character are breaks. -/
def unifyBreaks : List Char → List Char
  | '\r' :: '\n' :: s => '\n' :: unifyBreaks s
  | c :: s => (if c = '\r' || c = nextLine then '\n' else c) :: unifyBreaks s
  | [] => []

def place (line column offset : Nat) : List Char → Source
  | [] => []
  | c :: s =>
    let after := offset + c.utf8Size
    ⟨c, line, column, offset⟩ ::
      if isBreak c then place (line + 1) 0 after s else place line (column + 1) after s

/-- The characters of a document, if all of them are allowed. -/
def source? (text : String) : Option Source :=
  if text.toList.all isAllowed then some (place 0 0 0 (unifyBreaks text.toList)) else none

namespace Source

def chars (s : Source) : List Char :=
  s.map Mark.char

/-- A blank, a break or the end comes first. -/
def atGap (s : Source) : Bool :=
  s.head?.all fun m => isGap m.char

/-- A break or the end comes first. -/
def atBreak (s : Source) : Bool :=
  s.head?.all fun m => isBreak m.char

def first? (s : Source) : Option Char :=
  s.head?.map Mark.char

def startsWith (s : Source) (word : List Char) : Bool :=
  chars (s.take word.length) == word

/-- A line starts here with a mark for the start or the end of a document. -/
def atDocumentMark (s : Source) : Bool :=
  s.head?.any (fun m => m.column = 0) &&
  (s.startsWith ['-', '-', '-'] || s.startsWith ['.', '.', '.']) &&
  atGap (s.drop 3)

/-- What comes after characters that have a property. -/
def skip (p : Char → Bool) (s : Source) : Source :=
  s.dropWhile fun m => p m.char

/-- Characters that have a property, and what comes after them. -/
def span (p : Char → Bool) (s : Source) : List Char × Source :=
  (chars (s.takeWhile fun m => p m.char), s.skip p)

/-- What comes after a byte order mark at the start of a line, if there is one. It keeps its
column. -/
def skipByteOrderMark (s : Source) : Source :=
  match s with
  | m :: rest => if m.column = 0 && m.char = byteOrderMark then rest else s
  | [] => []

/-- What comes after a comment, if there is one. -/
def skipComment (s : Source) : Source :=
  if s.first? = some '#' then s.skip fun c => !isBreak c else s

/-- What comes after the blanks and the comment at the end of a line. -/
def skipLineEnd (s : Source) : Source :=
  skipComment (s.skip isBlank)

end Source

/-! ## Gaps between words -/

/-- What stands between two words of a text: blanks on a line, or one or more breaks. A break that
is escaped leaves no trace of itself. -/
inductive Gap where
  | blanks (cs : List Char)
  | breaks (first : Option Char) (more : List Char)

namespace Gap

def none : Gap := .blanks []

def isNone : Gap → Bool
  | .blanks [] => true
  | _ => false

def isBreaks : Gap → Bool
  | .breaks .. => true
  | _ => false

/-- Blanks around breaks do not count. -/
def add (g : Gap) (c : Char) : Gap :=
  match g with
  | .blanks cs => if isBreak c then .breaks (some c) [] else .blanks (cs ++ [c])
  | .breaks first more => if isBreak c then .breaks first (more ++ [c]) else g

/-- A single break stands for a space, and each further one for itself. -/
def text : Gap → List Char
  | .blanks cs => cs
  | .breaks (some '\n') [] => [' ']
  | .breaks (some '\n') more => more
  | .breaks first more => first.toList ++ more

end Gap

end CastReceiver.Yaml
