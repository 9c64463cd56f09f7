import CastReceiver.Text.Digits
import CastReceiver.Yaml.Source

/-!
# Texts in documents

A text is written between quotes, plainly, or as a block of lines after a header. Each function
here reads one from the front of a source and gives what comes after it.
-/
namespace CastReceiver.Yaml

/-! ## Quoted texts -/

def namedEscape : Char → Option Char
  | '0' => some (Char.ofNat 0)
  | 'a' => some (Char.ofNat 0x07)
  | 'b' => some (Char.ofNat 0x08)
  | 't' | '\t' => some '\t'
  | 'n' => some '\n'
  | 'v' => some (Char.ofNat 0x0B)
  | 'f' => some (Char.ofNat 0x0C)
  | 'r' => some '\r'
  | 'e' => some (Char.ofNat 0x1B)
  | ' ' => some ' '
  | '"' => some '"'
  | '/' => some '/'
  | '\\' => some '\\'
  | 'N' => some nextLine
  | '_' => some (Char.ofNat 0xA0)
  | 'L' => some (Char.ofNat 0x2028)
  | 'P' => some (Char.ofNat 0x2029)
  | _ => none

/-- How many digits an escape by number has. -/
def escapeLength : Char → Option Nat
  | 'x' => some 2
  | 'u' => some 4
  | 'U' => some 8
  | _ => none

/-- The character that follows a backslash by its meaning, and how much of the source it takes. -/
def escape? (s : Source) : Option (Char × Nat) :=
  match s with
  | [] => none
  | m :: s =>
    match escapeLength m.char with
    | some n =>
      let digits := s.take n
      if digits.length < n then none
      else do
        let code ← Text.numeral 16 (Source.chars digits)
        if h : code.isValidChar then some (Char.ofNatAux code h, n + 1) else none
    | none => (namedEscape m.char).map (·, 1)

/-- The rest of a text between apostrophes, after a gap. Two apostrophes stand for one. -/
def singleQuoted (g : Gap) : Source → Option (List Char × Source)
  | [] => none
  | m :: s =>
    if Source.atDocumentMark (m :: s) then none
    else if isGap m.char then singleQuoted (g.add m.char) s
    else if m.char = '\'' then
      match s with
      | n :: rest =>
        if n.char = '\'' then
          (singleQuoted .none rest).map fun (cs, rest) => (g.text ++ '\'' :: cs, rest)
        else some (g.text, s)
      | [] => some (g.text, [])
    else (singleQuoted .none s).map fun (cs, rest) => (g.text ++ m.char :: cs, rest)

/-- The rest of a text between quotes, after a gap. -/
def doubleQuoted (g : Gap) (s : Source) : Option (List Char × Source) :=
  match s with
  | [] => none
  | m :: s =>
    if Source.atDocumentMark (m :: s) then none
    else if isGap m.char then doubleQuoted (g.add m.char) s
    else if m.char = '"' then some (g.text, s)
    else if m.char = '\\' then
      if s.head?.any fun n => isBreak n.char then
        (doubleQuoted (.breaks none []) (s.drop 1)).map fun (cs, rest) =>
          (g.text ++ cs, rest)
      else do
        let (c, n) ← escape? s
        let (cs, rest) ← doubleQuoted .none (s.drop n)
        some (g.text ++ c :: cs, rest)
    else (doubleQuoted .none s).map fun (cs, rest) => (g.text ++ m.char :: cs, rest)
termination_by s.length
decreasing_by all_goals simp only [List.length_cons, List.length_drop]; omega

/-! ## Plain texts -/

def isFlowIndicator (c : Char) : Bool :=
  c = ',' || c = '[' || c = ']' || c = '{' || c = '}'

/-- A plain text ends here: before a colon that ends a word and, between brackets, before an
indicator. -/
def endsPlain (inFlow : Bool) (c : Char) (rest : Source) : Bool :=
  (c = ':' && rest.atGap) || (inFlow && isFlowIndicator c)

/-- Between brackets, no colon may stand right before an indicator. -/
def colonMisplaced (inFlow : Bool) (c : Char) (rest : Source) : Bool :=
  inFlow && c = ':' && rest.head?.any fun m => isFlowIndicator m.char || m.char = '?'

/-- The rest of a plain text after a gap: what belongs to it, the gap after it, and what comes
after that. Outside of brackets it goes on only in lines that are indented up to a margin. -/
def plain (inFlow : Bool) (margin : Nat) (g : Gap) : Source → Option (List Char × Gap × Source)
  | [] => some ([], g, [])
  | m :: s =>
    if isGap m.char then
      if m.char = '\t' && g.isBreaks && m.column < margin then none
      else plain inFlow margin (g.add m.char) s
    else if Source.atDocumentMark (m :: s) || (m.char = '#' && !g.isNone) ||
        (!inFlow && g.isBreaks && m.column < margin) then some ([], g, m :: s)
    else if colonMisplaced inFlow m.char s then none
    else if endsPlain inFlow m.char s then some ([], g, m :: s)
    else (plain inFlow margin .none s).map fun (cs, after, rest) =>
      (g.text ++ m.char :: cs, after, rest)

/-! ## Blocks of lines -/

/-- What becomes of the breaks at the end of a block. -/
inductive Chomping where
  /-- All of them are dropped. -/
  | strip
  /-- The first of them is kept. -/
  | clip
  /-- All of them are kept. -/
  | keep
  deriving DecidableEq

/-- The header of a block: what becomes of its last breaks, and by how much it is indented, if that
is said. -/
structure BlockHeader where
  chomping : Chomping := .clip
  indent : Option Nat := none

namespace BlockHeader

def chomping? (s : Source) : Option (Chomping × Source) :=
  match s with
  | m :: s =>
    if m.char = '+' then some (.keep, s)
    else if m.char = '-' then some (.strip, s)
    else none
  | [] => none

def indent? (s : Source) : Option (Nat × Source) :=
  match s with
  | m :: s =>
    if '0' ≤ m.char ∧ m.char ≤ '9' then some (m.char.toNat - '0'.toNat, s) else none
  | [] => none

/-- The two parts of a header come in any order. -/
def read (s : Source) : BlockHeader × Source :=
  match chomping? s with
  | some (chomping, s) =>
    match indent? s with
    | some (n, s) => ({ chomping, indent := some n }, s)
    | none => ({ chomping }, s)
  | none =>
    match indent? s with
    | some (n, s) =>
      match chomping? s with
      | some (chomping, s) => ({ chomping, indent := some n }, s)
      | none => ({ indent := some n }, s)
    | none => ({}, s)

end BlockHeader

/-- Blank lines, and the indentation of the line that is not blank: the breaks, the largest column
that was reached, and what comes then. Without an indentation that is known, all spaces count. -/
def blankLines (indent : Option Nat) : Source → Option (List Char × Nat × Source)
  | [] => some ([], 0, [])
  | m :: s =>
    let isIndent := indent.all fun n => m.column < n
    if m.char = ' ' && isIndent then blankLines indent s
    else if m.char = '\t' && isIndent then none
    else if isBreak m.char then
      (blankLines indent s).map fun (breaks, column, rest) =>
        (m.char :: breaks, max m.column column, rest)
    else some ([], m.column, m :: s)

/-- A line of a block without its indentation, and the breaks up to the next one. -/
structure BlockLine where
  text : List Char
  breaks : List Char

/-- The lines of a block that are indented by so much. Each takes a character at least, so the
length of the source bounds their number. -/
def blockLines (indent : Nat) : Nat → Source → Option (List BlockLine × Source)
  | 0, s => some ([], s)
  | fuel + 1, s =>
    if s.head?.any fun m => m.column = indent then do
      let (text, s) := s.span fun c => !isBreak c
      let (breaks, s) := (Source.chars (s.take 1), s.drop 1)
      let (more, _, s) ← blankLines (some indent) s
      let (lines, s) ← blockLines indent fuel s
      some (⟨text, breaks ++ more⟩ :: lines, s)
    else some ([], s)

namespace BlockLine

def startsBlank (l : BlockLine) : Bool :=
  l.text.head?.any isBlank

/-- In a folded block, a single break between two lines stands for a space, and each further one for
itself, unless one of the lines starts with a blank. -/
def between (literal : Bool) (l next : BlockLine) : List Char :=
  if literal || l.startsBlank || next.startsBlank then l.breaks
  else Gap.text (.breaks l.breaks.head? (l.breaks.drop 1))

def chomp : Chomping → List Char → List Char
  | .strip, _ => []
  | .clip, breaks => breaks.take 1
  | .keep, breaks => breaks

/-- The text of the lines of a block. -/
def join (literal : Bool) (chomping : Chomping) : List BlockLine → List Char
  | [] => []
  | [l] => l.text ++ chomp chomping l.breaks
  | l :: next :: lines =>
    l.text ++ l.between literal next ++ join literal chomping (next :: lines)

end BlockLine

/-- A block whose indicator has been read, in a context that is indented up to a margin. -/
def block (literal : Bool) (margin : Nat) (s : Source) : Option (List Char × Source) := do
  let (header, s) := BlockHeader.read s
  if header.indent = some 0 then none
  else
    let s := s.skipLineEnd
    if !s.atBreak then none
    else
      let known := header.indent.map fun n => margin - 1 + n
      let (breaks, column, s) ← blankLines known (s.drop 1)
      let indent := known.getD (max 1 (max margin column))
      let (lines, s) ← blockLines indent (s.length + 1) s
      let lead := if lines.isEmpty && header.chomping ≠ .keep then [] else breaks
      some (lead ++ BlockLine.join literal header.chomping lines, s)

end CastReceiver.Yaml
