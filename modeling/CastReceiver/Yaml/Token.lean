import CastReceiver.Yaml.Scalar
import CastReceiver.Yaml.Text

/-!
# Tokens

The structure of a document, made visible: where blocks begin and end by their indentation, and
which words are keys. Whether a word is a key shows only at the colon after it, so the place of a
word that may be one is remembered, and tokens are put in there later.
-/
namespace CastReceiver.Yaml

inductive Token where
  | version (major minor : Nat)
  /-- A handle stands for the beginning of a tag. -/
  | tagHandle (handle meaning : String)
  | documentStart
  | documentEnd
  | blockSequenceStart
  | blockMappingStart
  | blockEnd
  | flowSequenceStart
  | flowSequenceEnd
  | flowMappingStart
  | flowMappingEnd
  | blockEntry
  | flowEntry
  | key
  | value
  | alias (name : String)
  | anchor (name : String)
  | tag (handle suffix : String)
  | scalar (text : String) (style : Style)
  deriving DecidableEq

/-- A place at which a key may have started. -/
structure KeyStart where
  /-- There has to be a key at this place. -/
  required : Bool
  /-- How many tokens come before. -/
  number : Nat
  mark : Mark

/-- What is known of the structure of a document up to some place. -/
structure Layout where
  tokens : Array Token := #[]
  /-- The column of the block here and one more; zero outside of all blocks. -/
  margin : Nat := 0
  /-- The margins of the blocks around. -/
  outer : List Nat := []
  /-- A key may start here. -/
  keyAllowed : Bool := true
  candidate : Option KeyStart := none
  /-- The candidates outside of each pair of brackets that is open. -/
  suspended : List (Option KeyStart) := []

namespace Layout

/-- There are open brackets. -/
def inFlow (l : Layout) : Bool := !l.suspended.isEmpty

def add (l : Layout) (t : Token) : Layout :=
  { l with tokens := l.tokens.push t }

def insert (l : Layout) (number : Nat) (t : Token) : Layout :=
  { l with tokens := l.tokens.insertIdxIfInBounds number t }

def allowKey (l : Layout) (allowed : Bool) : Layout :=
  { l with keyAllowed := allowed }

/-! ## Blocks -/

/-- How many blocks end that have a larger margin than `limit`, and the margins that are left. -/
def ending (limit margin : Nat) : List Nat → Nat × Nat × List Nat
  | [] => (0, margin, [])
  | m :: outer =>
    if limit < margin then
      let (n, margin, outer) := ending limit m outer
      (n + 1, margin, outer)
    else (0, margin, m :: outer)

/-- Blocks with a larger margin than `limit` end. -/
def closeBlocks (l : Layout) (limit : Nat) : Layout :=
  if l.inFlow then l
  else
    let (n, margin, outer) := ending limit l.margin l.outer
    { l with tokens := l.tokens ++ Array.replicate n .blockEnd, margin, outer }

/-- A block begins at a column, unless there is one already. Its token is put in at a place. -/
def openBlock (l : Layout) (column number : Nat) (t : Token) : Layout :=
  if l.inFlow || column < l.margin then l
  else { l.insert number t with margin := column + 1, outer := l.margin :: l.outer }

def openBlockHere (l : Layout) (m : Mark) (t : Token) : Layout :=
  l.openBlock m.column l.tokens.size t

/-! ## Keys -/

/-- There is no key where one might have started. -/
def dropCandidate? (l : Layout) : Option Layout :=
  if l.candidate.any KeyStart.required then none else some { l with candidate := none }

/-- A key may start at a mark. -/
def rememberKey? (l : Layout) (m : Mark) : Option Layout :=
  if l.keyAllowed then
    l.dropCandidate?.map fun l =>
      let required := !l.inFlow && l.margin = m.column + 1
      { l with candidate := some { required, number := l.tokens.size, mark := m } }
  else some l

/-- A key stands on one line and takes no more octets than this. -/
def keyLimit : Nat := 1024

def isStale (m : Mark) (k : KeyStart) : Bool :=
  k.mark.line < m.line || k.mark.offset + keyLimit < m.offset

/-- Candidates that a key at a mark would be too far away from are dropped. -/
def dropStale? (l : Layout) (m : Mark) : Option Layout :=
  if (l.candidate :: l.suspended).any fun c => c.any fun k => isStale m k && k.required then none
  else
    let fresh (c : Option KeyStart) : Option KeyStart := c.filter fun k => !isStale m k
    some { l with candidate := fresh l.candidate, suspended := l.suspended.map fresh }

/-! ## Brackets -/

def openBracket? (l : Layout) (m : Mark) (t : Token) : Option Layout :=
  (l.rememberKey? m).map fun l =>
    ({ l with candidate := none, suspended := l.candidate :: l.suspended }.allowKey true).add t

def closeBracket? (l : Layout) (t : Token) : Option Layout :=
  l.dropCandidate?.map fun l =>
    let l := match l.suspended with
      | c :: suspended => { l with candidate := c, suspended }
      | [] => l
    (l.allowKey false).add t

/-! ## Indicators -/

def blockEntry? (l : Layout) (m : Mark) : Option Layout :=
  if !l.inFlow && !l.keyAllowed then none
  else (l.openBlockHere m .blockSequenceStart).dropCandidate?.map fun l =>
    (l.allowKey true).add .blockEntry

def key? (l : Layout) (m : Mark) : Option Layout :=
  if !l.inFlow && !l.keyAllowed then none
  else (l.openBlockHere m .blockMappingStart).dropCandidate?.map fun l =>
    (l.allowKey (!l.inFlow)).add .key

/-- The value of a key, which is put in before if its place has been remembered. -/
def value? (l : Layout) (m : Mark) : Option Layout :=
  match l.candidate with
  | some k =>
    let l := (l.insert k.number .key).openBlock k.mark.column k.number .blockMappingStart
    some (({ l with candidate := none }.allowKey false).add .value)
  | none =>
    if !l.inFlow && !l.keyAllowed then none
    else some (((l.openBlockHere m .blockMappingStart).allowKey (!l.inFlow)).add .value)

/-- A document starts or ends here, or a directive comes. -/
def documentMark? (l : Layout) (t : Token) : Option Layout :=
  (l.closeBlocks 0).dropCandidate?.map fun l => (l.allowKey false).add t

/-- A part of a node that may be a key, with what comes after it. -/
def nodePart? (l : Layout) (m : Mark) (part : Option (Token × Source)) :
    Option (Layout × Source) := do
  let l ← l.rememberKey? m
  let (t, s) ← part
  some ((l.allowKey false).add t, s)

end Layout

/-! ## Names and tags -/

def isNameChar (c : Char) : Bool :=
  c.isAlphanum || c = '_' || c = '-'

/-- The name after an asterisk or an ampersand. -/
def name? (s : Source) : Option (String × Source) :=
  let (cs, s) := s.span isNameChar
  let endsWell := s.atGap || s.head?.any fun m => "?:,]\x7d%@`".toList.contains m.char
  if !cs.isEmpty && endsWell then some (String.ofList cs, s) else none

/-- The characters of tags; those between angle brackets may be of a few more kinds. -/
def isTagChar (verbatim : Bool) (c : Char) : Bool :=
  isNameChar c || ";/?:@&=+$.!~*'()".toList.contains c || (verbatim && ",[]".toList.contains c)

/-- How many octets of a character are missing after one more of them. The first octet says how
many there are in all, and those after it are told apart from it by their two highest bits. -/
def missingAfter? (missing octet : Nat) : Option Nat :=
  match missing with
  | n + 1 => if 0x80 ≤ octet ∧ octet < 0xC0 then some n else none
  | 0 =>
    if octet < 0x80 then some 0
    else if octet < 0xC0 then none
    else if octet < 0xE0 then some 1
    else if octet < 0xF0 then some 2
    else if octet < 0xF8 then some 3
    else none

/-- The characters of a tag, in which a percent sign comes before the two digits of an octet. An
octet that is written so counts as a character; `missing` octets have to follow for those that came
before. -/
def tagChars? (verbatim : Bool) (missing : Nat) : Source → Option (List Char × Source)
  | [] => if missing = 0 then some ([], []) else none
  | m :: s =>
    if m.char = '%' then
      match s with
      | a :: b :: s => do
        let octet ← Text.numeral 16 [a.char, b.char]
        let missing ← missingAfter? missing octet
        let (cs, rest) ← tagChars? verbatim missing s
        some (Char.ofNat octet :: cs, rest)
      | _ => none
    else if missing ≠ 0 then none
    else if isTagChar verbatim m.char then
      (tagChars? verbatim 0 s).map fun (cs, rest) => (m.char :: cs, rest)
    else some ([], m :: s)

/-- The text of the characters of a tag, which a zero ends. -/
def tagText (cs : List Char) : String :=
  String.ofList (cs.takeWhile (·.val != 0))

def someTagText? (verbatim : Bool) (s : Source) : Option (String × Source) :=
  (tagChars? verbatim 0 s).bind fun (cs, rest) =>
    if cs.isEmpty then none else some (tagText cs, rest)

/-- A tag whose exclamation mark has been read: a tag between angle brackets, or a handle and what
follows it. -/
def tag? (s : Source) : Option (Token × Source) :=
  match s.first?, s.span isNameChar with
  | some '<', _ => do
    let (suffix, s) ← someTagText? true (s.drop 1)
    if s.first? = some '>' then some (.tag "" suffix, s.drop 1) else none
  | _, (name, rest) =>
    if rest.first? = some '!' then do
      let (suffix, s) ← someTagText? false (rest.drop 1)
      some (.tag ("!" ++ String.ofList name ++ "!") suffix, s)
    else do
      let (cs, s) ← tagChars? false 0 s
      let suffix := tagText cs
      some (if suffix.isEmpty then .tag "" "!" else .tag "!" suffix, s)

/-- A tag ends a word; between brackets a comma may follow it. -/
def endsTag (inFlow : Bool) (s : Source) : Bool :=
  s.atGap || (inFlow && s.first? = some ',')

/-! ## Directives -/

/-- A number in a directive has at most nine digits. -/
def number? (s : Source) : Option (Nat × Source) :=
  let (cs, s) := s.span (Text.isDigit 10)
  if cs.length ≤ 9 then (Text.numeral 10 cs).map (·, s) else none

def version? (s : Source) : Option (Token × Source) := do
  let (major, s) ← number? (s.skip isBlank)
  if s.first? = some '.' then
    let (minor, s) ← number? (s.drop 1)
    some (.version major minor, s)
  else none

/-- A handle is an exclamation mark, or a word between two of them. -/
def handle? (s : Source) : Option (String × Source) :=
  if s.first? = some '!' then
    let (name, rest) := Source.span isNameChar (s.drop 1)
    if rest.first? = some '!' then
      some ("!" ++ String.ofList name ++ "!", rest.drop 1)
    else if name.isEmpty then some ("!", rest) else none
  else none

def tagHandle? (s : Source) : Option (Token × Source) := do
  let (handle, s) ← handle? (s.skip isBlank)
  if s.head?.any fun m => isBlank m.char then
    let (meaning, s) ← someTagText? true (s.skip isBlank)
    if s.atGap then some (.tagHandle handle meaning, s) else none
  else none

/-- A directive whose percent sign has been read. Its name is a word of its own, and it fills a
line. -/
def directive? (s : Source) : Option (Token × Source) := do
  let (name, s) := s.span isNameChar
  if !s.atGap then none
  else
    let (t, s) ← match String.ofList name with
      | "YAML" => version? s
      | "TAG" => tagHandle? s
      | _ => none
    let s := s.skipLineEnd
    if s.atBreak then some (t, s.drop 1) else none

/-! ## Tokens of a source -/

/-- What comes after blanks, comments and breaks, and whether a key may start there. Outside of
brackets a break allows a key, and no tab may stand where one is allowed. -/
def skipToToken (inFlow : Bool) : Nat → Bool → Source → Bool × Source
  | 0, keyAllowed, s => (keyAllowed, s)
  | fuel + 1, keyAllowed, s =>
    let isSkipped (c : Char) : Bool := c = ' ' || (c = '\t' && (inFlow || !keyAllowed))
    match (s.skipByteOrderMark.skip isSkipped).skipComment with
    | [] => (keyAllowed, [])
    | m :: rest =>
      if isBreak m.char then skipToToken inFlow fuel (keyAllowed || !inFlow) rest
      else (keyAllowed, m :: rest)

/-- A plain text may start with this character. -/
def startsPlain (inFlow : Bool) (c : Char) (rest : Source) : Bool :=
  !(isGap c || "-?:,[]\x7b\x7d#&*!|>'\"%@`".toList.contains c) ||
  (c = '-' && !(rest.head?.any fun m => isBlank m.char)) ||
  (!inFlow && (c = '?' || c = ':') && !rest.atGap)

def scalarToken (style : Style) (text : List Char × Source) : Token × Source :=
  (.scalar (String.ofList text.1) style, text.2)

/-- The next token, which starts at a mark, and what comes after it. -/
def nextToken? (l : Layout) (m : Mark) (s : Source) : Option (Layout × Source) :=
  let indicated (l : Option Layout) : Option (Layout × Source) := l.map (·, s)
  if m.column = 0 && m.char = '%' then do
    let (t, s) ← directive? s
    (l.documentMark? t).map (·, s)
  else if Source.atDocumentMark (m :: s) then
    (l.documentMark? (if m.char = '-' then .documentStart else .documentEnd)).map (·, s.drop 2)
  else match m.char with
    | '[' => indicated (l.openBracket? m .flowSequenceStart)
    | '{' => indicated (l.openBracket? m .flowMappingStart)
    | ']' => indicated (l.closeBracket? .flowSequenceEnd)
    | '}' => indicated (l.closeBracket? .flowMappingEnd)
    | ',' => indicated (l.dropCandidate?.map fun l => (l.allowKey true).add .flowEntry)
    | '*' => l.nodePart? m ((name? s).map fun (n, s) => (.alias n, s))
    | '&' => l.nodePart? m ((name? s).map fun (n, s) => (.anchor n, s))
    | '!' => l.nodePart? m ((tag? s).filter fun (_, s) => endsTag l.inFlow s)
    | '\'' => l.nodePart? m ((singleQuoted .none s).map (scalarToken .singleQuoted))
    | '"' => l.nodePart? m ((doubleQuoted .none s).map (scalarToken .doubleQuoted))
    | c =>
      if c = '-' && s.atGap then indicated (l.blockEntry? m)
      else if c = '?' && (l.inFlow || s.atGap) then indicated (l.key? m)
      else if c = ':' && (l.inFlow || s.atGap) then indicated (l.value? m)
      else if (c = '|' || c = '>') && !l.inFlow then do
        let l ← l.dropCandidate?
        let (text, s) ← block (c = '|') l.margin s
        let style := if c = '|' then Style.literal else .folded
        some ((l.allowKey true).add (.scalar (String.ofList text) style), s)
      else if startsPlain l.inFlow c s then do
        let l ← l.rememberKey? m
        let (cs, after, s) ← plain l.inFlow l.margin .none (m :: s)
        some ((l.allowKey after.isBreaks).add (.scalar (String.ofList cs) .plain), s)
      else none

/-- The tokens of a source. Each takes a character at least, and so does each line that is skipped,
so the length of the source bounds the number of both. -/
def tokensFrom : Nat → Layout → Source → Option (List Token)
  | 0, _, _ => none
  | fuel + 1, l, s =>
    match skipToToken l.inFlow (fuel + 1) l.keyAllowed s with
    | (_, []) => (l.closeBlocks 0).dropCandidate?.map fun l => l.tokens.toList
    | (keyAllowed, m :: s) => do
      let l ← (l.allowKey keyAllowed).dropStale? m
      let (l, s) ← nextToken? (l.closeBlocks (m.column + 1)) m s
      tokensFrom fuel l s

/-- The tokens of a text, if it is well formed so far. -/
def tokens? (text : String) : Option (List Token) :=
  (source? text).bind fun s => tokensFrom (s.length + 1) {} s

end CastReceiver.Yaml
