import CastReceiver.Yaml.Token

/-!
# Nodes

The value that a document stands for, put together from its tokens. A node may be named by an
anchor. It then has a number, the count of the names that were known before it. A name leads to the
number that it was last given, and an alias stands for the last node of the document with the number
of its name. As a name that is given again adds nothing to the count, nodes may have a number in
common.
-/
namespace CastReceiver.Yaml

inductive Node where
  | scalar (number : Option Nat) (s : Scalar)
  | sequence (number : Option Nat) (items : List Node)
  | mapping (number : Option Nat) (members : List (Node × Node))
  /-- What stands for the node with a number. -/
  | alias (number : Nat)
  deriving Inhabited

namespace Node

/-- A node of which nothing is written. -/
def nothing : Node := .scalar none { text := "" }

/-- A node under its number, if it has one. -/
def entry (number : Option Nat) (n : Node) : List (Nat × Node) :=
  (number.map (·, n)).toList

mutual

/-- The nodes in a node that have numbers, in the order in which they start. -/
def numbered : Node → List (Nat × Node)
  | .scalar number s => entry number (.scalar number s)
  | .sequence number items => entry number (.sequence number items) ++ numberedItems items
  | .mapping number members => entry number (.mapping number members) ++ numberedMembers members
  | .alias _ => []

def numberedItems : List Node → List (Nat × Node)
  | [] => []
  | n :: items => numbered n ++ numberedItems items

def numberedMembers : List (Node × Node) → List (Nat × Node)
  | [] => []
  | (k, v) :: members => numbered k ++ numbered v ++ numberedMembers members

end

/-- What a node stands for in the document with this root. -/
def resolve? (root : Node) : Node → Option Node
  | .alias number => root.numbered.reverse.lookup number
  | n => some n

/-- The scalar that a node stands for in the document with this root. -/
def scalar? (root n : Node) : Option Scalar :=
  match root.resolve? n with
  | some (.scalar _ s) => some s
  | _ => none

end Node

/-- Tokens still to be read, and what has been defined before them. -/
structure Reader where
  tokens : List Token
  /-- The names that are known, with the numbers they lead to. -/
  names : List (String × Nat) := []
  /-- What the handles of tags stand for. -/
  handles : List (String × String) := []

namespace Reader

/-- The handles that are known in every document. -/
def commonHandles : List (String × String) :=
  [("!", "!"), ("!!", commonTag "")]

def atAny (r : Reader) (ts : List Token) : Bool :=
  r.tokens.head?.any ts.contains

def drop (r : Reader) : Reader :=
  { r with tokens := r.tokens.drop 1 }

/-- The reader after a token that has to come next. -/
def expect? (r : Reader) (t : Token) : Option Reader :=
  if r.atAny [t] then some r.drop else none

def anchor? (r : Reader) : Option (String × Reader) :=
  match r.tokens with
  | .anchor name :: _ => some (name, r.drop)
  | _ => none

/-- The handle and the rest of a tag. -/
def tag? (r : Reader) : Option ((String × String) × Reader) :=
  match r.tokens with
  | .tag handle suffix :: _ => some ((handle, suffix), r.drop)
  | _ => none

/-- The full name of a type. -/
def fullTag? (r : Reader) (handle suffix : String) : Option String :=
  if handle.isEmpty then some suffix
  else ((r.handles ++ commonHandles).lookup handle).map (· ++ suffix)

/-- What may stand before a node, in any order. -/
structure Properties where
  anchor : Option String := none
  tag : Option (String × String) := none

def properties (r : Reader) : Properties × Reader :=
  match r.anchor? with
  | some (name, r) =>
    match r.tag? with
    | some (tag, r) => ({ anchor := some name, tag := some tag }, r)
    | none => ({ anchor := some name }, r)
  | none =>
    match r.tag? with
    | some (tag, r) =>
      match r.anchor? with
      | some (name, r) => ({ anchor := some name, tag := some tag }, r)
      | none => ({ tag := some tag }, r)
    | none => ({}, r)

/-- The number of a node that starts here, if it is named. -/
def define (r : Reader) (anchor : Option String) : Option Nat × Reader :=
  match anchor with
  | none => (none, r)
  | some name =>
    let number := r.names.length
    (some number, { r with names := (name, number) :: r.names.filter (·.1 != name) })

end Reader

/-! ## Collections

A reader of nodes is told whether blocks may come, and whether a sequence may have the same
indentation as the mapping around it. The number that bounds the depth bounds the number of elements
too. -/

abbrev NodeReader := (inBlock sameIndent : Bool) → Reader → Option (Node × Reader)

/-- A node, unless one of these tokens says that nothing is written. -/
def nodeUnless (read : NodeReader) (inBlock sameIndent : Bool) (ends : List Token) (r : Reader) :
    Option (Node × Reader) :=
  if r.tokens.isEmpty || !r.atAny ends then read inBlock sameIndent r else some (.nothing, r)

/-- The value of a key, if there is one. -/
def valueUnless (read : NodeReader) (inBlock : Bool) (ends : List Token) (r : Reader) :
    Option (Node × Reader) :=
  match r.expect? .value with
  | some r => nodeUnless read inBlock inBlock ends r
  | none => some (.nothing, r)

/-- The entries of a block sequence, and the end of the block. -/
def blockEntries (read : NodeReader) : Nat → Reader → Option (List Node × Reader)
  | 0, _ => none
  | n + 1, r =>
    match r.expect? .blockEntry with
    | some r => do
      let (item, r) ← nodeUnless read true false [.blockEntry, .blockEnd] r
      let (items, r) ← blockEntries read n r
      some (item :: items, r)
    | none => (r.expect? .blockEnd).map ([], ·)

/-- The entries of a sequence that has no block of its own. -/
def plainEntries (read : NodeReader) : Nat → Reader → Option (List Node × Reader)
  | 0, _ => none
  | n + 1, r =>
    match r.expect? .blockEntry with
    | some r => do
      let (item, r) ← nodeUnless read true false [.blockEntry, .key, .value, .blockEnd] r
      let (items, r) ← plainEntries read n r
      some (item :: items, r)
    | none => some ([], r)

/-- The members of a block mapping, and the end of the block. -/
def blockMembers (read : NodeReader) : Nat → Reader → Option (List (Node × Node) × Reader)
  | 0, _ => none
  | n + 1, r =>
    let ends : List Token := [.key, .value, .blockEnd]
    match r.expect? .blockEnd with
    | some r => some ([], r)
    | none => do
      let r ← r.expect? .key
      let (k, r) ← nodeUnless read true true ends r
      let (v, r) ← valueUnless read true ends r
      let (members, r) ← blockMembers read n r
      some ((k, v) :: members, r)

/-- The reader after the comma before an element that is not the first. -/
def afterComma? (isFirst : Bool) (r : Reader) : Option Reader :=
  if isFirst then some r else r.expect? .flowEntry

/-- A key and its value between square brackets, where they are a mapping of their own. The token
that says that no key is written is lost. -/
def flowPair (read : NodeReader) (r : Reader) : Option (Node × Reader) := do
  let ends : List Token := [.value, .flowEntry, .flowSequenceEnd]
  let (k, r) ← if r.atAny ends then some (Node.nothing, r.drop) else read false false r
  let (v, r) ← valueUnless read false [.flowEntry, .flowSequenceEnd] r
  some (.mapping none [(k, v)], r)

/-- The elements between square brackets. -/
def flowEntries (read : NodeReader) : Nat → Bool → Reader → Option (List Node × Reader)
  | 0, _, _ => none
  | n + 1, isFirst, r =>
    match r.expect? .flowSequenceEnd with
    | some r => some ([], r)
    | none => do
      let r ← afterComma? isFirst r
      if r.atAny [.flowSequenceEnd] then some ([], r.drop)
      else
        let (item, r) ← match r.expect? .key with
          | some r => flowPair read r
          | none => read false false r
        let (items, r) ← flowEntries read n false r
        some (item :: items, r)

/-- A member between braces. Without a sign that there is a key, there is no value either. -/
def flowMember (read : NodeReader) (r : Reader) : Option ((Node × Node) × Reader) :=
  match r.expect? .key with
  | some r => do
    let (k, r) ← nodeUnless read false false [.value, .flowEntry, .flowMappingEnd] r
    let (v, r) ← valueUnless read false [.flowEntry, .flowMappingEnd] r
    some ((k, v), r)
  | none => (read false false r).map fun (k, r) => ((k, .nothing), r)

/-- The members between braces. -/
def flowMembers (read : NodeReader) : Nat → Bool → Reader → Option (List (Node × Node) × Reader)
  | 0, _, _ => none
  | n + 1, isFirst, r =>
    match r.expect? .flowMappingEnd with
    | some r => some ([], r)
    | none => do
      let r ← afterComma? isFirst r
      if r.atAny [.flowMappingEnd] then some ([], r.drop)
      else
        let (member, r) ← flowMember read r
        let (members, r) ← flowMembers read n false r
        some (member :: members, r)

/-! ## Nodes -/

/-- What a node is that has a number and a type if they are stated, read by a reader for the nodes
in it. A scalar that is written may have an exclamation mark for its type, which states none. -/
def content (read : NodeReader) (bound : Nat) (inBlock sameIndent : Bool) (number : Option Nat)
    (tag : Option String) (r : Reader) : Option (Node × Reader) :=
  match r.tokens with
  | .scalar text style :: _ =>
    some (.scalar number { text, style, tag := tag.filter (· != "!") }, r.drop)
  | .flowSequenceStart :: _ =>
    (flowEntries read bound true r.drop).map fun (items, r) => (.sequence number items, r)
  | .flowMappingStart :: _ =>
    (flowMembers read bound true r.drop).map fun (members, r) => (.mapping number members, r)
  | t :: _ =>
    if sameIndent && t = .blockEntry then
      (plainEntries read bound r).map fun (items, r) => (.sequence number items, r)
    else if inBlock && t = .blockSequenceStart then
      (blockEntries read bound r.drop).map fun (items, r) => (.sequence number items, r)
    else if inBlock && t = .blockMappingStart then
      (blockMembers read bound r.drop).map fun (members, r) => (.mapping number members, r)
    else nothingWritten r
  | [] => nothingWritten r
where
  /-- Nothing is written, which has to be said by a name or a type. -/
  nothingWritten (r : Reader) : Option (Node × Reader) :=
    if number.isSome || tag.isSome then some (.scalar number { text := "", tag }, r) else none

/-- A node in which nodes nest up to a depth. -/
def node (bound : Nat) : Nat → NodeReader
  | 0, _, _, _ => none
  | depth + 1, inBlock, sameIndent, r =>
    match r.tokens with
    | .alias name :: _ => (r.names.lookup name).map fun number => (.alias number, r.drop)
    | _ => do
      let (p, r) := r.properties
      let tag ← match p.tag with
        | some (handle, suffix) => (r.fullTag? handle suffix).map some
        | none => some none
      let (number, r) := r.define p.anchor
      content (node bound depth) bound inBlock sameIndent number tag r

/-! ## Documents -/

/-- The directives before a document, each of them once. The version has to be one that is known. -/
def directives? : List Token → (isVersioned : Bool) → (handles : List (String × String)) →
    Option (List (String × String) × List Token)
  | .version major minor :: ts, isVersioned, handles =>
    if !isVersioned && major = 1 && (minor = 1 || minor = 2) then directives? ts true handles
    else none
  | .tagHandle handle meaning :: ts, isVersioned, handles =>
    if handles.any fun h => h.1 = handle then none
    else directives? ts isVersioned ((handle, meaning) :: handles)
  | ts, _, handles => some (handles, ts)

/-- The node that a document's tokens start with, which may be nothing. -/
def documentNode? (handles : List (String × String)) (ts : List Token) :
    Option (Node × List Token) :=
  let bound := ts.length + 1
  match ts with
  | [] | .documentEnd :: _ | .documentStart :: _ | .version .. :: _ | .tagHandle .. :: _ =>
    some (.nothing, ts)
  | _ => (node bound bound true false { tokens := ts, handles }).map fun (n, r) => (n, r.tokens)

/-- The one document of a text, which may have no document at all. Marks for its end may follow. -/
def document? (text : String) : Option (Option Node) := do
  let ts ← tokens? text
  if ts.isEmpty then some none
  else
    let (n, rest) ← match ts with
      | .version .. :: _ | .tagHandle .. :: _ | .documentStart :: _ => do
        let (handles, ts) ← directives? ts false []
        match ts with
        | .documentStart :: ts => documentNode? handles ts
        | _ => none
      | _ => do
        let bound := ts.length + 1
        let (n, r) ← node bound bound true false { tokens := ts }
        some (n, r.tokens)
    if rest.all fun t => t = .documentEnd then some (some n) else none

end CastReceiver.Yaml
