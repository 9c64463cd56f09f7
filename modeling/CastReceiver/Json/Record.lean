import CastReceiver.Json.Reader

/-!
# Reading records

A record is read field by field from the front of a text, and the first thing that is wrong in
reading order decides how it fails. It is written as an object, whose members come in any order,
or as an array of its fields in their order.

A tagged record carries its kind in a member of its own, or as the first element of its array.
All of it is read before any field but the tag is looked at.
-/
namespace CastReceiver.Json

/-- Why a text is not the value that was asked for. -/
inductive Fault where
  /-- It is not JSON. -/
  | malformed
  /-- It is JSON of another type, or a field is missing, given twice or out of range. -/
  | unfit
  deriving DecidableEq

/-- A field of a record and the values that it takes. A field that is not required has a default. -/
structure Field where
  name : String
  accepts : Json → Bool
  required : Bool := true

def orMalformed : Option α → Except Fault α
  | some a => .ok a
  | none => .error .malformed

/-- A value that is not a container and that `accepts` takes. -/
def fitting (accepts : Json → Bool) (s : List Char) : Except Fault (Json × List Char) :=
  match skipSpace s with
  | '[' :: _ => .error .unfit
  | '{' :: _ => .error .unfit
  | s => do
    let (j, s) ← orMalformed (scalar .exact s)
    if accepts j then .ok (j, s) else .error .unfit

/-- What stands between the elements of a container whose brackets are read one by one: the text
of the next element, or none where the container closes. -/
def nextElement? (close : Char) (isFirst : Bool) (s : List Char) :
    Except Fault (Option (List Char)) :=
  match skipSpace s with
  | [] => .error .malformed
  | c :: s =>
    if c = close then .ok none
    else if isFirst then .ok (some (c :: s))
    else if c = ',' then
      match skipSpace s with
      | [] => .error .malformed
      | d :: s => if d = close then .error .malformed else .ok (some (d :: s))
    else .error .malformed

/-- The text after a closing bracket. -/
def afterClose (close : Char) (s : List Char) : Except Fault (List Char) :=
  match skipSpace s with
  | c :: s => if c = close then .ok s else .error .malformed
  | [] => .error .malformed

/-! ## Kinds of fields -/

def isText (j : Json) : Bool := j.asString?.isSome

def isFlag (j : Json) : Bool := j.asBool?.isSome

def isNatural (limit : Nat) (j : Json) : Bool := (j.asNatural? limit).isSome

abbrev Members := List (String × Json)

/-- The text of a member, or none at all if it is not there. -/
def textOf (found : Members) (name : String) : String :=
  ((found.lookup name).bind asString?).getD ""

def naturalOr (default : Nat) (found : Members) (name : String) : Nat :=
  ((found.lookup name).bind (asNatural? limit64)).getD default

def flagOr (default : Bool) (found : Members) (name : String) : Bool :=
  ((found.lookup name).bind asBool?).getD default

/-! ## Plain records -/

/-- The members of an object, of which those in `found` are already known. -/
def fieldMembers (fields : List Field) : Nat → Bool → Members → List Char →
    Except Fault (Members × List Char)
  | 0, _, _, _ => .error .malformed
  | fuel + 1, isFirst, found, s => do
    match ← nextElement? '}' isFirst s with
    | none => .ok (found, s)
    | some s =>
      let (name, s) ← orMalformed (memberName .exact s)
      match fields.find? fun f => f.name = name with
      | some f =>
        if found.any fun m => m.1 = name then .error .unfit
        else
          let (j, s) ← fitting f.accepts (← orMalformed (afterColon? s))
          fieldMembers fields fuel false (found ++ [(name, j)]) s
      | none =>
        let s ← orMalformed (skim (← orMalformed (afterColon? s)))
        fieldMembers fields fuel false found s

/-- The fields of an array, in their order. -/
def fieldElements : List Field → Bool → List Char → Except Fault (Members × List Char)
  | [], _, s => .ok ([], s)
  | f :: fields, isFirst, s => do
    match ← nextElement? ']' isFirst s with
    | none => if f.required then .error .unfit else fieldElements fields isFirst s
    | some s =>
      let (j, s) ← fitting f.accepts s
      let (found, s) ← fieldElements fields false s
      .ok ((f.name, j) :: found, s)

/-- The fields of a record that a text starts with. -/
def fields (spec : List Field) (s : List Char) : Except Fault (Members × List Char) :=
  match skipSpace s with
  | '{' :: s => do
    let (found, s) ← fieldMembers spec (s.length + 1) true [] s
    if spec.all fun f => !f.required || found.any fun m => m.1 = f.name then
      .ok (found, ← afterClose '}' s)
    else .error .unfit
  | '[' :: s => do
    let (found, s) ← fieldElements spec true s
    .ok (found, ← afterClose ']' s)
  | s => do
    let _ ← orMalformed (scalar .exact s)
    .error .unfit

/-- What a reader makes of a whole text: nothing but blanks may follow. -/
def whole (read : List Char → Except Fault (α × List Char)) (text : String) : Except Fault α := do
  let (a, rest) ← read text.toList
  if (skipSpace rest).isEmpty then .ok a else .error .malformed

/-- The fields of the record that a whole text stands for. -/
def readFields (spec : List Field) (text : String) : Except Fault Members :=
  whole (fields spec) text

/-- The fields of a record that is already a value. -/
def fieldsOf? (spec : List Field) : Json → Option Members
  | .object members =>
    let known := members.filter fun m => spec.any fun f => f.name = m.1
    if spec.all fun f => match valuesOf f.name known with
        | [] => !f.required
        | [j] => f.accepts j
        | _ => false
    then some known else none
  | .array items =>
    if items.length ≤ spec.length && (spec.drop items.length).all (fun f => !f.required) &&
        (spec.zip items).all fun (f, j) => f.accepts j then
      some ((spec.map Field.name).zip items)
    else none
  | _ => none

/-! ## Tagged records -/

/-- What a tagged record holds besides its tag. -/
inductive Body where
  | members (found : Members)
  | elements (items : List Json)

/-- The name of the member that holds the tag. -/
def tagName : String := "type"

def isTag (tags : List String) : Json → Bool
  | .string s => tags.contains s
  | _ => false

/-- The members of a tagged object: its tag, which may already be known, and all others. -/
def taggedMembers (tags : List String) : Nat → Bool → Option Json → List Char →
    Except Fault ((Option Json × Members) × List Char)
  | 0, _, _, _ => .error .malformed
  | fuel + 1, isFirst, tag, s => do
    match ← nextElement? '}' isFirst s with
    | none => .ok ((tag, []), s)
    | some s =>
      let (name, s) ← orMalformed (memberName .exact s)
      if name = tagName then
        if tag.isSome then .error .unfit
        else
          let (j, s) ← fitting (isTag tags) (← orMalformed (afterColon? s))
          taggedMembers tags fuel false (some j) s
      else
        let (j, s) ← orMalformed (value .exact (maxDepth - 1) (← orMalformed (afterColon? s)))
        let ((tag, members), s) ← taggedMembers tags fuel false tag s
        .ok ((tag, (name, j) :: members), s)

/-- The elements that follow the tag of a tagged array. -/
def taggedElements : Nat → List Char → Except Fault (List Json × List Char)
  | 0, _ => .error .malformed
  | fuel + 1, s => do
    match ← nextElement? ']' false s with
    | none => .ok ([], s)
    | some s =>
      let (j, s) ← orMalformed (value .exact (maxDepth - 1) s)
      let (items, s) ← taggedElements fuel s
      .ok (j :: items, s)

/-- The tag and the body of a tagged record that a text starts with. -/
def tagged (tags : List String) (s : List Char) : Except Fault ((String × Body) × List Char) :=
  match skipSpace s with
  | '{' :: s => do
    let ((tag, members), s) ← taggedMembers tags (s.length + 1) true none s
    match tag with
    | some (.string tag) => .ok ((tag, .members members), ← afterClose '}' s)
    | _ => .error .unfit
  | '[' :: s => do
    match ← nextElement? ']' true s with
    | none => .error .unfit
    | some s =>
      match ← fitting (isTag tags) s with
      | (.string tag, s) =>
        let (items, s) ← taggedElements (s.length + 1) s
        .ok ((tag, .elements items), ← afterClose ']' s)
      | _ => .error .unfit
  | s => do
    let _ ← orMalformed (scalar .exact s)
    .error .unfit

/-- The tag that a value stands for. Where tags are numbered, their numbers stand for them too. -/
def tagOf? (tags : List String) (numbered : Bool) : Json → Option String
  | .string s => if tags.contains s then some s else none
  | .integer n => if numbered && 0 ≤ n then tags[n.toNat]? else none
  | _ => none

/-- The tag and the body of a tagged record that is already a value. -/
def taggedOf? (tags : List String) (numbered : Bool) : Json → Option (String × Body)
  | .object members =>
    match valuesOf tagName members with
    | [j] => (tagOf? tags numbered j).map fun tag =>
      (tag, .members (members.filter fun m => m.1 ≠ tagName))
    | _ => none
  | .array (j :: items) => (tagOf? tags numbered j).map fun tag => (tag, .elements items)
  | _ => none

/-- The values of the required fields of a tagged record, in their order. -/
def Body.required? (names : List String) : Body → Option (List Json)
  | .members found => names.mapM fun name =>
    match valuesOf name found with
    | [j] => some j
    | _ => none
  | .elements items => if items.length = names.length then some items else none

end CastReceiver.Json
