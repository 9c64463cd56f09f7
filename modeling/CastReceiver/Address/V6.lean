import CastReceiver.Address.V4

/-!
# Addresses of version 6

Eight groups of sixteen bits, written in hexadecimal with colons between them. Two colons in a row
stand for one or more groups of zero, once at most, and the last two groups may be written as an
address of version 4. Written out, the leftmost of the longest runs of two or more zero groups is
left out, and only addresses that embed one of version 4 end in four decimal numbers.
-/
namespace CastReceiver.Address

abbrev Group := Fin 65536

structure V6 where
  groups : List Group
  size : groups.length = 8
  deriving DecidableEq

namespace V6

instance : Inhabited V6 := ⟨⟨List.replicate 8 0, rfl⟩⟩

/-- One to four hexadecimal digits. -/
def group? (cs : List Char) : Option Group :=
  if cs.length ≤ 4 then
    (Text.numeral 16 cs).bind fun n => if h : n < 65536 then some ⟨n, h⟩ else none
  else none

/-- The two groups that an address of version 4 fills. -/
def ofV4 (v : V4) : List Group :=
  [⟨v.a.val * 256 + v.b.val, by omega⟩, ⟨v.c.val * 256 + v.d.val, by omega⟩]

/-- The groups that pieces of text stand for; where `embeds`, the last piece may be an address of
version 4. -/
def groupsOf? (embeds : Bool) : List (List Char) → Option (List Group)
  | [] => some []
  | [piece] =>
    match group? piece with
    | some g => some [g]
    | none => if embeds then (V4.parse? piece).map ofV4 else none
  | piece :: pieces => do
    let g ← group? piece
    let gs ← groupsOf? embeds pieces
    some (g :: gs)

/-- The groups of one side of two colons, which may be empty. -/
def side? (embeds : Bool) (cs : List Char) : Option (List Group) :=
  if cs.isEmpty then some [] else groupsOf? embeds (Text.split ':' cs)

def ofGroups? (groups : List Group) : Option V6 :=
  if h : groups.length = 8 then some ⟨groups, h⟩ else none

def parse? (cs : List Char) : Option V6 :=
  match Text.splitTwice? ':' cs with
  | some (before, after) => do
    let front ← side? false before
    let back ← side? true after
    let missing := 8 - (front.length + back.length)
    if missing = 0 then none
    else ofGroups? (front ++ List.replicate missing 0 ++ back)
  | none => (groupsOf? true (Text.split ':' cs)).bind ofGroups?

/-- The length of the run of zeros that starts at a place. -/
def zerosFrom (groups : List Group) (start : Nat) : Nat :=
  ((groups.drop start).takeWhile (· = 0)).length

/-- The leftmost of the longest runs of zeros: where it starts, and its length. -/
def longestRun (groups : List Group) : Nat × Nat :=
  (List.range groups.length).foldl
    (fun best start =>
      let n := zerosFrom groups start
      if best.2 < n then (start, n) else best)
    (0, 0)

def renderGroups (groups : List Group) : List Char :=
  Text.join ':' (groups.map fun g => Text.digits 16 g.val)

/-- The address of version 4 that an address embeds. -/
def embedded? (v : V6) : Option V4 :=
  match v.groups with
  | [a, b, c, d, e, f, g, h] =>
    if a = 0 ∧ b = 0 ∧ c = 0 ∧ d = 0 ∧ e = 0 ∧ f = 0xFFFF then
      some ⟨⟨g.val / 256, by omega⟩, ⟨g.val % 256, by omega⟩,
        ⟨h.val / 256, by omega⟩, ⟨h.val % 256, by omega⟩⟩
    else none
  | _ => none

def render (v : V6) : List Char :=
  match v.embedded? with
  | some w => "::ffff:".toList ++ w.render
  | none =>
    let (start, n) := longestRun v.groups
    if 1 < n then
      renderGroups (v.groups.take start) ++ ':' :: ':' :: renderGroups (v.groups.drop (start + n))
    else renderGroups v.groups

end V6

end CastReceiver.Address
