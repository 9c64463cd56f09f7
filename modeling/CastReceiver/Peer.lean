import CastReceiver.Address.Basic
import CastReceiver.Json.Record
import CastReceiver.Text.LetterCase

/-!
# Peers

A source device is known by the address of its network card and by its name. One that launches
playback also says from where its stream comes and to which address of the receiver it goes.
-/
namespace CastReceiver

structure Peer where
  mac : String
  name : String
  deriving DecidableEq, Inhabited

/-- The case of letters in the address of a network card does not matter. -/
def sameMac (a b : String) : Bool :=
  Text.sameLetters a b

@[simp] theorem sameMac_refl (a : String) : sameMac a a = true :=
  Text.sameLetters_refl a

theorem sameMac_symm {a b : String} (h : sameMac a b = true) : sameMac b a = true := by
  rwa [sameMac, Text.sameLetters_comm]

theorem sameMac_trans {a b c : String} (h : sameMac a b = true) (h' : sameMac b c = true) :
    sameMac a c = true :=
  Text.sameLetters_trans h h'

namespace Peer

def matchesIdentity (p : Peer) (mac name : String) : Bool :=
  sameMac p.mac mac && p.name == name

def toJson (p : Peer) : Json :=
  .object [("mac", .string p.mac), ("name", .string p.name)]

end Peer

/-- Everything the player needs to open a stream from a source. -/
structure Launch where
  sourceIp : Address
  sourceMac : String
  sourceName : String
  sinkIp : Address
  deriving DecidableEq, Inhabited

namespace Launch

def peer (l : Launch) : Peer := ⟨l.sourceMac, l.sourceName⟩

def members (l : Launch) : List (String × Json) :=
  [("sourceIp", l.sourceIp.toJson), ("sourceMac", .string l.sourceMac),
    ("sourceName", .string l.sourceName), ("sinkIp", l.sinkIp.toJson)]

def toJson (l : Launch) : Json := .object l.members

def isAddress (j : Json) : Bool := (Address.ofJson? j).isSome

def spec : List Json.Field :=
  [⟨"sourceIp", isAddress, true⟩, ⟨"sourceMac", Json.isText, true⟩,
    ⟨"sourceName", Json.isText, true⟩, ⟨"sinkIp", isAddress, true⟩]

/-- The launch whose fields are found among members, each once. -/
def ofMembers? (found : Json.Members) : Option Launch :=
  match Json.valuesOf "sourceIp" found, Json.valuesOf "sourceMac" found,
    Json.valuesOf "sourceName" found, Json.valuesOf "sinkIp" found with
  | [sourceIp], [.string mac], [.string name], [sinkIp] => do
    some ⟨← Address.ofJson? sourceIp, mac, name, ← Address.ofJson? sinkIp⟩
  | _, _, _, _ => none

def ofJson? (j : Json) : Option Launch :=
  (Json.fieldsOf? spec j).bind ofMembers?

/-- The launch that a text stands for. -/
def parse (text : String) : Except Json.Fault Launch := do
  match ofMembers? (← Json.readFields spec text) with
  | some launch => .ok launch
  | none => .error .unfit

end Launch

/-- The peer that is negotiating. Its addresses are known when it came with a launch request. -/
structure PendingPeer where
  mac : String
  name : String
  sourceIp : Option Address := none
  sinkIp : Option Address := none
  deriving DecidableEq, Inhabited

namespace PendingPeer

def ofLaunch (l : Launch) : PendingPeer :=
  ⟨l.sourceMac, l.sourceName, some l.sourceIp, some l.sinkIp⟩

def peer (p : PendingPeer) : Peer := ⟨p.mac, p.name⟩

/-- The launch of a peer whose two addresses are known. -/
def launch? (p : PendingPeer) : Option Launch := do
  some ⟨← p.sourceIp, p.mac, p.name, ← p.sinkIp⟩

def toJson (p : PendingPeer) : Json :=
  .object [("mac", .string p.mac), ("name", .string p.name),
    ("sourceIp", Json.orNull Address.toJson p.sourceIp),
    ("sinkIp", Json.orNull Address.toJson p.sinkIp)]

end PendingPeer

end CastReceiver
