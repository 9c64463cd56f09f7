import CastReceiver.Address.V6
import CastReceiver.Json.Basic

/-!
# Addresses

The address of a device in the network, of either version, and its text.
-/
namespace CastReceiver

inductive Address where
  | v4 (address : Address.V4)
  | v6 (address : Address.V6)
  deriving DecidableEq, Inhabited

namespace Address

def render : Address → List Char
  | .v4 a => a.render
  | .v6 a => a.render

def text (a : Address) : String :=
  String.ofList a.render

/-- The address that a text stands for; no text stands for one of each version. -/
def parse? (s : String) : Option Address :=
  match V4.parse? s.toList with
  | some a => some (.v4 a)
  | none => (V6.parse? s.toList).map .v6

def toJson (a : Address) : Json :=
  .string a.text

def ofJson? (j : Json) : Option Address :=
  j.asString?.bind parse?

end Address

end CastReceiver
