import CastReceiver.Json.Choice

/-!
# Decisions

The answer to a peer that asks to connect.
-/
namespace CastReceiver

inductive Decision where
  | accept
  | reject
  deriving DecidableEq

namespace Decision

def all : List Decision := [.accept, .reject]

def name : Decision → String
  | .accept => "Accept"
  | .reject => "Reject"

/-- A decision is given by its exact name. -/
def parse? (s : String) : Option Decision :=
  all.find? fun d => d.name = s

def toJson (d : Decision) : Json := .string d.name

def ofJson? (bracesToo : Bool) (j : Json) : Option Decision :=
  j.choice? bracesToo all name

end Decision

end CastReceiver
