import CastReceiver.Json.Basic

/-!
# Choices

A choice among names that carry no data is written as its name. It is read from its name, or from
an object whose only member has that name and holds nothing.
-/
namespace CastReceiver.Json

/-- What counts as holding nothing. -/
def isNothing (bracesToo : Bool) : Json → Bool
  | .null => true
  | .object [] => bracesToo
  | _ => false

/-- The name that stands for a choice. -/
def choiceName? (bracesToo : Bool) : Json → Option String
  | .string s => some s
  | .object [(s, j)] => if isNothing bracesToo j then some s else none
  | _ => none

/-- The choice of `all` that a value stands for, by its name. -/
def choice? (bracesToo : Bool) (all : List α) (name : α → String) (j : Json) : Option α :=
  (choiceName? bracesToo j).bind fun s => all.find? fun a => name a = s

end CastReceiver.Json
