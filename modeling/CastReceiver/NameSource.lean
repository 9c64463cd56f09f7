import CastReceiver.Text.Blank

/-!
# The name of the device

Where the name comes from that the device is advertised under. It may take several look-ups until
it is known.
-/
namespace CastReceiver

/-- The answer to each look-up, the first one numbered zero. -/
abbrev NameSource := Nat → Option String

/-- A name as it is configured; a blank one is none. -/
def configuredName? (s : String) : Option String :=
  if Text.hasInk s then some s else none

namespace NameSource

/-- A source that always knows a configured name. -/
def configured (s : String) : NameSource := fun _ => configuredName? s

/-- A source that gives these answers in turn, and the last one from then on. -/
def ofList (answers : List (Option String)) : NameSource := fun k =>
  (answers[min k (answers.length - 1)]?).join

end NameSource

end CastReceiver
