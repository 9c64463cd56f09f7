/-!
# Channels with slow readers

Everything that is sent on a channel gets the next position. A reader goes on from the position at
which it stopped, and what lies too far behind by then is lost to it.
-/
namespace CastReceiver.Hub

structure Channel (α : Type) where
  /-- How many of the latest items are kept. -/
  capacity : Nat
  /-- Everything sent so far. -/
  sent : List α := []

/-- What a reader gets: how many items it has lost, and then the items that are left. -/
structure Reading (α : Type) where
  missed : Nat
  items : List α

namespace Channel

variable {α : Type}

/-- Room is made for a power of two of items, and for as many as were asked for at least. -/
def ofCapacity (n : Nat) : Channel α where
  capacity := n.nextPowerOfTwo

def send (c : Channel α) (a : α) : Channel α :=
  { c with sent := c.sent ++ [a] }

/-- The position of what is sent next, at which a new reader starts. -/
def position (c : Channel α) : Nat :=
  c.sent.length

/-- What a reader gets that stopped at a position. -/
def read (c : Channel α) (start : Nat) : Reading α :=
  let kept := c.sent.length - c.capacity
  { missed := kept - start, items := c.sent.drop (max start kept) }

/-- A reader that is not too slow gets everything since it stopped. -/
theorem read_of_le {c : Channel α} {start : Nat} (h : c.sent.length ≤ start + c.capacity) :
    c.read start = ⟨0, c.sent.drop start⟩ := by
  have h' : c.sent.length - c.capacity ≤ start := by omega
  simp [read, Nat.sub_eq_zero_of_le h', Nat.max_eq_left h']

end Channel

end CastReceiver.Hub
