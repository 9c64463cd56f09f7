import CastReceiver.Event.Basic
import CastReceiver.Hub.Channel

/-!
# The hub

Every event goes out on a channel. Notifications also wait in a queue, from which they are taken
one by one and delivered to the listeners that are registered at that moment. A listener may
register others and remove others or itself while it is called.
-/
namespace CastReceiver

structure Hub where
  /-- The numbers of the registered listeners, in the order in which they were registered. -/
  listeners : List Nat := []
  /-- No listener has had this number or a larger one. -/
  nextListener : Nat := 0
  /-- The notifications that no listener has seen yet. -/
  queue : List Notification := []
  channel : Hub.Channel Event

namespace Hub

def ofCapacity (n : Nat) : Hub where
  channel := .ofCapacity n

/-! ## Events -/

def publish (h : Hub) (e : Event) : Hub :=
  { h with channel := h.channel.send e }

def notify (h : Hub) (n : Notification) : Hub :=
  { h with queue := h.queue ++ [n] }.publish (.notification n)

/-- Listeners see notifications only. -/
def emit (h : Hub) : Event → Hub
  | .notification n => h.notify n
  | e => h.publish e

/-! ## Listeners -/

def register (h : Hub) : Nat × Hub :=
  (h.nextListener,
    { h with listeners := h.listeners ++ [h.nextListener], nextListener := h.nextListener + 1 })

/-- Removes a listener, and tells whether it was registered. -/
def unregister (h : Hub) (id : Nat) : Bool × Hub :=
  (h.listeners.contains id, { h with listeners := h.listeners.filter (· != id) })

/-- What a listener does about the others and itself while it is called. -/
inductive Change where
  | register
  | unregister (id : Nat)
  deriving DecidableEq

def apply (h : Hub) : Change → Hub
  | .register => h.register.2
  | .unregister id => (h.unregister id).2

/-- A listener has been called with a notification. -/
structure Delivery where
  listener : Nat
  notification : Notification
  deriving DecidableEq

/-- What each listener does when it is called. -/
abbrev Reaction := Nat → Notification → List Change

/-- All listeners that are registered now are called, whatever they change meanwhile. -/
def deliver (react : Reaction) (h : Hub) (n : Notification) : List Delivery × Hub :=
  (h.listeners.map (⟨·, n⟩), (h.listeners.flatMap (react · n)).foldl apply h)

def deliverAll (react : Reaction) : List Notification → Hub → List Delivery × Hub
  | [], h => ([], h)
  | n :: ns, h =>
    let (first, h) := h.deliver react n
    let (others, h) := deliverAll react ns h
    (first ++ others, h)

/-- All notifications that wait are taken from the queue and delivered. -/
def dispatch (react : Reaction) (h : Hub) : List Delivery × Hub :=
  deliverAll react h.queue { h with queue := [] }

end Hub

/-! ## Several outlets -/

/-- Where an event can go. -/
inductive Outlet where
  | nowhere
  | log
  | hub
  deriving DecidableEq

/-- An event goes to each outlet in turn; only a hub remembers it. -/
def Hub.emitThrough (outlets : List Outlet) (h : Hub) (e : Event) : Hub :=
  outlets.foldl (fun h outlet => if outlet = .hub then h.emit e else h) h

end CastReceiver
