/-!
# The discovery gate

Whether the operator wants the service, and whether discovery is running. The gate says when
discovery has to be started or stopped.
-/
namespace CastReceiver

structure Gate where
  /-- The operator wants the service. -/
  enabled : Bool := false
  /-- Discovery is running. -/
  active : Bool := false
  deriving DecidableEq, Inhabited

namespace Gate

/-- The gate after discovery is started, if it is wanted, not `blocked` and not running. -/
def activate? (g : Gate) (blocked : Bool) : Option Gate :=
  if g.enabled && !g.active && !blocked then some { g with active := true } else none

/-- The gate after discovery is stopped, if it is running. -/
def deactivate? (g : Gate) : Option Gate :=
  if g.active then some { g with active := false } else none

end Gate

end CastReceiver
