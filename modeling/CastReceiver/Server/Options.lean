import CastReceiver.Server.Settings

/-!
# Options of a server

What the operator says when a server is started. It goes before the file and the environment.
-/
namespace CastReceiver

structure ServerOptions where
  /-- The file with settings. -/
  config : Option String := none
  port : Option Nat := none
  autoAccept : Bool := false
  friendlyName : Option String := none
  deriving DecidableEq

namespace ServerOptions

/-- Why arguments are refused. -/
inductive Fault where
  | unknown (argument : String)
  | valueMissing (option : String)
  | valueUnfit (option value : String)
  deriving DecidableEq

def Fault.message : Fault → String
  | .unknown argument => "unexpected argument '" ++ argument ++ "'"
  | .valueMissing option => "a value is required for '" ++ option ++ "'"
  | .valueUnfit option value => "invalid value '" ++ value ++ "' for '" ++ option ++ "'"

/-- An option that takes a value. -/
def set (o : ServerOptions) (option value : String) : Except Fault ServerOptions :=
  match option with
  | "-c" | "--config" => .ok { o with config := some value }
  | "-n" | "--friendly-name" => .ok { o with friendlyName := some value }
  | _ =>
    match Text.natural limit16 value.toList with
    | some port => .ok { o with port := some port }
    | none => .error (.valueUnfit option value)

def takesValue (option : String) : Bool :=
  ["-c", "--config", "-n", "--friendly-name", "-p", "--port"].contains option

/-- Options from arguments, the later of two counts. -/
def ofArguments (o : ServerOptions) : List String → Except Fault ServerOptions
  | [] => .ok o
  | "--auto-accept" :: arguments => ofArguments { o with autoAccept := true } arguments
  | [option] => .error (if takesValue option then .valueMissing option else .unknown option)
  | option :: value :: arguments =>
    if takesValue option then do
      let o ← o.set option value
      ofArguments o arguments
    else .error (.unknown option)

/-- Settings as far as the options do not say otherwise. -/
def apply (o : ServerOptions) (s : ServerSettings) : ServerSettings :=
  { s with
    bindPort := o.port.getD s.bindPort
    autoAccept := o.autoAccept || s.autoAccept
    friendlyName := o.friendlyName.or s.friendlyName }

end ServerOptions

end CastReceiver
