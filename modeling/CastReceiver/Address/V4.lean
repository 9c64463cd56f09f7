import CastReceiver.Text.Digits
import CastReceiver.Text.Split

/-!
# Addresses of version 4

Four numbers of eight bits, written in decimal with points between them.
-/
namespace CastReceiver.Address

structure V4 where
  a : Fin 256
  b : Fin 256
  c : Fin 256
  d : Fin 256
  deriving DecidableEq, Inhabited

namespace V4

/-- One to three decimal digits without a leading zero. -/
def octet? (cs : List Char) : Option (Fin 256) :=
  if cs.length ≤ 3 ∧ (cs.head? ≠ some '0' ∨ cs.length = 1) then
    (Text.numeral 10 cs).bind fun n => if h : n < 256 then some ⟨n, h⟩ else none
  else none

def parse? (cs : List Char) : Option V4 :=
  match Text.split '.' cs with
  | [a, b, c, d] => do some ⟨← octet? a, ← octet? b, ← octet? c, ← octet? d⟩
  | _ => none

def render (v : V4) : List Char :=
  Text.join '.' ([v.a, v.b, v.c, v.d].map fun o => Text.digits 10 o.val)

end V4

end CastReceiver.Address
