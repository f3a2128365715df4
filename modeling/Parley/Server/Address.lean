import Parley.Number.Numeral

/-!
# Addresses

An address to listen at is a host and a port, with a colon before the port.
-/

namespace Parley

/-- Why a text is not an address. -/
inductive AddressFault where
  | notAnAddress
  | badPort
  deriving DecidableEq, Repr

/-- The wording of a fault. -/
def AddressFault.message : AddressFault → String
  | .notAnAddress => "invalid socket address"
  | .badPort => "invalid port value"

/-- An address. -/
structure Address where
  host : String
  port : Nat
  deriving DecidableEq, Repr

namespace Address

/-- The largest port. -/
def maxPort : Nat := 65535

/-- Reads an address: the port stands behind the last colon. -/
def parse (s : String) : Except AddressFault Address :=
  let reversed := s.toList.reverse
  match reversed.dropWhile (· ≠ ':') with
  | [] => .error .notAnAddress
  | _ :: host =>
    match Numeral.unsigned maxPort (String.ofList (reversed.takeWhile (· ≠ ':')).reverse) with
    | .ok port => .ok ⟨String.ofList host.reverse, port⟩
    | .error _ => .error .badPort

/-- The text of an address. -/
def text (a : Address) : String := a.host ++ ":" ++ toString a.port

end Address

end Parley
