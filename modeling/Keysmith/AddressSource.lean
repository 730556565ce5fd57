import Keysmith.Action
import Keysmith.Ipv4
import Keysmith.OsError

/-! # Where the machine's address comes from

The address that the certificate should name is the one that the machine sends from.
It can be given, or found out by asking the network for the route to a target. -/

namespace Keysmith

/-- A target on the network: an address and a port. -/
structure Endpoint where
  ip : Ipv4
  port : UInt16
  deriving DecidableEq, Repr

/-- The written form of a target: address and port with a colon between them. -/
def Endpoint.text (e : Endpoint) : String := s!"{e.ip.text}:{e.port.toNat}"

/-- A network, as far as it matters here: the address from which the machine would
    send to a target. -/
def Network := Endpoint → Except OsError Ipv4

/-- A network on which nothing can be reached. -/
def Network.isolated : Network := fun _ => .error .networkUnreachable

/-- A way to find out the machine's address. -/
abbrev AddressSource (τ : Type) := Action τ IoError Ipv4

namespace AddressSource

/-- The target whose route is asked for unless another one is given. -/
def defaultTarget : Endpoint := ⟨⟨8, 8, 8, 8⟩, 80⟩

variable {τ : Type}

/-- The address is given. -/
def fixed (ip : Ipv4) : AddressSource τ := Action.pure ip

/-- The address cannot be found out, for a cause given by its text. -/
def broken (text : String) : AddressSource τ := Action.fail (.other text)

/-- Ask the network for the route to a target.  Nothing is sent. -/
def probe (network : Network) (target : Endpoint) : Action τ IoError Ipv4 := do
  let ip ← Action.ofExcept ((network target).mapError .os)
  Action.log .debug s!"Outbound address towards {target.text} is {ip.text}"
  return ip

end AddressSource

end Keysmith
