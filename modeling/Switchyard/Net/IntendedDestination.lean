import Switchyard.Net.SocketAddress

/-!
Where a redirected connection was first headed, as the kernel writes it: sixteen bytes, of which the first two are
the family (low byte first), the next two the port and the next four the address (high byte first).
-/
namespace Switchyard

structure IntendedDestination where
  ip : Ipv4
  port : UInt16
  deriving DecidableEq, Repr

namespace IntendedDestination

inductive Error where
  | unsupported (what : String)
  deriving DecidableEq, Repr

def Error.message : Error → String
  | .unsupported what => "unsupported: " ++ what

def inetFamily : Nat := 2

/-- Only the IPv4 family is known; the last eight bytes are padding. -/
def ofBytes (bytes : Vector UInt8 16) : Except Error IntendedDestination :=
  let family := bytes[0].toNat + 256 * bytes[1].toNat
  if family = inetFamily then
    .ok ⟨⟨bytes[4], bytes[5], bytes[6], bytes[7]⟩, UInt16.ofNat (256 * bytes[2].toNat + bytes[3].toNat)⟩
  else .error (.unsupported ("original destination family " ++ toString family ++ "; only IPv4 is supported"))

/-- A tag for IPv4, the address, then the port. -/
def raw (d : IntendedDestination) : List UInt8 :=
  [1, d.ip.a, d.ip.b, d.ip.c, d.ip.d, (d.port >>> 8).toUInt8, d.port.toUInt8]

def host (d : IntendedDestination) : String := (SocketAddress.v4 d.ip d.port).text

end IntendedDestination

end Switchyard
