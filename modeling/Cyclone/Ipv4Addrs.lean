import Cyclone.Types

/-!
# Cyclone.Ipv4Addrs

The IPv4 addresses of an interface (`ipv4_misc.c`), and what kind of address another one is to it.
-/

namespace Cyclone

def IPV4_UNSPECIFIED_ADDR : Ipv4Addr := 0
def IPV4_BROADCAST_ADDR : Ipv4Addr := 0xFFFFFFFF

def ipv4IsMulticastAddr (ipAddr : Ipv4Addr) : Bool := ipAddr &&& 0xF0000000 == 0xE0000000

inductive Ipv4AddrState
  | INVALID | TENTATIVE | VALID
  deriving DecidableEq, Repr

structure Ipv4AddrEntry where
  addr : Ipv4Addr := 0
  state : Ipv4AddrState := .INVALID
  conflict : Bool := false
  subnetMask : Ipv4Addr := 0
  deriving DecidableEq, Repr

def ipv4IsOnSubnet (entry : Ipv4AddrEntry) (ipAddr : Ipv4Addr) : Bool :=
  ipAddr &&& entry.subnetMask == entry.addr &&& entry.subnetMask

def ipv4IsBroadcastAddr (addrList : List Ipv4AddrEntry) (ipAddr : Ipv4Addr) : Bool :=
  ipAddr == IPV4_BROADCAST_ADDR ||
    addrList.any fun entry => entry.state ≠ .INVALID ∧ ipv4IsOnSubnet entry ipAddr ∧
      entry.subnetMask ≠ IPV4_BROADCAST_ADDR ∧ ipAddr ||| entry.subnetMask = IPV4_BROADCAST_ADDR

/-- Whether the address is one being probed for. -/
def Ipv4AddrEntry.probing (e : Ipv4AddrEntry) (ipAddr : Ipv4Addr) : Bool :=
  e.state = .TENTATIVE ∧ e.addr = ipAddr

def ipv4IsTentativeAddr (addrList : List Ipv4AddrEntry) (ipAddr : Ipv4Addr) : Bool :=
  addrList.any (·.probing ipAddr)

end Cyclone
