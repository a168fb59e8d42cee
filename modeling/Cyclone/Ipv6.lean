import Cyclone.Ipv6Frag

/-!
# Cyclone.Ipv6

The headers of an IPv6 packet (`ipv6.c`) and the delivery of reassembled datagrams.

* `ipv6ProcessPacket` walks the extension headers up to the first header that is not one.
* `Delivery`: the datagrams under delivery. `ipv6ParseFragmentHeader` calls `ipv6ProcessPacket` on
  the buffer of a completed entry, which may find another fragment header in it, and releases the
  entry when that call returns; the calls that have not returned form a stack.
-/

namespace Cyclone

open NetBuffer Serial

def IPV6_VERSION : Nat := 6

def IPV6_HOP_BY_HOP_OPT_HEADER : UInt8 := 0
def IPV6_ROUTING_HEADER : UInt8 := 43
def IPV6_FRAGMENT_HEADER : UInt8 := 44
def IPV6_ESP_HEADER : UInt8 := 50
def IPV6_AH_HEADER : UInt8 := 51
def IPV6_DEST_OPT_HEADER : UInt8 := 60

def IPV6_OPTION_TYPE_PAD1 : UInt8 := 0x00
def IPV6_OPTION_TYPE_PADN : UInt8 := 0x01
def IPV6_ACTION_SKIP_OPTION : UInt8 := 0x00

/-! ## Extension headers -/

/-- The loop of `ipv6ParseOptions` from the option at `i` on; every turn moves on, so `fuel` is the
length of the options. Whether the header is accepted. -/
def optionLoop (options : List UInt8) (optionLen : Nat) : Nat → Nat → Bool
  | 0, _ => true
  | fuel + 1, i =>
    if i < optionLen then
      let optionType := options.getD i 0
      let type := optionType &&& 0x1F
      if type = IPV6_OPTION_TYPE_PAD1 then optionLoop options optionLen fuel (i + 1)
      -- the actions other than skipping discard the packet
      else if type ≠ IPV6_OPTION_TYPE_PADN ∧ optionType &&& 0xC0 ≠ IPV6_ACTION_SKIP_OPTION then false
      else if i + 2 > optionLen then false
      else optionLoop options optionLen fuel (i + 2 + (options.getD (i + 1) 0).toNat)
    else true

def ipv6ParseOptions (behind : List UInt8) (ipPacket : NetBuffer) (optionOffset optionLen : Nat) :
    Bool :=
  match peekAt behind ipPacket optionOffset with
  | none => false
  | some options => optionLoop options optionLen optionLen 0

/-- The three parsers of extension headers: the length of the header when it is accepted. They
have the check of the length in common; `check` looks at the header and its length. -/
def ipv6ParseExtHeader (behind : List UInt8) (ipPacket : NetBuffer) (headerOffset minimum : Nat)
    (check : List UInt8 → Nat → Bool) : Option Nat :=
  let length := netBufferGetLength ipPacket - headerOffset
  if length < minimum then none
  else
    match peekAt behind ipPacket headerOffset with
    | none => none
    | some header =>
      let headerLen := (header.getD 1 0).toNat * 8 + 8
      if headerLen > length then none
      else if check header headerLen then some headerLen
      else none

def ipv6ParseHopByHopOptHeader (behind : List UInt8) (ipPacket : NetBuffer)
    (ipPacketOffset headerOffset : Nat) : Option Nat :=
  ipv6ParseExtHeader behind ipPacket headerOffset 2 fun _ headerLen =>
    -- it must immediately follow the IPv6 header
    headerOffset == ipPacketOffset + sizeofIpv6Header &&
      ipv6ParseOptions behind ipPacket (headerOffset + 2) (headerLen - 2)

def ipv6ParseDestOptHeader (behind : List UInt8) (ipPacket : NetBuffer) (headerOffset : Nat) :
    Option Nat :=
  ipv6ParseExtHeader behind ipPacket headerOffset 2 fun _ headerLen =>
    ipv6ParseOptions behind ipPacket (headerOffset + 2) (headerLen - 2)

def ipv6ParseRoutingHeader (behind : List UInt8) (ipPacket : NetBuffer) (headerOffset : Nat) :
    Option Nat :=
  ipv6ParseExtHeader behind ipPacket headerOffset 8 fun header _ => header.getD 3 0 == 0

/-- What becomes of a packet. -/
inductive Ipv6Verdict where
  | discard
  | fragment (fragHeaderOffset nextHeaderOffset : Nat)
  | upper (nextHeader : UInt8) (offset : Nat)
  deriving DecidableEq, Repr

/-- The loop over the headers, at offset `i`. Every turn moves on, so `fuel` is the length of the
packet. -/
def headerLoop (behind : List UInt8) (ipPacket : NetBuffer) (ipPacketOffset length : Nat) :
    Nat → Nat → Nat → Ipv6Verdict
  | 0, _, _ => .discard
  | fuel + 1, i, nextHeaderOffset =>
    if i < length then
      match peekAt behind ipPacket nextHeaderOffset with
      | none => .discard
      | some bytes =>
        let type := bytes.getD 0 0
        let next := fun (headerLen : Option Nat) => headerLen.elim .discard fun n =>
          headerLoop behind ipPacket ipPacketOffset length fuel (i + n) i
        if type = IPV6_HOP_BY_HOP_OPT_HEADER then
          next (ipv6ParseHopByHopOptHeader behind ipPacket ipPacketOffset i)
        else if type = IPV6_DEST_OPT_HEADER then next (ipv6ParseDestOptHeader behind ipPacket i)
        else if type = IPV6_ROUTING_HEADER then next (ipv6ParseRoutingHeader behind ipPacket i)
        else if type = IPV6_FRAGMENT_HEADER then .fragment i nextHeaderOffset
        -- authentication and encryption are not supported
        else if type = IPV6_AH_HEADER ∨ type = IPV6_ESP_HEADER then .discard
        else .upper type i
    else .discard

/-- `ipv6ProcessPacket`: the packet with its length adjusted, and what becomes of it. `accepts`
stands for the filters of the source and the destination address. -/
def ipv6ProcessPacket (behind : List UInt8) (accepts : List UInt8 → Bool) (e : Env)
    (ipPacket : NetBuffer) (ipPacketOffset : Nat) : Env × NetBuffer × Ipv6Verdict :=
  let length := netBufferGetLength ipPacket
  if length < sizeofIpv6Header then (e, ipPacket, .discard)
  else
    match peekAt behind ipPacket ipPacketOffset with
    | none => (e, ipPacket, .discard)
    | some ipHeader =>
      let payloadLen := (be16At ipHeader 4).toNat
      if (ipHeader.getD 0 0).toNat / 16 ≠ IPV6_VERSION then (e, ipPacket, .discard)
      else if payloadLen > length - sizeofIpv6Header then (e, ipPacket, .discard)
      else if !accepts ipHeader then (e, ipPacket, .discard)
      else
        let length := ipPacketOffset + sizeofIpv6Header + payloadLen
        let (e, ipPacket, _) := netBufferSetLength e ipPacket length
        (e, ipPacket, headerLoop behind ipPacket ipPacketOffset length length
          (ipPacketOffset + sizeofIpv6Header) (ipPacketOffset + 6))

/-! ## Delivery -/

/-- The reassembly queue with the datagrams under delivery, the innermost one first. `called`
says whether `ipv6ProcessPacket` has been entered for it. -/
structure Delivery where
  env : Env
  queue : List Ipv6FragDesc
  stack : List (Nat × Bool) := []

/-- Nothing has been received. -/
def Delivery.start (env : Env) : Delivery := ⟨env, List.replicate IPV6_MAX_FRAG_DATAGRAMS {}, []⟩

/-- How many calls of `ipv6ProcessPacket` are open. -/
def Delivery.depth (d : Delivery) : Nat := d.stack.length + 1

/-- What the code does next. While datagrams are under delivery only the innermost call runs. -/
inductive DeliveryEvent where
  | packet (ipPacket : NetBuffer) (ipPacketOffset : Nat)
  | call
  | leave
  | tick (time : Word)
  | flush

variable (be : Bool) (behind : List UInt8) (accepts : List UInt8 → Bool)

/-- The packet as `ipv6ParseFragmentHeader` sees it. -/
def fragmentOf (ipPacket : NetBuffer) (ipPacketOffset fragHeaderOffset nextHeaderOffset : Nat) :
    Ipv6Fragment :=
  { ipPacket, ipPacketOffset, fragHeaderOffset, nextHeaderOffset, behind }

/-- `ipv6ParseFragmentHeader`, and the delivery it begins. -/
def Delivery.parse (d : Delivery) (pkt : Ipv6Fragment) : Delivery :=
  match ipv6ParseFragmentHeader be d.env d.queue pkt with
  | none => d
  | some (env, queue, none) => { d with env, queue }
  | some (env, queue, some i) => { env, queue, stack := (i, false) :: d.stack }

/-- A packet is processed; the fragment header that is found in it. -/
def Delivery.enter (d : Delivery) (ipPacket : NetBuffer) (ipPacketOffset : Nat) :
    Env × NetBuffer × Option Ipv6Fragment :=
  match ipv6ProcessPacket behind accepts d.env ipPacket ipPacketOffset with
  | (env, ipPacket, .fragment f n) =>
    (env, ipPacket, some (fragmentOf behind ipPacket ipPacketOffset f n))
  | (env, ipPacket, _) => (env, ipPacket, none)

/-- The state in which `ipv6ParseFragmentHeader` is called, and the fragment it is called for. -/
def Delivery.begins (d : Delivery) : DeliveryEvent → Delivery × Option Ipv6Fragment
  | .packet ipPacket offset =>
    match d.stack with
    | [] =>
      let (env, _, pkt) := d.enter behind accepts ipPacket offset
      ({ d with env }, pkt)
    | _ => (d, none)
  | .call =>
    match d.stack with
    | (i, false) :: stack =>
      let frag := d.queue.getD i {}
      let (env, buffer, pkt) := d.enter behind accepts frag.buffer 0
      ({ env, queue := d.queue.set i { frag with buffer }, stack := (i, true) :: stack }, pkt)
    | _ => (d, none)
  | .leave =>
    match d.stack with
    | (i, true) :: stack => ({ d with queue := ipv6ReleaseFrag d.queue i, stack }, none)
    | _ => (d, none)
  | .tick time =>
    (if d.stack = [] then { d with queue := ipv6FragTick time d.queue } else d, none)
  | .flush => (if d.stack = [] then { d with queue := ipv6FlushFragQueue d.queue } else d, none)

def Delivery.step (d : Delivery) (ev : DeliveryEvent) : Delivery :=
  match d.begins behind accepts ev with
  | (d, none) => d
  | (d, some pkt) => d.parse be pkt

end Cyclone
