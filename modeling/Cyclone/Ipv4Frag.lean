import Cyclone.Ipv6Frag

/-!
# Cyclone.Ipv4Frag

Reassembly of IPv4 datagrams (`ipv4_frag.c`).

`Ipv4FragDesc` has the fields of `Ipv6FragDesc` under other names: `headerLength` is
`unfragPartLength`, `dataLen` is `fragPartLength`. There is no `identification`: IPv4 compares the
one in the header. `Ipv4HoleDesc` is laid out as `Ipv6HoleDesc`, so that fields of descriptors are
read and written in the same way.

`ipv4ReassembleDatagram` ends with the datagram it passes to `ipv4ProcessDatagram`; its entry is
free again when that call returns.
-/

namespace Cyclone

open NetBuffer Serial

def IPV4_MAX_FRAG_DATAGRAMS : Nat := 4
def IPV4_MAX_FRAG_DATAGRAM_SIZE : Nat := 8192
def IPV4_FRAG_TIME_TO_LIVE : Word := 15000
def IPV4_INFINITY : Nat := 0xFFFF

def sizeofIpv4HoleDesc : Nat := 6

/-- The size of the chunk array of `Ipv4ReassemblyBuffer`. -/
def ipv4ReassemblyChunks : Nat :=
  (IPV4_MAX_FRAG_DATAGRAM_SIZE + NET_MEM_POOL_BUFFER_SIZE - 1) / NET_MEM_POOL_BUFFER_SIZE + 1

abbrev Ipv4FragDesc := Ipv6FragDesc

/-- A packet that carries a fragment: its bytes, cut to the total length. -/
structure Ipv4Fragment where
  packet : List UInt8
  deriving DecidableEq

namespace Ipv4Fragment

variable (f : Ipv4Fragment)

/-- `packet->headerLength * 4`. -/
def headerLength : Nat := (f.packet.getD 0 0).toNat % 16 * 4

def header : List UInt8 := f.packet.take f.headerLength

/-- `IPV4_DATA(packet)`. -/
def data : List UInt8 := f.packet.drop f.headerLength

/-- The length of the payload. -/
def length : Nat := f.packet.length - f.headerLength

def offset : Nat := (be16At f.packet 6).toNat

/-- `offset & IPV4_FLAG_MF`. -/
def moreFlag : Bool := f.offset / 0x2000 % 2 == 1

/-- `(offset & IPV4_OFFSET_MASK) * 8`. -/
def dataFirst : Nat := f.offset % 0x2000 * 8

def dataLast : Nat := u16 (f.dataFirst + u16 f.length)

/-- What `ipv4ProcessPacket` has checked. -/
structure Accepted : Prop where
  words : 5 ≤ (f.packet.getD 0 0).toNat % 16
  header : f.headerLength ≤ f.packet.length
  total : f.packet.length < 65536
  fragment : f.moreFlag = true ∨ f.dataFirst ≠ 0

end Ipv4Fragment

/-! ## The queue -/

def ipv4FindHole (frag : Ipv4FragDesc) (offset : Nat) : Option Nat := ipv6FindHole frag offset

/-- Whether two headers belong to the same datagram: the addresses, the identification and the
protocol. -/
def ipv4SameDatagram (datagram packet : List UInt8) : Bool :=
  ((datagram.drop 12).take 4 == (packet.drop 12).take 4) &&
    ((datagram.drop 16).take 4 == (packet.drop 16).take 4) &&
    ((datagram.drop 4).take 2 == (packet.drop 4).take 2) &&
    (datagram.getD 9 0 == packet.getD 9 0)

/-- Whether an entry belongs to the datagram of a packet. -/
def ipv4FragMatches (packet : List UInt8) (frag : Ipv4FragDesc) : Bool :=
  frag.inUse && ipv4SameDatagram frag.buffer.bytes packet

/-- The entry that describes a datagram as being completely missing. -/
def ipv4CreateFrag (be : Bool) (e : Env) (f : Ipv4Fragment) (frag : Ipv4FragDesc)
    (b : NetBuffer) : Ipv4FragDesc :=
  let frag := { frag with
    buffer := netBufferWrite (setFirstChunk e b f.headerLength) 0 f.header
    unfragPartLength := f.headerLength
    fragPartLength := 0
    timestamp := osGetSystemTime e
    firstHole := 0 }
  ((frag.store be 0 0).store be 2 IPV4_INFINITY).store be 4 IPV4_INFINITY

/-- `ipv4SearchFragQueue`: the queue, and the slot of the entry. -/
def ipv4SearchFragQueue (be : Bool) (e : Env) (q : List Ipv4FragDesc) (f : Ipv4Fragment) :
    Env × List Ipv4FragDesc × Option Nat :=
  match q.findIdx? (ipv4FragMatches f.packet) with
  | some i => (e, q, some i)
  | none =>
    match q.findIdx? fun frag => !frag.inUse with
    | none => (e, q, none)
    | some i =>
      let frag := q.getD i {}
      let (e', b, error) := netBufferSetLength e
        { frag.buffer with maxChunkCount := ipv4ReassemblyChunks }
        (NET_MEM_POOL_BUFFER_SIZE + sizeofIpv4HoleDesc)
      if error ≠ .NO_ERROR then (e', q.set i { frag with buffer := b }.drop, none)
      else (e', q.set i (ipv4CreateFrag be e' f frag b), some i)

/-! ## Fragments -/

/-- The loop over the hole descriptors. `none` while it has not ended within `fuel` turns, and
where it writes through a null pointer. -/
def ipv4HoleLoop (be moreFlag : Bool) (dataFirst dataLast : Nat) :
    Nat → Ipv4FragDesc → Option Nat → Option Ipv4FragDesc
  | 0, _, _ => none
  | fuel + 1, frag, prevHole =>
    match ipv4FindHole frag (frag.next be prevHole) with
    | none => some frag
    | some hole =>
      let holeFirst := frag.load be hole
      let holeLast := frag.holeLast be hole
      if dataFirst < holeLast ∧ dataLast > holeFirst then
        let frag := frag.setNext be prevHole (frag.next be (some hole))
        match splitHole be moreFlag dataFirst dataLast frag prevHole holeFirst holeLast with
        | none => none
        | some (frag, prevHole) => ipv4HoleLoop be moreFlag dataFirst dataLast fuel frag prevHole
      else ipv4HoleLoop be moreFlag dataFirst dataLast fuel frag (some hole)

/-- The special handling of the very first fragment; `none` when the datagram is dropped. -/
def ipv4FirstFragment (e : Env) (f : Ipv4Fragment) (frag : Ipv4FragDesc) : Option Ipv4FragDesc :=
  if f.headerLength + frag.fragPartLength > IPV4_MAX_FRAG_DATAGRAM_SIZE then none
  else if f.headerLength > (frag.buffer.chunk.head?.map ChunkDesc.size).getD 0 then none
  else
    -- always take the IP header from the first fragment
    some { frag with
      unfragPartLength := f.headerLength
      buffer := netBufferWrite (setFirstChunk e frag.buffer f.headerLength) 0 f.header }

/-- The buffer is made larger where the fragment needs it; `none` when the datagram is dropped. -/
def ipv4GrowFrag (e : Env) (dataLast : Nat) (frag : Ipv4FragDesc) : Env × Option Ipv4FragDesc :=
  if dataLast > frag.fragPartLength then
    if frag.unfragPartLength + dataLast > IPV4_MAX_FRAG_DATAGRAM_SIZE then (e, none)
    else
      match netBufferSetLength e frag.buffer
          (frag.unfragPartLength + dataLast + sizeofIpv4HoleDesc) with
      | (e', b, .NO_ERROR) => (e', some { frag with buffer := b, fragPartLength := dataLast })
      | (e', _, _) => (e', none)
  else (e, some frag)

/-- The data of the fragment is copied to the reassembly buffer. -/
def ipv4CopyData (f : Ipv4Fragment) (frag : Ipv4FragDesc) : Ipv4FragDesc :=
  { frag with buffer := netBufferWrite frag.buffer (frag.unfragPartLength + f.dataFirst) f.data }

/-- The end of reassembly: the IP header is fixed. `none` when the buffer cannot be cut. -/
def ipv4CompleteFrag (e : Env) (frag : Ipv4FragDesc) : Env × Option NetBuffer :=
  match netBufferSetLength e frag.buffer (frag.unfragPartLength + frag.fragPartLength) with
  | (e', b, .NO_ERROR) =>
    let b := netBufferWrite b 2 (be16 (frag.unfragPartLength + frag.fragPartLength))
    let b := netBufferWrite b 6 [0, 0]
    (e', some (netBufferWrite b 10 [0, 0]))
  | (e', _, _) => (e', none)

/-- `ipv4ReassembleDatagram`: the datagram that is passed to `ipv4ProcessDatagram`. `none` when the
loop over the holes does not end. -/
def ipv4ReassembleDatagram (be : Bool) (e : Env) (q : List Ipv4FragDesc) (f : Ipv4Fragment) :
    Option (Env × List Ipv4FragDesc × Option NetBuffer) :=
  if f.moreFlag = true ∧ f.length % 8 ≠ 0 then some (e, q, none)
  else
    match ipv4SearchFragQueue be e q f with
    | (e, q, none) => some (e, q, none)
    | (e, q, some i) =>
      let frag := q.getD i {}
      match if f.dataFirst = 0 then ipv4FirstFragment e f frag else some frag with
      | none => some (e, q.set i frag.drop, none)
      | some frag =>
        match ipv4GrowFrag e f.dataLast frag with
        | (e, none) => some (e, q.set i frag.drop, none)
        | (e, some frag) =>
          match ipv4HoleLoop be f.moreFlag f.dataFirst f.dataLast holeTurns frag none with
          | none => none
          | some frag =>
            let frag := ipv4CopyData f frag
            if (ipv4FindHole frag frag.firstHole).isSome then some (e, q.set i frag, none)
            else
              match ipv4CompleteFrag e frag with
              | (e, datagram) => some (e, q.set i frag.drop, datagram)

/-- `ipv4FragTick`: the entries whose time is up are dropped. -/
def ipv4FragTick (time : Word) (q : List Ipv4FragDesc) : List Ipv4FragDesc :=
  q.map fun frag =>
    if frag.inUse ∧ time - frag.timestamp ≥ IPV4_FRAG_TIME_TO_LIVE then frag.drop else frag

/-- `ipv4FlushFragQueue`. -/
def ipv4FlushFragQueue (q : List Ipv4FragDesc) : List Ipv4FragDesc := q.map Ipv6FragDesc.drop

end Cyclone
