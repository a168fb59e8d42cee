import Cyclone.Udp

/-!
# Cyclone.Ipv6Frag

Reassembly of IPv6 datagrams (`ipv6_frag.c`), with `IPV6_OVERLAPPING_FRAG_SUPPORT` disabled.

An entry of the queue keeps the hole descriptors in its buffer: the descriptor of the hole that
starts at position `p` of the fragmentable part occupies the first six bytes of the hole. A field
is read and written through its position in the buffer; positions are multiples of eight, and so
are the sizes of the chunks behind the first one, so that no descriptor crosses a chunk.

`ipv6ParseFragmentHeader` ends with the slot whose datagram is handed to `ipv6ProcessPacket`;
`ipv6ReleaseFrag` is what it does when that call returns.
-/

namespace Cyclone

open NetBuffer Serial

def IPV6_MAX_FRAG_DATAGRAMS : Nat := 4
def IPV6_MAX_FRAG_DATAGRAM_SIZE : Nat := 8192
def IPV6_FRAG_TIME_TO_LIVE : Word := 15000
def IPV6_INFINITY : Nat := 0xFFFF

def sizeofIpv6Header : Nat := 40
def sizeofIpv6FragmentHeader : Nat := 8
def sizeofIpv6HoleDesc : Nat := 6

/-- The size of the chunk array of `Ipv6ReassemblyBuffer`. -/
def ipv6ReassemblyChunks : Nat :=
  (IPV6_MAX_FRAG_DATAGRAM_SIZE + NET_MEM_POOL_BUFFER_SIZE - 1) / NET_MEM_POOL_BUFFER_SIZE + 1

structure Ipv6FragDesc where
  timestamp : Word := 0
  identification : List UInt8 := []
  unfragPartLength : Nat := 0
  fragPartLength : Nat := 0
  firstHole : Nat := 0
  buffer : NetBuffer := {}
  deriving DecidableEq

namespace Ipv6FragDesc

def inUse (frag : Ipv6FragDesc) : Bool := 0 < frag.buffer.chunkCount

/-- `netBufferSetLength(&frag->buffer, 0)`. -/
def drop (frag : Ipv6FragDesc) : Ipv6FragDesc := { frag with buffer.chunk := [] }

/-- Two bytes of the fragmentable part, in the byte order of the processor. -/
def load (be : Bool) (frag : Ipv6FragDesc) (pos : Nat) : Nat :=
  let field := netBufferRead frag.buffer (frag.unfragPartLength + pos) 2
  load16 be (field.getD 0 0) (field.getD 1 0)

def store (be : Bool) (frag : Ipv6FragDesc) (pos n : Nat) : Ipv6FragDesc :=
  { frag with buffer := netBufferWrite frag.buffer (frag.unfragPartLength + pos) (store16 be n) }

/-- `hole->last`, for the hole at `p`. -/
def holeLast (be : Bool) (frag : Ipv6FragDesc) (p : Nat) : Nat := frag.load be (p + 2)

/-- `prevHole ? prevHole->next : frag->firstHole`. -/
def next (be : Bool) (frag : Ipv6FragDesc) : Option Nat → Nat
  | none => frag.firstHole
  | some p => frag.load be (p + 4)

def setNext (be : Bool) (frag : Ipv6FragDesc) : Option Nat → Nat → Ipv6FragDesc
  | none, v => { frag with firstHole := v }
  | some p, v => frag.store be (p + 4) v

end Ipv6FragDesc

/-- `ipv6FindHole`: the position of the descriptor, `none` for `NULL`. -/
def ipv6FindHole (frag : Ipv6FragDesc) (offset : Nat) : Option Nat :=
  (netBufferAt frag.buffer (frag.unfragPartLength + offset)).map fun _ => offset

/-! ## The queue -/

/-- Whether an entry belongs to the datagram of a packet. -/
def ipv6FragMatches (packet header : List UInt8) (frag : Ipv6FragDesc) : Bool :=
  frag.inUse &&
    (netBufferRead frag.buffer 8 16 == (packet.drop 8).take 16) &&
    (netBufferRead frag.buffer 24 16 == (packet.drop 24).take 16) &&
    (frag.identification == (header.drop 4).take 4)

/-- `frag->buffer.chunk[0].length = n`. -/
def setFirstChunk (e : Env) (b : NetBuffer) (n : Nat) : NetBuffer :=
  { b with chunk := b.chunk.modify 0 fun ch => ch.resize e n }

/-- The entry that describes a datagram as being completely missing. -/
def ipv6CreateFrag (be : Bool) (e : Env) (packet header : List UInt8) (frag : Ipv6FragDesc)
    (b : NetBuffer) : Ipv6FragDesc :=
  let frag := { frag with
    buffer := netBufferWrite (setFirstChunk e b sizeofIpv6Header) 0 (packet.take sizeofIpv6Header)
    unfragPartLength := sizeofIpv6Header
    fragPartLength := 0
    timestamp := osGetSystemTime e
    identification := (header.drop 4).take 4
    firstHole := 0 }
  ((frag.store be 0 0).store be 2 IPV6_INFINITY).store be 4 IPV6_INFINITY

/-- `ipv6SearchFragQueue`: the queue, and the slot of the entry. -/
def ipv6SearchFragQueue (be : Bool) (e : Env) (q : List Ipv6FragDesc)
    (packet header : List UInt8) : Env × List Ipv6FragDesc × Option Nat :=
  match q.findIdx? (ipv6FragMatches packet header) with
  | some i => (e, q, some i)
  | none =>
    match q.findIdx? fun frag => !frag.inUse with
    | none => (e, q, none)
    | some i =>
      let frag := q.getD i {}
      let (e', b, error) := netBufferSetLength e
        { frag.buffer with maxChunkCount := ipv6ReassemblyChunks }
        (NET_MEM_POOL_BUFFER_SIZE + sizeofIpv6HoleDesc)
      if error ≠ .NO_ERROR then (e', q.set i { frag with buffer := b }.drop, none)
      else (e', q.set i (ipv6CreateFrag be e' packet header frag b), some i)

/-! ## The holes -/

/-- A new entry behind `prevHole`; `none` where the descriptor would lie behind the buffer. -/
def insertHole (be : Bool) (frag : Ipv6FragDesc) (prevHole : Option Nat) (first last : Nat) :
    Option (Ipv6FragDesc × Option Nat) :=
  (ipv6FindHole frag first).map fun hole =>
    let frag := (frag.store be hole first).store be (hole + 2) last
    let frag := frag.store be (hole + 4) (frag.next be prevHole)
    (frag.setNext be prevHole (frag.load be hole), some hole)

/-- What the fragment leaves of the hole it interacts with. -/
def splitHole (be moreFlag : Bool) (dataFirst dataLast : Nat) (frag : Ipv6FragDesc)
    (prevHole : Option Nat) (holeFirst holeLast : Nat) : Option (Ipv6FragDesc × Option Nat) :=
  (if dataFirst > holeFirst then insertHole be frag prevHole holeFirst dataFirst
    else some (frag, prevHole)).bind fun r =>
    if dataLast < holeLast ∧ moreFlag then insertHole be r.1 r.2 dataLast holeLast else some r

/-- The loop over the hole descriptors. `none` while it has not ended within `fuel` turns, and
where it writes through a null pointer; `none` in place of the entry when it is dropped. -/
def holeLoop (be moreFlag : Bool) (dataFirst dataLast : Nat) :
    Nat → Ipv6FragDesc → Option Nat → Option (Option Ipv6FragDesc)
  | 0, _, _ => none
  | fuel + 1, frag, prevHole =>
    match ipv6FindHole frag (frag.next be prevHole) with
    | none => some (some frag)
    | some hole =>
      let holeFirst := frag.load be hole
      let holeLast := frag.holeLast be hole
      if dataFirst < holeLast ∧ dataLast > holeFirst then
        if dataFirst < holeFirst ∨ dataLast > holeLast then some none
        else
          let frag := frag.setNext be prevHole (frag.next be (some hole))
          match splitHole be moreFlag dataFirst dataLast frag prevHole holeFirst holeLast with
          | none => none
          | some (frag, prevHole) => holeLoop be moreFlag dataFirst dataLast fuel frag prevHole
      else holeLoop be moreFlag dataFirst dataLast fuel frag (some hole)

/-! ## Fragments -/

/-- A fragment as `ipv6ProcessPacket` hands it over; `behind` lies behind the chunk of a header. -/
structure Ipv6Fragment where
  ipPacket : NetBuffer
  ipPacketOffset : Nat
  fragHeaderOffset : Nat
  nextHeaderOffset : Nat
  behind : List UInt8 := []

namespace Ipv6Fragment

variable (pkt : Ipv6Fragment)

def ipHeader : List UInt8 := (peekAt pkt.behind pkt.ipPacket pkt.ipPacketOffset).getD []

def fragHeader : List UInt8 := (peekAt pkt.behind pkt.ipPacket pkt.fragHeaderOffset).getD []

/-- The length of the data. -/
def length : Nat :=
  netBufferGetLength pkt.ipPacket - pkt.fragHeaderOffset - sizeofIpv6FragmentHeader

def offset : Nat := (be16At pkt.fragHeader 2).toNat

/-- `offset & IPV6_FLAG_M`. -/
def moreFlag : Bool := pkt.offset % 2 == 1

/-- `offset & IPV6_OFFSET_MASK`. -/
def dataFirst : Nat := pkt.offset / 8 * 8

def dataLast : Nat := u16 (pkt.dataFirst + u16 pkt.length)

/-- The checks made before the queue is searched: the headers are there, and every fragment
except the last contains a multiple of 8 bytes of data. -/
def valid : Bool :=
  decide (sizeofIpv6FragmentHeader ≤ netBufferGetLength pkt.ipPacket - pkt.fragHeaderOffset) &&
    (netBufferAt pkt.ipPacket pkt.ipPacketOffset).isSome &&
    (netBufferAt pkt.ipPacket pkt.fragHeaderOffset).isSome &&
    !(pkt.moreFlag && pkt.length % 8 != 0)

end Ipv6Fragment

/-- The special handling of the very first fragment; `none` when the datagram is dropped. -/
def ipv6FirstFragment (e : Env) (pkt : Ipv6Fragment) (frag : Ipv6FragDesc) :
    Option Ipv6FragDesc :=
  let unfragPartLength := pkt.fragHeaderOffset - pkt.ipPacketOffset
  if unfragPartLength + frag.fragPartLength > IPV6_MAX_FRAG_DATAGRAM_SIZE then none
  else if unfragPartLength > (frag.buffer.chunk.head?.map ChunkDesc.size).getD 0 then none
  else
    let b := setFirstChunk e frag.buffer unfragPartLength
    let b := (netBufferCopy b 0 pkt.ipPacket pkt.ipPacketOffset unfragPartLength).1
    let nextHeader := pkt.fragHeader.getD 0 0
    let b := match netBufferAt b (pkt.nextHeaderOffset - pkt.ipPacketOffset) with
      | some pos => storeAt b pos nextHeader
      | none => b
    some { frag with unfragPartLength, buffer := b }

/-- The buffer is made larger where the fragment needs it; `none` when the datagram is dropped. -/
def ipv6GrowFrag (e : Env) (dataLast : Nat) (frag : Ipv6FragDesc) : Env × Option Ipv6FragDesc :=
  if dataLast > frag.fragPartLength then
    if frag.unfragPartLength + dataLast > IPV6_MAX_FRAG_DATAGRAM_SIZE then (e, none)
    else
      match netBufferSetLength e frag.buffer
          (frag.unfragPartLength + dataLast + sizeofIpv6HoleDesc) with
      | (e', b, .NO_ERROR) => (e', some { frag with buffer := b, fragPartLength := dataLast })
      | (e', _, _) => (e', none)
  else (e, some frag)

/-- The data of the fragment is copied to the reassembly buffer. -/
def copyFragment (pkt : Ipv6Fragment) (frag : Ipv6FragDesc) : Ipv6FragDesc :=
  { frag with
    buffer := (netBufferCopy frag.buffer (frag.unfragPartLength + pkt.dataFirst)
      pkt.ipPacket (pkt.fragHeaderOffset + sizeofIpv6FragmentHeader) pkt.length).1 }

/-- The end of reassembly: the payload length is fixed. `none` when the buffer cannot be cut. -/
def ipv6CompleteFrag (e : Env) (frag : Ipv6FragDesc) : Env × Option Ipv6FragDesc :=
  match netBufferSetLength e frag.buffer (frag.unfragPartLength + frag.fragPartLength) with
  | (e', b, .NO_ERROR) =>
    let payloadLen := u16 (frag.unfragPartLength + frag.fragPartLength - sizeofIpv6Header)
    (e', some { frag with buffer := netBufferWrite b 4 (be16 payloadLen) })
  | (e', _, _) => (e', none)

/-- More turns than a list of holes has descriptors: links are 16 bits wide. -/
def holeTurns : Nat := 65536

/-- `ipv6ParseFragmentHeader` up to the delivery: the slot that is passed to `ipv6ProcessPacket`.
`none` when the loop over the holes does not end. -/
def ipv6ParseFragmentHeader (be : Bool) (e : Env) (q : List Ipv6FragDesc) (pkt : Ipv6Fragment) :
    Option (Env × List Ipv6FragDesc × Option Nat) :=
  if !pkt.valid then some (e, q, none)
  else
    match ipv6SearchFragQueue be e q pkt.ipHeader pkt.fragHeader with
    | (e, q, none) => some (e, q, none)
    | (e, q, some i) =>
      let frag := q.getD i {}
      match if pkt.dataFirst = 0 then ipv6FirstFragment e pkt frag else some frag with
      | none => some (e, q.set i frag.drop, none)
      | some frag =>
        match ipv6GrowFrag e pkt.dataLast frag with
        | (e, none) => some (e, q.set i frag.drop, none)
        | (e, some frag) =>
          match holeLoop be pkt.moreFlag pkt.dataFirst pkt.dataLast holeTurns frag none with
          | none => none
          | some none => some (e, q.set i frag.drop, none)
          | some (some frag) =>
            let frag := copyFragment pkt frag
            if (ipv6FindHole frag frag.firstHole).isSome then some (e, q.set i frag, none)
            else
              match ipv6CompleteFrag e frag with
              | (e, none) => some (e, q.set i frag.drop, none)
              | (e, some frag) => some (e, q.set i frag, some i)

/-- The delivery of the datagram has returned. -/
def ipv6ReleaseFrag (q : List Ipv6FragDesc) (i : Nat) : List Ipv6FragDesc :=
  q.modify i Ipv6FragDesc.drop

/-- `ipv6FragTick`: the entries whose time is up are dropped. -/
def ipv6FragTick (time : Word) (q : List Ipv6FragDesc) : List Ipv6FragDesc :=
  q.map fun frag =>
    if frag.inUse ∧ time - frag.timestamp ≥ IPV6_FRAG_TIME_TO_LIVE then frag.drop else frag

/-- `ipv6FlushFragQueue`. -/
def ipv6FlushFragQueue (q : List Ipv6FragDesc) : List Ipv6FragDesc := q.map Ipv6FragDesc.drop

end Cyclone
