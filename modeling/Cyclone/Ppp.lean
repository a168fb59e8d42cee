import Cyclone.Udp

/-!
# Cyclone.Ppp

PPP frames (`ppp.c`) and the HDLC driver (`ppp_hdlc.c`).

* `pppSendFrame`, `pppProcessFrame`: a frame is a compressible header, the payload and the FCS.
* `pppHdlcDriverSendPacket` writes the frame to the TX queue, with octet stuffing, between two flags.
* `PppLink`: a sender and a receiver joined by a byte stream. The interrupt handlers move one
  character at a time, and may come between any two steps of `pppHdlcDriverEventHandler`.
-/

namespace Cyclone

open NetBuffer Serial

def PPP_MASK_CHAR : UInt8 := 0x20
def PPP_ESC_CHAR : UInt8 := 0x7D
def PPP_FLAG_CHAR : UInt8 := 0x7E
def PPP_ADDR_FIELD : UInt8 := 0xFF
def PPP_CTRL_FIELD : UInt8 := 0x03
def PPP_DEFAULT_ACCM : Word := 0xFFFFFFFF
def PPP_MAX_MRU : Nat := 1500
def PPP_FRAME_HEADER_SIZE : Nat := 4
def PPP_FCS_SIZE : Nat := 2
def PPP_MAX_FRAME_SIZE : Nat := PPP_FRAME_HEADER_SIZE + PPP_MAX_MRU + PPP_FCS_SIZE

/-- The Protocol field values that `pppProcessFrame` handles. -/
inductive PppProtocol where
  | IP | IPV6 | IPCP | IPV6CP | LCP | PAP | CHAP
  deriving DecidableEq, Repr

/-- The most significant byte of the field. -/
def PppProtocol.msb : PppProtocol → UInt8
  | IP => 0x00 | IPV6 => 0x00 | IPCP => 0x80 | IPV6CP => 0x80 | LCP => 0xC0 | PAP => 0xC0
  | CHAP => 0xC2

def PppProtocol.lsb : PppProtocol → UInt8
  | IP => 0x21 | IPV6 => 0x57 | IPCP => 0x21 | IPV6CP => 0x57 | LCP => 0x21 | PAP => 0x23
  | CHAP => 0x23

def PppProtocol.value (p : PppProtocol) : Nat := p.msb.toNat * 256 + p.lsb.toNat

/-! ## Frame check sequence -/

def fcsTable : List (BitVec 16) :=
  [0x0000, 0x1189, 0x2312, 0x329B, 0x4624, 0x57AD, 0x6536, 0x74BF,
   0x8C48, 0x9DC1, 0xAF5A, 0xBED3, 0xCA6C, 0xDBE5, 0xE97E, 0xF8F7,
   0x1081, 0x0108, 0x3393, 0x221A, 0x56A5, 0x472C, 0x75B7, 0x643E,
   0x9CC9, 0x8D40, 0xBFDB, 0xAE52, 0xDAED, 0xCB64, 0xF9FF, 0xE876,
   0x2102, 0x308B, 0x0210, 0x1399, 0x6726, 0x76AF, 0x4434, 0x55BD,
   0xAD4A, 0xBCC3, 0x8E58, 0x9FD1, 0xEB6E, 0xFAE7, 0xC87C, 0xD9F5,
   0x3183, 0x200A, 0x1291, 0x0318, 0x77A7, 0x662E, 0x54B5, 0x453C,
   0xBDCB, 0xAC42, 0x9ED9, 0x8F50, 0xFBEF, 0xEA66, 0xD8FD, 0xC974,
   0x4204, 0x538D, 0x6116, 0x709F, 0x0420, 0x15A9, 0x2732, 0x36BB,
   0xCE4C, 0xDFC5, 0xED5E, 0xFCD7, 0x8868, 0x99E1, 0xAB7A, 0xBAF3,
   0x5285, 0x430C, 0x7197, 0x601E, 0x14A1, 0x0528, 0x37B3, 0x263A,
   0xDECD, 0xCF44, 0xFDDF, 0xEC56, 0x98E9, 0x8960, 0xBBFB, 0xAA72,
   0x6306, 0x728F, 0x4014, 0x519D, 0x2522, 0x34AB, 0x0630, 0x17B9,
   0xEF4E, 0xFEC7, 0xCC5C, 0xDDD5, 0xA96A, 0xB8E3, 0x8A78, 0x9BF1,
   0x7387, 0x620E, 0x5095, 0x411C, 0x35A3, 0x242A, 0x16B1, 0x0738,
   0xFFCF, 0xEE46, 0xDCDD, 0xCD54, 0xB9EB, 0xA862, 0x9AF9, 0x8B70,
   0x8408, 0x9581, 0xA71A, 0xB693, 0xC22C, 0xD3A5, 0xE13E, 0xF0B7,
   0x0840, 0x19C9, 0x2B52, 0x3ADB, 0x4E64, 0x5FED, 0x6D76, 0x7CFF,
   0x9489, 0x8500, 0xB79B, 0xA612, 0xD2AD, 0xC324, 0xF1BF, 0xE036,
   0x18C1, 0x0948, 0x3BD3, 0x2A5A, 0x5EE5, 0x4F6C, 0x7DF7, 0x6C7E,
   0xA50A, 0xB483, 0x8618, 0x9791, 0xE32E, 0xF2A7, 0xC03C, 0xD1B5,
   0x2942, 0x38CB, 0x0A50, 0x1BD9, 0x6F66, 0x7EEF, 0x4C74, 0x5DFD,
   0xB58B, 0xA402, 0x9699, 0x8710, 0xF3AF, 0xE226, 0xD0BD, 0xC134,
   0x39C3, 0x284A, 0x1AD1, 0x0B58, 0x7FE7, 0x6E6E, 0x5CF5, 0x4D7C,
   0xC60C, 0xD785, 0xE51E, 0xF497, 0x8028, 0x91A1, 0xA33A, 0xB2B3,
   0x4A44, 0x5BCD, 0x6956, 0x78DF, 0x0C60, 0x1DE9, 0x2F72, 0x3EFB,
   0xD68D, 0xC704, 0xF59F, 0xE416, 0x90A9, 0x8120, 0xB3BB, 0xA232,
   0x5AC5, 0x4B4C, 0x79D7, 0x685E, 0x1CE1, 0x0D68, 0x3FF3, 0x2E7A,
   0xE70E, 0xF687, 0xC41C, 0xD595, 0xA12A, 0xB0A3, 0x8238, 0x93B1,
   0x6B46, 0x7ACF, 0x4854, 0x59DD, 0x2D62, 0x3CEB, 0x0E70, 0x1FF9,
   0xF78F, 0xE606, 0xD49D, 0xC514, 0xB1AB, 0xA022, 0x92B9, 0x8330,
   0x7BC7, 0x6A4E, 0x58D5, 0x495C, 0x3DE3, 0x2C6A, 0x1EF1, 0x0F78]

/-- The message is processed byte by byte. -/
def fcsStep (fcs : BitVec 16) (c : UInt8) : BitVec 16 :=
  (fcs >>> 8) ^^^ fcsTable.getD ((fcs &&& 0xFF) ^^^ c.toBitVec.setWidth 16).toNat 0

def pppCalcFcs (data : List UInt8) : BitVec 16 := ~~~(data.foldl fcsStep 0xFFFF)

/-- The loop of `pppCalcFcsEx` over the chunks. -/
def fcsChunks : BitVec 16 → List ChunkDesc → Nat → Nat → BitVec 16
  | fcs, [], _, _ => fcs
  | fcs, ch :: rest, offset, length =>
    if length = 0 then fcs
    else if offset < ch.length then
      let n := min (ch.length - offset) length
      fcsChunks (((ch.data.drop offset).take n).foldl fcsStep fcs) rest 0 (length - n)
    else fcsChunks fcs rest (offset - ch.length) length

def pppCalcFcsEx (buffer : NetBuffer) (offset length : Nat) : BitVec 16 :=
  ~~~(fcsChunks 0xFFFF buffer.chunk offset length)

/-! ## Frames -/

/-- `pppParseFrameHeader`: the size of the header, zero when it is malformed, and the Protocol
field. -/
def pppParseFrameHeader (frame : List UInt8) (length : Nat) : Nat × Nat :=
  let n := if 2 ≤ length ∧ frame.getD 0 0 = PPP_ADDR_FIELD ∧ frame.getD 1 0 = PPP_CTRL_FIELD then 2
    else 0
  if n + 1 ≤ length then
    if (frame.getD n 0).toNat % 2 = 1 then (n + 1, (frame.getD n 0).toNat)
    else if n + 2 ≤ length then
      (n + 2, (frame.getD n 0).toNat * 256 + (frame.getD (n + 1) 0).toNat)
    else (0, 0)
  else (0, 0)

/-- The options the peer has agreed to. -/
structure PppConfig where
  accm : Word := PPP_DEFAULT_ACCM
  pfc : Bool := false
  acfc : Bool := false

/-- `pppSendFrame` up to `nicSendPacket`: the buffer that is sent and the offset of the frame. -/
def pppSendFrame (peerConfig : PppConfig) (buffer : NetBuffer) (offset : Nat)
    (protocol : PppProtocol) : Option (NetBuffer × Nat) :=
  let field := if peerConfig.pfc ∧ protocol.msb = 0 then [protocol.lsb]
    else [protocol.msb, protocol.lsb]
  if offset < field.length then none
  else
    let offset := offset - field.length
    let buffer := netBufferWrite buffer offset field
    let framed := if peerConfig.acfc ∧ protocol ≠ .LCP then some (buffer, offset)
      else if offset < 2 then none
      else some (netBufferWrite buffer (offset - 2) [PPP_ADDR_FIELD, PPP_CTRL_FIELD], offset - 2)
    match framed with
    | none => none
    | some (buffer, offset) =>
      let length := netBufferGetLength buffer - offset
      let fcs := pppCalcFcsEx buffer offset length
      -- the FCS is transmitted least significant octet first
      match netBufferAppend buffer [UInt8.ofBitVec (fcs.setWidth 8),
          UInt8.ofBitVec ((fcs >>> 8).setWidth 8)] with
      | (buffer, .NO_ERROR) => some (buffer, offset)
      | _ => none

/-- `pppProcessFrame`: the Protocol field and the payload that are passed on; `none` when the frame
is dropped. -/
def pppProcessFrame (frame : List UInt8) : Option (Nat × List UInt8) :=
  if frame.length < PPP_FCS_SIZE then none
  -- the value of the residue when no FCS errors are detected
  else if pppCalcFcs frame ≠ 0x0F47 then none
  else
    let length := frame.length - PPP_FCS_SIZE
    let (n, protocol) := pppParseFrameHeader frame length
    if n = 0 then none else some (protocol, (frame.drop n).take (length - n))

/-! ## Octet stuffing -/

/-- `accm & (1 << c)`. -/
def flagged (accm : Word) (c : UInt8) : Bool := accm.getLsbD c.toNat

/-- The characters written for one character of the frame. -/
def stuffChar (accm : Word) (c : UInt8) : List UInt8 :=
  if c < PPP_MASK_CHAR then
    if flagged accm c then [PPP_ESC_CHAR, c ^^^ PPP_MASK_CHAR] else [c]
  else if c = PPP_ESC_CHAR ∨ c = PPP_FLAG_CHAR then [PPP_ESC_CHAR, c ^^^ PPP_MASK_CHAR]
  else [c]

/-- The loop of `pppHdlcDriverSendPacket` over the chunks. -/
def stuffChunks (accm : Word) : List ChunkDesc → Nat → List UInt8
  | [], _ => []
  | ch :: rest, offset =>
    if offset < ch.length then
      (ch.data.drop offset).flatMap (stuffChar accm) ++ stuffChunks accm rest 0
    else stuffChunks accm rest (offset - ch.length)

/-- The map that `pppHdlcDriverSendPacket` uses for a frame. -/
def txAccm (peerConfig : PppConfig) (p : List UInt8) : Word :=
  let protocol := (pppParseFrameHeader p PPP_FRAME_HEADER_SIZE).2
  if protocol = PppProtocol.IP.value ∨ protocol = PppProtocol.IPV6.value then peerConfig.accm
  else PPP_DEFAULT_ACCM

/-- The characters that `pppHdlcDriverSendPacket` writes to the TX queue. `behind` lies behind the
first chunk of the frame. -/
def pppHdlcDriverSendPacket (behind : List UInt8) (peerConfig : PppConfig) (buffer : NetBuffer)
    (offset : Nat) : List UInt8 :=
  let accm := txAccm peerConfig ((peekAt behind buffer offset).getD [])
  [PPP_FLAG_CHAR] ++ stuffChunks accm buffer.chunk offset ++ [PPP_FLAG_CHAR]

/-! ## Queues -/

/-- A queue of characters in a ring buffer. -/
structure HdlcQueue where
  buffer : List UInt8
  readIndex : Nat := 0
  writeIndex : Nat := 0
  length : Nat := 0

namespace HdlcQueue

def size (q : HdlcQueue) : Nat := q.buffer.length

/-- `if(++index >= SIZE) index = 0`. -/
def wrap (size index : Nat) : Nat := if index + 1 ≥ size then 0 else index + 1

def write (q : HdlcQueue) (c : UInt8) : HdlcQueue :=
  { q with
    buffer := q.buffer.set q.writeIndex c
    writeIndex := wrap q.size q.writeIndex
    length := q.length + 1 }

def read (q : HdlcQueue) : UInt8 × HdlcQueue :=
  (q.buffer.getD q.readIndex 0,
    { q with readIndex := wrap q.size q.readIndex, length := q.length - 1 })

end HdlcQueue

/-! ## The link -/

/-- Where `pppHdlcDriverEventHandler` is: not running, in the loop of
`pppHdlcDriverReceivePacket`, or behind the call of it. -/
inductive HdlcHandler where
  | idle
  | reading (frame : List UInt8) (escFlag : Bool)
  | returned
  deriving DecidableEq, Repr

/-- A packet given to `pppSendFrame`. -/
structure PppPacketSent where
  peerConfig : PppConfig
  buffer : NetBuffer
  offset : Nat
  protocol : PppProtocol
  /-- What lies behind the first chunk of the frame. -/
  behind : List UInt8 := []

namespace PppPacketSent

/-- The Protocol field, compressed when the peer accepts it. -/
def field (p : PppPacketSent) : List UInt8 :=
  if p.peerConfig.pfc ∧ p.protocol.msb = 0 then [p.protocol.lsb]
  else [p.protocol.msb, p.protocol.lsb]

/-- The Address and Control fields, unless they are omitted. -/
def addressControl (p : PppPacketSent) : List UInt8 :=
  if p.peerConfig.acfc ∧ p.protocol ≠ .LCP then [] else [PPP_ADDR_FIELD, PPP_CTRL_FIELD]

def header (p : PppPacketSent) : List UInt8 := p.addressControl ++ p.field

def payload (p : PppPacketSent) : List UInt8 := p.buffer.bytes.drop p.offset

/-- The length of the frame, with its FCS. -/
def frameLength (p : PppPacketSent) : Nat := p.header.length + p.payload.length + PPP_FCS_SIZE

/-- The frame handed to the driver. -/
def frame (p : PppPacketSent) : List UInt8 :=
  ((pppSendFrame p.peerConfig p.buffer p.offset p.protocol).map fun r =>
    r.1.bytes.drop r.2).getD []

end PppPacketSent

structure PppLink where
  /-- What `pppHdlcDriverSendPacket` has yet to write to the TX queue. -/
  pending : List UInt8 := []
  tx : HdlcQueue
  wire : List UInt8 := []
  rx : HdlcQueue
  rxFrameCount : Nat := 0
  /-- `localConfig.accm` of the receiver. -/
  accm : Word
  handler : HdlcHandler := .idle
  /-- The packets for which `pppSendFrame` has returned `NO_ERROR`. -/
  sent : List PppPacketSent := []
  /-- The frames that `pppProcessFrame` has been called with. -/
  processed : List (List UInt8) := []

/-- Both sides have just been initialized. -/
def PppLink.start (txSize rxSize : Nat) (accm : Word) : PppLink :=
  { tx := ⟨List.replicate txSize 0, 0, 0, 0⟩, rx := ⟨List.replicate rxSize 0, 0, 0, 0⟩, accm }

/-- One turn of the loop of `pppHdlcDriverReceivePacket`, on the character that was read. `none`
when a flag ends the loop. -/
def receiveChar (accm : Word) (frame : List UInt8) (escFlag : Bool) (c : UInt8) :
    Option (List UInt8 × Bool) :=
  if c < PPP_MASK_CHAR then
    if flagged accm c then some (frame, escFlag) else some (frame ++ [c], escFlag)
  else if c = PPP_ESC_CHAR then some (frame, true)
  else if c = PPP_FLAG_CHAR then none
  else if escFlag then some (frame ++ [c ^^^ PPP_MASK_CHAR], false)
  else some (frame ++ [c], escFlag)

/-- The end of `pppHdlcDriverReceivePacket`. -/
def PppLink.finish (l : PppLink) (frame : List UInt8) : PppLink :=
  { l with
    handler := .returned
    processed := if frame.length > 0 then l.processed ++ [frame] else l.processed }

/-- A step of `pppHdlcDriverEventHandler`. -/
def PppLink.handle (l : PppLink) : PppLink :=
  match l.handler with
  | .idle => if l.rxFrameCount > 0 then { l with handler := .reading [] false } else l
  | .reading frame escFlag =>
    if frame.length < PPP_MAX_FRAME_SIZE ∧ l.rx.length > 0 then
      let (c, rx) := l.rx.read
      match receiveChar l.accm frame escFlag c with
      | none => { l with rx }.finish frame
      | some (frame, escFlag) => { l with rx, handler := .reading frame escFlag }
    else l.finish frame
  | .returned => { l with rxFrameCount := l.rxFrameCount - 1, handler := .idle }

/-- `pppHdlcDriverWriteRxQueue`. -/
def PppLink.writeRxQueue (l : PppLink) (c : UInt8) : PppLink :=
  if l.rx.length < l.rx.size then
    { l with
      rx := l.rx.write c
      rxFrameCount := if c = PPP_FLAG_CHAR then l.rxFrameCount + 1 else l.rxFrameCount }
  else l

inductive PppEvent where
  /-- `pppSendFrame` is called; its characters wait to be written. -/
  | send (p : PppPacketSent)
  /-- `pppHdlcDriverWriteTxQueue`. -/
  | put
  /-- `pppHdlcDriverReadTxQueue`. -/
  | transmit
  /-- A character arrives. -/
  | receive
  | handler

def PppLink.step (l : PppLink) : PppEvent → PppLink
  | .send p =>
    if l.pending = [] then
      match pppSendFrame p.peerConfig p.buffer p.offset p.protocol with
      | none => l
      | some (buffer, offset) =>
        { l with
          pending := pppHdlcDriverSendPacket p.behind p.peerConfig buffer offset
          sent := l.sent ++ [p] }
    else l
  | .put =>
    match l.pending with
    | [] => l
    | c :: pending => { l with pending, tx := l.tx.write c }
  | .transmit =>
    if l.tx.length > 0 then { l with tx := l.tx.read.2, wire := l.wire ++ [l.tx.read.1] } else l
  | .receive =>
    match l.wire with
    | [] => l
    | c :: wire => { l with wire }.writeRxQueue c
  | .handler => l.handle

end Cyclone
