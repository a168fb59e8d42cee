import Cyclone.Types
import Cyclone.Lib.Moves

/-!
# Cyclone.Coap

The options of a CoAP message: `coapParseMessageHeader` (`coap_message.c`), `coapParseOption`,
`coapFormatOption`, `coapParseOptions`, `coapSetOption`, `coapSetUintOption`, `coapGetOption` and
`coapDeleteOption` (`coap_option.c`). Its payload: `coapSetPayload` and `coapWritePayload`
(`coap_message.c`).

A message is its buffer, which has always the same size, and the number of bytes in use. A pointer
into the buffer is an index. The options are read and moved in place.
-/

namespace Cyclone

open Ring

def COAP_MAX_MSG_SIZE : Nat := 1152
def COAP_VERSION_1 : Nat := 1
def COAP_MAX_TOKEN_LEN : Nat := 8
def COAP_PAYLOAD_MARKER : UInt8 := 0xFF
def COAP_OPT_8_BITS : Nat := 13
def COAP_OPT_16_BITS : Nat := 14
def COAP_OPT_RESERVED : Nat := 15
def COAP_OPT_MINUS_8_BITS : Nat := 13
def COAP_OPT_MINUS_16_BITS : Nat := 269
def sizeofCoapMessageHeader : Nat := 4

inductive CoapError where
  | NO_ERROR
  | INVALID_HEADER
  | INVALID_VERSION
  | INVALID_MESSAGE
  | BUFFER_UNDERFLOW
  | BUFFER_OVERFLOW
  | NOT_FOUND
  deriving DecidableEq, Repr

structure CoapMessage where
  buffer : List UInt8
  length : Nat
  deriving DecidableEq, Repr

/-- The bytes in use. -/
def CoapMessage.bytes (message : CoapMessage) : List UInt8 := message.buffer.take message.length

/-- Where the value of an option is: in the buffer, or in a block of the caller. -/
inductive CoapValue where
  | inMessage (p : Nat)
  | given (bytes : List UInt8)
  deriving DecidableEq, Repr

def CoapValue.read (buffer : List UInt8) (n : Nat) : CoapValue → List UInt8
  | .inMessage p => (buffer.drop p).take n
  | .given bytes => bytes.take n

structure CoapOption where
  delta : Nat := 0
  number : Nat
  length : Nat
  value : CoapValue
  deriving DecidableEq, Repr

/-! ## Reading -/

/-- The header at the start of `p`: the number of bytes it takes, token included. -/
def coapParseMessageHeader (p : List UInt8) : Except CoapError Nat :=
  if p.length < sizeofCoapMessageHeader then .error .INVALID_HEADER
  else if (p.getD 0 0).toNat / 64 ≠ COAP_VERSION_1 then .error .INVALID_VERSION
  else if (p.getD 0 0).toNat % 16 > COAP_MAX_TOKEN_LEN then .error .INVALID_HEADER
  else if p.length < sizeofCoapMessageHeader + (p.getD 0 0).toNat % 16 then .error .INVALID_HEADER
  else .ok (sizeofCoapMessageHeader + (p.getD 0 0).toNat % 16)

/-- Option Delta and Option Length are coded alike: four bits of the initial byte, and up to two
bytes more. The value, and the bytes behind it. -/
def parseOptionField (nibble : Nat) (p : List UInt8) : Except CoapError (Nat × List UInt8) :=
  if nibble = COAP_OPT_RESERVED then .error .INVALID_MESSAGE
  else if nibble = COAP_OPT_16_BITS then
    match p with
    | hi :: lo :: p => .ok (hi.toNat * 256 + lo.toNat + COAP_OPT_MINUS_16_BITS, p)
    | _ => .error .BUFFER_UNDERFLOW
  else if nibble = COAP_OPT_8_BITS then
    match p with
    | b :: p => .ok (b.toNat + COAP_OPT_MINUS_8_BITS, p)
    | [] => .error .BUFFER_UNDERFLOW
  else .ok (nibble, p)

/-- The option at index `p` of the buffer, where `length` bytes are left, and the number of bytes
it takes. -/
def coapParseOption (buffer : List UInt8) (p length prevOptionNum : Nat) :
    Except CoapError (CoapOption × Nat) :=
  match (buffer.drop p).take length with
  | [] => .error .BUFFER_UNDERFLOW
  | header :: rest => do
    let (delta, rest) ← parseOptionField (header.toNat / 16) rest
    let (optionLength, rest) ← parseOptionField (header.toNat % 16) rest
    if rest.length < optionLength then .error .BUFFER_UNDERFLOW
    else
      let n := ((buffer.drop p).take length).length - rest.length
      .ok ({ delta := u16 delta, number := u16 (u16 delta + prevOptionNum),
             length := optionLength, value := .inMessage (p + n) }, n + optionLength)

/-- The loop of `coapParseOptions`: the number of bytes consumed. -/
def coapParseOptions (buffer : List UInt8) : Nat → Nat → Nat → Nat → Except CoapError Nat
  | 0, _, _, _ => .ok 0
  | fuel + 1, p, length, number =>
    if length = 0 ∨ buffer[p]? = some COAP_PAYLOAD_MARKER then .ok 0
    else do
      let (option, n) ← coapParseOption buffer p length number
      let consumed ← coapParseOptions buffer fuel (p + n) (length - n) option.number
      .ok (n + consumed)

/-! ## Writing -/

/-- The four bits of a field, and the bytes that follow. -/
def formatOptionField (value : Nat) : Nat × List UInt8 :=
  if value ≥ COAP_OPT_MINUS_16_BITS then
    (COAP_OPT_16_BITS, be16 (value - COAP_OPT_MINUS_16_BITS))
  else if value ≥ COAP_OPT_MINUS_8_BITS then
    (COAP_OPT_8_BITS, [UInt8.ofNat (value - COAP_OPT_MINUS_8_BITS)])
  else (value, [])

/-- The initial byte and the bytes of the two fields. -/
def optionHeader (delta length : Nat) : List UInt8 :=
  UInt8.ofNat ((formatOptionField delta).1 * 16 + (formatOptionField length).1) ::
    (formatOptionField delta).2 ++ (formatOptionField length).2

/-- Without `p` the option is only measured. The value is moved after the header has been
written. -/
def coapFormatOption (buffer : List UInt8) (p : Option Nat) (prevOptionNum : Nat)
    (option : CoapOption) : CoapOption × List UInt8 × Nat :=
  let option := { option with delta := u16Sub option.number prevOptionNum }
  let header := optionHeader option.delta option.length
  match p with
  | none => (option, buffer, header.length + option.length)
  | some p =>
    let buffer := splice buffer p header
    (option, splice buffer (p + header.length) (option.value.read buffer option.length),
      header.length + option.length)

/-! ## Operations -/

/-- What the search leaves: the position, the bytes left there, the number of the option before,
and the size of the option when it is the one looked for. -/
structure OptionSearch where
  found : Bool
  p : Nat
  length : Nat
  prevOptionNum : Nat
  n : Nat
  deriving DecidableEq, Repr

/-- The loop of `coapSetOption` and `coapDeleteOption`. -/
def searchOption (buffer : List UInt8) (optionNum optionIndex : Nat) :
    Nat → Nat → Nat → Nat → Nat → Except CoapError OptionSearch
  | 0, p, length, prevOptionNum, _ => .ok ⟨false, p, length, prevOptionNum, 0⟩
  | fuel + 1, p, length, prevOptionNum, index =>
    if length = 0 ∨ buffer[p]? = some COAP_PAYLOAD_MARKER then
      .ok ⟨false, p, length, prevOptionNum, 0⟩
    else do
      let (option, n) ← coapParseOption buffer p length prevOptionNum
      if option.number > optionNum then .ok ⟨false, p, length, prevOptionNum, n⟩
      else if option.number = optionNum then
        if index = optionIndex then .ok ⟨true, p, length, prevOptionNum, n⟩
        else
          searchOption buffer optionNum optionIndex fuel (p + n) (length - n) option.number
            (index + 1)
      else
        searchOption buffer optionNum optionIndex fuel (p + n) (length - n) option.number index

/-- The occurrence that was found is taken out. -/
def removeFound (message : CoapMessage) (s : OptionSearch) : CoapMessage :=
  { buffer := move message.buffer s.p (s.p + s.n) (s.length - s.n)
    length := message.length - s.n }

/-- The Option Delta of the option at `p`, where `length` bytes are left, after the insertion of
an option before it. -/
def fixNextInserted (message : CoapMessage) (p length prevOptionNum optionNum : Nat) :
    CoapError × CoapMessage :=
  match coapParseOption message.buffer p length prevOptionNum with
  | .error e => (e, message)
  | .ok (option, n) =>
    let (_, buffer, m) := coapFormatOption message.buffer (some p) optionNum option
    if m < n then
      (.NO_ERROR, { buffer := move buffer (p + m) (p + n) (length - n)
                    length := message.length - (n - m) })
    else (.NO_ERROR, { message with buffer })

/-- The part of `coapSetOption` behind the search. -/
def insertOption (message : CoapMessage) (s : OptionSearch) (optionNum : Nat)
    (optionValue : List UInt8) : CoapError × CoapMessage :=
  let length := if s.found then s.length - s.n else s.length
  let message := if s.found then removeFound message s else message
  let option : CoapOption :=
    { number := optionNum, length := optionValue.length, value := .given optionValue }
  let (option, _, n) := coapFormatOption message.buffer none s.prevOptionNum option
  if message.length + n > COAP_MAX_MSG_SIZE then (.BUFFER_OVERFLOW, message)
  else
    let buffer := move message.buffer (s.p + n) s.p length
    let (_, buffer, n) := coapFormatOption buffer (some s.p) s.prevOptionNum option
    let message := { buffer, length := message.length + n }
    if length > 0 ∧ buffer[s.p + n]? ≠ some COAP_PAYLOAD_MARKER ∧ s.found = false then
      fixNextInserted message (s.p + n) length s.prevOptionNum optionNum
    else (.NO_ERROR, message)

def coapSetOption (message : CoapMessage) (optionNum : BitVec 16) (optionIndex : Nat)
    (optionValue : List UInt8) : CoapError × CoapMessage :=
  match coapParseMessageHeader message.bytes with
  | .error e => (e, message)
  | .ok n =>
    match searchOption message.buffer optionNum.toNat optionIndex message.length n
        (message.length - n) 0 0 with
    | .error e => (e, message)
    | .ok s => insertOption message s optionNum.toNat optionValue

/-- The Option Delta of the option at `p`, where `length` bytes are left, after the option before
it, of number `optionNum`, was taken out. -/
def fixNextDeleted (message : CoapMessage) (p length prevOptionNum optionNum : Nat) :
    CoapError × CoapMessage :=
  match coapParseOption message.buffer p length optionNum with
  | .error e => (e, message)
  | .ok (option, n) =>
    let (option, _, m) := coapFormatOption message.buffer none prevOptionNum option
    if m > n then
      let buffer := move message.buffer (p + m - option.length) (p + n - option.length)
        (length + option.length - n)
      let value := match option.value with
        | .inMessage q => .inMessage (q + (m - n))
        | .given bytes => .given bytes
      let (_, buffer, _) := coapFormatOption buffer (some p) prevOptionNum { option with value }
      (.NO_ERROR, { buffer, length := message.length + (m - n) })
    else
      let (_, buffer, _) := coapFormatOption message.buffer (some p) prevOptionNum option
      (.NO_ERROR, { message with buffer })

/-- The part of `coapDeleteOption` behind the search. -/
def deleteFound (message : CoapMessage) (s : OptionSearch) (optionNum : Nat) :
    CoapError × CoapMessage :=
  if s.found then
    let message := removeFound message s
    let length := s.length - s.n
    if length > 0 ∧ message.buffer[s.p]? ≠ some COAP_PAYLOAD_MARKER then
      fixNextDeleted message s.p length s.prevOptionNum optionNum
    else (.NO_ERROR, message)
  else (.NO_ERROR, message)

def coapDeleteOption (message : CoapMessage) (optionNum : BitVec 16) (optionIndex : Nat) :
    CoapError × CoapMessage :=
  match coapParseMessageHeader message.bytes with
  | .error e => (e, message)
  | .ok n =>
    match searchOption message.buffer optionNum.toNat optionIndex message.length n
        (message.length - n) 0 0 with
    | .error e => (e, message)
    | .ok s => deleteFound message s optionNum.toNat

/-- The loop of `coapGetOption`: the index of the value in the buffer and its length. -/
def getLoop (buffer : List UInt8) (optionNum optionIndex : Nat) :
    Nat → Nat → Nat → Nat → Nat → Except CoapError (CoapValue × Nat)
  | 0, _, _, _, _ => .error .NOT_FOUND
  | fuel + 1, p, length, number, index =>
    if length = 0 ∨ buffer[p]? = some COAP_PAYLOAD_MARKER then .error .NOT_FOUND
    else do
      let (option, n) ← coapParseOption buffer p length number
      if option.number = optionNum then
        if index = optionIndex then .ok (option.value, option.length)
        else getLoop buffer optionNum optionIndex fuel (p + n) (length - n) option.number (index + 1)
      else getLoop buffer optionNum optionIndex fuel (p + n) (length - n) option.number index

def coapGetOption (message : CoapMessage) (optionNum : BitVec 16) (optionIndex : Nat) :
    Except CoapError (CoapValue × Nat) := do
  let n ← coapParseMessageHeader message.bytes
  getLoop message.buffer optionNum.toNat optionIndex message.length n (message.length - n) 0 0

/-- The loop of `coapSetUintOption`: the bytes of the value, most significant first, before those
already there. -/
def uintOptionBytes : Nat → Nat → List UInt8 → List UInt8
  | 0, _, bytes => bytes
  | i + 1, optionValue, bytes =>
    if optionValue = 0 then bytes
    else uintOptionBytes i (optionValue / 256) (UInt8.ofNat optionValue :: bytes)

def coapSetUintOption (message : CoapMessage) (optionNum : BitVec 16) (optionIndex : Nat)
    (optionValue : BitVec 32) : CoapError × CoapMessage :=
  coapSetOption message optionNum optionIndex (uintOptionBytes 4 optionValue.toNat [])

/-! ## The payload -/

/-- The first part of `coapSetPayload` and `coapWritePayload`: the header and the options are
parsed, and the payload begins behind them. -/
def payloadStart (message : CoapMessage) : Except CoapError Nat := do
  let n ← coapParseMessageHeader message.bytes
  let consumed ← coapParseOptions message.buffer message.length n (message.length - n) 0
  .ok (n + consumed)

def coapSetPayload (message : CoapMessage) (payload : List UInt8) : CoapError × CoapMessage :=
  match payloadStart message with
  | .error e => (e, message)
  | .ok p =>
    -- The payload that was there is trimmed before the new one is checked.
    let message := { message with length := message.length - (message.length - p) }
    if payload.length > 0 then
      if message.length + payload.length + 1 > COAP_MAX_MSG_SIZE then (.BUFFER_OVERFLOW, message)
      else
        let buffer := splice message.buffer p [COAP_PAYLOAD_MARKER]
        let buffer := splice buffer (p + 1) payload
        let buffer := splice buffer (p + (payload.length + 1)) [0]
        (.NO_ERROR, { buffer, length := message.length + (payload.length + 1) })
    else (.NO_ERROR, message)

/-- The part of `coapWritePayload` that copies the data behind `n` bytes of payload. -/
def appendPayload (message : CoapMessage) (p n : Nat) (data : List UInt8) :
    CoapError × CoapMessage :=
  let buffer := splice message.buffer (p + n) data
  let buffer := splice buffer (p + (n + data.length)) [0]
  (.NO_ERROR, { buffer, length := message.length + data.length })

def coapWritePayload (message : CoapMessage) (data : List UInt8) : CoapError × CoapMessage :=
  match payloadStart message with
  | .error e => (e, message)
  | .ok p =>
    let n := message.length - p
    if data.length > 0 then
      if n = 0 then
        if message.length + data.length + 1 > COAP_MAX_MSG_SIZE then (.BUFFER_OVERFLOW, message)
        else
          let buffer := splice message.buffer (p + n) [COAP_PAYLOAD_MARKER]
          appendPayload { buffer, length := message.length + 1 } p (n + 1) data
      else if message.length + data.length > COAP_MAX_MSG_SIZE then (.BUFFER_OVERFLOW, message)
      else appendPayload message p n data
    else (.NO_ERROR, message)

end Cyclone
