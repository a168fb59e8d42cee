import Cyclone.PppConfigure

/-!
# Cyclone.PppReplies

What LCP answers to a packet (`lcp.c`, `ppp_misc.c`): the Configure-Ack, Nak or Reject, whose
options are written one by one into a buffer of the size of the request, and the Code-Reject,
Protocol-Reject and Echo-Reply, which copy the packet up to the MRU of the peer.

* `lcpParseOption` and the parsers below it, with and without a packet to answer in.
* `LcpEndpoint`: the automaton with the options of the peer and the replies that were sent.
* `lcpProcessPacket`, `lcpProcessUnknownProtocol`: the packets.
* `RepliesRight`: what the replies should be.
* `parsed_option`, `applyAll_check`, `applyAll_answer`: one option, and the two loops.
-/

namespace Cyclone

open Serial

/-! ## The options of a Configure-Request -/

/-- The options of LCP in the `PppConfig` of the peer. -/
structure LcpPeerConfig where
  mru : UInt16
  accm : Word
  authProtocol : Nat
  authAlgo : UInt8
  magicNumber : Word
  pfc : Bool
  acfc : Bool
  deriving DecidableEq, Repr

inductive LcpOptionError where
  | NO_ERROR
  | INVALID_TYPE
  | INVALID_VALUE
  | INVALID_LENGTH
  deriving DecidableEq, Repr

/-- A Configure-Ack, Nak or Reject while its options are added: `length` is the 16-bit field, and
`written` the end of the furthest byte written. -/
structure ConfigureAckNak where
  code : ConfigureCode
  identifier : UInt8
  length : Nat := 4
  options : List UInt8 := []
  written : Nat := 4
  deriving DecidableEq, Repr

/-- `pppAddOption`. The value comes from an option, whose length is one byte. -/
def ConfigureAckNak.add (packet : ConfigureAckNak) (optionType : UInt8) (value : List UInt8) :
    ConfigureAckNak :=
  { packet with
    length := (packet.length + (value.length + 2)) % 65536
    options := packet.options ++ pppAddOption optionType value
    written := max packet.written (packet.length + (value.length + 2)) }

/-- `outPacket != NULL && outPacket->code == code`: the option is saved and added. -/
def answerWith (code : ConfigureCode) (optionType : UInt8) (value : List UInt8)
    (save : LcpPeerConfig → LcpPeerConfig) (s : LcpPeerConfig × Option ConfigureAckNak) :
    LcpPeerConfig × Option ConfigureAckNak :=
  match s.2 with
  | some out => if out.code = code then (save s.1, some (out.add optionType value)) else s
  | none => s

/-- `ntohl` of a 16-bit field, stored in 16 bits, on a little-endian host: the four bytes are the
field and two zero bytes. -/
def ntohl16 (hi lo : UInt8) : UInt16 := UInt16.ofNat ((hi.toNat * 256 + lo.toNat) * 65536)

def be32Word (a b c d : UInt8) : Word :=
  w32 (((a.toNat * 256 + b.toNat) * 256 + c.toNat) * 256 + d.toNat)

def lcpParseMruOption (data : List UInt8) (s : LcpPeerConfig × Option ConfigureAckNak) :
    LcpOptionError × (LcpPeerConfig × Option ConfigureAckNak) :=
  match data with
  | [hi, lo] =>
    if hi.toNat * 256 + lo.toNat ≥ PPP_MIN_MRU then
      (.NO_ERROR, answerWith .CONFIGURE_ACK LCP_OPTION_MRU data
        (fun peer => { peer with mru := ntohl16 hi lo }) s)
    else (.INVALID_VALUE, answerWith .CONFIGURE_NAK LCP_OPTION_MRU (be16 PPP_DEFAULT_MRU) id s)
  | _ => (.INVALID_LENGTH, s)

def lcpParseAccmOption (data : List UInt8) (s : LcpPeerConfig × Option ConfigureAckNak) :
    LcpOptionError × (LcpPeerConfig × Option ConfigureAckNak) :=
  match data with
  | [a, b, c, d] =>
    (.NO_ERROR, answerWith .CONFIGURE_ACK LCP_OPTION_ACCM data
      (fun peer => { peer with accm := be32Word a b c d }) s)
  | _ => (.INVALID_LENGTH, s)

def lcpParseAuthProtocolOption (settings : AuthSettings) (data : List UInt8)
    (s : LcpPeerConfig × Option ConfigureAckNak) :
    LcpOptionError × (LcpPeerConfig × Option ConfigureAckNak) :=
  match data with
  | hi :: lo :: rest =>
    let protocol := hi.toNat * 256 + lo.toNat
    if protocol = PPP_PROTOCOL_PAP ∧ rest.length = 0 ∨
        protocol = PPP_PROTOCOL_CHAP ∧ rest.length = 1 then
      if settings.pap ∧ protocol = PPP_PROTOCOL_PAP then
        (.NO_ERROR, answerWith .CONFIGURE_ACK LCP_OPTION_AUTH_PROTOCOL data
          (fun peer => { peer with authProtocol := PPP_PROTOCOL_PAP }) s)
      else if settings.chapMd5 ∧ protocol = PPP_PROTOCOL_CHAP ∧
          rest.head? = some CHAP_ALGO_ID_CHAP_MD5 then
        (.NO_ERROR, answerWith .CONFIGURE_ACK LCP_OPTION_AUTH_PROTOCOL data
          (fun peer => { peer with
            authProtocol := PPP_PROTOCOL_CHAP, authAlgo := CHAP_ALGO_ID_CHAP_MD5 }) s)
      else if settings.pap then
        (.INVALID_VALUE, answerWith .CONFIGURE_NAK LCP_OPTION_AUTH_PROTOCOL
          (be16 PPP_PROTOCOL_PAP) id s)
      else if settings.chapMd5 then
        (.INVALID_VALUE, answerWith .CONFIGURE_NAK LCP_OPTION_AUTH_PROTOCOL
          (be16 PPP_PROTOCOL_CHAP ++ [CHAP_ALGO_ID_CHAP_MD5]) id s)
      else (.INVALID_TYPE, answerWith .CONFIGURE_REJ LCP_OPTION_AUTH_PROTOCOL data id s)
    else (.INVALID_LENGTH, s)
  | _ => (.INVALID_LENGTH, s)

def lcpParseMagicNumberOption (data : List UInt8) (s : LcpPeerConfig × Option ConfigureAckNak) :
    LcpOptionError × (LcpPeerConfig × Option ConfigureAckNak) :=
  match data with
  | [a, b, c, d] =>
    (.NO_ERROR, answerWith .CONFIGURE_ACK LCP_OPTION_MAGIC_NUMBER data
      (fun peer => { peer with magicNumber := be32Word a b c d }) s)
  | _ => (.INVALID_LENGTH, s)

def lcpParsePfcOption (data : List UInt8) (s : LcpPeerConfig × Option ConfigureAckNak) :
    LcpOptionError × (LcpPeerConfig × Option ConfigureAckNak) :=
  match data with
  | [] => (.NO_ERROR, answerWith .CONFIGURE_ACK LCP_OPTION_PFC []
      (fun peer => { peer with pfc := true }) s)
  | _ => (.INVALID_LENGTH, s)

def lcpParseAcfcOption (data : List UInt8) (s : LcpPeerConfig × Option ConfigureAckNak) :
    LcpOptionError × (LcpPeerConfig × Option ConfigureAckNak) :=
  match data with
  | [] => (.NO_ERROR, answerWith .CONFIGURE_ACK LCP_OPTION_ACFC []
      (fun peer => { peer with acfc := true }) s)
  | _ => (.INVALID_LENGTH, s)

/-- An option whose length was checked. -/
def lcpParseOption (settings : AuthSettings) (type : UInt8) (data : List UInt8)
    (s : LcpPeerConfig × Option ConfigureAckNak) :
    LcpOptionError × (LcpPeerConfig × Option ConfigureAckNak) :=
  if type = LCP_OPTION_MRU then lcpParseMruOption data s
  else if type = LCP_OPTION_ACCM then lcpParseAccmOption data s
  else if type = LCP_OPTION_AUTH_PROTOCOL then lcpParseAuthProtocolOption settings data s
  else if type = LCP_OPTION_MAGIC_NUMBER then lcpParseMagicNumberOption data s
  else if type = LCP_OPTION_PFC then lcpParsePfcOption data s
  else if type = LCP_OPTION_ACFC then lcpParseAcfcOption data s
  else (.INVALID_TYPE, answerWith .CONFIGURE_REJ type data id s)

/-! ## The endpoint -/

/-- A header of four bytes and the fields behind it, and the bytes of `source` that are copied after
them. `length` is the field of the header. -/
structure CopiedReply where
  identifier : UInt8
  length : Nat
  fields : List UInt8
  copied : Nat
  source : List UInt8
  deriving DecidableEq, Repr

inductive LcpReply where
  /-- The bytes that were allocated for it, and the packet. -/
  | configure (allocated : Nat) (packet : ConfigureAckNak)
  | codeRej (reply : CopiedReply)
  | protocolRej (reply : CopiedReply)
  | echoRep (reply : CopiedReply)
  deriving DecidableEq, Repr

/-- LCP of a context: its automaton, the peer, and the replies that were sent, the last first. -/
structure LcpEndpoint where
  conf : ConfContext LcpConfig
  settings : AuthSettings
  peerConfig : LcpPeerConfig
  replies : List LcpReply
  deriving DecidableEq, Repr

def lcpFsm : PppFsmRef LcpEndpoint where
  state e := e.conf.state
  change e t := { e with conf := confFsm.change e.conf t }
  restartCounter e := e.conf.restartCounter

/-- The second loop over the options. The first one has found no error in them. -/
def lcpAnswerOption (settings : AuthSettings) (type : UInt8) (data : List UInt8)
    (s : LcpPeerConfig × Option ConfigureAckNak) :
    Except PppError (LcpPeerConfig × Option ConfigureAckNak) :=
  .ok (lcpParseOption settings type data s).2

def pppSendConfigureAckNak (e : LcpEndpoint) (packet : List UInt8) (code : ConfigureCode) :
    LcpEndpoint :=
  if e.conf.memory then
    let out := { code, identifier := packet.getD 1 0 }
    let s := (applyOptions (lcpAnswerOption e.settings) (packet.drop 4)
      (e.peerConfig, some out)).2
    { e with peerConfig := s.1, replies := .configure packet.length (s.2.getD out) :: e.replies }
  else e

/-- The part of the packet that is appended: the difference of the lengths is a `size_t`, and the
length of a chunk has 16 bits. -/
def appendedLength (length header : Nat) : Nat := (length + 65536 - header) % 65536

def pppSendCodeRej (e : LcpEndpoint) (packet : List UInt8) : LcpEndpoint :=
  if e.conf.memory then
    let length := min (packet.length + 4) e.peerConfig.mru.toNat
    { e with replies := .codeRej ⟨e.conf.identifier, length, [], appendedLength length 4, packet⟩ ::
        e.replies }
  else e

def pppSendProtocolRej (e : LcpEndpoint) (protocol : Nat) (information : List UInt8) :
    LcpEndpoint :=
  if e.conf.memory then
    let length := min (information.length + 6) e.peerConfig.mru.toNat
    { e with replies := .protocolRej ⟨e.conf.identifier, length, be16 protocol,
        appendedLength length 6, information⟩ :: e.replies }
  else e

def pppSendEchoRep (e : LcpEndpoint) (packet : List UInt8) : LcpEndpoint :=
  if packet.length < 8 then e
  else if packet.length > e.peerConfig.mru.toNat then e
  else if e.conf.memory then
    { e with replies := .echoRep ⟨packet.getD 1 0, packet.length,
        be32 e.conf.localConfig.magicNumber, appendedLength packet.length 8, packet.drop 8⟩ ::
        e.replies }
  else e

/-- An action that sends no reply. -/
def LcpEndpoint.act (e : LcpEndpoint) (f : ConfContext LcpConfig → ConfContext LcpConfig) :
    LcpEndpoint :=
  { e with conf := f e.conf }

def lcpReplyCallbacks : PppCallbacks LcpEndpoint where
  thisLayerUp e := e.act lcpCallbacks.thisLayerUp
  thisLayerDown e := e.act lcpCallbacks.thisLayerDown
  thisLayerStarted e := e.act lcpCallbacks.thisLayerStarted
  thisLayerFinished e := e.act lcpCallbacks.thisLayerFinished
  initRestartCount e value := e.act fun c => lcpCallbacks.initRestartCount c value
  zeroRestartCount e := e.act lcpCallbacks.zeroRestartCount
  sendConfigureReq e := e.act lcpCallbacks.sendConfigureReq
  sendConfigure code e packet := pppSendConfigureAckNak e packet code
  sendTerminateReq e := e.act lcpCallbacks.sendTerminateReq
  sendTerminateAck e packet := e.act fun c => lcpCallbacks.sendTerminateAck c packet
  sendCodeRej e packet :=
    pppSendCodeRej (e.act fun c => { c with identifier := c.identifier + 1 }) packet
  sendEchoRep := pppSendEchoRep

/-- One turn of the first loop: whether an option was not recognizable, or not acceptable. -/
def lcpCheckOption (settings : AuthSettings) (peer : LcpPeerConfig) (type : UInt8)
    (data : List UInt8) (flags : Bool × Bool) : Except PppError (Bool × Bool) :=
  match (lcpParseOption settings type data (peer, none)).1 with
  | .NO_ERROR => .ok flags
  | .INVALID_TYPE => .ok (true, flags.2)
  | .INVALID_VALUE => .ok (flags.1, true)
  | .INVALID_LENGTH => .error .INVALID_LENGTH

def lcpProcessConfigureReq (e : LcpEndpoint) (packet : List UInt8) : LcpEndpoint :=
  match applyOptions (lcpCheckOption e.settings e.peerConfig) (packet.drop 4) (false, false) with
  | (.NO_ERROR, notRecognizable, notAcceptable) =>
    pppRcvConfigureReqEvent lcpFsm lcpReplyCallbacks e packet
      (if notRecognizable then .CONFIGURE_REJ
        else if notAcceptable then .CONFIGURE_NAK else .CONFIGURE_ACK)
  | _ => e

/-- The packets that are handled by the automaton and the local configuration alone. -/
def LcpEndpoint.handle (e : LcpEndpoint) (event : ConfEvent LcpConfig) : LcpEndpoint :=
  e.act fun c => (lcpLayer e.settings).handle c event

def lcpProcessCodeRej (e : LcpEndpoint) (packet : List UInt8) : LcpEndpoint :=
  if packet.length - 4 < 4 then e
  else e.handle (.codeRej (packet.getD 4 0 < 1 || packet.getD 4 0 > 11))

/-- The flags of the network protocols that the peer rejects are read elsewhere. -/
def lcpProcessProtocolRej (e : LcpEndpoint) (packet : List UInt8) : LcpEndpoint :=
  if packet.length < 6 then e
  else
    let protocol := (packet.getD 4 0).toNat * 256 + (packet.getD 5 0).toNat
    if protocol = 0xC021 then e.handle (.codeRej false)
    else if protocol ∈ [0x0021, 0x8021, 0x0057, 0x8057] then e.handle (.codeRej true)
    else e

/-- The packet in a frame: as many bytes as its length field says. -/
def lcpPacket (frame : List UInt8) : Option (List UInt8) :=
  let length := (frame.getD 2 0).toNat * 256 + (frame.getD 3 0).toNat
  if frame.length < 4 then none
  else if length > frame.length then none
  else if length < 4 then none
  else some (frame.take length)

def lcpProcessPacket (e : LcpEndpoint) (frame : List UInt8) : LcpEndpoint :=
  match lcpPacket frame with
  | none => e
  | some packet =>
    match (packet.getD 0 0).toNat with
    | 1 => lcpProcessConfigureReq e packet
    | 2 => e.handle (.configureAck (packet.getD 1 0))
    | 3 => e.handle (.configureNak (packet.getD 1 0) (packet.drop 4))
    | 4 => e.handle (.configureReject (packet.getD 1 0) (packet.drop 4))
    | 5 => e.handle (.terminateReq packet)
    | 6 => e.handle .terminateAck
    | 7 => lcpProcessCodeRej e packet
    | 8 => lcpProcessProtocolRej e packet
    | 9 => pppRcvEchoReqEvent lcpFsm lcpReplyCallbacks e packet
    | 10 | 11 => e
    | _ => pppRcvUnknownCodeEvent lcpFsm lcpReplyCallbacks e packet

def lcpProcessUnknownProtocol (e : LcpEndpoint) (protocol : Nat) (information : List UInt8) :
    LcpEndpoint :=
  if e.conf.state = .OPENED then
    pppSendProtocolRej (e.act fun c => { c with identifier := c.identifier + 1 }) protocol
      information
  else e

/-- What `pppProcessFrame` gives to LCP: a frame of LCP, or one of a protocol that is unknown. -/
inductive LcpInput where
  | packet (frame : List UInt8)
  | unknownProtocol (protocol : Nat) (information : List UInt8)
  deriving DecidableEq, Repr

def LcpEndpoint.receive (e : LcpEndpoint) : LcpInput → LcpEndpoint
  | .packet frame => lcpProcessPacket e frame
  | .unknownProtocol protocol information => lcpProcessUnknownProtocol e protocol information

/-- The replies to one input. -/
def LcpEndpoint.repliesTo (e : LcpEndpoint) (i : LcpInput) : List LcpReply :=
  ({ e with replies := [] }.receive i).replies

/-! ## What the replies should be -/

/-- An option: its type, and the data behind type and length. -/
abbrev ConfOption := UInt8 × List UInt8

def encodeConf (options : List ConfOption) : List UInt8 :=
  options.flatMap fun o => pppAddOption o.1 o.2

def be16Value (data : List UInt8) : Nat := (data.getD 0 0).toNat * 256 + (data.getD 1 0).toNat

/-- Every option has the length of its type. -/
structure WellFormedOption (o : ConfOption) : Prop where
  byte : o.2.length ≤ 253
  mru : o.1 = LCP_OPTION_MRU → o.2.length = 2
  four : o.1 = LCP_OPTION_ACCM ∨ o.1 = LCP_OPTION_MAGIC_NUMBER → o.2.length = 4
  none : o.1 = LCP_OPTION_PFC ∨ o.1 = LCP_OPTION_ACFC → o.2.length = 0
  auth : o.1 = LCP_OPTION_AUTH_PROTOCOL → 2 ≤ o.2.length ∧
    (be16Value o.2 = PPP_PROTOCOL_PAP → o.2.length = 2) ∧
    (be16Value o.2 = PPP_PROTOCOL_CHAP → o.2.length = 3)

/-- An authentication protocol that the code knows. -/
def KnownAuth (o : ConfOption) : Prop :=
  o.1 = LCP_OPTION_AUTH_PROTOCOL →
    be16Value o.2 = PPP_PROTOCOL_PAP ∨ be16Value o.2 = PPP_PROTOCOL_CHAP

/-- The option can be negotiated. -/
def Recognized (settings : AuthSettings) (o : ConfOption) : Prop :=
  o.1 ∈ [LCP_OPTION_MRU, LCP_OPTION_ACCM, LCP_OPTION_MAGIC_NUMBER, LCP_OPTION_PFC,
    LCP_OPTION_ACFC] ∨
  o.1 = LCP_OPTION_AUTH_PROTOCOL ∧ (settings.pap = true ∨ settings.chapMd5 = true)

/-- The endpoint accepts the value of the option. -/
def Accepts (settings : AuthSettings) (o : ConfOption) : Prop :=
  (o.1 = LCP_OPTION_MRU → PPP_MIN_MRU ≤ be16Value o.2) ∧
  (o.1 = LCP_OPTION_AUTH_PROTOCOL →
    settings.pap = true ∧ o.2 = be16 PPP_PROTOCOL_PAP ∨
    settings.chapMd5 = true ∧ o.2 = be16 PPP_PROTOCOL_CHAP ++ [CHAP_ALGO_ID_CHAP_MD5])

instance (o : ConfOption) : Decidable (KnownAuth o) := inferInstanceAs (Decidable (_ → _))

instance (settings : AuthSettings) (o : ConfOption) : Decidable (Recognized settings o) :=
  inferInstanceAs (Decidable (_ ∨ _))

instance (settings : AuthSettings) (o : ConfOption) : Decidable (Accepts settings o) :=
  inferInstanceAs (Decidable (_ ∧ _))

/-- The answer to a Configure-Request. -/
structure RightAnswer (settings : AuthSettings) (identifier : UInt8) (options : List ConfOption)
    (out : ConfigureAckNak) : Prop where
  identifier : out.identifier = identifier
  length : out.length = 4 + out.options.length
  rejects : (∃ o ∈ options, ¬Recognized settings o) → out.code = .CONFIGURE_REJ ∧
    out.options = encodeConf (options.filter fun o => ¬Recognized settings o)
  naks : (∀ o ∈ options, Recognized settings o) → (∃ o ∈ options, ¬Accepts settings o) →
    out.code = .CONFIGURE_NAK ∧ ∃ value : ConfOption → List UInt8,
      (∀ o ∈ options, ¬Accepts settings o → Accepts settings (o.1, value o)) ∧
      out.options = encodeConf
        ((options.filter fun o => ¬Accepts settings o).map fun o => (o.1, value o))
  acks : (∀ o ∈ options, Recognized settings o) → (∀ o ∈ options, Accepts settings o) →
    out.code = .CONFIGURE_ACK ∧ out.options = encodeConf options

/-- A reply that copies: its length field, the bytes sent, and what they are. -/
structure RightCopy (mru : Nat) (r : CopiedReply) : Prop where
  header : 4 + r.fields.length ≤ r.length
  sent : r.length = 4 + r.fields.length + r.copied
  source : r.copied ≤ r.source.length
  limit : r.length ≤ max (4 + r.fields.length) mru

def RightReply (mru : Nat) : LcpReply → Prop
  | .configure allocated out => out.written ≤ allocated
  | .codeRej r | .protocolRej r | .echoRep r => RightCopy mru r

/-- The states that answer a Configure-Request. -/
def PppState.Answers (s : PppState) : Prop :=
  s = .STOPPED ∨ s = .REQ_SENT ∨ s = .ACK_RCVD ∨ s = .ACK_SENT ∨ s = .OPENED

instance (s : PppState) : Decidable s.Answers := inferInstanceAs (Decidable (_ ∨ _))

/-- The replies to one input are complete and stay in their buffers, with memory for them. -/
structure RepliesRight (e : LcpEndpoint) (i : LcpInput) : Prop where
  answer : ∀ frame packet options, i = .packet frame → lcpPacket frame = some packet →
    (packet.getD 0 0).toNat = 1 → packet.drop 4 = encodeConf options →
    (∀ o ∈ options, WellFormedOption o) → e.conf.state.Answers → e.conf.memory = true →
    ∃ out, e.repliesTo i = [.configure packet.length out] ∧
      RightAnswer e.settings (packet.getD 1 0) options out
  replies : ∀ r ∈ e.repliesTo i, RightReply e.peerConfig.mru.toNat r

/-! ## One option -/

/-- The value of an option that is acceptable instead. -/
def nakValue (settings : AuthSettings) (type : UInt8) : List UInt8 :=
  if type = LCP_OPTION_MRU then be16 PPP_DEFAULT_MRU
  else if settings.pap then be16 PPP_PROTOCOL_PAP
  else be16 PPP_PROTOCOL_CHAP ++ [CHAP_ALGO_ID_CHAP_MD5]

/-- What an answer with this code says of an option. -/
def answerOption (settings : AuthSettings) (code : ConfigureCode) (o : ConfOption) :
    Option ConfOption :=
  match code with
  | .CONFIGURE_REJ => if Recognized settings o then none else some o
  | .CONFIGURE_NAK =>
    if Recognized settings o ∧ ¬Accepts settings o then some (o.1, nakValue settings o.1) else none
  | .CONFIGURE_ACK => if Recognized settings o ∧ Accepts settings o then some o else none

/-- What the parser says of an option. -/
structure Parsed (settings : AuthSettings) (o : ConfOption)
    (s : LcpPeerConfig × Option ConfigureAckNak)
    (r : LcpOptionError × (LcpPeerConfig × Option ConfigureAckNak)) : Prop where
  length : r.1 = .INVALID_LENGTH ↔ ¬(WellFormedOption o ∧ KnownAuth o)
  type : r.1 = .INVALID_TYPE → ¬Recognized settings o
  value : r.1 = .INVALID_VALUE → Recognized settings o ∧ ¬Accepts settings o
  ok : r.1 = .NO_ERROR → Recognized settings o ∧ Accepts settings o
  out : r.1 ≠ .INVALID_LENGTH → r.2.2 = s.2.map fun out =>
    match answerOption settings out.code o with
    | some a => out.add a.1 a.2
    | none => out

section Option

variable {settings : AuthSettings} {s : LcpPeerConfig × Option ConfigureAckNak} {d : List UInt8}

theorem answerWith_out (code : ConfigureCode) (type : UInt8) (value : List UInt8)
    (save : LcpPeerConfig → LcpPeerConfig) : (answerWith code type value save s).2 =
      s.2.map fun out => if out.code = code then out.add type value else out := by
  obtain ⟨peer, out⟩ := s
  cases out with
  | none => rfl
  | some out =>
    simp only [answerWith, Option.map_some]
    split_ifs <;> rfl

theorem wellFormedOption_iff (o : ConfOption) : WellFormedOption o ↔ o.2.length ≤ 253 ∧
    (o.1 = LCP_OPTION_MRU → o.2.length = 2) ∧
    (o.1 = LCP_OPTION_ACCM ∨ o.1 = LCP_OPTION_MAGIC_NUMBER → o.2.length = 4) ∧
    (o.1 = LCP_OPTION_PFC ∨ o.1 = LCP_OPTION_ACFC → o.2.length = 0) ∧
    (o.1 = LCP_OPTION_AUTH_PROTOCOL → 2 ≤ o.2.length ∧
      (be16Value o.2 = PPP_PROTOCOL_PAP → o.2.length = 2) ∧
      (be16Value o.2 = PPP_PROTOCOL_CHAP → o.2.length = 3)) :=
  ⟨fun h => ⟨h.byte, h.mru, h.four, h.none, h.auth⟩, fun h => ⟨h.1, h.2.1, h.2.2.1, h.2.2.2.1,
    h.2.2.2.2⟩⟩

/-- An option that is acknowledged whenever its length is right. -/
theorem Parsed.of_length {type : UInt8} {n : Nat} {save : LcpPeerConfig → LcpPeerConfig}
    (hw : WellFormedOption (type, d) ↔ d.length = n) (hm : type ≠ LCP_OPTION_MRU)
    (ha : type ≠ LCP_OPTION_AUTH_PROTOCOL) (hr : Recognized settings (type, d))
    (hn : d.length = n) :
    Parsed settings (type, d) s (.NO_ERROR, answerWith .CONFIGURE_ACK type d save s) := by
  have hk : KnownAuth (type, d) := fun h => absurd h ha
  have haccept : Accepts settings (type, d) := ⟨fun h => absurd h hm, fun h => absurd h ha⟩
  refine ⟨⟨fun h => LcpOptionError.noConfusion h, fun h => absurd ⟨hw.mpr hn, hk⟩ h⟩,
    fun h => LcpOptionError.noConfusion h, fun h => LcpOptionError.noConfusion h,
    fun _ => ⟨hr, haccept⟩, fun _ => ?_⟩
  rw [answerWith_out]
  congr 1
  funext out
  cases hc : out.code <;> simp [answerOption, hr, haccept]

theorem Parsed.invalid {o : ConfOption} (h : ¬(WellFormedOption o ∧ KnownAuth o)) :
    Parsed settings o s (.INVALID_LENGTH, s) where
  length := ⟨fun _ => h, fun _ => rfl⟩
  type h := LcpOptionError.noConfusion h
  value h := LcpOptionError.noConfusion h
  ok h := LcpOptionError.noConfusion h
  out h := absurd rfl h

theorem parsed_accm : Parsed settings (LCP_OPTION_ACCM, d) s (lcpParseAccmOption d s) := by
  have hw : WellFormedOption (LCP_OPTION_ACCM, d) ↔ d.length = 4 := by
    rw [wellFormedOption_iff]
    simp [LCP_OPTION_MRU, LCP_OPTION_ACCM, LCP_OPTION_AUTH_PROTOCOL, LCP_OPTION_MAGIC_NUMBER,
      LCP_OPTION_PFC, LCP_OPTION_ACFC]
    omega
  unfold lcpParseAccmOption
  split
  · exact .of_length hw (by decide) (by decide) (.inl (by simp)) rfl
  · next hne =>
    refine .invalid fun hc => ?_
    obtain ⟨a, b, c, e, rfl⟩ := List.length_eq_four.mp (hw.mp hc.1)
    exact hne a b c e rfl

theorem parsed_magicNumber :
    Parsed settings (LCP_OPTION_MAGIC_NUMBER, d) s (lcpParseMagicNumberOption d s) := by
  have hw : WellFormedOption (LCP_OPTION_MAGIC_NUMBER, d) ↔ d.length = 4 := by
    rw [wellFormedOption_iff]
    simp [LCP_OPTION_MRU, LCP_OPTION_ACCM, LCP_OPTION_AUTH_PROTOCOL, LCP_OPTION_MAGIC_NUMBER,
      LCP_OPTION_PFC, LCP_OPTION_ACFC]
    omega
  unfold lcpParseMagicNumberOption
  split
  · exact .of_length hw (by decide) (by decide) (.inl (by simp)) rfl
  · next hne =>
    refine .invalid fun hc => ?_
    obtain ⟨a, b, c, e, rfl⟩ := List.length_eq_four.mp (hw.mp hc.1)
    exact hne a b c e rfl

theorem parsed_pfc : Parsed settings (LCP_OPTION_PFC, d) s (lcpParsePfcOption d s) := by
  have hw : WellFormedOption (LCP_OPTION_PFC, d) ↔ d.length = 0 := by
    rw [wellFormedOption_iff]
    simp +contextual [LCP_OPTION_MRU, LCP_OPTION_ACCM, LCP_OPTION_AUTH_PROTOCOL,
      LCP_OPTION_MAGIC_NUMBER, LCP_OPTION_PFC, LCP_OPTION_ACFC]
  unfold lcpParsePfcOption
  split
  · exact .of_length hw (by decide) (by decide) (.inl (by simp)) rfl
  · next hne => exact .invalid fun hc => hne (List.length_eq_zero_iff.mp (hw.mp hc.1))

theorem parsed_acfc : Parsed settings (LCP_OPTION_ACFC, d) s (lcpParseAcfcOption d s) := by
  have hw : WellFormedOption (LCP_OPTION_ACFC, d) ↔ d.length = 0 := by
    rw [wellFormedOption_iff]
    simp +contextual [LCP_OPTION_MRU, LCP_OPTION_ACCM, LCP_OPTION_AUTH_PROTOCOL,
      LCP_OPTION_MAGIC_NUMBER, LCP_OPTION_PFC, LCP_OPTION_ACFC]
  unfold lcpParseAcfcOption
  split
  · exact .of_length hw (by decide) (by decide) (.inl (by simp)) rfl
  · next hne => exact .invalid fun hc => hne (List.length_eq_zero_iff.mp (hw.mp hc.1))

/-- An option whose value is not acceptable. -/
theorem Parsed.of_value {type : UInt8} {value : List UInt8}
    (hw : WellFormedOption (type, d) ∧ KnownAuth (type, d)) (hr : Recognized settings (type, d))
    (ha : ¬Accepts settings (type, d)) (hv : nakValue settings type = value) :
    Parsed settings (type, d) s
      (.INVALID_VALUE, answerWith .CONFIGURE_NAK type value id s) := by
  refine ⟨⟨fun h => LcpOptionError.noConfusion h, fun h => absurd hw h⟩,
    fun h => LcpOptionError.noConfusion h, fun _ => ⟨hr, ha⟩,
    fun h => LcpOptionError.noConfusion h, fun _ => ?_⟩
  rw [answerWith_out]
  congr 1
  funext out
  cases hc : out.code <;> simp [answerOption, hr, ha, hv]

theorem Parsed.of_accepted {type : UInt8} {save : LcpPeerConfig → LcpPeerConfig}
    (hw : WellFormedOption (type, d) ∧ KnownAuth (type, d)) (hr : Recognized settings (type, d))
    (ha : Accepts settings (type, d)) :
    Parsed settings (type, d) s (.NO_ERROR, answerWith .CONFIGURE_ACK type d save s) := by
  refine ⟨⟨fun h => LcpOptionError.noConfusion h, fun h => absurd hw h⟩,
    fun h => LcpOptionError.noConfusion h, fun h => LcpOptionError.noConfusion h,
    fun _ => ⟨hr, ha⟩, fun _ => ?_⟩
  rw [answerWith_out]
  congr 1
  funext out
  cases hc : out.code <;> simp [answerOption, hr, ha]

theorem Parsed.of_type {type : UInt8}
    (hw : WellFormedOption (type, d) ∧ KnownAuth (type, d))
    (hr : ¬Recognized settings (type, d)) :
    Parsed settings (type, d) s (.INVALID_TYPE, answerWith .CONFIGURE_REJ type d id s) := by
  refine ⟨⟨fun h => LcpOptionError.noConfusion h, fun h => absurd hw h⟩, fun _ => hr,
    fun h => LcpOptionError.noConfusion h, fun h => LcpOptionError.noConfusion h, fun _ => ?_⟩
  rw [answerWith_out]
  congr 1
  funext out
  cases hc : out.code <;> simp [answerOption, hr]

theorem parsed_mru : Parsed settings (LCP_OPTION_MRU, d) s (lcpParseMruOption d s) := by
  have hw : WellFormedOption (LCP_OPTION_MRU, d) ↔ d.length = 2 := by
    rw [wellFormedOption_iff]
    simp [LCP_OPTION_MRU, LCP_OPTION_ACCM, LCP_OPTION_AUTH_PROTOCOL, LCP_OPTION_MAGIC_NUMBER,
      LCP_OPTION_PFC, LCP_OPTION_ACFC]
    omega
  have hk : KnownAuth (LCP_OPTION_MRU, d) := fun h =>
    absurd (show LCP_OPTION_MRU = LCP_OPTION_AUTH_PROTOCOL from h) (by decide)
  have hr : Recognized settings (LCP_OPTION_MRU, d) := .inl (by simp)
  unfold lcpParseMruOption
  split
  · next hi lo =>
    split_ifs with hmin
    · refine .of_accepted ⟨hw.mpr rfl, hk⟩ hr ⟨fun _ => hmin, fun h => ?_⟩
      exact absurd (show LCP_OPTION_MRU = LCP_OPTION_AUTH_PROTOCOL from h) (by decide)
    · exact .of_value ⟨hw.mpr rfl, hk⟩ hr (fun ha => hmin (ha.1 rfl)) rfl
  · next hne =>
    refine .invalid fun hc => ?_
    obtain ⟨a, b, rfl⟩ := List.length_eq_two.mp (hw.mp hc.1)
    exact hne a b rfl

/-- Two bytes are the bytes of their value. -/
theorem be16_eq_iff {hi lo : UInt8} {n : Nat} (hn : n < 65536) :
    hi.toNat * 256 + lo.toNat = n ↔ be16 n = [hi, lo] := by
  have h1 := hi.toNat_lt
  have h2 := lo.toNat_lt
  unfold be16
  constructor
  · rintro rfl
    congr
    · apply UInt8.toNat_inj.mp
      rw [UInt8.toNat_ofNat']
      omega
    · apply UInt8.toNat_inj.mp
      rw [UInt8.toNat_ofNat']
      omega
  · intro h
    have hhi := congrArg UInt8.toNat (List.cons.inj h).1
    have hlo := congrArg UInt8.toNat (List.cons.inj (List.cons.inj h).2).1
    rw [UInt8.toNat_ofNat'] at hhi hlo
    omega

theorem parsed_auth (hb : d.length ≤ 253) : Parsed settings (LCP_OPTION_AUTH_PROTOCOL, d) s
    (lcpParseAuthProtocolOption settings d s) := by
  have hw : WellFormedOption (LCP_OPTION_AUTH_PROTOCOL, d) ∧
      KnownAuth (LCP_OPTION_AUTH_PROTOCOL, d) ↔
        be16Value d = PPP_PROTOCOL_PAP ∧ d.length = 2 ∨
          be16Value d = PPP_PROTOCOL_CHAP ∧ d.length = 3 := by
    rw [wellFormedOption_iff, KnownAuth]
    simp [LCP_OPTION_MRU, LCP_OPTION_ACCM, LCP_OPTION_AUTH_PROTOCOL, LCP_OPTION_MAGIC_NUMBER,
      LCP_OPTION_PFC, LCP_OPTION_ACFC, PPP_PROTOCOL_PAP, PPP_PROTOCOL_CHAP]
    omega
  have haccept : Accepts settings (LCP_OPTION_AUTH_PROTOCOL, d) ↔
      settings.pap = true ∧ d = be16 PPP_PROTOCOL_PAP ∨
        settings.chapMd5 = true ∧ d = be16 PPP_PROTOCOL_CHAP ++ [CHAP_ALGO_ID_CHAP_MD5] :=
    ⟨fun h => h.2 rfl, fun h => ⟨fun hc => absurd (show LCP_OPTION_AUTH_PROTOCOL = LCP_OPTION_MRU
      from hc) (by decide), fun _ => h⟩⟩
  have hrec : Recognized settings (LCP_OPTION_AUTH_PROTOCOL, d) ↔
      settings.pap = true ∨ settings.chapMd5 = true := by
    simp [Recognized, LCP_OPTION_MRU, LCP_OPTION_ACCM, LCP_OPTION_AUTH_PROTOCOL,
      LCP_OPTION_MAGIC_NUMBER, LCP_OPTION_PFC, LCP_OPTION_ACFC]
  unfold lcpParseAuthProtocolOption
  split
  · next hi lo rest =>
    have hpap : hi.toNat * 256 + lo.toNat = PPP_PROTOCOL_PAP ↔
        be16 PPP_PROTOCOL_PAP = [hi, lo] := be16_eq_iff (by decide)
    have hchap : hi.toNat * 256 + lo.toNat = PPP_PROTOCOL_CHAP ↔
        be16 PPP_PROTOCOL_CHAP = [hi, lo] := be16_eq_iff (by decide)
    have hne : PPP_PROTOCOL_PAP ≠ PPP_PROTOCOL_CHAP := by decide
    have hform : WellFormedOption (LCP_OPTION_AUTH_PROTOCOL, hi :: lo :: rest) ∧
        KnownAuth (LCP_OPTION_AUTH_PROTOCOL, hi :: lo :: rest) ↔
        hi.toNat * 256 + lo.toNat = PPP_PROTOCOL_PAP ∧ rest.length = 0 ∨
          hi.toNat * 256 + lo.toNat = PPP_PROTOCOL_CHAP ∧ rest.length = 1 := by
      rw [hw]
      simp [be16Value]
    dsimp only
    by_cases h1 : hi.toNat * 256 + lo.toNat = PPP_PROTOCOL_PAP ∧ rest.length = 0 ∨
        hi.toNat * 256 + lo.toNat = PPP_PROTOCOL_CHAP ∧ rest.length = 1
    · have hvalid := hform.mpr h1
      rw [if_pos h1]
      by_cases h2 : settings.pap = true ∧ hi.toNat * 256 + lo.toNat = PPP_PROTOCOL_PAP
      · rw [if_pos h2]
        refine .of_accepted hvalid (hrec.mpr (.inl h2.1)) (haccept.mpr (.inl ⟨h2.1, ?_⟩))
        rcases h1 with ⟨-, hl⟩ | ⟨hc, -⟩
        · rw [List.length_eq_zero_iff.mp hl, hpap.mp h2.2]
        · exact absurd (h2.2.symm.trans hc) hne
      rw [if_neg h2]
      by_cases h3 : settings.chapMd5 = true ∧ hi.toNat * 256 + lo.toNat = PPP_PROTOCOL_CHAP ∧
          rest.head? = some CHAP_ALGO_ID_CHAP_MD5
      · rw [if_pos h3]
        refine .of_accepted hvalid (hrec.mpr (.inr h3.1)) (haccept.mpr (.inr ⟨h3.1, ?_⟩))
        rcases h1 with ⟨hp, -⟩ | ⟨-, hl⟩
        · exact absurd (hp.symm.trans h3.2.1) hne
        · obtain ⟨a, rfl⟩ := List.length_eq_one_iff.mp hl
          obtain rfl := Option.some.inj h3.2.2
          rw [hchap.mp h3.2.1]
          rfl
      rw [if_neg h3]
      have hna : ¬Accepts settings (LCP_OPTION_AUTH_PROTOCOL, hi :: lo :: rest) := by
        rw [haccept]
        rintro (⟨hp, hd⟩ | ⟨hc, hd⟩)
        · simp only [be16, List.cons.injEq] at hd
          exact h2 ⟨hp, hpap.mpr (by rw [be16, ← hd.1, ← hd.2.1])⟩
        · simp only [be16, List.cons_append, List.nil_append, List.cons.injEq] at hd
          exact h3 ⟨hc, hchap.mpr (by rw [be16, ← hd.1, ← hd.2.1]), by rw [hd.2.2]; rfl⟩
      by_cases h4 : settings.pap = true
      · rw [if_pos h4]
        refine .of_value hvalid (hrec.mpr (.inl h4)) hna ?_
        rw [nakValue, if_neg (by decide), if_pos h4]
      rw [if_neg h4]
      by_cases h5 : settings.chapMd5 = true
      · rw [if_pos h5]
        refine .of_value hvalid (hrec.mpr (.inr h5)) hna ?_
        rw [nakValue, if_neg (by decide), if_neg h4]
      rw [if_neg h5]
      exact .of_type hvalid fun hc => (hrec.mp hc).elim h4 h5
    · rw [if_neg h1]
      exact .invalid fun hc => h1 (hform.mp hc)
  · next hne =>
    refine .invalid fun hc => ?_
    rcases d with _ | ⟨hi, _ | ⟨lo, rest⟩⟩
    · rcases hw.mp hc with ⟨-, h⟩ | ⟨-, h⟩ <;> cases h
    · rcases hw.mp hc with ⟨-, h⟩ | ⟨-, h⟩ <;> cases h
    · exact hne hi lo rest rfl

theorem parsed_option {o : ConfOption} (hb : o.2.length ≤ 253) :
    Parsed settings o s (lcpParseOption settings o.1 o.2 s) := by
  obtain ⟨type, d⟩ := o
  unfold lcpParseOption
  dsimp only
  split_ifs with h1 h2 h3 h4 h5 h6
  · subst h1
    exact parsed_mru
  · subst h2
    exact parsed_accm
  · subst h3
    exact parsed_auth hb
  · subst h4
    exact parsed_magicNumber
  · subst h5
    exact parsed_pfc
  · subst h6
    exact parsed_acfc
  · refine .of_type ⟨(wellFormedOption_iff _).mpr ?_, fun h => absurd h h3⟩ ?_
    · simp [h1, h2, h3, h4, h5, h6, hb]
    · simp [Recognized, h1, h2, h3, h4, h5, h6]

end Option

/-! ## The two loops -/

section Loop

variable {κ : Type} {option : UInt8 → List UInt8 → κ → Except PppError κ} {config : κ}
  {options : List ConfOption}

/-- The loop over options that were taken apart. -/
def applyAll (option : UInt8 → List UInt8 → κ → Except PppError κ) :
    List ConfOption → κ → PppError × κ
  | [], config => (.NO_ERROR, config)
  | o :: options, config =>
    match option o.1 o.2 config with
    | .error e => (e, config)
    | .ok config => applyAll option options config

theorem confOptionLoop_encode (hb : ∀ o ∈ options, o.2.length ≤ 253) {fuel : Nat}
    (hf : (encodeConf options).length ≤ fuel) :
    confOptionLoop option fuel (encodeConf options) config = applyAll option options config := by
  induction options generalizing fuel config with
  | nil => cases fuel <;> rfl
  | cons o options ih =>
    obtain ⟨type, d⟩ := o
    have hd : d.length ≤ 253 := hb _ List.mem_cons_self
    have hlen : (UInt8.ofNat (d.length + 2)).toNat = d.length + 2 := by
      rw [UInt8.toNat_ofNat']
      omega
    have he : encodeConf ((type, d) :: options) =
        type :: UInt8.ofNat (d.length + 2) :: (d ++ encodeConf options) := rfl
    rw [he] at hf ⊢
    simp only [List.length_cons, List.length_append] at hf
    cases fuel with
    | zero => omega
    | succ fuel =>
      rw [confOptionLoop, hlen, if_neg (by omega), if_neg (by rw [List.length_append]; omega),
        Nat.add_sub_cancel, List.take_left' rfl, List.drop_left' rfl, applyAll]
      cases option type d config with
      | error e => rfl
      | ok config => exact ih (fun o ho => hb o (List.mem_cons_of_mem _ ho)) (by omega)

theorem applyOptions_encode (hb : ∀ o ∈ options, o.2.length ≤ 253) :
    applyOptions option (encodeConf options) config = applyAll option options config :=
  confOptionLoop_encode hb (Nat.le_refl _)

/-- A list that the loop reads to its end is a list of options. -/
theorem confOptionLoop_split {fuel : Nat} {bytes : List UInt8}
    (hopt : ∀ type d c e, option type d c = .error e → e ≠ .NO_ERROR) (hf : bytes.length ≤ fuel)
    (h : (confOptionLoop option fuel bytes config).1 = .NO_ERROR) :
    ∃ options, bytes = encodeConf options ∧ ∀ o ∈ options, o.2.length ≤ 253 := by
  induction fuel generalizing bytes config with
  | zero =>
    obtain rfl := List.length_eq_zero_iff.mp (Nat.le_zero.mp hf)
    exact ⟨[], rfl, fun _ h => absurd h List.not_mem_nil⟩
  | succ fuel ih =>
    rcases bytes with _ | ⟨type, _ | ⟨length, rest⟩⟩
    · exact ⟨[], rfl, fun _ h => absurd h List.not_mem_nil⟩
    · cases h
    · rw [confOptionLoop] at h
      simp only [List.length_cons] at hf
      by_cases h1 : length.toNat < 2
      · rw [if_pos h1] at h
        cases h
      rw [if_neg h1] at h
      by_cases h2 : length.toNat > rest.length + 2
      · rw [if_pos h2] at h
        cases h
      rw [if_neg h2] at h
      have htake : (rest.take (length.toNat - 2)).length = length.toNat - 2 := by
        rw [List.length_take, Nat.min_eq_left (by omega)]
      have hbyte := length.toNat_lt
      cases hc : option type (rest.take (length.toNat - 2)) config with
      | error e =>
        rw [hc] at h
        exact absurd h (hopt _ _ _ _ hc)
      | ok config' =>
        rw [hc] at h
        obtain ⟨options, he, hb⟩ := ih (by rw [List.length_drop]; omega) h
        refine ⟨(type, rest.take (length.toNat - 2)) :: options, ?_, fun o ho => ?_⟩
        · have hl : UInt8.ofNat (length.toNat - 2 + 2) = length := by
            rw [Nat.sub_add_cancel (by omega), UInt8.ofNat_toNat]
          show type :: length :: rest = type :: UInt8.ofNat (_ + 2) :: (_ ++ encodeConf options)
          rw [htake, hl, ← he, List.take_append_drop]
        · rcases List.mem_cons.mp ho with rfl | ho
          · dsimp only
            omega
          · exact hb o ho

end Loop

/-! ## The answer -/

section Answer

variable {settings : AuthSettings} {peer : LcpPeerConfig} {options : List ConfOption}
  {flags : Bool × Bool}

/-- The parser does not stop at the option. -/
def Parses (o : ConfOption) : Prop := WellFormedOption o ∧ KnownAuth o

theorem lcpCheckOption_error {type : UInt8} {d : List UInt8} {e : PppError}
    (h : lcpCheckOption settings peer type d flags = .error e) : e = .INVALID_LENGTH := by
  unfold lcpCheckOption at h
  split at h <;> cases h
  rfl

theorem lcpCheckOption_ok {o : ConfOption} (ho : Parses o) :
    lcpCheckOption settings peer o.1 o.2 flags =
      .ok (flags.1 || decide (¬Recognized settings o),
        flags.2 || decide (Recognized settings o ∧ ¬Accepts settings o)) := by
  have hp := @parsed_option settings (peer, none) o ho.1.byte
  unfold lcpCheckOption
  cases hc : (lcpParseOption settings o.1 o.2 (peer, none)).1 with
  | NO_ERROR => simp [hp.ok hc]
  | INVALID_TYPE => simp [hp.type hc]
  | INVALID_VALUE => simp [hp.value hc]
  | INVALID_LENGTH => exact absurd ho (hp.length.mp hc)

theorem lcpCheckOption_stop {o : ConfOption} (hb : o.2.length ≤ 253) (ho : ¬Parses o) :
    lcpCheckOption settings peer o.1 o.2 flags = .error .INVALID_LENGTH := by
  have hp := (@parsed_option settings (peer, none) o hb).length.mpr ho
  unfold lcpCheckOption
  rw [hp]

/-- The first loop: whether all options are parsed, and what is wrong with them. -/
theorem applyAll_check (h : ∀ o ∈ options, Parses o) :
    applyAll (lcpCheckOption settings peer) options flags =
      (.NO_ERROR, flags.1 || decide (∃ o ∈ options, ¬Recognized settings o),
        flags.2 || decide (∃ o ∈ options, Recognized settings o ∧ ¬Accepts settings o)) := by
  induction options generalizing flags with
  | nil => simp [applyAll]
  | cons o options ih =>
    rw [applyAll, lcpCheckOption_ok (h o List.mem_cons_self)]
    dsimp only
    rw [ih fun o ho => h o (List.mem_cons_of_mem _ ho)]
    simp only [Bool.or_assoc, List.exists_mem_cons_iff, Bool.decide_or]

theorem applyAll_check_stop (hb : ∀ o ∈ options, o.2.length ≤ 253)
    (h : ¬∀ o ∈ options, Parses o) :
    (applyAll (lcpCheckOption settings peer) options flags).1 = .INVALID_LENGTH := by
  induction options generalizing flags with
  | nil => exact absurd (fun _ h => absurd h List.not_mem_nil) h
  | cons o options ih =>
    rw [applyAll]
    by_cases ho : Parses o
    · rw [lcpCheckOption_ok ho]
      refine ih (fun o ho => hb o (List.mem_cons_of_mem _ ho)) fun hall => h fun v hv => ?_
      rcases List.mem_cons.mp hv with rfl | hv
      · exact ho
      · exact hall v hv
    · rw [lcpCheckOption_stop (hb o List.mem_cons_self) ho]

/-- Options that are added one by one. -/
def addAll (out : ConfigureAckNak) (answers : List ConfOption) : ConfigureAckNak :=
  answers.foldl (fun out a => out.add a.1 a.2) out

theorem addAll_contents (out : ConfigureAckNak) (answers : List ConfOption) :
    (addAll out answers).code = out.code ∧ (addAll out answers).identifier = out.identifier ∧
      (addAll out answers).options = out.options ++ encodeConf answers ∧
      out.written ≤ (addAll out answers).written := by
  induction answers generalizing out with
  | nil => exact ⟨rfl, rfl, (List.append_nil _).symm, Nat.le_refl _⟩
  | cons a answers ih =>
    obtain ⟨h1, h2, h3, h4⟩ := ih (out.add a.1 a.2)
    refine ⟨h1, h2, ?_, (Nat.le_max_left _ _).trans h4⟩
    show (addAll (out.add a.1 a.2) answers).options = _
    rw [h3, ConfigureAckNak.add, List.append_assoc]
    rfl

theorem length_encodeConf_cons (a : ConfOption) (answers : List ConfOption) :
    (encodeConf (a :: answers)).length = a.2.length + 2 + (encodeConf answers).length := by
  rw [encodeConf, List.flatMap_cons, List.length_append, pppAddOption]
  rfl

/-- Options that fit into the buffer: the length field is the end of the last one. -/
theorem addAll_fits {out : ConfigureAckNak} {answers : List ConfOption} {allocated : Nat}
    (hsize : allocated < 65536) (hw : out.written = out.length)
    (hf : out.length + (encodeConf answers).length ≤ allocated) :
    (addAll out answers).length = out.length + (encodeConf answers).length ∧
      (addAll out answers).written = out.length + (encodeConf answers).length := by
  induction answers generalizing out with
  | nil => exact ⟨rfl, hw⟩
  | cons a answers ih =>
    rw [length_encodeConf_cons] at hf ⊢
    have hmod : (out.length + (a.2.length + 2)) % 65536 = out.length + (a.2.length + 2) :=
      Nat.mod_eq_of_lt (by omega)
    have hlen : (out.add a.1 a.2).length = out.length + (a.2.length + 2) := hmod
    have hwr : (out.add a.1 a.2).written = (out.add a.1 a.2).length := by
      rw [hlen]
      show max out.written (out.length + (a.2.length + 2)) = _
      rw [hw]
      omega
    have hnext := ih hwr (by rw [hlen]; omega)
    rw [hlen] at hnext
    rw [← Nat.add_assoc]
    exact hnext

/-- Options that do not fit: one of them is written beyond the end. -/
theorem addAll_beyond {out : ConfigureAckNak} {answers : List ConfOption} {allocated : Nat}
    (hsize : allocated < 65536) (hw : out.written = out.length) (hout : out.length ≤ allocated)
    (hf : allocated < out.length + (encodeConf answers).length) :
    allocated < (addAll out answers).written := by
  induction answers generalizing out with
  | nil => exact absurd hf (Nat.not_lt.mpr hout)
  | cons a answers ih =>
    rw [length_encodeConf_cons] at hf
    by_cases hfit : out.length + (a.2.length + 2) ≤ allocated
    · have hlen : (out.add a.1 a.2).length = out.length + (a.2.length + 2) :=
        Nat.mod_eq_of_lt (by omega)
      refine ih ?_ (by rw [hlen]; exact hfit) (by rw [hlen]; omega)
      rw [hlen]
      show max out.written (out.length + (a.2.length + 2)) = _
      rw [hw]
      omega
    · have hmono := (addAll_contents (out.add a.1 a.2) answers).2.2.2
      have hmax : out.length + (a.2.length + 2) ≤ (out.add a.1 a.2).written := Nat.le_max_right _ _
      show allocated < (addAll (out.add a.1 a.2) answers).written
      omega

/-- The second loop adds what the code of the packet is about. -/
theorem applyAll_answer (h : ∀ o ∈ options, Parses o) (out : ConfigureAckNak) :
    (applyAll (lcpAnswerOption settings) options (peer, some out)).2.2 =
      some (addAll out (options.filterMap (answerOption settings out.code))) := by
  induction options generalizing peer out with
  | nil => rfl
  | cons o options ih =>
    have ho := h o List.mem_cons_self
    have hp := @parsed_option settings (peer, some out) o ho.1.byte
    have hout := hp.out fun hc => hp.length.mp hc ho
    rw [Option.map_some] at hout
    rw [applyAll, lcpAnswerOption]
    dsimp only
    generalize (lcpParseOption settings o.1 o.2 (peer, some out)).2 = s at hout ⊢
    obtain ⟨peer', out'⟩ := s
    dsimp only at hout
    subst hout
    rw [ih fun o ho => h o (List.mem_cons_of_mem _ ho), List.filterMap_cons]
    cases answerOption settings out.code o with
    | none => rfl
    | some a => rfl

end Answer

end Cyclone
