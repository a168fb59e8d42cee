import Cyclone.CoapOptions

/-!
# Cyclone.CoapEdits

The edits of a CoAP message: what they write outside the buffer, and what they leave of the
message when they fail.

* `Intact`: nothing is written behind the buffer, the message fits, and a failed edit has not
  changed it.
* `CoapEdit.Safe`: no replacement that does not fit, no malformed option behind one taken out,
  no payload that fills the buffer or takes the place of a shorter one without fitting.
* `coapEdit_intact`: an edit leaves the message intact exactly then.
-/

namespace Cyclone

open Ring

/-- What an edit is to leave: the memory behind the buffer as it was, a message that fits, and
after a failure the message as it was. -/
structure Intact (message : CoapMessage) (result : CoapError × CoapMessage) : Prop where
  outside : result.2.buffer.drop COAP_MAX_MSG_SIZE = message.buffer.drop COAP_MAX_MSG_SIZE
  fits : result.2.length ≤ COAP_MAX_MSG_SIZE
  failed : result.1 ≠ .NO_ERROR →
    result.2.length = message.length ∧ result.2.bytes = message.bytes

/-- The header and the search at the start of `coapSetOption` and `coapDeleteOption`. -/
def coapFindOption (message : CoapMessage) (optionNum : BitVec 16) (optionIndex : Nat) :
    Except CoapError OptionSearch := do
  let n ← coapParseMessageHeader message.bytes
  searchOption message.buffer optionNum.toNat optionIndex message.length n (message.length - n) 0 0

inductive CoapEdit where
  | setOption (optionNum : BitVec 16) (optionIndex : Nat) (optionValue : List UInt8)
  | setUintOption (optionNum : BitVec 16) (optionIndex : Nat) (optionValue : BitVec 32)
  | deleteOption (optionNum : BitVec 16) (optionIndex : Nat)
  | setPayload (payload : List UInt8)
  | writePayload (data : List UInt8)

def CoapEdit.run (message : CoapMessage) : CoapEdit → CoapError × CoapMessage
  | .setOption num idx value => coapSetOption message num idx value
  | .setUintOption num idx value => coapSetUintOption message num idx value
  | .deleteOption num idx => coapDeleteOption message num idx
  | .setPayload payload => coapSetPayload message payload
  | .writePayload data => coapWritePayload message data

/-- An occurrence that is replaced leaves enough room for the new one. -/
def ReplacementFits (message : CoapMessage) (optionNum : BitVec 16) (optionIndex : Nat)
    (optionValue : List UInt8) : Prop :=
  ∀ s, coapFindOption message optionNum optionIndex = .ok s → s.found →
    message.length - s.n +
        ((optionHeader (u16Sub optionNum.toNat s.prevOptionNum) optionValue.length).length +
          optionValue.length) ≤ COAP_MAX_MSG_SIZE

/-- The parser reads what follows the occurrence that is taken out. -/
def SuccessorParses (message : CoapMessage) (optionNum : BitVec 16) (optionIndex : Nat) : Prop :=
  ∀ s, coapFindOption message optionNum optionIndex = .ok s → s.found → s.n < s.length →
    message.buffer[s.p + s.n]? ≠ some COAP_PAYLOAD_MARKER →
      ∃ option n, coapParseOption message.buffer (s.p + s.n) (s.length - s.n) optionNum.toNat =
        .ok (option, n)

/-- The condition on the message and the arguments of an edit. -/
def CoapEdit.Safe (message : CoapMessage) : CoapEdit → Prop
  | .setOption num idx value => ReplacementFits message num idx value
  | .setUintOption num idx value =>
    ReplacementFits message num idx (uintOptionBytes 4 value.toNat [])
  | .deleteOption num idx => SuccessorParses message num idx
  | .setPayload payload => payload ≠ [] → ∀ p, payloadStart message = .ok p →
      p + payload.length + 1 ≠ COAP_MAX_MSG_SIZE ∧
        (p < message.length → p + payload.length + 1 ≤ COAP_MAX_MSG_SIZE)
  | .writePayload data => data ≠ [] → ∀ p, payloadStart message = .ok p →
      message.length + data.length + (if p = message.length then 1 else 0) ≠ COAP_MAX_MSG_SIZE

/-! ## Reading -/

/-- What the parser reads: a delta, a length, and where the value begins. -/
theorem coapParseOption_read {buffer : List UInt8} {p length prev n : Nat} {o : CoapOption}
    (h : coapParseOption buffer p length prev = .ok (o, n)) :
    ∃ delta, delta < FIELD_END ∧ o.length < FIELD_END ∧ o.number = u16 (u16 delta + prev) ∧
      o.value = .inMessage (p + (optionHeader delta o.length).length) ∧
      n = (optionHeader delta o.length).length + o.length ∧ n ≤ length := by
  obtain ⟨delta, value, rest, hd, hl, hb⟩ := parsed_header h
  rw [coapParseOption_header hb hd hl] at h
  simp only [Except.ok.injEq, Prod.mk.injEq] at h
  obtain ⟨rfl, rfl⟩ := h
  refine ⟨delta, hd, hl, rfl, rfl, rfl, ?_⟩
  have hlen := congrArg List.length hb
  simp only [List.length_take, List.length_append] at hlen
  omega

theorem length_optionHeader_pos (delta length : Nat) : 0 < (optionHeader delta length).length := by
  rw [length_optionHeader]
  omega

/-- The parser reads the same option from the same bytes, wherever they are. -/
theorem coapParseOption_moved {buffer buffer' : List UInt8} {p p' length prev n : Nat}
    {o : CoapOption} (h : coapParseOption buffer p length prev = .ok (o, n))
    (hb : (buffer'.drop p').take length = (buffer.drop p).take length) :
    ∃ o', coapParseOption buffer' p' length prev = .ok (o', n) ∧ o'.number = o.number ∧
      o'.length = o.length := by
  obtain ⟨delta, value, rest, hd, hl, hold⟩ := parsed_header h
  rw [coapParseOption_header hold hd hl] at h
  simp only [Except.ok.injEq, Prod.mk.injEq] at h
  obtain ⟨rfl, rfl⟩ := h
  exact ⟨_, coapParseOption_header (hb.trans hold) hd hl, rfl, rfl⟩

theorem coapParseOption_congr {buffer buffer' : List UInt8} {p length prev : Nat}
    (hb : (buffer'.drop p).take length = (buffer.drop p).take length) :
    coapParseOption buffer' p length prev = coapParseOption buffer p length prev := by
  rw [coapParseOption, hb, coapParseOption]

/-- Where a search stops, and why. -/
structure Stopped (buffer : List UInt8) (optionNum stop : Nat) (s : OptionSearch) : Prop where
  here : s.p + s.length = stop
  prev : s.prevOptionNum ≤ optionNum
  found : s.found → ∃ o, coapParseOption buffer s.p s.length s.prevOptionNum = .ok (o, s.n) ∧
    o.number = optionNum
  next : s.found = false → 0 < s.length → buffer[s.p]? ≠ some COAP_PAYLOAD_MARKER →
    ∃ o, coapParseOption buffer s.p s.length s.prevOptionNum = .ok (o, s.n) ∧ optionNum < o.number

theorem searchOption_stopped {buffer : List UInt8} {optionNum optionIndex : Nat} :
    ∀ {fuel p length prev index : Nat} {s : OptionSearch}, length ≤ fuel → prev ≤ optionNum →
      searchOption buffer optionNum optionIndex fuel p length prev index = .ok s →
      Stopped buffer optionNum (p + length) s := by
  intro fuel
  induction fuel with
  | zero =>
    intro p length prev index s hfuel hprev h
    simp only [searchOption, Except.ok.injEq] at h
    subst h
    exact ⟨rfl, hprev, by simp, fun _ hpos => absurd hfuel (Nat.not_le_of_lt hpos)⟩
  | succ fuel ih =>
    intro p length prev index s hfuel hprev h
    rw [searchOption] at h
    split at h
    case isTrue hends =>
      simp only [Except.ok.injEq] at h
      subst h
      refine ⟨rfl, hprev, by simp, fun _ hpos hne => ?_⟩
      have hzero : length ≠ 0 := Nat.ne_of_gt hpos
      exact absurd hends (by simp [hzero, hne])
    case isFalse hgoes =>
      cases ho : coapParseOption buffer p length prev with
      | error e => rw [ho] at h; simp [bind, Except.bind] at h
      | ok option =>
        obtain ⟨o, n⟩ := option
        obtain ⟨delta, -, -, -, -, hn, hle⟩ := coapParseOption_read ho
        have hpos := length_optionHeader_pos delta o.length
        have hend : p + n + (length - n) = p + length := by omega
        have hless : length - n ≤ fuel := by omega
        rw [ho] at h
        simp only [bind, Except.bind] at h
        split_ifs at h with hgt heq hidx
        · simp only [Except.ok.injEq] at h
          subst h
          exact ⟨rfl, hprev, by simp, fun _ _ _ => ⟨o, ho, hgt⟩⟩
        · simp only [Except.ok.injEq] at h
          subst h
          exact ⟨rfl, hprev, fun _ => ⟨o, ho, heq⟩, by simp⟩
        · exact hend ▸ ih hless (by omega) h
        · exact hend ▸ ih hless (by omega) h

theorem coapParseMessageHeader_le {p : List UInt8} {n : Nat}
    (h : coapParseMessageHeader p = .ok n) : n ≤ p.length := by
  unfold coapParseMessageHeader at h
  split_ifs at h
  simp only [Except.ok.injEq] at h
  omega

theorem header_le {message : CoapMessage} {n : Nat}
    (h : coapParseMessageHeader message.bytes = .ok n) : n ≤ message.length := by
  have := coapParseMessageHeader_le h
  simp only [CoapMessage.bytes, List.length_take] at this
  omega

theorem coapFindOption_stopped {message : CoapMessage} {optionNum : BitVec 16} {optionIndex : Nat}
    {s : OptionSearch} (h : coapFindOption message optionNum optionIndex = .ok s) :
    Stopped message.buffer optionNum.toNat message.length s := by
  unfold coapFindOption at h
  cases hn : coapParseMessageHeader message.bytes with
  | error e => rw [hn] at h; simp [bind, Except.bind] at h
  | ok n =>
    rw [hn] at h
    have hle := header_le hn
    have := searchOption_stopped (by omega) (Nat.zero_le _) h
    rwa [Nat.add_sub_cancel' hle] at this

/-- What was found begins where the search stopped, and takes at least one byte. -/
theorem Stopped.size {buffer : List UInt8} {optionNum stop : Nat} {s : OptionSearch}
    (hs : Stopped buffer optionNum stop s) (hfound : s.found) : 0 < s.n ∧ s.n ≤ s.length := by
  obtain ⟨o, ho, -⟩ := hs.found hfound
  obtain ⟨delta, -, -, -, -, hn, hle⟩ := coapParseOption_read ho
  have := length_optionHeader_pos delta o.length
  omega

/-! ## Writing -/

/-- An option is written where it has room: what lies behind it stays. -/
theorem coapFormatOption_behind (buffer : List UInt8) (p prev : Nat) (o : CoapOption) {m : Nat}
    (h : p + ((optionHeader (u16Sub o.number prev) o.length).length + o.length) ≤ m)
    (hm : m ≤ buffer.length) :
    (coapFormatOption buffer (some p) prev o).2.1.length = buffer.length ∧
      (coapFormatOption buffer (some p) prev o).2.1.drop m = buffer.drop m := by
  simp only [coapFormatOption]
  generalize optionHeader (u16Sub o.number prev) o.length = header at h ⊢
  have hhead : (splice buffer p header).length = buffer.length := length_splice (by omega)
  have hvalue : (o.value.read (splice buffer p header) o.length).length ≤ o.length := by
    cases o.value with
    | inMessage q => simp [CoapValue.read]
    | given bytes => simp [CoapValue.read]
  constructor
  · rw [length_splice (by omega), hhead]
  · rw [drop_splice (by omega) (by omega), drop_splice (by omega) hm]

/-- After a failure that has changed the length the message is not intact. -/
theorem not_intact {message message' : CoapMessage} {e : CoapError} (he : e ≠ .NO_ERROR)
    (h : message'.length ≠ message.length) : ¬ Intact message (e, message') :=
  fun hi => h (hi.failed he).1

theorem intact_of_ok {message message' : CoapMessage}
    (houtside : message'.buffer.drop COAP_MAX_MSG_SIZE = message.buffer.drop COAP_MAX_MSG_SIZE)
    (hlen : message'.length ≤ COAP_MAX_MSG_SIZE) : Intact message (.NO_ERROR, message') :=
  ⟨houtside, hlen, fun h => absurd rfl h⟩

/-- Without room for the option the insertion fails, after what was found has been taken out. -/
theorem insertOption_over {message : CoapMessage} {s : OptionSearch} {optionNum : Nat}
    {optionValue : List UInt8}
    (h : COAP_MAX_MSG_SIZE < (if s.found then removeFound message s else message).length +
      ((optionHeader (u16Sub optionNum s.prevOptionNum) optionValue.length).length +
        optionValue.length)) :
    insertOption message s optionNum optionValue =
      (.BUFFER_OVERFLOW, if s.found then removeFound message s else message) := by
  unfold insertOption
  exact if_pos h

/-- With room for it the option is written, and its successor seen to. -/
theorem insertOption_room (message m : CoapMessage) {s : OptionSearch} (length : Nat)
    {optionNum n : Nat} {optionValue : List UInt8} {o : CoapOption}
    (hm : m = if s.found then removeFound message s else message)
    (hlength : length = if s.found then s.length - s.n else s.length)
    (ho : o = ⟨u16Sub optionNum s.prevOptionNum, optionNum, optionValue.length, .given optionValue⟩)
    (hn : n = (optionHeader o.delta o.length).length + o.length)
    (hroom : m.length + n ≤ COAP_MAX_MSG_SIZE) :
    let buffer := (coapFormatOption (move m.buffer (s.p + n) s.p length) (some s.p)
      s.prevOptionNum o).2.1
    insertOption message s optionNum optionValue =
      if length > 0 ∧ buffer[s.p + n]? ≠ some COAP_PAYLOAD_MARKER ∧ s.found = false then
        fixNextInserted ⟨buffer, m.length + n⟩ (s.p + n) length s.prevOptionNum optionNum
      else (.NO_ERROR, ⟨buffer, m.length + n⟩) := by
  subst hm hlength ho hn
  unfold insertOption
  exact if_neg (Nat.not_lt_of_le hroom)

section Edits

variable {message : CoapMessage} (hroom : COAP_MAX_MSG_SIZE ≤ message.buffer.length)
  (hfits : message.length ≤ COAP_MAX_MSG_SIZE)

include hroom

theorem removeFound_behind {s : OptionSearch} (hn : s.n ≤ s.length)
    (hs : s.p + s.length ≤ COAP_MAX_MSG_SIZE) :
    (removeFound message s).buffer.length = message.buffer.length ∧
      (removeFound message s).buffer.drop COAP_MAX_MSG_SIZE =
        message.buffer.drop COAP_MAX_MSG_SIZE :=
  ⟨length_move (by omega), drop_move (by omega) hroom⟩

/-- The successor of an inserted option gets a delta that is not larger: it is read again, and
written in its place. -/
theorem fixNextInserted_behind {p length prev optionNum n : Nat} {o : CoapOption}
    (ho : coapParseOption message.buffer p length prev = .ok (o, n)) (hprev : prev ≤ optionNum)
    (hnext : optionNum < o.number) (hend : p + length ≤ COAP_MAX_MSG_SIZE) :
    ∃ message', fixNextInserted message p length prev optionNum = (.NO_ERROR, message') ∧
      message'.buffer.drop COAP_MAX_MSG_SIZE = message.buffer.drop COAP_MAX_MSG_SIZE ∧
      message'.length ≤ message.length := by
  obtain ⟨delta, -, -, hnum, -, hn, hle⟩ := coapParseOption_read ho
  have h16 : o.number < 65536 := hnum ▸ u16_lt _
  have hdelta : u16Sub o.number optionNum ≤ delta := by
    rw [u16Sub_of_le (by omega) h16]
    have h1 := u16_le (u16 delta + prev)
    have h2 := u16_le delta
    omega
  have hsize := optionHeader_mono hdelta o.length
  obtain ⟨hlen, hdrop⟩ := coapFormatOption_behind message.buffer p optionNum o
    (show p + _ ≤ COAP_MAX_MSG_SIZE by omega) hroom
  simp only [fixNextInserted, ho]
  generalize coapFormatOption message.buffer (some p) optionNum o = r at hlen hdrop ⊢
  obtain ⟨o', buffer, m⟩ := r
  simp only at hlen hdrop ⊢
  split_ifs with hm
  · refine ⟨_, rfl, ?_, by simp⟩
    rw [drop_move (by omega) (by omega), hdrop]
  · exact ⟨_, rfl, hdrop, le_rfl⟩

/-- Room is made for an option, and the option is written: the bytes that made room for it are
read behind it. -/
theorem writeOption_behind (p length prev : Nat) (o : CoapOption) {n : Nat}
    (hn : n = (optionHeader (u16Sub o.number prev) o.length).length + o.length)
    (hend : p + n + length ≤ COAP_MAX_MSG_SIZE) :
    let buffer := (coapFormatOption (move message.buffer (p + n) p length) (some p) prev o).2.1
    buffer.length = message.buffer.length ∧
      buffer.drop COAP_MAX_MSG_SIZE = message.buffer.drop COAP_MAX_MSG_SIZE ∧
      (buffer.drop (p + n)).take length = (message.buffer.drop p).take length := by
  have hmove : (move message.buffer (p + n) p length).length = message.buffer.length :=
    length_move (by omega)
  obtain ⟨hlen, hdrop⟩ := coapFormatOption_behind (move message.buffer (p + n) p length) p prev o
    (m := COAP_MAX_MSG_SIZE) (by omega) (by omega)
  obtain ⟨-, hblock⟩ := coapFormatOption_behind (move message.buffer (p + n) p length) p prev o
    (m := p + n) (by omega) (by omega)
  refine ⟨hlen.trans hmove, hdrop.trans (drop_move (by omega) hroom), ?_⟩
  rw [hblock, block_move (by omega) (by omega)]

/-- The successor of an option that was taken out gets the sum of both deltas, whose bytes fit in
those of both headers. -/
theorem fixNextDeleted_behind {p length prev optionNum n size delta len : Nat} {o : CoapOption}
    (ho : coapParseOption message.buffer p length optionNum = .ok (o, n))
    (hnum : optionNum = u16 (u16 delta + prev)) (hsize : (optionHeader delta len).length ≤ size)
    (hend : p + length = message.length) (hfits : message.length + size ≤ COAP_MAX_MSG_SIZE) :
    ∃ message', fixNextDeleted message p length prev optionNum = (.NO_ERROR, message') ∧
      message'.buffer.drop COAP_MAX_MSG_SIZE = message.buffer.drop COAP_MAX_MSG_SIZE ∧
      message'.length ≤ COAP_MAX_MSG_SIZE := by
  obtain ⟨delta', -, -, hnum', -, hn, hle⟩ := coapParseOption_read ho
  have hsum : u16Sub o.number prev ≤ delta + delta' := by
    simp only [hnum', hnum, u16Sub, u16]
    omega
  have hgrows := (optionHeader_mono hsum o.length).trans
    (optionHeader_add delta delta' len o.length)
  generalize hm : (optionHeader (u16Sub o.number prev) o.length).length + o.length = m at *
  unfold fixNextDeleted
  simp only [ho]
  have hmeasure : (coapFormatOption message.buffer none prev o).2.2 = m := hm
  have hlength : (coapFormatOption message.buffer none prev o).1.length = o.length := rfl
  have hnumber : (coapFormatOption message.buffer none prev o).1.number = o.number := rfl
  generalize coapFormatOption message.buffer none prev o = r at hmeasure hlength hnumber ⊢
  obtain ⟨o1, buffer1, m1⟩ := r
  simp only at hmeasure hlength hnumber ⊢
  subst hmeasure
  split_ifs with hlarger
  · refine ⟨_, rfl, ?_, by simp only; omega⟩
    have hmove : (move message.buffer (p + m1 - o1.length) (p + n - o1.length)
        (length + o1.length - n)).length = message.buffer.length := length_move (by omega)
    refine (coapFormatOption_behind _ _ _ _ ?_ (hmove ▸ hroom)).2.trans (drop_move (by omega) hroom)
    simp only [hlength, hnumber]
    omega
  · refine ⟨_, rfl, ?_, by simp only; omega⟩
    exact (coapFormatOption_behind _ _ _ o1 (by rw [hlength, hnumber]; omega) hroom).2

include hfits

theorem insertOption_replaces {s : OptionSearch} {optionNum : Nat} {optionValue : List UInt8}
    (hs : Stopped message.buffer optionNum message.length s) (hfound : s.found = true)
    (hsize : message.length - s.n +
      ((optionHeader (u16Sub optionNum s.prevOptionNum) optionValue.length).length +
        optionValue.length) ≤ COAP_MAX_MSG_SIZE) :
    Intact message (insertOption message s optionNum optionValue) := by
  obtain ⟨hpos, hn⟩ := hs.size hfound
  have hhere := hs.here
  obtain ⟨hlen, hdrop⟩ := removeFound_behind hroom hn (by omega)
  rw [insertOption_room message (removeFound message s) (s.length - s.n)
    (by simp [hfound]) (by simp [hfound]) rfl rfl hsize]
  rw [if_neg (by simp [hfound])]
  obtain ⟨-, hbehind, -⟩ := writeOption_behind
    (show COAP_MAX_MSG_SIZE ≤ (removeFound message s).buffer.length by omega)
    s.p (s.length - s.n) s.prevOptionNum
    ⟨u16Sub optionNum s.prevOptionNum, optionNum, optionValue.length, .given optionValue⟩
    rfl (by simp only; omega)
  exact intact_of_ok (hbehind.trans hdrop) hsize

theorem insertOption_adds {s : OptionSearch} {optionNum : Nat} {optionValue : List UInt8}
    (hs : Stopped message.buffer optionNum message.length s) (hfound : s.found = false) :
    Intact message (insertOption message s optionNum optionValue) := by
  have hhere := hs.here
  by_cases hsize : message.length +
      ((optionHeader (u16Sub optionNum s.prevOptionNum) optionValue.length).length +
        optionValue.length) ≤ COAP_MAX_MSG_SIZE
  · rw [insertOption_room message message s.length
      (by simp [hfound]) (by simp [hfound]) rfl rfl hsize]
    obtain ⟨hlen, hbehind, hblock⟩ := writeOption_behind hroom
      s.p s.length s.prevOptionNum
      ⟨u16Sub optionNum s.prevOptionNum, optionNum, optionValue.length, .given optionValue⟩
      rfl (by simp only; omega)
    simp only at hlen hbehind hblock ⊢
    generalize (optionHeader (u16Sub optionNum s.prevOptionNum) optionValue.length).length +
      optionValue.length = n at *
    generalize (coapFormatOption (move message.buffer (s.p + n) s.p s.length) (some s.p)
      s.prevOptionNum _).2.1 = buffer at *
    split_ifs with hnext
    · -- The successor is the option at which the search stopped.
      obtain ⟨hpos, hmarker, -⟩ := hnext
      have hsame : message.buffer[s.p]? = buffer[s.p + n]? := by
        have := congrArg List.head? hblock
        simpa [List.head?_take, Nat.ne_of_gt hpos] using this.symm
      obtain ⟨o, ho, hnum⟩ := hs.next hfound hpos (hsame ▸ hmarker)
      obtain ⟨o', ho', hnum', -⟩ := coapParseOption_moved ho hblock
      obtain ⟨message', hfix, hdrop, hless⟩ := fixNextInserted_behind
        (show _ ≤ (CoapMessage.mk buffer (message.length + n)).buffer.length by simp only; omega)
        ho' hs.prev (by omega) (by omega)
      rw [hfix]
      exact intact_of_ok (hdrop.trans hbehind) (hless.trans hsize)
    · exact intact_of_ok hbehind hsize
  · rw [insertOption_over (by simpa [hfound] using hsize), hfound]
    exact ⟨rfl, hfits, fun _ => ⟨rfl, rfl⟩⟩

theorem insertOption_intact {s : OptionSearch} {optionNum : Nat} {optionValue : List UInt8}
    (hs : Stopped message.buffer optionNum message.length s) :
    Intact message (insertOption message s optionNum optionValue) ↔
      (s.found → message.length - s.n +
        ((optionHeader (u16Sub optionNum s.prevOptionNum) optionValue.length).length +
          optionValue.length) ≤ COAP_MAX_MSG_SIZE) := by
  cases hfound : s.found with
  | true =>
    refine ⟨fun hi _ => ?_, fun h => insertOption_replaces hroom hfits hs hfound (h rfl)⟩
    by_contra hsize
    obtain ⟨hpos, hn⟩ := hs.size hfound
    have hhere := hs.here
    rw [insertOption_over (by simpa [hfound, removeFound] using hsize), hfound] at hi
    refine not_intact (by simp) ?_ hi
    simp only [if_true, removeFound]
    omega
  | false => exact ⟨fun _ h => absurd h (by simp), fun _ => insertOption_adds hroom hfits hs hfound⟩

theorem deleteFound_intact {s : OptionSearch} {optionNum : Nat}
    (hs : Stopped message.buffer optionNum message.length s) :
    Intact message (deleteFound message s optionNum) ↔
      (s.found → s.n < s.length → message.buffer[s.p + s.n]? ≠ some COAP_PAYLOAD_MARKER →
        ∃ o n, coapParseOption message.buffer (s.p + s.n) (s.length - s.n) optionNum =
          .ok (o, n)) := by
  unfold deleteFound
  cases hfound : s.found with
  | false => exact ⟨fun _ h => absurd h (by simp), fun _ => intact_of_ok rfl hfits⟩
  | true =>
    obtain ⟨hpos, hn⟩ := hs.size hfound
    have hhere := hs.here
    obtain ⟨hlen, hdrop⟩ := removeFound_behind hroom hn (by omega)
    have hless : (removeFound message s).length = message.length - s.n := rfl
    have hblock : ((removeFound message s).buffer.drop s.p).take (s.length - s.n) =
        (message.buffer.drop (s.p + s.n)).take (s.length - s.n) :=
      block_move (by omega) (by omega)
    have hsame : 0 < s.length - s.n →
        (removeFound message s).buffer[s.p]? = message.buffer[s.p + s.n]? := by
      intro h
      have := congrArg List.head? hblock
      simpa [List.head?_take, Nat.ne_of_gt h] using this
    simp only [if_true]
    split_ifs with hnext
    · obtain ⟨hrest, hmarker⟩ := hnext
      rw [hsame hrest] at hmarker
      cases ho : coapParseOption (removeFound message s).buffer s.p (s.length - s.n) optionNum with
      | ok option =>
        obtain ⟨o, n⟩ := option
        obtain ⟨first, hfirst, hnum⟩ := hs.found hfound
        obtain ⟨delta, -, -, hnum', -, hsize, -⟩ := coapParseOption_read hfirst
        obtain ⟨message', hfix, hbehind, hroom'⟩ := fixNextDeleted_behind (by omega) ho
          (hnum ▸ hnum') (show (optionHeader delta first.length).length ≤ s.n by omega)
          (by omega) (by omega)
        obtain ⟨o', ho', -⟩ := coapParseOption_moved ho hblock.symm
        rw [hfix]
        exact ⟨fun _ _ _ _ => ⟨o', n, ho'⟩, fun _ => intact_of_ok (hbehind.trans hdrop) hroom'⟩
      | error e =>
        have herror : fixNextDeleted (removeFound message s) s.p (s.length - s.n)
            s.prevOptionNum optionNum = (e, removeFound message s) := by
          unfold fixNextDeleted
          rw [ho]
        rw [herror]
        refine ⟨fun hi => ?_, fun h => ?_⟩
        · have hne : e ≠ .NO_ERROR := by
            rcases coapParseOption_error ho with rfl | rfl <;> simp
          exact absurd hi (not_intact hne (by omega))
        · obtain ⟨o, n, ho'⟩ := h trivial (by omega) hmarker
          obtain ⟨o', ho'', -⟩ := coapParseOption_moved ho' hblock
          rw [ho] at ho''
          simp at ho''
    · refine ⟨fun _ _ hlt hmarker => ?_, fun _ => intact_of_ok hdrop (by omega)⟩
      exact absurd ⟨by omega, by rw [hsame (by omega)]; exact hmarker⟩ hnext

end Edits

theorem coapSetOption_find (message : CoapMessage) (optionNum : BitVec 16) (optionIndex : Nat)
    (optionValue : List UInt8) :
    coapSetOption message optionNum optionIndex optionValue =
      match coapFindOption message optionNum optionIndex with
      | .error e => (e, message)
      | .ok s => insertOption message s optionNum.toNat optionValue := by
  unfold coapSetOption coapFindOption
  cases coapParseMessageHeader message.bytes with
  | error e => rfl
  | ok n => rfl

theorem coapDeleteOption_find (message : CoapMessage) (optionNum : BitVec 16)
    (optionIndex : Nat) :
    coapDeleteOption message optionNum optionIndex =
      match coapFindOption message optionNum optionIndex with
      | .error e => (e, message)
      | .ok s => deleteFound message s optionNum.toNat := by
  unfold coapDeleteOption coapFindOption
  cases coapParseMessageHeader message.bytes with
  | error e => rfl
  | ok n => rfl

theorem intact_refl (message : CoapMessage) (hfits : message.length ≤ COAP_MAX_MSG_SIZE)
    (e : CoapError) : Intact message (e, message) :=
  ⟨rfl, hfits, fun _ => ⟨rfl, rfl⟩⟩

theorem coapSetOption_intact {message : CoapMessage}
    (hroom : COAP_MAX_MSG_SIZE ≤ message.buffer.length)
    (hfits : message.length ≤ COAP_MAX_MSG_SIZE) (optionNum : BitVec 16) (optionIndex : Nat)
    (optionValue : List UInt8) :
    Intact message (coapSetOption message optionNum optionIndex optionValue) ↔
      ReplacementFits message optionNum optionIndex optionValue := by
  rw [coapSetOption_find, ReplacementFits]
  cases hs : coapFindOption message optionNum optionIndex with
  | error e => exact ⟨fun _ s h => absurd h (by simp), fun _ => intact_refl message hfits e⟩
  | ok s =>
    simp only [Except.ok.injEq, forall_eq']
    exact insertOption_intact hroom hfits (coapFindOption_stopped hs)

theorem coapDeleteOption_intact {message : CoapMessage}
    (hroom : COAP_MAX_MSG_SIZE ≤ message.buffer.length)
    (hfits : message.length ≤ COAP_MAX_MSG_SIZE) (optionNum : BitVec 16) (optionIndex : Nat) :
    Intact message (coapDeleteOption message optionNum optionIndex) ↔
      SuccessorParses message optionNum optionIndex := by
  rw [coapDeleteOption_find, SuccessorParses]
  cases hs : coapFindOption message optionNum optionIndex with
  | error e => exact ⟨fun _ s h => absurd h (by simp), fun _ => intact_refl message hfits e⟩
  | ok s =>
    simp only [Except.ok.injEq, forall_eq']
    exact deleteFound_intact hroom hfits (coapFindOption_stopped hs)

/-! ## The payload -/

theorem coapParseOptions_le {buffer : List UInt8} : ∀ {fuel p length number consumed : Nat},
    coapParseOptions buffer fuel p length number = .ok consumed → consumed ≤ length := by
  intro fuel
  induction fuel with
  | zero =>
    intro p length number consumed h
    simp only [coapParseOptions, Except.ok.injEq] at h
    omega
  | succ fuel ih =>
    intro p length number consumed h
    rw [coapParseOptions] at h
    split_ifs at h
    · simp only [Except.ok.injEq] at h
      omega
    · cases ho : coapParseOption buffer p length number with
      | error e => rw [ho] at h; simp [bind, Except.bind] at h
      | ok option =>
        obtain ⟨o, n⟩ := option
        obtain ⟨-, -, -, -, -, -, hle⟩ := coapParseOption_read ho
        rw [ho] at h
        simp only [bind, Except.bind] at h
        cases hr : coapParseOptions buffer fuel (p + n) (length - n) o.number with
        | error e => rw [hr] at h; simp at h
        | ok rest =>
          rw [hr] at h
          have hrest := ih hr
          simp only [Except.ok.injEq] at h
          omega

theorem payloadStart_le {message : CoapMessage} {p : Nat} (h : payloadStart message = .ok p) :
    p ≤ message.length := by
  unfold payloadStart at h
  cases hn : coapParseMessageHeader message.bytes with
  | error e => rw [hn] at h; simp [bind, Except.bind] at h
  | ok n =>
    have hle := header_le hn
    rw [hn] at h
    simp only [bind, Except.bind] at h
    cases hc : coapParseOptions message.buffer message.length n (message.length - n) 0 with
    | error e => rw [hc] at h; simp at h
    | ok consumed =>
      have := coapParseOptions_le hc
      rw [hc] at h
      simp only [Except.ok.injEq] at h
      omega

/-- A block and its terminator before `m`. -/
theorem terminated_inside {xs ys : List UInt8} {off m : Nat} (h : off + ys.length < m)
    (hm : m ≤ xs.length) :
    (splice (splice xs off ys) (off + ys.length) [0]).drop m = xs.drop m := by
  have hlen : (splice xs off ys).length = xs.length := length_splice (by omega)
  rw [drop_splice (by simp; omega) (by omega), drop_splice (by omega) hm]

/-- A block up to `m`: its terminator is behind. -/
theorem terminated_outside {xs ys : List UInt8} {off m : Nat} (h : off + ys.length = m)
    (hm : m ≤ xs.length) :
    ((splice (splice xs off ys) (off + ys.length) [0]).drop m).take 1 = [0] := by
  have hlen : (splice xs off ys).length = xs.length := length_splice (by omega)
  have := block_splice (splice xs off ys) [0] (show m ≤ _ by omega)
  rw [h]
  exact this

/-! ## The memory behind the buffer -/

/-- The message in memory, where `behind` follows its buffer. -/
def CoapMessage.before (message : CoapMessage) (behind : List UInt8) : CoapMessage :=
  { message with buffer := message.buffer ++ behind }

theorem block_before {buffer : List UInt8} (behind : List UInt8) {p length : Nat}
    (h : p + length ≤ buffer.length) :
    ((buffer ++ behind).drop p).take length = (buffer.drop p).take length := by
  rw [List.drop_append_of_le_length (by omega), List.take_append_of_le_length (by simp; omega)]

/-- The test at the head of the loops. -/
theorem ends_before {buffer : List UInt8} (behind : List UInt8) {p length : Nat}
    (h : p + length ≤ buffer.length) :
    (length = 0 ∨ (buffer ++ behind)[p]? = some COAP_PAYLOAD_MARKER) =
      (length = 0 ∨ buffer[p]? = some COAP_PAYLOAD_MARKER) := by
  by_cases hzero : length = 0
  · simp [hzero]
  · rw [List.getElem?_append_left (by omega)]

theorem searchOption_before {buffer : List UInt8} (behind : List UInt8) (num idx : Nat) :
    ∀ fuel {p length prev index : Nat}, p + length ≤ buffer.length →
      searchOption (buffer ++ behind) num idx fuel p length prev index =
        searchOption buffer num idx fuel p length prev index := by
  intro fuel
  induction fuel with
  | zero => intros; rfl
  | succ fuel ih =>
    intro p length prev index h
    rw [searchOption, searchOption]
    simp only [ends_before behind h, coapParseOption_congr (block_before behind h)]
    cases ho : coapParseOption buffer p length prev with
    | error e => rfl
    | ok option =>
      obtain ⟨o, n⟩ := option
      obtain ⟨-, -, -, -, -, -, hle⟩ := coapParseOption_read ho
      simp only [bind, Except.bind, ih (show p + n + (length - n) ≤ buffer.length by omega)]

theorem coapParseOptions_before {buffer : List UInt8} (behind : List UInt8) :
    ∀ fuel {p length number : Nat}, p + length ≤ buffer.length →
      coapParseOptions (buffer ++ behind) fuel p length number =
        coapParseOptions buffer fuel p length number := by
  intro fuel
  induction fuel with
  | zero => intros; rfl
  | succ fuel ih =>
    intro p length number h
    rw [coapParseOptions, coapParseOptions]
    simp only [ends_before behind h, coapParseOption_congr (block_before behind h)]
    cases ho : coapParseOption buffer p length number with
    | error e => rfl
    | ok option =>
      obtain ⟨o, n⟩ := option
      obtain ⟨-, -, -, -, -, -, hle⟩ := coapParseOption_read ho
      simp only [bind, Except.bind, ih (show p + n + (length - n) ≤ buffer.length by omega)]

section Before

variable {message : CoapMessage} (h : message.length ≤ message.buffer.length)
  (behind : List UInt8)

include h

theorem bytes_before : (message.before behind).bytes = message.bytes :=
  List.take_append_of_le_length h

theorem coapFindOption_before (optionNum : BitVec 16) (optionIndex : Nat) :
    coapFindOption (message.before behind) optionNum optionIndex =
      coapFindOption message optionNum optionIndex := by
  unfold coapFindOption
  rw [bytes_before h]
  cases hn : coapParseMessageHeader message.bytes with
  | error e => rfl
  | ok n =>
    have hle := header_le hn
    exact searchOption_before behind _ _ _ (show n + (message.length - n) ≤ _ by omega)

theorem payloadStart_before : payloadStart (message.before behind) = payloadStart message := by
  unfold payloadStart
  rw [bytes_before h]
  cases hn : coapParseMessageHeader message.bytes with
  | error e => rfl
  | ok n =>
    have hle := header_le hn
    simp only [bind, Except.bind, CoapMessage.before]
    rw [coapParseOptions_before behind _ (by omega)]

theorem replacementFits_before (optionNum : BitVec 16) (optionIndex : Nat)
    (optionValue : List UInt8) :
    ReplacementFits (message.before behind) optionNum optionIndex optionValue ↔
      ReplacementFits message optionNum optionIndex optionValue := by
  rw [ReplacementFits, coapFindOption_before h behind, ReplacementFits]
  rfl

theorem successorParses_before (optionNum : BitVec 16) (optionIndex : Nat) :
    SuccessorParses (message.before behind) optionNum optionIndex ↔
      SuccessorParses message optionNum optionIndex := by
  rw [SuccessorParses, coapFindOption_before h behind, SuccessorParses]
  refine forall_congr' fun s => forall_congr' fun hs => ?_
  have hhere := (coapFindOption_stopped hs).here
  refine forall_congr' fun _ => forall_congr' fun hlt => ?_
  have hblock := block_before behind
    (show s.p + s.n + (s.length - s.n) ≤ message.buffer.length by omega)
  simp only [CoapMessage.before]
  rw [List.getElem?_append_left (by omega), coapParseOption_congr hblock]

end Before

section Payload

variable {message : CoapMessage} (hsize : message.buffer.length = COAP_MAX_MSG_SIZE)
  (hfits : message.length ≤ COAP_MAX_MSG_SIZE) (behind : List UInt8)

include hsize

theorem room_before : COAP_MAX_MSG_SIZE ≤ (message.before behind).buffer.length := by
  simp [CoapMessage.before, hsize]

theorem drop_before : (message.before behind).buffer.drop COAP_MAX_MSG_SIZE = behind :=
  List.drop_left' hsize

theorem appendPayload_inside {p n : Nat} {data buffer : List UInt8} {length : Nat}
    (hlen : COAP_MAX_MSG_SIZE ≤ buffer.length) (hbuffer : buffer.drop COAP_MAX_MSG_SIZE = behind)
    (hroom : p + n + data.length < COAP_MAX_MSG_SIZE) (hl : length = p + n) :
    Intact (message.before behind) (appendPayload ⟨buffer, length⟩ p n data) := by
  refine intact_of_ok ?_ (by simp only; omega)
  rw [drop_before hsize, ← Nat.add_assoc, terminated_inside hroom hlen, hbuffer]

/-- Data that end where the buffer ends are terminated behind it. -/
theorem appendPayload_outside {p n : Nat} {data buffer : List UInt8} {length : Nat}
    (hlen : COAP_MAX_MSG_SIZE ≤ buffer.length)
    (hfull : p + n + data.length = COAP_MAX_MSG_SIZE) :
    ¬ Intact (message.before [1]) (appendPayload ⟨buffer, length⟩ p n data) := by
  intro h
  have hbehind := h.outside
  rw [drop_before hsize] at hbehind
  have hzero := terminated_outside hfull hlen
  simp only [appendPayload, ← Nat.add_assoc] at hbehind
  rw [hbehind] at hzero
  simp at hzero

/-- The payload marker is written before the end of the buffer. -/
theorem marker_before {p : Nat} (h : p < COAP_MAX_MSG_SIZE) :
    COAP_MAX_MSG_SIZE ≤ (splice (message.before behind).buffer p [COAP_PAYLOAD_MARKER]).length ∧
      (splice (message.before behind).buffer p [COAP_PAYLOAD_MARKER]).drop COAP_MAX_MSG_SIZE =
        behind := by
  have hroom := room_before hsize behind
  rw [length_splice (by simp; omega), drop_splice (by simp; omega) hroom, drop_before hsize]
  exact ⟨hroom, rfl⟩

include hfits

theorem coapSetPayload_run {p : Nat} (hp : payloadStart message = .ok p) (payload : List UInt8) :
    coapSetPayload (message.before behind) payload =
      if payload.length > 0 then
        if p + payload.length + 1 > COAP_MAX_MSG_SIZE then
          (.BUFFER_OVERFLOW, { message.before behind with length := p })
        else appendPayload
          ⟨splice (message.before behind).buffer p [COAP_PAYLOAD_MARKER], p + 1⟩ p 1 payload
      else (.NO_ERROR, { message.before behind with length := p }) := by
  have hle := payloadStart_le hp
  have htrim : (message.before behind).length - ((message.before behind).length - p) = p :=
    Nat.sub_sub_self hle
  unfold coapSetPayload appendPayload
  rw [payloadStart_before (hsize ▸ hfits), hp]
  simp only [htrim, Nat.add_comm 1 payload.length, Nat.add_assoc]

theorem coapSetPayload_intact (payload : List UInt8) :
    (∀ behind, Intact (message.before behind)
        (coapSetPayload (message.before behind) payload)) ↔
      (CoapEdit.setPayload payload).Safe message := by
  rw [CoapEdit.Safe]
  cases hp : payloadStart message with
  | error e =>
    refine ⟨fun _ _ p h => absurd h (by simp), fun _ behind => ?_⟩
    rw [coapSetPayload, payloadStart_before (hsize ▸ hfits), hp]
    exact intact_refl (message.before behind) hfits e
  | ok p =>
    have hle := payloadStart_le hp
    simp only [coapSetPayload_run hsize hfits _ hp, Except.ok.injEq, forall_eq']
    by_cases hempty : payload = []
    · subst hempty
      exact ⟨fun _ h => absurd rfl h, fun _ behind => intact_of_ok rfl (by simp only; omega)⟩
    have hpos := List.length_pos_of_ne_nil hempty
    simp only [gt_iff_lt, hpos, if_true]
    split_ifs with hover
    · constructor
      · intro h _
        refine ⟨by omega, fun hlt => ?_⟩
        exact absurd (h []) (not_intact (by simp) (Nat.ne_of_lt hlt))
      · intro h behind
        have hsame : p = message.length := by
          have := (h hempty).2
          omega
        rw [hsame]
        exact intact_refl (message.before behind) hfits _
    · constructor
      · intro h _
        refine ⟨fun hfull => ?_, fun _ => by omega⟩
        obtain ⟨hlen, -⟩ := marker_before hsize [1] (p := p) (by omega)
        exact appendPayload_outside hsize hlen (by omega) (h [1])
      · intro h behind
        have hne := (h hempty).1
        obtain ⟨hlen, hbuffer⟩ := marker_before hsize behind (p := p) (by omega)
        exact appendPayload_inside hsize behind hlen hbuffer (by omega) rfl

theorem coapWritePayload_run {p : Nat} (hp : payloadStart message = .ok p) {data : List UInt8}
    (hpos : 0 < data.length) :
    coapWritePayload (message.before behind) data =
      if p = message.length then
        if message.length + data.length + 1 > COAP_MAX_MSG_SIZE then
          (.BUFFER_OVERFLOW, message.before behind)
        else appendPayload ⟨splice (message.before behind).buffer p [COAP_PAYLOAD_MARKER], p + 1⟩
          p 1 data
      else if message.length + data.length > COAP_MAX_MSG_SIZE then
        (.BUFFER_OVERFLOW, message.before behind)
      else appendPayload (message.before behind) p (message.length - p) data := by
  have hle := payloadStart_le hp
  have hlength : (message.before behind).length = message.length := rfl
  unfold coapWritePayload
  rw [payloadStart_before (hsize ▸ hfits), hp]
  simp only [hlength, gt_iff_lt, hpos, if_true]
  by_cases hnone : p = message.length
  · simp only [hnone, Nat.sub_self, if_true, Nat.add_zero, Nat.zero_add]
  · have hsome : message.length - p ≠ 0 := by omega
    simp only [hsome, if_false, hnone]

theorem coapWritePayload_intact (data : List UInt8) :
    (∀ behind, Intact (message.before behind) (coapWritePayload (message.before behind) data)) ↔
      (CoapEdit.writePayload data).Safe message := by
  rw [CoapEdit.Safe]
  cases hp : payloadStart message with
  | error e =>
    refine ⟨fun _ _ p h => absurd h (by simp), fun _ behind => ?_⟩
    rw [coapWritePayload, payloadStart_before (hsize ▸ hfits), hp]
    exact intact_refl (message.before behind) hfits e
  | ok p =>
    have hle := payloadStart_le hp
    simp only [Except.ok.injEq, forall_eq']
    by_cases hempty : data = []
    · subst hempty
      refine ⟨fun _ h => absurd rfl h, fun _ behind => ?_⟩
      rw [coapWritePayload, payloadStart_before (hsize ▸ hfits), hp]
      exact intact_refl (message.before behind) hfits _
    have hpos := List.length_pos_of_ne_nil hempty
    simp only [coapWritePayload_run hsize hfits _ hp hpos]
    split_ifs with hnone hover hover
    · -- The data do not fit behind a new marker.
      refine ⟨fun _ _ => by omega, fun _ behind => ?_⟩
      exact intact_refl (message.before behind) hfits _
    · constructor
      · intro h _ hfull
        obtain ⟨hlen, -⟩ := marker_before hsize [1] (p := p) (by omega)
        exact appendPayload_outside hsize hlen (by omega) (h [1])
      · intro h behind
        have hne := h hempty
        obtain ⟨hlen, hbuffer⟩ := marker_before hsize behind (p := p) (by omega)
        exact appendPayload_inside hsize behind hlen hbuffer (by omega) rfl
    · -- The data do not fit behind the payload that is there.
      refine ⟨fun _ _ => by omega, fun _ behind => ?_⟩
      exact intact_refl (message.before behind) hfits _
    · constructor
      · intro h _ hfull
        exact appendPayload_outside hsize (room_before hsize [1]) (by omega) (h [1])
      · intro h behind
        have hne := h hempty
        exact appendPayload_inside hsize behind (room_before hsize behind)
          (drop_before hsize behind) (by omega) (show message.length = _ by omega)

end Payload

/-- **Edits.** An edit writes nothing behind the buffer, leaves a message that fits, and leaves it
as it was when it fails, exactly when it is safe. -/
theorem coapEdit_intact (message : CoapMessage)
    (hsize : message.buffer.length = COAP_MAX_MSG_SIZE)
    (hfits : message.length ≤ COAP_MAX_MSG_SIZE) (edit : CoapEdit) :
    (∀ behind, Intact (message.before behind) (edit.run (message.before behind))) ↔
      edit.Safe message := by
  have hlength : message.length ≤ message.buffer.length := hsize ▸ hfits
  have hset (num : BitVec 16) (idx : Nat) (value : List UInt8) :
      (∀ behind, Intact (message.before behind)
          (coapSetOption (message.before behind) num idx value)) ↔
        ReplacementFits message num idx value := by
    constructor
    · intro h
      have := (coapSetOption_intact (room_before hsize []) hfits num idx value).mp (h [])
      exact (replacementFits_before hlength [] num idx value).mp this
    · intro h behind
      rw [coapSetOption_intact (room_before hsize behind) hfits]
      exact (replacementFits_before hlength behind num idx value).mpr h
  cases edit with
  | setOption num idx value => exact hset num idx value
  | setUintOption num idx value => exact hset num idx _
  | deleteOption num idx =>
    constructor
    · intro h
      have := (coapDeleteOption_intact (room_before hsize []) hfits num idx).mp (h [])
      exact (successorParses_before hlength [] num idx).mp this
    · intro h behind
      refine (coapDeleteOption_intact (room_before hsize behind) hfits num idx).mpr ?_
      exact (successorParses_before hlength behind num idx).mpr h
  | setPayload payload => exact coapSetPayload_intact hsize hfits payload
  | writePayload data => exact coapWritePayload_intact hsize hfits data

/-- A request that is a header only. -/
def emptyRequest : CoapMessage where
  buffer := [0x40, 0x01, 0x00, 0x01] ++ List.replicate (COAP_MAX_MSG_SIZE - 4) 0
  length := 4

theorem emptyRequest_size : emptyRequest.buffer.length = COAP_MAX_MSG_SIZE := by
  rw [emptyRequest, List.length_append, List.length_replicate]
  rfl

/-- A request with an Uri-Path option, `a`, and an option that is malformed behind it. -/
def malformedRequest : CoapMessage where
  buffer := [0x40, 0x01, 0x00, 0x01, 0xB1, 0x61, 0x0F] ++ List.replicate (COAP_MAX_MSG_SIZE - 7) 0
  length := 7

theorem coapEdit_intact_empty :
    Intact (emptyRequest.before [0x61])
      ((CoapEdit.writePayload [0x61]).run (emptyRequest.before [0x61])) := by
  have hsafe : (CoapEdit.writePayload [0x61]).Safe emptyRequest := by
    intro _ p hp
    have hstart : payloadStart emptyRequest = .ok 4 := by decide +kernel
    rw [hstart] at hp
    cases hp
    decide
  exact (coapEdit_intact emptyRequest emptyRequest_size (by decide) _).mpr hsafe [0x61]

/-- The terminator of a payload that fills the buffer is written behind it, and an option is taken
out although its successor cannot be read. -/
theorem coapEdit_breaks :
    (¬ ∀ behind, Intact (emptyRequest.before behind)
        (coapSetPayload (emptyRequest.before behind) (List.replicate 1147 0x61))) ∧
      ¬ Intact malformedRequest (coapDeleteOption malformedRequest 11 0) := by
  constructor
  · intro h
    have hstart : payloadStart emptyRequest = .ok 4 := by decide +kernel
    have hsafe := (coapSetPayload_intact emptyRequest_size
      (by decide) _).mp h
    have hlength : (List.replicate 1147 (0x61 : UInt8)).length = 1147 := List.length_replicate
    have hne := (hsafe (List.ne_nil_of_length_pos (by omega)) 4 hstart).1
    rw [hlength] at hne
    exact hne rfl
  · intro h
    have hlength : (coapDeleteOption malformedRequest 11 0).2.length = 5 := by decide +kernel
    have herror : (coapDeleteOption malformedRequest 11 0).1 = .INVALID_MESSAGE := by
      decide +kernel
    have hsame := (h.failed (by rw [herror]; simp)).1
    rw [hlength] at hsame
    exact absurd hsame (by decide)

end Cyclone
