import Cyclone.CoapGrammar

/-!
# Cyclone.CoapParse

`coapParseMessage` (`coap_message.c`) with the bytes it reads and the options it computes.

* `Scan`: a computation on the buffer, with the indices it has read.
* `coapParseOptions_scan`: what the loop reads, and where it stops.
* `parses_iff`: when the parser accepts the messages of the grammar and no others.
-/

namespace Cyclone
namespace CoapScan

open Ring

/-- What is returned, and the indices of the buffer that were read. -/
structure Scan (α : Type) where
  result : Except CoapError α
  reads : List Nat

def Scan.bind {α β : Type} (s : Scan α) (f : α → Scan β) : Scan β :=
  match s.result with
  | .error e => ⟨.error e, s.reads⟩
  | .ok a => ⟨(f a).result, s.reads ++ (f a).reads⟩

instance : Monad Scan where
  pure a := ⟨.ok a, []⟩
  bind := Scan.bind

def fail {α : Type} (e : CoapError) : Scan α := ⟨.error e, []⟩

def byteAt (buffer : List UInt8) (i : Nat) : Scan UInt8 := ⟨.ok (buffer.getD i 0), [i]⟩

/-! ## The parser -/

def coapParseMessageHeader (buffer : List UInt8) (p length : Nat) : Scan Nat :=
  if length < sizeofCoapMessageHeader then fail .INVALID_HEADER
  else do
    let version ← byteAt buffer p
    if version.toNat / 64 ≠ COAP_VERSION_1 then fail .INVALID_VERSION
    else do
      let tokenLen ← byteAt buffer p
      if tokenLen.toNat % 16 > COAP_MAX_TOKEN_LEN then fail .INVALID_HEADER
      else if length < sizeofCoapMessageHeader + tokenLen.toNat % 16 then fail .INVALID_HEADER
      else pure (sizeofCoapMessageHeader + tokenLen.toNat % 16)

/-- A delta or a length: its value, the index behind it and the bytes left there. -/
def parseField (buffer : List UInt8) (nibble p length : Nat) : Scan (Nat × Nat × Nat) :=
  if nibble = COAP_OPT_RESERVED then fail .INVALID_MESSAGE
  else if nibble = COAP_OPT_16_BITS then
    if length < 2 then fail .BUFFER_UNDERFLOW
    else do
      let hi ← byteAt buffer p
      let lo ← byteAt buffer (p + 1)
      pure (hi.toNat * 256 + lo.toNat + COAP_OPT_MINUS_16_BITS, p + 2, length - 2)
  else if nibble = COAP_OPT_8_BITS then
    if length < 1 then fail .BUFFER_UNDERFLOW
    else do
      let b ← byteAt buffer p
      pure (b.toNat + COAP_OPT_MINUS_8_BITS, p + 1, length - 1)
  else pure (nibble, p, length)

def coapParseOption (buffer : List UInt8) (p length prevOptionNum : Nat) :
    Scan (CoapOption × Nat) :=
  if length < 1 then fail .BUFFER_UNDERFLOW
  else do
    let header ← byteAt buffer p
    let (delta, q, left) ← parseField buffer (header.toNat / 16) (p + 1) (length - 1)
    let header ← byteAt buffer p
    let (optionLength, q, left) ← parseField buffer (header.toNat % 16) q left
    if left < optionLength then fail .BUFFER_UNDERFLOW
    else
      pure ({ delta := u16 delta, number := u16 (u16 delta + prevOptionNum)
              length := optionLength, value := .inMessage q }, q + optionLength - p)

/-- A run of the loop: besides, the options it has parsed. -/
structure OptionsRun where
  result : Except CoapError Nat
  reads : List Nat
  options : List CoapOption

/-- The loop. The first argument bounds its turns: `none` when they do not suffice. -/
def coapParseOptions (buffer : List UInt8) : Nat → Nat → Nat → Nat → Option OptionsRun
  | 0, _, _, _ => none
  | fuel + 1, p, length, number =>
    if length = 0 then some ⟨.ok 0, [], []⟩
    else if buffer.getD p 0 = COAP_PAYLOAD_MARKER then some ⟨.ok 0, [p], []⟩
    else
      let s := coapParseOption buffer p length number
      match s.result with
      | .error e => some ⟨.error e, p :: s.reads, []⟩
      | .ok (option, n) => do
        let run ← coapParseOptions buffer fuel (p + n) (length - n) option.number
        some ⟨run.result.map (n + ·), p :: (s.reads ++ run.reads), option :: run.options⟩

/-- What `coapParseMessage` returns, reads and computes. -/
structure MessageRun where
  result : CoapError
  reads : List Nat
  options : List CoapOption

def coapParseMessage (message : CoapMessage) : Option MessageRun :=
  let s := coapParseMessageHeader message.buffer 0 message.length
  match s.result with
  | .error e => some ⟨e, s.reads, []⟩
  | .ok n => do
    let run ← coapParseOptions message.buffer (message.length + 1) n (message.length - n) 0
    let reads := s.reads ++ run.reads
    match run.result with
    | .error e => some ⟨e, reads, run.options⟩
    | .ok m =>
      let length := message.length - n - m
      if length > 0 then
        if length - 1 = 0 then some ⟨.INVALID_MESSAGE, reads, run.options⟩
        else some ⟨.NO_ERROR, reads, run.options⟩
      else some ⟨.NO_ERROR, reads, run.options⟩

/-! ## The computation without its reads -/

/-- Only indices below `limit` are read. -/
def Scan.Below {α : Type} (s : Scan α) (limit : Nat) : Prop := ∀ i ∈ s.reads, i < limit

@[simp] theorem result_pure {α : Type} (a : α) : (pure a : Scan α).result = .ok a := rfl

@[simp] theorem result_fail {α : Type} (e : CoapError) : (fail e : Scan α).result = .error e := rfl

@[simp] theorem result_byteAt (buffer : List UInt8) (i : Nat) :
    (byteAt buffer i).result = .ok (buffer.getD i 0) := rfl

@[simp] theorem result_bind {α β : Type} (s : Scan α) (f : α → Scan β) :
    (s >>= f).result = s.result.bind fun a => (f a).result := by
  change (Scan.bind s f).result = _
  unfold Scan.bind
  cases s.result with
  | error e => rfl
  | ok a => rfl

theorem below_pure {α : Type} (a : α) (limit : Nat) : (pure a : Scan α).Below limit := by
  intro i hi
  cases hi

theorem below_fail {α : Type} (e : CoapError) (limit : Nat) :
    (fail e : Scan α).Below limit := by
  intro i hi
  cases hi

theorem below_byteAt {buffer : List UInt8} {i limit : Nat} (h : i < limit) :
    (byteAt buffer i).Below limit := by
  intro j hj
  rw [List.mem_singleton.mp hj]
  exact h

theorem below_bind {α β : Type} {s : Scan α} {f : α → Scan β} {limit : Nat}
    (hs : s.Below limit) (hf : ∀ a, s.result = .ok a → (f a).Below limit) :
    (s >>= f).Below limit := by
  intro i hi
  change i ∈ (Scan.bind s f).reads at hi
  unfold Scan.bind at hi
  cases hr : s.result with
  | error e =>
    rw [hr] at hi
    exact hs i hi
  | ok a =>
    rw [hr] at hi
    rcases List.mem_append.mp hi with hi | hi
    · exact hs i hi
    · exact hf a hr i hi

/-! ## The header -/

theorem coapParseMessageHeader_result {buffer : List UInt8} {length : Nat}
    (h : length ≤ buffer.length) :
    (coapParseMessageHeader buffer 0 length).result =
      Cyclone.coapParseMessageHeader (buffer.take length) := by
  have hlen : (buffer.take length).length = length := List.length_take_of_le h
  unfold coapParseMessageHeader Cyclone.coapParseMessageHeader
  rw [hlen]
  by_cases h1 : length < sizeofCoapMessageHeader
  · rw [if_pos h1, if_pos h1]
    rfl
  · have hget : (buffer.take length).getD 0 0 = buffer.getD 0 0 := by
      unfold sizeofCoapMessageHeader at h1
      simp only [List.getD_eq_getElem?_getD, List.getElem?_take]
      rw [if_pos (by omega)]
    rw [if_neg h1, if_neg h1, hget, result_bind, result_byteAt]
    simp only [Except.bind]
    by_cases h2 : (buffer.getD 0 0).toNat / 64 ≠ COAP_VERSION_1
    · rw [if_pos h2, if_pos h2]
      rfl
    · rw [if_neg h2, if_neg h2, result_bind, result_byteAt]
      simp only [Except.bind]
      split_ifs <;> rfl

theorem coapParseMessageHeader_below (buffer : List UInt8) (length : Nat) :
    (coapParseMessageHeader buffer 0 length).Below length := by
  unfold coapParseMessageHeader
  split_ifs with h1
  · exact below_fail _ _
  · unfold sizeofCoapMessageHeader at h1
    refine below_bind (below_byteAt (by omega)) fun version _ => ?_
    split_ifs
    · exact below_fail _ _
    · refine below_bind (below_byteAt (by omega)) fun tokenLen _ => ?_
      split_ifs
      · exact below_fail _ _
      · exact below_fail _ _
      · exact below_pure _ _

/-! ## One option -/

theorem window_cons {buffer : List UInt8} {p length : Nat} (h : p + length ≤ buffer.length)
    (hl : 0 < length) :
    (buffer.drop p).take length =
      buffer.getD p 0 :: (buffer.drop (p + 1)).take (length - 1) := by
  obtain ⟨n, rfl⟩ := Nat.exists_eq_add_of_lt hl
  have hp : p < buffer.length := by omega
  rw [Nat.zero_add, Nat.add_sub_cancel, List.drop_eq_getElem_cons hp, List.take_succ_cons,
    List.getD_eq_getElem _ _ hp]

/-- The field as the list parser reads it, and where the rest is. -/
theorem parseField_result {buffer : List UInt8} {nibble p length : Nat}
    (h : p + length ≤ buffer.length) :
    match parseOptionField nibble ((buffer.drop p).take length) with
    | .error e => (parseField buffer nibble p length).result = .error e
    | .ok (value, rest) => ∃ k ≤ length, rest = (buffer.drop (p + k)).take (length - k) ∧
        (parseField buffer nibble p length).result = .ok (value, p + k, length - k) := by
  unfold parseOptionField parseField
  by_cases h1 : nibble = COAP_OPT_RESERVED
  · simp only [if_pos h1]
    rfl
  simp only [if_neg h1]
  by_cases h2 : nibble = COAP_OPT_16_BITS
  · simp only [if_pos h2]
    match length, h with
    | 0, _ => rfl
    | 1, h =>
      rw [window_cons h Nat.one_pos]
      rfl
    | n + 2, h =>
      rw [window_cons h (by omega), window_cons (by omega) (by omega)]
      exact ⟨2, by omega, rfl, rfl⟩
  simp only [if_neg h2]
  by_cases h3 : nibble = COAP_OPT_8_BITS
  · simp only [if_pos h3]
    match length, h with
    | 0, _ => rfl
    | n + 1, h =>
      rw [window_cons h (by omega)]
      exact ⟨1, by omega, rfl, rfl⟩
  · simp only [if_neg h3]
    exact ⟨0, Nat.zero_le _, rfl, rfl⟩

theorem parseField_below {buffer : List UInt8} {nibble p length limit : Nat}
    (h : p + length ≤ limit) : (parseField buffer nibble p length).Below limit := by
  unfold parseField
  split_ifs with h1 h2 h3 h4 h5
  · exact below_fail _ _
  · exact below_fail _ _
  · refine below_bind (below_byteAt (by omega)) fun hi _ => ?_
    exact below_bind (below_byteAt (by omega)) fun lo _ => below_pure _ _
  · exact below_fail _ _
  · exact below_bind (below_byteAt (by omega)) fun b _ => below_pure _ _
  · exact below_pure _ _

theorem coapParseOption_result {buffer : List UInt8} {p length : Nat} (prevOptionNum : Nat)
    (h : p + length ≤ buffer.length) :
    (coapParseOption buffer p length prevOptionNum).result =
      Cyclone.coapParseOption buffer p length prevOptionNum := by
  unfold coapParseOption Cyclone.coapParseOption
  by_cases hl : length < 1
  · have hz : length = 0 := by omega
    simp [hz]
  have hwin := window_cons h (by omega)
  have hlen : ((buffer.drop p).take length).length = length := by
    simp only [List.length_take, List.length_drop]
    omega
  rw [if_neg hl, hlen, hwin]
  simp only [result_bind, result_byteAt]
  simp only [bind, Except.bind]
  have hd := @parseField_result buffer ((buffer.getD p 0).toNat / 16) (p + 1) (length - 1)
    (by omega)
  generalize parseOptionField ((buffer.getD p 0).toNat / 16)
    ((buffer.drop (p + 1)).take (length - 1)) = d at hd ⊢
  cases d with
  | error e => simp only [hd]
  | ok d =>
    obtain ⟨delta, rest⟩ := d
    obtain ⟨k, hk, rfl, hd⟩ := hd
    simp only [hd]
    have hf := @parseField_result buffer ((buffer.getD p 0).toNat % 16) (p + 1 + k)
      (length - 1 - k) (by omega)
    generalize parseOptionField ((buffer.getD p 0).toNat % 16)
      ((buffer.drop (p + 1 + k)).take (length - 1 - k)) = f at hf ⊢
    cases f with
    | error e => simp only [hf]
    | ok f =>
      obtain ⟨optionLength, rest⟩ := f
      obtain ⟨j, hj, rfl, hf⟩ := hf
      have hleft : ((buffer.drop (p + 1 + k + j)).take (length - 1 - k - j)).length =
          length - 1 - k - j := by
        simp only [List.length_take, List.length_drop]
        omega
      simp only [hf, hleft]
      split_ifs with hv
      · rfl
      · simp only [result_pure, Except.ok.injEq, Prod.mk.injEq, CoapOption.mk.injEq,
          CoapValue.inMessage.injEq, true_and]
        omega

theorem parseField_end {buffer : List UInt8} {nibble p length value q left : Nat}
    (hr : (parseField buffer nibble p length).result = .ok (value, q, left)) :
    q + left ≤ p + length := by
  unfold parseField at hr
  split_ifs at hr
  · cases hr
  · cases hr
  · cases hr
    omega
  · cases hr
  · cases hr
    omega
  · cases hr
    exact le_rfl

theorem coapParseOption_below (buffer : List UInt8) (p length prevOptionNum : Nat) :
    (coapParseOption buffer p length prevOptionNum).Below (p + length) := by
  unfold coapParseOption
  split_ifs with h1
  · exact below_fail _ _
  refine below_bind (below_byteAt (by omega)) fun header _ => ?_
  refine below_bind (parseField_below (by omega)) ?_
  rintro ⟨delta, q, left⟩ hd
  have hend := parseField_end hd
  refine below_bind (below_byteAt (by omega)) fun header _ => ?_
  refine below_bind (parseField_below (by omega)) ?_
  rintro ⟨optionLength, q', left'⟩ -
  dsimp only
  split_ifs
  · exact below_fail _ _
  · exact below_pure _ _

/-! ## The loop -/

/-- The options of a sequence as the code computes them: delta and number are kept in 16 bits. -/
def contents : Nat → List OptionPair → List (Nat × Nat × List UInt8)
  | _, [] => []
  | prev, d :: ds =>
    (u16 (u16 d.1 + prev), d.2.length, d.2) :: contents (u16 (u16 d.1 + prev)) ds

/-- Where the loop stops: the bytes it has consumed are a sequence of options, and it has ended
behind them or found none there. -/
structure OptionsCut (buffer : List UInt8) (p length prev : Nat) (run : OptionsRun)
    (ds : List OptionPair) (options rest : List UInt8) : Prop where
  below : ∀ i ∈ run.reads, i < p + length
  bytes : (buffer.drop p).take length = options ++ rest
  seq : OptionSeq ds options
  stuck : Stuck rest
  contents : run.options.map (optionContent buffer) = contents prev ds
  ok : EndsOptions rest → run.result = .ok options.length
  error : ¬EndsOptions rest → ∃ e, run.result = .error e ∧ e ≠ .NO_ERROR

theorem coapParseOptions_scan {buffer : List UInt8} {fuel p length : Nat} (prev : Nat)
    (h : p + length ≤ buffer.length) (hf : length < fuel) :
    ∃ run ds options rest, coapParseOptions buffer fuel p length prev = some run ∧
      OptionsCut buffer p length prev run ds options rest := by
  induction fuel generalizing p length prev with
  | zero => omega
  | succ fuel ih =>
    unfold coapParseOptions
    by_cases hl : length = 0
    · rw [if_pos hl]
      have hends : EndsOptions [] := .inl rfl
      refine ⟨_, [], [], [], rfl, by simp, by simp [hl], .nil, hends.stuck, rfl, fun _ => rfl,
        fun hne => absurd hends hne⟩
    have hwin := window_cons h (by omega)
    by_cases hm : buffer.getD p 0 = COAP_PAYLOAD_MARKER
    · rw [if_neg hl, if_pos hm]
      have hends : EndsOptions ((buffer.drop p).take length) := .inr (by rw [hwin, hm]; rfl)
      refine ⟨_, [], [], _, rfl, ?_, rfl, .nil, hends.stuck, rfl, fun _ => rfl,
        fun hne => absurd hends hne⟩
      intro i hi
      rw [List.mem_singleton.mp hi]
      omega
    rw [if_neg hl, if_neg hm]
    have hnot : ¬EndsOptions ((buffer.drop p).take length) := by
      rw [hwin]
      rintro (he | he)
      · cases he
      · exact hm (Option.some.inj he)
    have hreads := coapParseOption_below buffer p length prev
    have hres := coapParseOption_result prev h
    rcases @coapParseOption_cut buffer p length prev with ⟨e, hp, hstuck⟩ |
      ⟨option, delta, value, bytes, rest, hp, ho, hb, hc⟩
    · rw [hp] at hres
      simp only [hres]
      refine ⟨_, [], [], _, rfl, ?_, rfl, .nil, hstuck, rfl, fun he => absurd he hnot,
        fun _ => ⟨e, rfl, by rcases coapParseOption_error hp with rfl | rfl <;> simp⟩⟩
      intro i hi
      rcases List.mem_cons.mp hi with rfl | hi
      · omega
      · exact hreads i hi
    · rw [hp] at hres
      simp only [hres]
      have hpos := ho.length_pos
      have hlen := congrArg List.length hb
      simp only [List.length_take, List.length_drop, List.length_append] at hlen
      obtain ⟨run, ds, options, rest', hrun, hcut⟩ := @ih (p + bytes.length)
        (length - bytes.length) option.number (by omega) (by omega)
      have hbytes := hcut.bytes
      rw [hrun]
      have hnext : (buffer.drop (p + bytes.length)).take (length - bytes.length) = rest := by
        have hdrop := congrArg (List.drop bytes.length) hb
        rw [List.drop_left' rfl, List.drop_take, List.drop_drop] at hdrop
        exact hdrop
      rw [hnext] at hbytes
      subst hbytes
      refine ⟨_, (delta, value) :: ds, bytes ++ options, rest', rfl, ?_, ?_, .cons ho hcut.seq,
        hcut.stuck, ?_, ?_, ?_⟩
      · intro i hi
        rcases List.mem_cons.mp hi with rfl | hi
        · omega
        · rcases List.mem_append.mp hi with hi | hi
          · exact hreads i hi
          · have := hcut.below i hi
            omega
      · rw [hb, List.append_assoc]
      · have hnum : option.number = u16 (u16 delta + prev) := congrArg Prod.fst hc
        rw [List.map_cons, hc, hcut.contents, hnum]
        rfl
      · intro he
        simp only [hcut.ok he, Except.map, List.length_append]
      · intro he
        obtain ⟨e, hr, hne⟩ := hcut.error he
        exact ⟨e, by simp only [hr, Except.map], hne⟩

/-! ## The message -/

/-- How a message is cut. -/
inductive MessageCut (message : CoapMessage) (run : MessageRun) : Prop
  | noHeader (hno : ∀ header rest, message.bytes = header ++ rest → ¬IsCoapHeader header)
      (hr : run.result ≠ .NO_ERROR) (ho : run.options = [])
  | cut {header options rest : List UInt8} {ds : List OptionPair}
      (hb : message.bytes = header ++ (options ++ rest)) (hh : IsCoapHeader header)
      (hs : OptionSeq ds options) (hstuck : Stuck rest)
      (hc : run.options.map (optionContent message.buffer) = contents 0 ds)
      (hr : run.result = .NO_ERROR ↔ IsCoapPayload rest)

theorem coapParseMessageHeader_error {p : List UInt8} {e : CoapError}
    (h : Cyclone.coapParseMessageHeader p = .error e) : e ≠ .NO_ERROR := by
  unfold Cyclone.coapParseMessageHeader at h
  rintro rfl
  split_ifs at h <;> cases h

theorem coapParseMessage_scan {message : CoapMessage} (h : message.length ≤ message.buffer.length) :
    ∃ run, coapParseMessage message = some run ∧ (∀ i ∈ run.reads, i < message.length) ∧
      MessageCut message run := by
  have hres := coapParseMessageHeader_result h
  have hbelow := coapParseMessageHeader_below message.buffer message.length
  change _ = Cyclone.coapParseMessageHeader message.bytes at hres
  unfold coapParseMessage
  cases hp : Cyclone.coapParseMessageHeader message.bytes with
  | error e =>
    rw [hp] at hres
    simp only [hres]
    refine ⟨_, rfl, hbelow, .noHeader ?_ (coapParseMessageHeader_error hp) rfl⟩
    intro header rest hb hh
    rw [hb, hh.parses] at hp
    cases hp
  | ok n =>
    rw [hp] at hres
    obtain ⟨header, block, hb, hh, rfl⟩ := parsed_coapHeader hp
    have hlen := congrArg List.length hb
    rw [CoapMessage.bytes, List.length_take, List.length_append, Nat.min_eq_left h] at hlen
    obtain ⟨run, ds, options, rest, hrun, hcut⟩ := @coapParseOptions_scan message.buffer
      (message.length + 1) header.length (message.length - header.length) 0 (by omega) (by omega)
    have hblock : (message.buffer.drop header.length).take (message.length - header.length) =
        block := by
      have hdrop := congrArg (List.drop header.length) hb
      rw [List.drop_left' rfl, CoapMessage.bytes, List.drop_take] at hdrop
      exact hdrop
    have hbytes := hcut.bytes
    rw [hblock] at hbytes
    subst hbytes
    rw [List.length_append] at hlen
    have hreads : ∀ i ∈ (coapParseMessageHeader message.buffer 0 message.length).reads ++ run.reads,
        i < message.length := by
      intro i hi
      rcases List.mem_append.mp hi with hi | hi
      · exact hbelow i hi
      · have := hcut.below i hi
        omega
    simp only [hres, hrun]
    by_cases he : EndsOptions rest
    · have hpay := isCoapPayload_iff he
      simp only [Option.bind_eq_bind, Option.bind_some, hcut.ok he]
      split_ifs with h1 h2
      · exact ⟨_, rfl, hreads, .cut hb hh hcut.seq hcut.stuck hcut.contents
          ⟨fun hn => CoapError.noConfusion hn, fun hn => absurd (hpay.mp hn) (by omega)⟩⟩
      · exact ⟨_, rfl, hreads, .cut hb hh hcut.seq hcut.stuck hcut.contents
          ⟨fun _ => hpay.mpr (by omega), fun _ => rfl⟩⟩
      · exact ⟨_, rfl, hreads, .cut hb hh hcut.seq hcut.stuck hcut.contents
          ⟨fun _ => hpay.mpr (by omega), fun _ => rfl⟩⟩
    · obtain ⟨e, hr, hne⟩ := hcut.error he
      simp only [Option.bind_eq_bind, Option.bind_some, hr]
      exact ⟨_, rfl, hreads, .cut hb hh hcut.seq hcut.stuck hcut.contents
        ⟨fun hn => absurd hn hne, fun hn => absurd hn.ends he⟩⟩

/-! ## Numbers of 16 bits -/

/-- The parser terminates, reads the message only, accepts the messages of the grammar and no
others, and the numbers it computes do not decrease. -/
def ParsesExactly (message : CoapMessage) : Prop :=
  ∃ run, coapParseMessage message = some run ∧ (∀ i ∈ run.reads, i < message.length) ∧
    (run.result = .NO_ERROR ↔ IsCoapMessage message.bytes) ∧
    (run.options.map CoapOption.number).Pairwise (· ≤ ·)

/-- No delta carries out of the 16 bits of the number before it, as far as the string is a
sequence of options; and where all of the string is one, no number exceeds 16 bits. -/
def NumbersFit (bytes : List UInt8) : Prop :=
  ∀ header ds options rest, bytes = header ++ (options ++ rest) → IsCoapHeader header →
    OptionSeq ds options →
    (∀ before d, ds = before ++ [d] → deltaSum before % 65536 + d.1 % 65536 < 65536) ∧
    (IsCoapPayload rest → deltaSum ds ≤ 65535)

theorem numbers_sorted {prev : Nat} {ds : List OptionPair} (hp : prev < 65536) :
    List.IsChain (· ≤ ·) (prev :: (contents prev ds).map Prod.fst) ↔
      ∀ before d after, ds = before ++ d :: after →
        (prev + deltaSum before) % 65536 + d.1 % 65536 < 65536 := by
  induction ds generalizing prev with
  | nil =>
    refine ⟨fun _ before d after h => ?_, fun _ => List.isChain_singleton prev⟩
    cases before <;> cases h
  | cons o ds ih =>
    have hnum : u16 (u16 o.1 + prev) < 65536 := u16_lt _
    rw [contents, List.map_cons, List.isChain_cons_cons, ih hnum]
    have hmod : u16 (u16 o.1 + prev) % 65536 = (prev + o.1) % 65536 := by
      unfold u16
      omega
    constructor
    · rintro ⟨hle, htail⟩ before d after h
      cases before with
      | nil =>
        cases h
        rw [deltaSum_nil]
        unfold u16 at hle
        omega
      | cons b before =>
        obtain ⟨rfl, rfl⟩ := List.cons.inj h
        have hnext := htail before d after rfl
        rw [deltaSum_cons]
        omega
    · intro hall
      refine ⟨?_, fun before d after h => ?_⟩
      · have hfirst := hall [] o ds rfl
        rw [deltaSum_nil] at hfirst
        unfold u16
        omega
      · have hnext := hall (o :: before) d after (by rw [h]; rfl)
        rw [deltaSum_cons] at hnext
        omega

theorem sums_le {ds : List OptionPair} :
    (∀ before after, ds = before ++ after → deltaSum before ≤ 65535) ↔ deltaSum ds ≤ 65535 := by
  constructor
  · intro h
    exact h ds [] (List.append_nil ds).symm
  · rintro h before after rfl
    rw [deltaSum_append] at h
    omega

/-- A message that is cut is one of the grammar when the payload is and the numbers fit. -/
theorem isCoapMessage_cut {header options rest : List UInt8} {ds : List OptionPair}
    (hh : IsCoapHeader header) (hs : OptionSeq ds options) (hstuck : Stuck rest) :
    IsCoapMessage (header ++ (options ++ rest)) ↔ IsCoapPayload rest ∧ deltaSum ds ≤ 65535 := by
  constructor
  · rintro ⟨header', ds', options', payload, hb, hh', hs', hp, hsum⟩
    obtain ⟨rfl, hblock⟩ := hh.unique hh' hb
    obtain ⟨rfl, rfl, rfl⟩ := optionSeq_unique hs hstuck hs' hp.ends.stuck hblock
    exact ⟨hp, sums_le.mp hsum⟩
  · rintro ⟨hp, hsum⟩
    exact ⟨header, ds, options, rest, rfl, hh, hs, hp, sums_le.mpr hsum⟩

theorem numbersFit_cut {header options rest : List UInt8} {ds : List OptionPair}
    (hh : IsCoapHeader header) (hs : OptionSeq ds options) (hstuck : Stuck rest) :
    NumbersFit (header ++ (options ++ rest)) ↔
      (∀ before d after, ds = before ++ d :: after →
        (0 + deltaSum before) % 65536 + d.1 % 65536 < 65536) ∧
      (IsCoapPayload rest → deltaSum ds ≤ 65535) := by
  constructor
  · intro h
    refine ⟨?_, (h header ds options rest rfl hh hs).2⟩
    rintro before d after rfl
    rw [← List.singleton_append, ← List.append_assoc] at hs
    obtain ⟨bytes, bytes', rfl, hfront, -⟩ := optionSeq_split hs
    have hfit := (h header (before ++ [d]) bytes (bytes' ++ rest)
      (by rw [List.append_assoc]) hh hfront).1 before d rfl
    rw [Nat.zero_add]
    exact hfit
  · rintro ⟨hcarry, hsum⟩ header' ds' options' rest' hb hh' hs'
    obtain ⟨rfl, hblock⟩ := hh.unique hh' hb
    obtain ⟨after, bytes, rfl, -, -, -⟩ := optionSeq_maximal hs hstuck hs' hblock
    refine ⟨?_, fun hp => ?_⟩
    · rintro before d rfl
      have hfit := hcarry before d after (by simp)
      rw [Nat.zero_add] at hfit
      exact hfit
    · obtain ⟨hds, -, rfl⟩ := optionSeq_unique hs hstuck hs' hp.ends.stuck hblock
      rw [← hds]
      exact hsum hp

theorem contents_numbers {buffer : List UInt8} {options : List CoapOption} {prev : Nat}
    {ds : List OptionPair} (h : options.map (optionContent buffer) = contents prev ds) :
    options.map CoapOption.number = (contents prev ds).map Prod.fst := by
  rw [← h, List.map_map]
  rfl

theorem parsesExactly_iff {message : CoapMessage} (h : message.length ≤ message.buffer.length) :
    ParsesExactly message ↔ NumbersFit message.bytes := by
  obtain ⟨run, hrun, hreads, hcut⟩ := coapParseMessage_scan h
  have hone : ParsesExactly message ↔ (run.result = .NO_ERROR ↔ IsCoapMessage message.bytes) ∧
      (run.options.map CoapOption.number).Pairwise (· ≤ ·) := by
    unfold ParsesExactly
    rw [hrun]
    constructor
    · rintro ⟨run', he, -, hr, hn⟩
      cases he
      exact ⟨hr, hn⟩
    · rintro ⟨hr, hn⟩
      exact ⟨run, rfl, hreads, hr, hn⟩
  rw [hone]
  cases hcut with
  | noHeader hno hr ho =>
    have hmsg : ¬IsCoapMessage message.bytes := by
      rintro ⟨header, ds, options, payload, hb, hh, -⟩
      exact hno header _ hb hh
    have hfit : NumbersFit message.bytes := by
      intro header ds options rest hb hh
      exact absurd hh (hno header _ hb)
    rw [ho]
    exact ⟨fun _ => hfit, fun _ => ⟨⟨fun hn => absurd hn hr, fun hn => absurd hn hmsg⟩, .nil⟩⟩
  | @cut header options rest ds hb hh hs hstuck hc hr =>
    have hsorted := @numbers_sorted 0 ds (by decide)
    rw [List.isChain_iff_pairwise, List.pairwise_cons, ← contents_numbers hc] at hsorted
    rw [hb, numbersFit_cut hh hs hstuck, isCoapMessage_cut hh hs hstuck, hr, ← hsorted]
    constructor
    · rintro ⟨hmsg, hn⟩
      exact ⟨⟨fun k _ => Nat.zero_le k, hn⟩, fun hp => (hmsg.mp hp).2⟩
    · rintro ⟨⟨-, hn⟩, hsum⟩
      exact ⟨⟨fun hp => ⟨hp, hsum hp⟩, fun hp => hp.1⟩, hn⟩

/-! ## The round trip -/

/-- The options one behind the other, each by `coapFormatOption`: the buffer, and the bytes
written. -/
def formatOptions (buffer : List UInt8) (p prevOptionNum : Nat) :
    List OptionPair → List UInt8 × Nat
  | [] => (buffer, 0)
  | o :: opts =>
    let (option, buffer, n) := coapFormatOption buffer (some p) prevOptionNum
      { number := o.1, length := o.2.length, value := .given o.2 }
    let (buffer, m) := formatOptions buffer (p + n) option.number opts
    (buffer, n + m)

theorem formatOptions_length {buffer : List UInt8} {p prev : Nat} {opts : List OptionPair}
    (h : Ascending prev opts) :
    (formatOptions buffer p prev opts).2 = (encodeOptions prev opts).length := by
  induction opts generalizing buffer p prev with
  | nil => rfl
  | cons o opts ih =>
    obtain ⟨h1, h2, -, h4⟩ := h
    simp only [formatOptions, coapFormatOption, ih h4, encodeOptions, List.length_append,
      length_encodeOption, u16Sub_of_le h1 h2]

theorem formatOptions_eq {prev : Nat} {opts : List OptionPair} {front gap rest : List UInt8}
    (h : Ascending prev opts) (hgap : gap.length = (encodeOptions prev opts).length) :
    (formatOptions (front ++ gap ++ rest) front.length prev opts).1 =
      front ++ encodeOptions prev opts ++ rest := by
  induction opts generalizing prev front gap with
  | nil =>
    obtain rfl := List.eq_nil_of_length_eq_zero hgap
    rfl
  | cons o opts ih =>
    obtain ⟨h1, h2, -, h4⟩ := h
    rw [encodeOptions, List.length_append] at hgap
    obtain ⟨gap1, gap2, rfl, hgap1⟩ : ∃ gap1 gap2, gap = gap1 ++ gap2 ∧
        gap1.length = (encodeOption prev o).length :=
      ⟨gap.take (encodeOption prev o).length, gap.drop (encodeOption prev o).length,
        (List.take_append_drop _ _).symm, List.length_take_of_le (by omega)⟩
    rw [List.length_append] at hgap
    have hwrite : (coapFormatOption (front ++ (gap1 ++ gap2) ++ rest) (some front.length) prev
        { number := o.1, length := o.2.length, value := .given o.2 }).2 =
        (front ++ encodeOption prev o ++ (gap2 ++ rest), (encodeOption prev o).length) := by
      have hgiven := @format_given front gap1 (gap2 ++ rest) prev o.1 0 o.2 h1 h2 hgap1
      rw [← hgiven]
      simp only [List.append_assoc]
    have hmore := @ih o.1 (front ++ encodeOption prev o) gap2 h4 (by omega)
    simp only [formatOptions, hwrite]
    change (formatOptions _ _ o.1 opts).1 = _
    rw [encodeOptions]
    rw [List.length_append, List.append_assoc _ gap2] at hmore
    rw [hmore]
    simp

theorem contents_encoded {prev : Nat} {opts : List OptionPair} (h : Ascending prev opts) :
    ∃ ds, OptionSeq ds (encodeOptions prev opts) ∧
      contents prev ds = opts.map fun o => (o.1, o.2.length, o.2) := by
  induction opts generalizing prev with
  | nil => exact ⟨[], .nil, rfl⟩
  | cons o opts ih =>
    obtain ⟨h1, h2, h3, h4⟩ := h
    obtain ⟨ds, hs, hc⟩ := ih h4
    have ho : IsOption (o.1 - prev) o.2 (encodeOption prev o) :=
      isOption_iff.mpr ⟨by unfold FIELD_END; omega, h3, rfl⟩
    have hnum : u16 (u16 (o.1 - prev) + prev) = o.1 := by
      rw [u16_of_lt (x := o.1 - prev) (by omega), Nat.sub_add_cancel h1, u16_of_lt h2]
    exact ⟨(o.1 - prev, o.2) :: ds, .cons ho hs, by simp only [contents, hnum, hc, List.map_cons]⟩

/-- What was written parses to the same numbers, lengths and values. -/
theorem parse_formatOptions {buffer : List UInt8} {p : Nat} {opts : List OptionPair}
    (h : Ascending 0 opts) (hfit : p + (formatOptions buffer p 0 opts).2 ≤ buffer.length) :
    ∃ run, coapParseOptions (formatOptions buffer p 0 opts).1
        ((formatOptions buffer p 0 opts).2 + 1) p (formatOptions buffer p 0 opts).2 0 = some run ∧
      run.result = .ok (formatOptions buffer p 0 opts).2 ∧
      run.options.map (optionContent (formatOptions buffer p 0 opts).1) =
        opts.map fun o => (o.1, o.2.length, o.2) := by
  rw [formatOptions_length h] at hfit ⊢
  obtain ⟨front, gap, rest, rfl, rfl, hgap⟩ : ∃ front gap rest, buffer = front ++ gap ++ rest ∧
      front.length = p ∧ gap.length = (encodeOptions 0 opts).length := by
    refine ⟨buffer.take p, (buffer.drop p).take (encodeOptions 0 opts).length,
      (buffer.drop p).drop (encodeOptions 0 opts).length, ?_, ?_, ?_⟩
    · rw [List.append_assoc, List.take_append_drop, List.take_append_drop]
    · exact List.length_take_of_le (by omega)
    · exact List.length_take_of_le (by rw [List.length_drop]; omega)
  rw [formatOptions_eq h hgap]
  have hlen : front.length + (encodeOptions 0 opts).length ≤
      (front ++ encodeOptions 0 opts ++ rest).length := by
    simp
  obtain ⟨run, ds, options, rest', hrun, hcut⟩ :=
    coapParseOptions_scan 0 hlen (Nat.lt_succ_self _)
  obtain ⟨ds', hs', hc⟩ := contents_encoded h
  have hbytes := hcut.bytes
  rw [List.append_assoc, List.drop_left' rfl, List.take_left' rfl] at hbytes
  have hends : EndsOptions [] := .inl rfl
  obtain ⟨after, bytes, hds, ho, hnil, hmore⟩ :=
    optionSeq_maximal hcut.seq hcut.stuck hs'
      (show options ++ rest' = encodeOptions 0 opts ++ [] by rw [List.append_nil, hbytes])
  obtain ⟨rfl, rfl⟩ := List.append_eq_nil_iff.mp hnil.symm
  obtain rfl := optionSeq_nil hmore
  rw [List.append_nil] at hbytes
  rw [List.append_nil] at hds
  refine ⟨run, hrun, by rw [hcut.ok hends, ← hbytes], ?_⟩
  rw [hcut.contents, hds, hc]

/-- The parser accepts the messages of the grammar and no others, and its numbers do not decrease,
exactly where the numbers fit in 16 bits; and it reads back what was written. -/
theorem parses_iff {message : CoapMessage} (hm : message.length ≤ message.buffer.length) :
    (ParsesExactly message ↔ NumbersFit message.bytes) ∧
    ∀ buffer p opts, Ascending 0 opts → p + (formatOptions buffer p 0 opts).2 ≤ buffer.length →
      ∃ run, coapParseOptions (formatOptions buffer p 0 opts).1
          ((formatOptions buffer p 0 opts).2 + 1) p (formatOptions buffer p 0 opts).2 0 =
          some run ∧
        run.result = .ok (formatOptions buffer p 0 opts).2 ∧
        run.options.map (optionContent (formatOptions buffer p 0 opts).1) =
          opts.map fun o => (o.1, o.2.length, o.2) :=
  ⟨parsesExactly_iff hm, fun _ _ _ h hfit => parse_formatOptions h hfit⟩

/-- A request with a path, read and written. -/
theorem parses_iff_uriPath :
    (ParsesExactly uriPathMessage ↔ NumbersFit uriPathMessage.bytes) ∧
    ∃ run, coapParseOptions [0xB1, 97, 1, 98] 5 0 4 0 = some run ∧ run.result = .ok 4 ∧
      run.options.map (optionContent [0xB1, 97, 1, 98]) = [(11, 1, [97]), (11, 1, [98])] := by
  obtain ⟨hparses, hback⟩ := parses_iff uriPathMessage_wellFormed.inBuffer
  exact ⟨hparses, hback [0, 0, 0, 0] 0 [(11, [97]), (11, [98])]
    ⟨by decide, by decide, by decide, by decide, by decide, by decide, trivial⟩ (by decide)⟩

/-- An Option Delta of 65804 makes the number 268: the string is no message, and is accepted. -/
def wrappedMessage : CoapMessage where
  buffer := [0x40, 1, 0, 1, 0xE0, 0xFF, 0xFF]
  length := 7

theorem parses_wrapped : ¬ParsesExactly wrappedMessage := by
  have ho : IsOption 65804 [] [0xE0, 0xFF, 0xFF] :=
    isOption_iff.mpr ⟨by decide, by decide, by decide⟩
  have hh : IsCoapHeader [0x40, 1, 0, 1] := .mk (by decide) (by decide) (by decide)
  rintro ⟨run, hrun, -, hr, -⟩
  cases hrun
  have hmsg := hr.mp rfl
  have hcut := (isCoapMessage_cut hh (.cons ho .nil) (EndsOptions.stuck (.inl rfl))).mp hmsg
  exact absurd hcut.2 (by decide)

end CoapScan
end Cyclone
