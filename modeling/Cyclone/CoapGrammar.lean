import Cyclone.CoapOptions

/-!
# Cyclone.CoapGrammar

The strings that are CoAP messages, stated without the parser: header, options, payload.

* `OptionSeq`: a sequence of options, each a delta and a value.
* `IsCoapMessage`: the whole message. The option numbers are the sums of the deltas.
* `optionSeq_maximal`: a string is cut into options in one way.

The numbers of the fields are written out here, as the format has them.
-/

namespace Cyclone

/-- A delta or a length: the four bits of the initial byte, and the bytes that follow. -/
inductive FieldCode : Nat → List UInt8 → Nat → Prop
  | direct {value : Nat} (h : value ≤ 12) : FieldCode value [] value
  | byte (b : UInt8) : FieldCode 13 [b] (b.toNat + 13)
  | word (hi lo : UInt8) : FieldCode 14 [hi, lo] (hi.toNat * 256 + lo.toNat + 269)

/-- The bytes of one option. -/
inductive IsOption (delta : Nat) (value : List UInt8) : List UInt8 → Prop
  | mk {deltaNibble lengthNibble : Nat} {deltaExt lengthExt : List UInt8}
      (hd : FieldCode deltaNibble deltaExt delta)
      (hl : FieldCode lengthNibble lengthExt value.length) :
      IsOption delta value
        (UInt8.ofNat (deltaNibble * 16 + lengthNibble) :: (deltaExt ++ (lengthExt ++ value)))

/-- The bytes of a list of options, each a delta and a value. -/
inductive OptionSeq : List OptionPair → List UInt8 → Prop
  | nil : OptionSeq [] []
  | cons {delta : Nat} {value bytes rest : List UInt8} {ds : List OptionPair}
      (ho : IsOption delta value bytes) (hs : OptionSeq ds rest) :
      OptionSeq ((delta, value) :: ds) (bytes ++ rest)

/-- The sum of the deltas: the number of the last option. -/
def deltaSum (ds : List OptionPair) : Nat := (ds.map Prod.fst).sum

/-- Version 1, a token length from 0 to 8, code, message identifier and token. -/
inductive IsCoapHeader : List UInt8 → Prop
  | mk {first code idHi idLo : UInt8} {token : List UInt8} (version : first.toNat / 64 = 1)
      (tokenLen : first.toNat % 16 = token.length) (max : token.length ≤ 8) :
      IsCoapHeader (first :: code :: idHi :: idLo :: token)

/-- Nothing, or the marker and at least one byte. -/
inductive IsCoapPayload : List UInt8 → Prop
  | none : IsCoapPayload []
  | some (b : UInt8) (payload : List UInt8) :
      IsCoapPayload (COAP_PAYLOAD_MARKER :: b :: payload)

/-- A CoAP message of RFC 7252. -/
def IsCoapMessage (bytes : List UInt8) : Prop :=
  ∃ header ds options payload, bytes = header ++ (options ++ payload) ∧ IsCoapHeader header ∧
    OptionSeq ds options ∧ IsCoapPayload payload ∧
    ∀ before after, ds = before ++ after → deltaSum before ≤ 65535

@[simp] theorem deltaSum_nil : deltaSum [] = 0 := rfl

@[simp] theorem deltaSum_append (before after : List OptionPair) :
    deltaSum (before ++ after) = deltaSum before + deltaSum after := by
  simp [deltaSum]

@[simp] theorem deltaSum_cons (d : OptionPair) (ds : List OptionPair) :
    deltaSum (d :: ds) = d.1 + deltaSum ds := by
  simp [deltaSum]

/-! ## One option is cut off in one way -/

theorem FieldCode.nibble {nibble value : Nat} {ext : List UInt8} (h : FieldCode nibble ext value) :
    nibble < COAP_OPT_RESERVED := by
  cases h with
  | direct h => exact lt_of_le_of_lt h (by decide)
  | byte b => decide
  | word hi lo => decide

theorem FieldCode.unique {nibble value value' : Nat} {ext ext' rest rest' : List UInt8}
    (h : FieldCode nibble ext value) (h' : FieldCode nibble ext' value')
    (he : ext ++ rest = ext' ++ rest') : value = value' ∧ ext = ext' ∧ rest = rest' := by
  cases h with
  | direct h =>
    cases h' with
    | direct _ => exact ⟨rfl, rfl, he⟩
    | byte b => omega
    | word hi lo => omega
  | byte b =>
    cases h' with
    | direct h => omega
    | byte b' =>
      simp only [List.cons_append, List.nil_append, List.cons.injEq] at he
      obtain ⟨rfl, rfl⟩ := he
      exact ⟨rfl, rfl, rfl⟩
  | word hi lo =>
    cases h' with
    | direct h => omega
    | word hi' lo' =>
      simp only [List.cons_append, List.nil_append, List.cons.injEq] at he
      obtain ⟨rfl, rfl, rfl⟩ := he
      exact ⟨rfl, rfl, rfl⟩

theorem IsOption.unique {delta delta' : Nat} {value value' bytes bytes' rest rest' : List UInt8}
    (h : IsOption delta value bytes) (h' : IsOption delta' value' bytes')
    (he : bytes ++ rest = bytes' ++ rest') :
    delta = delta' ∧ value = value' ∧ bytes = bytes' ∧ rest = rest' := by
  obtain @⟨dn, ln, de, le, hd, hl⟩ := h
  obtain @⟨dn', ln', de', le', hd', hl'⟩ := h'
  simp only [List.cons_append, List.cons.injEq, List.append_assoc] at he
  obtain ⟨hbyte, he⟩ := he
  have hnum := congrArg UInt8.toNat hbyte
  rw [nibbles_toNat hd.nibble hl.nibble, nibbles_toNat hd'.nibble hl'.nibble] at hnum
  have h1 := hl.nibble
  have h2 := hl'.nibble
  unfold COAP_OPT_RESERVED at h1 h2
  obtain rfl : dn = dn' := by omega
  obtain rfl : ln = ln' := by omega
  obtain ⟨rfl, rfl, hrest⟩ := hd.unique hd' he
  obtain ⟨hlen, rfl, hvalue⟩ := hl.unique hl' hrest
  obtain ⟨rfl, rfl⟩ := List.append_inj hvalue hlen
  exact ⟨rfl, rfl, rfl, rfl⟩

/-! ## The code's form of an option -/

theorem fieldCode_iff {nibble value : Nat} {ext : List UInt8} :
    FieldCode nibble ext value ↔
      value < FIELD_END ∧ formatOptionField value = (nibble, ext) := by
  constructor
  · intro h
    cases h with
    | direct h =>
      refine ⟨by unfold FIELD_END; omega, ?_⟩
      rw [formatOptionField, COAP_OPT_MINUS_16_BITS, COAP_OPT_MINUS_8_BITS, if_neg (by omega),
        if_neg (by omega)]
    | byte b =>
      have hb := b.toNat_lt
      refine ⟨by unfold FIELD_END; omega, ?_⟩
      rw [formatOptionField, COAP_OPT_MINUS_16_BITS, COAP_OPT_MINUS_8_BITS, if_neg (by omega),
        if_pos (by omega), Nat.add_sub_cancel, UInt8.ofNat_toNat]
      rfl
    | word hi lo =>
      have hhi := hi.toNat_lt
      have hlo := lo.toNat_lt
      refine ⟨by unfold FIELD_END COAP_OPT_MINUS_16_BITS; omega, ?_⟩
      have hdiv : (hi.toNat * 256 + lo.toNat) / 256 = hi.toNat := by omega
      have hmod : UInt8.ofNat (hi.toNat * 256 + lo.toNat) = lo := by
        apply UInt8.toNat_inj.mp
        rw [UInt8.toNat_ofNat']
        omega
      rw [formatOptionField, COAP_OPT_MINUS_16_BITS, if_pos (by omega), Nat.add_sub_cancel, be16,
        hdiv, hmod, UInt8.ofNat_toNat]
      rfl
  · rintro ⟨hv, h⟩
    unfold formatOptionField at h
    unfold FIELD_END at hv
    have e16 : COAP_OPT_MINUS_16_BITS = 269 := rfl
    have e8 : COAP_OPT_MINUS_8_BITS = 13 := rfl
    split_ifs at h with h1 h2
    · cases h
      have hw := FieldCode.word (UInt8.ofNat ((value - COAP_OPT_MINUS_16_BITS) / 256))
        (UInt8.ofNat (value - COAP_OPT_MINUS_16_BITS))
      have hval : (UInt8.ofNat ((value - COAP_OPT_MINUS_16_BITS) / 256)).toNat * 256 +
          (UInt8.ofNat (value - COAP_OPT_MINUS_16_BITS)).toNat + 269 = value := by
        rw [UInt8.toNat_ofNat', UInt8.toNat_ofNat']
        omega
      rw [hval] at hw
      exact hw
    · cases h
      have hb := FieldCode.byte (UInt8.ofNat (value - COAP_OPT_MINUS_8_BITS))
      have hval : (UInt8.ofNat (value - COAP_OPT_MINUS_8_BITS)).toNat + 13 = value := by
        rw [UInt8.toNat_ofNat']
        omega
      rw [hval] at hb
      exact hb
    · cases h
      exact .direct (by omega)

theorem isOption_iff {delta : Nat} {value bytes : List UInt8} :
    IsOption delta value bytes ↔ delta < FIELD_END ∧ value.length < FIELD_END ∧
      bytes = optionHeader delta value.length ++ value := by
  constructor
  · rintro ⟨hd, hl⟩
    obtain ⟨h1, h2⟩ := fieldCode_iff.mp hd
    obtain ⟨h3, h4⟩ := fieldCode_iff.mp hl
    refine ⟨h1, h3, ?_⟩
    rw [optionHeader, h2, h4]
    simp
  · rintro ⟨h1, h2, rfl⟩
    have hd := fieldCode_iff.mpr ⟨h1, (Prod.eta (formatOptionField delta)).symm⟩
    have hl := fieldCode_iff.mpr ⟨h2, (Prod.eta (formatOptionField value.length)).symm⟩
    have ho := IsOption.mk hd hl
    rw [optionHeader, List.cons_append, List.cons_append, List.append_assoc]
    exact ho

theorem IsOption.length_pos {delta : Nat} {value bytes : List UInt8}
    (h : IsOption delta value bytes) : 0 < bytes.length := by
  obtain ⟨hd, hl⟩ := h
  exact Nat.succ_pos _

theorem IsOption.not_ends {delta : Nat} {value bytes : List UInt8}
    (h : IsOption delta value bytes) (rest : List UInt8) : ¬EndsOptions (bytes ++ rest) := by
  obtain ⟨-, -, rfl⟩ := isOption_iff.mp h
  rintro (he | he)
  · have hpos := h.length_pos
    have hlen := congrArg List.length he
    rw [List.length_append, List.length_nil] at hlen
    omega
  · rw [List.append_assoc] at he
    exact head_optionHeader _ _ _ he

/-! ## Sequences -/

/-- No option can be cut off. -/
def Stuck (rest : List UInt8) : Prop :=
  ∀ delta value bytes rest', IsOption delta value bytes → rest ≠ bytes ++ rest'

theorem EndsOptions.stuck {rest : List UInt8} (h : EndsOptions rest) : Stuck rest := by
  rintro delta value bytes rest' ho rfl
  exact ho.not_ends rest' h

/-- Where no option follows, every other cut of the string is a beginning of this one. -/
theorem optionSeq_maximal {ds ds' : List OptionPair} {options options' rest rest' : List UInt8}
    (h : OptionSeq ds options) (hr : Stuck rest) (h' : OptionSeq ds' options')
    (he : options ++ rest = options' ++ rest') :
    ∃ after bytes, ds = ds' ++ after ∧ options = options' ++ bytes ∧ rest' = bytes ++ rest ∧
      OptionSeq after bytes := by
  induction h' generalizing ds options with
  | nil => exact ⟨ds, options, rfl, rfl, he.symm, h⟩
  | @cons delta' value' bytes' more' ds' ho' hs' ih =>
    cases h with
    | nil =>
      rw [List.nil_append, List.append_assoc] at he
      exact absurd he (hr _ _ _ _ ho')
    | @cons delta value bytes more ds ho hs =>
      rw [List.append_assoc, List.append_assoc] at he
      obtain ⟨rfl, rfl, rfl, hmore⟩ := ho.unique ho' he
      obtain ⟨after, left, rfl, rfl, rfl, hleft⟩ := ih hs hmore
      exact ⟨after, left, rfl, (List.append_assoc _ _ _).symm, rfl, hleft⟩

/-- Two cuts that both end are the same. -/
theorem optionSeq_unique {ds ds' : List OptionPair} {options options' rest rest' : List UInt8}
    (h : OptionSeq ds options) (hr : Stuck rest) (h' : OptionSeq ds' options') (hr' : Stuck rest')
    (he : options ++ rest = options' ++ rest') : ds = ds' ∧ options = options' ∧ rest = rest' := by
  obtain ⟨after, bytes, rfl, rfl, rfl, hs⟩ := optionSeq_maximal h hr h' he
  cases hs with
  | nil => simp
  | cons ho hs =>
    rw [List.append_assoc] at hr'
    exact absurd rfl (hr' _ _ _ _ ho)

theorem optionSeq_nil {ds : List OptionPair} (h : OptionSeq ds []) : ds = [] := by
  generalize hb : ([] : List UInt8) = bytes at h
  cases h with
  | nil => rfl
  | cons ho hs =>
    obtain ⟨rfl, -⟩ := List.append_eq_nil_iff.mp hb.symm
    exact absurd ho.length_pos (Nat.lt_irrefl 0)

theorem optionSeq_split {before after : List OptionPair} {options : List UInt8}
    (h : OptionSeq (before ++ after) options) :
    ∃ bytes bytes', options = bytes ++ bytes' ∧ OptionSeq before bytes ∧
      OptionSeq after bytes' := by
  induction before generalizing options with
  | nil => exact ⟨[], options, rfl, .nil, h⟩
  | cons d before ih =>
    cases h with
    | cons ho hs =>
      obtain ⟨bytes, bytes', rfl, h1, h2⟩ := ih hs
      exact ⟨_, bytes', (List.append_assoc _ _ _).symm, .cons ho h1, h2⟩

/-- Number, length and value of an option. -/
def optionContent (buffer : List UInt8) (option : CoapOption) : Nat × Nat × List UInt8 :=
  (option.number, option.length, option.value.read buffer option.length)

/-- An option parses exactly when one stands at the front of the bytes left. -/
theorem coapParseOption_cut {buffer : List UInt8} {p length : Nat} (prev : Nat) :
    (∃ e, coapParseOption buffer p length prev = .error e ∧
      Stuck ((buffer.drop p).take length)) ∨
    ∃ option delta value bytes rest,
      coapParseOption buffer p length prev = .ok (option, bytes.length) ∧
      IsOption delta value bytes ∧ (buffer.drop p).take length = bytes ++ rest ∧
      optionContent buffer option = (u16 (u16 delta + prev), value.length, value) := by
  cases hp : coapParseOption buffer p length prev with
  | error e =>
    refine .inl ⟨e, rfl, ?_⟩
    intro delta value bytes rest ho hb
    obtain ⟨hd, hl, rfl⟩ := isOption_iff.mp ho
    rw [List.append_assoc] at hb
    rw [coapParseOption_header hb hd hl] at hp
    cases hp
  | ok r =>
    obtain ⟨delta, value, rest, hd, hl, hb⟩ := parsed_header hp
    rw [coapParseOption_header hb hd hl] at hp
    cases hp
    refine .inr ⟨⟨u16 delta, u16 (u16 delta + prev), value.length,
        .inMessage (p + (optionHeader delta value.length).length)⟩, delta, value,
      optionHeader delta value.length ++ value, rest, ?_, isOption_iff.mpr ⟨hd, hl, rfl⟩,
      by rw [hb, List.append_assoc], ?_⟩
    · rw [List.length_append]
    · have hvalue : (buffer.drop (p + (optionHeader delta value.length).length)).take value.length =
          value := by
        have htake := congrArg (List.drop (optionHeader delta value.length).length) hb
        rw [List.drop_left' rfl, List.drop_take, List.drop_drop] at htake
        have hlen := congrArg List.length htake
        rw [List.length_append, List.length_take] at hlen
        have hcut := congrArg (List.take value.length) htake
        rw [List.take_left' rfl, List.take_take, Nat.min_eq_left (by omega)] at hcut
        exact hcut
      simp only [optionContent, CoapValue.read, hvalue]

/-! ## The header -/

theorem IsCoapHeader.length {header : List UInt8} (h : IsCoapHeader header) :
    sizeofCoapMessageHeader ≤ header.length := by
  cases h with
  | mk version tokenLen max => simp [sizeofCoapMessageHeader]

theorem isCoapHeader_iff {header : List UInt8} :
    IsCoapHeader header ↔ coapParseMessageHeader header = .ok header.length := by
  constructor
  · intro h
    cases h with
    | @mk first code idHi idLo token version tokenLen max =>
      simp only [coapParseMessageHeader, sizeofCoapMessageHeader, COAP_VERSION_1,
        COAP_MAX_TOKEN_LEN, List.getD_cons_zero, List.length_cons, version, tokenLen]
      rw [if_neg (by omega), if_neg (by omega), if_neg (by omega), if_neg (by omega),
        Nat.add_comm 4]
  · intro h
    unfold coapParseMessageHeader sizeofCoapMessageHeader COAP_VERSION_1 COAP_MAX_TOKEN_LEN at h
    rcases header with _ | ⟨first, _ | ⟨code, _ | ⟨idHi, _ | ⟨idLo, token⟩⟩⟩⟩
    · simp at h
    · simp at h
    · simp at h
    · simp at h
    · simp only [List.getD_cons_zero, List.length_cons] at h
      split_ifs at h with h1 h2 h3 h4
      rw [Except.ok.injEq] at h
      exact .mk (not_not.mp h2) (by omega) (by omega)

/-- The parser takes a header from the front of the string exactly when there is one. -/
theorem parsed_coapHeader {bytes : List UInt8} {n : Nat}
    (h : coapParseMessageHeader bytes = .ok n) :
    ∃ header rest, bytes = header ++ rest ∧ IsCoapHeader header ∧ header.length = n := by
  have hn : n ≤ bytes.length := by
    unfold coapParseMessageHeader at h
    split_ifs at h
    cases h
    omega
  have hlen : (bytes.take n).length = n := List.length_take_of_le hn
  refine ⟨bytes.take n, bytes.drop n, (List.take_append_drop n bytes).symm, ?_, hlen⟩
  rw [isCoapHeader_iff, ← @coapParseMessageHeader_front _ (bytes.drop n), List.take_append_drop,
    hlen]
  exact h

theorem IsCoapHeader.parses {header : List UInt8} (h : IsCoapHeader header) (rest : List UInt8) :
    coapParseMessageHeader (header ++ rest) = .ok header.length :=
  coapParseMessageHeader_front.mpr (isCoapHeader_iff.mp h)

theorem IsCoapPayload.ends {payload : List UInt8} (h : IsCoapPayload payload) :
    EndsOptions payload := by
  cases h with
  | none => exact .inl rfl
  | some b payload => exact .inr rfl

theorem IsCoapHeader.unique {header header' rest rest' : List UInt8} (h : IsCoapHeader header)
    (h' : IsCoapHeader header') (he : header ++ rest = header' ++ rest') :
    header = header' ∧ rest = rest' := by
  have h1 := h.parses rest
  rw [he, h'.parses rest', Except.ok.injEq] at h1
  exact List.append_inj he h1.symm

/-- What is accepted behind the options: nothing, or the marker and at least one byte. -/
theorem isCoapPayload_iff {rest : List UInt8} (h : EndsOptions rest) :
    IsCoapPayload rest ↔ rest.length ≠ 1 := by
  constructor
  · intro hp
    cases hp with
    | none => simp
    | some b payload => simp
  · intro hlen
    rcases rest with _ | ⟨b, _ | ⟨c, payload⟩⟩
    · exact .none
    · exact absurd rfl hlen
    · rcases h with h | h
      · cases h
      · cases Option.some.inj h
        exact .some c payload

theorem WellFormed.inBuffer {message : CoapMessage} {header tail : List UInt8}
    {opts : List OptionPair} (h : WellFormed message header opts tail) :
    message.length ≤ message.buffer.length := by
  rw [h.size]
  exact h.fits

end Cyclone
