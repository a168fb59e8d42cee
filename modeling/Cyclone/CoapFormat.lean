import Cyclone.Coap

/-!
# Cyclone.CoapFormat

The format of the options: a list of numbers with their values, and its encoding.

* `Decodes`: the list that the parser reads.
* `decodes_iff`: what decodes is the encoding of an ascending list.
-/

namespace Cyclone

open Ring

/-! ## Fields of an option -/

/-- The numbers a field can hold. -/
def FIELD_END : Nat := 65536 + COAP_OPT_MINUS_16_BITS

theorem formatOptionField_lt {value : Nat} : (formatOptionField value).1 < COAP_OPT_RESERVED := by
  unfold formatOptionField
  simp only [COAP_OPT_16_BITS, COAP_OPT_8_BITS, COAP_OPT_MINUS_16_BITS, COAP_OPT_MINUS_8_BITS,
    COAP_OPT_RESERVED]
  by_cases h1 : value ≥ 269
  · simp [h1]
  · by_cases h2 : value ≥ 13
    · simp [h1, h2]
    · simp [h1, h2]
      omega

theorem parse_formatOptionField {value : Nat} (h : value < FIELD_END) (rest : List UInt8) :
    parseOptionField (formatOptionField value).1 ((formatOptionField value).2 ++ rest) =
      .ok (value, rest) := by
  unfold FIELD_END at h
  unfold formatOptionField parseOptionField
  simp only [COAP_OPT_16_BITS, COAP_OPT_8_BITS, COAP_OPT_MINUS_16_BITS, COAP_OPT_MINUS_8_BITS,
    COAP_OPT_RESERVED] at *
  by_cases h1 : value ≥ 269
  · simp [h1, be16]
    omega
  · by_cases h2 : value ≥ 13
    · simp [h1, h2]
      omega
    · simp [h1, h2]
      rw [if_neg (by omega), if_neg (by omega), if_neg (by omega)]

theorem format_parseOptionField {nibble value : Nat} {p rest : List UInt8} (hn : nibble < 16)
    (h : parseOptionField nibble p = .ok (value, rest)) :
    value < FIELD_END ∧ (formatOptionField value).1 = nibble ∧
      p = (formatOptionField value).2 ++ rest := by
  have e16 : COAP_OPT_MINUS_16_BITS = 269 := rfl
  have e8 : COAP_OPT_MINUS_8_BITS = 13 := rfl
  unfold parseOptionField at h
  unfold formatOptionField FIELD_END
  by_cases h1 : nibble = COAP_OPT_RESERVED
  · rw [if_pos h1] at h
    cases h
  rw [if_neg h1] at h
  by_cases h2 : nibble = COAP_OPT_16_BITS
  · rw [if_pos h2] at h
    cases p with
    | nil => cases h
    | cons hi p =>
      cases p with
      | nil => cases h
      | cons lo p =>
        cases h
        have hhi := hi.toNat_lt
        have hlo := lo.toNat_lt
        have hdiv : (hi.toNat * 256 + lo.toNat) / 256 = hi.toNat := by omega
        have hmod : UInt8.ofNat (hi.toNat * 256 + lo.toNat) = lo := by
          apply UInt8.toNat_inj.mp
          rw [UInt8.toNat_ofNat']
          omega
        exact ⟨by omega, by simp [h2], by simp [be16, hdiv, hmod]⟩
  rw [if_neg h2] at h
  by_cases h3 : nibble = COAP_OPT_8_BITS
  · rw [if_pos h3] at h
    cases p with
    | nil => cases h
    | cons b p =>
      cases h
      have hb := b.toNat_lt
      rw [if_neg (by omega), if_pos (by omega)]
      exact ⟨by omega, h3.symm, by simp⟩
  · rw [if_neg h3] at h
    cases h
    have hr : COAP_OPT_RESERVED = 15 := rfl
    have h16 : COAP_OPT_16_BITS = 14 := rfl
    have h8 : COAP_OPT_8_BITS = 13 := rfl
    rw [if_neg (by omega), if_neg (by omega)]
    exact ⟨by omega, rfl, rfl⟩

/-- The errors of the option parser. -/
theorem parseOptionField_error {nibble : Nat} {p : List UInt8} {e : CoapError}
    (h : parseOptionField nibble p = .error e) :
    e = .INVALID_MESSAGE ∨ e = .BUFFER_UNDERFLOW := by
  unfold parseOptionField at h
  split_ifs at h
  · cases h
    exact .inl rfl
  · match p, h with
    | [], h => cases h; exact .inr rfl
    | [_], h => cases h; exact .inr rfl
    | _ :: _ :: _, h => cases h
  · cases p with
    | nil => cases h; exact .inr rfl
    | cons b p => cases h

theorem length_formatOptionField (value : Nat) :
    (formatOptionField value).2.length =
      if value ≥ COAP_OPT_MINUS_16_BITS then 2
      else if value ≥ COAP_OPT_MINUS_8_BITS then 1 else 0 := by
  unfold formatOptionField
  split_ifs <;> rfl

theorem nibbles_toNat {a b : Nat} (ha : a < COAP_OPT_RESERVED) (hb : b < COAP_OPT_RESERVED) :
    (UInt8.ofNat (a * 16 + b)).toNat = a * 16 + b := by
  unfold COAP_OPT_RESERVED at ha hb
  rw [UInt8.toNat_ofNat']
  omega

/-! ## One option -/

/-- An option as a number and a value. -/
abbrev OptionPair := Nat × List UInt8

/-- The bytes of an option behind an option of number `prev`. -/
def encodeOption (prev : Nat) (o : OptionPair) : List UInt8 :=
  optionHeader (o.1 - prev) o.2.length ++ o.2

theorem length_optionHeader (delta length : Nat) :
    (optionHeader delta length).length =
      1 + (formatOptionField delta).2.length + (formatOptionField length).2.length := by
  simp [optionHeader]; omega

theorem length_encodeOption (prev : Nat) (o : OptionPair) :
    (encodeOption prev o).length = (optionHeader (o.1 - prev) o.2.length).length + o.2.length := by
  simp [encodeOption]

theorem length_encodeOption_pos (prev : Nat) (o : OptionPair) :
    0 < (encodeOption prev o).length := by
  rw [length_encodeOption, length_optionHeader]
  omega

theorem head_optionHeader (delta length : Nat) (rest : List UInt8) :
    (optionHeader delta length ++ rest).head? ≠ some COAP_PAYLOAD_MARKER := by
  have h1 := @formatOptionField_lt delta
  have h2 := @formatOptionField_lt length
  intro h
  simp only [optionHeader, List.cons_append, List.head?_cons, Option.some.injEq] at h
  have h3 := congrArg UInt8.toNat h
  rw [nibbles_toNat h1 h2] at h3
  simp only [COAP_OPT_RESERVED, COAP_PAYLOAD_MARKER] at h1 h2 h3
  simp at h3
  omega

theorem coapParseOption_header {buffer rest value : List UInt8} {p length prev delta : Nat}
    (hb : (buffer.drop p).take length = optionHeader delta value.length ++ (value ++ rest))
    (hd : delta < FIELD_END) (hl : value.length < FIELD_END) :
    coapParseOption buffer p length prev =
      .ok ({ delta := u16 delta, number := u16 (u16 delta + prev), length := value.length
             value := .inMessage (p + (optionHeader delta value.length).length) },
        (optionHeader delta value.length).length + value.length) := by
  have hlen := congrArg List.length hb
  have h1 := @formatOptionField_lt delta
  have h2 := @formatOptionField_lt value.length
  have h3 := nibbles_toNat h1 h2
  have h4 : ((formatOptionField delta).1 * 16 + (formatOptionField value.length).1) / 16 =
      (formatOptionField delta).1 := by unfold COAP_OPT_RESERVED at h2; omega
  have h5 : ((formatOptionField delta).1 * 16 + (formatOptionField value.length).1) % 16 =
      (formatOptionField value.length).1 := by unfold COAP_OPT_RESERVED at h2; omega
  unfold coapParseOption
  rw [hb]
  simp only [optionHeader, List.cons_append, List.append_assoc, h3, h4, h5,
    parse_formatOptionField hd, parse_formatOptionField hl, bind, Except.bind]
  rw [if_neg (by simp)]
  simp only [List.length_cons, List.length_append, Except.ok.injEq, Prod.mk.injEq,
    CoapOption.mk.injEq, CoapValue.inMessage.injEq, true_and]
  omega

theorem parsed_header {buffer : List UInt8} {p length prev n : Nat} {o : CoapOption}
    (h : coapParseOption buffer p length prev = .ok (o, n)) :
    ∃ delta value rest, delta < FIELD_END ∧ value.length < FIELD_END ∧
      (buffer.drop p).take length = optionHeader delta value.length ++ (value ++ rest) := by
  unfold coapParseOption at h
  cases hb : (buffer.drop p).take length with
  | nil => rw [hb] at h; simp at h
  | cons header rest =>
    rw [hb] at h
    have hh := header.toNat_lt
    simp only [bind, Except.bind] at h
    cases hd : parseOptionField (header.toNat / 16) rest with
    | error e => rw [hd] at h; simp at h
    | ok d =>
      obtain ⟨delta, rest1⟩ := d
      rw [hd] at h
      simp only at h
      cases hl : parseOptionField (header.toNat % 16) rest1 with
      | error e => rw [hl] at h; simp at h
      | ok l =>
        obtain ⟨len, rest2⟩ := l
        rw [hl] at h
        simp only at h
        split_ifs at h with hlen
        obtain ⟨hd1, hd2, hd3⟩ := format_parseOptionField (by omega) hd
        obtain ⟨hl1, hl2, hl3⟩ := format_parseOptionField (by omega) hl
        have hv : (rest2.take len).length = len := by simp; omega
        refine ⟨delta, rest2.take len, rest2.drop len, hd1, by omega, ?_⟩
        rw [hv, List.take_append_drop, optionHeader, hd2, hl2, hd3, hl3]
        have hbyte : header.toNat / 16 * 16 + header.toNat % 16 = header.toNat := by omega
        rw [hbyte]
        simp

theorem coapParseOption_error {buffer : List UInt8} {p length prev : Nat} {e : CoapError}
    (h : coapParseOption buffer p length prev = .error e) :
    e = .INVALID_MESSAGE ∨ e = .BUFFER_UNDERFLOW := by
  unfold coapParseOption at h
  cases hb : (buffer.drop p).take length with
  | nil =>
    rw [hb] at h
    cases h
    exact .inr rfl
  | cons header rest =>
    rw [hb] at h
    simp only [bind, Except.bind] at h
    cases hd : parseOptionField (header.toNat / 16) rest with
    | error e' =>
      rw [hd] at h
      cases h
      exact parseOptionField_error hd
    | ok d =>
      rw [hd] at h
      dsimp only at h
      cases hl : parseOptionField (header.toNat % 16) d.2 with
      | error e' =>
        rw [hl] at h
        cases h
        exact parseOptionField_error hl
      | ok l =>
        rw [hl] at h
        dsimp only at h
        split_ifs at h
        cases h
        exact .inr rfl

theorem parse_encoded {buffer rest : List UInt8} {p length prev : Nat} {o : OptionPair}
    (hb : (buffer.drop p).take length = encodeOption prev o ++ rest) (hle : prev ≤ o.1)
    (hmax : o.1 < 65536) (hlen : o.2.length < FIELD_END) :
    coapParseOption buffer p length prev =
      .ok ({ delta := o.1 - prev, number := o.1, length := o.2.length
             value := .inMessage (p + (optionHeader (o.1 - prev) o.2.length).length) },
        (encodeOption prev o).length) := by
  have hd : o.1 - prev < FIELD_END := by
    unfold FIELD_END COAP_OPT_MINUS_16_BITS
    omega
  rw [encodeOption, List.append_assoc] at hb
  rw [coapParseOption_header hb hd hlen, u16_of_lt (by omega), Nat.sub_add_cancel hle,
    u16_of_lt hmax, length_encodeOption]

/-! ## Lists of options -/

/-- Ascending numbers from `prev` on, each with a value that the length field can hold. -/
def Ascending : Nat → List OptionPair → Prop
  | _, [] => True
  | prev, o :: os => prev ≤ o.1 ∧ o.1 < 65536 ∧ o.2.length < FIELD_END ∧ Ascending o.1 os

def encodeOptions : Nat → List OptionPair → List UInt8
  | _, [] => []
  | prev, o :: os => encodeOption prev o ++ encodeOptions o.1 os

/-- The number of the last option, `prev` when there is none. -/
def lastNumber : Nat → List OptionPair → Nat
  | prev, [] => prev
  | _, o :: os => lastNumber o.1 os

/-- The message ends, or the payload marker follows. -/
def EndsOptions (tail : List UInt8) : Prop :=
  tail = [] ∨ tail.head? = some COAP_PAYLOAD_MARKER

/-- The Option Delta of the first option, which the code keeps in 16 bits. -/
def optionDelta : List UInt8 → Nat
  | [] => 0
  | header :: rest =>
    match parseOptionField (header.toNat / 16) rest with
    | .ok (delta, _) => delta
    | .error _ => 0

/-- The options that the parser reads from `bytes`, behind an option of number `prev`, and the
bytes it leaves. The running sum of the deltas stays below 65536. -/
inductive Decodes : Nat → List UInt8 → List OptionPair → List UInt8 → Prop
  | done {prev : Nat} {bytes : List UInt8} (h : EndsOptions bytes) : Decodes prev bytes [] bytes
  | option {prev n : Nat} {bytes tail : List UInt8} {o : CoapOption} {opts : List OptionPair}
      (hm : ¬EndsOptions bytes)
      (hp : coapParseOption bytes 0 bytes.length prev = .ok (o, n))
      (hn : prev + optionDelta bytes < 65536)
      (ho : Decodes (prev + optionDelta bytes) (bytes.drop n) opts tail) :
      Decodes prev bytes ((prev + optionDelta bytes, o.value.read bytes o.length) :: opts) tail

theorem encodeOptions_append (prev : Nat) (before after : List OptionPair) :
    encodeOptions prev (before ++ after) =
      encodeOptions prev before ++ encodeOptions (lastNumber prev before) after := by
  induction before generalizing prev with
  | nil => rfl
  | cons o before ih => simp [encodeOptions, lastNumber, ih]

theorem ascending_append {prev : Nat} {before after : List OptionPair} :
    Ascending prev (before ++ after) ↔
      Ascending prev before ∧ Ascending (lastNumber prev before) after := by
  induction before generalizing prev with
  | nil => simp [Ascending, lastNumber]
  | cons o before ih => simp [Ascending, lastNumber, ih, and_assoc]

theorem not_endsOptions_encoded (prev : Nat) (o : OptionPair) (rest : List UInt8) :
    ¬EndsOptions (encodeOption prev o ++ rest) := by
  rintro (h | h)
  · have h1 := congrArg List.length h
    have h2 := length_encodeOption_pos prev o
    simp only [List.length_append, List.length_nil] at h1
    omega
  · rw [encodeOption, List.append_assoc] at h
    exact head_optionHeader _ _ _ h

theorem optionDelta_header {delta length : Nat} (hd : delta < FIELD_END) (rest : List UInt8) :
    optionDelta (optionHeader delta length ++ rest) = delta := by
  have h1 := @formatOptionField_lt delta
  have h2 := @formatOptionField_lt length
  have h4 : ((formatOptionField delta).1 * 16 + (formatOptionField length).1) / 16 =
      (formatOptionField delta).1 := by unfold COAP_OPT_RESERVED at h2; omega
  simp only [optionHeader, List.cons_append, optionDelta, nibbles_toNat h1 h2, h4,
    List.append_assoc, parse_formatOptionField hd]

theorem Decodes.encoded {prev : Nat} {bytes tail : List UInt8} {opts : List OptionPair}
    (h : Decodes prev bytes opts tail) :
    bytes = encodeOptions prev opts ++ tail ∧ Ascending prev opts ∧ EndsOptions tail := by
  induction h with
  | done h => exact ⟨rfl, trivial, h⟩
  | @option prev n bytes tail o opts hm hp hn ho ih =>
    obtain ⟨ih1, ih2, ih3⟩ := ih
    obtain ⟨delta, value, rest, hd, hl, hb⟩ := parsed_header hp
    have hp' := @coapParseOption_header bytes rest value 0 bytes.length prev delta hb hd hl
    rw [List.drop_zero, List.take_length] at hb
    rw [hp', Except.ok.injEq, Prod.mk.injEq] at hp
    obtain ⟨rfl, rfl⟩ := hp
    have hdelta : optionDelta bytes = delta := by rw [hb, optionDelta_header hd]
    have hvalue : (CoapValue.inMessage (0 + (optionHeader delta value.length).length)).read bytes
        value.length = value := by
      rw [CoapValue.read, hb, Nat.zero_add, List.drop_left' rfl, List.take_left' rfl]
    have hrest : bytes.drop ((optionHeader delta value.length).length + value.length) = rest := by
      rw [hb, ← List.append_assoc]
      exact List.drop_left' (by simp)
    rw [hdelta, hrest] at ih1
    rw [hdelta] at ih2 hn ⊢
    simp only [hvalue]
    refine ⟨?_, ⟨by omega, hn, hl, ih2⟩, ih3⟩
    rw [hb, ih1, encodeOptions, encodeOption]
    simp

theorem decodes_encoded {prev : Nat} {opts : List OptionPair} {tail : List UInt8}
    (ha : Ascending prev opts) (ht : EndsOptions tail) :
    Decodes prev (encodeOptions prev opts ++ tail) opts tail := by
  induction opts generalizing prev with
  | nil => exact .done ht
  | cons o opts ih =>
    obtain ⟨h1, h2, h3, h4⟩ := ha
    have hb : encodeOptions prev (o :: opts) ++ tail =
        encodeOption prev o ++ (encodeOptions o.1 opts ++ tail) := by simp [encodeOptions]
    rw [hb]
    generalize hrest : encodeOptions o.1 opts ++ tail = rest
    have hp := @parse_encoded (encodeOption prev o ++ rest) rest 0
      (encodeOption prev o ++ rest).length prev o (by rw [List.drop_zero, List.take_length]) h1
      h2 h3
    have hdelta : prev + optionDelta (encodeOption prev o ++ rest) = o.1 := by
      rw [encodeOption, List.append_assoc, optionDelta_header]
      · omega
      · unfold FIELD_END COAP_OPT_MINUS_16_BITS
        omega
    have hvalue : (CoapValue.inMessage (0 + (optionHeader (o.1 - prev) o.2.length).length)).read
        (encodeOption prev o ++ rest) o.2.length = o.2 := by
      rw [CoapValue.read, encodeOption, Nat.zero_add, List.append_assoc, List.drop_left' rfl,
        List.take_left' rfl]
    have hd := @Decodes.option prev _ (encodeOption prev o ++ rest) tail _ opts
      (not_endsOptions_encoded prev o rest) hp (by rw [hdelta]; exact h2)
    rw [hdelta, List.drop_left' rfl, hvalue] at hd
    apply hd
    rw [← hrest]
    exact ih h4

theorem decodes_iff {prev : Nat} {bytes tail : List UInt8} {opts : List OptionPair} :
    Decodes prev bytes opts tail ↔
      bytes = encodeOptions prev opts ++ tail ∧ Ascending prev opts ∧ EndsOptions tail := by
  constructor
  · exact Decodes.encoded
  · rintro ⟨rfl, ha, ht⟩
    exact decodes_encoded ha ht

end Cyclone
