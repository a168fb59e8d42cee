import Cyclone.CoapFormat

/-!
# Cyclone.CoapOptions

The operations on the options of a well-formed CoAP message are operations on the list of its
options.

* `searchOption_located`: where the search stops.
* `At`: the buffer around the place of the change, and what each move and each write makes of it.
* `options_kept`: what the operations do to the list, and that nothing else changes.
-/

namespace Cyclone

open Ring

/-! ## The search -/

/-- The values of the options of a number. -/
def occurrences (num : Nat) (opts : List OptionPair) : List (List UInt8) :=
  (opts.filter fun o => o.1 = num).map Prod.snd

@[simp] theorem occurrences_nil (num : Nat) : occurrences num [] = [] := rfl

@[simp] theorem occurrences_append (num : Nat) (before after : List OptionPair) :
    occurrences num (before ++ after) = occurrences num before ++ occurrences num after := by
  simp [occurrences]

@[simp] theorem occurrences_cons_self (num : Nat) (w : List UInt8) (opts : List OptionPair) :
    occurrences num ((num, w) :: opts) = w :: occurrences num opts := by
  simp [occurrences]

theorem occurrences_cons_ne {num : Nat} {o : OptionPair} (h : o.1 ≠ num)
    (opts : List OptionPair) : occurrences num (o :: opts) = occurrences num opts := by
  simp [occurrences, h]

theorem occurrences_eq_nil {num : Nat} {opts : List OptionPair} (h : ∀ o ∈ opts, num < o.1) :
    occurrences num opts = [] := by
  simp only [occurrences, List.map_eq_nil_iff, List.filter_eq_nil_iff, decide_eq_true_eq]
  intro o ho heq
  have := h o ho
  omega

theorem Ascending.le {prev : Nat} {opts : List OptionPair} (h : Ascending prev opts) :
    ∀ o ∈ opts, prev ≤ o.1 := by
  induction opts generalizing prev with
  | nil => simp
  | cons o opts ih =>
    obtain ⟨h1, -, -, h4⟩ := h
    intro x hx
    rcases List.mem_cons.mp hx with rfl | hx
    · exact h1
    · exact le_trans h1 (ih h4 x hx)

/-- The test of the loops: another option follows. -/
theorem goesOn_iff (front block junk : List UInt8) :
    (0 < block.length ∧ (front ++ block ++ junk)[front.length]? ≠ some COAP_PAYLOAD_MARKER) ↔
      ¬EndsOptions block := by
  cases block with
  | nil => simp [EndsOptions]
  | cons b block => simp [EndsOptions]

/-- A turn of a loop that ends it. -/
theorem turn_ends {buffer front tail junk : List UInt8} (hb : buffer = front ++ tail ++ junk)
    (ht : EndsOptions tail) :
    tail.length = 0 ∨ buffer[front.length]? = some COAP_PAYLOAD_MARKER := by
  have hstop := mt (goesOn_iff front tail junk).mp (fun h => h ht)
  rw [← hb] at hstop
  by_contra hc
  obtain ⟨h1, h2⟩ := not_or.mp hc
  exact hstop ⟨Nat.pos_of_ne_zero h1, h2⟩

/-- A turn of a loop that reads an option: the parser gives the option, and what is left lies
behind it. -/
theorem turn_option {buffer front block junk : List UInt8} {prev : Nat} {o : OptionPair}
    (hb : buffer = front ++ (encodeOption prev o ++ block) ++ junk) (h1 : prev ≤ o.1)
    (h2 : o.1 < 65536) (h3 : o.2.length < FIELD_END) :
    ¬((encodeOption prev o ++ block).length = 0 ∨
        buffer[front.length]? = some COAP_PAYLOAD_MARKER) ∧
      coapParseOption buffer front.length (encodeOption prev o ++ block).length prev =
        .ok ({ delta := o.1 - prev, number := o.1, length := o.2.length
               value := .inMessage
                (front.length + (optionHeader (o.1 - prev) o.2.length).length) },
          (encodeOption prev o).length) ∧
      (encodeOption prev o ++ block).length - (encodeOption prev o).length = block.length ∧
      front.length + (encodeOption prev o).length = (front ++ encodeOption prev o).length ∧
      buffer = (front ++ encodeOption prev o) ++ block ++ junk := by
  obtain ⟨hg1, hg2⟩ := (goesOn_iff front _ junk).mpr (not_endsOptions_encoded prev o block)
  refine ⟨?_, parse_encoded (by rw [hb, block_eq]) h1 h2 h3, ?_, List.length_append.symm, ?_⟩
  · rw [hb]
    rintro (h | h)
    · omega
    · exact hg2 h
  · rw [List.length_append]
    omega
  · rw [hb]
    simp

/-- What the search finds in a list of options: where it stops, and why. -/
structure Located (prev : Nat) (tail : List UInt8) (num idx index p : Nat)
    (before after : List OptionPair) (s : OptionSearch) : Prop where
  p : s.p = p + (encodeOptions prev before).length
  prevOptionNum : s.prevOptionNum = lastNumber prev before
  length : s.length = (encodeOptions (lastNumber prev before) after ++ tail).length
  le : ∀ o ∈ before, o.1 ≤ num
  found : s.found = true → index + (occurrences num before).length = idx ∧
    ∃ w rest, after = (num, w) :: rest ∧
      s.n = (encodeOption (lastNumber prev before) (num, w)).length
  absent : s.found = false → index + (occurrences num before).length ≤ idx ∧
    ∀ o ∈ after, num < o.1

/-- A turn that passes an option. -/
theorem Located.pass {prev num idx index p : Nat} {tail : List UInt8} {o : OptionPair}
    {before after : List OptionPair} {s : OptionSearch} (hle : o.1 ≤ num)
    (h : Located o.1 tail num idx (index + (occurrences num [o]).length)
      (p + (encodeOption prev o).length) before after s) :
    Located prev tail num idx index p (o :: before) after s := by
  have hocc : (occurrences num (o :: before)).length =
      (occurrences num [o]).length + (occurrences num before).length := by
    rw [← List.singleton_append, occurrences_append, List.length_append]
  constructor
  · rw [h.p, encodeOptions, List.length_append, Nat.add_assoc]
  · exact h.prevOptionNum
  · exact h.length
  · intro x hx
    rcases List.mem_cons.mp hx with rfl | hx
    · exact hle
    · exact h.le x hx
  · intro hf
    obtain ⟨h1, h2⟩ := h.found hf
    exact ⟨by omega, h2⟩
  · intro hf
    obtain ⟨h1, h2⟩ := h.absent hf
    exact ⟨by omega, h2⟩

theorem searchOption_located {buffer tail junk : List UInt8} {num idx : Nat}
    (ht : EndsOptions tail) {opts : List OptionPair} :
    ∀ {fuel prev index : Nat} {front : List UInt8}, Ascending prev opts → index ≤ idx →
      buffer = front ++ (encodeOptions prev opts ++ tail) ++ junk →
      (encodeOptions prev opts ++ tail).length ≤ fuel →
      ∃ before after s, opts = before ++ after ∧
        searchOption buffer num idx fuel front.length (encodeOptions prev opts ++ tail).length prev
          index = .ok s ∧ Located prev tail num idx index front.length before after s := by
  induction opts with
  | nil =>
    intro fuel prev index front ha hi hb hf
    refine ⟨[], [], ⟨false, front.length, tail.length, prev, 0⟩, rfl, ?_, ?_⟩
    · cases fuel with
      | zero => rfl
      | succ fuel =>
        rw [searchOption]
        exact if_pos (turn_ends hb ht)
    · constructor <;> simp [encodeOptions, lastNumber, hi]
  | cons o opts ih =>
    intro fuel prev index front ha hi hb hf
    obtain ⟨h1, h2, h3, h4⟩ := ha
    have hblock : encodeOptions prev (o :: opts) ++ tail =
        encodeOption prev o ++ (encodeOptions o.1 opts ++ tail) := by simp [encodeOptions]
    rw [hblock] at hb hf ⊢
    have hpos := length_encodeOption_pos prev o
    cases fuel with
    | zero => rw [List.length_append] at hf; omega
    | succ fuel =>
      obtain ⟨hgo, hp, hsub, hadd, hnext⟩ := turn_option hb h1 h2 h3
      have hfuel : (encodeOptions o.1 opts ++ tail).length ≤ fuel := by
        rw [List.length_append] at hf; omega
      have hstep : searchOption buffer num idx (fuel + 1) front.length
          (encodeOption prev o ++ (encodeOptions o.1 opts ++ tail)).length prev index =
          if o.1 > num then .ok ⟨false, front.length,
            (encodeOption prev o ++ (encodeOptions o.1 opts ++ tail)).length, prev,
            (encodeOption prev o).length⟩
          else if o.1 = num then
            if index = idx then .ok ⟨true, front.length,
              (encodeOption prev o ++ (encodeOptions o.1 opts ++ tail)).length, prev,
              (encodeOption prev o).length⟩
            else searchOption buffer num idx fuel (front ++ encodeOption prev o).length
              (encodeOptions o.1 opts ++ tail).length o.1 (index + 1)
          else searchOption buffer num idx fuel (front ++ encodeOption prev o).length
              (encodeOptions o.1 opts ++ tail).length o.1 index := by
        rw [searchOption, if_neg hgo, hp]
        simp only [bind, Except.bind, hsub, hadd]
      rw [hstep]
      by_cases hgt : o.1 > num
      · refine ⟨[], o :: opts, _, rfl, if_pos hgt, ?_⟩
        constructor
        · simp [encodeOptions]
        · rfl
        · simp [encodeOptions, lastNumber]
        · simp
        · intro hf; cases hf
        · refine fun _ => ⟨by simpa using hi, ?_⟩
          intro x hx
          rcases List.mem_cons.mp hx with rfl | hx
          · exact hgt
          · exact lt_of_lt_of_le hgt (h4.le x hx)
      · rw [if_neg hgt]
        by_cases heq : o.1 = num
        · rw [if_pos heq]
          by_cases hidx : index = idx
          · refine ⟨[], o :: opts, _, rfl, if_pos hidx, ?_⟩
            obtain ⟨k, w⟩ := o
            simp only at heq
            subst heq
            constructor
            · simp [encodeOptions]
            · rfl
            · simp [encodeOptions, lastNumber]
            · simp
            · exact fun _ => ⟨by simpa using hidx, w, opts, rfl, rfl⟩
            · intro hf; cases hf
          · rw [if_neg hidx]
            have hone : (occurrences num [o]).length = 1 := by
              obtain ⟨k, w⟩ := o
              simp only at heq
              subst heq
              simp
            obtain ⟨before, after, s, e1, e2, e3⟩ := ih h4 (by omega : index + 1 ≤ idx) hnext hfuel
            refine ⟨o :: before, after, s, by rw [e1]; rfl, e2, Located.pass (by omega) ?_⟩
            rw [hone, ← List.length_append]
            exact e3
        · rw [if_neg heq]
          have hzero : (occurrences num [o]).length = 0 := by
            rw [occurrences_cons_ne heq]; rfl
          obtain ⟨before, after, s, e1, e2, e3⟩ := ih h4 hi hnext hfuel
          refine ⟨o :: before, after, s, by rw [e1]; rfl, e2, Located.pass (by omega) ?_⟩
          rw [hzero, Nat.add_zero, ← List.length_append]
          exact e3

/-! ## Writing in place -/

/-- A larger delta takes at least as many bytes. -/
theorem optionHeader_mono {a b : Nat} (h : a ≤ b) (length : Nat) :
    (optionHeader a length).length ≤ (optionHeader b length).length := by
  rw [length_optionHeader, length_optionHeader, length_formatOptionField,
    length_formatOptionField b]
  split_ifs <;> omega

/-- Two deltas added up take at most as many bytes as both headers. -/
theorem optionHeader_add (a b l1 l2 : Nat) :
    (optionHeader (a + b) l2).length ≤ (optionHeader a l1).length + (optionHeader b l2).length := by
  have e16 : COAP_OPT_MINUS_16_BITS = 269 := rfl
  have e8 : COAP_OPT_MINUS_8_BITS = 13 := rfl
  rw [length_optionHeader, length_optionHeader, length_optionHeader b,
    length_formatOptionField (a + b), length_formatOptionField a, length_formatOptionField b]
  split_ifs <;> omega

/-- A new option is written into a gap of its size. -/
theorem format_given {front gap rest : List UInt8} {prev num delta : Nat} {value : List UInt8}
    (hle : prev ≤ num) (hn : num < 65536)
    (hgap : gap.length = (encodeOption prev (num, value)).length) :
    (coapFormatOption (front ++ gap ++ rest) (some front.length) prev
      ⟨delta, num, value.length, .given value⟩).2 =
      (front ++ encodeOption prev (num, value) ++ rest, (encodeOption prev (num, value)).length) := by
  rw [length_encodeOption] at hgap
  simp only [coapFormatOption, u16Sub_of_le hle hn, CoapValue.read, List.take_length] at hgap ⊢
  generalize hh : optionHeader (num - prev) value.length = header at hgap ⊢
  simp only [encodeOption, hh, List.length_append]
  have hsplit : gap = gap.take header.length ++ gap.drop header.length :=
    (List.take_append_drop _ _).symm
  have h1 : (gap.take header.length).length = header.length := by simp; omega
  have h2 : (gap.drop header.length).length = value.length := by simp; omega
  rw [hsplit]
  generalize gap.take header.length = g1 at h1
  generalize gap.drop header.length = g2 at h2
  have hw1 : splice (front ++ (g1 ++ g2) ++ rest) front.length header =
      (front ++ header) ++ g2 ++ rest := by
    have := splice_mid front g1 (g2 ++ rest) header h1
    simpa using this
  have hw2 := splice_mid (front ++ header) g2 rest value h2
  rw [List.length_append] at hw2
  rw [hw1, hw2]
  simp

/-- An option is written anew at its place, with a header that is not longer than before: what
follows the value is not said. -/
theorem format_shrinks {front rest value : List UInt8} {prev num old delta : Nat}
    (hle : prev ≤ num) (hn : num < 65536)
    (hold : (optionHeader (num - prev) value.length).length ≤
      (optionHeader old value.length).length) :
    ∃ gap, gap.length + (encodeOption prev (num, value)).length =
        (optionHeader old value.length).length + value.length ∧
      (coapFormatOption (front ++ (optionHeader old value.length ++ (value ++ rest)))
        (some front.length) prev ⟨delta, num, value.length,
          .inMessage (front.length + (optionHeader old value.length).length)⟩).2 =
        (front ++ encodeOption prev (num, value) ++ gap ++ rest,
          (encodeOption prev (num, value)).length) := by
  simp only [coapFormatOption, u16Sub_of_le hle hn, CoapValue.read]
  generalize hh : optionHeader (num - prev) value.length = header at hold ⊢
  simp only [encodeOption, hh, List.length_append]
  generalize optionHeader old value.length = h1 at hold ⊢
  have hsplit : h1 = h1.take header.length ++ h1.drop header.length :=
    (List.take_append_drop _ _).symm
  have e1 : (h1.take header.length).length = header.length := by simp; omega
  have e2 : (h1.drop header.length).length = h1.length - header.length := by simp
  generalize h1.take header.length = g1 at hsplit e1
  generalize h1.drop header.length = g2 at hsplit e2
  have hw1 : splice (front ++ (h1 ++ (value ++ rest))) front.length header =
      (front ++ header ++ g2) ++ value ++ rest := by
    have := splice_mid front g1 (g2 ++ (value ++ rest)) header e1
    rw [hsplit]
    simpa using this
  have hlen : front.length + h1.length = (front ++ header ++ g2).length := by
    simp; omega
  rw [hw1, hlen, block_eq]
  refine ⟨(g2 ++ value).drop value.length, by simp; omega, ?_⟩
  have hw2 := splice_mid (front ++ header) ((g2 ++ value).take value.length)
    ((g2 ++ value).drop value.length ++ rest) value (by simp)
  have hback : (front ++ header) ++ (g2 ++ value).take value.length ++
      ((g2 ++ value).drop value.length ++ rest) = front ++ header ++ g2 ++ value ++ rest := by
    rw [List.append_assoc, ← List.append_assoc (List.take _ _), List.take_append_drop]
    simp
  rw [hback, List.length_append] at hw2
  rw [hw2]
  simp

/-- An option whose value is already where it belongs gets its header. -/
theorem format_placed {front gap rest value : List UInt8} {prev num delta : Nat}
    (hle : prev ≤ num) (hn : num < 65536)
    (hgap : gap.length = (optionHeader (num - prev) value.length).length) :
    (coapFormatOption (front ++ (gap ++ (value ++ rest)))
      (some front.length) prev ⟨delta, num, value.length, .inMessage (front.length + gap.length)⟩).2 =
      (front ++ encodeOption prev (num, value) ++ rest, (encodeOption prev (num, value)).length) := by
  simp only [coapFormatOption, u16Sub_of_le hle hn, CoapValue.read]
  generalize hh : optionHeader (num - prev) value.length = header at hgap ⊢
  simp only [encodeOption, hh, List.length_append]
  have hw1 : splice (front ++ (gap ++ (value ++ rest))) front.length header =
      (front ++ header) ++ value ++ rest := by
    have := splice_mid front gap (value ++ rest) header hgap
    simpa using this
  have hlen : front.length + gap.length = (front ++ header).length := by simp; omega
  have hw2 := splice_mid (front ++ header) value rest value rfl
  rw [List.length_append] at hw2
  rw [hw1, hlen, block_eq, hw2]
  simp

theorem format_measure (buffer : List UInt8) {prev num delta : Nat} {value : List UInt8}
    (source : CoapValue) (hle : prev ≤ num) (hn : num < 65536) :
    (coapFormatOption buffer none prev ⟨delta, num, value.length, source⟩) =
      (⟨num - prev, num, value.length, source⟩, buffer, (encodeOption prev (num, value)).length) := by
  simp only [coapFormatOption, u16Sub_of_le hle hn, length_encodeOption]

/-! ## Well-formed messages -/

theorem coapParseMessageHeader_ge {p : List UInt8} {n : Nat}
    (h : coapParseMessageHeader p = .ok n) : sizeofCoapMessageHeader ≤ n := by
  unfold coapParseMessageHeader at h
  split_ifs at h
  cases h
  omega

theorem coapParseMessageHeader_front {front rest : List UInt8} :
    coapParseMessageHeader (front ++ rest) = .ok front.length ↔
      coapParseMessageHeader front = .ok front.length := by
  cases front with
  | nil =>
    constructor
    · intro h
      have := coapParseMessageHeader_ge h
      simp [sizeofCoapMessageHeader] at this
    · intro h
      cases h
  | cons b front =>
    simp only [coapParseMessageHeader, sizeofCoapMessageHeader, List.cons_append,
      List.getD_cons_zero, List.length_cons, List.length_append]
    split_ifs <;> simp <;> omega

/-- The header parses, the options decode, and the payload marker or the end follows. -/
structure WellFormed (message : CoapMessage) (header : List UInt8) (opts : List OptionPair)
    (tail : List UInt8) : Prop where
  size : message.buffer.length = COAP_MAX_MSG_SIZE
  fits : message.length ≤ COAP_MAX_MSG_SIZE
  parses : coapParseMessageHeader message.bytes = .ok header.length
  start : message.bytes.take header.length = header
  options : Decodes 0 (message.bytes.drop header.length) opts tail

/-- A buffer that holds an encoded message of size `n`. -/
structure Laid (buffer : List UInt8) (n : Nat) (header : List UInt8) (opts : List OptionPair)
    (tail junk : List UInt8) : Prop where
  eq : buffer = header ++ (encodeOptions 0 opts ++ tail) ++ junk
  length : n = (header ++ (encodeOptions 0 opts ++ tail)).length
  size : buffer.length = COAP_MAX_MSG_SIZE

theorem wellFormed_laid {message : CoapMessage} {header tail : List UInt8}
    {opts : List OptionPair} (h : WellFormed message header opts tail) :
    coapParseMessageHeader header = .ok header.length ∧ Ascending 0 opts ∧ EndsOptions tail ∧
      ∃ junk, Laid message.buffer message.length header opts tail junk := by
  obtain ⟨h1, h2, h3⟩ := h.options.encoded
  have hbytes : message.bytes = header ++ (encodeOptions 0 opts ++ tail) := by
    rw [← h1]
    conv_lhs => rw [← List.take_append_drop header.length message.bytes, h.start]
  have hparse := h.parses
  rw [hbytes, coapParseMessageHeader_front] at hparse
  refine ⟨hparse, h2, h3, message.buffer.drop message.length, ?_, ?_, h.size⟩
  · rw [← hbytes, CoapMessage.bytes, List.take_append_drop]
  · have hlen : message.bytes.length = message.length := by
      rw [CoapMessage.bytes, List.length_take, h.size]
      have := h.fits
      omega
    rw [← hbytes, hlen]

theorem laid_wellFormed {buffer header tail junk : List UInt8} {n : Nat} {opts : List OptionPair}
    (hp : coapParseMessageHeader header = .ok header.length) (ha : Ascending 0 opts)
    (ht : EndsOptions tail) (h : Laid buffer n header opts tail junk) :
    WellFormed ⟨buffer, n⟩ header opts tail := by
  have hbytes : (CoapMessage.mk buffer n).bytes = header ++ (encodeOptions 0 opts ++ tail) := by
    rw [CoapMessage.bytes, h.length, h.eq]
    exact List.take_left' rfl
  constructor
  · exact h.size
  · have := h.size
    rw [h.eq, List.length_append, ← h.length] at this
    simp only
    omega
  · rw [hbytes, coapParseMessageHeader_front]
    exact hp
  · rw [hbytes, List.take_left' rfl]
  · rw [hbytes, List.drop_left' rfl]
    exact decodes_encoded ha ht

/-! ## The operations -/

/-- The indexed occurrence of the number is replaced if it exists, and otherwise the pair goes
behind the last pair whose number is at most the given one. -/
inductive SetTo (num idx : Nat) (value : List UInt8) : List OptionPair → List OptionPair → Prop
  | replace {before after : List OptionPair} {w : List UInt8}
      (h : (occurrences num before).length = idx) :
      SetTo num idx value (before ++ (num, w) :: after) (before ++ (num, value) :: after)
  | insert {before after : List OptionPair}
      (h : (occurrences num (before ++ after)).length ≤ idx) (hb : ∀ o ∈ before, o.1 ≤ num)
      (ha : ∀ o ∈ after, num < o.1) :
      SetTo num idx value (before ++ after) (before ++ (num, value) :: after)

/-- The indexed occurrence of the number is taken out, if it exists. -/
inductive DeleteTo (num idx : Nat) : List OptionPair → List OptionPair → Prop
  | remove {before after : List OptionPair} {w : List UInt8}
      (h : (occurrences num before).length = idx) :
      DeleteTo num idx (before ++ (num, w) :: after) (before ++ after)
  | absent {opts : List OptionPair} (h : (occurrences num opts).length ≤ idx) :
      DeleteTo num idx opts opts

/-- The message with a block of options at the place the search stopped. -/
structure At (message : CoapMessage) (front block junk : List UInt8) : Prop where
  eq : message.buffer = front ++ block ++ junk
  length : message.length = (front ++ block).length
  size : message.buffer.length = COAP_MAX_MSG_SIZE

/-- What is found is taken out, and the rest closes up. -/
theorem At.removed {message : CoapMessage} {front old block junk : List UInt8} {s : OptionSearch}
    (h : At message front (old ++ block) junk) (hp : s.p = front.length) (hn : s.n = old.length)
    (hl : s.length = (old ++ block).length) :
    ∃ rest, rest.length = old.length + junk.length ∧ At (removeFound message s) front block rest := by
  obtain ⟨rest, h1, h2⟩ := move_down front old block junk
  have hsub : s.length - s.n = block.length := by rw [hl, hn, List.length_append]; omega
  have hbuf : (removeFound message s).buffer = front ++ block ++ rest := by
    rw [removeFound, hp, hsub, hn, h.eq, ← h2]
    simp
  refine ⟨rest, h1, hbuf, ?_, ?_⟩
  · rw [removeFound, h.length, hn]
    simp only [List.length_append]
    omega
  · have h3 := h.size
    rw [h.eq] at h3
    rw [hbuf]
    simp only [List.length_append] at h3 ⊢
    omega

/-- The new option is written before the block. -/
theorem At.inserted {message : CoapMessage} {front block junk : List UInt8} {prev num : Nat}
    {value : List UInt8} (h : At message front block junk) (hle : prev ≤ num) (hn : num < 65536)
    (hroom : message.length + (encodeOption prev (num, value)).length ≤ COAP_MAX_MSG_SIZE) :
    ∃ buffer rest, (coapFormatOption (move message.buffer
        (front.length + (encodeOption prev (num, value)).length) front.length block.length)
        (some front.length) prev ⟨num - prev, num, value.length, .given value⟩).2 =
        (buffer, (encodeOption prev (num, value)).length) ∧
      At ⟨buffer, message.length + (encodeOption prev (num, value)).length⟩
        (front ++ encodeOption prev (num, value)) block rest := by
  have hsize := h.size
  have hlen := h.length
  rw [h.eq, List.length_append, ← hlen] at hsize
  obtain ⟨gap, h1, h2⟩ := @move_up UInt8 front block junk
    (encodeOption prev (num, value)).length (by omega)
  have hf := @format_given front gap (block ++ junk.drop (encodeOption prev (num, value)).length)
    prev num (num - prev) value hle hn h1
  rw [h.eq, h2, List.append_assoc (front ++ gap), hf]
  refine ⟨_, junk.drop (encodeOption prev (num, value)).length, rfl, ?_, ?_, ?_⟩
  · simp
  · simp only [List.length_append] at hlen ⊢
    omega
  · simp only [List.length_append, List.length_drop] at hlen ⊢
    omega

theorem eq_of_snd {α β : Type*} {x : α × β} {b : β} (h : x.2 = b) : x = (x.1, b) :=
  Prod.ext rfl h

/-- The successor of an inserted option gets its smaller delta. -/
theorem At.fixInserted {message : CoapMessage} {front tail junk : List UInt8} {prev num : Nat}
    {o : OptionPair} {opts : List OptionPair}
    (h : At message front (encodeOptions prev (o :: opts) ++ tail) junk) (hle : prev ≤ num)
    (hlt : num < o.1) (ha : Ascending prev (o :: opts)) :
    ∃ message' rest, fixNextInserted message front.length
        (encodeOptions prev (o :: opts) ++ tail).length prev num = (.NO_ERROR, message') ∧
      At message' front (encodeOptions num (o :: opts) ++ tail) rest := by
  obtain ⟨h1, h2, h3, -⟩ := ha
  have hblock : ∀ k, encodeOptions k (o :: opts) ++ tail =
      encodeOption k o ++ (encodeOptions o.1 opts ++ tail) := by intro k; simp [encodeOptions]
  rw [hblock] at h ⊢
  rw [hblock]
  generalize encodeOptions o.1 opts ++ tail = block at h ⊢
  have hp := @parse_encoded message.buffer block front.length
    (encodeOption prev o ++ block).length prev o (by rw [h.eq, block_eq]) h1 h2 h3
  have hbuf : message.buffer =
      front ++ (optionHeader (o.1 - prev) o.2.length ++ (o.2 ++ (block ++ junk))) := by
    rw [h.eq, encodeOption]
    simp
  obtain ⟨gap, hg, hf⟩ := @format_shrinks front (block ++ junk) o.2 num o.1 (o.1 - prev)
    (o.1 - prev) (by omega) h2 (optionHeader_mono (by omega) _)
  simp only [Prod.mk.eta] at hg hf
  rw [← hbuf] at hf
  rw [← length_encodeOption] at hg
  have hlen := h.length
  have hsize := h.size
  rw [h.eq] at hsize
  simp only [List.length_append] at hlen hsize
  simp only [fixNextInserted, hp]
  rw [eq_of_snd hf]
  dsimp only
  by_cases hm : (encodeOption num o).length < (encodeOption prev o).length
  · rw [if_pos hm]
    obtain ⟨rest, hr1, hr2⟩ := move_down (front ++ encodeOption num o) gap block junk
    have hsub : (encodeOption prev o ++ block).length - (encodeOption prev o).length =
        block.length := by rw [List.length_append]; omega
    have hsrc : front.length + (encodeOption prev o).length =
        (front ++ encodeOption num o).length + gap.length := by rw [List.length_append]; omega
    rw [hsub, hsrc, ← List.length_append, ← List.append_assoc, hr2]
    refine ⟨_, rest, rfl, ?_, ?_, ?_⟩
    · simp
    · simp only [List.length_append]
      omega
    · simp only [List.length_append] at hr1 ⊢
      omega
  · rw [if_neg hm]
    have hgap : gap = [] := List.length_eq_zero_iff.mp (by omega)
    subst hgap
    refine ⟨_, junk, rfl, ?_, ?_, ?_⟩
    · simp
    · simp only [List.length_append, List.length_nil] at hg ⊢
      omega
    · simp only [List.length_append, List.length_nil] at hg ⊢
      omega

/-- The successor of an option that was taken out gets its larger delta. -/
theorem At.fixDeleted {message : CoapMessage} {front tail junk : List UInt8} {prev num : Nat}
    {o : OptionPair} {opts : List OptionPair}
    (h : At message front (encodeOptions num (o :: opts) ++ tail) junk) (hle : prev ≤ num)
    (ha : Ascending num (o :: opts))
    (hroom : (encodeOption prev o).length ≤ (encodeOption num o).length + junk.length) :
    ∃ message' rest, fixNextDeleted message front.length
        (encodeOptions num (o :: opts) ++ tail).length prev num = (.NO_ERROR, message') ∧
      At message' front (encodeOptions prev (o :: opts) ++ tail) rest := by
  obtain ⟨h1, h2, h3, -⟩ := ha
  have hblock : ∀ k, encodeOptions k (o :: opts) ++ tail =
      encodeOption k o ++ (encodeOptions o.1 opts ++ tail) := by intro k; simp [encodeOptions]
  rw [hblock] at h ⊢
  rw [hblock]
  generalize encodeOptions o.1 opts ++ tail = block at h ⊢
  have hp := @parse_encoded message.buffer block front.length
    (encodeOption num o ++ block).length num o (by rw [h.eq, block_eq]) h1 h2 h3
  have hmeasure := @format_measure message.buffer prev o.1 (o.1 - num) o.2
    (.inMessage (front.length + (optionHeader (o.1 - num) o.2.length).length)) (by omega) h2
  simp only [Prod.mk.eta] at hmeasure
  have hmono := optionHeader_mono (show o.1 - num ≤ o.1 - prev by omega) o.2.length
  have hlen := h.length
  have hsize := h.size
  rw [h.eq] at hsize
  simp only [List.length_append] at hlen hsize
  have el1 := length_encodeOption prev o
  have el2 := length_encodeOption num o
  simp only [fixNextDeleted, hp, hmeasure]
  by_cases hm : (encodeOption prev o).length > (encodeOption num o).length
  · rw [if_pos hm]
    obtain ⟨gap, hg1, hg2⟩ := @move_up UInt8 (front ++ optionHeader (o.1 - num) o.2.length)
      (o.2 ++ block) junk ((encodeOption prev o).length - (encodeOption num o).length) (by omega)
    have hdst : front.length + (encodeOption prev o).length - o.2.length =
        (front ++ optionHeader (o.1 - num) o.2.length).length +
          ((encodeOption prev o).length - (encodeOption num o).length) := by
      rw [List.length_append]; omega
    have hsrc : front.length + (encodeOption num o).length - o.2.length =
        (front ++ optionHeader (o.1 - num) o.2.length).length := by
      rw [List.length_append]; omega
    have hcount : (encodeOption num o ++ block).length + o.2.length -
        (encodeOption num o).length = (o.2 ++ block).length := by
      simp only [List.length_append]; omega
    have hbuf : message.buffer =
        front ++ optionHeader (o.1 - num) o.2.length ++ (o.2 ++ block) ++ junk := by
      rw [h.eq, encodeOption]
      simp
    have hvalue : front.length + (optionHeader (o.1 - num) o.2.length).length +
        ((encodeOption prev o).length - (encodeOption num o).length) =
        front.length + (optionHeader (o.1 - num) o.2.length ++ gap).length := by
      rw [List.length_append]; omega
    have hplaced := @format_placed front (optionHeader (o.1 - num) o.2.length ++ gap)
      (block ++ junk.drop ((encodeOption prev o).length - (encodeOption num o).length)) o.2 prev o.1
      (o.1 - prev) (by omega) h2 (by rw [List.length_append]; omega)
    simp only [Prod.mk.eta] at hplaced
    have hmoved : front ++ optionHeader (o.1 - num) o.2.length ++ gap ++ (o.2 ++ block) ++
        junk.drop ((encodeOption prev o).length - (encodeOption num o).length) =
        front ++ ((optionHeader (o.1 - num) o.2.length ++ gap) ++ (o.2 ++ (block ++
          junk.drop ((encodeOption prev o).length - (encodeOption num o).length)))) := by simp
    rw [hdst, hsrc, hcount, hbuf, hg2, hvalue, hmoved]
    rw [eq_of_snd hplaced]
    refine ⟨_, junk.drop ((encodeOption prev o).length - (encodeOption num o).length), rfl, ?_,
      ?_, ?_⟩
    · simp
    · simp only [List.length_append]
      omega
    · simp only [List.length_append, List.length_drop]
      omega
  · rw [if_neg hm]
    have hbuf : message.buffer =
        front ++ (optionHeader (o.1 - num) o.2.length ++ (o.2 ++ (block ++ junk))) := by
      rw [h.eq, encodeOption]
      simp
    obtain ⟨gap, hg, hf⟩ := @format_shrinks front (block ++ junk) o.2 prev o.1 (o.1 - num)
      (o.1 - prev) (by omega) h2 (by omega)
    simp only [Prod.mk.eta] at hg hf
    rw [← hbuf] at hf
    have hgap : gap = [] := List.length_eq_zero_iff.mp (by omega)
    subst hgap
    rw [eq_of_snd hf]
    refine ⟨_, junk, rfl, ?_, ?_, ?_⟩
    · simp
    · simp only [List.length_append]
      omega
    · simp only [List.length_append, List.length_nil]
      omega

theorem At.wellFormed {message : CoapMessage} {front block junk header tail : List UInt8}
    {opts : List OptionPair} (h : At message front block junk)
    (heq : front ++ block = header ++ (encodeOptions 0 opts ++ tail))
    (hp : coapParseMessageHeader header = .ok header.length) (ha : Ascending 0 opts)
    (ht : EndsOptions tail) : WellFormed message header opts tail :=
  laid_wellFormed hp ha ht ⟨by rw [h.eq, heq], by rw [h.length, heq], h.size⟩

theorem lastNumber_le {prev num : Nat} {before : List OptionPair} (hp : prev ≤ num)
    (h : ∀ o ∈ before, o.1 ≤ num) : lastNumber prev before ≤ num := by
  induction before generalizing prev with
  | nil => exact hp
  | cons o before ih =>
    exact ih (h o List.mem_cons_self) fun x hx => h x (List.mem_cons_of_mem o hx)

/-- The search in a well-formed message. -/
theorem WellFormed.located {message : CoapMessage} {header tail : List UInt8}
    {opts : List OptionPair} (h : WellFormed message header opts tail) (num idx : Nat) :
    ∃ before after s junk, opts = before ++ after ∧
      searchOption message.buffer num idx message.length header.length
        (message.length - header.length) 0 0 = .ok s ∧
      Located 0 tail num idx 0 header.length before after s ∧
      At message (header ++ encodeOptions 0 before)
        (encodeOptions (lastNumber 0 before) after ++ tail) junk := by
  obtain ⟨-, ha, ht, junk, hl⟩ := wellFormed_laid h
  have hlen := hl.length
  rw [List.length_append] at hlen
  obtain ⟨before, after, s, h1, h2, h3⟩ := @searchOption_located message.buffer tail junk num idx ht
    opts message.length 0 0 header ha (Nat.zero_le _) hl.eq (by omega)
  have hsub : message.length - header.length = (encodeOptions 0 opts ++ tail).length := by omega
  refine ⟨before, after, s, junk, h1, by rw [hsub]; exact h2, h3, ?_, ?_, hl.size⟩
  · rw [hl.eq, h1, encodeOptions_append]
    simp
  · rw [hl.length, h1, encodeOptions_append]
    simp

/-- What `insertOption` does when no occurrence was found. -/
theorem insertOption_new {message message' : CoapMessage} {s : OptionSearch}
    {front junk tail value : List UInt8} {prev num : Nat} {after : List OptionPair}
    (h : At message front (encodeOptions prev after ++ tail) junk) (ht : EndsOptions tail)
    (hf : s.found = false) (hsp : s.p = front.length) (hprev : s.prevOptionNum = prev)
    (hsl : s.length = (encodeOptions prev after ++ tail).length) (hle : prev ≤ num)
    (hn : num < 65536) (ha : Ascending prev after) (hlt : ∀ o ∈ after, num < o.1)
    (hset : insertOption message s num value = (.NO_ERROR, message')) :
    value.length < FIELD_END ∧ ∃ rest, At message' (front ++ encodeOption prev (num, value))
      (encodeOptions num after ++ tail) rest := by
  simp only [insertOption, hf, Bool.false_eq_true, if_false, hsp, hprev, hsl,
    format_measure message.buffer (.given value) hle hn] at hset
  by_cases hroom : message.length + (encodeOption prev (num, value)).length > COAP_MAX_MSG_SIZE
  · rw [if_pos hroom] at hset
    cases hset
  rw [if_neg hroom] at hset
  have hfits : value.length < FIELD_END := by
    have h1 := length_encodeOption prev (num, value)
    unfold FIELD_END COAP_OPT_MINUS_16_BITS
    unfold COAP_MAX_MSG_SIZE at hroom
    simp only at h1
    omega
  refine ⟨hfits, ?_⟩
  obtain ⟨buffer, rest, hw, hat⟩ := h.inserted hle hn (by omega : message.length +
    (encodeOption prev (num, value)).length ≤ COAP_MAX_MSG_SIZE)
  rw [eq_of_snd hw] at hset
  dsimp only at hset
  have hgo := goesOn_iff (front ++ encodeOption prev (num, value))
    (encodeOptions prev after ++ tail) rest
  have hbuf := hat.eq
  simp only at hbuf
  have hplace : (front ++ encodeOption prev (num, value)).length =
      front.length + (encodeOption prev (num, value)).length := List.length_append
  rw [← hbuf, hplace] at hgo
  cases after with
  | nil =>
    rw [if_neg (fun hc => (hgo.mp ⟨hc.1, hc.2.1⟩) ht)] at hset
    cases hset
    exact ⟨rest, hat⟩
  | cons o after =>
    have hgo' := hgo.mpr (by
      simp only [encodeOptions, List.append_assoc]
      exact not_endsOptions_encoded prev o _)
    rw [if_pos ⟨hgo'.1, hgo'.2, trivial⟩, ← hplace] at hset
    obtain ⟨message'', rest', h1, h2⟩ := hat.fixInserted hle (hlt o List.mem_cons_self) ha
    rw [h1] at hset
    cases hset
    exact ⟨rest', h2⟩

/-- What `insertOption` does with the occurrence that was found. -/
theorem insertOption_found {message message' : CoapMessage} {s : OptionSearch}
    {front junk tail value w : List UInt8} {prev num : Nat} {after : List OptionPair}
    (h : At message front (encodeOptions prev ((num, w) :: after) ++ tail) junk)
    (hf : s.found = true) (hsp : s.p = front.length) (hprev : s.prevOptionNum = prev)
    (hsn : s.n = (encodeOption prev (num, w)).length)
    (hsl : s.length = (encodeOptions prev ((num, w) :: after) ++ tail).length) (hle : prev ≤ num)
    (hn : num < 65536) (hset : insertOption message s num value = (.NO_ERROR, message')) :
    value.length < FIELD_END ∧ ∃ rest, At message' (front ++ encodeOption prev (num, value))
      (encodeOptions num after ++ tail) rest := by
  have hblock : encodeOptions prev ((num, w) :: after) ++ tail =
      encodeOption prev (num, w) ++ (encodeOptions num after ++ tail) := by simp [encodeOptions]
  rw [hblock] at h hsl
  obtain ⟨junk', -, hat⟩ := h.removed hsp hsn hsl
  have hsub : s.length - s.n = (encodeOptions num after ++ tail).length := by
    rw [hsl, hsn, List.length_append]; omega
  simp only [insertOption, hf, if_true, hsp, hprev, hsub, Bool.true_eq_false, and_false, if_false,
    format_measure (removeFound message s).buffer (.given value) hle hn] at hset
  by_cases hroom : (removeFound message s).length + (encodeOption prev (num, value)).length >
      COAP_MAX_MSG_SIZE
  · rw [if_pos hroom] at hset
    cases hset
  rw [if_neg hroom] at hset
  have hfits : value.length < FIELD_END := by
    have h1 := length_encodeOption prev (num, value)
    unfold FIELD_END COAP_OPT_MINUS_16_BITS
    unfold COAP_MAX_MSG_SIZE at hroom
    simp only at h1
    omega
  refine ⟨hfits, ?_⟩
  obtain ⟨buffer, rest, hw, hat'⟩ := hat.inserted hle hn (by omega :
    (removeFound message s).length + (encodeOption prev (num, value)).length ≤ COAP_MAX_MSG_SIZE)
  rw [eq_of_snd hw] at hset
  cases hset
  exact ⟨rest, hat'⟩

theorem coapSetOption_to {message message' : CoapMessage} {header tail value : List UInt8}
    {opts : List OptionPair} {optionNum : BitVec 16} {idx : Nat}
    (h : WellFormed message header opts tail)
    (hset : coapSetOption message optionNum idx value = (.NO_ERROR, message')) :
    ∃ opts', SetTo optionNum.toNat idx value opts opts' ∧ WellFormed message' header opts' tail := by
  have hn := optionNum.isLt
  generalize hnum : optionNum.toNat = num at hn
  obtain ⟨hp, ha, ht, -⟩ := wellFormed_laid h
  obtain ⟨before, after, s, junk, rfl, hs, hloc, hat⟩ := h.located num idx
  obtain ⟨hb, ha⟩ := ascending_append.mp ha
  have hle := lastNumber_le (Nat.zero_le num) hloc.le
  have hsp : s.p = (header ++ encodeOptions 0 before).length := by
    rw [hloc.p, List.length_append]
  unfold coapSetOption at hset
  rw [h.parses] at hset
  dsimp only at hset
  rw [hnum, hs] at hset
  dsimp only at hset
  cases hf : s.found with
  | false =>
    obtain ⟨hocc, hlt⟩ := hloc.absent hf
    obtain ⟨hv, rest, hat'⟩ := insertOption_new hat ht hf hsp hloc.prevOptionNum hloc.length hle hn
      ha hlt hset
    refine ⟨before ++ (num, value) :: after, .insert ?_ hloc.le hlt, hat'.wellFormed ?_ hp ?_ ht⟩
    · rw [occurrences_append, occurrences_eq_nil hlt, List.append_nil]
      omega
    · simp [encodeOptions_append, encodeOptions]
    · refine ascending_append.mpr ⟨hb, hle, hn, hv, ?_⟩
      cases after with
      | nil => trivial
      | cons o after => exact ⟨le_of_lt (hlt o List.mem_cons_self), ha.2⟩
  | true =>
    obtain ⟨hocc, w, rest, rfl, hsn⟩ := hloc.found hf
    obtain ⟨hv, rest', hat'⟩ := insertOption_found hat hf hsp hloc.prevOptionNum hsn hloc.length hle
      hn hset
    refine ⟨before ++ (num, value) :: rest, .replace (by omega), hat'.wellFormed ?_ hp ?_ ht⟩
    · simp [encodeOptions_append, encodeOptions]
    · exact ascending_append.mpr ⟨hb, hle, hn, hv, ha.2.2.2⟩

theorem coapDeleteOption_to {message : CoapMessage} {header tail : List UInt8}
    {opts : List OptionPair} (optionNum : BitVec 16) (idx : Nat)
    (h : WellFormed message header opts tail) :
    ∃ message' opts', coapDeleteOption message optionNum idx = (.NO_ERROR, message') ∧
      DeleteTo optionNum.toNat idx opts opts' ∧ WellFormed message' header opts' tail ∧
      message'.length ≤ message.length := by
  generalize hnum : optionNum.toNat = num
  obtain ⟨hp, ha, ht, -⟩ := wellFormed_laid h
  obtain ⟨before, after, s, junk, rfl, hs, hloc, hat⟩ := h.located num idx
  obtain ⟨hb, ha⟩ := ascending_append.mp ha
  have hsp : s.p = (header ++ encodeOptions 0 before).length := by
    rw [hloc.p, List.length_append]
  unfold coapDeleteOption
  rw [h.parses]
  dsimp only
  rw [hnum, hs]
  dsimp only
  cases hf : s.found with
  | false =>
    obtain ⟨hocc, hlt⟩ := hloc.absent hf
    refine ⟨message, before ++ after, by simp [deleteFound, hf], .absent ?_, h, le_rfl⟩
    rw [occurrences_append, occurrences_eq_nil hlt, List.append_nil]
    omega
  | true =>
    obtain ⟨hocc, w, rest, rfl, hsn⟩ := hloc.found hf
    obtain ⟨hle, hn, -, ha'⟩ := ha
    have hsl := hloc.length
    have hprev := hloc.prevOptionNum
    generalize hlast : lastNumber 0 before = prev at *
    have hblock : encodeOptions prev ((num, w) :: rest) ++ tail =
        encodeOption prev (num, w) ++ (encodeOptions num rest ++ tail) := by simp [encodeOptions]
    rw [hblock] at hat hsl
    obtain ⟨junk', hj, hrm⟩ := hat.removed hsp hsn hsl
    have hsub : s.length - s.n = (encodeOptions num rest ++ tail).length := by
      rw [hsl, hsn, List.length_append]; omega
    have hgo := goesOn_iff (header ++ encodeOptions 0 before) (encodeOptions num rest ++ tail) junk'
    rw [← hrm.eq] at hgo
    have hlen := hat.length
    simp only [List.length_append] at hlen
    simp only [deleteFound, hf, if_true, hsub, hsp, hprev]
    cases rest with
    | nil =>
      have hstop := fun hc => (hgo.mp hc) ht
      rw [if_neg hstop]
      refine ⟨_, before, rfl, ?_, hrm.wellFormed ?_ hp hb ht, ?_⟩
      · have := @DeleteTo.remove num idx before [] w (by omega)
        rwa [List.append_nil] at this
      · simp [encodeOptions]
      · rw [removeFound]
        exact Nat.sub_le _ _
    | cons o rest =>
      have hgo' := hgo.mpr (by
        simp only [encodeOptions, List.append_assoc]
        exact not_endsOptions_encoded num o _)
      rw [if_pos hgo']
      have hno : num ≤ o.1 := ha'.1
      -- The bytes of the option that was taken out are enough for the larger delta.
      have hadd := optionHeader_add (num - prev) (o.1 - num) w.length o.2.length
      rw [show num - prev + (o.1 - num) = o.1 - prev by omega] at hadd
      have e1 := length_encodeOption prev (num, w)
      have e2 := length_encodeOption prev o
      have e3 := length_encodeOption num o
      simp only at e1
      obtain ⟨message', rest', h1, h2⟩ := hrm.fixDeleted hle ha' (by omega)
      rw [h1]
      refine ⟨message', before ++ o :: rest, rfl, .remove (by omega), h2.wellFormed ?_ hp ?_ ht, ?_⟩
      · rw [encodeOptions_append, hlast]
        simp
      · exact ascending_append.mpr ⟨hb, by rw [hlast]; exact ⟨le_trans hle hno, ha'.2⟩⟩
      · have hlen' := h2.length
        simp only [List.length_append, encodeOptions] at hlen' hlen
        omega

/-! ## Reading -/

theorem getLoop_eq {buffer tail junk : List UInt8} {num idx : Nat} (ht : EndsOptions tail)
    {opts : List OptionPair} :
    ∀ {fuel prev index : Nat} {front : List UInt8}, Ascending prev opts → index ≤ idx →
      buffer = front ++ (encodeOptions prev opts ++ tail) ++ junk →
      (encodeOptions prev opts ++ tail).length ≤ fuel →
      ((occurrences num opts)[idx - index]? = none →
        getLoop buffer num idx fuel front.length (encodeOptions prev opts ++ tail).length prev
          index = .error .NOT_FOUND) ∧
      ∀ w, (occurrences num opts)[idx - index]? = some w →
        ∃ value, getLoop buffer num idx fuel front.length
          (encodeOptions prev opts ++ tail).length prev index = .ok (value, w.length) ∧
          value.read buffer w.length = w := by
  induction opts with
  | nil =>
    intro fuel prev index front ha hi hb hf
    refine ⟨fun _ => ?_, fun w hw => by simp at hw⟩
    cases fuel with
    | zero => rfl
    | succ fuel =>
      rw [getLoop]
      exact if_pos (turn_ends hb ht)
  | cons o opts ih =>
    intro fuel prev index front ha hi hb hf
    obtain ⟨h1, h2, h3, h4⟩ := ha
    have hblock : encodeOptions prev (o :: opts) ++ tail =
        encodeOption prev o ++ (encodeOptions o.1 opts ++ tail) := by simp [encodeOptions]
    rw [hblock] at hb hf ⊢
    have hpos := length_encodeOption_pos prev o
    cases fuel with
    | zero => rw [List.length_append] at hf; omega
    | succ fuel =>
      obtain ⟨hgo, hp, hsub, hadd, hnext⟩ := turn_option hb h1 h2 h3
      have hfuel : (encodeOptions o.1 opts ++ tail).length ≤ fuel := by
        rw [List.length_append] at hf; omega
      rw [getLoop, if_neg hgo, hp]
      simp only [bind, Except.bind, hsub, hadd]
      by_cases heq : o.1 = num
      · obtain ⟨k, w⟩ := o
        simp only at heq
        subst heq
        rw [occurrences_cons_self]
        by_cases hidx : index = idx
        · subst hidx
          refine ⟨fun hn => by simp at hn, fun v hv => ?_⟩
          simp only [Nat.sub_self, List.getElem?_cons_zero, Option.some.injEq] at hv
          subst hv
          simp only [if_true]
          refine ⟨_, rfl, ?_⟩
          rw [CoapValue.read, hb, encodeOption]
          simp only [List.append_assoc]
          rw [← List.append_assoc, ← List.length_append, List.drop_left' rfl, List.take_left' rfl]
        · have hrec := ih h4 (by omega : index + 1 ≤ idx) hnext hfuel
          rw [show idx - index = idx - (index + 1) + 1 by omega, List.getElem?_cons_succ]
          simp only [if_true, if_neg hidx]
          exact hrec
      · have hrec := ih h4 hi hnext hfuel
        rw [occurrences_cons_ne heq]
        simp only [if_neg heq]
        exact hrec

theorem coapGetOption_eq {message : CoapMessage} {header tail : List UInt8}
    {opts : List OptionPair} (optionNum : BitVec 16) (idx : Nat)
    (h : WellFormed message header opts tail) :
    ((occurrences optionNum.toNat opts)[idx]? = none →
      coapGetOption message optionNum idx = .error .NOT_FOUND) ∧
    ∀ w, (occurrences optionNum.toNat opts)[idx]? = some w →
      ∃ value, coapGetOption message optionNum idx = .ok (value, w.length) ∧
        value.read message.buffer w.length = w := by
  obtain ⟨-, ha, ht, junk, hl⟩ := wellFormed_laid h
  have hlen := hl.length
  rw [List.length_append] at hlen
  have hsub : message.length - header.length = (encodeOptions 0 opts ++ tail).length := by omega
  have hget := @getLoop_eq message.buffer tail junk optionNum.toNat idx ht opts message.length 0 0
    header ha (Nat.zero_le _) hl.eq (by omega)
  simpa [coapGetOption, h.parses, hsub, bind, Except.bind] using hget

/-- `coapParseOptions` reads the options of a well-formed message, and nothing behind them. -/
theorem coapParseOptions_eq {buffer tail junk : List UInt8} (ht : EndsOptions tail)
    {opts : List OptionPair} :
    ∀ {fuel prev : Nat} {front : List UInt8}, Ascending prev opts →
      buffer = front ++ (encodeOptions prev opts ++ tail) ++ junk →
      (encodeOptions prev opts ++ tail).length ≤ fuel →
      coapParseOptions buffer fuel front.length (encodeOptions prev opts ++ tail).length prev =
        .ok (encodeOptions prev opts).length := by
  induction opts with
  | nil =>
    intro fuel prev front ha hb hf
    cases fuel with
    | zero => rfl
    | succ fuel =>
      rw [coapParseOptions]
      exact if_pos (turn_ends hb ht)
  | cons o opts ih =>
    intro fuel prev front ha hb hf
    obtain ⟨h1, h2, h3, h4⟩ := ha
    have hblock : encodeOptions prev (o :: opts) ++ tail =
        encodeOption prev o ++ (encodeOptions o.1 opts ++ tail) := by simp [encodeOptions]
    rw [hblock] at hb hf ⊢
    have hpos := length_encodeOption_pos prev o
    cases fuel with
    | zero => rw [List.length_append] at hf; omega
    | succ fuel =>
      obtain ⟨hgo, hp, hsub, hadd, hnext⟩ := turn_option hb h1 h2 h3
      rw [coapParseOptions, if_neg hgo, hp]
      simp only [bind, Except.bind, hsub, hadd]
      rw [ih h4 hnext (by rw [List.length_append] at hf; omega), encodeOptions, List.length_append]

/-- A well-formed message decodes in one way. -/
theorem Decodes.unique {prev : Nat} {bytes tail tail' : List UInt8} {opts opts' : List OptionPair}
    (h : Decodes prev bytes opts tail) (h' : Decodes prev bytes opts' tail') :
    opts = opts' ∧ tail = tail' := by
  induction h generalizing opts' tail' with
  | done he =>
    cases h' with
    | done _ => exact ⟨rfl, rfl⟩
    | option hm _ _ _ => exact absurd he hm
  | option hm hp hn ho ih =>
    cases h' with
    | done he => exact absurd he hm
    | option _ hp' _ ho' =>
      rw [hp] at hp'
      cases hp'
      obtain ⟨rfl, rfl⟩ := ih ho'
      exact ⟨rfl, rfl⟩

/-- A well-formed message is its header, an ascending list of options and the rest: setting,
deleting and reading an option are operations on the list, and header and rest stay. -/
theorem options_kept {message : CoapMessage} {header tail : List UInt8} {opts : List OptionPair}
    (h : WellFormed message header opts tail) (optionNum : BitVec 16) (optionIndex : Nat) :
    (∀ value message',
      coapSetOption message optionNum optionIndex value = (.NO_ERROR, message') →
      ∃ opts', SetTo optionNum.toNat optionIndex value opts opts' ∧
        WellFormed message' header opts' tail) ∧
    (∀ message', coapDeleteOption message optionNum optionIndex = (.NO_ERROR, message') →
      ∃ opts', DeleteTo optionNum.toNat optionIndex opts opts' ∧
        WellFormed message' header opts' tail ∧ message'.length ≤ message.length) ∧
    ((occurrences optionNum.toNat opts)[optionIndex]? = none →
      coapGetOption message optionNum optionIndex = .error .NOT_FOUND) ∧
    ∀ w, (occurrences optionNum.toNat opts)[optionIndex]? = some w →
      ∃ value, coapGetOption message optionNum optionIndex = .ok (value, w.length) ∧
        value.read message.buffer w.length = w := by
  refine ⟨fun value message' hset => coapSetOption_to h hset, fun message' hdel => ?_,
    coapGetOption_eq optionNum optionIndex h⟩
  obtain ⟨message'', opts', h1, h2, h3, h4⟩ := coapDeleteOption_to optionNum optionIndex h
  rw [h1] at hdel
  cases hdel
  exact ⟨opts', h2, h3, h4⟩

/-- A request with one Uri-Path option, `a`. -/
def uriPathMessage : CoapMessage where
  buffer := [0x40, 1, 0, 1, 0xB1, 97] ++ List.replicate 1146 0
  length := 6

theorem uriPathMessage_wellFormed :
    WellFormed uriPathMessage [0x40, 1, 0, 1] [(11, [97])] [] where
  size := by
    rw [uriPathMessage, List.length_append, List.length_replicate]
    rfl
  fits := by decide
  parses := rfl
  start := rfl
  options := @decodes_encoded 0 [(11, [97])] []
    ⟨by decide, by decide, by decide, trivial⟩ (.inl rfl)

/-- The path gets a second part. -/
theorem options_kept_uriPath :
    (∃ opts', SetTo 11 1 [98] [(11, [97])] opts' ∧
      WellFormed (coapSetOption uriPathMessage 11 1 [98]).2 [0x40, 1, 0, 1] opts' []) ∧
    coapGetOption uriPathMessage 11 1 = .error .NOT_FOUND := by
  have h := options_kept uriPathMessage_wellFormed 11 1
  exact ⟨h.1 [98] _ (Prod.ext (by decide +kernel) rfl), h.2.2.1 rfl⟩

end Cyclone
