import Cyclone.Lib.Ring
import Cyclone.Options

/-!
# Cyclone.OptionBytes

The options that `tcpAddOption` writes, as `tcpGetOption` finds them again. The bytes behind the
data offset may be anything: `addOption` is the function on such a header.

* `laid`: the options field behind a sequence of calls.
* `options_round_trip`: every option added is found, and no other.
-/

namespace Cyclone

open Ring

/-- `tcpAddOption`, on the bytes `segment->options` has room for. A value has at most 253 bytes:
`length` is a byte. -/
def addOption (segment : TcpHeader) (kind : UInt8) (value : List UInt8) : TcpHeader × Error :=
  let length := value.length + 2
  if segment.dataOffset * 4 + length > TCP_MAX_HEADER_LENGTH then (segment, .FAILURE)
  else
    let i := segment.dataOffset * 4 - sizeofTcpHeader
    let paddingSize := if length % 4 ≠ 0 then 4 - length % 4 else 0
    let options := splice segment.options i (List.replicate paddingSize TCP_OPTION_NOP)
    let i := i + paddingSize
    let options := splice options i ([kind, UInt8.ofNat length] ++ value)
    let i := i + length
    ({ segment with options, dataOffset := (sizeofTcpHeader + i) / 4 }, .NO_ERROR)

/-- The calls one after the other, and those that have added their option. -/
def addOptions (segment : TcpHeader) :
    List (UInt8 × List UInt8) → TcpHeader × List (UInt8 × List UInt8)
  | [] => (segment, [])
  | (kind, value) :: calls =>
    let (segment, error) := addOption segment kind value
    let (last, added) := addOptions segment calls
    (last, if error = .NO_ERROR then (kind, value) :: added else added)

/-! ## The options field -/

/-- The bytes written for one option: it ends on a word boundary. -/
def laidOption (o : UInt8 × List UInt8) : List UInt8 :=
  let length := o.2.length + 2
  List.replicate (if length % 4 ≠ 0 then 4 - length % 4 else 0) TCP_OPTION_NOP ++
    ([o.1, UInt8.ofNat length] ++ o.2)

def laid (added : List (UInt8 × List UInt8)) : List UInt8 := added.flatMap laidOption

theorem laidOption_length (kind : UInt8) (value : List UInt8) :
    (laidOption (kind, value)).length = value.length + 2 +
      if (value.length + 2) % 4 ≠ 0 then 4 - (value.length + 2) % 4 else 0 := by
  simp only [laidOption, List.length_append, List.length_replicate, List.length_cons,
    List.length_nil]
  omega

theorem laid_snoc (added : List (UInt8 × List UInt8)) (o : UInt8 × List UInt8) :
    laid (added ++ [o]) = laid added ++ laidOption o := by
  simp [laid]

theorem splice_front (front rest ys : List UInt8) :
    splice (front ++ rest) front.length ys = front ++ ys ++ rest.drop ys.length := by
  rw [splice, List.take_left, List.drop_append, List.drop_of_length_le (by omega),
    Nat.add_sub_cancel_left, List.nil_append]

/-- What a call does behind the options that are there: nothing, or the option is laid down. -/
theorem addOption_cases {segment : TcpHeader} (kind : UInt8) (value : List UInt8)
    {front rest : List UInt8} (hoffset : segment.dataOffset * 4 = sizeofTcpHeader + front.length)
    (hoptions : segment.options = front ++ rest) :
    addOption segment kind value = (segment, .FAILURE) ∨
      segment.dataOffset * 4 + (value.length + 2) ≤ TCP_MAX_HEADER_LENGTH ∧
        addOption segment kind value =
          ({ segment with
              options := front ++ laidOption (kind, value) ++
                rest.drop (laidOption (kind, value)).length
              dataOffset := (sizeofTcpHeader + front.length +
                (laidOption (kind, value)).length) / 4 }, .NO_ERROR) := by
  by_cases h : segment.dataOffset * 4 + (value.length + 2) > TCP_MAX_HEADER_LENGTH
  · exact .inl (if_pos h)
  refine .inr ⟨by omega, ?_⟩
  have hi : segment.dataOffset * 4 - sizeofTcpHeader = front.length := by omega
  have hlen := laidOption_length kind value
  unfold addOption
  simp only [if_neg h, hi, hoptions]
  generalize hp : (if (value.length + 2) % 4 ≠ 0 then 4 - (value.length + 2) % 4 else 0) = p at *
  have hlaid : laidOption (kind, value) = List.replicate p TCP_OPTION_NOP ++
      ([kind, UInt8.ofNat (value.length + 2)] ++ value) := by rw [laidOption, hp]
  have hfront : front.length + p = (front ++ List.replicate p TCP_OPTION_NOP).length := by simp
  rw [splice_front, hfront, splice_front, hlen, hlaid, List.length_replicate, List.drop_drop]
  congr 2
  · simp only [List.length_append, List.length_replicate]
    congr 1
    omega
  · simp [Nat.add_comm, Nat.add_left_comm]

/-- A header whose options end at the data offset is one for `tcpAddOption` too. -/
theorem addOption_eq (segment : TcpHeader) (kind : UInt8) (value : List UInt8)
    (h : segment.dataOffset * 4 = sizeofTcpHeader + segment.options.length) :
    addOption segment kind value = tcpAddOption segment kind value := by
  have hi : segment.dataOffset * 4 - sizeofTcpHeader = segment.options.length := by omega
  have hsplice (xs ys : List UInt8) : splice xs xs.length ys = xs ++ ys := by
    simpa using splice_front xs [] ys
  simp only [addOption, tcpAddOption, hi]
  split
  · rfl
  · generalize (if (value.length + 2) % 4 ≠ 0 then 4 - (value.length + 2) % 4 else 0) = p
    have hfront : segment.options.length + p =
        (segment.options ++ List.replicate p TCP_OPTION_NOP).length := by simp
    rw [hsplice, hfront, hsplice]
    simp [Nat.add_assoc]

/-- The options written so far stand in front of the data offset. -/
structure Written (segment : TcpHeader) (added : List (UInt8 × List UInt8)) : Prop where
  offset : segment.dataOffset * 4 = sizeofTcpHeader + (laid added).length
  most : segment.dataOffset ≤ 15
  options : ∃ rest, segment.options = laid added ++ rest

theorem written_start {segment : TcpHeader} (h : segment.dataOffset = 5) : Written segment [] :=
  ⟨by simp [h, laid, sizeofTcpHeader], by omega, segment.options, by simp [laid]⟩

/-- A call adds one option to those written, or nothing. -/
theorem Written.step {segment : TcpHeader} {added : List (UInt8 × List UInt8)}
    (h : Written segment added) (kind : UInt8) (value : List UInt8) :
    addOption segment kind value = (segment, .FAILURE) ∨
      value.length ≤ 38 ∧ (addOption segment kind value).2 = .NO_ERROR ∧
        Written (addOption segment kind value).1 (added ++ [(kind, value)]) := by
  obtain ⟨rest, hoptions⟩ := h.options
  refine (addOption_cases kind value h.offset hoptions).imp_right ?_
  rintro ⟨hroom, heq⟩
  have hoffset := h.offset
  have hlen := laidOption_length kind value
  simp only [sizeofTcpHeader, TCP_MAX_HEADER_LENGTH] at hoffset hroom
  rw [heq]
  refine ⟨by omega, rfl, ?_, ?_, rest.drop (laidOption (kind, value)).length, ?_⟩
  · simp only [laid_snoc, List.length_append, sizeofTcpHeader]
    split at hlen <;> omega
  · simp only [sizeofTcpHeader]
    split at hlen <;> omega
  · rw [laid_snoc]

/-! ## Reading -/

section Read

variable {kind : UInt8} {length : Nat}

/-- The loop passes the padding. -/
theorem loop_padding (front back : List UInt8) (p fuel : Nat) (hlen : front.length + p ≤ length) :
    tcpOptionLoop (front ++ List.replicate p TCP_OPTION_NOP ++ back) length kind (p + fuel)
        front.length =
      tcpOptionLoop (front ++ List.replicate p TCP_OPTION_NOP ++ back) length kind fuel
        (front.length + p) := by
  induction p generalizing front with
  | zero => rw [Nat.zero_add, Nat.add_zero]
  | succ p ih =>
    have hnext : optionTurn (front ++ List.replicate (p + 1) TCP_OPTION_NOP ++ back) length kind
        front.length = .next (front.length + 1) := by
      simp [optionTurn, List.replicate_succ]
      omega
    have hmove : front ++ List.replicate (p + 1) TCP_OPTION_NOP ++ back =
        front ++ [TCP_OPTION_NOP] ++ List.replicate p TCP_OPTION_NOP ++ back := by
      simp [List.replicate_succ]
    have := ih (front ++ [TCP_OPTION_NOP]) (by simp; omega)
    rw [List.length_append, List.length_singleton] at this
    rw [Nat.succ_add, tcpOptionLoop, hnext]
    rw [hmove]
    simp only
    rw [this, Nat.add_assoc, Nat.add_comm 1 p]

/-- The kinds and lengths `tcpGetOption` can tell from padding. -/
def Plain (o : UInt8 × List UInt8) : Prop :=
  o.1 ≠ TCP_OPTION_NOP ∧ o.1 ≠ TCP_OPTION_END ∧ o.2.length ≤ 38

/-- The option `tcpGetOption` returns for an option added. -/
def asRead (o : UInt8 × List UInt8) : Nat × List UInt8 := (o.2.length + 2, o.2)

/-- What the loop sees where an option stands. -/
theorem turn_laid (front back : List UInt8) {o : UInt8 × List UInt8} (plain : Plain o)
    (hlen : front.length + (o.2.length + 2) ≤ length) :
    optionTurn (front ++ ([o.1, UInt8.ofNat (o.2.length + 2)] ++ o.2) ++ back) length kind
        front.length =
      (if o.1 = kind then .found else .next (front.length + (o.2.length + 2))) ∧
    optionAt (front ++ ([o.1, UInt8.ofNat (o.2.length + 2)] ++ o.2) ++ back) front.length =
      asRead o := by
  obtain ⟨hnop, hend, hshort⟩ := plain
  generalize hopts : front ++ ([o.1, UInt8.ofNat (o.2.length + 2)] ++ o.2) ++ back = options
  have hkind : options.getD front.length 0 = o.1 := by simp [← hopts]
  have hbyte : options.getD (front.length + 1) 0 = UInt8.ofNat (o.2.length + 2) := by
    simp [← hopts]
  have hcount : optionLength options front.length = o.2.length + 2 := by
    rw [optionLength, hbyte, UInt8.toNat_ofNat']
    omega
  constructor
  · rw [optionTurn, if_pos (by omega)]
    simp only [hkind, hcount]
    rw [if_neg hnop, if_neg hend, if_neg (by omega)]
  · have hdrop : options.drop (front.length + 2) = o.2 ++ back := by
      rw [← hopts, List.append_assoc, ← List.drop_drop, List.drop_left]
      rfl
    rw [optionAt, hcount, hdrop, asRead, Nat.add_sub_cancel, List.take_left]

/-- Induction on the options still to be read: the loop ends with the first one of the kind. -/
theorem loop_laid (front rest : List UInt8) (added : List (UInt8 × List UInt8))
    (plain : ∀ o ∈ added, Plain o) (hlen : length = front.length + (laid added).length) :
    ∃ fuel r, tcpOptionLoop (front ++ laid added ++ rest) length kind fuel front.length = some r ∧
      r.map (optionAt (front ++ laid added ++ rest)) =
        (added.find? (·.1 = kind)).map asRead := by
  induction added generalizing front with
  | nil =>
    refine ⟨1, none, ?_, rfl⟩
    have hend : length = front.length := by simpa [laid] using hlen
    have hdone : optionTurn (front ++ laid [] ++ rest) length kind front.length = .done :=
      if_neg (by omega)
    rw [tcpOptionLoop, hdone]
  | cons o added ih =>
    have hcons : laid (o :: added) = laidOption o ++ laid added := rfl
    have hsize := laidOption_length o.1 o.2
    have hbytes : laidOption o = List.replicate
        (if (o.2.length + 2) % 4 ≠ 0 then 4 - (o.2.length + 2) % 4 else 0) TCP_OPTION_NOP ++
          ([o.1, UInt8.ofNat (o.2.length + 2)] ++ o.2) := rfl
    rw [hcons, List.length_append, hsize] at hlen
    generalize (if (o.2.length + 2) % 4 ≠ 0 then 4 - (o.2.length + 2) % 4 else 0) = p at *
    -- behind the padding the option itself is read
    generalize hf : front ++ List.replicate p TCP_OPTION_NOP = front'
    have hf' : front'.length = front.length + p := by simp [← hf]
    obtain ⟨hturn, hread⟩ := @turn_laid kind length front' (laid added ++ rest) o
      (plain o (by simp)) (by omega)
    have hshape : front ++ laid (o :: added) ++ rest =
        front' ++ ([o.1, UInt8.ofNat (o.2.length + 2)] ++ o.2) ++ (laid added ++ rest) := by
      simp [hcons, hbytes, ← hf]
    have hpad (fuel : Nat) := @loop_padding kind length front
      (([o.1, UInt8.ofNat (o.2.length + 2)] ++ o.2) ++ (laid added ++ rest)) p fuel (by omega)
    rw [hf, ← List.append_assoc, ← hshape, ← hf'] at hpad
    rw [← hshape] at hturn hread
    have hend : (front' ++ ([o.1, UInt8.ofNat (o.2.length + 2)] ++ o.2)).length =
        front'.length + (o.2.length + 2) := by
      simp
    by_cases hk : o.1 = kind
    · refine ⟨p + 1, some front'.length, ?_, ?_⟩
      · rw [hpad, tcpOptionLoop, hturn, if_pos hk]
      · rw [Option.map_some, hread, List.find?_cons_of_pos (by simpa using hk), Option.map_some]
    · obtain ⟨fuel, r, hloop, hr⟩ := ih (front' ++ ([o.1, UInt8.ofNat (o.2.length + 2)] ++ o.2))
        (fun o' ho' => plain o' (by simp [ho'])) (by omega)
      rw [List.append_assoc _ (laid added) rest, ← hshape] at hloop hr
      refine ⟨p + (fuel + 1), r, ?_, ?_⟩
      · rw [hpad, tcpOptionLoop, hturn, if_neg hk]
        rwa [hend] at hloop
      · rw [hr, List.find?_cons_of_neg (by simpa using hk)]

end Read

/-! ## The round trip -/

/-- The whole run: what is written are the options of the calls that have succeeded. -/
theorem written_addOptions {segment : TcpHeader} {before : List (UInt8 × List UInt8)}
    (calls : List (UInt8 × List UInt8)) (h : Written segment before) :
    Written (addOptions segment calls).1 (before ++ (addOptions segment calls).2) ∧
      (addOptions segment calls).2.Sublist calls ∧
      ∀ o ∈ (addOptions segment calls).2, o.2.length ≤ 38 := by
  induction calls generalizing segment before with
  | nil => exact ⟨by simpa [addOptions] using h, .slnil, by simp [addOptions]⟩
  | cons call calls ih =>
    obtain ⟨kind, value⟩ := call
    rcases h.step kind value with hfail | ⟨hshort, hok, hnext⟩
    · obtain ⟨hw, hsub, hshort⟩ := ih h
      simp only [addOptions, hfail]
      exact ⟨hw, hsub.cons _, hshort⟩
    · obtain ⟨hw, hsub, hall⟩ := ih hnext
      simp only [addOptions, hok, if_pos]
      refine ⟨by simpa using hw, hsub.cons_cons _, ?_⟩
      rintro o (_ | ⟨_, ho⟩)
      · exact hshort
      · exact hall o ho

theorem addOption_fails {segment : TcpHeader} {kind : UInt8} {value : List UInt8}
    (h : (addOption segment kind value).2 ≠ .NO_ERROR) :
    (addOption segment kind value).1 = segment := by
  by_cases hroom : segment.dataOffset * 4 + (value.length + 2) > TCP_MAX_HEADER_LENGTH
  · have hfail : addOption segment kind value = (segment, .FAILURE) := if_pos hroom
    rw [hfail]
  · simp [addOption, hroom] at h

/-- Where the kinds differ, the first option of a kind is the one added. -/
theorem find_kind {added : List (UInt8 × List UInt8)} (kinds : (added.map Prod.fst).Nodup)
    {o : UInt8 × List UInt8} (ho : o ∈ added) : added.find? (·.1 = o.1) = some o := by
  induction added with
  | nil => cases ho
  | cons o' added ih =>
    rw [List.map_cons, List.nodup_cons] at kinds
    rcases List.mem_cons.mp ho with rfl | ho
    · rw [List.find?_cons_of_pos (by simp)]
    · have hne : o'.1 ≠ o.1 := fun h => kinds.1 (h ▸ List.mem_map_of_mem ho)
      rw [List.find?_cons_of_neg (by simpa using hne), ih kinds.2 ho]

/-- **Options.** Whatever is added to a header of five words is found again, as it was added, and
nothing else is; a call that fails changes nothing. -/
theorem options_round_trip (segment : TcpHeader) (calls : List (UInt8 × List UInt8))
    (h5 : segment.dataOffset = 5) (kinds : (calls.map Prod.fst).Nodup)
    (plain : ∀ o ∈ calls, o.1 ≠ TCP_OPTION_NOP ∧ o.1 ≠ TCP_OPTION_END) :
    (5 ≤ (addOptions segment calls).1.dataOffset ∧ (addOptions segment calls).1.dataOffset ≤ 15) ∧
      (∀ kind, ∃ fuel, tcpOptionLoop (addOptions segment calls).1.options
        (optionsLength (addOptions segment calls).1) kind fuel 0 ≠ none) ∧
      (∀ o ∈ (addOptions segment calls).2,
        tcpGetOption (addOptions segment calls).1 o.1 = some (o.2.length + 2, o.2)) ∧
      (∀ kind, kind ∉ (addOptions segment calls).2.map Prod.fst →
        tcpGetOption (addOptions segment calls).1 kind = none) ∧
      ∀ (header : TcpHeader) (kind : UInt8) (value : List UInt8),
        (addOption header kind value).2 ≠ .NO_ERROR → (addOption header kind value).1 = header := by
  obtain ⟨hw, hsub, hshort⟩ := written_addOptions calls (written_start h5)
  generalize addOptions segment calls = r at *
  obtain ⟨last, added⟩ := r
  rw [List.nil_append] at hw
  simp only at hw hsub hshort ⊢
  obtain ⟨rest, hoptions⟩ := hw.options
  have hoffset := hw.offset
  have hmost := hw.most
  have hge : 5 ≤ last.dataOffset := by
    simp only [sizeofTcpHeader] at hoffset
    omega
  have hlen : optionsLength last = (laid added).length := by
    rw [optionsLength]
    omega
  have hplain : ∀ o ∈ added, Plain o := fun o ho =>
    ⟨(plain o (hsub.subset ho)).1, (plain o (hsub.subset ho)).2, hshort o ho⟩
  have hnodup : (added.map Prod.fst).Nodup := kinds.sublist (hsub.map _)
  have hread (kind : UInt8) : ∃ fuel r,
      tcpOptionLoop last.options (optionsLength last) kind fuel 0 = some r ∧
        r.map (optionAt last.options) = (added.find? (·.1 = kind)).map asRead := by
    have := @loop_laid kind (optionsLength last) [] rest added hplain (by simpa using hlen)
    rwa [List.nil_append, ← hoptions, List.length_nil] at this
  have hget (kind : UInt8) : tcpGetOption last kind = (added.find? (·.1 = kind)).map asRead := by
    obtain ⟨fuel, r, hloop, hr⟩ := hread kind
    rw [tcpGetOption, if_neg (by omega), ← hr]
    exact findOption_of_loop hloop (by omega)
  refine ⟨⟨hge, hmost⟩, fun kind => ?_, fun o ho => ?_, fun kind hk => ?_, ?_⟩
  · obtain ⟨fuel, r, hloop, -⟩ := hread kind
    exact ⟨fuel, by simp [hloop]⟩
  · rw [hget, find_kind hnodup ho]
    rfl
  · have hfind : added.find? (·.1 = kind) = none := by
      rw [List.find?_eq_none]
      intro o ho hok
      exact hk (List.mem_map.mpr ⟨o, ho, by simpa using hok⟩)
    rw [hget, hfind]
    rfl
  · exact fun header kind value hfail => addOption_fails hfail

/-- A maximum segment size and a permission for selective acknowledgments. -/
theorem options_round_trip_two :
    tcpGetOption (addOptions (synWith 5 []) [(2, [5, 0xB4]), (4, [])]).1 4 = some (2, []) :=
  (options_round_trip (synWith 5 []) [(2, [5, 0xB4]), (4, [])] rfl (by decide) (by decide)).2.2.1
    (4, []) (by decide)

end Cyclone
