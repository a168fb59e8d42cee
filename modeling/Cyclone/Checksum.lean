import Cyclone.FlatBuffer
import Cyclone.Lib.Ones

/-!
# Cyclone.Checksum

The Internet checksum (`ip.c`): `ipCalcChecksum`, `ipCalcChecksumEx` and the checksum over a
pseudo header and a buffer.

`be` is the byte order of the processor (`_CPU_BIG_ENDIAN`), and the address of the first byte
decides how a chunk is loaded.

* `ipCalcChecksumEx_flat`: the checksum of a buffer depends on its bytes only.
* `checksum_agrees`: a segment with its checksum stored has checksum zero in any chunking.
* `checksum_chunking`: both, for either byte order.
-/

namespace Cyclone

open NetBuffer

variable (be : Bool)

/-! ## The code -/

def load16 (a b : UInt8) : Nat :=
  if be then a.toNat * 256 + b.toNat else a.toNat + b.toNat * 256

def load32 (a b c d : UInt8) : Nat :=
  if be then load16 be a b * 65536 + load16 be c d else load16 be a b + load16 be c d * 65536

/-- The first byte of the data when its address is odd; with the sum, the pointer and the rest. -/
def alignByte (address : Nat) (data : List UInt8) : Nat × Nat × List UInt8 :=
  match data with
  | [] => (0, address, [])
  | a :: rest =>
    if address % 2 ≠ 0 then (if be then a.toNat else a.toNat * 256, address + 1, rest)
    else (0, address, data)

/-- The first 16-bit word when the pointer is not aligned on a 32-bit boundary. -/
def alignWord : Nat × Nat × List UInt8 → Nat × List UInt8
  | (checksum, p, a :: b :: rest) =>
    if p / 2 % 2 ≠ 0 then (checksum + load16 be a b, rest) else (checksum, a :: b :: rest)
  | (checksum, _, rest) => (checksum, rest)

/-- The loop over 32-bit words. -/
def sumWords : Nat → List UInt8 → Nat × List UInt8
  | checksum, a :: b :: c :: d :: rest =>
    let temp := (checksum + load32 be a b c d) % 2 ^ 32
    sumWords (if temp < checksum then temp + 1 else temp) rest
  | checksum, rest => (checksum, rest)

/-- The 16-bit word and the byte that are left over. -/
def sumRest (checksum : Nat) : List UInt8 → Nat
  | [] => checksum
  | [a] => checksum + if be then a.toNat * 256 else a.toNat
  | [a, b] => checksum + load16 be a b
  | a :: b :: c :: _ => checksum + load16 be a b + if be then c.toNat * 256 else c.toNat

def ipCalcChecksum (address : Nat) (data : List UInt8) : Nat :=
  let (checksum, rest) := alignWord be (alignByte be address data)
  let (checksum, rest) := sumWords be checksum rest
  let checksum := sumRest be (Ones.fold checksum) rest
  let checksum := Ones.fold (Ones.fold checksum)
  (if address % 2 ≠ 0 then Ones.swap checksum else checksum) ^^^ 0xFFFF

/-- The loop of `ipCalcChecksumEx` from chunk `i` on. -/
def checksumChunks (address : Nat → Nat) (length : Nat) :
    Nat → List ChunkDesc → Nat → Nat → Nat → Nat
  | _, [], _, _, checksum => checksum
  | i, ch :: rest, offset, pos, checksum =>
    if pos < length then
      if offset < ch.length then
        let data := (ch.data.drop offset).take (min (ch.length - offset) (length - pos))
        let checksum := if pos % 2 ≠ 0 then Ones.swap checksum else checksum
        let checksum :=
          Ones.fold (checksum + (ipCalcChecksum be (address i + offset) data ^^^ 0xFFFF))
        let checksum := if pos % 2 ≠ 0 then Ones.swap checksum else checksum
        checksumChunks address length (i + 1) rest 0 (pos + data.length) checksum
      else checksumChunks address length (i + 1) rest (offset - ch.length) pos checksum
    else checksum

/-- `ipCalcChecksumEx`; `address i` is the address of chunk `i`. -/
def ipCalcChecksumEx (address : Nat → Nat) (buffer : NetBuffer) (offset length : Nat) : Nat :=
  checksumChunks be address length 0 buffer.chunk offset 0 0 ^^^ 0xFFFF

/-- `ipCalcUpperLayerChecksumEx`; the pseudo header is at address `headerAddress`. -/
def ipCalcUpperLayerChecksumEx (headerAddress : Nat) (pseudoHeader : List UInt8)
    (address : Nat → Nat) (buffer : NetBuffer) (offset length : Nat) : Nat :=
  Ones.fold ((ipCalcChecksum be headerAddress pseudoHeader ^^^ 0xFFFF) +
    (ipCalcChecksumEx be address buffer offset length ^^^ 0xFFFF)) ^^^ 0xFFFF

/-! ## Totals -/

/-- The 16-bit words of the bytes in memory order, the last one filled up with a zero byte. -/
def words : List UInt8 → List Nat
  | [] => []
  | [a] => [load16 be a 0]
  | a :: b :: rest => load16 be a b :: words rest

/-- What a byte counts at an even or an odd position. -/
def weight (odd : Bool) : Nat := if be = odd then 1 else 256

def total : Bool → List UInt8 → Nat
  | _, [] => 0
  | odd, b :: rest => b.toNat * weight be odd + total (!odd) rest

variable {be}

theorem load16_eq (a b : UInt8) :
    load16 be a b = a.toNat * weight be false + b.toNat * weight be true := by
  cases be <;> simp [load16, weight]

theorem load16_lt (a b : UInt8) : load16 be a b < 65536 := by
  have ha := a.toNat_lt
  have hb := b.toNat_lt
  unfold load16
  split <;> omega

theorem load32_lt (a b c d : UInt8) : load32 be a b c d < 2 ^ 32 := by
  have hab := @load16_lt be a b
  have hcd := @load16_lt be c d
  unfold load32
  split <;> omega

theorem words_lt (xs : List UInt8) : ∀ w ∈ words be xs, w < 65536 := by
  fun_induction words be xs with
  | case1 => simp
  | case2 a => intro w hw; rw [List.mem_singleton.mp hw]; exact load16_lt a 0
  | case3 a b rest ih =>
    intro w hw
    rcases List.mem_cons.mp hw with rfl | hw
    · exact load16_lt a b
    · exact ih w hw

theorem sum_words (xs : List UInt8) : (words be xs).sum = total be false xs := by
  fun_induction words be xs with
  | case1 => rfl
  | case2 a => simp [total, load16_eq]
  | case3 a b rest ih => simp [total, load16_eq, ih, Nat.add_assoc]

/-- Bytes moved to the next position count 256 times as much. -/
theorem sums_total_not (odd : Bool) (xs : List UInt8) :
    Ones.Sums (total be (!odd) xs) (256 * total be odd xs) := by
  induction xs generalizing odd with
  | nil => exact Ones.Sums.refl 0
  | cons b xs ih =>
    rw [total, total, Nat.mul_add]
    refine Ones.Sums.add ?_ (ih (!odd))
    cases be <;> cases odd <;> simp only [weight, Ones.Sums] <;> simp <;> omega

theorem total_append (odd : Bool) (xs ys : List UInt8) :
    total be odd (xs ++ ys) = total be odd xs + total be (odd ^^ decide (xs.length % 2 ≠ 0)) ys := by
  induction xs generalizing odd with
  | nil => simp [total]
  | cons b xs ih =>
    rw [List.cons_append, total, total, ih, Nat.add_assoc, List.length_cons]
    congr 3
    rcases Nat.mod_two_eq_zero_or_one xs.length with h | h
    · have h' : (xs.length + 1) % 2 = 1 := by omega
      rw [h, h']; cases odd <;> rfl
    · have h' : (xs.length + 1) % 2 = 0 := by omega
      rw [h, h']; cases odd <;> rfl

/-! ## Sums of bytes -/

theorem alignByte_spec (address : Nat) (data : List UInt8) :
    (alignByte be address data).1 ≤ 0xFF00 ∧
    ((alignByte be address data).2.1 % 2 ≠ 0 → (alignByte be address data).2.2 = []) ∧
    (alignByte be address data).1 + total be false (alignByte be address data).2.2 =
      total be (decide (address % 2 ≠ 0)) data := by
  cases data with
  | nil => simp [alignByte, total]
  | cons a rest =>
    have ha := a.toNat_lt
    by_cases h : address % 2 ≠ 0
    · simp only [alignByte, if_pos h, decide_eq_true h]
      refine ⟨by split <;> omega, fun hp => absurd hp (by omega), ?_⟩
      cases be <;> simp [total, weight]
    · simp only [alignByte, if_neg h, decide_eq_false h]
      exact ⟨by omega, fun hp => absurd hp h, by omega⟩

theorem alignWord_spec (r : Nat × Nat × List UInt8) :
    (alignWord be r).1 ≤ r.1 + 0xFFFF ∧
      (alignWord be r).1 + total be false (alignWord be r).2 = r.1 + total be false r.2.2 := by
  obtain ⟨checksum, p, rest⟩ := r
  match rest with
  | [] => simp [alignWord]
  | [a] => simp [alignWord]
  | a :: b :: rest =>
    have hlt := @load16_lt be a b
    by_cases h : p / 2 % 2 ≠ 0
    · simp only [alignWord, if_pos h]
      refine ⟨by omega, ?_⟩
      simp only [total, load16_eq, Bool.not_false, Bool.not_true]
      omega
    · simp only [alignWord, if_neg h]
      exact ⟨by omega, trivial⟩

theorem sums_load32 (a b c d : UInt8) :
    Ones.Sums (load32 be a b c d) (total be false [a, b, c, d]) := by
  have htotal : total be false [a, b, c, d] = load16 be a b + load16 be c d := by
    simp only [total, load16_eq, Bool.not_false, Bool.not_true]
    omega
  rw [htotal]
  unfold load32
  split
  · refine ⟨?_, ?_⟩ <;> omega
  · refine ⟨?_, ?_⟩ <;> omega

theorem sumWords_spec (checksum : Nat) (data : List UInt8) (h : checksum < 2 ^ 32) :
    (sumWords be checksum data).1 < 2 ^ 32 ∧ (sumWords be checksum data).2.length < 4 ∧
      Ones.Sums ((sumWords be checksum data).1 + total be false (sumWords be checksum data).2)
        (checksum + total be false data) := by
  fun_induction sumWords be checksum data with
  | case1 checksum a b c d rest temp ih =>
    have hw := @load32_lt be a b c d
    have hcarry := Ones.sums_carry h hw
    have hlt : (if temp < checksum then temp + 1 else temp) < 2 ^ 32 := by
      have : temp < 2 ^ 32 := Nat.mod_lt _ (by decide)
      split <;> omega
    obtain ⟨h1, h2, h3⟩ := ih hlt
    refine ⟨h1, h2, h3.trans ?_⟩
    have hsplit : total be false (a :: b :: c :: d :: rest) =
        total be false [a, b, c, d] + total be false rest := by
      rw [show a :: b :: c :: d :: rest = [a, b, c, d] ++ rest from rfl, total_append]
      simp
    rw [hsplit, ← Nat.add_assoc]
    refine Ones.Sums.add (hcarry.trans ?_) (Ones.Sums.refl _)
    exact (Ones.Sums.refl checksum).add (sums_load32 a b c d)
  | case2 checksum data hno =>
    refine ⟨h, ?_, Ones.Sums.refl _⟩
    match data, hno with
    | [], _ => simp
    | [a], _ => simp
    | [a, b], _ => simp
    | [a, b, c], _ => simp
    | a :: b :: c :: d :: rest, hno => exact absurd rfl (hno a b c d rest)

theorem sumRest_spec (checksum : Nat) {rest : List UInt8} (h : rest.length < 4) :
    sumRest be checksum rest = checksum + total be false rest := by
  match rest, h with
  | [], _ => rfl
  | [a], _ => cases be <;> simp [sumRest, total, weight]
  | [a, b], _ => simp [sumRest, total, load16_eq]
  | [a, b, c], _ => cases be <;> simp [sumRest, total, load16_eq, weight, Nat.add_assoc]
  | a :: b :: c :: d :: rest, h => simp at h; omega

theorem total_le (odd : Bool) (xs : List UInt8) : total be odd xs ≤ 0xFF00 * xs.length := by
  induction xs generalizing odd with
  | nil => simp [total]
  | cons b xs ih =>
    have hb := b.toNat_lt
    have hw : weight be odd ≤ 256 := by unfold weight; split <;> omega
    have hmul : b.toNat * weight be odd ≤ 255 * 256 := Nat.mul_le_mul (by omega) hw
    have := ih (!odd)
    rw [total, List.length_cons]
    omega

/-- Before its complement is taken, the checksum stands for the total of the bytes. -/
theorem ipCalcChecksum_spec (address : Nat) (data : List UInt8) :
    ∃ x, x < 65536 ∧ Ones.Sums x (total be false data) ∧
      ipCalcChecksum be address data = x ^^^ 0xFFFF := by
  obtain ⟨hb1, -, hb3⟩ := @alignByte_spec be address data
  obtain ⟨hw1, hw2⟩ := @alignWord_spec be (alignByte be address data)
  obtain ⟨hs1, hs2, hs3⟩ := @sumWords_spec be (alignWord be (alignByte be address data)).1
    (alignWord be (alignByte be address data)).2 (by omega)
  rw [hw2, hb3] at hs3
  unfold ipCalcChecksum
  simp only
  generalize sumWords be (alignWord be (alignByte be address data)).1
    (alignWord be (alignByte be address data)).2 = r at hs1 hs2 hs3
  rw [sumRest_spec _ hs2]
  have hf1 := Ones.fold_le hs1
  have hrest := @total_le be false r.2
  have hsum : Ones.Sums (Ones.fold (Ones.fold (Ones.fold r.1 + total be false r.2)))
      (total be (decide (address % 2 ≠ 0)) data) :=
    (Ones.sums_fold _).trans ((Ones.sums_fold _).trans
      (((Ones.sums_fold _).add (Ones.Sums.refl _)).trans hs3))
  have hlt : Ones.fold (Ones.fold (Ones.fold r.1 + total be false r.2)) < 65536 := by
    refine Ones.fold_lt (Ones.fold_le ?_)
    have : r.2.length ≤ 3 := by omega
    omega
  by_cases hodd : address % 2 ≠ 0
  · rw [if_pos hodd]
    rw [decide_eq_true hodd] at hsum
    exact ⟨_, Ones.swap_lt hlt, (Ones.sums_swap _).trans ((hsum.mul 256).trans
      (sums_total_not true data).symm), rfl⟩
  · rw [if_neg hodd]
    rw [decide_eq_false hodd] at hsum
    exact ⟨_, hlt, hsum, rfl⟩

theorem ipCalcChecksum_compl (address : Nat) (data : List UInt8) :
    Ones.Sums (ipCalcChecksum be address data ^^^ 0xFFFF) (total be false data) ∧
      ipCalcChecksum be address data ^^^ 0xFFFF < 65536 := by
  obtain ⟨x, h1, h2, h3⟩ := @ipCalcChecksum_spec be address data
  rw [h3, Nat.xor_xor_cancel_right]
  exact ⟨h2, h1⟩

/-! ## Buffers -/

/-- One chunk more: the sum so far is exchanged twice when the chunk starts at an odd position. -/
theorem sums_chunk {checksum : Nat} {before data : List UInt8} (address : Nat)
    (hs : Ones.Sums checksum (total be false before)) (hlt : checksum < 65536) :
    let sum := if before.length % 2 ≠ 0 then Ones.swap checksum else checksum
    let sum := Ones.fold (sum + (ipCalcChecksum be address data ^^^ 0xFFFF))
    let sum := if before.length % 2 ≠ 0 then Ones.swap sum else sum
    Ones.Sums sum (total be false (before ++ data)) ∧ sum < 65536 := by
  obtain ⟨hd, hdlt⟩ := @ipCalcChecksum_compl be address data
  simp only
  rw [total_append]
  by_cases hodd : before.length % 2 ≠ 0
  · have hswap := Ones.swap_lt hlt
    rw [if_pos hodd, if_pos hodd, decide_eq_true hodd]
    refine ⟨?_, Ones.swap_lt (Ones.fold_lt (by omega))⟩
    have hbefore : Ones.Sums (Ones.swap checksum) (total be true before) :=
      (Ones.sums_swap _).trans ((hs.mul 256).trans (sums_total_not false before).symm)
    have hsum : Ones.Sums (256 * (total be true before + total be false data))
        (total be false before + total be true data) := by
      rw [Nat.mul_add]
      exact (sums_total_not true before).symm.add (sums_total_not false data).symm
    exact (Ones.sums_swap _).trans
      ((((Ones.sums_fold _).trans (hbefore.add hd)).mul 256).trans hsum)
  · rw [if_neg hodd, if_neg hodd, decide_eq_false hodd]
    exact ⟨(Ones.sums_fold _).trans (hs.add hd), Ones.fold_lt (by omega)⟩

theorem checksumChunks_spec (address : Nat → Nat) (length : Nat) (cs : List ChunkDesc) :
    ∀ (i offset : Nat) (before : List UInt8) (checksum : Nat),
      Ones.Sums checksum (total be false before) → checksum < 65536 →
      Ones.Sums (checksumChunks be address length i cs offset before.length checksum)
          (total be false (before ++ ((flat cs).drop offset).take (length - before.length))) ∧
        checksumChunks be address length i cs offset before.length checksum < 65536 := by
  induction cs with
  | nil => intro i offset before checksum hs hlt; simpa [checksumChunks] using ⟨hs, hlt⟩
  | cons ch rest ih =>
    intro i offset before checksum hs hlt
    have hl : ch.length = ch.data.length := rfl
    unfold checksumChunks
    by_cases hpos : before.length < length
    case neg =>
      have hzero : length - before.length = 0 := by omega
      rw [if_neg hpos, hzero, List.take_zero, List.append_nil]
      exact ⟨hs, hlt⟩
    rw [if_pos hpos]
    by_cases hoff : offset < ch.length
    · rw [if_pos hoff]
      simp only
      generalize hdata : (ch.data.drop offset).take (min (ch.length - offset)
        (length - before.length)) = data
      have hdl : data.length = min (ch.length - offset) (length - before.length) := by
        rw [← hdata, List.length_take, List.length_drop]
        omega
      obtain ⟨h1, h2⟩ := @sums_chunk be checksum before data (address i + offset) hs hlt
      have hstep := ih (i + 1) 0 (before ++ data) _ h1 h2
      rw [List.length_append, List.append_assoc, List.drop_zero] at hstep
      have hbytes : data ++ (flat rest).take (length - (before.length + data.length)) =
          ((flat (ch :: rest)).drop offset).take (length - before.length) := by
        rw [flat_cons, List.drop_append_of_le_length (by omega), List.take_append,
          List.length_drop, ← hl]
        congr 1
        · rw [← hdata]
          rcases Nat.le_total (ch.length - offset) (length - before.length) with h | h
          · rw [Nat.min_eq_left h, List.take_of_length_le (by simp [hl]),
              List.take_of_length_le (by simp; omega)]
          · rw [Nat.min_eq_right h]
        · congr 1
          omega
      rw [hbytes] at hstep
      exact hstep
    · rw [if_neg hoff]
      have hstep := ih (i + 1) (offset - ch.length) before checksum hs hlt
      have hdrop : (flat (ch :: rest)).drop offset = (flat rest).drop (offset - ch.length) := by
        rw [flat_cons, List.drop_append, List.drop_eq_nil_of_le (by omega), hl, List.nil_append]
      rw [hdrop]
      exact hstep

theorem ipCalcChecksumEx_compl (address : Nat → Nat) (buffer : NetBuffer) (offset length : Nat) :
    Ones.Sums (ipCalcChecksumEx be address buffer offset length ^^^ 0xFFFF)
        (total be false ((buffer.bytes.drop offset).take length)) ∧
      ipCalcChecksumEx be address buffer offset length ^^^ 0xFFFF < 65536 := by
  rw [ipCalcChecksumEx, Nat.xor_xor_cancel_right]
  exact checksumChunks_spec address length buffer.chunk 0 offset [] 0 (Ones.Sums.refl 0) (by omega)

/-- The checksum of a buffer, in any chunking and at any addresses, is the one of the same bytes
in one piece at any address, the complement of their end-around-carry sum. -/
theorem ipCalcChecksumEx_flat (address : Nat → Nat) (buffer : NetBuffer) (offset length : Nat)
    (flatAddress : Nat) :
    ipCalcChecksumEx be address buffer offset length =
        Ones.sum (words be ((buffer.bytes.drop offset).take length)) ^^^ 0xFFFF ∧
      ipCalcChecksum be flatAddress ((buffer.bytes.drop offset).take length) =
        Ones.sum (words be ((buffer.bytes.drop offset).take length)) ^^^ 0xFFFF := by
  generalize hdata : (buffer.bytes.drop offset).take length = data
  obtain ⟨h1, h2⟩ := @ipCalcChecksumEx_compl be address buffer offset length
  obtain ⟨h3, h4⟩ := @ipCalcChecksum_compl be flatAddress data
  obtain ⟨h5, h6⟩ := Ones.sum_spec (words be data) (words_lt data)
  rw [hdata] at h1
  rw [sum_words] at h6
  constructor
  · rw [← h1.eq h6 h2 h5, Nat.xor_xor_cancel_right]
  · rw [← h3.eq h6 h4 h5, Nat.xor_xor_cancel_right]

/-! ## Segments -/

/-- The checksum in the byte order of the processor. -/
def store16 (be : Bool) (n : Nat) : List UInt8 :=
  if be then [UInt8.ofNat (n / 256), UInt8.ofNat n] else [UInt8.ofNat n, UInt8.ofNat (n / 256)]

/-- The segment with its checksum field set. -/
def setChecksum (be : Bool) (segment : List UInt8) (checksum : Nat) : List UInt8 :=
  overlay segment 16 (store16 be checksum)

theorem total_store16 {n : Nat} (h : n < 65536) : total be false (store16 be n) = n := by
  cases be
  · simp [store16, total, weight, UInt8.toNat_ofNat']
    omega
  · simp [store16, total, weight, UInt8.toNat_ofNat']
    omega

/-- The header up to the checksum field. -/
def TcpHeader.front (h : TcpHeader) : List UInt8 :=
  be16 h.srcPort.toNat ++ be16 h.destPort.toNat ++ be32 h.seqNum ++ be32 h.ackNum ++
    [UInt8.ofNat (h.dataOffset * 16), h.flags.encode] ++ be16 h.window

theorem TcpHeader.encode_split (h : TcpHeader) :
    h.encode = h.front ++ [0, 0] ++ (be16 h.urgentPointer ++ h.options) := by
  simp [TcpHeader.encode, TcpHeader.front, be16]

theorem TcpHeader.length_front (h : TcpHeader) : h.front.length = 16 := rfl

theorem setChecksum_segment (h : TcpHeader) (data : List UInt8) (checksum : Nat) :
    setChecksum be (h.encode ++ data) checksum =
      h.front ++ store16 be checksum ++ (be16 h.urgentPointer ++ h.options ++ data) := by
  have hlen : (store16 be checksum).length = 2 := by cases be <;> rfl
  have hfront := h.length_front
  rw [setChecksum, overlay, h.encode_split, List.take_of_length_le (by simp [hlen, hfront]),
    Ring.splice, hlen]
  have h1 : (h.front ++ [0, 0] ++ (be16 h.urgentPointer ++ h.options) ++ data).take 16 =
      h.front := by
    rw [List.append_assoc, List.append_assoc]
    exact List.take_left' hfront
  have h2 : (h.front ++ [0, 0] ++ (be16 h.urgentPointer ++ h.options) ++ data).drop (16 + 2) =
      be16 h.urgentPointer ++ h.options ++ data := by
    rw [List.append_assoc (h.front ++ [0, 0])]
    exact List.drop_left' (by simp [hfront])
  rw [h1, h2]

/-- What a word at an even position adds to the total. -/
theorem total_insert (front back : List UInt8) (hf : front.length % 2 = 0) {checksum : Nat}
    (hc : checksum < 65536) :
    total be false (front ++ store16 be checksum ++ back) =
      total be false (front ++ [0, 0] ++ back) + checksum := by
  have hlen : (store16 be checksum).length = 2 := by cases be <;> rfl
  have hzero : total be false [0, 0] = 0 := by simp [total]
  have hsplit : ∀ mid : List UInt8, mid.length = 2 →
      total be false (front ++ mid ++ back) =
        total be false front + total be false mid + total be false back := by
    intro mid hmid
    have heven : (front.length + 2) % 2 = 0 := by omega
    rw [total_append, total_append, List.length_append, hmid, hf, heven]
    rfl
  rw [hsplit _ hlen, hsplit [0, 0] rfl, hzero, total_store16 hc]
  omega

/-- What setting the checksum field adds to the total of a segment. -/
theorem total_setChecksum (h : TcpHeader) (data : List UInt8) {checksum : Nat}
    (hc : checksum < 65536) :
    total be false (setChecksum be (h.encode ++ data) checksum) =
      total be false (h.encode ++ data) + checksum := by
  have heven : h.front.length % 2 = 0 := by rw [h.length_front]
  rw [setChecksum_segment, h.encode_split, List.append_assoc (h.front ++ [0, 0]),
    total_insert _ _ heven hc]

/-- A segment whose checksum was computed while the field was zero has checksum zero at the
receiver, whatever the chunks and the addresses on both sides. -/
theorem checksum_agrees (pseudoHeader data : List UInt8) (h : TcpHeader) (buffer rx : NetBuffer)
    (address rxAddress : Nat → Nat) (headerAddress rxHeaderAddress offset rxOffset length : Nat)
    (htx : (buffer.bytes.drop offset).take length = h.encode ++ data)
    (hrx : (rx.bytes.drop rxOffset).take length = setChecksum be (h.encode ++ data)
      (ipCalcUpperLayerChecksumEx be headerAddress pseudoHeader address buffer offset length)) :
    ipCalcUpperLayerChecksumEx be rxHeaderAddress pseudoHeader rxAddress rx rxOffset length =
      0 := by
  obtain ⟨h1, h2⟩ := @ipCalcChecksum_compl be headerAddress pseudoHeader
  obtain ⟨h3, h4⟩ := @ipCalcChecksumEx_compl be address buffer offset length
  obtain ⟨h5, h6⟩ := @ipCalcChecksum_compl be rxHeaderAddress pseudoHeader
  obtain ⟨h7, h8⟩ := @ipCalcChecksumEx_compl be rxAddress rx rxOffset length
  rw [htx] at h3
  rw [hrx] at h7
  have hsent := (Ones.sums_fold _).trans (h1.add h3)
  have hlt := Ones.fold_lt (x := (ipCalcChecksum be headerAddress pseudoHeader ^^^ 0xFFFF) +
    (ipCalcChecksumEx be address buffer offset length ^^^ 0xFFFF)) (by omega)
  have hcompl := Ones.sums_compl hsent hlt
  have hchecksum : ipCalcUpperLayerChecksumEx be headerAddress pseudoHeader address buffer offset
      length < 65536 := by
    rw [ipCalcUpperLayerChecksumEx, Ones.compl_eq hlt]
    omega
  rw [total_setChecksum h data hchecksum] at h7
  have hrcv := (Ones.sums_fold _).trans (h5.add h7)
  rw [← Nat.add_assoc] at hrcv
  have hfull := hrcv.eq hcompl (Ones.fold_lt (by omega)) (by omega)
  rw [ipCalcUpperLayerChecksumEx, hfull]
  rfl

/-- The checksum depends on the bytes alone, and sender and receiver agree on it. -/
theorem checksum_chunking (be : Bool) :
    (∀ address buffer offset length flatAddress,
      ipCalcChecksumEx be address buffer offset length =
          Ones.sum (words be ((buffer.bytes.drop offset).take length)) ^^^ 0xFFFF ∧
        ipCalcChecksum be flatAddress ((buffer.bytes.drop offset).take length) =
          Ones.sum (words be ((buffer.bytes.drop offset).take length)) ^^^ 0xFFFF) ∧
    (∀ (pseudoHeader data : List UInt8) (h : TcpHeader) (buffer rx : NetBuffer)
        (address rxAddress : Nat → Nat) (headerAddress rxHeaderAddress offset rxOffset length : Nat),
      (buffer.bytes.drop offset).take length = h.encode ++ data →
      (rx.bytes.drop rxOffset).take length = setChecksum be (h.encode ++ data)
        (ipCalcUpperLayerChecksumEx be headerAddress pseudoHeader address buffer offset length) →
      ipCalcUpperLayerChecksumEx be rxHeaderAddress pseudoHeader rxAddress rx rxOffset length =
        0) :=
  ⟨ipCalcChecksumEx_flat, checksum_agrees⟩

end Cyclone
