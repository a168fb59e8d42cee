import Cyclone.NetMem

/-!
# Cyclone.FlatBuffer

A multi-part buffer as a flat byte string, for every chunking, offset and length.

* `overlay xs off ys`: what a write of `ys` at `off` makes of `xs`.
* `netBufferWrite_overlay`, `netBufferCopy_overlay`: writes and copies, inside the buffer or not.
* `netBufferAt_some`: the position `netBufferAt` points at.
* `netBufferSetLength_keeps`: what a change of the length leaves alone.
* `netBuffer_flat`: all operations of a buffer at once.
-/

namespace Cyclone

open NetBuffer

variable {b dest src : NetBuffer} {cs rest : List ChunkDesc} {ch : ChunkDesc} {e : Env}

/-! ## Overlays -/

/-- `xs` with the bytes of `ys` at the positions from `off` on, as far as `xs` has them. -/
def overlay (xs : List UInt8) (off : Nat) (ys : List UInt8) : List UInt8 :=
  Ring.splice xs off (ys.take (xs.length - off))

/-- Byte by byte: the addressed positions, and no other. -/
theorem overlay_getElem? (xs ys : List UInt8) (off i : Nat) :
    (overlay xs off ys)[i]? =
      if off ≤ i ∧ i < off + ys.length ∧ i < xs.length then ys[i - off]? else xs[i]? := by
  unfold overlay
  by_cases hoff : off ≤ xs.length
  case neg =>
    have hzero : xs.length - off = 0 := by omega
    rw [hzero, List.take_zero, Ring.splice_nil, if_neg (by omega)]
  have hlen : (ys.take (xs.length - off)).length = min (xs.length - off) ys.length := by simp
  rw [Ring.splice_getElem? (by omega), hlen]
  by_cases hi : off ≤ i ∧ i < off + ys.length ∧ i < xs.length
  · rw [if_pos (by omega), if_pos hi, List.getElem?_take, if_pos (by omega)]
  · rw [if_neg hi, if_neg (by omega)]

theorem length_overlay (xs ys : List UInt8) (off : Nat) :
    (overlay xs off ys).length = xs.length := by
  unfold overlay
  by_cases hoff : off ≤ xs.length
  · refine Ring.length_splice ?_
    rw [List.length_take]; omega
  · have hzero : xs.length - off = 0 := by omega
    rw [hzero, List.take_zero, Ring.splice_nil]

/-! ## Writing -/

theorem writeChunks_nil (cs : List ChunkDesc) (off : Nat) : writeChunks cs off [] = cs := by
  cases cs with
  | nil => rfl
  | cons ch rest => simp [writeChunks]

/-- The bytes that have no position in the buffer are not written. -/
theorem writeChunks_take (cs : List ChunkDesc) : ∀ (off : Nat) (src : List UInt8),
    writeChunks cs off src = writeChunks cs off (src.take ((flat cs).length - off)) := by
  induction cs with
  | nil => intro off src; rfl
  | cons ch rest ih =>
    intro off src
    have hl : ch.length = ch.data.length := rfl
    have hflat : (flat (ch :: rest)).length = ch.length + (flat rest).length := by
      rw [flat_cons, List.length_append, hl]
    rw [hflat]
    by_cases hsrc : src = []
    · rw [hsrc, List.take_nil]
    have hpos : 0 < src.length := List.length_pos_iff.mpr hsrc
    by_cases hoff : off < ch.length
    · have hlen : (src.take (ch.length + (flat rest).length - off)).length ≠ 0 := by
        rw [List.length_take]; omega
      have hn : min (src.take (ch.length + (flat rest).length - off)).length (ch.length - off) =
          min src.length (ch.length - off) := by
        rw [List.length_take]; omega
      unfold writeChunks
      rw [if_neg (by omega), if_neg hlen, if_pos hoff, if_pos hoff, hn]
      simp only
      have htake : (src.take (ch.length + (flat rest).length - off)).take
          (min src.length (ch.length - off)) = src.take (min src.length (ch.length - off)) := by
        rw [List.take_take]
        by_cases hle : src.length ≤ ch.length - off
        · rw [List.take_of_length_le (by omega), List.take_of_length_le (by omega)]
        · congr 1
          omega
      have hdrop : ((src.take (ch.length + (flat rest).length - off)).drop
          (min src.length (ch.length - off))).take ((flat rest).length - 0) =
          (src.drop (min src.length (ch.length - off))).take ((flat rest).length - 0) := by
        rw [List.drop_take, List.take_take]
        by_cases hle : src.length ≤ ch.length - off
        · rw [List.drop_eq_nil_of_le (by omega)]; simp
        · congr 1
          omega
      rw [htake, ih 0 (src.drop _), ih 0 (List.drop _ _), hdrop]
    · rw [show ch.length + (flat rest).length - off = (flat rest).length - (off - ch.length) by
        omega]
      by_cases hzero : (src.take ((flat rest).length - (off - ch.length))).length = 0
      · have hnil := List.length_eq_zero_iff.mp hzero
        unfold writeChunks
        rw [if_neg (by omega), if_neg hoff, if_pos hzero, ih, hnil, writeChunks_nil]
      · unfold writeChunks
        rw [if_neg (by omega), if_neg hoff, if_neg hzero, if_neg hoff, ih]

theorem netBufferWrite_overlay (dest : NetBuffer) (off : Nat) (src : List UInt8) :
    (netBufferWrite dest off src).bytes = overlay dest.bytes off src := by
  show flat (writeChunks dest.chunk off src) = overlay (flat dest.chunk) off src
  rw [writeChunks_take]
  by_cases hoff : off ≤ (flat dest.chunk).length
  · refine writeChunks_flat _ _ _ ?_
    rw [List.length_take]; omega
  · have hzero : (flat dest.chunk).length - off = 0 := by omega
    rw [overlay, hzero, List.take_zero, writeChunks_nil, Ring.splice_nil]

/-! ## Copying -/

theorem copyChunks_zero (fuel : Nat) (d : List ChunkDesc) (dOff : Nat) (s : List ChunkDesc)
    (sOff : Nat) : (copyChunks fuel d dOff s sOff 0).1 = d := by
  cases fuel with
  | zero => rfl
  | succ fuel => cases d <;> cases s <;> simp [copyChunks]

/-- A copy stops where one of the buffers ends. -/
theorem copyChunks_min (fuel : Nat) : ∀ (d : List ChunkDesc) (dOff : Nat) (s : List ChunkDesc)
    (sOff len : Nat), (∀ ch ∈ d.head?, dOff ≤ ch.length) → (∀ ch ∈ s.head?, sOff ≤ ch.length) →
    (copyChunks fuel d dOff s sOff len).1 =
      (copyChunks fuel d dOff s sOff
        (min len (min ((flat d).length - dOff) ((flat s).length - sOff)))).1 := by
  induction fuel with
  | zero => intro d dOff s sOff len _ _; simp [copyChunks]
  | succ fuel ih =>
    intro d dOff s sOff len hd hs
    cases d with
    | nil => simp [copyChunks]
    | cons dc ds =>
    cases s with
    | nil => simp [copyChunks]
    | cons sc ss =>
      have hd' : dOff ≤ dc.length := hd dc (by simp)
      have hs' : sOff ≤ sc.length := hs sc (by simp)
      have hdl : (flat (dc :: ds)).length = dc.length + (flat ds).length := by
        rw [flat_cons, List.length_append]; rfl
      have hsl : (flat (sc :: ss)).length = sc.length + (flat ss).length := by
        rw [flat_cons, List.length_append]; rfl
      generalize hm : min len (min ((flat (dc :: ds)).length - dOff)
        ((flat (sc :: ss)).length - sOff)) = m
      by_cases h0 : len = 0
      · obtain rfl : m = 0 := by omega
        rw [h0]
      generalize hn : min len (min (dc.length - dOff) (sc.length - sOff)) = n
      obtain ⟨hlen, hdn, hsn, hnl⟩ := copy_turn hn.symm hd' hs'
      have hwl : (dc.write dOff ((sc.data.drop sOff).take n)).length = dc.length :=
        length_write (by omega)
      have hnm : min m (min (dc.length - dOff) (sc.length - sOff)) = n := by omega
      generalize hss : (if sOff + n ≥ sc.length then (ss, 0) else (sc :: ss, sOff + n)) = q
      have hq : (flat q.1).length - q.2 = (flat (sc :: ss)).length - sOff - n ∧
          ∀ ch ∈ q.1.head?, q.2 ≤ ch.length := by
        rw [← hss]
        split
        · refine ⟨?_, by simp⟩
          show (flat ss).length - 0 = _
          omega
        · refine ⟨?_, by simpa using by omega⟩
          show (flat (sc :: ss)).length - (sOff + n) = _
          omega
      have hstep : ∀ l, l ≠ 0 → min l (min (dc.length - dOff) (sc.length - sOff)) = n →
          (copyChunks (fuel + 1) (dc :: ds) dOff (sc :: ss) sOff l).1 =
            if dOff + n ≥ dc.length then
              dc.write dOff ((sc.data.drop sOff).take n) :: (copyChunks fuel ds 0 q.1 q.2 (l - n)).1
            else (copyChunks fuel (dc.write dOff ((sc.data.drop sOff).take n) :: ds) (dOff + n)
              q.1 q.2 (l - n)).1 := by
        intro l hl hmin
        rw [copyChunks, if_neg hl]
        simp only [hmin, hss]
        split <;> rfl
      rw [hstep len h0 hn]
      by_cases hm0 : m = 0
      · have hn0 : n = 0 := by omega
        have hdc : dc.write dOff ((sc.data.drop sOff).take n) = dc := by
          rw [hn0, List.take_zero, ChunkDesc.write, Ring.splice_nil]
        rw [hm0, copyChunks_zero, hdc]
        split
        · rw [ih ds 0 q.1 q.2 (len - n) (by simp) hq.2]
          have hmin : min (len - n) (min ((flat ds).length - 0) ((flat q.1).length - q.2)) = 0 := by
            omega
          rw [hmin, copyChunks_zero]
        · rw [ih (dc :: ds) (dOff + n) q.1 q.2 (len - n) (by simp; omega) hq.2]
          have hmin : min (len - n) (min ((flat (dc :: ds)).length - (dOff + n))
              ((flat q.1).length - q.2)) = 0 := by omega
          rw [hmin, copyChunks_zero]
      · rw [hstep m hm0 hnm]
        have hflat : (flat (dc.write dOff ((sc.data.drop sOff).take n) :: ds)).length =
            (flat (dc :: ds)).length := by
          rw [hdl, flat_cons, List.length_append, ← hwl]; rfl
        split
        · congr 1
          rw [ih ds 0 q.1 q.2 (len - n) (by simp) hq.2, ih ds 0 q.1 q.2 (m - n) (by simp) hq.2]
          congr 2
          omega
        · have hhead : ∀ ch ∈ (dc.write dOff ((sc.data.drop sOff).take n) :: ds).head?,
              dOff + n ≤ ch.length := by
            intro ch hch
            obtain rfl : dc.write dOff ((sc.data.drop sOff).take n) = ch := by simpa using hch
            omega
          rw [ih _ _ q.1 q.2 (len - n) hhead hq.2, ih _ _ q.1 q.2 (m - n) hhead hq.2]
          congr 2
          omega

theorem netBufferCopy_overlay (dest src : NetBuffer) (dOff sOff n : Nat) :
    (netBufferCopy dest dOff src sOff n).1.bytes =
      overlay dest.bytes dOff ((src.bytes.drop sOff).take n) := by
  generalize hm : min n (min (dest.bytes.length - dOff) (src.bytes.length - sOff)) = m
  have hcopy : (netBufferCopy dest dOff src sOff n).1 = (netBufferCopy dest dOff src sOff m).1 := by
    unfold netBufferCopy
    split
    · rename_i ds o ss o' hd hs
      obtain ⟨h1, h2⟩ := chunksBefore_append hd
      obtain ⟨h3, h4⟩ := chunksBefore_append hs
      have hD : dest.bytes.length = (flat (chunksBefore dest.chunk dOff)).length +
          (flat ds).length := by rw [← List.length_append, ← flat_append, h1]; rfl
      have hS : src.bytes.length = (flat (chunksBefore src.chunk sOff)).length +
          (flat ss).length := by rw [← List.length_append, ← flat_append, h3]; rfl
      have hmin : min n (min ((flat ds).length - o) ((flat ss).length - o')) = m := by omega
      have hstep := copyChunks_min (ds.length + ss.length) ds o ss o' n (skipChunks_head hd)
        (skipChunks_head hs)
      rw [hmin] at hstep
      simp only [hstep]
    · rfl
  have htake : ((src.bytes.drop sOff).take n).take (dest.bytes.length - dOff) =
      (src.bytes.drop sOff).take m := by
    rw [List.take_take]
    apply List.ext_getElem?
    intro i
    rw [List.getElem?_take, List.getElem?_take]
    by_cases hi : i < m
    · rw [if_pos (by omega), if_pos hi]
    · rw [if_neg hi]
      split
      · exact List.getElem?_eq_none (by rw [List.length_drop]; omega)
      · rfl
  rw [hcopy, overlay, htake]
  by_cases hoff : dOff ≤ dest.bytes.length ∧ sOff ≤ src.bytes.length
  · exact netBufferCopy_bytes (by omega) (by omega)
  · obtain rfl : m = 0 := by omega
    rw [List.take_zero, Ring.splice_nil]
    have hzero : (netBufferCopy dest dOff src sOff 0).1 = dest := by
      unfold netBufferCopy
      split
      · rename_i ds o ss o' hd hs
        show { dest with chunk := chunksBefore dest.chunk dOff ++ _ } = dest
        rw [copyChunks_zero, (chunksBefore_append hd).1]
      · rfl
    rw [hzero]

/-! ## Positions -/

/-- The loop of `netBufferAt`: the number of the chunk and the offset in it. -/
def chunkAt : List ChunkDesc → Nat → Option (Nat × Nat)
  | [], _ => none
  | ch :: rest, offset =>
    if offset < ch.length then some (0, offset)
    else (chunkAt rest (offset - ch.length)).map fun pos => (pos.1 + 1, pos.2)

/-- `netBufferAt`: the byte the returned pointer points at, by its chunk and its offset in the
chunk; `none` for `NULL`. -/
def netBufferAt (b : NetBuffer) (offset : Nat) : Option (Nat × Nat) := chunkAt b.chunk offset

/-- A byte is stored through a pointer into chunk `pos.1`. -/
def storeAt (b : NetBuffer) (pos : Nat × Nat) (v : UInt8) : NetBuffer :=
  { b with chunk := b.chunk.modify pos.1 fun ch => ch.write pos.2 [v] }

theorem chunkAt_none (cs : List ChunkDesc) (off : Nat) :
    chunkAt cs off = none ↔ (flat cs).length ≤ off := by
  induction cs generalizing off with
  | nil => simp [chunkAt]
  | cons ch rest ih =>
    have hl : ch.length = ch.data.length := rfl
    unfold chunkAt
    rw [flat_cons, List.length_append]
    split
    · simp; omega
    · rw [Option.map_eq_none_iff, ih]
      omega

/-- The byte a pointer points at is the one at its offset, and a store changes no other. -/
theorem chunkAt_some {cs : List ChunkDesc} {off : Nat} {pos : Nat × Nat}
    (h : chunkAt cs off = some pos) :
    (∃ ch, cs[pos.1]? = some ch ∧ ch.data[pos.2]? = (flat cs)[off]?) ∧
      ∀ v, flat (cs.modify pos.1 fun ch => ch.write pos.2 [v]) = (flat cs).set off v := by
  induction cs generalizing off pos with
  | nil => cases h
  | cons ch rest ih =>
    have hl : ch.length = ch.data.length := rfl
    unfold chunkAt at h
    split at h
    · rename_i hlt
      cases h
      refine ⟨⟨ch, rfl, ?_⟩, fun v => ?_⟩
      · rw [flat_cons, List.getElem?_append_left (by omega)]
      · show flat (ch.write off [v] :: rest) = (flat (ch :: rest)).set off v
        rw [flat_cons, flat_cons, List.set_append_left _ _ (by omega)]
        congr 1
        show Ring.splice ch.data off [v] = _
        rw [List.set_eq_take_append_cons_drop, if_pos (by omega)]
        simp [Ring.splice]
    · rename_i hge
      obtain ⟨q, hq, rfl⟩ := Option.map_eq_some_iff.mp h
      obtain ⟨⟨ch', h1, h2⟩, h3⟩ := ih hq
      refine ⟨⟨ch', h1, ?_⟩, fun v => ?_⟩
      · rw [flat_cons, List.getElem?_append_right (by omega), ← hl]
        exact h2
      · show flat (ch :: rest.modify q.1 fun ch => ch.write q.2 [v]) = _
        rw [flat_cons, flat_cons, List.set_append_right _ _ (by omega), h3, ← hl]

/-! ## Lengths -/

/-- The bytes of an owned chunk fit into its allocation. -/
def ChunkDesc.fits (ch : ChunkDesc) : Prop := 0 < ch.size → ch.length ≤ ch.size

/-- The first loop cuts the contents, or leaves them in front. -/
theorem adjustChunks_keeps (e : Env) (cs : List ChunkDesc) (n : Nat) (hf : ∀ ch ∈ cs, ch.fits) :
    (flat cs).take n <+: flat (adjustChunks e cs n).1 := by
  induction cs generalizing n with
  | nil => simp [adjustChunks]
  | cons ch rest ih =>
    have hl : ch.length = ch.data.length := rfl
    have hrest : ∀ ch ∈ rest, ch.fits := fun c hc => hf c (List.mem_cons_of_mem _ hc)
    unfold adjustChunks
    by_cases h0 : n = 0
    · simp [h0]
    rw [if_neg h0]
    simp only [flat_cons]
    by_cases hle : n ≤ ch.length
    · rw [if_pos hle]
      have hdata : (ch.resize e n).data = ch.data.take n := by
        simp only [ChunkDesc.resize, if_pos hle]
      rw [hdata, List.take_append_of_le_length (by omega)]
      exact List.prefix_append _ _
    rw [if_neg hle, List.take_append, List.take_of_length_le (by omega)]
    by_cases hlast : ch.size > 0 ∧ rest = []
    · rw [if_pos hlast, hlast.2]
      have hfit := hf ch List.mem_cons_self hlast.1
      have hdata : ch.data <+: (ch.resize e (min n ch.size)).data := by
        by_cases hsize : min n ch.size ≤ ch.length
        · have hsame : min n ch.size = ch.data.length := by omega
          simp only [ChunkDesc.resize, if_pos hsize]
          rw [hsame, List.take_length]
        · simp only [ChunkDesc.resize, if_neg hsize]
          exact List.prefix_append _ _
      rw [flat_nil, List.take_nil, List.append_nil]
      exact hdata.trans (List.prefix_append _ _)
    · rw [if_neg hlast, ← hl]
      exact List.prefix_append_right_inj _ |>.mpr (ih (n - ch.length) hrest)

theorem addChunks_keeps {e e' : Env} {room : Nat} {cs cs' : List ChunkDesc} {n : Nat} {err : Error}
    (h : addChunks e room cs n = (e', cs', err)) : flat cs <+: flat cs' := by
  induction room generalizing e cs n with
  | zero =>
    unfold addChunks at h
    split at h <;> (cases h; exact List.prefix_refl _)
  | succ room ih =>
    unfold addChunks at h
    split at h
    · cases h; exact List.prefix_refl _
    · simp only at h
      split at h
      · refine List.IsPrefix.trans ?_ (ih h)
        rw [flat_append]
        exact List.prefix_append _ _
      · cases h; exact List.prefix_refl _

/-- A new length leaves the bytes that both lengths have. -/
theorem netBufferSetLength_keeps {e e' : Env} {b b' : NetBuffer} {n : Nat} {err : Error}
    (hf : ∀ ch ∈ b.chunk, ch.fits) (h : netBufferSetLength e b n = (e', b', err)) :
    b.bytes.take n <+: b'.bytes := by
  have h1 := adjustChunks_keeps e b.chunk n hf
  simp only [netBufferSetLength, Prod.mk.injEq] at h
  obtain ⟨-, rfl, -⟩ := h
  exact h1.trans (addChunks_keeps rfl)

/-! ## The flat view -/

theorem netBufferAppend_bytes {b b' : NetBuffer} {src : List UInt8} (hn : src.length < 65536)
    (h : netBufferAppend b src = (b', .NO_ERROR)) : b'.bytes = b.bytes ++ src := by
  unfold netBufferAppend at h
  split at h
  · cases h
  · cases h
    show flat (b.chunk ++ [_]) = flat b.chunk ++ src
    rw [flat_append, flat_cons, flat_nil, List.append_nil, u16_of_lt hn, List.take_length]

/-- Every operation of a buffer is the one of its contents. -/
theorem netBuffer_flat (b : NetBuffer) :
    netBufferGetLength b = b.bytes.length ∧
    (∀ off n, netBufferRead b off n = (b.bytes.drop off).take n) ∧
    (∀ off src, (netBufferWrite b off src).bytes = overlay b.bytes off src) ∧
    (∀ off src sOff n, (netBufferCopy b off src sOff n).1.bytes =
      overlay b.bytes off ((src.bytes.drop sOff).take n)) ∧
    (∀ off, netBufferAt b off = none ↔ b.bytes.length ≤ off) ∧
    (∀ off pos, netBufferAt b off = some pos →
      (∃ ch, b.chunk[pos.1]? = some ch ∧ ch.data[pos.2]? = b.bytes[off]?) ∧
        ∀ v, (storeAt b pos v).bytes = b.bytes.set off v) ∧
    (∀ src sOff n b', netBufferConcat b src sOff n = (b', .NO_ERROR) →
      b'.bytes = b.bytes ++ (src.bytes.drop sOff).take n ∧ sOff + n ≤ src.bytes.length) ∧
    (∀ src b', src.length < 65536 → netBufferAppend b src = (b', .NO_ERROR) →
      b'.bytes = b.bytes ++ src) ∧
    (∀ e e' n b', (∀ ch ∈ b.chunk, ch.fits) → netBufferSetLength e b n = (e', b', .NO_ERROR) →
      b'.bytes.length = n ∧ b.bytes.take n <+: b'.bytes) := by
  refine ⟨netBufferGetLength_eq b, netBufferRead_eq b, netBufferWrite_overlay b,
    fun off src sOff n => netBufferCopy_overlay b src off sOff n, fun off => chunkAt_none _ _,
    fun off pos h => chunkAt_some h, fun src sOff n b' h => netBufferConcat_bytes h,
    fun src b' hn h => netBufferAppend_bytes hn h, ?_⟩
  intro e e' n b' hf h
  exact ⟨netBufferSetLength_ok h, netBufferSetLength_keeps hf h⟩

end Cyclone
