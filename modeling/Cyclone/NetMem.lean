import Cyclone.Types
import Cyclone.Lib.Ring

/-!
# Cyclone.NetMem

Memory and multi-part buffers (`net_mem.c`), and what the code takes from its surroundings.

`Env` answers the calls that leave the stack: memory, time, random numbers, the IP layer. Every
answer may depend on how many such calls came before it (`tick`), so a run may see any sequence
of answers.

A chunk holds its current bytes; a chunk that is allocated or that grows shows unspecified bytes
(`memFill`). The functions walk the chunk list as the code does, and each has a lemma over the
flat contents `bytes`:

* `netBufferRead_eq`, `netBufferWrite_bytes`, `netBufferCopy_bytes`, `netBufferConcat_bytes`.
* `netBufferSetLength_ok`: when it reports success the buffer has the requested length.
-/

namespace Cyclone

open Serial

/-- The answers of the operating system, the memory pool and the IP layer. -/
structure Env where
  clock : Nat → Word
  memAvail : Nat → Bool
  memFill : Nat → UInt8
  ipSend : Nat → Error
  rand : Nat → Word
  selectSourceAddr : Nat → Option NetInterface → IpAddr → Error × Option NetInterface × IpAddr
  linkState : NetInterface → Bool
  tick : Nat := 0

/-- `osGetSystemTime`. -/
def osGetSystemTime (e : Env) : Word := e.clock e.tick

/-- `memPoolAlloc`: whether the block was obtained. -/
def memPoolAlloc (e : Env) : Env × Bool :=
  ({ e with tick := e.tick + 1 }, e.memAvail e.tick)

/-- `netGetRand`. -/
def netGetRand (e : Env) : Env × Word :=
  ({ e with tick := e.tick + 1 }, e.rand e.tick)

structure ChunkDesc where
  data : List UInt8
  size : Nat
  deriving DecidableEq, Repr

def ChunkDesc.length (ch : ChunkDesc) : Nat := ch.data.length

structure NetBuffer where
  chunk : List ChunkDesc := []
  maxChunkCount : Nat := 0
  deriving DecidableEq, Repr

namespace NetBuffer

def chunkCount (b : NetBuffer) : Nat := b.chunk.length

/-- The contents of a chunk list, one chunk after the other. -/
def flat (cs : List ChunkDesc) : List UInt8 := cs.flatMap ChunkDesc.data

def bytes (b : NetBuffer) : List UInt8 := flat b.chunk

@[simp] theorem flat_nil : flat [] = [] := rfl

@[simp] theorem flat_cons (ch : ChunkDesc) (cs : List ChunkDesc) :
    flat (ch :: cs) = ch.data ++ flat cs := by simp [flat]

@[simp] theorem flat_append (cs ds : List ChunkDesc) : flat (cs ++ ds) = flat cs ++ flat ds := by
  simp [flat]

end NetBuffer

open NetBuffer

def netBufferGetLength (b : NetBuffer) : Nat := (b.chunk.map ChunkDesc.length).sum

theorem netBufferGetLength_eq (b : NetBuffer) : netBufferGetLength b = b.bytes.length := by
  cases b with
  | mk cs m =>
    simp only [netBufferGetLength, bytes]
    induction cs with
    | nil => rfl
    | cons ch cs ih => simp [ih, ChunkDesc.length]

/-! ## Changing the length -/

/-- A chunk cut or extended to `n` bytes. -/
def ChunkDesc.resize (e : Env) (ch : ChunkDesc) (n : Nat) : ChunkDesc :=
  { ch with data := if n ≤ ch.length then ch.data.take n
                    else ch.data ++ (List.range (n - ch.length)).map fun _ => e.memFill e.tick }

/-- The first loop of `netBufferSetLength`: adjusts the chunks while bytes remain and drops the
chunks after the last byte. Returns the bytes still missing. -/
def adjustChunks (e : Env) : List ChunkDesc → Nat → List ChunkDesc × Nat
  | [], length => ([], length)
  | ch :: rest, length =>
    if length = 0 then ([], 0)
    else
      let ch' :=
        if length ≤ ch.length then ch.resize e length
        else if ch.size > 0 ∧ rest = [] then ch.resize e (min length ch.size)
        else ch
      let (rest', left) := adjustChunks e rest (length - ch'.length)
      (ch' :: rest', left)

/-- The second loop: adds chunks, at most `room` of them, while bytes are missing. -/
def addChunks (e : Env) : Nat → List ChunkDesc → Nat → Env × List ChunkDesc × Error
  | room, cs, length =>
    if length = 0 then (e, cs, .NO_ERROR)
    else match room with
      | 0 => (e, cs, .OUT_OF_RESOURCES)
      | room + 1 =>
        let (e', ok) := memPoolAlloc e
        if ok then
          let n := min length NET_MEM_POOL_BUFFER_SIZE
          let ch : ChunkDesc := ⟨(List.range n).map fun _ => e.memFill e.tick,
            NET_MEM_POOL_BUFFER_SIZE⟩
          addChunks e' room (cs ++ [ch]) (length - n)
        else (e', cs, .OUT_OF_MEMORY)

def netBufferSetLength (e : Env) (b : NetBuffer) (length : Nat) : Env × NetBuffer × Error :=
  let (cs, left) := adjustChunks e b.chunk length
  let (e', cs', error) := addChunks e (b.maxChunkCount - cs.length) cs left
  (e', { b with chunk := cs' }, error)

theorem length_resize (e : Env) (ch : ChunkDesc) (n : Nat) : (ch.resize e n).length = n := by
  by_cases h : n ≤ ch.length
  · simp only [ChunkDesc.resize, if_pos h]
    simp only [ChunkDesc.length] at h ⊢
    simp; omega
  · simp only [ChunkDesc.resize, if_neg h]
    simp only [ChunkDesc.length] at h ⊢
    simp; omega

theorem adjustChunks_length (e : Env) (cs : List ChunkDesc) (n : Nat) :
    (flat (adjustChunks e cs n).1).length + (adjustChunks e cs n).2 = n := by
  induction cs generalizing n with
  | nil => simp [adjustChunks]
  | cons ch rest ih =>
    unfold adjustChunks
    by_cases h0 : n = 0
    · simp [h0]
    · rw [if_neg h0]
      simp only [flat_cons, List.length_append]
      set ch' := if n ≤ ch.length then ch.resize e n
        else if ch.size > 0 ∧ rest = [] then ch.resize e (min n ch.size) else ch with hch
      have hle : ch'.length ≤ n := by
        rw [hch]
        split
        · rw [length_resize]
        · split
          · rw [length_resize]; omega
          · omega
      have := ih (n - ch'.length)
      have hd : ch'.data.length = ch'.length := rfl
      omega

theorem addChunks_ok {e e' : Env} {room : Nat} {cs cs' : List ChunkDesc} {n : Nat}
    (h : addChunks e room cs n = (e', cs', .NO_ERROR)) :
    (flat cs').length = (flat cs).length + n := by
  induction room generalizing e cs n with
  | zero =>
    unfold addChunks at h
    split at h
    · cases h; omega
    · cases h
  | succ room ih =>
    unfold addChunks at h
    split at h
    · cases h; omega
    · simp only at h
      split at h
      · rw [ih h, flat_append, List.length_append, flat_cons, flat_nil, List.append_nil,
          List.length_map, List.length_range]
        omega
      · cases h

theorem netBufferSetLength_ok {e e' : Env} {b b' : NetBuffer} {n : Nat}
    (h : netBufferSetLength e b n = (e', b', .NO_ERROR)) : b'.bytes.length = n := by
  have h1 := adjustChunks_length e b.chunk n
  simp only [netBufferSetLength, Prod.mk.injEq] at h
  obtain ⟨-, rfl, herr⟩ := h
  have h2 := @addChunks_ok e _ (b.maxChunkCount - (adjustChunks e b.chunk n).1.length)
    (adjustChunks e b.chunk n).1 _ (adjustChunks e b.chunk n).2 (Prod.ext rfl (Prod.ext rfl herr))
  simp only [bytes]
  rw [h2]
  omega

@[simp] theorem addChunks_zero (e : Env) (room : Nat) (cs : List ChunkDesc) :
    addChunks e room cs 0 = (e, cs, .NO_ERROR) := by
  cases room <;> rfl

/-- Cutting a buffer to length zero always succeeds and leaves no chunk. -/
theorem netBufferSetLength_zero (e : Env) (b : NetBuffer) :
    netBufferSetLength e b 0 = (e, { b with chunk := [] }, .NO_ERROR) := by
  cases b with
  | mk cs m => cases cs <;> simp [netBufferSetLength, adjustChunks]

/-! ## Reading and writing -/

/-- The loop of `netBufferRead`: the bytes copied out. -/
def readChunks : List ChunkDesc → Nat → Nat → List UInt8
  | [], _, _ => []
  | ch :: rest, srcOffset, length =>
    if length = 0 then []
    else if srcOffset < ch.length then
      let n := min length (ch.length - srcOffset)
      (ch.data.drop srcOffset).take n ++ readChunks rest 0 (length - n)
    else readChunks rest (srcOffset - ch.length) length

/-- Bytes copied out of the buffer; their number is the value `netBufferRead` returns. -/
def netBufferRead (src : NetBuffer) (srcOffset length : Nat) : List UInt8 :=
  readChunks src.chunk srcOffset length

theorem readChunks_eq (cs : List ChunkDesc) (off n : Nat) :
    readChunks cs off n = ((flat cs).drop off).take n := by
  induction cs generalizing off n with
  | nil => simp [readChunks]
  | cons ch rest ih =>
    have hl : ch.length = ch.data.length := rfl
    unfold readChunks
    by_cases h0 : n = 0
    · simp [h0]
    · rw [if_neg h0]
      by_cases h : off < ch.length
      · rw [if_pos h, flat_cons]
        simp only [ih, List.drop_zero]
        rw [List.drop_append_of_le_length (by omega), List.take_append, List.length_drop, ← hl]
        rcases Nat.le_total n (ch.length - off) with h1 | h1
        · rw [Nat.min_eq_left h1, Nat.sub_self, Nat.sub_eq_zero_of_le h1]
        · rw [Nat.min_eq_right h1]
          congr 1
          rw [List.take_of_length_le (by simp [hl]), List.take_of_length_le (by simp; omega)]
      · have hd : List.drop off ch.data = [] := List.drop_eq_nil_of_le (by omega)
        rw [if_neg h, ih, flat_cons, List.drop_append, hd, hl, List.nil_append]

theorem netBufferRead_eq (src : NetBuffer) (off n : Nat) :
    netBufferRead src off n = (src.bytes.drop off).take n := readChunks_eq _ _ _

/-- Overwrite part of a chunk. -/
def ChunkDesc.write (ch : ChunkDesc) (off : Nat) (src : List UInt8) : ChunkDesc :=
  { ch with data := Ring.splice ch.data off src }

/-- The loop of `netBufferWrite`. -/
def writeChunks : List ChunkDesc → Nat → List UInt8 → List ChunkDesc
  | [], _, _ => []
  | ch :: rest, destOffset, src =>
    if src.length = 0 then ch :: rest
    else if destOffset < ch.length then
      let n := min src.length (ch.length - destOffset)
      ch.write destOffset (src.take n) :: writeChunks rest 0 (src.drop n)
    else ch :: writeChunks rest (destOffset - ch.length) src

def netBufferWrite (dest : NetBuffer) (destOffset : Nat) (src : List UInt8) : NetBuffer :=
  { dest with chunk := writeChunks dest.chunk destOffset src }

theorem splice_append_right {xs zs ys : List UInt8} {off : Nat} (h : xs.length ≤ off) :
    Ring.splice (xs ++ zs) off ys = xs ++ Ring.splice zs (off - xs.length) ys := by
  unfold Ring.splice
  rw [List.take_append, List.drop_append, List.take_of_length_le h,
    List.drop_eq_nil_of_le (by omega), show off + ys.length - xs.length
      = off - xs.length + ys.length by omega]
  simp

theorem splice_append_cross {xs zs ys : List UInt8} {off n : Nat} (h : off ≤ xs.length)
    (hn : n = xs.length - off) (hy : n ≤ ys.length) :
    Ring.splice (xs ++ zs) off ys
      = Ring.splice xs off (ys.take n) ++ Ring.splice zs 0 (ys.drop n) := by
  unfold Ring.splice
  rw [List.take_append_of_le_length h, List.drop_append, List.drop_eq_nil_of_le (by omega)]
  have h1 : (List.take n ys).length = n := by simp; omega
  have h2 : (List.drop n ys).length = ys.length - n := by simp
  have h3 : List.drop (off + n) xs = [] := List.drop_eq_nil_of_le (by omega)
  rw [h1, h2, h3]
  simp only [List.nil_append, List.take_zero, List.append_nil, Nat.zero_add, List.append_assoc]
  rw [← List.append_assoc (List.take n ys), List.take_append_drop,
    show off + ys.length - xs.length = ys.length - n by omega]

theorem splice_append_left {xs zs ys : List UInt8} {off : Nat} (h : off + ys.length ≤ xs.length) :
    Ring.splice (xs ++ zs) off ys = Ring.splice xs off ys ++ zs := by
  unfold Ring.splice
  rw [List.take_append_of_le_length (by omega), List.drop_append_of_le_length h]
  simp

theorem writeChunks_flat (cs : List ChunkDesc) (off : Nat) (src : List UInt8)
    (h : off + src.length ≤ (flat cs).length) :
    flat (writeChunks cs off src) = Ring.splice (flat cs) off src := by
  induction cs generalizing off src with
  | nil =>
    have h1 : off = 0 := by simp at h; omega
    have h2 : src = [] := by simp at h; exact h.2
    subst h1 h2; simp [writeChunks]
  | cons ch rest ih =>
    have hl : ch.length = ch.data.length := rfl
    unfold writeChunks
    simp only [flat_cons, List.length_append] at h
    by_cases h0 : src.length = 0
    · rw [if_pos h0, List.length_eq_zero_iff.mp h0]; simp
    · rw [if_neg h0]
      by_cases h1 : off < ch.length
      · rw [if_pos h1]
        rcases Nat.le_total src.length (ch.length - off) with h2 | h2
        · have h3 : List.drop src.length src = [] := by simp
          simp only [Nat.min_eq_left h2, List.take_length, h3, flat_cons, ChunkDesc.write]
          rw [ih 0 [] (by simp), Ring.splice_nil, splice_append_left (by omega)]
        · simp only [Nat.min_eq_right h2, flat_cons, ChunkDesc.write]
          rw [ih 0 _ (by simp; omega), splice_append_cross (by omega) (by rw [hl]) h2]
      · rw [if_neg h1, flat_cons, ih _ _ (by omega), flat_cons, splice_append_right (by omega), hl]

theorem netBufferWrite_bytes {dest : NetBuffer} {off : Nat} {src : List UInt8}
    (h : off + src.length ≤ dest.bytes.length) :
    (netBufferWrite dest off src).bytes = Ring.splice dest.bytes off src :=
  writeChunks_flat _ _ _ h

/-! ## Concatenation and copy -/

/-- Skips whole chunks: the chunk that holds `offset`, with the rest, and the offset in it. -/
def skipChunks : List ChunkDesc → Nat → Option (List ChunkDesc × Nat)
  | [], _ => none
  | ch :: rest, offset =>
    if offset < ch.length then some (ch :: rest, offset) else skipChunks rest (offset - ch.length)

/-- The copy loop of `netBufferConcat`: descriptors that borrow the source bytes are appended
while the destination has room for them. Returns the bytes not yet covered. -/
def concatChunks (room : Nat) : List ChunkDesc → Nat → Nat → List ChunkDesc × Nat
  | [], _, length => ([], length)
  | ch :: rest, srcOffset, length =>
    if length = 0 then ([], 0)
    else match room with
      | 0 => ([], length)
      | room + 1 =>
        let n := min length (ch.length - srcOffset)
        let (cs, left) := concatChunks room rest 0 (length - n)
        (⟨(ch.data.drop srcOffset).take n, 0⟩ :: cs, left)

def netBufferConcat (dest src : NetBuffer) (srcOffset length : Nat) : NetBuffer × Error :=
  match skipChunks src.chunk srcOffset with
  | none => (dest, .INVALID_PARAMETER)
  | some (cs, off) =>
    let (ds, left) := concatChunks (dest.maxChunkCount - dest.chunkCount) cs off length
    ({ dest with chunk := dest.chunk ++ ds }, if left > 0 then .FAILURE else .NO_ERROR)

theorem skipChunks_some {cs ds : List ChunkDesc} {off o : Nat}
    (h : skipChunks cs off = some (ds, o)) :
    (flat cs).drop off = (flat ds).drop o ∧ (flat ds).length = (flat cs).length - off + o ∧
      o < (flat ds).length := by
  induction cs generalizing off with
  | nil => cases h
  | cons ch rest ih =>
    have hl : ch.length = ch.data.length := rfl
    unfold skipChunks at h
    split at h
    · cases h
      refine ⟨rfl, ?_, ?_⟩ <;> simp <;> omega
    · obtain ⟨h1, h2, h3⟩ := ih h
      refine ⟨?_, ?_, h3⟩
      · rw [← h1, flat_cons, List.drop_append, List.drop_eq_nil_of_le (by omega), hl]; rfl
      · rw [h2, flat_cons, List.length_append]; omega

theorem skipChunks_none {cs : List ChunkDesc} {off : Nat} (h : skipChunks cs off = none) :
    (flat cs).length ≤ off := by
  induction cs generalizing off with
  | nil => simp
  | cons ch rest ih =>
    have hl : ch.length = ch.data.length := rfl
    unfold skipChunks at h
    split at h
    · cases h
    · have := ih h; simp; omega

theorem concatChunks_flat {room : Nat} {cs : List ChunkDesc} {off n : Nat}
    (ho : off ≤ (flat cs).length)
    (h : (concatChunks room cs off n).2 = 0) (hoff : ∀ ch ∈ cs.head?, off ≤ ch.length) :
    flat (concatChunks room cs off n).1 = ((flat cs).drop off).take n ∧
      n ≤ (flat cs).length - off := by
  induction cs generalizing room off n with
  | nil =>
    simp only [concatChunks] at h
    subst h; simp [concatChunks]
  | cons ch rest ih =>
    have hl : ch.length = ch.data.length := rfl
    unfold concatChunks at h ⊢
    by_cases h0 : n = 0
    · simp [h0]
    · rw [if_neg h0] at h ⊢
      cases room with
      | zero => exact absurd h h0
      | succ room =>
        simp only at h ⊢
        obtain ⟨h1, h2⟩ := ih (Nat.zero_le _) h (by simp)
        have ho' : off ≤ ch.length := hoff ch (by simp)
        have ht : n ≤ ch.length - off → n - min n (ch.length - off) = 0 := by omega
        refine ⟨?_, ?_⟩
        · rw [flat_cons, h1, flat_cons]
          have := readChunks_eq (ch :: rest) off n
          rw [flat_cons] at this
          rw [← this]
          unfold readChunks
          rw [if_neg h0]
          by_cases hlt : off < ch.length
          · rw [if_pos hlt]
            simp only [readChunks_eq, List.drop_zero]
          · have he : off = ch.length := by omega
            rw [if_neg hlt, readChunks_eq]
            simp [he]
        · rw [flat_cons, List.length_append]; simp at h2; omega

theorem netBufferConcat_bytes {dest src dest' : NetBuffer} {off n : Nat}
    (h : netBufferConcat dest src off n = (dest', .NO_ERROR)) :
    dest'.bytes = dest.bytes ++ (src.bytes.drop off).take n ∧ off + n ≤ src.bytes.length := by
  unfold netBufferConcat at h
  cases hs : skipChunks src.chunk off with
  | none => rw [hs] at h; cases h
  | some p =>
    obtain ⟨cs, o⟩ := p
    rw [hs] at h
    obtain ⟨h1, h2, h3⟩ := skipChunks_some hs
    simp only [Prod.mk.injEq] at h
    obtain ⟨rfl, herr⟩ := h
    have hz : (concatChunks (dest.maxChunkCount - dest.chunkCount) cs o n).2 = 0 := by
      by_contra hne
      rw [if_pos (by omega)] at herr; cases herr
    have hhead : ∀ ch ∈ cs.head?, o ≤ ch.length := by
      intro ch hch
      clear h1 h2 h3 hz herr
      generalize src.chunk = l at hs
      induction l generalizing off with
      | nil => cases hs
      | cons c l ih =>
        unfold skipChunks at hs
        split at hs
        · cases hs; simp at hch; subst hch; omega
        · exact ih hs
    obtain ⟨h4, h5⟩ := concatChunks_flat (by omega) hz hhead
    refine ⟨?_, ?_⟩
    · show flat (dest.chunk ++ _) = _
      rw [flat_append, h4, ← h1]; rfl
    · show off + n ≤ (flat src.chunk).length
      have : (flat src.chunk).length ≥ off := by
        by_contra hlt
        have hnil := congrArg List.length h1
        simp at hnil; omega
      omega

/-- The copy loop of `netBufferCopy`, over the chunks left on each side and the offsets in their
first chunks. A turn finishes the copy or leaves a chunk, so `fuel` bounds both lists together. -/
def copyChunks : Nat → List ChunkDesc → Nat → List ChunkDesc → Nat → Nat → List ChunkDesc × Nat
  | fuel + 1, dc :: ds, destOffset, sc :: ss, srcOffset, length =>
    if length = 0 then (dc :: ds, 0)
    else
      let n := min length (min (dc.length - destOffset) (sc.length - srcOffset))
      let dc' := dc.write destOffset ((sc.data.drop srcOffset).take n)
      let (ss', srcOffset') :=
        if srcOffset + n ≥ sc.length then (ss, 0) else (sc :: ss, srcOffset + n)
      if destOffset + n ≥ dc.length then
        let (ds', left) := copyChunks fuel ds 0 ss' srcOffset' (length - n)
        (dc' :: ds', left)
      else copyChunks fuel (dc' :: ds) (destOffset + n) ss' srcOffset' (length - n)
  | _, ds, _, _, _, length => (ds, length)

/-- The chunks before the one that holds `offset`. -/
def chunksBefore (cs : List ChunkDesc) (offset : Nat) : List ChunkDesc :=
  match cs with
  | [] => []
  | ch :: rest => if offset < ch.length then [] else ch :: chunksBefore rest (offset - ch.length)

def netBufferCopy (dest : NetBuffer) (destOffset : Nat) (src : NetBuffer) (srcOffset length : Nat) :
    NetBuffer × Error :=
  match skipChunks dest.chunk destOffset, skipChunks src.chunk srcOffset with
  | some (ds, dOff), some (ss, sOff) =>
    let (ds', left) := copyChunks (ds.length + ss.length) ds dOff ss sOff length
    ({ dest with chunk := chunksBefore dest.chunk destOffset ++ ds' },
      if left > 0 then .FAILURE else .NO_ERROR)
  | _, _ => (dest, .INVALID_PARAMETER)

theorem chunksBefore_append {cs ds : List ChunkDesc} {off o : Nat}
    (h : skipChunks cs off = some (ds, o)) :
    chunksBefore cs off ++ ds = cs ∧ off = (flat (chunksBefore cs off)).length + o := by
  induction cs generalizing off with
  | nil => cases h
  | cons ch rest ih =>
    have hl : ch.length = ch.data.length := rfl
    unfold skipChunks at h
    unfold chunksBefore
    split at h
    · rename_i hlt
      cases h; rw [if_pos hlt]; simp
    · rename_i hlt
      obtain ⟨h1, h2⟩ := ih h
      rw [if_neg hlt]
      refine ⟨by rw [List.cons_append, h1], ?_⟩
      rw [flat_cons, List.length_append]; omega

theorem length_write {ch : ChunkDesc} {off : Nat} {ys : List UInt8}
    (h : off + ys.length ≤ ch.length) : (ch.write off ys).length = ch.length := by
  simp only [ChunkDesc.write, ChunkDesc.length] at *
  rw [Ring.length_splice h]

/-- What is copied in one turn of the loop fits both chunks. -/
theorem copy_turn {dc sc : ChunkDesc} {dOff sOff len n : Nat}
    (hn : n = min len (min (dc.length - dOff) (sc.length - sOff))) (hd : dOff ≤ dc.length)
    (hs : sOff ≤ sc.length) :
    ((sc.data.drop sOff).take n).length = n ∧ dOff + n ≤ dc.length ∧ sOff + n ≤ sc.length ∧
      n ≤ len := by
  have hl : sc.length = sc.data.length := rfl
  refine ⟨by simp; omega, by omega, by omega, by omega⟩

theorem copyChunks_flat (fuel : Nat) : ∀ (d : List ChunkDesc) (dOff : Nat) (s : List ChunkDesc)
    (sOff len : Nat), (len = 0 ∨ d.length + s.length ≤ fuel) →
    (∀ ch ∈ d.head?, dOff ≤ ch.length) → (∀ ch ∈ s.head?, sOff ≤ ch.length) →
    dOff + len ≤ (flat d).length → sOff + len ≤ (flat s).length →
    flat (copyChunks fuel d dOff s sOff len).1
      = Ring.splice (flat d) dOff (((flat s).drop sOff).take len) := by
  induction fuel with
  | zero =>
    intro d dOff s sOff len hf _ _ hD hS
    have h0 : len = 0 := by
      rcases hf with h | h
      · exact h
      · have : d = [] := List.length_eq_zero_iff.mp (by omega)
        subst this; simp at hD; exact hD.2
    subst h0
    simp [copyChunks]
  | succ fuel ih =>
    intro d dOff s sOff len hf hd hs hD hS
    by_cases h0 : len = 0
    · subst h0
      have : (copyChunks (fuel + 1) d dOff s sOff 0).1 = d := by
        unfold copyChunks; split <;> simp_all
      rw [this]; simp
    match d, s, hf, hd, hs, hD, hS with
    | [], _, _, _, _, hD, _ => simp at hD; exact absurd hD.2 h0
    | _ :: _, [], _, _, _, _, hS => simp at hS; exact absurd hS.2 h0
    | dc :: ds, sc :: ss, hf, hd, hs, hD, hS =>
      have hdl : dc.length = dc.data.length := rfl
      have hsl : sc.length = sc.data.length := rfl
      have hd' : dOff ≤ dc.length := hd dc (by simp)
      have hs' : sOff ≤ sc.length := hs sc (by simp)
      have hf' : ds.length + ss.length + 2 ≤ fuel + 1 := by simp at hf; omega
      simp only [flat_cons, List.length_append] at hD hS
      unfold copyChunks
      rw [if_neg h0]
      simp only
      generalize hn : min len (min (dc.length - dOff) (sc.length - sOff)) = n
      obtain ⟨hlen, hdn, hsn, hnl⟩ := copy_turn hn.symm hd' hs'
      generalize hss : (if sOff + n ≥ sc.length then (ss, 0) else (sc :: ss, sOff + n)) = p
      -- the source bytes still to copy, seen from the new source position
      have hsrc : (flat p.1).drop p.2 = (flat (sc :: ss)).drop (sOff + n) ∧
          p.2 + (len - n) ≤ (flat p.1).length ∧ (∀ ch ∈ p.1.head?, p.2 ≤ ch.length) ∧
          p.1.length ≤ ss.length + 1 ∧ (sOff + n ≥ sc.length → p.1.length = ss.length) := by
        rw [← hss]
        split
        · have hnil : List.drop (sOff + n) sc.data = [] := List.drop_eq_nil_of_le (by omega)
          refine ⟨?_, by simp; omega, by simp, by simp, fun _ => rfl⟩
          rw [flat_cons, List.drop_append, hnil, show sOff + n - sc.data.length = 0 by omega]
          simp
        · refine ⟨rfl, by simp; omega, by simpa using by omega, by simp, fun h => by omega⟩
      obtain ⟨hp1, hp2, hp3, hp4, hp5⟩ := hsrc
      have hX : ((flat (sc :: ss)).drop sOff).take len
          = (sc.data.drop sOff).take n ++ ((flat p.1).drop p.2).take (len - n) := by
        rw [hp1, ← List.drop_drop]
        conv_lhs => rw [← List.take_append_drop n (List.take len _)]
        rw [List.take_take, Nat.min_eq_left hnl, List.drop_take, flat_cons,
          List.drop_append_of_le_length (by omega), List.take_append_of_le_length (by simp; omega)]
      have hwl : (dc.write dOff ((sc.data.drop sOff).take n)).length = dc.length :=
        length_write (by omega)
      have hwf : flat (dc.write dOff ((sc.data.drop sOff).take n) :: ds)
          = Ring.splice (flat (dc :: ds)) dOff ((sc.data.drop sOff).take n) := by
        rw [flat_cons, flat_cons, splice_append_left (by omega)]; rfl
      have hsp := Ring.splice_splice (flat (dc :: ds)) ((sc.data.drop sOff).take n)
        (((flat p.1).drop p.2).take (len - n)) dOff (by simp; omega)
      rw [hX, ← hsp, ← hwf, hlen]
      by_cases hA : dOff + n ≥ dc.length
      · rw [if_pos hA, flat_cons, flat_cons,
          ih ds 0 p.1 p.2 (len - n) (by omega) (by simp) hp3 (by omega) hp2,
          splice_append_right (by rw [← ChunkDesc.length, hwl]; omega)]
        rw [show dOff + n - (dc.write dOff ((sc.data.drop sOff).take n)).data.length = 0 by
          rw [← ChunkDesc.length, hwl]; omega]
      · rw [if_neg hA]
        refine ih _ _ p.1 p.2 (len - n) ?_ (by simp [hwl]; omega) hp3 ?_ hp2
        · by_cases hB : sOff + n ≥ sc.length
          · right; rw [List.length_cons, hp5 hB]; omega
          · left; omega
        · rw [flat_cons, List.length_append, ← ChunkDesc.length, hwl]; omega

theorem copyChunks_length (fuel : Nat) : ∀ (d : List ChunkDesc) (dOff : Nat) (s : List ChunkDesc)
    (sOff len : Nat), (∀ ch ∈ d.head?, dOff ≤ ch.length) → (∀ ch ∈ s.head?, sOff ≤ ch.length) →
    (flat (copyChunks fuel d dOff s sOff len).1).length = (flat d).length := by
  induction fuel with
  | zero => intro d dOff s sOff len _ _; simp [copyChunks]
  | succ fuel ih =>
    intro d dOff s sOff len hd hs
    match d, s, hd, hs with
    | [], _, _, _ => simp [copyChunks]
    | _ :: _, [], _, _ => simp [copyChunks]
    | dc :: ds, sc :: ss, hd, hs =>
      have hd' : dOff ≤ dc.length := hd dc (by simp)
      have hs' : sOff ≤ sc.length := hs sc (by simp)
      unfold copyChunks
      split
      · rfl
      · simp only
        generalize hn : min len (min (dc.length - dOff) (sc.length - sOff)) = n
        obtain ⟨hlen, hdn, hsn, -⟩ := copy_turn hn.symm hd' hs'
        generalize hss : (if sOff + n ≥ sc.length then (ss, 0) else (sc :: ss, sOff + n)) = p
        have hp : ∀ ch ∈ p.1.head?, p.2 ≤ ch.length := by
          rw [← hss]; split
          · simp
          · simpa using by omega
        have hwl : (dc.write dOff ((sc.data.drop sOff).take n)).length = dc.length :=
          length_write (by omega)
        have hwl' : (dc.write dOff ((sc.data.drop sOff).take n)).data.length = dc.data.length := hwl
        split
        · simp only [flat_cons, List.length_append, hwl', ih ds 0 p.1 p.2 (len - n) (by simp) hp]
        · rw [ih _ _ p.1 p.2 (len - n) (by simp [hwl]; omega) hp]
          simp [hwl']

theorem skipChunks_head {cs ds : List ChunkDesc} {off o : Nat}
    (h : skipChunks cs off = some (ds, o)) : ∀ ch ∈ ds.head?, o ≤ ch.length := by
  induction cs generalizing off with
  | nil => cases h
  | cons c l ih =>
    unfold skipChunks at h
    split at h
    · cases h; simp; omega
    · exact ih h

theorem netBufferCopy_length (dest : NetBuffer) (dOff : Nat) (src : NetBuffer) (sOff n : Nat) :
    (netBufferCopy dest dOff src sOff n).1.bytes.length = dest.bytes.length := by
  unfold netBufferCopy
  split
  · rename_i ds o ss o' hd hs
    have h1 := copyChunks_length (ds.length + ss.length) ds o ss o' n (skipChunks_head hd)
      (skipChunks_head hs)
    have h2 := (chunksBefore_append hd).1
    show (flat (_ ++ _)).length = (flat dest.chunk).length
    rw [flat_append, List.length_append, h1, ← List.length_append, ← flat_append, h2]
  · rfl

/-- A copy inside both buffers overwrites exactly the addressed bytes. -/
theorem netBufferCopy_bytes {dest src : NetBuffer} {dOff sOff n : Nat}
    (hd : dOff + n ≤ dest.bytes.length) (hs : sOff + n ≤ src.bytes.length) :
    (netBufferCopy dest dOff src sOff n).1.bytes
      = Ring.splice dest.bytes dOff ((src.bytes.drop sOff).take n) := by
  unfold netBufferCopy
  split
  · rename_i ds o ss o' hdk hsk
    obtain ⟨h1, h2⟩ := chunksBefore_append hdk
    obtain ⟨h3, h4⟩ := chunksBefore_append hsk
    have hD : dest.bytes = flat (chunksBefore dest.chunk dOff) ++ flat ds := by
      rw [← flat_append, h1]; rfl
    have hS : src.bytes = flat (chunksBefore src.chunk sOff) ++ flat ss := by
      rw [← flat_append, h3]; rfl
    have hDl := congrArg List.length hD
    have hSl := congrArg List.length hS
    rw [List.length_append] at hDl hSl
    have hc := copyChunks_flat (ds.length + ss.length) ds o ss o' n (.inr (Nat.le_refl _))
      (skipChunks_head hdk) (skipChunks_head hsk) (by omega) (by omega)
    have hnil : List.drop sOff (flat (chunksBefore src.chunk sOff)) = [] :=
      List.drop_eq_nil_of_le (by omega)
    show flat (_ ++ _) = _
    rw [flat_append, hc, hD, splice_append_right (by omega),
      show dOff - (flat (chunksBefore dest.chunk dOff)).length = o by omega, hS,
      List.drop_append, hnil, List.nil_append,
      show sOff - (flat (chunksBefore src.chunk sOff)).length = o' by omega]
  · rename_i hno
    have h0 : n = 0 := by
      cases hdk : skipChunks dest.chunk dOff with
      | none => have := skipChunks_none hdk; simp only [bytes] at hd; omega
      | some p =>
        cases hsk : skipChunks src.chunk sOff with
        | none => have := skipChunks_none hsk; simp only [bytes] at hs; omega
        | some q => exact absurd hsk (hno p.1 p.2 q.1 q.2 hdk)
    simp [h0]

theorem netBufferWrite_length (dest : NetBuffer) (off : Nat) (src : List UInt8) :
    (netBufferWrite dest off src).bytes.length = dest.bytes.length := by
  cases dest with
  | mk cs m =>
    simp only [netBufferWrite, bytes]
    induction cs generalizing off src with
    | nil => simp [writeChunks]
    | cons ch rest ih =>
      unfold writeChunks
      split
      · rfl
      · split
        · have hw : (ch.write off (src.take (min src.length (ch.length - off)))).length
              = ch.length := length_write (by simp; omega)
          have hw' : (ch.write off (src.take (min src.length (ch.length - off)))).data.length
              = ch.data.length := hw
          simp only [flat_cons, List.length_append, hw', ih]
        · simp only [flat_cons, List.length_append, ih]

/-! ## Buffers for outgoing datagrams -/

/-- `ipAllocBuffer`: a buffer whose single chunk leaves room for the lower headers and holds
`header`. -/
def ipAllocBuffer (e : Env) (header : List UInt8) : Env × Option NetBuffer :=
  let (e', ok) := memPoolAlloc e
  if ok then (e', some ⟨[⟨header, 0⟩], MAX_CHUNK_COUNT⟩) else (e', none)

/-- `netBufferAppend`. The descriptor keeps the length in 16 bits. -/
def netBufferAppend (dest : NetBuffer) (src : List UInt8) : NetBuffer × Error :=
  if dest.chunkCount ≥ dest.maxChunkCount then (dest, .FAILURE)
  else ({ dest with chunk := dest.chunk ++ [⟨src.take (u16 src.length), 0⟩] }, .NO_ERROR)

end Cyclone
