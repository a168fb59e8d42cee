import Mathlib

/-!
# Ring

A list used as a circular store: position `k` of an unbounded stream lives in slot
`k % size`. `write` and `read` split a block that crosses the end in two.

* `splice xs off ys`: `xs` with `ys` written at `off`.
* `slot_write_in`, `slot_write_out`: what a write does to the slots of the stream positions in
  the block and to the others less than one turn away.
* `read_getElem?`: a block read holds the slots of its stream positions.
-/

namespace Ring

variable {α : Type*}

/-- `xs` with `ys` written over it from index `off` on. -/
def splice (xs : List α) (off : Nat) (ys : List α) : List α :=
  xs.take off ++ ys ++ xs.drop (off + ys.length)

@[simp] theorem length_splice {xs ys : List α} {off : Nat} (h : off + ys.length ≤ xs.length) :
    (splice xs off ys).length = xs.length := by
  simp [splice]; omega

@[simp] theorem splice_nil (xs : List α) (off : Nat) : splice xs off [] = xs := by
  simp [splice]

theorem splice_getElem? {xs ys : List α} {off i : Nat} (h : off + ys.length ≤ xs.length) :
    (splice xs off ys)[i]? = if off ≤ i ∧ i < off + ys.length then ys[i - off]? else xs[i]? := by
  have hoff : (xs.take off).length = off := by simp; omega
  unfold splice
  by_cases h1 : i < off
  · rw [List.append_assoc, List.getElem?_append_left (by omega), List.getElem?_take,
      if_pos h1, if_neg (by omega)]
  · by_cases h2 : i < off + ys.length
    · rw [List.append_assoc, List.getElem?_append_right (by omega), hoff,
        List.getElem?_append_left (by omega), if_pos ⟨by omega, h2⟩]
    · rw [List.getElem?_append_right (by simp; omega), if_neg (by omega), List.getElem?_drop]
      congr 1
      simp; omega

/-- Two adjacent blocks written one after the other. -/
theorem splice_splice (xs ys zs : List α) (off : Nat) (h : off + ys.length ≤ xs.length) :
    splice (splice xs off ys) (off + ys.length) zs = splice xs off (ys ++ zs) := by
  have h1 : (xs.take off ++ ys).length = off + ys.length := by simp; omega
  unfold splice
  rw [List.take_append_of_le_length (by omega), ← h1, List.take_length, h1, List.drop_append,
    List.drop_eq_nil_of_le (by omega), List.nil_append, h1, List.drop_drop,
    show off + ys.length + (off + ys.length + zs.length - (off + ys.length))
      = off + (ys ++ zs).length by simp; omega]
  simp

/-- Write a block at stream position `p`, in one or two pieces. -/
def write (size : Nat) (xs : List α) (p : Nat) (ys : List α) : List α :=
  let off := p % size
  if off + ys.length ≤ size then splice xs off ys
  else splice (splice xs off (ys.take (size - off))) 0 (ys.drop (size - off))

/-- Read `n` positions from stream position `p` on, in one or two pieces. -/
def read (size : Nat) (xs : List α) (p n : Nat) : List α :=
  let off := p % size
  if off + n ≤ size then (xs.drop off).take n
  else (xs.drop off).take (size - off) ++ xs.take (n - (size - off))

variable {size p n k : Nat} {xs ys : List α}

@[simp] theorem length_write (hs : xs.length = size) (hy : ys.length ≤ size) (h0 : 0 < size) :
    (write size xs p ys).length = size := by
  have hoff := Nat.mod_lt p h0
  unfold write
  simp only
  split
  · rw [length_splice (by omega), hs]
  · have h1 : (splice xs (p % size) (ys.take (size - p % size))).length = size := by
      rw [length_splice (by simp; omega), hs]
    rw [length_splice (by simp; omega), h1]

/-- Slot `i` after a write: the block covers the slots less than its length ahead of `p`. -/
theorem write_getElem? (hs : xs.length = size) (hy : ys.length ≤ size) (h0 : 0 < size) {i : Nat}
    (hi : i < size) :
    (write size xs p ys)[i]? =
      if (i + size - p % size) % size < ys.length then ys[(i + size - p % size) % size]?
      else xs[i]? := by
  have hoff := Nat.mod_lt p h0
  have hd : (i + size - p % size) % size =
      if p % size ≤ i then i - p % size else i + size - p % size := by
    split
    · rw [show i + size - p % size = (i - p % size) + size by omega, Nat.add_mod_right,
        Nat.mod_eq_of_lt (by omega)]
    · rw [Nat.mod_eq_of_lt (by omega)]
  rw [hd]
  unfold write
  simp only
  split
  · rename_i h
    rw [splice_getElem? (by omega)]
    by_cases h1 : p % size ≤ i
    · simp only [h1, if_true, true_and]
      by_cases h2 : i < p % size + ys.length
      · rw [if_pos h2, if_pos (by omega)]
      · rw [if_neg h2, if_neg (by omega)]
    · simp only [h1, if_false, false_and]
      rw [if_neg (by omega)]
  · rename_i h
    rw [splice_getElem? (by rw [length_splice] <;> simp <;> omega), splice_getElem? (by simp; omega)]
    simp only [Nat.zero_le, true_and, Nat.zero_add, List.length_drop, List.length_take,
      Nat.sub_zero]
    by_cases h1 : p % size ≤ i
    · rw [if_neg (by omega), if_pos (by omega), if_pos h1, if_pos (by omega),
        List.getElem?_take, if_pos (by omega)]
    · rw [if_neg (show ¬(p % size ≤ i ∧ _) by omega), if_neg h1]
      by_cases h2 : i < ys.length - (size - p % size)
      · rw [if_pos h2, if_pos (by omega), List.getElem?_drop]
        congr 1; omega
      · rw [if_neg h2, if_neg (by omega)]

theorem mod_dist (h0 : 0 < size) (hk : p ≤ k) :
    (k % size + size - p % size) % size = (k - p) % size := by
  have hp := Nat.mod_lt p h0
  have hk' := Nat.mod_lt k h0
  have e1 := Nat.div_add_mod p size
  have e2 := Nat.div_add_mod k size
  have key : (k % size + size - p % size) + size * (k / size) = (k - p) + size * (p / size + 1) := by
    rw [Nat.mul_add]; omega
  have := congrArg (· % size) key
  simpa [Nat.add_mul_mod_self_left] using this

/-- The positions of the block hold the block. -/
theorem slot_write_in (hs : xs.length = size) (hy : ys.length ≤ size) (h0 : 0 < size)
    (h1 : p ≤ k) (h2 : k < p + ys.length) : (write size xs p ys)[k % size]? = ys[k - p]? := by
  have hd : (k % size + size - p % size) % size = k - p := by
    rw [mod_dist h0 h1, Nat.mod_eq_of_lt (by omega)]
  rw [write_getElem? hs hy h0 (Nat.mod_lt _ h0), hd, if_pos (by omega)]

/-- Positions outside the block and less than one turn from it keep their slots. -/
theorem slot_write_out (hs : xs.length = size) (hy : ys.length ≤ size) (h0 : 0 < size)
    (h : k < p ∧ p + ys.length ≤ k + size ∨ p + ys.length ≤ k ∧ k < p + size) :
    (write size xs p ys)[k % size]? = xs[k % size]? := by
  have hm : k % size = (k + size) % size := by simp
  have hge : ys.length ≤ (k % size + size - p % size) % size := by
    rcases h with ⟨h1, h2⟩ | ⟨h1, h2⟩
    · rw [hm, mod_dist h0 (by omega), Nat.mod_eq_of_lt (by omega)]; omega
    · rw [mod_dist h0 (by omega), Nat.mod_eq_of_lt (by omega)]; omega
  rw [write_getElem? hs hy h0 (Nat.mod_lt _ h0), if_neg (by omega)]

theorem length_read (hs : xs.length = size) (hn : n ≤ size) (h0 : 0 < size) :
    (read size xs p n).length = n := by
  have hoff := Nat.mod_lt p h0
  unfold read
  simp only
  split <;> simp <;> omega

theorem read_getElem? (hs : xs.length = size) (hn : n ≤ size) (h0 : 0 < size) {j : Nat}
    (hj : j < n) : (read size xs p n)[j]? = xs[(p + j) % size]? := by
  have hoff := Nat.mod_lt p h0
  have hpj : (p + j) % size = if p % size + j < size then p % size + j else p % size + j - size := by
    have hj' : j % size = j := Nat.mod_eq_of_lt (by omega)
    rw [Nat.add_mod, hj']
    split
    · exact Nat.mod_eq_of_lt (by omega)
    · rw [Nat.mod_eq_sub_mod (by omega), Nat.mod_eq_of_lt (by omega)]
  rw [hpj]
  unfold read
  simp only
  split
  · rw [List.getElem?_take, if_pos (by omega), List.getElem?_drop, if_pos (by omega)]
  · by_cases h1 : p % size + j < size
    · rw [List.getElem?_append_left (by simp; omega), List.getElem?_take, if_pos (by omega),
        List.getElem?_drop, if_pos h1]
    · rw [List.getElem?_append_right (by simp; omega), List.getElem?_take, if_neg h1]
      simp only [List.length_take, List.length_drop]
      rw [if_pos (by omega)]
      congr 1; omega

/-- A write looks at its position only through the slot. -/
theorem write_congr {p p' : Nat} (h : p % size = p' % size) (xs ys : List α) :
    write size xs p ys = write size xs p' ys := by
  unfold write
  rw [h]

theorem read_congr {p p' : Nat} (h : p % size = p' % size) (xs : List α) (n : Nat) :
    read size xs p n = read size xs p' n := by
  unfold read
  rw [h]

@[simp] theorem read_zero (size : Nat) (xs : List α) (p : Nat) : read size xs p 0 = [] := by
  unfold read
  simp only
  split
  · exact List.take_zero
  · rename_i h
    have h0 : size - p % size = 0 := by omega
    rw [h0, List.take_zero, Nat.zero_sub, List.take_zero, List.append_nil]

@[simp] theorem write_nil (size : Nat) (xs : List α) (p : Nat) : write size xs p [] = xs := by
  unfold write
  simp only [List.take_nil, List.drop_nil, splice_nil, ite_self]

/-- Reading part of the block just written. -/
theorem read_write (hs : xs.length = size) (hy : ys.length ≤ size) (h0 : 0 < size) {j : Nat}
    (hj : j + n ≤ ys.length) : read size (write size xs p ys) (p + j) n = (ys.drop j).take n := by
  have hw := length_write (p := p) hs hy h0
  have hn : n ≤ size := by omega
  have hr := length_read (p := p + j) hw hn h0
  refine List.ext_getElem? fun i => ?_
  by_cases hi : i < n
  · rw [read_getElem? hw hn h0 hi, slot_write_in hs hy h0 (by omega) (by omega),
      List.getElem?_take, if_pos hi, List.getElem?_drop]
    congr 1
    omega
  · rw [List.getElem?_eq_none (by omega), List.getElem?_eq_none (by simp; omega)]

/-- A write leaves a block alone that shares no position with it, both inside one window. -/
theorem read_write_disjoint {zs : List α} {i j : Nat} (hs : xs.length = size) (h0 : 0 < size)
    (hi : i + n ≤ size) (hj : j + zs.length ≤ size) (hd : i + n ≤ j ∨ j + zs.length ≤ i) :
    read size (write size xs (p + j) zs) (p + i) n = read size xs (p + i) n := by
  have hw := length_write (p := p + j) hs (by omega : zs.length ≤ size) h0
  have hn : n ≤ size := by omega
  have hr := length_read (p := p + i) hw hn h0
  have hr' := length_read (p := p + i) hs hn h0
  refine List.ext_getElem? fun k => ?_
  by_cases hk : k < n
  · rw [read_getElem? hw hn h0 hk, read_getElem? hs hn h0 hk,
      slot_write_out hs (by omega) h0 (by omega)]
  · rw [List.getElem?_eq_none (by omega), List.getElem?_eq_none (by omega)]

end Ring
