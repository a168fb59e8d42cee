import Mathlib

/-!
# Chunks

Lists cut into pieces of one size, and stores into a buffer.

* `chunk size l n`: piece `n` of `l`, counted from zero; the last piece is short or empty.
* `take_chunk`, `take_chunk_last`: the pieces before piece `n` together with it.
* `chunk_append`: a full piece stays as it is while the list grows.
* `store`: a list written over part of a buffer.
-/

namespace Chunks

variable {α : Type*} {size n : Nat} {l r : List α}

def chunk (size : Nat) (l : List α) (n : Nat) : List α := (l.drop (size * n)).take size

theorem length_chunk : (chunk size l n).length = min size (l.length - size * n) := by
  simp [chunk]

theorem length_chunk_le : (chunk size l n).length ≤ size := by
  rw [length_chunk]
  exact Nat.min_le_left _ _

theorem take_chunk (size : Nat) (l : List α) (n : Nat) :
    l.take (size * n) ++ chunk size l n = l.take (size * (n + 1)) := by
  rw [Nat.mul_add_one, List.take_add, chunk]

theorem take_add_length (size : Nat) (l : List α) (n : Nat) :
    l.take (size * n + (chunk size l n).length) = l.take (size * n) ++ chunk size l n := by
  rw [List.take_add, chunk, List.length_take, ← List.take_eq_take_min]

theorem chunk_append (h : size * (n + 1) ≤ l.length) : chunk size (l ++ r) n = chunk size l n := by
  rw [Nat.mul_add_one] at h
  rw [chunk, chunk, List.drop_append_of_le_length (by omega),
    List.take_append_of_le_length (by rw [List.length_drop]; omega)]

theorem chunk_rest (h : l.length ≤ size * (n + 1)) : chunk size l n = l.drop (size * n) := by
  refine List.take_of_length_le ?_
  rw [List.length_drop]
  rw [Nat.mul_add_one] at h
  omega

/-- Only the last piece is short. -/
theorem chunk_short (h : (chunk size l n).length < size) : l.length < size * (n + 1) := by
  rw [length_chunk] at h
  rw [Nat.mul_add_one]
  omega

theorem take_chunk_last (h : (chunk size l n).length < size) :
    l.take (size * n) ++ chunk size l n = l := by
  rw [take_chunk]
  exact List.take_of_length_le (chunk_short h).le

/-- `data` written over `buffer` from `pos` on. -/
def store (buffer : List α) (pos : Nat) (data : List α) : List α :=
  buffer.take pos ++ data ++ buffer.drop (pos + data.length)

variable {buffer data : List α} {pos : Nat}

theorem length_store (h : pos + data.length ≤ buffer.length) :
    (store buffer pos data).length = buffer.length := by
  simp only [store, List.length_append, List.length_take, List.length_drop]
  omega

variable (data) in
theorem take_store (h : pos ≤ buffer.length) :
    (store buffer pos data).take (pos + data.length) = buffer.take pos ++ data := by
  rw [store, List.take_append_of_le_length (by simp [h])]
  exact List.take_of_length_le (by simp [h])

theorem drop_store_zero : (store buffer 0 data).drop data.length = buffer.drop data.length := by
  rw [store, List.take_zero, List.nil_append, List.drop_left, Nat.zero_add]

theorem store_end : store buffer buffer.length data = buffer ++ data := by
  rw [store, List.take_length, List.drop_of_length_le (by omega), List.append_nil]

end Chunks
