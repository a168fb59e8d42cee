import Cyclone.Lib.Ring

/-!
# Moves

Moving blocks inside a list of fixed length: `move` copies a block of the list over another place
of it, which may overlap the first.

* `splice_mid`: a block in the middle, written over.
* `move_up`, `move_down`: a gap opened before a block, a block closed up over a gap.
* `drop_splice`, `drop_move`: what lies behind the block written over stays.
-/

namespace Ring

variable {α : Type*}

/-- The `n` elements from `src` on, copied to `dst`. -/
def move (xs : List α) (dst src n : Nat) : List α := splice xs dst ((xs.drop src).take n)

theorem splice_mid (front mid back ys : List α) (h : mid.length = ys.length) :
    splice (front ++ mid ++ back) front.length ys = front ++ ys ++ back := by
  have htake : (front ++ mid ++ back).take front.length = front := by
    rw [List.append_assoc]
    exact List.take_left' rfl
  have hdrop : (front ++ mid ++ back).drop (front.length + ys.length) = back :=
    List.drop_left' (by rw [List.length_append, h])
  rw [splice, htake, hdrop]

/-- The block the move copies. -/
theorem block_eq (front block back : List α) :
    ((front ++ block ++ back).drop front.length).take block.length = block := by
  rw [List.append_assoc, List.drop_left' rfl, List.take_left' rfl]

/-- What lies behind the elements written over stays. -/
theorem drop_splice {xs ys : List α} {off m : Nat} (h : off + ys.length ≤ m) (hm : m ≤ xs.length) :
    (splice xs off ys).drop m = xs.drop m := by
  have hoff : (xs.take off).length = off := by simp; omega
  rw [splice, List.append_assoc, List.drop_append, hoff, List.drop_append, List.drop_drop]
  rw [List.drop_of_length_le (by omega), List.drop_of_length_le (by omega)]
  simp only [List.nil_append]
  congr 1
  omega

/-- What was written is read back. -/
theorem block_splice (xs ys : List α) {off : Nat} (h : off ≤ xs.length) :
    ((splice xs off ys).drop off).take ys.length = ys := by
  have hoff : (xs.take off).length = off := by simp; omega
  rw [splice, List.append_assoc, List.drop_left' hoff, List.take_left' rfl]

theorem length_move {xs : List α} {dst src n : Nat} (hd : dst + n ≤ xs.length) :
    (move xs dst src n).length = xs.length := by
  rw [move, length_splice]
  simp
  omega

theorem drop_move {xs : List α} {dst src n m : Nat} (hd : dst + n ≤ m) (hm : m ≤ xs.length) :
    (move xs dst src n).drop m = xs.drop m := by
  rw [move, drop_splice _ hm]
  simp
  omega

/-- The block that was moved is read back at its new place. -/
theorem block_move {xs : List α} {dst src n : Nat} (hs : src + n ≤ xs.length)
    (hd : dst ≤ xs.length) : ((move xs dst src n).drop dst).take n = (xs.drop src).take n := by
  have hlen : ((xs.drop src).take n).length = n := by simp; omega
  have := block_splice xs ((xs.drop src).take n) hd
  rwa [hlen] at this

/-- A gap of `n` elements is opened before a block; what the gap shows is not said. -/
theorem move_up (front block junk : List α) {n : Nat} (h : n ≤ junk.length) :
    ∃ gap, gap.length = n ∧
      move (front ++ block ++ junk) (front.length + n) front.length block.length =
        front ++ gap ++ block ++ junk.drop n := by
  refine ⟨(block ++ junk).take n, by simp; omega, ?_⟩
  rw [move, block_eq]
  have hsplit : front ++ block ++ junk =
      (front ++ (block ++ junk).take n) ++ ((block ++ junk).drop n).take block.length ++
        junk.drop n := by
    have hrest : ((block ++ junk).drop n).take block.length ++ junk.drop n =
        (block ++ junk).drop n := by
      conv_rhs => rw [← List.take_append_drop block.length ((block ++ junk).drop n)]
      rw [List.drop_drop, Nat.add_comm n, ← List.drop_drop, List.drop_left' rfl]
    simp only [List.append_assoc] at hrest ⊢
    rw [hrest, List.take_append_drop]
  have hlen : front.length + n = (front ++ (block ++ junk).take n).length := by
    simp; omega
  rw [hsplit, hlen, splice_mid _ _ _ _ (by simp; omega)]

/-- A block is closed up over a gap before it; what is left behind it is not said. -/
theorem move_down (front gap block junk : List α) :
    ∃ rest, rest.length = gap.length + junk.length ∧
      move (front ++ gap ++ block ++ junk) front.length (front.length + gap.length) block.length =
        front ++ block ++ rest := by
  have hblock : ((front ++ gap ++ block ++ junk).drop (front.length + gap.length)).take
      block.length = block := by
    rw [← List.length_append]
    exact block_eq (front ++ gap) block junk
  refine ⟨(gap ++ block ++ junk).drop block.length, by simp; omega, ?_⟩
  rw [move, hblock]
  have hsplit : front ++ gap ++ block ++ junk =
      front ++ (gap ++ block ++ junk).take block.length ++
        (gap ++ block ++ junk).drop block.length := by
    rw [List.append_assoc front ((gap ++ block ++ junk).take block.length),
      List.take_append_drop]
    simp only [List.append_assoc]
  rw [hsplit, splice_mid _ _ _ _ (by simp; omega)]

end Ring
