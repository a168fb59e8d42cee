import Mathlib.Tactic

/-!
# Ones

Sums of 16-bit words with end-around carry.

`Sums x t` says that `x` stands for the total `t`: the two agree modulo 65535, and only zero
stands for zero. A word below 65536 is determined by the total it stands for, so two ways to sum
agree as soon as both stand for the same total.
-/

namespace Ones

/-- The high half added to the low one. -/
def fold (x : Nat) : Nat := x % 65536 + x / 65536

/-- The two bytes of a word exchanged. -/
def swap (x : Nat) : Nat := x / 256 + x % 256 * 256

/-- The sum of two words, its carry added at the low end. -/
def add (a b : Nat) : Nat := fold (a + b)

/-- The end-around-carry sum of words. -/
def sum (ws : List Nat) : Nat := ws.foldl add 0

def Sums (x t : Nat) : Prop := x % 65535 = t % 65535 ∧ (x = 0 ↔ t = 0)

theorem Sums.refl (x : Nat) : Sums x x := ⟨rfl, Iff.rfl⟩

theorem Sums.symm {x t : Nat} (h : Sums x t) : Sums t x := ⟨h.1.symm, h.2.symm⟩

theorem Sums.trans {x y z : Nat} (h : Sums x y) (h' : Sums y z) : Sums x z :=
  ⟨h.1.trans h'.1, h.2.trans h'.2⟩

theorem Sums.add {x y s t : Nat} (h : Sums x s) (h' : Sums y t) : Sums (x + y) (s + t) := by
  obtain ⟨h1, h2⟩ := h
  obtain ⟨h3, h4⟩ := h'
  refine ⟨?_, by omega⟩
  rw [Nat.add_mod, h1, h3, ← Nat.add_mod]

theorem Sums.mul {x t : Nat} (h : Sums x t) (n : Nat) : Sums (n * x) (n * t) := by
  refine ⟨?_, ?_⟩
  · rw [Nat.mul_mod, h.1, ← Nat.mul_mod]
  · rw [Nat.mul_eq_zero, Nat.mul_eq_zero, h.2]

/-- Words that stand for one total are equal. -/
theorem Sums.eq {x y t : Nat} (h : Sums x t) (h' : Sums y t) (hx : x < 65536) (hy : y < 65536) :
    x = y := by
  obtain ⟨h1, h2⟩ := h
  obtain ⟨h3, h4⟩ := h'
  omega

theorem sums_fold (x : Nat) : Sums (fold x) x := by
  unfold fold
  refine ⟨?_, ?_⟩ <;> omega

/-- Exchanging the bytes multiplies by 256. -/
theorem sums_swap (x : Nat) : Sums (swap x) (256 * x) := by
  unfold swap
  refine ⟨?_, ?_⟩ <;> omega

/-- A carry out of 32 bits added at the low end. -/
theorem sums_carry {x w : Nat} (hx : x < 2 ^ 32) (hw : w < 2 ^ 32) :
    Sums (if (x + w) % 2 ^ 32 < x then (x + w) % 2 ^ 32 + 1 else (x + w) % 2 ^ 32) (x + w) := by
  split
  · refine ⟨?_, ?_⟩ <;> omega
  · refine ⟨?_, ?_⟩ <;> omega

theorem fold_le {x : Nat} (h : x < 2 ^ 32) : fold x ≤ 0x1FFFE := by
  unfold fold; omega

theorem fold_lt {x : Nat} (h : x ≤ 0x1FFFE) : fold x < 65536 := by
  unfold fold; omega

theorem swap_lt {x : Nat} (h : x < 65536) : swap x < 65536 := by
  unfold swap; omega

theorem sum_spec (ws : List Nat) (hw : ∀ w ∈ ws, w < 65536) :
    sum ws < 65536 ∧ Sums (sum ws) ws.sum := by
  suffices h : ∀ acc t, acc < 65536 → Sums acc t →
      ws.foldl add acc < 65536 ∧ Sums (ws.foldl add acc) (t + ws.sum) by
    have h0 := h 0 0 (by omega) (Sums.refl 0)
    rw [Nat.zero_add] at h0
    exact h0
  induction ws with
  | nil => intro acc t hacc ht; exact ⟨hacc, by simpa using ht⟩
  | cons w ws ih =>
    intro acc t hacc ht
    have hlt := hw w List.mem_cons_self
    have hstep : Sums (add acc w) (t + w) := (sums_fold _).trans (ht.add (Sums.refl w))
    have h := ih (fun v hv => hw v (List.mem_cons_of_mem _ hv)) (add acc w) (t + w)
      (fold_lt (by omega)) hstep
    rw [List.foldl_cons, List.sum_cons, ← Nat.add_assoc]
    exact h

/-! ## Complements -/

theorem compl_eq {x : Nat} (h : x < 65536) : x ^^^ 0xFFFF = 65535 - x := by
  have hbv : (BitVec.ofNat 16 x ^^^ BitVec.allOnes 16).toNat = 65535 - x := by
    rw [BitVec.xor_allOnes, BitVec.toNat_not, BitVec.toNat_ofNat, Nat.mod_eq_of_lt h]
  rw [← hbv, BitVec.toNat_xor, BitVec.toNat_ofNat, Nat.mod_eq_of_lt h]
  rfl

/-- A total, and the complement of the word that stands for it, stand for the largest word. -/
theorem sums_compl {x t : Nat} (h : Sums x t) (hx : x < 65536) :
    Sums 0xFFFF (t + (x ^^^ 0xFFFF)) := by
  rw [compl_eq hx]
  obtain ⟨h1, h2⟩ := h
  refine ⟨?_, ?_⟩ <;> omega

end Ones
