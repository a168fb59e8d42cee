import Mathlib

/-!
# Serial

Serial number arithmetic on 32-bit words: the distance of a number from a base, and the signed
comparison of two numbers that lie less than half the circle apart.

* `dist b s`: how far `s` is ahead of `b`, modulo `2 ^ 32`.
* `cmp a b`: the sign of `a - b` read as a two's complement number.
* `cmp_eq`: two numbers whose distances from one base differ by less than `2 ^ 31` compare as
  these distances do.
-/

namespace Serial

abbrev Word := BitVec 32

/-- How far `s` is ahead of the base `b`. -/
def dist (b s : Word) : Nat := (s - b).toNat

/-- Two's complement difference, the usual comparison of serial numbers. -/
def cmp (a b : Word) : Int := (a - b).toInt

variable {a b s t : Word} {n m : Nat}

theorem dist_lt (b s : Word) : dist b s < 2 ^ 32 := (s - b).isLt

@[simp] theorem dist_self (b : Word) : dist b b = 0 := by simp [dist]

theorem add_dist (b s : Word) : b + BitVec.ofNat 32 (dist b s) = s := by
  simp only [dist]; bv_omega

theorem eq_of_dist_eq (h : dist b s = dist b t) : s = t := by
  rw [← add_dist b s, ← add_dist b t, h]

theorem dist_eq_zero : dist b s = 0 ↔ s = b := by
  constructor
  · intro h; exact eq_of_dist_eq (h.trans (dist_self b).symm)
  · rintro rfl; exact dist_self _

theorem dist_add_ofNat (h : dist b s + n < 2 ^ 32) :
    dist b (s + BitVec.ofNat 32 n) = dist b s + n := by
  simp only [dist] at *; bv_omega

theorem dist_base_add (h : n < 2 ^ 32) : dist b (b + BitVec.ofNat 32 n) = n := by
  have := dist_add_ofNat (b := b) (s := b) (n := n) (by simpa using h)
  simpa using this

theorem dist_add_one (h : dist b s + 1 < 2 ^ 32) : dist b (s + 1) = dist b s + 1 :=
  dist_add_ofNat (n := 1) h

theorem dist_sub_one (h : 0 < dist b s) : dist b (s - 1) = dist b s - 1 := by
  simp only [dist] at *; bv_omega

theorem dist_sub_ofNat (h : n ≤ dist b s) : dist b (s - BitVec.ofNat 32 n) = dist b s - n := by
  have := dist_lt b s
  simp only [dist] at *; bv_omega

theorem sub_toNat (h : dist b t ≤ dist b s) : (s - t).toNat = dist b s - dist b t := by
  simp only [dist] at *; bv_omega

/-- Numbers less than half the circle apart compare as their distances from a common base. -/
theorem cmp_eq (h₁ : dist b s < dist b t + 2 ^ 31) (h₂ : dist b t ≤ dist b s + 2 ^ 31) :
    cmp s t = (dist b s : Int) - dist b t := by
  simp only [dist, cmp, BitVec.toInt_eq_toNat_cond] at *
  split <;> bv_omega

theorem cmp_self (a : Word) : cmp a a = 0 := by simp [cmp]

theorem cmp_eq_zero : cmp a b = 0 ↔ a = b := by
  constructor
  · intro h
    simp only [cmp, BitVec.toInt_eq_toNat_cond] at h
    split at h <;> bv_omega
  · rintro rfl; exact cmp_self _

/-- A non-negative comparison is the distance from the second number to the first. -/
theorem cmp_nonneg_iff : 0 ≤ cmp a b ↔ dist b a < 2 ^ 31 := by
  have := (a - b).isLt
  simp only [cmp, dist, BitVec.toInt_eq_toNat_cond]
  split <;> omega

theorem cmp_of_nonneg (h : 0 ≤ cmp a b) : cmp a b = dist b a := by
  have h31 := cmp_nonneg_iff.mp h
  simp only [cmp, dist, BitVec.toInt_eq_toNat_cond] at *
  split <;> omega

theorem cmp_neg_iff : cmp a b < 0 ↔ 2 ^ 31 ≤ dist b a := by
  have := @cmp_nonneg_iff a b
  omega

end Serial
