import Cyclone.Lib.Serial

/-!
# Clock

A clock of 32 bits that wraps, and the instants it stands for.

* `instantNear now w`: the instant nearest to `now` at which the clock shows `w`.
* `instantNear_later`: an instant stays the same one for half a turn of the clock.
-/

namespace Clock

open Serial

/-- What the clock shows at an instant. -/
def shown (now : Nat) : Word := BitVec.ofNat 32 now

/-- The instant at which the clock shows `w`, at most half a turn from `now`. -/
def instantNear (now : Nat) (w : Word) : Int := now - (shown now - w).toInt

variable {now later : Nat} {w : Word}

/-- The sign bit of the difference tells whether the instant has come. -/
theorem instantNear_le : instantNear now w ≤ now ↔ (shown now - w).msb = false := by
  have h : (shown now - w).msb = decide ((shown now - w).toInt < 0) := BitVec.msb_eq_toInt
  simp only [instantNear]
  rw [h, decide_eq_false_iff_not]
  omega

theorem instantNear_bounds (now : Nat) (w : Word) :
    now - 2 ^ 31 < instantNear now w ∧ instantNear now w ≤ now + 2 ^ 31 := by
  have h1 := BitVec.le_toInt (shown now - w)
  have h2 : (shown now - w).toInt < 2 ^ 31 := BitVec.toInt_lt
  simp only [instantNear]
  omega

/-- The clock shows `w` at that instant. -/
theorem instantNear_emod (now : Nat) (w : Word) : instantNear now w % 2 ^ 32 = w.toNat := by
  have h : (shown now - w).toInt = ((shown now - w).toNat : Int) ∨
      (shown now - w).toInt = ((shown now - w).toNat : Int) - 2 ^ 32 := by
    rw [BitVec.toInt_eq_toNat_cond]
    split
    · exact .inl rfl
    · exact .inr rfl
  have hsub : (shown now - w).toNat = (2 ^ 32 - w.toNat + now % 2 ^ 32) % 2 ^ 32 := by
    rw [BitVec.toNat_sub, shown, BitVec.toNat_ofNat]
  have hw := w.isLt
  simp only [instantNear]
  omega

/-- The instant is determined by its half turn and what the clock shows. -/
theorem instantNear_unique {x : Int} (hx : x % 2 ^ 32 = w.toNat) (hlow : now - 2 ^ 31 < x)
    (hhigh : x ≤ now + 2 ^ 31) : instantNear now w = x := by
  have h1 := instantNear_emod now w
  have h2 := instantNear_bounds now w
  omega

theorem instantNear_later (h : now ≤ later) (hreach : later < instantNear now w + 2 ^ 31) :
    instantNear later w = instantNear now w := by
  have hbounds := instantNear_bounds now w
  exact instantNear_unique (instantNear_emod now w) (by omega) (by omega)

/-- The instant a delay after now. -/
theorem instantNear_add {delay : Word} (h : delay.toNat ≤ 2 ^ 31) :
    instantNear now (shown now + delay) = now + delay.toNat := by
  refine instantNear_unique ?_ (by omega) (by omega)
  rw [BitVec.toNat_add, shown, BitVec.toNat_ofNat]
  omega

/-- What is left until an instant that has not come. -/
theorem remaining_eq (h : now < instantNear now w) :
    ((w - shown now).toNat : Int) = instantNear now w - now := by
  have h1 := instantNear_emod now w
  have h2 := instantNear_bounds now w
  have hsub : (w - shown now).toNat = (2 ^ 32 - now % 2 ^ 32 + w.toNat) % 2 ^ 32 := by
    rw [BitVec.toNat_sub, shown, BitVec.toNat_ofNat]
  rw [hsub]
  omega

end Clock
