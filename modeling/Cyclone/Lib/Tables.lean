import Mathlib.Data.List.Basic

/-!
# Cyclone.Lib.Tables

Loops over a table that change one entry a turn.
-/

namespace Tables

/-- Where turn `i` makes `g i` of entry `i` and leaves the others, the loop makes `g i` of every
entry it comes to. -/
theorem loop_entries {σ ε : Type} (entry : σ → Nat → ε) (ok : σ → Prop) {f : σ → Nat → σ}
    (g : Nat → ε → ε) {n : Nat} (hok : ∀ s i, ok s → i < n → ok (f s i))
    (hf : ∀ s i j, ok s → i < n → entry (f s i) j = if j = i then g i (entry s i) else entry s j)
    {s : σ} (h : ok s) : ok ((List.range n).foldl f s) ∧
      ∀ j, entry ((List.range n).foldl f s) j = if j < n then g j (entry s j) else entry s j := by
  suffices H : ∀ m ≤ n, ok ((List.range m).foldl f s) ∧
      ∀ j, entry ((List.range m).foldl f s) j = if j < m then g j (entry s j) else entry s j from
    H n (Nat.le_refl n)
  intro m hm
  induction m with
  | zero => exact ⟨h, fun j => (if_neg (by omega)).symm⟩
  | succ m ih =>
    obtain ⟨hprev, hentry⟩ := ih (by omega)
    rw [List.range_succ, List.foldl_append]
    refine ⟨hok _ m hprev (by omega), fun j => ?_⟩
    have hstep := hf ((List.range m).foldl f s) m j hprev (by omega)
    simp only [List.foldl_cons, List.foldl_nil, hstep, hentry]
    by_cases hj : j = m
    · subst hj
      simp
    · have : j < m ↔ j < m + 1 := by omega
      simp [hj, this]

/-- The entry that is changed, and the others, where `d` stands for those behind the end. -/
theorem getD_modify {ε : Type} {l : List ε} {f : ε → ε} {d : ε} {i j : Nat} (hi : i < l.length) :
    (l.modify i f).getD j d = if j = i then f (l.getD i d) else l.getD j d := by
  by_cases h : j = i
  · subst h
    simp [List.getD, List.getElem?_eq_getElem hi]
  · simp [List.getD, h, Ne.symm h]

end Tables
