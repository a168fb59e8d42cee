import Mathlib.Data.List.MinMax

/-!
# Cyclone.Lib.Ranking

Comparison by a list of rules, of which the first that tells two things apart decides.

* `Decides.negTrans`: rules that rank what they compare do so together.
* `scan_best`: a scan that keeps the best so far ends with one that nothing beats.
-/

namespace Ranking

variable {α : Type}

/-- `r a b` says that `a` ranks before `b`. -/
structure Ranks (r : α → α → Prop) : Prop where
  asymm {a b : α} : r a b → ¬ r b a
  negTrans {a b c : α} : ¬ r a b → ¬ r b c → ¬ r a c

/-- The rules put `a` before `b`: the first one that tells them apart does. -/
def Decides : List (α → α → Prop) → α → α → Prop
  | [], _, _ => False
  | r :: rs, a, b => r a b ∨ ¬ r b a ∧ Decides rs a b

namespace Ranks

variable {r : α → α → Prop}

theorem irrefl (h : Ranks r) (a : α) : ¬ r a a := fun ha => h.asymm ha ha

theorem trans (h : Ranks r) {a b c : α} (hab : r a b) (hbc : r b c) : r a c := by
  by_contra hac
  exact h.negTrans hac (h.asymm hbc) hab

/-- What ranks before something ranks before all that this does not rank behind. -/
theorem trans_left (h : Ranks r) {a b c : α} (hab : r a b) (hcb : ¬ r c b) : r a c := by
  by_contra hac
  exact h.negTrans hac hcb hab

theorem trans_right (h : Ranks r) {a b c : α} (hba : ¬ r b a) (hbc : r b c) : r a c := by
  by_contra hac
  exact h.negTrans hba hac hbc

theorem of_measure {β : Type} [LinearOrder β] (f : α → β) (h : ∀ a b, r a b ↔ f b < f a) :
    Ranks r where
  asymm hab := by rw [h] at hab ⊢; exact not_lt.mpr hab.le
  negTrans hab hbc := by rw [h, not_lt] at *; exact hab.trans hbc

end Ranks

theorem decides_ranks {rs : List (α → α → Prop)} (h : ∀ r ∈ rs, Ranks r) : Ranks (Decides rs) := by
  induction rs with
  | nil => exact ⟨fun hab => hab.elim, fun _ _ hac => hac⟩
  | cons r rs ih =>
    have hr : Ranks r := h r (by simp)
    have hrs : Ranks (Decides rs) := ih fun r' hr' => h r' (by simp [hr'])
    constructor
    · rintro a b (hab | ⟨hba, hab⟩) (hba' | ⟨hab', hba'⟩)
      · exact hr.asymm hab hba'
      · exact hab' hab
      · exact hba hba'
      · exact hrs.asymm hab hba'
    · intro a b c hab hbc hac
      simp only [Decides, not_or, not_and] at hab hbc
      rcases hac with hac | ⟨hca, hac⟩
      · exact hr.negTrans hab.1 hbc.1 hac
      · -- neither `b` nor `c` is told apart from `a` by the rule, so the later ones decide
        by_cases hba : r b a
        · exact hca (hr.trans_right hbc.1 hba)
        by_cases hcb : r c b
        · exact hca (hr.trans_left hcb hab.1)
        exact hrs.negTrans (hab.2 hba) (hbc.2 hcb) hac

/-- Nothing puts the one before the other. -/
def Ties (r : α → α → Prop) (a b : α) : Prop := ¬ r a b ∧ ¬ r b a

/-- The scan keeps the best so far, the earlier one where nothing tells the two apart. -/
def scan (r : α → α → Prop) [DecidableRel r] (l : List α) : Option α := l.foldl (List.argAux r) none

variable {r : α → α → Prop} [DecidableRel r] {l : List α} {a : α}

theorem argAux_some (a b : α) :
    List.argAux r (some a) b = if r b a then some b else some a := rfl

theorem scan_concat (l : List α) (a : α) : scan r (l ++ [a]) = List.argAux r (scan r l) a := by
  rw [scan, List.foldl_append]
  rfl

theorem scan_eq_none : scan r l = none ↔ l = [] := by
  rw [scan, List.foldl_argAux_eq_none, and_iff_left rfl]

theorem scan_mem (h : scan r l = some a) : a ∈ l := by
  induction l using List.reverseRecOn generalizing a with
  | nil => cases h
  | append_singleton l b ih =>
    rw [scan_concat] at h
    cases hl : scan r l with
    | none =>
      rw [hl] at h
      simp [Option.some.inj h]
    | some c =>
      rw [hl] at h
      simp only [List.argAux] at h
      split at h
      · simp [Option.some.inj h]
      · simp [← Option.some.inj h, ih hl]

theorem scan_best (irrefl : ∀ a, ¬ r a a) (trans : ∀ a b c, r a b → r b c → r a c)
    (h : scan r l = some a) : ∀ b ∈ l, ¬ r b a :=
  fun _ hb => List.not_of_mem_foldl_argAux r ⟨irrefl⟩ ⟨trans⟩ hb h

end Ranking
