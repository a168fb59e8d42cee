import Mathlib

/-!
# Keyed

Tables of a fixed size whose entries in use have different keys.

* `Keyed used key xs`: no two entries in use share a key.
* `Keyed.set`, `Keyed.free`, `Keyed.map`: what replacing, freeing and changing entries keeps.
* `freshAt_of_find`: what a search that fails says about a key.
-/

namespace KeyTable

variable {α κ : Type*}

/-- The entries in use have different keys. -/
def Keyed (used : α → Prop) (key : α → κ) (xs : List α) : Prop :=
  ∀ (i j : Nat) (a b : α), xs[i]? = some a → xs[j]? = some b → used a → used b → key a = key b →
    i = j

/-- No entry in use, at another place than `i`, has the key. -/
def FreshAt (used : α → Prop) (key : α → κ) (xs : List α) (i : Nat) (k : κ) : Prop :=
  ∀ (j : Nat) (b : α), j ≠ i → xs[j]? = some b → used b → key b ≠ k

variable {used : α → Prop} {key : α → κ} {xs : List α} {i : Nat} {a : α} {k : κ}

theorem getElem?_set_cases {j : Nat} {b : α} (h : (xs.set i a)[j]? = some b) :
    j = i ∧ b = a ∨ j ≠ i ∧ xs[j]? = some b := by
  rw [List.getElem?_set] at h
  split at h
  · rename_i hij
    split at h
    · exact .inl ⟨hij.symm, (Option.some.inj h).symm⟩
    · cases h
  · rename_i hij
    exact .inr ⟨Ne.symm hij, h⟩

/-- An entry gets a value whose key no other entry has. -/
theorem Keyed.set (h : Keyed used key xs) (hfresh : used a → FreshAt used key xs i (key a)) :
    Keyed used key (xs.set i a) := by
  intro m n b c hb hc hub huc hkey
  rcases getElem?_set_cases hb with ⟨rfl, rfl⟩ | ⟨hm, hb'⟩
  · rcases getElem?_set_cases hc with ⟨rfl, rfl⟩ | ⟨hn, hc'⟩
    · rfl
    · exact absurd hkey.symm (hfresh hub n c hn hc' huc)
  · rcases getElem?_set_cases hc with ⟨rfl, rfl⟩ | ⟨hn, hc'⟩
    · exact absurd hkey (hfresh huc m b hm hb' hub)
    · exact h m n b c hb' hc' hub huc hkey

/-- An entry in use keeps its key. -/
theorem Keyed.keep {b : α} (h : Keyed used key xs) (hi : xs[i]? = some b) (hu : used b)
    (hk : key a = key b) : Keyed used key (xs.set i a) := by
  refine h.set fun _ j c hj hc huc heq => hj ?_
  exact h j i c b hc hi huc hu (heq.trans hk)

/-- Entries may go out of use; the others keep their keys. -/
theorem Keyed.map {f : α → α} (h : Keyed used key xs) (hf : ∀ a, used (f a) → used a)
    (hk : ∀ a, key (f a) = key a) : Keyed used key (xs.map f) := by
  intro m n b c hb hc hub huc hkey
  rw [List.getElem?_map] at hb hc
  obtain ⟨b', hb', rfl⟩ := Option.map_eq_some_iff.mp hb
  obtain ⟨c', hc', rfl⟩ := Option.map_eq_some_iff.mp hc
  rw [hk, hk] at hkey
  exact h m n b' c' hb' hc' (hf b' hub) (hf c' huc) hkey

/-- A search that fails leaves the key free everywhere. -/
theorem freshAt_of_find {p : α → Bool} (hp : ∀ a, used a → key a = k → p a = true)
    (h : xs.findIdx? p = none) (i : Nat) : FreshAt used key xs i k := by
  intro j b _ hb hu hkey
  have hnone := List.findIdx?_eq_none_iff.mp h b (List.mem_of_getElem? hb)
  rw [hp b hu hkey] at hnone
  cases hnone

/-- The key stays free when an entry is replaced that does not have it. -/
theorem FreshAt.set {j : Nat} (h : FreshAt used key xs i k) (ha : used a → key a ≠ k) :
    FreshAt used key (xs.set j a) i k := by
  intro m b hm hb hu
  rcases getElem?_set_cases hb with ⟨rfl, rfl⟩ | ⟨-, hb⟩
  · exact ha hu
  · exact h m b hm hb hu

theorem keyed_replicate {n : Nat} (ha : ¬used a) : Keyed used key (List.replicate n a) := by
  intro m _ b _ hb _ hub _ _
  obtain rfl := List.eq_of_mem_replicate (List.mem_of_getElem? hb)
  exact absurd hub ha

end KeyTable
