import Mathlib.Data.List.Nodup
import Mathlib.Logic.Function.Basic

/-!
# Links

Singly linked lists in a store. `next none` is the head of the list and `next (some p)` the link
kept at position `p`.

* `Linked next a ps t`: the links after `a` lead through `ps` to `t`.
* `Linked.remove`, `Linked.insert`: the node after `a` taken out, a new one put there.
* `Linked.relink`: what a change of the last link leaves of the part before it.
-/

namespace Links

variable {α : Type*}

def Linked (next : Option α → α) : Option α → List α → α → Prop
  | a, [], t => next a = t
  | a, p :: ps, t => next a = p ∧ Linked next (some p) ps t

variable {next next' : Option α → α} {a : Option α} {ps : List α} {p x t : α}

/-- Only the links of the visited positions matter. -/
theorem Linked.congr (h : Linked next a ps t) (ha : next' a = next a)
    (hps : ∀ q ∈ ps, next' (some q) = next (some q)) : Linked next' a ps t := by
  induction ps generalizing a with
  | nil => exact ha.trans h
  | cons p ps ih =>
    obtain ⟨h1, h2⟩ := h
    exact ⟨ha.trans h1, ih h2 (hps p (by simp)) fun q hq => hps q (List.mem_cons_of_mem p hq)⟩

/-- The node after `a` is taken out. -/
theorem Linked.remove (h : Linked next a (p :: ps) t) (ha : next' a = next (some p))
    (hps : ∀ q ∈ ps, next' (some q) = next (some q)) : Linked next' a ps t := by
  cases ps with
  | nil => exact ha.trans h.2
  | cons q qs =>
    obtain ⟨-, h2, h3⟩ := h
    exact ⟨ha.trans h2, h3.congr (hps q (by simp)) fun r hr => hps r (List.mem_cons_of_mem q hr)⟩

/-- A node is put after `a`. -/
theorem Linked.insert (h : Linked next a ps t) (ha : next' a = x) (hx : next' (some x) = next a)
    (hps : ∀ q ∈ ps, next' (some q) = next (some q)) : Linked next' a (x :: ps) t := by
  refine ⟨ha, ?_⟩
  cases ps with
  | nil => exact hx.trans h
  | cons q qs =>
    obtain ⟨h2, h3⟩ := h
    exact ⟨hx.trans h2, h3.congr (hps q (by simp)) fun r hr => hps r (List.mem_cons_of_mem q hr)⟩

/-- The last node of a list that starts after `a`. -/
def lastNode (a : Option α) (ps : List α) : Option α := (ps.getLast?).or a

@[simp] theorem lastNode_nil (a : Option α) : lastNode a [] = a := rfl

@[simp] theorem lastNode_snoc (a : Option α) (ps : List α) (p : α) :
    lastNode a (ps ++ [p]) = some p := by
  simp [lastNode]

theorem lastNode_cons (a : Option α) (p : α) (ps : List α) :
    lastNode a (p :: ps) = lastNode (some p) ps := by
  cases ps with
  | nil => rfl
  | cons q qs => simp [lastNode, List.getLast?_cons]

theorem lastNode_mem (a : Option α) (ps : List α) :
    lastNode a ps = a ∨ ∃ q ∈ ps, lastNode a ps = some q := by
  rcases ps.eq_nil_or_concat with rfl | ⟨qs, q, rfl⟩
  · exact .inl rfl
  · exact .inr ⟨q, by simp, by simp [lastNode]⟩

/-- The link of the last node changes; the part before it leads where the new link points. -/
theorem Linked.relink (h : Linked next a ps t) (hd : ps.Nodup) (ha : ∀ q ∈ ps, a ≠ some q)
    (hps : ∀ b, b = a ∨ (∃ q ∈ ps, b = some q) → b ≠ lastNode a ps → next' b = next b) :
    Linked next' a ps (next' (lastNode a ps)) := by
  induction ps generalizing a with
  | nil => rfl
  | cons p ps ih =>
    obtain ⟨hp, hd⟩ := List.nodup_cons.mp hd
    rw [lastNode_cons] at hps ⊢
    have hne : a ≠ lastNode (some p) ps := by
      rcases lastNode_mem (some p) ps with he | ⟨q, hq, he⟩
      · rw [he]
        exact ha p (by simp)
      · rw [he]
        exact ha q (List.mem_cons_of_mem p hq)
    refine ⟨(hps a (.inl rfl) hne).trans h.1, ih h.2 hd ?_ ?_⟩
    · intro q hq heq
      cases heq
      exact hp hq
    · intro b hb
      rcases hb with rfl | ⟨q, hq, rfl⟩
      · exact hps _ (.inr ⟨p, by simp, rfl⟩)
      · exact hps _ (.inr ⟨q, List.mem_cons_of_mem p hq, rfl⟩)

/-- A node that the last link points at joins the list. -/
theorem Linked.snoc (h : Linked next a ps p) (hp : next (some p) = t) :
    Linked next a (ps ++ [p]) t := by
  induction ps generalizing a with
  | nil => exact ⟨h, hp⟩
  | cons q qs ih => exact ⟨h.1, ih h.2⟩

end Links
