import Cyclone.Ipv4Frag
import Cyclone.Overlaps

/-!
# Cyclone.Ipv4Holes

The list of holes of an IPv4 reassembly entry. Overlapping fragments are accepted, so a hole may be
cut on either side.

* `trimHoles`: what the loop over the descriptors does to the holes they describe.
* `ipv4HoleLoop_chain`: the loop ends, its list is the trimmed one, and no byte outside of the holes
  is touched.
* `trim_covers`, `trim_sub`: the positions of the holes that are left.
-/

namespace Cyclone

open NetBuffer Serial Links Ipv6FragDesc

variable {be moreFlag : Bool} {frag frag' : Ipv4FragDesc} {a b k : Nat} {h : Nat × Nat}
  {done rest hs : List (Nat × Nat)}

/-! ## Trimming -/

/-- The holes after a fragment of the bytes from `a` to `b`. -/
def trimHoles (moreFlag : Bool) (a b : Nat) (hs : List (Nat × Nat)) : List (Nat × Nat) :=
  hs.flatMap fun h => if a < h.2 ∧ b > h.1 then leftover moreFlag a b h else [h]

theorem trim_cons (h : Nat × Nat) (rest : List (Nat × Nat)) : trimHoles moreFlag a b (h :: rest) =
    (if a < h.2 ∧ b > h.1 then leftover moreFlag a b h else [h]) ++ trimHoles moreFlag a b rest :=
  List.flatMap_cons

/-- Every hole that is left is part of one that was there. -/
theorem trim_sub {g : Nat × Nat} (hg : g ∈ trimHoles moreFlag a b hs) :
    ∃ h ∈ hs, h.1 ≤ g.1 ∧ g.2 ≤ h.2 ∧ Apart g (a, b) ∧ (g.1 = h.1 ∨ g.1 = b ∧ moreFlag) := by
  obtain ⟨h, hh, hg⟩ := List.mem_flatMap.mp hg
  refine ⟨h, hh, ?_⟩
  split at hg
  · rename_i hin
    obtain ⟨h1, h2, -, h3, h4, -⟩ := mem_leftover hg (by omega) (by omega)
    exact ⟨h1, h2, h3, h4⟩
  · obtain rfl := List.mem_singleton.mp hg
    refine ⟨Nat.le_refl _, Nat.le_refl _, ?_, .inl rfl⟩
    unfold Apart
    omega

/-- The positions that a fragment leaves missing. -/
theorem trim_covers (hk : ∃ h ∈ hs, h.1 ≤ k ∧ k < h.2) (hout : k < a ∨ b ≤ k ∧ moreFlag) :
    ∃ g ∈ trimHoles moreFlag a b hs, g.1 ≤ k ∧ k < g.2 := by
  obtain ⟨h, hh, h1, h2⟩ := hk
  have hmem : ∀ g ∈ (if a < h.2 ∧ b > h.1 then leftover moreFlag a b h else [h]),
      g ∈ trimHoles moreFlag a b hs := fun g hg => List.mem_flatMap.mpr ⟨h, hh, hg⟩
  by_cases hin : a < h.2 ∧ b > h.1
  · rw [if_pos hin] at hmem
    rcases hout with hka | ⟨hkb, hm⟩
    · refine ⟨(h.1, a), hmem _ (List.mem_append_left _ ?_), h1, hka⟩
      rw [if_pos (by omega)]
      exact List.mem_singleton_self _
    · refine ⟨(b, h.2), hmem _ (List.mem_append_right _ ?_), hkb, h2⟩
      rw [if_pos ⟨by omega, hm⟩]
      exact List.mem_singleton_self _
  · rw [if_neg hin] at hmem
    exact ⟨h, hmem h (List.mem_singleton_self _), h1, h2⟩

/-- Holes in increasing order. -/
def Increasing (hs : List (Nat × Nat)) : Prop := hs.Pairwise fun g h => g.2 ≤ h.1

theorem increasing_leftover (hab : a ≤ b) : Increasing (leftover moreFlag a b h) := by
  unfold leftover Increasing
  split
  · split
    · simp only [List.singleton_append, List.pairwise_cons, List.mem_singleton]
      exact ⟨fun g hg => by subst hg; exact hab, by simp⟩
    · simp
  · split
    · simp
    · simp

theorem Increasing.trim (hi : Increasing hs) (hab : a ≤ b) :
    Increasing (trimHoles moreFlag a b hs) := by
  induction hs with
  | nil => exact List.Pairwise.nil
  | cons h rest ih =>
    obtain ⟨hfirst, hrest⟩ := List.pairwise_cons.mp hi
    rw [trim_cons]
    refine List.pairwise_append.mpr ⟨?_, ih hrest, ?_⟩
    · split
      · exact increasing_leftover hab
      · exact List.pairwise_singleton _ _
    · intro g hg g' hg'
      obtain ⟨h', hh', h1, -⟩ := trim_sub hg'
      have hnext := hfirst h' hh'
      split at hg
      · rename_i hin
        obtain ⟨-, h2, -⟩ := mem_leftover hg (by omega) (by omega)
        omega
      · obtain rfl := List.mem_singleton.mp hg
        omega

/-! ## Bytes outside of the holes -/

/-- The position is in none of the holes. -/
def Outside (hs : List (Nat × Nat)) (k : Nat) : Prop := ∀ h ∈ hs, ¬(h.1 ≤ k ∧ k < h.2)

/-- A descriptor fits in its hole. -/
theorem HoleList.room (hg : HoleList hs) (hh : h ∈ hs) (hspot : frag.Spot h.1) :
    h.1 + 6 ≤ h.2 := by
  have hne := hg.nonempty h hh
  have hal := hg.aligned h hh
  unfold Spot at hspot
  unfold IPV6_INFINITY at hal
  omega

theorem region_setNext {prev : Option Nat} {v : Nat} (hp : ∀ q ∈ prev, frag.Spot q)
    (hk : ∀ q ∈ prev, k < q ∨ q + 6 ≤ k) :
    (frag.setNext be prev v).region[k]? = frag.region[k]? := by
  cases prev with
  | none => rfl
  | some q =>
    have hq := hp q rfl
    have hkq := hk q rfl
    unfold Spot at hq
    show (frag.store be (q + 4) v).region[k]? = _
    rw [region_store (by omega), Ring.splice_getElem? (by rw [length_store16]; omega),
      if_neg (by rw [length_store16]; omega)]

theorem region_insertHole {prev r : Option Nat} {x last : Nat} (hx : frag.Spot x)
    (hp : ∀ q ∈ prev, frag.Spot q) (hkx : k < x ∨ x + 6 ≤ k)
    (hk : ∀ q ∈ prev, k < q ∨ q + 6 ≤ k)
    (h : insertHole be frag prev x last = some (frag', r)) :
    frag'.region[k]? = frag.region[k]? := by
  have hx' := hx
  unfold Spot at hx'
  unfold insertHole at h
  rw [ipv6FindHole_some (by omega), Option.map_some] at h
  simp only [Option.some.injEq, Prod.mk.injEq] at h
  obtain ⟨rfl, -⟩ := h
  have hstore : ∀ (f : Ipv6FragDesc) (pos v : Nat), f.region.length = frag.region.length →
      (pos = x ∨ pos = x + 2 ∨ pos = x + 4) → (f.store be pos v).region[k]? = f.region[k]? := by
    intro f pos v hlen hpos
    rw [region_store (by omega), Ring.splice_getElem? (by rw [length_store16]; omega),
      if_neg (by rw [length_store16]; omega)]
  generalize h1 : frag.store be x x = f1
  generalize h2 : f1.store be (x + 2) last = f2
  generalize h3 : f2.store be (x + 4) (f2.next be prev) = f3
  have hk1 : Kin frag f1 := h1 ▸ kin_store be frag x x
  have hk2 : Kin f1 f2 := h2 ▸ kin_store be f1 (x + 2) last
  have hk3 : Kin f2 f3 := h3 ▸ kin_store be f2 (x + 4) _
  rw [region_setNext (fun q hq => ((hk1.trans hk2).trans hk3).spot (hp q hq)) hk, ← h3,
    hstore f2 _ _ (hk1.trans hk2).length (.inr (.inr rfl)), ← h2,
    hstore f1 _ _ hk1.length (.inr (.inl rfl)), ← h1, hstore frag _ _ rfl (.inl rfl)]

theorem region_splitHole {prev r : Option Nat} (hspot : frag.Spot h.1)
    (hp : ∀ q ∈ prev, frag.Spot q) (hbs : b < h.2 ∧ moreFlag → frag.Spot b)
    (hk1 : k < h.1 ∨ h.1 + 6 ≤ k) (hkb : b < h.2 ∧ moreFlag → k < b ∨ b + 6 ≤ k)
    (hk : ∀ q ∈ prev, k < q ∨ q + 6 ≤ k)
    (hs : splitHole be moreFlag a b frag prev h.1 h.2 = some (frag', r)) :
    frag'.region[k]? = frag.region[k]? := by
  unfold splitHole at hs
  obtain ⟨⟨frag₁, prev₁⟩, h1, h2⟩ := Option.bind_eq_some_iff.mp hs
  have hfirst : frag₁.region[k]? = frag.region[k]? ∧ Kin frag frag₁ ∧
      ∀ q ∈ prev₁, frag.Spot q ∧ (k < q ∨ q + 6 ≤ k) := by
    split at h1
    · have hreg := region_insertHole hspot hp hk1 hk h1
      unfold insertHole at h1
      obtain ⟨x, hx, heq⟩ := Option.map_eq_some_iff.mp h1
      have hxe : x = h.1 := by
        rw [ipv6FindHole_some (by unfold Spot at hspot; omega)] at hx
        exact (Option.some.inj hx).symm
      subst hxe
      simp only [Prod.mk.injEq] at heq
      obtain ⟨rfl, rfl⟩ := heq
      refine ⟨hreg, ?_, fun q hq => by cases hq; exact ⟨hspot, hk1⟩⟩
      exact (((kin_store be frag _ _).trans (kin_store be _ _ _)).trans
        (kin_store be _ _ _)).trans (kin_setNext be _ _ _)
    · cases h1
      exact ⟨rfl, Kin.refl frag, fun q hq => ⟨hp q hq, hk q hq⟩⟩
  obtain ⟨hreg, hkin, hprev⟩ := hfirst
  simp only at h2
  split at h2
  · rename_i hbm
    rw [region_insertHole (hkin.spot (hbs hbm)) (fun q hq => hkin.spot (hprev q hq).1) (hkb hbm)
      (fun q hq => (hprev q hq).2) h2, hreg]
  · cases h2
    exact hreg

/-! ## The loop -/

/-- Trimming keeps a position outside. -/
theorem Outside.leftover (ho : Outside (done ++ h :: rest) k) (ha : a ≤ h.2) (hb : h.1 ≤ b) :
    Outside (done ++ leftover moreFlag a b h ++ rest) k := by
  intro g hg
  simp only [List.mem_append] at hg
  rcases hg with (hg | hg) | hg
  · exact ho g (List.mem_append_left _ hg)
  · obtain ⟨h1, h2, -⟩ := mem_leftover hg ha hb
    have := ho h (by simp)
    omega
  · exact ho g (List.mem_append_right _ (List.mem_cons_of_mem _ hg))

/-- A position outside of the holes is not in a descriptor. -/
theorem Chain.clear (hc : Chain be frag done rest) (hg : HoleList (done ++ rest))
    (ho : Outside (done ++ rest) k) :
    ∀ q ∈ lastNode none (done.map Prod.fst), k < q ∨ q + 6 ≤ k := by
  intro q hq
  rcases lastNode_mem none (done.map Prod.fst) with he | ⟨r, hr, he⟩
  · rw [he] at hq; cases hq
  · rw [he] at hq
    cases hq
    obtain ⟨g, hgm, rfl⟩ := List.mem_map.mp hr
    have hmem : g ∈ done ++ rest := List.mem_append_left _ hgm
    have hroom := hg.room hmem (hc.holds g hmem).1
    have := ho g hmem
    omega

/-- The loop over the descriptors trims the holes, and leaves the rest of the buffer alone. -/
theorem ipv4HoleLoop_chain (rest : List (Nat × Nat)) : ∀ (done : List (Nat × Nat))
    (frag : Ipv4FragDesc) (fuel : Nat), Chain be frag done rest → HoleList (done ++ rest) →
    frag.region.length < 65536 → a % 8 = 0 → a ≤ b →
    (rest ≠ [] → moreFlag → frag.Spot b) → rest.length < fuel →
    ∃ frag', ipv4HoleLoop be moreFlag a b fuel frag (lastNode none (done.map Prod.fst)) =
        some frag' ∧ Kin frag frag' ∧ Chain be frag' (done ++ trimHoles moreFlag a b rest) [] ∧
      HoleList (done ++ trimHoles moreFlag a b rest) ∧
      ∀ k, Outside (done ++ rest) k → frag'.region[k]? = frag.region[k]? := by
  induction rest with
  | nil =>
    intro done frag fuel hc hg hlen ha8 hab hbs hfuel
    obtain ⟨fuel, rfl⟩ : ∃ n, fuel = n + 1 := ⟨fuel - 1, by simp at hfuel; omega⟩
    have hnext : frag.next be (lastNode none (done.map Prod.fst)) = IPV6_INFINITY := hc.after
    have htrim : done ++ trimHoles moreFlag a b [] = done := List.append_nil _
    rw [htrim]
    rw [List.append_nil] at hg
    refine ⟨frag, ?_, Kin.refl frag, hc, hg, fun _ _ => rfl⟩
    unfold ipv4HoleLoop ipv4FindHole
    rw [hnext, ipv6FindHole_none (by unfold IPV6_INFINITY; omega)]
  | cons h rest ih =>
    intro done frag fuel hc hg hlen ha8 hab hbs hfuel
    obtain ⟨fuel, rfl⟩ : ∃ n, fuel = n + 1 := ⟨fuel - 1, by simp at hfuel; omega⟩
    rw [List.length_cons] at hfuel
    have hnext : frag.next be (lastNode none (done.map Prod.fst)) = h.1 := hc.after.1
    have hmem : h ∈ done ++ h :: rest := by simp
    obtain ⟨hspot, hfirst, hlast⟩ := hc.holds h hmem
    have hspot' := hspot
    unfold Spot at hspot'
    have hh2 := hg.bounded h hmem
    unfold ipv4HoleLoop ipv4FindHole
    rw [hnext, ipv6FindHole_some (by omega), trim_cons]
    simp only [hfirst, hlast]
    by_cases hin : a < h.2 ∧ b > h.1
    · rw [if_pos hin, if_pos hin]
      have hk := kin_setNext be frag (lastNode none (done.map Prod.fst)) (frag.next be (some h.1))
      have hbs' : moreFlag → frag.Spot b := hbs (by simp)
      obtain ⟨frag₁, he₁, hk₁, hc₁⟩ := @splitHole_chain be moreFlag _ a b _ _ _ hc.remove hg
        (hk.spot hspot) hc.fresh (by rw [hk.length]; exact hlen) (by omega) hin.2
        fun hm => hk.spot (hbs' hm)
      rw [he₁]
      have hkk := hk.trans hk₁
      obtain ⟨frag', he, hk', hc', hg', hframe⟩ := ih (done ++ leftover moreFlag a b h) frag₁ fuel
        hc₁ (hg.split ha8 hab (by omega) (by omega)) (by rw [hkk.length]; exact hlen) ha8 hab
        (fun _ hm => hkk.spot (hbs' hm)) (by omega)
      rw [List.append_assoc] at hc' hg'
      refine ⟨frag', he, hkk.trans hk', hc', hg', fun k ho => ?_⟩
      have hroom := hg.room hmem hspot
      have hclear := hc.clear hg ho
      have hkh := ho h hmem
      rw [hframe k (ho.leftover (by omega) (by omega)), region_splitHole (hk.spot hspot)
        (fun q hq => hk.spot (hc.spot_last q hq)) (fun hm => hk.spot (hbs' hm.2)) (by omega)
        (fun hm => ?_) hclear he₁]
      · exact region_setNext hc.spot_last hclear
      · have hb := hbs' hm.2
        have hal := hg.aligned h hmem
        unfold Spot at hb
        unfold IPV6_INFINITY at hal
        omega
    · rw [if_neg hin, if_neg hin]
      have hadv := hc.advance
      obtain ⟨frag', he, hk', hc', hg', hframe⟩ := ih (done ++ [h]) frag fuel hadv
        (by simpa using hg) hlen ha8 hab (fun _ hm => hbs (by simp) hm) (by omega)
      rw [List.map_append, List.map_singleton, lastNode_snoc] at he
      rw [List.append_assoc] at hc' hg'
      refine ⟨frag', he, hk', hc', hg', fun k ho => hframe k ?_⟩
      simpa using ho

end Cyclone
