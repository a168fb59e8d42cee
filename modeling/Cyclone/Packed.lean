import Cyclone.Overlaps

/-!
# Cyclone.Packed

The chunks of a reassembly buffer that only ever grows.

* `Packed`: a chunk with the header, then chunks that are full up to the last one.
* `Packed.setLength`: a buffer that grows stays packed.
* `Packed.grows`: while blocks are available, it can grow up to the capacity of its chunk array.
-/

namespace Cyclone

open NetBuffer

/-- Chunks that are full, then one that may not be. -/
inductive Full : List (Nat × Nat) → Prop where
  | last {r : Nat} : r ≤ NET_MEM_POOL_BUFFER_SIZE → Full [(r, NET_MEM_POOL_BUFFER_SIZE)]
  | cons {ls : List (Nat × Nat)} : Full ls →
      Full ((NET_MEM_POOL_BUFFER_SIZE, NET_MEM_POOL_BUFFER_SIZE) :: ls)

/-- The chunk of the header, with at most a whole block of bytes, and the chunks behind it. -/
def Packed (cs : List ChunkDesc) (n : Nat) : Prop :=
  n ≤ NET_MEM_POOL_BUFFER_SIZE ∧
    ∃ ls, layout cs = (n, NET_MEM_POOL_BUFFER_SIZE) :: ls ∧ Full ls

variable {cs cs' ds : List ChunkDesc} {ls : List (Nat × Nat)} {e e' : Env} {b b' : NetBuffer}
  {m n room : Nat} {err : Error}

theorem Full.ne_nil (h : Full ls) : ls ≠ [] := by
  cases h with
  | last _ => exact List.cons_ne_nil _ _
  | cons _ => exact List.cons_ne_nil _ _

theorem Full.fits (h : Full ls) : ∀ l ∈ ls, l.1 ≤ l.2 := by
  induction h with
  | last hr =>
    intro l hl
    obtain rfl := List.mem_singleton.mp hl
    exact hr
  | cons _ ih =>
    intro l hl
    rcases List.mem_cons.mp hl with rfl | hl
    · exact Nat.le_refl _
    · exact ih l hl

theorem Full.append {ks : List (Nat × Nat)} (h : Full ks)
    (hk : ∀ l ∈ ks, l.1 = NET_MEM_POOL_BUFFER_SIZE) (hl : Full ls) : Full (ks ++ ls) := by
  induction h with
  | last _ =>
    obtain rfl : _ = NET_MEM_POOL_BUFFER_SIZE := hk _ (List.mem_singleton_self _)
    exact .cons hl
  | cons _ ih => exact .cons (ih fun l hl => hk l (List.mem_cons_of_mem _ hl))

theorem Packed.stacked (h : Packed cs n) : Stacked cs n := by
  obtain ⟨hn, ls, hl, hfull⟩ := h
  obtain ⟨l, ls, rfl⟩ := List.exists_cons_of_ne_nil hfull.ne_nil
  refine ⟨_, l, ls, hl, ?_⟩
  rw [hl]
  intro k hk _
  rcases List.mem_cons.mp hk with rfl | hk
  · exact hn
  · exact hfull.fits k hk

theorem Packed.congr (h : Packed cs n) (hl : layout ds = layout cs) : Packed ds n := by
  unfold Packed
  rw [hl]
  exact h

theorem layout_resize (e : Env) (ch : ChunkDesc) (n : Nat) :
    (ch.resize e n).layout = (n, ch.size) :=
  Prod.ext (length_resize e ch n) rfl

/-- The header gets another length. -/
theorem Packed.setFirst (h : Packed b.chunk m) (hn : n ≤ NET_MEM_POOL_BUFFER_SIZE) :
    Packed (setFirstChunk e b n).chunk n := by
  obtain ⟨-, ls, hl, hfull⟩ := h
  obtain ⟨c, cs, hc, hcl, hcs⟩ := List.map_eq_cons_iff.mp hl
  have hcs : layout cs = ls := hcs
  have hsize : c.size = NET_MEM_POOL_BUFFER_SIZE := congrArg Prod.snd hcl
  refine ⟨hn, ls, ?_, hfull⟩
  unfold setFirstChunk
  rw [hc]
  show layout (c.resize e n :: cs) = _
  rw [layout_cons, layout_resize, hcs, hsize]

/-! ## The first loop -/

theorem adjustChunks_zero (e : Env) (cs : List ChunkDesc) : adjustChunks e cs 0 = ([], 0) := by
  cases cs with
  | nil => rfl
  | cons ch rest => rfl

/-- Only the last chunk grows, and bytes are left over when all of them are full. -/
theorem adjustChunks_full (e : Env) (cs : List ChunkDesc) (m : Nat) (h : Full (layout cs))
    (hm : (flat cs).length ≤ m) (hpos : 0 < m) :
    Full (layout (adjustChunks e cs m).1) ∧ ((adjustChunks e cs m).2 = 0 ∨
      ∀ l ∈ layout (adjustChunks e cs m).1, l.1 = NET_MEM_POOL_BUFFER_SIZE) := by
  have hpool : 0 < NET_MEM_POOL_BUFFER_SIZE := by decide
  induction cs generalizing m with
  | nil => cases h
  | cons ch rest ih =>
    rw [flat_cons, List.length_append] at hm
    have hd : ch.data.length = ch.length := rfl
    unfold adjustChunks
    rw [if_neg (by omega)]
    simp only
    generalize hl : layout (ch :: rest) = l at h
    rw [layout_cons] at hl
    by_cases hle : m ≤ ch.length
    · -- nothing is left for the chunks behind
      rw [if_pos hle, length_resize, Nat.sub_self, adjustChunks_zero]
      refine ⟨?_, .inl rfl⟩
      rw [layout_cons, layout_resize]
      cases h with
      | last hr =>
        obtain ⟨hch, -⟩ := List.cons.inj hl
        have h1 : ch.length = _ := congrArg Prod.fst hch
        have h2 : ch.size = _ := congrArg Prod.snd hch
        rw [h2]
        exact .last (by omega)
      | cons hrest =>
        obtain ⟨hch, -⟩ := List.cons.inj hl
        have h1 : ch.length = _ := congrArg Prod.fst hch
        have h2 : ch.size = _ := congrArg Prod.snd hch
        rw [h2]
        exact .last (by omega)
    rw [if_neg hle]
    cases h with
    | last hr =>
      obtain ⟨hch, hnil⟩ := List.cons.inj hl
      obtain rfl := List.map_eq_nil_iff.mp hnil
      have h2 : ch.size = NET_MEM_POOL_BUFFER_SIZE := congrArg Prod.snd hch
      rw [h2, if_pos ⟨hpool, rfl⟩]
      simp only [adjustChunks, length_resize]
      rw [layout_cons, layout_resize, h2]
      refine ⟨.last (Nat.min_le_right _ _), ?_⟩
      rcases Nat.le_total m NET_MEM_POOL_BUFFER_SIZE with h3 | h3
      · left
        omega
      · right
        intro l hl
        obtain rfl := List.mem_singleton.mp hl
        exact Nat.min_eq_right h3
    | cons hrest =>
      obtain ⟨hch, hls⟩ := List.cons.inj hl
      have h1 : ch.length = NET_MEM_POOL_BUFFER_SIZE := congrArg Prod.fst hch
      have hne : rest ≠ [] := by
        rintro rfl
        exact hrest.ne_nil hls.symm
      rw [if_neg (fun hc => hne hc.2), layout_cons, hch]
      rw [← hls] at hrest
      obtain ⟨hfull, hleft⟩ := ih (m - ch.length) hrest (by omega) (by omega)
      refine ⟨.cons hfull, hleft.imp id fun hall l hl => ?_⟩
      rcases List.mem_cons.mp hl with rfl | hl
      · rfl
      · exact hall l hl

/-! ## The second loop -/

theorem addChunks_full (h : addChunks e room cs m = (e', cs', .NO_ERROR)) (hm : 0 < m) :
    ∃ ds, cs' = cs ++ ds ∧ Full (layout ds) := by
  induction room generalizing e cs m with
  | zero =>
    unfold addChunks at h
    rw [if_neg (by omega)] at h
    cases h
  | succ room ih =>
    unfold addChunks at h
    rw [if_neg (by omega)] at h
    simp only at h
    split at h
    case isFalse => cases h
    generalize hch : (⟨(List.range (min m NET_MEM_POOL_BUFFER_SIZE)).map fun _ => e.memFill e.tick,
      NET_MEM_POOL_BUFFER_SIZE⟩ : ChunkDesc) = ch at h
    have hlay : ch.layout = (min m NET_MEM_POOL_BUFFER_SIZE, NET_MEM_POOL_BUFFER_SIZE) := by
      rw [← hch]
      exact Prod.ext (by simp [ChunkDesc.layout, ChunkDesc.length]) rfl
    rcases Nat.eq_zero_or_pos (m - min m NET_MEM_POOL_BUFFER_SIZE) with h0 | h0
    · rw [h0, addChunks_zero] at h
      cases h
      refine ⟨[ch], rfl, ?_⟩
      rw [layout_cons, hlay]
      exact .last (Nat.min_le_right _ _)
    · obtain ⟨ds, rfl, hds⟩ := ih h h0
      refine ⟨ch :: ds, List.append_assoc _ _ _, ?_⟩
      rw [layout_cons, hlay, Nat.min_eq_right (by omega)]
      exact .cons hds

/-- Blocks are never refused. -/
def Env.Granting (e : Env) : Prop := ∀ t, e.memAvail t = true

theorem addChunks_memAvail (e : Env) (room : Nat) (cs : List ChunkDesc) (m : Nat) :
    (addChunks e room cs m).1.memAvail = e.memAvail := by
  induction room generalizing e cs m with
  | zero =>
    unfold addChunks
    split
    · rfl
    · rfl
  | succ room ih =>
    unfold addChunks
    split
    · rfl
    · simp only
      split
      · exact ih _ _ _
      · rfl

theorem addChunks_grants (he : e.Granting) (hm : m ≤ room * NET_MEM_POOL_BUFFER_SIZE) :
    (addChunks e room cs m).2.2 = .NO_ERROR := by
  induction room generalizing e cs m with
  | zero =>
    obtain rfl : m = 0 := by omega
    rw [addChunks_zero]
  | succ room ih =>
    unfold addChunks
    split
    · rfl
    · have hgrant : (memPoolAlloc e).2 = true := he e.tick
      simp only [hgrant, if_true]
      rw [Nat.add_mul] at hm
      exact ih (fun t => he t) (by omega)

/-! ## Growing -/

theorem netBufferSetLength_memAvail (e : Env) (b : NetBuffer) (m : Nat) :
    (netBufferSetLength e b m).1.memAvail = e.memAvail := addChunks_memAvail _ _ _ _

/-- Behind the header, only the other chunks change. -/
theorem Packed.adjust (h : Packed b.chunk n) (hm : b.bytes.length ≤ m) (hlt : n < m) :
    ∃ c ds left, adjustChunks e b.chunk m = (c :: ds, left) ∧
      c.layout = (n, NET_MEM_POOL_BUFFER_SIZE) ∧ Full (layout ds) ∧
      (flat ds).length + left = m - n ∧
      (left = 0 ∨ ∀ l ∈ layout ds, l.1 = NET_MEM_POOL_BUFFER_SIZE) := by
  obtain ⟨-, ls, hl, hfull⟩ := h
  obtain ⟨c, cs, hc, hcl, hcs⟩ := List.map_eq_cons_iff.mp hl
  have hcs : layout cs = ls := hcs
  have hlen : c.length = n := congrArg Prod.fst hcl
  rw [bytes, hc, flat_cons, List.length_append] at hm
  have hd : c.data.length = c.length := rfl
  rw [← hcs] at hfull
  have hne : cs ≠ [] := by
    rintro rfl
    exact hfull.ne_nil rfl
  obtain ⟨h1, h2⟩ := adjustChunks_full e cs (m - n) hfull (by omega) (by omega)
  refine ⟨c, _, _, ?_, hcl, h1, adjustChunks_length e cs (m - n), h2⟩
  rw [hc, adjustChunks, if_neg (by omega), if_neg (by omega), if_neg (fun hcon => hne hcon.2)]
  simp only [hlen]

theorem Packed.setLength (h : Packed b.chunk n) (hm : b.bytes.length ≤ m) (hlt : n < m)
    (hs : netBufferSetLength e b m = (e', b', .NO_ERROR)) :
    Packed b'.chunk n ∧ b'.maxChunkCount = b.maxChunkCount := by
  obtain ⟨c, ds, left, hadj, hcl, hfull, -, hleft⟩ := @Packed.adjust e _ _ _ h hm hlt
  unfold netBufferSetLength at hs
  rw [hadj] at hs
  simp only [Prod.mk.injEq] at hs
  obtain ⟨-, rfl, herr⟩ := hs
  refine ⟨⟨h.1, ?_⟩, rfl⟩
  rcases Nat.eq_zero_or_pos left with rfl | hpos
  · simp only [addChunks_zero, layout_cons, hcl]
    exact ⟨_, rfl, hfull⟩
  · obtain ⟨es, hes, hesf⟩ := @addChunks_full _ _ _ _ _ _ (Prod.ext rfl (Prod.ext rfl herr)) hpos
    have hall := hleft.resolve_left (by omega)
    have hlay : layout (ds ++ es) = layout ds ++ layout es := List.map_append
    refine ⟨layout (ds ++ es), ?_, ?_⟩
    · rw [← hcl, ← layout_cons, ← List.cons_append]
      exact congrArg layout hes
    · rw [hlay]
      exact hfull.append hall hesf

theorem length_flat_full {ds : List ChunkDesc}
    (h : ∀ l ∈ layout ds, l.1 = NET_MEM_POOL_BUFFER_SIZE) :
    (flat ds).length = ds.length * NET_MEM_POOL_BUFFER_SIZE := by
  induction ds with
  | nil => rfl
  | cons d ds ih =>
    have hd : d.data.length = NET_MEM_POOL_BUFFER_SIZE := h d.layout List.mem_cons_self
    rw [flat_cons, List.length_append, hd, ih fun l hl => h l (List.mem_cons_of_mem _ hl),
      List.length_cons, Nat.add_mul]
    omega

theorem Packed.grows (h : Packed b.chunk n) (he : e.Granting) (hm : b.bytes.length ≤ m)
    (hlt : n < m) (hroom : m - n + NET_MEM_POOL_BUFFER_SIZE ≤
      b.maxChunkCount * NET_MEM_POOL_BUFFER_SIZE) :
    (netBufferSetLength e b m).2.2 = .NO_ERROR := by
  obtain ⟨c, ds, left, hadj, hcl, hfull, hsum, hleft⟩ := @Packed.adjust e _ _ _ h hm hlt
  unfold netBufferSetLength
  rw [hadj]
  simp only
  refine addChunks_grants he ?_
  rcases hleft with rfl | hall
  · exact Nat.zero_le _
  · rw [length_flat_full hall] at hsum
    rw [List.length_cons, Nat.sub_mul, Nat.add_mul]
    omega

end Cyclone
