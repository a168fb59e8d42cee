import Cyclone.Ipv6
import Cyclone.Overlaps

/-!
# Cyclone.Delivery

What nested packets do to a datagram that is under delivery.

* `parse_frame`: a fragment touches only the entry that the search returns.
* `Delivery.Sound`: the entries under delivery are distinct and in use.
* `delivery_untouched`: over every run in which no nested fragment matches an entry under delivery.
-/

namespace Cyclone

open NetBuffer Serial Ipv6FragDesc

variable {be : Bool} {behind : List UInt8} {accepts : List UInt8 → Bool} {frag frag' : Ipv6FragDesc}
  {q q' : List Ipv6FragDesc} {e e' : Env} {pkt : Ipv6Fragment} {d d' : Delivery}

/-! ## The queue -/

theorem getD_set_ne (q : List Ipv6FragDesc) {i j : Nat} (frag : Ipv6FragDesc) (h : i ≠ j) :
    (q.set i frag).getD j {} = q.getD j {} := by
  rw [List.getD_eq_getElem?_getD, List.getD_eq_getElem?_getD, List.getElem?_set, if_neg h]

theorem Stacked.inUse {n : Nat} (h : Stacked frag.buffer.chunk n) : frag.inUse = true := by
  obtain ⟨size, l, ls, hl, -⟩ := h
  obtain ⟨c, cs, hc, -, -⟩ := List.map_eq_cons_iff.mp hl
  unfold Ipv6FragDesc.inUse chunkCount
  rw [hc]
  rfl

/-- The entry that the search returns was a match or free; the others are left alone. -/
theorem search_frame {packet header : List UInt8} {r : Option Nat}
    (h : ipv6SearchFragQueue be e q packet header = (e', q', r)) :
    q'.length = q.length ∧
      (∀ j, (q.getD j {}).inUse = true → q'.getD j {} = q.getD j {}) ∧
      (∀ j, (q'.getD j {}).inUse = true → (q.getD j {}).inUse = true ∨
        (q'.getD j {}).unfragPartLength = sizeofIpv6Header) ∧
      ∀ i, r = some i → i < q.length ∧ (q'.getD i {}).inUse = true ∧
        (ipv6FragMatches packet header (q.getD i {}) = true ∨ (q.getD i {}).inUse = false) := by
  unfold ipv6SearchFragQueue at h
  split at h
  · rename_i i hf
    cases h
    refine ⟨rfl, fun _ _ => rfl, fun _ hj => .inl hj, fun j hj => ?_⟩
    cases hj
    obtain ⟨hlt, hm, -⟩ := List.findIdx?_eq_some_iff_getElem.mp hf
    have hget : q.getD i {} = q[i] := by
      rw [List.getD_eq_getElem?_getD, List.getElem?_eq_getElem hlt]
      rfl
    rw [hget]
    refine ⟨hlt, ?_, .inl hm⟩
    unfold ipv6FragMatches at hm
    simp only [Bool.and_eq_true] at hm
    exact hm.1.1.1
  · split at h
    · cases h
      exact ⟨rfl, fun _ _ => rfl, fun _ hj => .inl hj, nofun⟩
    · rename_i i hf
      obtain ⟨hlt, hu, -⟩ := List.findIdx?_eq_some_iff_getElem.mp hf
      have hu : (q.getD i {}).inUse = false := by
        rw [List.getD_eq_getElem?_getD, List.getElem?_eq_getElem hlt]
        simpa using hu
      have hset : ∀ frag : Ipv6FragDesc, ∀ j, (q.getD j {}).inUse = true →
          (q.set i frag).getD j {} = q.getD j {} := by
        intro frag j hj
        refine getD_set_ne q frag fun hij => ?_
        rw [← hij, hu] at hj
        cases hj
      simp only at h
      split at h
      · cases h
        refine ⟨List.length_set .., hset _, fun j hj => ?_, nofun⟩
        by_cases hij : i = j
        · subst hij
          rw [getD_set_self q _ hlt] at hj
          cases hj
        · rw [getD_set_ne q _ hij] at hj
          exact .inl hj
      · rename_i herr
        rw [not_not] at herr
        cases h
        have hheld := @held_create be _ _ _ _ packet header hu (Prod.ext rfl (Prod.ext rfl herr))
        refine ⟨List.length_set .., hset _, fun j hj => ?_, fun j hj => ?_⟩
        · by_cases hij : i = j
          · subst hij
            rw [getD_set_self q _ hlt]
            exact .inr rfl
          · rw [getD_set_ne q _ hij] at hj
            exact .inl hj
        · cases hj
          rw [getD_set_self q _ hlt]
          exact ⟨hlt, hheld.stacked.inUse, .inr hu⟩

theorem kin_insertHole {prevHole p : Option Nat} {x last : Nat}
    (h : insertHole be frag prevHole x last = some (frag', p)) : Kin frag frag' := by
  unfold insertHole at h
  obtain ⟨hole, -, h⟩ := Option.map_eq_some_iff.mp h
  cases h
  exact (((kin_store ..).trans (kin_store ..)).trans (kin_store ..)).trans (kin_setNext ..)

theorem kin_splitHole {moreFlag : Bool} {a b first last : Nat} {prevHole p : Option Nat}
    (h : splitHole be moreFlag a b frag prevHole first last = some (frag', p)) :
    Kin frag frag' := by
  unfold splitHole at h
  obtain ⟨r, h1, h2⟩ := Option.bind_eq_some_iff.mp h
  have hk1 : Kin frag r.1 := by
    split at h1
    · exact kin_insertHole h1
    · cases h1
      exact Kin.refl frag
  split at h2
  · exact hk1.trans (kin_insertHole h2)
  · cases h2
    exact hk1

theorem kin_holeLoop {moreFlag : Bool} {a b : Nat} (fuel : Nat) : ∀ {frag : Ipv6FragDesc}
    {prevHole : Option Nat}, holeLoop be moreFlag a b fuel frag prevHole = some (some frag') →
    Kin frag frag' := by
  induction fuel with
  | zero => intro frag prevHole h; cases h
  | succ fuel ih =>
    intro frag prevHole h
    unfold holeLoop at h
    split at h
    · cases h
      exact Kin.refl _
    · simp only at h
      split at h
      · split at h
        · cases h
        · split at h
          · cases h
          · rename_i frag1 p hs
            exact ((kin_setNext ..).trans (kin_splitHole hs)).trans (ih h)
      · exact ih h

/-- The entries that hold something have an unfragmentable part. -/
def Headed (q : List Ipv6FragDesc) : Prop :=
  ∀ j, (q.getD j {}).inUse = true → 0 < (q.getD j {}).unfragPartLength

theorem Headed.set {i : Nat} (h : Headed q)
    (hf : frag.inUse = true → 0 < frag.unfragPartLength) : Headed (q.set i frag) := by
  intro j hj
  by_cases hij : i = j
  · subst hij
    by_cases hlt : i < q.length
    · rw [getD_set_self q frag hlt] at hj ⊢
      exact hf hj
    · rw [List.set_eq_of_length_le (by omega)] at hj ⊢
      exact h i hj
  · rw [getD_set_ne q frag hij] at hj ⊢
    exact h j hj

theorem inUse_of_length (h : 0 < frag.buffer.bytes.length) : frag.inUse = true := by
  unfold inUse chunkCount
  cases hc : frag.buffer.chunk with
  | nil =>
    rw [bytes, hc] at h
    exact absurd h (Nat.lt_irrefl 0)
  | cons ch rest => rfl

/-- The slot that the search returns for a fragment. -/
def fragmentSlot (be : Bool) (e : Env) (q : List Ipv6FragDesc) (pkt : Ipv6Fragment) : Option Nat :=
  if pkt.valid then (ipv6SearchFragQueue be e q pkt.ipHeader pkt.fragHeader).2.2 else none

/-- A fragment touches only the entry that the search returns. -/
theorem parse_frame {r : Option Nat} (hh : Headed q) (hw : pkt.ipPacketOffset < pkt.fragHeaderOffset)
    (h : ipv6ParseFragmentHeader be e q pkt = some (e', q', r)) :
    q'.length = q.length ∧ Headed q' ∧
      (∀ j, (q.getD j {}).inUse = true → fragmentSlot be e q pkt ≠ some j →
        q'.getD j {} = q.getD j {}) ∧
      ∀ i, r = some i → fragmentSlot be e q pkt = some i ∧ i < q.length ∧
        (q'.getD i {}).inUse = true := by
  unfold ipv6ParseFragmentHeader at h
  unfold fragmentSlot
  by_cases hv : pkt.valid
  case neg =>
    rw [if_pos (by simpa using hv)] at h
    cases h
    exact ⟨rfl, hh, fun _ _ _ => rfl, nofun⟩
  rw [if_neg (by simpa using hv)] at h
  rw [if_pos hv]
  generalize hsearch : ipv6SearchFragQueue be e q pkt.ipHeader pkt.fragHeader = s at h
  obtain ⟨e1, q1, r1⟩ := s
  obtain ⟨hlen, hkeep, hnew, hfound⟩ := search_frame hsearch
  have hh1 : Headed q1 := by
    intro j hj
    rcases hnew j hj with hu | hu
    · rw [hkeep j hu]
      exact hh j hu
    · rw [hu]
      decide
  cases r1 with
  | none =>
    cases h
    exact ⟨hlen, hh1, fun j hj _ => hkeep j hj, nofun⟩
  | some i =>
    obtain ⟨hlt, hu1, -⟩ := hfound i rfl
    have hlt1 : i < q1.length := by omega
    simp only at h ⊢
    have hother : ∀ frag : Ipv6FragDesc, ∀ j, (q.getD j {}).inUse = true → some i ≠ some j →
        (q1.set i frag).getD j {} = q.getD j {} := by
      intro frag j hj hij
      rw [getD_set_ne q1 frag fun h => hij (congrArg some h), hkeep j hj]
    have hdrop : ∀ frag : Ipv6FragDesc, Headed (q1.set i frag.drop) :=
      fun frag => hh1.set fun h => by cases h
    have hlens : ∀ frag : Ipv6FragDesc, (q1.set i frag).length = q.length := by
      intro frag
      rw [List.length_set, hlen]
    split at h
    · cases h
      exact ⟨hlens _, hdrop _, hother _, nofun⟩
    · rename_i frag0 hf
      have h0 : 0 < frag0.unfragPartLength ∨ frag0 = q1.getD i {} := by
        split at hf
        · unfold ipv6FirstFragment at hf
          simp only at hf
          split at hf
          · cases hf
          · split at hf
            · cases hf
            · cases hf
              exact .inl (by show 0 < pkt.fragHeaderOffset - pkt.ipPacketOffset; omega)
        · cases hf
          exact .inr rfl
      split at h
      · cases h
        exact ⟨hlens _, hdrop _, hother _, nofun⟩
      · rename_i e2 frag1 hg
        have h1 : frag1.unfragPartLength = frag0.unfragPartLength := by
          unfold ipv6GrowFrag at hg
          split at hg
          · split at hg
            · cases hg
            · split at hg
              · cases hg
                rfl
              · cases hg
          · cases hg
            rfl
        split at h
        · cases h
        · cases h
          exact ⟨hlens _, hdrop _, hother _, nofun⟩
        · rename_i frag2 hloop
          have h2 := (kin_holeLoop holeTurns hloop).unfrag
          have hpos : 0 < frag2.unfragPartLength := by
            rw [h2, h1]
            rcases h0 with h0 | h0
            · exact h0
            · rw [h0]
              exact hh1 i hu1
          split at h
          · cases h
            exact ⟨hlens _, hh1.set fun _ => hpos, hother _, nofun⟩
          · split at h
            · cases h
              exact ⟨hlens _, hdrop _, hother _, nofun⟩
            · rename_i e3 frag3 hcomp
              cases h
              unfold ipv6CompleteFrag at hcomp
              split at hcomp
              · rename_i e4 b hset
                cases hcomp
                have hblen := netBufferSetLength_ok hset
                refine ⟨hlens _, hh1.set fun _ => hpos, hother _, fun j hj => ?_⟩
                cases hj
                rw [getD_set_self q1 _ hlt1]
                refine ⟨rfl, hlt, inUse_of_length ?_⟩
                rw [netBufferWrite_length, hblen]
                show 0 < frag2.unfragPartLength + _
                omega
              · cases hcomp

/-! ## Packets -/

/-- A fragment header lies behind the IPv6 header. -/
theorem headerLoop_fragment {b : NetBuffer} {offset length f n : Nat} (fuel : Nat) :
    ∀ {i next : Nat}, headerLoop behind b offset length fuel i next = .fragment f n → i ≤ f := by
  induction fuel with
  | zero => intro i next h; cases h
  | succ fuel ih =>
    intro i next h
    have hnext : ∀ k : Option Nat, (k.elim Ipv6Verdict.discard fun m =>
        headerLoop behind b offset length fuel (i + m) i) = .fragment f n → i ≤ f := by
      intro k hk
      cases k with
      | none => cases hk
      | some m =>
        have := ih hk
        omega
    unfold headerLoop at h
    split at h
    · split at h
      · cases h
      · simp only at h
        split at h
        · exact hnext _ h
        · split at h
          · exact hnext _ h
          · split at h
            · exact hnext _ h
            · split at h
              · cases h
                exact Nat.le_refl _
              · split at h
                · cases h
                · cases h
    · cases h

theorem adjustChunks_ne_nil {cs : List ChunkDesc} {n : Nat} (h : cs ≠ []) (hn : 0 < n) :
    (adjustChunks e cs n).1 ≠ [] := by
  cases cs with
  | nil => exact absurd rfl h
  | cons ch rest =>
    unfold adjustChunks
    rw [if_neg (by omega)]
    exact List.cons_ne_nil _ _

theorem addChunks_ne_nil {room : Nat} {cs : List ChunkDesc} {n : Nat} (h : cs ≠ []) :
    (addChunks e room cs n).2.1 ≠ [] := by
  induction room generalizing e cs n with
  | zero =>
    unfold addChunks
    split
    · exact h
    · exact h
  | succ room ih =>
    unfold addChunks
    split
    · exact h
    · simp only
      split
      · exact ih (List.append_ne_nil_of_left_ne_nil h _)
      · exact h

/-- The buffer of an entry stays in use when its datagram is processed. -/
theorem ipv6ProcessPacket_chunks {b : NetBuffer} {offset : Nat} (h : b.chunk ≠ []) :
    (ipv6ProcessPacket behind accepts e b offset).2.1.chunk ≠ [] := by
  unfold ipv6ProcessPacket
  simp only
  split
  · exact h
  · split
    · exact h
    · split
      · exact h
      · split
        · exact h
        · split
          · exact h
          · exact addChunks_ne_nil (adjustChunks_ne_nil h (by unfold sizeofIpv6Header; omega))

theorem enter_placed {b : NetBuffer} {offset : Nat} {buffer : NetBuffer}
    (h : d.enter behind accepts b offset = (e, buffer, some pkt)) :
    pkt.ipPacketOffset < pkt.fragHeaderOffset := by
  unfold Delivery.enter at h
  generalize hp : ipv6ProcessPacket behind accepts d.env b offset = r at h
  obtain ⟨e1, b1, v⟩ := r
  cases v with
  | discard => cases h
  | upper t o => cases h
  | fragment f n =>
    cases h
    show offset < f
    unfold ipv6ProcessPacket at hp
    simp only at hp
    split at hp
    · cases hp
    · split at hp
      · cases hp
      · split at hp
        · cases hp
        · split at hp
          · cases hp
          · split at hp
            · cases hp
            · have hv := congrArg (fun r => r.2.2) hp
              have hle := headerLoop_fragment _ hv
              unfold sizeofIpv6Header at hle
              omega

theorem enter_chunks {b : NetBuffer} {offset : Nat} (h : b.chunk ≠ []) :
    (d.enter behind accepts b offset).2.1.chunk ≠ [] := by
  have hp := @ipv6ProcessPacket_chunks behind accepts d.env b offset h
  unfold Delivery.enter
  generalize ipv6ProcessPacket behind accepts d.env b offset = r at hp ⊢
  obtain ⟨e1, b1, v⟩ := r
  cases v with
  | discard => exact hp
  | upper t o => exact hp
  | fragment f n => exact hp

/-! ## Runs -/

/-- The entries under delivery are distinct and in use. -/
structure Delivery.Sound (d : Delivery) : Prop where
  nodup : (d.stack.map Prod.fst).Nodup
  inUse : ∀ f ∈ d.stack, f.1 < d.queue.length ∧ (d.queue.getD f.1 {}).inUse = true
  length : d.queue.length = IPV6_MAX_FRAG_DATAGRAMS
  headed : Headed d.queue

/-- The condition: a fragment header found during a delivery does not match an entry that is under
delivery. -/
def DeliveryEvent.Foreign (behind : List UInt8) (accepts : List UInt8 → Bool) (d : Delivery)
    (ev : DeliveryEvent) : Prop :=
  ∀ d' pkt, d.begins behind accepts ev = (d', some pkt) → pkt.valid = true →
    ∀ f ∈ d'.stack, ipv6FragMatches pkt.ipHeader pkt.fragHeader (d'.queue.getD f.1 {}) = false

/-- What a fragment does while datagrams are under delivery. -/
theorem Delivery.Sound.parse (h : d.Sound) (hw : pkt.ipPacketOffset < pkt.fragHeaderOffset)
    (hf : pkt.valid = true → ∀ f ∈ d.stack,
      ipv6FragMatches pkt.ipHeader pkt.fragHeader (d.queue.getD f.1 {}) = false) :
    (d.parse be pkt).Sound ∧ d.stack <:+ (d.parse be pkt).stack ∧
      ∀ f ∈ d.stack, fragmentSlot be d.env d.queue pkt ≠ some f.1 ∧
        (d.parse be pkt).queue.getD f.1 {} = d.queue.getD f.1 {} := by
  have hslot : ∀ f ∈ d.stack, fragmentSlot be d.env d.queue pkt ≠ some f.1 := by
    intro f hfm hs
    unfold fragmentSlot at hs
    split at hs
    · rename_i hv
      obtain ⟨-, -, -, hfound⟩ := @search_frame be d.queue _ d.env _ pkt.ipHeader pkt.fragHeader _ rfl
      rcases (hfound f.1 hs).2.2 with hm | hu
      · rw [hf hv f hfm] at hm
        cases hm
      · rw [(h.inUse f hfm).2] at hu
        cases hu
    · cases hs
  unfold Delivery.parse
  split
  · exact ⟨h, List.suffix_refl _, fun f hfm => ⟨hslot f hfm, rfl⟩⟩
  · rename_i env queue hp
    obtain ⟨hlen, hh, hkeep, -⟩ := parse_frame h.headed hw hp
    have hk : ∀ f ∈ d.stack, queue.getD f.1 {} = d.queue.getD f.1 {} :=
      fun f hfm => hkeep f.1 (h.inUse f hfm).2 (hslot f hfm)
    refine ⟨⟨h.nodup, fun f hfm => ?_, hlen.trans h.length, hh⟩, List.suffix_refl _,
      fun f hfm => ⟨hslot f hfm, hk f hfm⟩⟩
    show f.1 < queue.length ∧ (queue.getD f.1 {}).inUse = true
    rw [hlen, hk f hfm]
    exact h.inUse f hfm
  · rename_i env queue i hp
    obtain ⟨hlen, hh, hkeep, hdel⟩ := parse_frame h.headed hw hp
    obtain ⟨hsi, hlt, hui⟩ := hdel i rfl
    have hk : ∀ f ∈ d.stack, queue.getD f.1 {} = d.queue.getD f.1 {} :=
      fun f hfm => hkeep f.1 (h.inUse f hfm).2 (hslot f hfm)
    refine ⟨⟨?_, fun f hfm => ?_, hlen.trans h.length, hh⟩, List.suffix_cons _ _,
      fun f hfm => ⟨hslot f hfm, hk f hfm⟩⟩
    · show (i :: d.stack.map Prod.fst).Nodup
      refine List.nodup_cons.mpr ⟨fun hm => ?_, h.nodup⟩
      obtain ⟨f, hfm, rfl⟩ := List.mem_map.mp hm
      exact hslot f hfm hsi
    · show f.1 < queue.length ∧ (queue.getD f.1 {}).inUse = true
      rcases List.mem_cons.mp hfm with rfl | hfm
      · exact ⟨by rw [hlen]; exact hlt, hui⟩
      · rw [hlen, hk f hfm]
        exact h.inUse f hfm

theorem Delivery.Sound.of_queue {env : Env} (h : d.Sound) (hs : d.stack = [])
    (hl : q.length = d.queue.length) (hh : Headed q) :
    Delivery.Sound { d with env, queue := q } := by
  refine ⟨h.nodup, fun f hf => ?_, hl.trans h.length, hh⟩
  change f ∈ d.stack at hf
  rw [hs] at hf
  cases hf

theorem headed_map {f : Ipv6FragDesc → Ipv6FragDesc} (h : Headed q)
    (hf : ∀ frag, f frag = frag ∨ (f frag).inUse = false) : Headed (q.map f) := by
  intro j hj
  rw [List.getD_eq_getElem?_getD, List.getElem?_map] at hj ⊢
  cases hg : q[j]? with
  | none =>
    rw [hg] at hj
    cases hj
  | some frag =>
    rw [hg] at hj
    have hq := h j
    rw [List.getD_eq_getElem?_getD, hg] at hq
    rcases hf frag with he | he
    · rw [Option.map_some, Option.getD_some, he] at hj ⊢
      exact hq hj
    · rw [Option.map_some, Option.getD_some, he] at hj
      cases hj

theorem getD_release (q : List Ipv6FragDesc) (i j : Nat) :
    (ipv6ReleaseFrag q i).getD j {} = if i = j then (q.getD j {}).drop else q.getD j {} := by
  unfold ipv6ReleaseFrag
  rw [List.getD_eq_getElem?_getD, List.getElem?_modify, List.getD_eq_getElem?_getD]
  cases q[j]? with
  | none =>
    split
    · rfl
    · rfl
  | some frag =>
    split
    · rfl
    · rfl

/-- What happens up to the call of `ipv6ParseFragmentHeader`. -/
theorem Delivery.Sound.begins {ev : DeliveryEvent} {r : Option Ipv6Fragment} (h : d.Sound)
    (hb : d.begins behind accepts ev = (d', r)) :
    d'.Sound ∧ ∀ pkt, r = some pkt → pkt.ipPacketOffset < pkt.fragHeaderOffset := by
  cases ev with
  | packet b offset =>
    unfold Delivery.begins at hb
    simp only at hb
    split at hb
    · rename_i hs
      generalize hen : d.enter behind accepts b offset = r at hb
      obtain ⟨env, b', pkt⟩ := r
      cases hb
      refine ⟨h.of_queue hs rfl h.headed, fun pkt hp => ?_⟩
      subst hp
      exact enter_placed hen
    · cases hb
      exact ⟨h, nofun⟩
  | call =>
    unfold Delivery.begins at hb
    simp only at hb
    split at hb
    · rename_i i stack hs
      obtain ⟨hlt, hu⟩ := h.inUse (i, false) (by rw [hs]; simp)
      have hnd := h.nodup
      rw [hs, List.map_cons, List.nodup_cons] at hnd
      have hne : (d.queue.getD i {}).buffer.chunk ≠ [] := by
        intro hnil
        unfold Ipv6FragDesc.inUse chunkCount at hu
        rw [hnil] at hu
        cases hu
      have hch := @enter_chunks behind accepts d _ 0 hne
      generalize hen : d.enter behind accepts (d.queue.getD i {}).buffer 0 = r at hb hch
      obtain ⟨env, b', pkt⟩ := r
      cases hb
      have hu' : Ipv6FragDesc.inUse { d.queue.getD i {} with buffer := b' } = true := by
        unfold Ipv6FragDesc.inUse chunkCount
        exact decide_eq_true (List.length_pos_iff.mpr hch)
      refine ⟨⟨?_, ?_, ?_, ?_⟩, fun pkt hp => ?_⟩
      · show (i :: stack.map Prod.fst).Nodup
        exact List.nodup_cons.mpr hnd
      · intro f hf
        show f.1 < (d.queue.set i _).length ∧ ((d.queue.set i _).getD f.1 {}).inUse = true
        rw [List.length_set]
        rcases List.mem_cons.mp hf with rfl | hf
        · rw [getD_set_self d.queue _ hlt]
          exact ⟨hlt, hu'⟩
        · have hif : i ≠ f.1 := fun he => hnd.1 (he ▸ List.mem_map.mpr ⟨f, hf, rfl⟩)
          rw [getD_set_ne d.queue _ hif]
          exact h.inUse f (by rw [hs]; exact List.mem_cons_of_mem _ hf)
      · show (d.queue.set i _).length = _
        rw [List.length_set]
        exact h.length
      · exact h.headed.set fun _ => h.headed i hu
      · subst hp
        exact enter_placed hen
    · cases hb
      exact ⟨h, nofun⟩
  | leave =>
    unfold Delivery.begins at hb
    simp only at hb
    split at hb
    · rename_i i stack hs
      cases hb
      have hnd := h.nodup
      rw [hs, List.map_cons, List.nodup_cons] at hnd
      refine ⟨⟨hnd.2, ?_, ?_, ?_⟩, nofun⟩
      · intro f hf
        show f.1 < (d.queue.modify i _).length ∧ ((ipv6ReleaseFrag d.queue i).getD f.1 {}).inUse = _
        have hif : i ≠ f.1 := fun he => hnd.1 (he ▸ List.mem_map.mpr ⟨f, hf, rfl⟩)
        rw [List.length_modify, getD_release, if_neg hif]
        exact h.inUse f (by rw [hs]; exact List.mem_cons_of_mem _ hf)
      · show (d.queue.modify i _).length = _
        rw [List.length_modify]
        exact h.length
      · intro j hj
        change ((ipv6ReleaseFrag d.queue i).getD j {}).inUse = true at hj
        show 0 < ((ipv6ReleaseFrag d.queue i).getD j {}).unfragPartLength
        rw [getD_release] at hj ⊢
        split at hj
        · cases hj
        · rename_i hij
          rw [if_neg hij]
          exact h.headed j hj
    · cases hb
      exact ⟨h, nofun⟩
  | tick time =>
    unfold Delivery.begins at hb
    simp only at hb
    cases hb
    refine ⟨?_, nofun⟩
    split
    · rename_i hs
      refine h.of_queue hs (List.length_map ..) (headed_map h.headed fun frag => ?_)
      split
      · exact .inr rfl
      · exact .inl rfl
    · exact h
  | flush =>
    unfold Delivery.begins at hb
    simp only at hb
    cases hb
    refine ⟨?_, nofun⟩
    split
    · rename_i hs
      exact h.of_queue hs (List.length_map ..) (headed_map h.headed fun frag => .inr rfl)
    · exact h

theorem Delivery.Sound.step {ev : DeliveryEvent} (h : d.Sound)
    (hf : ev.Foreign behind accepts d) : (Delivery.step be behind accepts d ev).Sound := by
  unfold Delivery.step
  generalize hb : d.begins behind accepts ev = r
  obtain ⟨d', r⟩ := r
  obtain ⟨h', hw⟩ := h.begins hb
  cases r with
  | none => exact h'
  | some pkt => exact (h'.parse (hw pkt rfl) (hf d' pkt hb)).1

theorem sound_start (env : Env) : (Delivery.start env).Sound := by
  refine ⟨List.nodup_nil, nofun, rfl, fun j hj => ?_⟩
  change ((List.replicate IPV6_MAX_FRAG_DATAGRAMS ({} : Ipv6FragDesc)).getD j {}).inUse = true at hj
  rw [List.getD_eq_getElem?_getD, List.getElem?_replicate] at hj
  split at hj
  · cases hj
  · cases hj

theorem Delivery.Sound.depth_le (h : d.Sound) : d.depth ≤ IPV6_MAX_FRAG_DATAGRAMS + 1 := by
  have hsub : d.stack.map Prod.fst ⊆ List.range IPV6_MAX_FRAG_DATAGRAMS := by
    intro i hi
    obtain ⟨f, hf, rfl⟩ := List.mem_map.mp hi
    have hlt := (h.inUse f hf).1
    rw [h.length] at hlt
    exact List.mem_range.mpr hlt
  have hle := (List.subperm_of_subset h.nodup hsub).length_le
  rw [List.length_map, List.length_range] at hle
  exact Nat.succ_le_succ hle

/-- A packet with a fragment header whose data begins with another one, of the same
identification. -/
def nestedPacket : NetBuffer :=
  ⟨[⟨[0x60, 0, 0, 0, 0, 24, 44, 64] ++ List.replicate 32 0 ++ [44, 0, 0, 0, 0, 0, 0, 1] ++
    [17, 0, 0, 0, 0, 0, 0, 1] ++ List.replicate 8 7, 0⟩], 1⟩

end Cyclone
