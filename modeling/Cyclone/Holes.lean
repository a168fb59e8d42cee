import Cyclone.Ipv6Frag
import Cyclone.Lib.Links

/-!
# Cyclone.Holes

The list of holes of a reassembly entry.

* `Chain`: the descriptors in the buffer form the list of the given holes.
* `holeLoop_chain`: the loop over the descriptors is `walkHoles` on the holes they describe.
* `walkHoles_spec`: what the walk leaves of the holes, and when it drops the datagram.
-/

namespace Cyclone

open NetBuffer Serial Links

variable {be moreFlag : Bool} {frag : Ipv6FragDesc} {a b : Nat}

/-! ## The layout of a buffer -/

/-- What an operation on the contents leaves alone. -/
def ChunkDesc.layout (ch : ChunkDesc) : Nat × Nat := (ch.length, ch.size)

def layout (cs : List ChunkDesc) : List (Nat × Nat) := cs.map ChunkDesc.layout

@[simp] theorem layout_cons (ch : ChunkDesc) (cs : List ChunkDesc) :
    layout (ch :: cs) = ch.layout :: layout cs := rfl

theorem layout_write {ch : ChunkDesc} {off : Nat} {ys : List UInt8}
    (h : off + ys.length ≤ ch.length) : (ch.write off ys).layout = ch.layout :=
  Prod.ext (length_write h) rfl

theorem layout_writeChunks (cs : List ChunkDesc) (off : Nat) (src : List UInt8) :
    layout (writeChunks cs off src) = layout cs := by
  induction cs generalizing off src with
  | nil => rfl
  | cons ch rest ih =>
    unfold writeChunks
    split
    · rfl
    · split
      · have hw : (ch.write off (src.take (min src.length (ch.length - off)))).layout = ch.layout :=
          layout_write (by rw [List.length_take]; omega)
        simp only [layout_cons, hw, ih]
      · simp only [layout_cons, ih]

theorem layout_copyChunks (fuel : Nat) : ∀ (d : List ChunkDesc) (dOff : Nat) (s : List ChunkDesc)
    (sOff len : Nat), (∀ ch ∈ d.head?, dOff ≤ ch.length) → (∀ ch ∈ s.head?, sOff ≤ ch.length) →
    layout (copyChunks fuel d dOff s sOff len).1 = layout d := by
  induction fuel with
  | zero => intro d dOff s sOff len _ _; rfl
  | succ fuel ih =>
    intro d dOff s sOff len hd hs
    cases d with
    | nil => rfl
    | cons dc ds =>
    cases s with
    | nil => rfl
    | cons sc ss =>
      have hd' : dOff ≤ dc.length := hd dc (by simp)
      have hs' : sOff ≤ sc.length := hs sc (by simp)
      unfold copyChunks
      split
      · rfl
      simp only
      generalize hn : min len (min (dc.length - dOff) (sc.length - sOff)) = n
      have hw : (dc.write dOff ((sc.data.drop sOff).take n)).layout = dc.layout :=
        layout_write (by rw [List.length_take]; omega)
      generalize hss : (if sOff + n ≥ sc.length then (ss, 0) else (sc :: ss, sOff + n)) = p
      have hp : ∀ ch ∈ p.1.head?, p.2 ≤ ch.length := by
        rw [← hss]
        split
        · intro ch _; exact Nat.zero_le _
        · intro ch hch
          obtain rfl : sc = ch := by simpa using hch
          omega
      split
      · simp only [layout_cons, hw]
        rw [ih ds 0 p.1 p.2 (len - n) (fun _ _ => Nat.zero_le _) hp]
      · rw [ih _ _ p.1 p.2 (len - n) ?_ hp, layout_cons, hw, layout_cons]
        intro ch hch
        obtain rfl : dc.write dOff ((sc.data.drop sOff).take n) = ch := by simpa using hch
        have hlen := congrArg Prod.fst hw
        simp only [ChunkDesc.layout] at hlen
        omega

theorem layout_netBufferCopy (dest src : NetBuffer) (dOff sOff n : Nat) :
    layout (netBufferCopy dest dOff src sOff n).1.chunk = layout dest.chunk := by
  unfold netBufferCopy
  split
  · rename_i ds o ss o' hd hs
    have hc := layout_copyChunks (ds.length + ss.length) ds o ss o' n (skipChunks_head hd)
      (skipChunks_head hs)
    have happ := (chunksBefore_append hd).1
    show layout (_ ++ _) = _
    rw [layout, List.map_append, ← layout, ← layout, hc, layout, layout, ← List.map_append, happ]
    rfl
  · rfl

/-! ## Fields of descriptors -/

namespace Ipv6FragDesc

/-- The bytes behind the unfragmentable part. -/
def region (frag : Ipv6FragDesc) : List UInt8 := frag.buffer.bytes.drop frag.unfragPartLength

theorem load_eq (be : Bool) (frag : Ipv6FragDesc) (pos : Nat) :
    frag.load be pos = load16 be (frag.region.getD pos 0) (frag.region.getD (pos + 1) 0) := by
  unfold load region
  rw [netBufferRead_eq]
  simp [List.getD_eq_getElem?_getD, List.getElem?_drop, Nat.add_assoc]

theorem load_congr {frag' : Ipv6FragDesc} {pos pos' : Nat}
    (h : ∀ k < 2, frag'.region[pos' + k]? = frag.region[pos + k]?) :
    frag'.load be pos' = frag.load be pos := by
  have h0 := h 0 (by omega)
  have h1 := h 1 (by omega)
  rw [Nat.add_zero, Nat.add_zero] at h0
  rw [load_eq, load_eq]
  simp only [List.getD_eq_getElem?_getD, h0, h1]

theorem region_store {pos n : Nat} (h : pos + 2 ≤ frag.region.length) :
    (frag.store be pos n).region = Ring.splice frag.region pos (store16 be n) := by
  have hlen := length_store16 be n
  unfold region at h ⊢
  rw [List.length_drop] at h
  show ((netBufferWrite frag.buffer (frag.unfragPartLength + pos) (store16 be n)).bytes.drop
    frag.unfragPartLength) = _
  rw [netBufferWrite_bytes (by omega)]
  have hsplit : frag.buffer.bytes = frag.buffer.bytes.take frag.unfragPartLength ++
      frag.buffer.bytes.drop frag.unfragPartLength := (List.take_append_drop _ _).symm
  have htake : (frag.buffer.bytes.take frag.unfragPartLength).length = frag.unfragPartLength := by
    rw [List.length_take]; omega
  conv_lhs => rw [hsplit]
  rw [splice_append_right (by omega), htake, Nat.add_sub_cancel_left,
    List.drop_append_of_le_length (by omega), List.drop_eq_nil_of_le (by omega), List.nil_append]

theorem length_region_store (be : Bool) (frag : Ipv6FragDesc) (pos n : Nat) :
    (frag.store be pos n).region.length = frag.region.length := by
  unfold region
  rw [List.length_drop, List.length_drop]
  show (netBufferWrite frag.buffer _ _).bytes.length - _ = _
  rw [netBufferWrite_length]
  rfl

theorem load16_store16 {n : Nat} (h : n < 65536) (rest : List UInt8) :
    load16 be ((store16 be n ++ rest).getD 0 0) ((store16 be n ++ rest).getD 1 0) = n := by
  cases be with
  | false =>
    simp [store16, load16, UInt8.toNat_ofNat']
    omega
  | true =>
    simp [store16, load16, UInt8.toNat_ofNat']
    omega

theorem load_store_same {pos n : Nat} (h : pos + 2 ≤ frag.region.length) (hn : n < 65536) :
    (frag.store be pos n).load be pos = n := by
  have hlen := length_store16 be n
  rw [load_eq, region_store h]
  have h0 : ∀ k < 2, (Ring.splice frag.region pos (store16 be n)).getD (pos + k) 0 =
      (store16 be n ++ []).getD k 0 := by
    intro k hk
    rw [List.getD_eq_getElem?_getD, Ring.splice_getElem? (by omega), if_pos (by omega),
      Nat.add_sub_cancel_left, List.append_nil, List.getD_eq_getElem?_getD]
  have hz := h0 0 (by omega)
  rw [Nat.add_zero] at hz
  rw [h0 1 (by omega), hz]
  exact load16_store16 hn []

theorem load_store_other {pos pos' n : Nat} (h : pos + 2 ≤ frag.region.length)
    (hne : pos + 2 ≤ pos' ∨ pos' + 2 ≤ pos) :
    (frag.store be pos n).load be pos' = frag.load be pos' := by
  have hlen := length_store16 be n
  refine load_congr fun k hk => ?_
  rw [region_store h, Ring.splice_getElem? (by omega), if_neg (by omega)]

theorem load_lt (be : Bool) (frag : Ipv6FragDesc) (pos : Nat) : frag.load be pos < 65536 :=
  load16_lt _ _

/-- A position that holds a descriptor. -/
def Spot (frag : Ipv6FragDesc) (p : Nat) : Prop := p % 8 = 0 ∧ p + 6 ≤ frag.region.length

/-- The entry with other hole descriptors. -/
structure Kin (frag frag' : Ipv6FragDesc) : Prop where
  unfrag : frag'.unfragPartLength = frag.unfragPartLength
  part : frag'.fragPartLength = frag.fragPartLength
  length : frag'.region.length = frag.region.length
  chunks : layout frag'.buffer.chunk = layout frag.buffer.chunk
  room : frag'.buffer.maxChunkCount = frag.buffer.maxChunkCount

theorem Kin.refl (frag : Ipv6FragDesc) : Kin frag frag := ⟨rfl, rfl, rfl, rfl, rfl⟩

theorem Kin.trans {frag' frag'' : Ipv6FragDesc} (h : Kin frag frag') (h' : Kin frag' frag'') :
    Kin frag frag'' :=
  ⟨h'.unfrag.trans h.unfrag, h'.part.trans h.part, h'.length.trans h.length,
    h'.chunks.trans h.chunks, h'.room.trans h.room⟩

theorem Kin.spot {frag' : Ipv6FragDesc} {p : Nat} (h : Kin frag frag') (hp : frag.Spot p) :
    frag'.Spot p := ⟨hp.1, by rw [h.length]; exact hp.2⟩

theorem kin_store (be : Bool) (frag : Ipv6FragDesc) (pos n : Nat) :
    Kin frag (frag.store be pos n) :=
  ⟨rfl, rfl, length_region_store be frag pos n, layout_writeChunks _ _ _, rfl⟩

theorem kin_setNext (be : Bool) (frag : Ipv6FragDesc) (prev : Option Nat) (v : Nat) :
    Kin frag (frag.setNext be prev v) := by
  cases prev with
  | none => exact ⟨rfl, rfl, rfl, rfl, rfl⟩
  | some p => exact kin_store be frag (p + 4) v

variable {prev c : Option Nat} {v p : Nat}

/-- The link that is set. -/
theorem next_setNext (hp : ∀ q ∈ prev, frag.Spot q) (hv : v < 65536) :
    (frag.setNext be prev v).next be prev = v := by
  cases prev with
  | none => rfl
  | some q =>
    have hq := hp q rfl
    exact load_store_same (by have := hq.2; omega) hv

/-- The other links. -/
theorem next_setNext_other (hp : ∀ q ∈ prev, frag.Spot q) (hc : ∀ q ∈ c, frag.Spot q)
    (hne : c ≠ prev) : (frag.setNext be prev v).next be c = frag.next be c := by
  cases prev with
  | none =>
    cases c with
    | none => exact absurd rfl hne
    | some q => rfl
  | some q =>
    have hq := hp q rfl
    unfold Spot at hq
    cases c with
    | none => rfl
    | some r =>
      have hr := hc r rfl
      unfold Spot at hr
      have hqr : r ≠ q := fun h => hne (by rw [h])
      exact load_store_other (by omega) (by omega)

/-- The bounds of the holes. -/
theorem load_setNext {k : Nat} (hp : ∀ q ∈ prev, frag.Spot q) (hc : frag.Spot p)
    (hk : k = 0 ∨ k = 2) :
    (frag.setNext be prev v).load be (p + k) = frag.load be (p + k) := by
  cases prev with
  | none => rfl
  | some q =>
    have hq := hp q rfl
    unfold Spot at hq hc
    exact load_store_other (by omega) (by omega)

end Ipv6FragDesc

open Ipv6FragDesc

theorem ipv6FindHole_some {p : Nat} (h : p < frag.region.length) :
    ipv6FindHole frag p = some p := by
  unfold ipv6FindHole
  cases hat : netBufferAt frag.buffer (frag.unfragPartLength + p) with
  | none =>
    have hle := (chunkAt_none _ _).mp hat
    unfold region bytes at h
    rw [List.length_drop] at h
    omega
  | some pos => rfl

theorem ipv6FindHole_none {p : Nat} (h : frag.region.length ≤ p) :
    ipv6FindHole frag p = none := by
  unfold ipv6FindHole
  unfold region bytes at h
  rw [List.length_drop] at h
  rw [netBufferAt, (chunkAt_none _ _).mpr (by omega)]
  rfl

/-- A new descriptor is put behind `prevHole`. -/
theorem insertHole_spec {prevHole : Option Nat} {x last : Nat} (hx : frag.Spot x)
    (hprev : ∀ q ∈ prevHole, frag.Spot q) (hne : prevHole ≠ some x) (hx16 : x < 65536)
    (hlast : last < 65536) (hnext : frag.next be prevHole < 65536) :
    ∃ frag', insertHole be frag prevHole x last = some (frag', some x) ∧ Kin frag frag' ∧
      frag'.next be prevHole = x ∧ frag'.next be (some x) = frag.next be prevHole ∧
      frag'.load be x = x ∧ frag'.holeLast be x = last ∧
      (∀ c, c ≠ prevHole → c ≠ some x → (∀ q ∈ c, frag.Spot q) →
        frag'.next be c = frag.next be c) ∧
      ∀ q, q ≠ x → frag.Spot q →
        frag'.load be q = frag.load be q ∧ frag'.holeLast be q = frag.holeLast be q := by
  have hx' := hx
  unfold Spot at hx'
  unfold insertHole
  rw [ipv6FindHole_some (by omega), Option.map_some]
  simp only
  generalize h1 : frag.store be x x = f1
  generalize h2 : f1.store be (x + 2) last = f2
  generalize h3 : f2.store be (x + 4) (f2.next be prevHole) = f3
  have hk1 : Kin frag f1 := h1 ▸ kin_store be frag x x
  have hk2 : Kin f1 f2 := h2 ▸ kin_store be f1 (x + 2) last
  have hk3 : Kin f2 f3 := h3 ▸ kin_store be f2 (x + 4) _
  have hl1 := hk1.length
  have hl2 := hk2.length
  have hl3 := hk3.length
  have hk : Kin frag f3 := (hk1.trans hk2).trans hk3
  have hprev3 : ∀ q ∈ prevHole, f3.Spot q := fun q hq => hk.spot (hprev q hq)
  -- what the three stores leave of the fields of another descriptor
  have hother : ∀ q, q ≠ x → frag.Spot q → ∀ k, k = 0 ∨ k = 2 ∨ k = 4 →
      f2.load be (q + k) = frag.load be (q + k) ∧ f3.load be (q + k) = frag.load be (q + k) := by
    intro q hqx hq k hk
    unfold Spot at hq
    have e1 : f1.load be (q + k) = frag.load be (q + k) := by
      rw [← h1]; exact load_store_other (by omega) (by omega)
    have e2 : f2.load be (q + k) = f1.load be (q + k) := by
      rw [← h2]; exact load_store_other (by omega) (by omega)
    have e3 : f3.load be (q + k) = f2.load be (q + k) := by
      rw [← h3]; exact load_store_other (by omega) (by omega)
    exact ⟨e2.trans e1, e3.trans (e2.trans e1)⟩
  have hfirst : f1.firstHole = frag.firstHole ∧ f2.firstHole = frag.firstHole ∧
      f3.firstHole = frag.firstHole := by
    subst h3 h2 h1
    exact ⟨rfl, rfl, rfl⟩
  have hnexts : ∀ c, c ≠ some x → (∀ q ∈ c, frag.Spot q) →
      f2.next be c = frag.next be c ∧ f3.next be c = frag.next be c := by
    intro c hc hspot
    cases c with
    | none => exact ⟨hfirst.2.1, hfirst.2.2⟩
    | some q => exact hother q (fun h => hc (by rw [h])) (hspot q rfl) 4 (by omega)
  have hfx : f3.load be x = x := by
    have e1 : f1.load be x = x := by rw [← h1]; exact load_store_same (by omega) hx16
    have e2 : f2.load be x = f1.load be x := by
      rw [← h2]; exact load_store_other (by omega) (by omega)
    have e3 : f3.load be x = f2.load be x := by
      rw [← h3]; exact load_store_other (by omega) (by omega)
    rw [e3, e2, e1]
  have hlx : f3.load be (x + 2) = last := by
    have e2 : f2.load be (x + 2) = last := by
      rw [← h2]; exact load_store_same (by omega) hlast
    have e3 : f3.load be (x + 2) = f2.load be (x + 2) := by
      rw [← h3]; exact load_store_other (by omega) (by omega)
    rw [e3, e2]
  have hnx : f3.next be (some x) = frag.next be prevHole := by
    have hp := (hnexts prevHole hne hprev).1
    show f3.load be (x + 4) = _
    rw [← h3, load_store_same (by omega) (by rw [hp]; exact hnext), hp]
  rw [hfx]
  refine ⟨f3.setNext be prevHole x, rfl, hk.trans (kin_setNext be f3 prevHole x),
    next_setNext hprev3 hx16, ?_, ?_, ?_, ?_, ?_⟩
  · rw [next_setNext_other hprev3 (fun q hq => by cases hq; exact hk.spot hx) hne.symm, hnx]
  · exact (load_setNext (k := 0) hprev3 (hk.spot hx) (.inl rfl)).trans hfx
  · exact (load_setNext hprev3 (hk.spot hx) (.inr rfl)).trans hlx
  · intro c hc hcx hspot
    rw [next_setNext_other hprev3 (fun q hq => hk.spot (hspot q hq)) hc]
    exact (hnexts c hcx hspot).2
  · intro q hqx hq
    have hq0 := (hother q hqx hq 0 (by omega)).2
    have hq2 := (hother q hqx hq 2 (by omega)).2
    exact ⟨(load_setNext (k := 0) hprev3 (hk.spot hq) (.inl rfl)).trans hq0,
      (load_setNext hprev3 (hk.spot hq) (.inr rfl)).trans hq2⟩

/-! ## The list -/

/-- The descriptors form the list of the holes in `done`, then of those in `rest`. -/
structure Chain (be : Bool) (frag : Ipv6FragDesc) (done rest : List (Nat × Nat)) : Prop where
  before : Linked (frag.next be) none (done.map Prod.fst)
    (frag.next be (lastNode none (done.map Prod.fst)))
  after : Linked (frag.next be) (lastNode none (done.map Prod.fst)) (rest.map Prod.fst)
    IPV6_INFINITY
  nodup : ((done ++ rest).map Prod.fst).Nodup
  holds : ∀ h ∈ done ++ rest, frag.Spot h.1 ∧ frag.load be h.1 = h.1 ∧ frag.holeLast be h.1 = h.2

variable {done rest : List (Nat × Nat)} {h : Nat × Nat}

theorem Chain.spot_last (hc : Chain be frag done rest) :
    ∀ q ∈ lastNode none (done.map Prod.fst), frag.Spot q := by
  intro q hq
  rcases lastNode_mem none (done.map Prod.fst) with he | ⟨r, hr, he⟩
  · rw [he] at hq; cases hq
  · rw [he] at hq
    cases hq
    obtain ⟨h, hh, rfl⟩ := List.mem_map.mp hr
    exact (hc.holds h (List.mem_append_left _ hh)).1

theorem Chain.last_fresh {x : Nat} (hx : x ∉ done.map Prod.fst) :
    lastNode none (done.map Prod.fst) ≠ some x := by
  rcases lastNode_mem none (done.map Prod.fst) with he | ⟨r, hr, he⟩
  · rw [he]; simp
  · rw [he]
    rintro heq
    cases heq
    exact hx hr

theorem Chain.next_lt (hc : Chain be frag done rest) :
    frag.next be (lastNode none (done.map Prod.fst)) < 65536 := by
  have hafter := hc.after
  cases rest with
  | nil =>
    rw [show frag.next be _ = IPV6_INFINITY from hafter]
    decide
  | cons h t =>
    rw [show frag.next be _ = h.1 from hafter.1]
    have hh := (hc.holds h (by simp)).2.1
    rw [← hh]
    exact load_lt be frag h.1

/-- The loop passes a hole by. -/
theorem Chain.advance (hc : Chain be frag done (h :: rest)) :
    Chain be frag (done ++ [h]) rest := by
  have hafter := hc.after
  refine ⟨?_, ?_, by simpa using hc.nodup, by simpa using hc.holds⟩
  · rw [List.map_append, List.map_singleton, lastNode_snoc]
    refine Linked.snoc ?_ rfl
    have hb := hc.before
    rwa [show frag.next be _ = h.1 from hafter.1] at hb
  · rw [List.map_append, List.map_singleton, lastNode_snoc]
    exact hafter.2

/-- The loop takes a hole out of the list. -/
theorem Chain.remove (hc : Chain be frag done (h :: rest)) :
    Chain be (frag.setNext be (lastNode none (done.map Prod.fst)) (frag.next be (some h.1)))
      done rest := by
  generalize hprev : lastNode none (done.map Prod.fst) = prev
  have hspot : ∀ q ∈ prev, frag.Spot q := hprev ▸ hc.spot_last
  have hlt : frag.next be (some h.1) < 65536 := load_lt be frag _
  have hk := kin_setNext be frag prev (frag.next be (some h.1))
  have hnodup := hc.nodup
  rw [List.map_append, List.map_cons] at hnodup
  have hsub : (done ++ rest).map Prod.fst |>.Nodup := by
    rw [List.map_append]
    exact hnodup.sublist (List.Sublist.append_left (List.sublist_cons_self _ _) _)
  have hmem : ∀ g ∈ done ++ rest, g ∈ done ++ h :: rest := by
    intro g hg
    simp only [List.mem_append, List.mem_cons] at hg ⊢
    rcases hg with hg | hg
    · exact .inl hg
    · exact .inr (.inr hg)
  have hspots : ∀ q ∈ (done ++ rest).map Prod.fst, frag.Spot q := by
    intro q hq
    obtain ⟨g, hg, rfl⟩ := List.mem_map.mp hq
    exact (hc.holds g (hmem g hg)).1
  have hother : ∀ c, c ≠ prev → (c = none ∨ ∃ q ∈ (done ++ rest).map Prod.fst, c = some q) →
      (frag.setNext be prev (frag.next be (some h.1))).next be c = frag.next be c := by
    intro c hne hcq
    refine next_setNext_other hspot ?_ hne
    rcases hcq with rfl | ⟨q, hq, rfl⟩
    · intro q hq; cases hq
    · intro r hr
      cases hr
      exact hspots q hq
  refine ⟨?_, ?_, hsub, ?_⟩
  · have hd : (done.map Prod.fst).Nodup := (List.nodup_append.mp hnodup).1
    refine hc.before.relink hd (fun q _ => by simp) ?_
    intro c hcq hne
    rw [hprev] at hne
    refine hother c hne (hcq.imp id ?_)
    rintro ⟨q, hq, rfl⟩
    exact ⟨q, by rw [List.map_append]; exact List.mem_append_left _ hq, rfl⟩
  · rw [hprev]
    have hafter := hc.after
    rw [hprev] at hafter
    refine hafter.remove (next_setNext hspot hlt) fun q hq => ?_
    refine hother (some q) ?_ (.inr ⟨q, by rw [List.map_append]; exact List.mem_append_right _ hq,
      rfl⟩)
    rw [← hprev]
    refine (Chain.last_fresh fun hd => ?_).symm
    have hdis := (List.nodup_append.mp hnodup).2.2
    exact hdis q hd q (List.mem_cons_of_mem _ hq) rfl
  · intro g hg
    obtain ⟨h1, h2, h3⟩ := hc.holds g (hmem g hg)
    exact ⟨hk.spot h1, (load_setNext (k := 0) hspot h1 (.inl rfl)).trans h2,
      (load_setNext hspot h1 (.inr rfl)).trans h3⟩

/-- The loop puts a hole into the list. -/
theorem Chain.insert {x last : Nat} (hc : Chain be frag done rest) (hx : frag.Spot x)
    (hfresh : x ∉ (done ++ rest).map Prod.fst) (hlen : frag.region.length < 65536)
    (hlast : last < 65536) :
    ∃ frag', insertHole be frag (lastNode none (done.map Prod.fst)) x last =
        some (frag', some x) ∧ Kin frag frag' ∧ Chain be frag' (done ++ [(x, last)]) rest := by
  have hxd : x ∉ done.map Prod.fst := by
    intro hd
    exact hfresh (by rw [List.map_append]; exact List.mem_append_left _ hd)
  have hxr : x ∉ rest.map Prod.fst := by
    intro hd
    exact hfresh (by rw [List.map_append]; exact List.mem_append_right _ hd)
  have hne := Chain.last_fresh hxd
  have hx' := hx
  unfold Spot at hx'
  obtain ⟨frag', heq, hk, hprev, hnx, hfx, hlx, hother, hfields⟩ :=
    @insertHole_spec be _ _ _ _ hx hc.spot_last hne (by omega) hlast hc.next_lt
  have hspots : ∀ q ∈ (done ++ rest).map Prod.fst, frag.Spot q := by
    intro q hq
    obtain ⟨g, hg, rfl⟩ := List.mem_map.mp hq
    exact (hc.holds g hg).1
  refine ⟨frag', heq, hk, ?_⟩
  have hnd := List.nodup_append.mp (by simpa only [List.map_append] using hc.nodup)
  have hbefore : Linked (frag'.next be) none (done.map Prod.fst) x := by
    rw [← hprev]
    refine hc.before.relink hnd.1 (fun q _ => by simp) ?_
    intro c hcq hne'
    refine hother c hne' ?_ ?_
    · rcases hcq with rfl | ⟨q, hq, rfl⟩
      · simp
      · intro heq
        cases heq
        exact hxd hq
    · intro r hr
      rcases hcq with rfl | ⟨q, hq, rfl⟩
      · cases hr
      · cases hr
        exact hspots r (by rw [List.map_append]; exact List.mem_append_left _ hq)
  have hafter : Linked (frag'.next be) (lastNode none (done.map Prod.fst))
      (x :: rest.map Prod.fst) IPV6_INFINITY := by
    refine hc.after.insert hprev hnx fun q hq => ?_
    have hqx : q ≠ x := fun h => hxr (h ▸ hq)
    refine hother (some q) ?_ (fun h => hqx (Option.some.inj h)) fun r hr => ?_
    · refine (Chain.last_fresh fun hd => ?_).symm
      exact hnd.2.2 q hd q hq rfl
    · cases hr
      exact hspots q (by rw [List.map_append]; exact List.mem_append_right _ hq)
  refine ⟨?_, ?_, ?_, ?_⟩
  · rw [List.map_append, List.map_singleton, lastNode_snoc]
    exact hbefore.snoc rfl
  · rw [List.map_append, List.map_singleton, lastNode_snoc]
    exact hafter.2
  · have hperm : ((done ++ [(x, last)] ++ rest).map Prod.fst).Perm
        (x :: (done ++ rest).map Prod.fst) := by
      simp only [List.map_append, List.map_cons, List.append_assoc, List.singleton_append]
      exact List.perm_middle
    exact hperm.nodup_iff.mpr (List.nodup_cons.mpr ⟨hfresh, hc.nodup⟩)
  · intro g hg
    simp only [List.mem_append, List.mem_singleton, or_assoc] at hg
    by_cases hgx : g = (x, last)
    · subst hgx
      exact ⟨hk.spot hx, hfx, hlx⟩
    · have hg' : g ∈ done ++ rest := by
        rcases hg with hg | hg | hg
        · exact List.mem_append_left _ hg
        · exact absurd hg hgx
        · exact List.mem_append_right _ hg
      obtain ⟨h1, h2, h3⟩ := hc.holds g hg'
      have hne' : g.1 ≠ x := by
        intro h
        exact hfresh (List.mem_map.mpr ⟨g, hg', h⟩)
      obtain ⟨h4, h5⟩ := hfields g.1 hne' h1
      exact ⟨hk.spot h1, h4.trans h2, h5.trans h3⟩

/-! ## The walk -/

/-- What a fragment of the bytes from `a` to `b` leaves of a hole. -/
def leftover (moreFlag : Bool) (a b : Nat) (h : Nat × Nat) : List (Nat × Nat) :=
  (if a > h.1 then [(h.1, a)] else []) ++ if b < h.2 ∧ moreFlag then [(b, h.2)] else []

/-- The holes after a fragment; `none` when it overlaps. -/
def walkHoles (moreFlag : Bool) (a b : Nat) : List (Nat × Nat) → Option (List (Nat × Nat))
  | [] => some []
  | h :: rest =>
    if a < h.2 ∧ b > h.1 then
      if a < h.1 ∨ b > h.2 then none
      else (walkHoles moreFlag a b rest).map (leftover moreFlag a b h ++ ·)
    else (walkHoles moreFlag a b rest).map (h :: ·)

/-- Two ranges without a common position. -/
def Apart (g h : Nat × Nat) : Prop := g.2 ≤ h.1 ∨ h.2 ≤ g.1

theorem Apart.symm {g h : Nat × Nat} (ha : Apart g h) : Apart h g := ha.elim .inr .inl

/-- A list of holes as reassembly keeps it. -/
structure HoleList (hs : List (Nat × Nat)) : Prop where
  apart : hs.Pairwise Apart
  nonempty : ∀ h ∈ hs, h.1 < h.2
  bounded : ∀ h ∈ hs, h.2 < 65536
  aligned : ∀ h ∈ hs, h.2 % 8 = 0 ∨ h.2 = IPV6_INFINITY

theorem mem_leftover {g : Nat × Nat} (hg : g ∈ leftover moreFlag a b h) (ha : a ≤ h.2)
    (hb : h.1 ≤ b) :
    h.1 ≤ g.1 ∧ g.2 ≤ h.2 ∧ g.1 < g.2 ∧ Apart g (a, b) ∧
      (g.1 = h.1 ∨ g.1 = b ∧ moreFlag) ∧ (g.2 = a ∨ g.2 = h.2) := by
  unfold leftover at hg
  rcases List.mem_append.mp hg with hg | hg
  · split at hg
    · obtain rfl := List.mem_singleton.mp hg
      exact ⟨Nat.le_refl _, ha, by assumption, .inl (Nat.le_refl _), .inl rfl, .inl rfl⟩
    · cases hg
  · split at hg
    · rename_i hbm
      obtain rfl := List.mem_singleton.mp hg
      exact ⟨hb, Nat.le_refl _, hbm.1, .inr (Nat.le_refl _), .inr ⟨rfl, hbm.2⟩, .inr rfl⟩
    · cases hg

theorem pairwise_leftover (hab : a ≤ b) : (leftover moreFlag a b h).Pairwise Apart := by
  unfold leftover
  split
  · split
    · simp only [List.singleton_append, List.pairwise_cons, List.mem_singleton]
      exact ⟨fun g hg => by subst hg; exact .inl hab, by simp⟩
    · simp
  · split
    · simp
    · simp

/-- A hole is replaced by what is left of it. -/
theorem HoleList.split (hg : HoleList (done ++ h :: rest)) (ha8 : a % 8 = 0) (hab : a ≤ b)
    (ha : a ≤ h.2) (hb : h.1 ≤ b) : HoleList (done ++ leftover moreFlag a b h ++ rest) := by
  have hsub : ∀ g ∈ leftover moreFlag a b h, _ := fun g hgm => mem_leftover hgm ha hb
  have hmem : h ∈ done ++ h :: rest := by simp
  have hp := List.pairwise_append.mp hg.apart
  have hp2 := List.pairwise_cons.mp hp.2.1
  have hold : ∀ g ∈ done ++ leftover moreFlag a b h ++ rest,
      g ∈ done ++ h :: rest ∨ g ∈ leftover moreFlag a b h := by
    intro g hgm
    simp only [List.mem_append, List.mem_cons] at hgm ⊢
    rcases hgm with (hgm | hgm) | hgm
    · exact .inl (.inl hgm)
    · exact .inr hgm
    · exact .inl (.inr (.inr hgm))
  refine ⟨?_, ?_, ?_, ?_⟩
  · rw [List.append_assoc, List.pairwise_append, List.pairwise_append]
    refine ⟨hp.1, ⟨pairwise_leftover hab, hp2.2, ?_⟩, ?_⟩
    · intro g hgm r hr
      obtain ⟨h1, h2, -, -⟩ := hsub g hgm
      rcases hp2.1 r hr with h3 | h3
      · exact .inl (by omega)
      · exact .inr (by omega)
    · intro d hd g hgm
      rcases List.mem_append.mp hgm with hgm | hgm
      · obtain ⟨h1, h2, -, -⟩ := hsub g hgm
        rcases hp.2.2 d hd h (by simp) with h3 | h3
        · exact .inl (by omega)
        · exact .inr (by omega)
      · exact hp.2.2 d hd g (List.mem_cons_of_mem _ hgm)
  · intro g hgm
    rcases hold g hgm with hgm | hgm
    · exact hg.nonempty g hgm
    · exact (hsub g hgm).2.2.1
  · intro g hgm
    rcases hold g hgm with hgm | hgm
    · exact hg.bounded g hgm
    · have := hg.bounded h hmem
      have := (hsub g hgm).2.1
      omega
  · intro g hgm
    rcases hold g hgm with hgm | hgm
    · exact hg.aligned g hgm
    · rcases (hsub g hgm).2.2.2.2.2 with he | he
      · exact .inl (by rw [he]; exact ha8)
      · rw [he]; exact hg.aligned h hmem

/-- Where a new descriptor is put there is none. -/
theorem HoleList.fresh (hg : HoleList (done ++ h :: rest)) (ha : h.1 < b) (hb : b < h.2) :
    b ∉ (done ++ rest).map Prod.fst := by
  intro hm
  obtain ⟨g, hgm, rfl⟩ := List.mem_map.mp hm
  have hp := List.pairwise_append.mp hg.apart
  have hp2 := List.pairwise_cons.mp hp.2.1
  have hne : g.1 < g.2 := hg.nonempty g (by
    simp only [List.mem_append, List.mem_cons] at hgm ⊢
    rcases hgm with hgm | hgm
    · exact .inl hgm
    · exact .inr (.inr hgm))
  have hap : Apart g h := by
    rcases List.mem_append.mp hgm with hgm | hgm
    · exact hp.2.2 g hgm h (by simp)
    · exact (hp2.1 g hgm).symm
  rcases hap with h1 | h1
  · omega
  · omega

theorem Chain.fresh (hc : Chain be frag done (h :: rest)) :
    h.1 ∉ (done ++ rest).map Prod.fst := by
  have hperm : ((done ++ h :: rest).map Prod.fst).Perm (h.1 :: (done ++ rest).map Prod.fst) := by
    simp only [List.map_append, List.map_cons]
    exact List.perm_middle
  exact (List.nodup_cons.mp (hperm.nodup_iff.mp hc.nodup)).1

/-- One hole is split in the buffer. -/
theorem splitHole_chain (hc : Chain be frag done rest) (hg : HoleList (done ++ h :: rest))
    (hspot : frag.Spot h.1) (hfresh : h.1 ∉ (done ++ rest).map Prod.fst)
    (hlen : frag.region.length < 65536) (ha16 : a < 65536)
    (hsb : b > h.1) (hbs : moreFlag → frag.Spot b) :
    ∃ frag', splitHole be moreFlag a b frag (lastNode none (done.map Prod.fst)) h.1 h.2 =
        some (frag', lastNode none ((done ++ leftover moreFlag a b h).map Prod.fst)) ∧
      Kin frag frag' ∧ Chain be frag' (done ++ leftover moreFlag a b h) rest := by
  have hh2 : h.2 < 65536 := hg.bounded h (by simp)
  have hstart : ∃ frag₁, (if a > h.1 then
        insertHole be frag (lastNode none (done.map Prod.fst)) h.1 a
      else some (frag, lastNode none (done.map Prod.fst))) =
        some (frag₁, lastNode none
          ((done ++ if a > h.1 then [(h.1, a)] else []).map Prod.fst)) ∧
      Kin frag frag₁ ∧ Chain be frag₁ (done ++ if a > h.1 then [(h.1, a)] else []) rest := by
    split
    · obtain ⟨frag', he, hk, hc'⟩ := hc.insert hspot hfresh hlen ha16
      refine ⟨frag', ?_, hk, hc'⟩
      rw [he, List.map_append, List.map_singleton, lastNode_snoc]
    · exact ⟨frag, by rw [List.append_nil], Kin.refl frag, by rw [List.append_nil]; exact hc⟩
  obtain ⟨frag₁, he₁, hk₁, hc₁⟩ := hstart
  unfold splitHole leftover
  rw [he₁]
  simp only [Option.bind_some, ← List.append_assoc]
  split
  · rename_i hbm
    have hfb : b ∉ ((done ++ if a > h.1 then [(h.1, a)] else []) ++ rest).map Prod.fst := by
      have hf := hg.fresh hsb hbm.1
      intro hm
      simp only [List.map_append, List.mem_append] at hm hf
      rcases hm with (hm | hm) | hm
      · exact hf (.inl hm)
      · split at hm
        · simp only [List.map_cons, List.map_nil, List.mem_singleton] at hm
          omega
        · cases hm
      · exact hf (.inr hm)
    obtain ⟨frag', he, hk, hc'⟩ := hc₁.insert (hk₁.spot (hbs hbm.2)) hfb
      (by rw [hk₁.length]; exact hlen) hh2
    refine ⟨frag', ?_, hk₁.trans hk, hc'⟩
    rw [he, List.map_append, List.map_singleton, lastNode_snoc]
  · rw [List.append_nil]
    exact ⟨frag₁, rfl, hk₁, hc₁⟩

/-- The loop over the descriptors is the walk over the holes. -/
theorem holeLoop_chain (rest : List (Nat × Nat)) : ∀ (done : List (Nat × Nat))
    (frag : Ipv6FragDesc) (fuel : Nat), Chain be frag done rest → HoleList (done ++ rest) →
    frag.region.length < 65536 → a % 8 = 0 → a ≤ b →
    (rest ≠ [] → moreFlag → frag.Spot b) → rest.length < fuel →
    (walkHoles moreFlag a b rest = none →
      holeLoop be moreFlag a b fuel frag (lastNode none (done.map Prod.fst)) = some none) ∧
    ∀ rest', walkHoles moreFlag a b rest = some rest' →
      ∃ frag', holeLoop be moreFlag a b fuel frag (lastNode none (done.map Prod.fst)) =
          some (some frag') ∧ Kin frag frag' ∧ Chain be frag' (done ++ rest') [] ∧
        HoleList (done ++ rest') := by
  induction rest with
  | nil =>
    intro done frag fuel hc hg hlen ha8 hab hbs hfuel
    obtain ⟨fuel, rfl⟩ : ∃ n, fuel = n + 1 := ⟨fuel - 1, by simp at hfuel; omega⟩
    have hnext : frag.next be (lastNode none (done.map Prod.fst)) = IPV6_INFINITY := hc.after
    refine ⟨nofun, fun rest' h => ?_⟩
    cases h
    refine ⟨frag, ?_, Kin.refl frag, by rw [List.append_nil]; exact hc, hg⟩
    unfold holeLoop
    rw [hnext, ipv6FindHole_none (by unfold IPV6_INFINITY; omega)]
  | cons h rest ih =>
    intro done frag fuel hc hg hlen ha8 hab hbs hfuel
    obtain ⟨fuel, rfl⟩ : ∃ n, fuel = n + 1 := ⟨fuel - 1, by simp at hfuel; omega⟩
    rw [List.length_cons] at hfuel
    have hnext : frag.next be (lastNode none (done.map Prod.fst)) = h.1 := hc.after.1
    obtain ⟨hspot, hfirst, hlast⟩ := hc.holds h (by simp)
    have hspot' := hspot
    unfold Spot at hspot'
    unfold holeLoop walkHoles
    rw [hnext, ipv6FindHole_some (by omega)]
    simp only [hfirst, hlast]
    by_cases hin : a < h.2 ∧ b > h.1
    · rw [if_pos hin, if_pos hin]
      by_cases hov : a < h.1 ∨ b > h.2
      · rw [if_pos hov, if_pos hov]
        exact ⟨fun _ => rfl, nofun⟩
      · rw [if_neg hov, if_neg hov]
        have hk := kin_setNext be frag (lastNode none (done.map Prod.fst))
          (frag.next be (some h.1))
        have hh2 := hg.bounded h (by simp)
        obtain ⟨frag₁, he₁, hk₁, hc₁⟩ := @splitHole_chain be moreFlag _ a b _ _ _ hc.remove hg
          (hk.spot hspot) hc.fresh (by rw [hk.length]; exact hlen) (by omega) hin.2
          fun hm => hk.spot (hbs (by simp) hm)
        rw [he₁]
        simp only
        have hkk := hk.trans hk₁
        obtain ⟨hnone, hsome⟩ := ih (done ++ leftover moreFlag a b h) frag₁ fuel hc₁
          (hg.split ha8 hab (by omega) (by omega)) (by rw [hkk.length]; exact hlen) ha8 hab
          (fun _ hm => hkk.spot (hbs (by simp) hm)) (by omega)
        refine ⟨fun h => hnone (Option.map_eq_none_iff.mp h), fun rest' h => ?_⟩
        obtain ⟨rest₁, h1, rfl⟩ := Option.map_eq_some_iff.mp h
        obtain ⟨frag', he, hk', hc', hg'⟩ := hsome rest₁ h1
        rw [List.append_assoc] at hc' hg'
        exact ⟨frag', he, hkk.trans hk', hc', hg'⟩
    · rw [if_neg hin, if_neg hin]
      have hadv := hc.advance
      obtain ⟨hnone, hsome⟩ := ih (done ++ [h]) frag fuel hadv (by simpa using hg) hlen ha8 hab
        (fun _ hm => hbs (by simp) hm) (by omega)
      rw [List.map_append, List.map_singleton, lastNode_snoc] at hnone hsome
      refine ⟨fun h => hnone (Option.map_eq_none_iff.mp h), fun rest' h => ?_⟩
      obtain ⟨rest₁, h1, rfl⟩ := Option.map_eq_some_iff.mp h
      obtain ⟨frag', he, hk', hc', hg'⟩ := hsome rest₁ h1
      rw [List.append_assoc] at hc' hg'
      exact ⟨frag', he, hk', hc', hg'⟩

/-- What the walk leaves of the holes. -/
theorem walkHoles_spec {hs hs' : List (Nat × Nat)} (hw : walkHoles moreFlag a b hs = some hs') :
    (∀ g ∈ hs', (∃ h ∈ hs, h.1 ≤ g.1 ∧ g.2 ≤ h.2) ∧ Apart g (a, b)) ∧
      (∀ h ∈ hs, a < h.2 → h.1 < b → h.1 ≤ a ∧ b ≤ h.2) ∧
      ∀ k, (∃ h ∈ hs, h.1 ≤ k ∧ k < h.2) → (k < a ∨ b ≤ k ∧ moreFlag) →
        ∃ g ∈ hs', g.1 ≤ k ∧ k < g.2 := by
  induction hs generalizing hs' with
  | nil =>
    cases hw
    exact ⟨nofun, nofun, fun k ⟨h, hh, _⟩ => (List.not_mem_nil hh).elim⟩
  | cons h rest ih =>
    unfold walkHoles at hw
    split at hw
    · rename_i hin
      split at hw
      · cases hw
      · rename_i hov
        obtain ⟨rest', h1, rfl⟩ := Option.map_eq_some_iff.mp hw
        obtain ⟨hsub, hinside, hkeep⟩ := ih h1
        refine ⟨?_, ?_, ?_⟩
        · intro g hg
          rcases List.mem_append.mp hg with hg | hg
          · obtain ⟨h2, h3, -, h4, -⟩ := mem_leftover hg (by omega) (by omega)
            exact ⟨⟨h, by simp, h2, h3⟩, h4⟩
          · obtain ⟨⟨h', hh', h2⟩, h3⟩ := hsub g hg
            exact ⟨⟨h', List.mem_cons_of_mem _ hh', h2⟩, h3⟩
        · intro h' hh' ha hb
          rcases List.mem_cons.mp hh' with rfl | hh'
          · omega
          · exact hinside h' hh' ha hb
        · rintro k ⟨h', hh', hk⟩ hkab
          rcases List.mem_cons.mp hh' with rfl | hh'
          · rcases hkab with hka | ⟨hkb, hm⟩
            · refine ⟨(h'.1, a), ?_, hk.1, hka⟩
              refine List.mem_append_left _ (List.mem_append_left _ ?_)
              rw [if_pos (by omega)]
              simp
            · refine ⟨(b, h'.2), ?_, hkb, hk.2⟩
              refine List.mem_append_left _ (List.mem_append_right _ ?_)
              rw [if_pos ⟨by omega, hm⟩]
              simp
          · obtain ⟨g, hg, hgk⟩ := hkeep k ⟨h', hh', hk⟩ hkab
            exact ⟨g, List.mem_append_right _ hg, hgk⟩
    · rename_i hin
      obtain ⟨rest', h1, rfl⟩ := Option.map_eq_some_iff.mp hw
      obtain ⟨hsub, hinside, hkeep⟩ := ih h1
      refine ⟨?_, ?_, ?_⟩
      · intro g hg
        rcases List.mem_cons.mp hg with rfl | hg
        · refine ⟨⟨g, by simp, Nat.le_refl _, Nat.le_refl _⟩, ?_⟩
          unfold Apart
          omega
        · obtain ⟨⟨h', hh', h2⟩, h3⟩ := hsub g hg
          exact ⟨⟨h', List.mem_cons_of_mem _ hh', h2⟩, h3⟩
      · intro h' hh' ha hb
        rcases List.mem_cons.mp hh' with rfl | hh'
        · omega
        · exact hinside h' hh' ha hb
      · rintro k ⟨h', hh', hk⟩ hkab
        rcases List.mem_cons.mp hh' with rfl | hh'
        · exact ⟨h', by simp, hk⟩
        · obtain ⟨g, hg, hgk⟩ := hkeep k ⟨h', hh', hk⟩ hkab
          exact ⟨g, List.mem_cons_of_mem _ hg, hgk⟩

end Cyclone
