import Cyclone.Ipv4Reassembly

/-!
# Cyclone.Ipv4Slices

Fragments that are slices of the payload they were cut from.

* `SliceOf`, `PartOf`: a fragment of a payload.
* `slices_reassembled`: whatever the order of the fragments, the payload is delivered when they
  cover it, and not before.
-/

namespace Cyclone

open NetBuffer

/-- A slice of the payload, cut at a multiple of 8 bytes where more follows. -/
structure Ipv4Fragment.SliceOf (f : Ipv4Fragment) (payload : List UInt8) : Prop where
  nonempty : 0 < f.length
  inside : f.last ≤ payload.length
  data : ∀ k, f.dataFirst ≤ k → k < f.last → f.data[k - f.dataFirst]? = payload[k]?
  more : f.moreFlag = true ↔ f.last < payload.length
  blocks : f.moreFlag = true → f.length % 8 = 0

/-- The same of a datagram that the reassembly buffer can hold. -/
structure Ipv4Fragment.PartOf (f : Ipv4Fragment) (payload : List UInt8) : Prop
    extends f.SliceOf payload where
  small : f.headerLength + payload.length ≤ IPV4_MAX_FRAG_DATAGRAM_SIZE

/-- What identifies a datagram. -/
abbrev DatagramKey := List UInt8 × List UInt8 × List UInt8 × UInt8

/-- Every fragment is one of the payload that belongs to its datagram. -/
def Ipv4FragEvent.Slices (payloadOf : DatagramKey → List UInt8) (_ : Ipv4Reassembly) :
    Ipv4FragEvent → Prop
  | .fragment f => f.Accepted ∧ f.PartOf (payloadOf (datagramKey f.packet))
  | _ => True

/-- The fragments cover the payload. -/
def Covers (received : List Ipv4Fragment) (payload : List UInt8) : Prop :=
  ∀ k < payload.length, ∃ f ∈ received, f.dataFirst ≤ k ∧ k < f.last

section Slices

variable {be : Bool} {env : Env} {s : Ipv4Reassembly} {f : Ipv4Fragment}
  {payloadOf : DatagramKey → List UInt8} {payload : List UInt8} {received : List Ipv4Fragment}

theorem Ipv4Fragment.PartOf.inRange (h : f.PartOf payload) : f.InRange := by
  have h1 := h.inside
  have h2 := h.small
  unfold Ipv4Fragment.InRange IPV4_INFINITY
  unfold IPV4_MAX_FRAG_DATAGRAM_SIZE at h2
  omega

/-! ## Slices of one payload -/

theorem agree_slices (h : ∀ f ∈ received, f.PartOf payload) : Agree received := by
  intro f hf hm g hg
  have h1 := (h f hf).inside
  have h2 := (h g hg).inside
  have hend : f.last = payload.length := by
    by_contra hne
    have := (h f hf).more.mpr (by omega)
    rw [hm] at this
    cases this
  refine ⟨by omega, fun hmg => ?_⟩
  have := (h g hg).more.mp hmg
  omega

theorem complete_slices (h : ∀ f ∈ received, f.PartOf payload) (hpos : 0 < payload.length)
    (hc : Covers received payload) : Complete received := by
  obtain ⟨f, hf, h1, h2⟩ := hc (payload.length - 1) (by omega)
  have hin := (h f hf).inside
  have hend : f.last = payload.length := by omega
  refine ⟨f, hf, ?_, by omega, fun k hk => hc k (by omega)⟩
  by_contra hm
  have := (h f hf).more.mp (by simpa using hm)
  omega

/-- What is delivered is the payload. -/
theorem Delivers.payload_eq {b : NetBuffer} {delivered : List UInt8}
    (hd : Delivers b received delivered) (h : ∀ f ∈ received, f.PartOf payload) :
    delivered = payload ∧ Covers received payload := by
  obtain ⟨⟨f, hf, hm, hend⟩, hsound⟩ := hd.sound (agree_slices h)
  have hin := (h f hf).inside
  have hlen : f.last = payload.length := by
    by_contra hne
    have := (h f hf).more.mpr (by omega)
    rw [hm] at this
    cases this
  refine ⟨List.ext_getElem? fun k => ?_, fun k hk => ?_⟩
  · by_cases hk : k < delivered.length
    · obtain ⟨g, hg, h1, h2, h3⟩ := hsound k hk
      rw [h3, (h g hg).data k h1 h2]
    · rw [List.getElem?_eq_none (by omega), List.getElem?_eq_none (by omega)]
  · obtain ⟨g, hg, h1, h2, -⟩ := hsound k (by omega)
    exact ⟨g, hg, h1, h2⟩

/-! ## The queue -/

theorem before_subset (s : Ipv4Reassembly) (i : Nat) : s.before i ⊆ s.received i := by
  unfold Ipv4Reassembly.before
  split
  · exact List.Subset.refl _
  · exact List.nil_subset _

theorem after_subset (be : Bool) (s : Ipv4Reassembly) (f : Ipv4Fragment) (i : Nat) :
    ∀ g ∈ s.after be f i, g = f ∨ g ∈ s.received i := by
  intro g hg
  unfold Ipv4Reassembly.after at hg
  cases hslot : s.slot be f with
  | none =>
    rw [hslot] at hg
    exact .inr (before_subset s i hg)
  | some j =>
    rw [hslot, Option.elim_some] at hg
    by_cases hij : i = j
    · subst hij
      rw [Function.update_self] at hg
      rcases List.mem_append.mp hg with hg | hg
      · exact .inr (before_subset s i hg)
      · exact .inl (List.mem_singleton.mp hg)
    · rw [Function.update_of_ne hij] at hg
      exact .inr (before_subset s i hg)

/-- All that an entry has received belongs to the datagram of the fragment it is for. -/
theorem slot_key {i : Nat} (hq : Ipv4QueueHeld be s.queue s.received) (hacc : f.Accepted)
    (hi : s.slot be f = some i) :
    ∀ g ∈ s.after be f i, datagramKey g.packet = datagramKey f.packet := by
  intro g hg
  unfold Ipv4Reassembly.after at hg
  rw [hi, Option.elim_some, Function.update_self] at hg
  rcases List.mem_append.mp hg with hg | hg
  · unfold Ipv4Reassembly.slot at hi
    split at hi
    · cases hi
    · generalize hsearch : ipv4SearchFragQueue be s.env s.queue f = r at hi
      obtain ⟨e, q, r⟩ := r
      obtain ⟨-, hfound⟩ := ipv4Search_spec hq hacc hsearch
      obtain ⟨-, ⟨⟨header, hs, hfill, hkey, -⟩, -⟩, -⟩ := hfound i hi
      rw [hfill.key g hg, hkey]
  · rw [List.mem_singleton.mp hg]

theorem netBufferSetLength_taken {e : Env} {frag : Ipv4FragDesc} (he : e.Granting)
    (hu : frag.inUse = false) :
    (netBufferSetLength e { frag.buffer with maxChunkCount := ipv4ReassemblyChunks }
      (NET_MEM_POOL_BUFFER_SIZE + sizeofIpv4HoleDesc)).2.2 = .NO_ERROR := by
  have hnil : frag.buffer.chunk = [] := by
    unfold Ipv6FragDesc.inUse chunkCount at hu
    simpa using hu
  show (netBufferSetLength e ⟨frag.buffer.chunk, ipv4ReassemblyChunks⟩ _).2.2 = _
  rw [hnil, netBufferSetLength_nil]
  exact addChunks_grants he (by decide)

/-- While blocks are available, a fragment is turned away only when all the entries are taken by
other datagrams. -/
theorem slot_none (he : s.env.Granting) (hf : f.moreFlag = true → f.length % 8 = 0)
    (hi : s.slot be f = none) : ∀ frag ∈ s.queue, frag.inUse = true ∧
      ipv4SameDatagram frag.buffer.bytes f.packet = false := by
  unfold Ipv4Reassembly.slot at hi
  rw [if_neg (fun hv => hv.2 (hf hv.1))] at hi
  unfold ipv4SearchFragQueue at hi
  split at hi
  · cases hi
  rename_i hmatch
  split at hi
  · rename_i hfree
    intro frag hfrag
    have hm := List.findIdx?_eq_none_iff.mp hmatch frag hfrag
    have hu := List.findIdx?_eq_none_iff.mp hfree frag hfrag
    rw [Bool.not_eq_false'] at hu
    unfold ipv4FragMatches at hm
    rw [hu, Bool.true_and] at hm
    exact ⟨hu, hm⟩
  · rename_i i hfree
    obtain ⟨hlt, hu, -⟩ := List.findIdx?_eq_some_iff_getElem.mp hfree
    have hget : s.queue.getD i {} = s.queue[i] := by
      rw [List.getD_eq_getElem?_getD, List.getElem?_eq_getElem hlt]
      rfl
    have hu : (s.queue.getD i {}).inUse = false := by
      rw [hget]
      simpa using hu
    simp only at hi
    rw [if_neg (not_not.mpr (netBufferSetLength_taken he hu))] at hi
    cases hi

/-! ## Runs -/

theorem ipv4GrowFrag_memAvail (e : Env) (n : Nat) (frag : Ipv4FragDesc) :
    (ipv4GrowFrag e n frag).1.memAvail = e.memAvail := by
  have h := netBufferSetLength_memAvail e frag.buffer
    (frag.unfragPartLength + n + sizeofIpv4HoleDesc)
  unfold ipv4GrowFrag
  split
  · split
    · rfl
    · split
      · rename_i heq
        rw [heq] at h
        exact h
      · rename_i heq
        rw [heq] at h
        exact h
  · rfl

theorem ipv4CompleteFrag_memAvail (e : Env) (frag : Ipv4FragDesc) :
    (ipv4CompleteFrag e frag).1.memAvail = e.memAvail := by
  have h := netBufferSetLength_memAvail e frag.buffer (frag.unfragPartLength + frag.fragPartLength)
  unfold ipv4CompleteFrag
  split
  · rename_i heq
    rw [heq] at h
    exact h
  · rename_i heq
    rw [heq] at h
    exact h

theorem ipv4Reassemble_memAvail {e e' : Env} {q q' : List Ipv4FragDesc} {d : Option NetBuffer}
    (h : ipv4ReassembleDatagram be e q f = some (e', q', d)) : e'.memAvail = e.memAvail := by
  unfold ipv4ReassembleDatagram at h
  split at h
  · cases h
    rfl
  have hsearch := ipv4SearchFragQueue_memAvail be e q f
  generalize ipv4SearchFragQueue be e q f = r at h hsearch
  obtain ⟨e1, q1, r⟩ := r
  cases r with
  | none =>
    cases h
    exact hsearch
  | some i =>
    simp only at h
    split at h
    · cases h
      exact hsearch
    rename_i frag hfirst
    have hgrow := ipv4GrowFrag_memAvail e1 f.dataLast frag
    generalize ipv4GrowFrag e1 f.dataLast frag = r at h hgrow
    obtain ⟨e2, r⟩ := r
    cases r with
    | none =>
      cases h
      exact hgrow.trans hsearch
    | some frag2 =>
      simp only at h
      split at h
      · cases h
      rename_i frag3 hloop
      split at h
      · cases h
        exact hgrow.trans hsearch
      · have hcomp := ipv4CompleteFrag_memAvail e2 (ipv4CopyData f frag3)
        generalize ipv4CompleteFrag e2 (ipv4CopyData f frag3) = r at h hcomp
        cases h
        exact (hcomp.trans hgrow).trans hsearch

/-- What holds of the queue when every fragment is a slice. -/
structure Sliced (be : Bool) (payloadOf : DatagramKey → List UInt8) (s : Ipv4Reassembly) :
    Prop where
  held : Ipv4QueueHeld be s.queue s.received
  slices : ∀ i, ∀ g ∈ s.received i, g.PartOf (payloadOf (datagramKey g.packet))
  grants : s.env.Granting

theorem sliced_step {event : Ipv4FragEvent} (h : Sliced be payloadOf s)
    (hok : event.Slices payloadOf s) : Sliced be payloadOf (s.step be event) := by
  cases event with
  | fragment f =>
    obtain ⟨hacc, hf⟩ := hok
    refine ⟨ipv4QueueHeld_step h.held ⟨hacc, hf.inRange⟩, ?_, ?_⟩
    · obtain ⟨e, q, d, hcall, -⟩ := ipv4Reassemble_spec h.held hacc hf.inRange
      unfold Ipv4Reassembly.step
      simp only [hcall]
      intro i g hg
      rcases after_subset be s f i g hg with rfl | hg
      · exact hf
      · exact h.slices i g hg
    · obtain ⟨e, q, d, hcall, -⟩ := ipv4Reassemble_spec h.held hacc hf.inRange
      unfold Ipv4Reassembly.step
      simp only [hcall]
      intro t
      rw [ipv4Reassemble_memAvail hcall]
      exact h.grants t
  | tick time => exact ⟨@ipv4QueueHeld_step _ _ (.tick time) h.held trivial, h.slices, h.grants⟩
  | flush => exact ⟨@ipv4QueueHeld_step _ _ .flush h.held trivial, h.slices, h.grants⟩

theorem sliced_reach (henv : env.Granting)
    (h : Run.Reach (Ipv4Reassembly.step be) (Ipv4FragEvent.Slices payloadOf)
      (Ipv4Reassembly.start env) s) : Sliced be payloadOf s :=
  h.inv (P := Sliced be payloadOf)
    ⟨ipv4QueueHeld_start env, fun _ _ hg => (List.not_mem_nil hg).elim, henv⟩
    fun _ _ hs hok => sliced_step hs hok

/-- Fragments arrive in any order, more than once and among those of other datagrams: the payload
they were cut from is delivered when the fragments received cover it, and not before. A fragment is
turned away only when other datagrams take all the entries. -/
theorem slices_reassembled (henv : env.Granting)
    (h : Run.Reach (Ipv4Reassembly.step be) (Ipv4FragEvent.Slices payloadOf)
      (Ipv4Reassembly.start env) s)
    (hacc : f.Accepted) (hf : f.PartOf (payloadOf (datagramKey f.packet))) :
    ∃ e q d, ipv4ReassembleDatagram be s.env s.queue f = some (e, q, d) ∧
      (s.slot be f = none → d = none ∧ ∀ frag ∈ s.queue, frag.inUse = true ∧
        ipv4SameDatagram frag.buffer.bytes f.packet = false) ∧
      ∀ i payload, s.slot be f = some i → payload = payloadOf (datagramKey f.packet) →
        (Covers (s.after be f i) payload → (q.getD i {}).inUse = false ∧
          ∃ b, d = some b ∧ b.bytes = fixHeader (headerOf (s.after be f i))
            ((headerOf (s.after be f i)).length + payload.length) ++ payload) ∧
        (¬Covers (s.after be f i) payload → (q.getD i {}).inUse = true ∧ d = none) := by
  obtain ⟨hq, hslices, hgrant⟩ := sliced_reach henv h
  obtain ⟨e, q, d, hcall, -, hdelivers, hpending, hkept⟩ := ipv4Reassemble_spec hq hacc hf.inRange
  refine ⟨e, q, d, hcall, fun hnone => ⟨?_, slot_none hgrant hf.blocks hnone⟩, ?_⟩
  · rw [Option.eq_none_iff_forall_ne_some]
    intro b hb
    obtain ⟨i, -, hslot, -⟩ := hdelivers b hb
    rw [hnone] at hslot
    cases hslot
  rintro i payload hi rfl
  have hall : ∀ g ∈ s.after be f i, g.PartOf (payloadOf (datagramKey f.packet)) := by
    intro g hg
    rw [← slot_key hq hacc hi g hg]
    rcases after_subset be s f i g hg with rfl | hg
    · exact hf
    · exact hslices i g hg
  have hpos : 0 < (payloadOf (datagramKey f.packet)).length := by
    have h1 := hf.nonempty
    have h2 : f.last = f.dataFirst + f.length := rfl
    have h3 := hf.inside
    omega
  have hd : ∀ b, d = some b → Covers (s.after be f i) (payloadOf (datagramKey f.packet)) ∧
      b.bytes = fixHeader (headerOf (s.after be f i))
        ((headerOf (s.after be f i)).length + (payloadOf (datagramKey f.packet)).length) ++
        payloadOf (datagramKey f.packet) := by
    intro b hb
    obtain ⟨j, delivered, hslot, hdel⟩ := hdelivers b hb
    obtain rfl : i = j := Option.some.inj (hi.symm.trans hslot)
    obtain ⟨rfl, hcov⟩ := hdel.payload_eq hall
    exact ⟨hcov, hdel.bytes⟩
  have hsmall : Small (s.after be f i) (payloadOf (datagramKey f.packet)).length :=
    fun g hg => ⟨(hall g hg).inside, (hall g hg).small⟩
  refine ⟨fun hcov => ?_, fun hcov => ?_⟩
  · have hfree : (q.getD i {}).inUse = false := by
      by_contra hu
      obtain ⟨g, hg⟩ := hpending i hi (by simpa using hu)
      exact hg.incomplete (agree_slices hall) (complete_slices hall hpos hcov)
    obtain ⟨b, hb⟩ := Option.ne_none_iff_exists'.mp (hkept i _ hi hgrant hsmall hfree)
    exact ⟨hfree, b, hb, (hd b hb).2⟩
  · have hnone : d = none := by
      rw [Option.eq_none_iff_forall_ne_some]
      exact fun b hb => hcov (hd b hb).1
    refine ⟨?_, hnone⟩
    by_contra hu
    exact hkept i _ hi hgrant hsmall (by simpa using hu) hnone

/-- The payload of the two fragments. -/
def smallPayload : List UInt8 := List.replicate 8 7 ++ List.replicate 4 9

theorem partOf_smallPayload :
    leadingFragment.PartOf smallPayload ∧ closingFragment.PartOf smallPayload := by
  have hlead : ∀ k < 8, leadingFragment.data[k]? = smallPayload[k]? := by decide
  have hclose : ∀ k < 4, closingFragment.data[k]? = smallPayload[8 + k]? := by decide
  have h1 : leadingFragment.dataFirst = 0 ∧ leadingFragment.last = 8 := by decide
  have h2 : closingFragment.dataFirst = 8 ∧ closingFragment.last = 12 := by decide
  refine ⟨⟨⟨by decide, by decide, fun k hk hlt => ?_, by decide, by decide⟩, by decide⟩,
    ⟨⟨by decide, by decide, fun k hk hlt => ?_, by decide, by decide⟩, by decide⟩⟩
  · rw [h1.1]
    exact hlead k (by omega)
  · rw [h2.1, hclose (k - 8) (by omega), show 8 + (k - 8) = k by omega]

theorem slices_reassembled_closing : ∃ e q b,
    ipv4ReassembleDatagram false leadingReceived.env leadingReceived.queue closingFragment =
      some (e, q, some b) ∧ b.bytes = fixHeader leadingFragment.header 32 ++ smallPayload := by
  have hslot : leadingReceived.slot false closingFragment = some 0 := by decide +kernel
  have hafter : leadingReceived.after false closingFragment 0 =
      [leadingFragment, closingFragment] := by decide +kernel
  have hreach : Run.Reach (Ipv4Reassembly.step false)
      (Ipv4FragEvent.Slices fun _ => smallPayload) (Ipv4Reassembly.start Env.granting)
      leadingReceived := .step .init ⟨leadingFragment_ok.1, partOf_smallPayload.1⟩
  have hcov : Covers [leadingFragment, closingFragment] smallPayload := by
    unfold Covers
    decide
  obtain ⟨e, q, d, hcall, -, hdel⟩ := slices_reassembled (fun _ => rfl) hreach
    closingFragment_ok.1 partOf_smallPayload.2
  obtain ⟨hdone, -⟩ := hdel 0 smallPayload hslot rfl
  rw [hafter] at hdone
  obtain ⟨-, b, rfl, hb⟩ := hdone hcov
  exact ⟨e, q, b, hcall, hb⟩

end Slices

end Cyclone
