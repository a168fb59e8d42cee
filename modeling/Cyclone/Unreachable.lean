import Mathlib.Tactic.ByContra
import Cyclone.ArpQueues
import Cyclone.Lib.Run
import Cyclone.Lib.Unreach
import Cyclone.Ndp

/-!
# Cyclone.Unreachable

When the ARP cache and the Neighbor cache give up a neighbor that no longer answers. One counter
serves the resolution of an address and every later round of probes, and nothing resets it.

* `ArpSound`, `NdpSound`: calls that start to probe with a counter of zero.
* `neighbor_unreachable`: then a neighbor is given up after its full number of probes only.
-/

namespace Cyclone

open Run Serial Tables Unreach

/-- A request is late when its timeout has passed. -/
def probeTiming : Timing Word (Word × Word) where
  late r now := !(now - (r.1 + r.2)).msb
  sentAt := Prod.fst

/-! ## ARP -/

def ArpCacheEntry.prober (e : ArpCacheEntry) : Prober (Word × Word) :=
  ⟨e.state = .PROBE, e.retransmitCount, (e.timestamp, e.timeout), e.probes⟩

/-- The cache is not flushed, probing starts with a counter of zero, and every probe of `arpTick`
finds a source address and a buffer. -/
def ArpSound (s : ArpInterface) (call : ArpWorld × ArpCall) : Prop :=
  match call.2 with
  | .flush => False
  | .tick => ∀ i, (s.entry i).timedOut call.1.time →
      ((s.entry i).state = .DELAY → (s.entry i).retransmitCount = 0 ∧ call.1.ready i) ∧
        ((s.entry i).state = .PROBE → (s.entry i).retransmitCount + 1 < ARP_MAX_PROBES →
          call.1.ready i)
  | _ => True

/-- An entry that a call gives up has been probed in full. -/
def ArpGivesUp (s : ArpInterface) (call : ArpWorld × ArpCall) : Prop :=
  ∀ i, (s.entry i).state = .PROBE → ((arpCall s call).entry i).state = .NONE →
    (s.entry i).prober.Justified probeTiming ARP_MAX_PROBES call.1.time

theorem ArpGivesUp.enough {s : ArpInterface} {call : ArpWorld × ArpCall} (h : ArpGivesUp s call)
    {i : Nat} (hprobe : (s.entry i).state = .PROBE)
    (hnone : ((arpCall s call).entry i).state = .NONE) :
    ARP_MAX_PROBES ≤ (s.entry i).probes.length :=
  (h i hprobe hnone).enough

/-- A call has not probed the entry: it is as it was, or in use without being probed. -/
def ArpKeeps (e e' : ArpCacheEntry) : Prop :=
  e'.prober = e.prober ∧ e'.state = e.state ∨ e'.state ≠ .PROBE ∧ e'.state ≠ .NONE

section Arp

variable {s : ArpInterface} {w : ArpWorld}

theorem ArpKeeps.refl (e : ArpCacheEntry) : ArpKeeps e e := .inl ⟨rfl, rfl⟩

theorem ArpKeeps.trans {e e' e'' : ArpCacheEntry} (h : ArpKeeps e e') (h' : ArpKeeps e' e'') :
    ArpKeeps e e'' := by
  rcases h' with ⟨hp', hs'⟩ | h'
  · rcases h with ⟨hp, hs⟩ | ⟨hp, hs⟩
    · exact .inl ⟨hp'.trans hp, hs'.trans hs⟩
    · exact .inr ⟨by rwa [hs'], by rwa [hs']⟩
  · exact .inr h'

/-- One entry is changed. -/
theorem ArpKeeps.update {i : Nat} {f : ArpCacheEntry → ArpCacheEntry} (hi : i < s.arpCache.length)
    (hf : ArpKeeps (s.entry i) (f (s.entry i))) (j : Nat) :
    ArpKeeps (s.entry j) ((s.update i f).entry j) := by
  rw [entry_update hi]
  split
  · rename_i hj
    rw [hj]
    exact hf
  · exact .refl _

theorem keeps_resolve (h : ArpOk s) (ipAddr : Ipv4Addr) (j : Nat) :
    ArpKeeps (s.entry j) ((arpResolve w s ipAddr).1.entry j) := by
  unfold arpResolve
  cases hfind : arpFindEntry s ipAddr with
  | some i =>
    have hi := (arpFindEntry_some hfind).1
    simp only
    split
    · exact .refl _
    split
    · exact ArpKeeps.update hi (.inr ⟨by simp, by simp⟩) j
    · exact .refl _
  | none =>
    obtain ⟨hok, hi, hentry⟩ := createEntry_spec w h
    simp only
    generalize arpCreateEntry w s = r at *
    obtain ⟨s₁, i⟩ := r
    simp only at hok hi hentry ⊢
    have hi₁ : i < s₁.arpCache.length := hok.size ▸ hi
    rw [entry_requested_again hi₁]
    split
    · exact .inr ⟨by simp, by simp⟩
    · rename_i hj
      rw [hentry, if_neg hj]
      exact .refl _

theorem keeps_enqueuePacket (alloc : Bool) (ipAddr : Ipv4Addr) (buffer : List UInt8)
    (offset : Nat) (ancillary : NetAncillaryData) (j : Nat) :
    ArpKeeps (s.entry j) ((arpEnqueuePacket alloc s ipAddr buffer offset ancillary).1.entry j) := by
  unfold arpEnqueuePacket
  cases hfind : arpFindEntry s ipAddr with
  | none => exact .refl _
  | some i =>
    have hi := (arpFindEntry_some hfind).1
    simp only
    split
    case isFalse => exact .refl _
    -- only queues are changed
    generalize hs₁ : (if (s.entry i).queue.length ≥ ARP_MAX_PENDING_PACKETS then _ else s) = s₁
    have hfirst : i < s₁.arpCache.length ∧ ArpKeeps (s.entry j) (s₁.entry j) := by
      rw [← hs₁]
      split
      · refine ⟨by rwa [size_update, size_log], ?_⟩
        exact ArpKeeps.update (s := s.log _) hi (.inl ⟨rfl, rfl⟩) j
      · exact ⟨hi, .refl _⟩
    split
    · exact hfirst.2.trans (ArpKeeps.update hfirst.1 (.inl ⟨rfl, rfl⟩) j)
    · exact hfirst.2

theorem keeps_processReply (arpReply : ArpPacket) (j : Nat) :
    ArpKeeps (s.entry j) ((arpProcessReply w s arpReply).entry j) := by
  unfold arpProcessReply
  have hlog : s.entry j = (s.log [.reply arpReply]).entry j := rfl
  rw [hlog]
  generalize s.log [.reply arpReply] = s
  simp only
  split
  · exact .refl _
  cases hfind : arpFindEntry s arpReply.spa with
  | none => exact .refl _
  | some i =>
    have hi := (arpFindEntry_some hfind).1
    simp only
    split
    · rename_i hstate
      have hi' : i < (s.update i ({ · with macAddr := arpReply.sha })).arpCache.length := by
        rwa [size_update]
      have hself : ((s.update i ({ · with macAddr := arpReply.sha })).entry i).state =
          .INCOMPLETE := by
        rw [entry_update_self hi, hstate]
      simp only [arpSendQueuedPackets, if_pos hself, update_log, update_update, entry_log]
      exact ArpKeeps.update hi (.inr ⟨by simp, by simp⟩) j
    split
    · split
      · exact ArpKeeps.update hi (.inr ⟨by simp, by simp⟩) j
      · exact .refl _
    split
    · exact ArpKeeps.update hi (.inr ⟨by simp, by simp⟩) j
    · exact .refl _

theorem keeps_processPacket (arpPacket : ArpPacket) (length j : Nat) :
    ArpKeeps (s.entry j) ((arpProcessPacket w s arpPacket length).entry j) := by
  unfold arpProcessPacket
  split
  · exact .refl _
  split
  · exact .refl _
  split
  case isFalse => exact .refl _
  split
  · unfold arpProcessRequest
    split
    · exact .refl _
    simp only
    split <;> exact .refl _
  split
  · exact keeps_processReply arpPacket j
  · exact .refl _

theorem ArpKeeps.step {e e' : ArpCacheEntry} (h : ArpKeeps e e') (now : Word) :
    ProbeStep probeTiming now e.prober e'.prober := by
  rcases h with ⟨h, -⟩ | ⟨h, -⟩
  · rw [h]
    exact .stay
  · exact .leave (by simp [ArpCacheEntry.prober, h])

/-- What `arpTick` does with one entry, when it may be probed. -/
theorem ticked_step {i : Nat} {e : ArpCacheEntry}
    (hsound : e.timedOut w.time → (e.state = .DELAY → e.retransmitCount = 0 ∧ w.ready i) ∧
      (e.state = .PROBE → e.retransmitCount + 1 < ARP_MAX_PROBES → w.ready i)) :
    ProbeStep probeTiming w.time e.prober (tickedEntry w i e).prober ∧
      (e.state = .PROBE → (tickedEntry w i e).state = .NONE →
        e.timedOut w.time ∧ ARP_MAX_PROBES ≤ e.retransmitCount + 1) := by
  unfold tickedEntry
  by_cases hlate : e.timedOut w.time
  case neg =>
    rw [if_pos (by simpa using hlate)]
    exact ⟨.stay, fun hp hn => by rw [hp] at hn; cases hn⟩
  rw [if_neg (by simpa using hlate)]
  obtain ⟨hdelay, hprobe⟩ := hsound hlate
  cases hstate : e.state <;> dsimp only
  case DELAY =>
    obtain ⟨hcount, hready⟩ := hdelay hstate
    refine ⟨?_, fun h => by simp at h⟩
    simp only [ArpCacheEntry.prober, ArpWorld.probe, hcount, if_pos hready, decide_true]
    exact .enter rfl
  case PROBE =>
    split
    · rename_i hmore
      have hready := hprobe hstate hmore
      refine ⟨?_, fun _ h => by cases h⟩
      simp only [ArpCacheEntry.prober, ArpWorld.probe, hstate, if_pos hready, decide_true]
      exact .resend rfl hlate rfl
    · exact ⟨.leave (by simp [ArpCacheEntry.prober]), fun _ _ => ⟨hlate, by omega⟩⟩
  case INCOMPLETE =>
    refine ⟨.leave ?_, fun h => by cases h⟩
    split <;> simp [ArpCacheEntry.prober]
  case REACHABLE => exact ⟨.leave (by simp [ArpCacheEntry.prober]), fun h => by cases h⟩
  all_goals exact ⟨.leave (by simp [ArpCacheEntry.prober, hstate]), fun h => by cases h⟩

theorem entry_configure (macAddr : MacAddr) (addrList : List Ipv4AddrEntry) (j : Nat) :
    ({ s with macAddr, addrList } : ArpInterface).entry j = s.entry j := rfl

/-- What a call does with one entry. -/
theorem arpCall_step (h : ArpOk s) {call : ArpWorld × ArpCall} (hsound : ArpSound s call) (i : Nat) :
    ProbeStep probeTiming call.1.time (s.entry i).prober ((arpCall s call).entry i).prober ∧
      ((s.entry i).state = .PROBE → ((arpCall s call).entry i).state = .NONE →
        (s.entry i).timedOut call.1.time ∧ ARP_MAX_PROBES ≤ (s.entry i).retransmitCount + 1) := by
  obtain ⟨w, call⟩ := call
  have hkeeps {e' : ArpCacheEntry} (hk : ArpKeeps (s.entry i) e') :
      ProbeStep probeTiming w.time (s.entry i).prober e'.prober ∧
        ((s.entry i).state = .PROBE → e'.state = .NONE →
          (s.entry i).timedOut w.time ∧ ARP_MAX_PROBES ≤ (s.entry i).retransmitCount + 1) := by
    refine ⟨hk.step _, fun hp hn => ?_⟩
    rcases hk with ⟨-, hs⟩ | ⟨-, hs⟩
    · rw [hs, hp] at hn
      cases hn
    · exact absurd hn hs
  cases call with
  | resolve ipAddr => exact hkeeps (keeps_resolve h ipAddr i)
  | enqueue alloc ipAddr buffer offset ancillary => exact hkeeps (keeps_enqueuePacket ..)
  | processPacket arpPacket length => exact hkeeps (keeps_processPacket arpPacket length i)
  | configure macAddr addrList => exact hkeeps (.refl _)
  | flush => exact hsound.elim
  | tick =>
    have htick := entry_tick (w := w) h i
    simp only [arpCall]
    rw [htick]
    split
    · exact ticked_step (hsound i)
    · rename_i hi
      rw [entry_outside (by rwa [h.size])]
      exact ⟨.stay, fun hp => by cases hp⟩

/-- Induction on the run: whatever is probed has been probed once more than is counted. -/
theorem arp_probers {macAddr : MacAddr} {addrList : List Ipv4AddrEntry}
    (h : Reach arpCall ArpSound { macAddr, addrList } s) :
    ArpOk s ∧ ∀ i, (s.entry i).prober.Ok probeTiming := by
  refine Reach.inv (P := fun s => ArpOk s ∧ ∀ i, (s.entry i).prober.Ok probeTiming) h
    ⟨ok_start macAddr addrList, fun i => ?_⟩ fun s call hs hsound =>
      ⟨ok_call hs.1 call, fun i => (arpCall_step hs.1 hsound i).1.inv (hs.2 i)⟩
  rw [entry_start]
  exact .idle rfl

theorem arp_givesUp {macAddr : MacAddr} {addrList : List Ipv4AddrEntry}
    (h : Reach arpCall ArpSound { macAddr, addrList } s) {call : ArpWorld × ArpCall}
    (hsound : ArpSound s call) : ArpGivesUp s call := by
  intro i hprobe hnone
  obtain ⟨hok, hprobers⟩ := arp_probers h
  obtain ⟨-, hgive⟩ := arpCall_step hok hsound i
  obtain ⟨hlate, hcount⟩ := hgive hprobe hnone
  exact (hprobers i).justified (by simp [ArpCacheEntry.prober, hprobe]) hlate hcount

end Arp

/-! ## Neighbor Discovery -/

def NdpNeighborCacheEntry.prober (e : NdpNeighborCacheEntry) : Prober (Word × Word) :=
  ⟨e.state = .PROBE, e.retransmitCount, (e.timestamp, e.timeout), e.probes⟩

/-- Probing starts with a counter of zero, and every probe of `ndpUpdateNeighborCache` finds a
source address and a buffer. -/
def NdpSound (s : NdpInterface) (call : NdpWorld × NdpCall) : Prop :=
  match call.2 with
  | .update => ∀ i, (s.entry i).timedOut call.1.time →
      ((s.entry i).state = .DELAY → (s.entry i).retransmitCount = 0 ∧ call.1.ready i) ∧
        ((s.entry i).state = .PROBE → (s.entry i).retransmitCount + 1 < NDP_MAX_UNICAST_SOLICIT →
          call.1.ready i)
  | _ => True

/-- An entry that a call gives up has been probed in full. -/
def NdpGivesUp (s : NdpInterface) (call : NdpWorld × NdpCall) : Prop :=
  ∀ i, (s.entry i).state = .PROBE → ((ndpCall s call).entry i).state = .NONE →
    (s.entry i).prober.Justified probeTiming NDP_MAX_UNICAST_SOLICIT call.1.time

def NdpKeeps (e e' : NdpNeighborCacheEntry) : Prop :=
  e'.prober = e.prober ∧ e'.state = e.state ∨ e'.state ≠ .PROBE ∧ e'.state ≠ .NONE

section Ndp

variable {s : NdpInterface} {w : NdpWorld} {i j : Nat}

theorem ndp_entry_eq (hi : i < s.neighborCache.length) : s.entry i = s.neighborCache[i] := by
  rw [NdpInterface.entry, List.getD, List.getElem?_eq_getElem hi, Option.getD_some]

theorem ndp_entry_outside (hi : ¬ i < s.neighborCache.length) : s.entry i = {} := by
  rw [NdpInterface.entry, List.getD, List.getElem?_eq_none (by omega)]
  rfl

theorem ndp_entry_update {f : NdpNeighborCacheEntry → NdpNeighborCacheEntry}
    (hi : i < s.neighborCache.length) :
    (s.update i f).entry j = if j = i then f (s.entry i) else s.entry j :=
  getD_modify hi

@[simp] theorem ndp_size_update {f : NdpNeighborCacheEntry → NdpNeighborCacheEntry} :
    (s.update i f).neighborCache.length = s.neighborCache.length := by
  simp [NdpInterface.update]

theorem NdpKeeps.refl (e : NdpNeighborCacheEntry) : NdpKeeps e e := .inl ⟨rfl, rfl⟩

theorem NdpKeeps.trans {e e' e'' : NdpNeighborCacheEntry} (h : NdpKeeps e e')
    (h' : NdpKeeps e' e'') : NdpKeeps e e'' := by
  rcases h' with ⟨hp', hs'⟩ | h'
  · rcases h with ⟨hp, hs⟩ | ⟨hp, hs⟩
    · exact .inl ⟨hp'.trans hp, hs'.trans hs⟩
    · exact .inr ⟨by rwa [hs'], by rwa [hs']⟩
  · exact .inr h'

theorem NdpKeeps.update {f : NdpNeighborCacheEntry → NdpNeighborCacheEntry}
    (hi : i < s.neighborCache.length) (hf : NdpKeeps (s.entry i) (f (s.entry i))) (j : Nat) :
    NdpKeeps (s.entry j) ((s.update i f).entry j) := by
  rw [ndp_entry_update hi]
  split
  · rename_i hj
    rw [hj]
    exact hf
  · exact .refl _

theorem ndpFind_some {ipAddr : Ipv6Addr} (h : ndpFindNeighborCacheEntry s ipAddr = some i) :
    i < s.neighborCache.length :=
  (List.findIdx?_eq_some_iff_getElem.mp h).choose

theorem oldestNeighbor_lt (time : Word) (s : NdpInterface) :
    oldestNeighbor time s < NDP_NEIGHBOR_CACHE_SIZE := by
  refine List.foldlRecOn (motive := (· < NDP_NEIGHBOR_CACHE_SIZE)) _ _ (by decide) ?_
  intro oldest hold i hi
  split
  · exact List.mem_range.mp hi
  · exact hold

theorem ndpCreate_spec (w : NdpWorld) (h : s.neighborCache.length = NDP_NEIGHBOR_CACHE_SIZE) :
    ∃ i < s.neighborCache.length,
      ndpCreateNeighborCacheEntry w s = (s.update i fun _ => {}, i) := by
  unfold ndpCreateNeighborCacheEntry
  cases hfind : s.neighborCache.findIdx? (·.state = .NONE) with
  | some i => exact ⟨i, (List.findIdx?_eq_some_iff_getElem.mp hfind).choose, rfl⟩
  | none => exact ⟨_, h ▸ oldestNeighbor_lt w.time s, rfl⟩

/-- A new entry is in use without being probed. -/
theorem NdpKeeps.create {f : NdpNeighborCacheEntry → NdpNeighborCacheEntry}
    (hi : i < s.neighborCache.length) (hf : (f {}).state ≠ .PROBE ∧ (f {}).state ≠ .NONE) (j : Nat) :
    NdpKeeps (s.entry j) (((s.update i fun _ => {}).update i f).entry j) := by
  rw [ndp_entry_update (by rwa [ndp_size_update]), ndp_entry_update hi, ndp_entry_update hi,
    if_pos rfl]
  split
  · exact .inr hf
  · exact .refl _

theorem ndpKeeps_resolve (h : s.neighborCache.length = NDP_NEIGHBOR_CACHE_SIZE) (ipAddr : Ipv6Addr)
    (j : Nat) : NdpKeeps (s.entry j) ((ndpResolve w s ipAddr).1.entry j) := by
  unfold ndpResolve
  cases hfind : ndpFindNeighborCacheEntry s ipAddr with
  | some i =>
    have hi := ndpFind_some hfind
    simp only
    split
    · exact .refl _
    split
    · exact NdpKeeps.update hi (.inr ⟨by simp, by simp⟩) j
    · exact .refl _
  | none =>
    obtain ⟨i, hi, hcreate⟩ := ndpCreate_spec w h
    simp only [hcreate]
    exact NdpKeeps.create hi ⟨by simp, by simp⟩ j

theorem ndpKeeps_enqueuePacket (alloc : Bool) (ipAddr : Ipv6Addr) (j : Nat) :
    NdpKeeps (s.entry j) ((ndpEnqueuePacket alloc s ipAddr).1.entry j) := by
  unfold ndpEnqueuePacket
  cases hfind : ndpFindNeighborCacheEntry s ipAddr with
  | none => exact .refl _
  | some i =>
    have hi := ndpFind_some hfind
    simp only
    split
    case isFalse => exact .refl _
    generalize hs₁ : (if (s.entry i).queueSize ≥ NDP_MAX_PENDING_PACKETS then _ else s) = s₁
    have hfirst : i < s₁.neighborCache.length ∧ NdpKeeps (s.entry j) (s₁.entry j) := by
      rw [← hs₁]
      split
      · exact ⟨by rwa [ndp_size_update], NdpKeeps.update hi (.inl ⟨rfl, rfl⟩) j⟩
      · exact ⟨hi, .refl _⟩
    split
    · exact hfirst.2.trans (NdpKeeps.update hfirst.1 (.inl ⟨rfl, rfl⟩) j)
    · exact hfirst.2

theorem ndpKeeps_learn (h : s.neighborCache.length = NDP_NEIGHBOR_CACHE_SIZE) (ipAddr : Ipv6Addr)
    (linkLayerAddr : MacAddr) (create : NdpNeighborCacheEntry → NdpNeighborCacheEntry)
    (hcreate : ∀ e, (create e).state = e.state) (j : Nat) :
    NdpKeeps (s.entry j) ((ndpLearn w s ipAddr linkLayerAddr create).entry j) := by
  unfold ndpLearn
  cases hfind : ndpFindNeighborCacheEntry s ipAddr with
  | none =>
    obtain ⟨i, hi, hnew⟩ := ndpCreate_spec w h
    simp only [hnew]
    exact NdpKeeps.create hi (by simp [hcreate]) j
  | some i =>
    have hi := ndpFind_some hfind
    simp only
    split
    · refine NdpKeeps.update hi (.inr ?_) j
      split <;> exact ⟨by simp, by simp⟩
    split
    · exact NdpKeeps.update hi (.inr ⟨by simp, by simp⟩) j
    · exact .refl _

theorem ndpKeeps_learnRouter (h : s.neighborCache.length = NDP_NEIGHBOR_CACHE_SIZE)
    (message : NdpMessage) (j : Nat) :
    NdpKeeps (s.entry j) ((ndpLearnRouter w s message).entry j) := by
  unfold ndpLearnRouter
  cases hfind : ndpFindNeighborCacheEntry s message.srcAddr with
  | none =>
    simp only
    cases message.linkLayerAddr with
    | none => exact .refl _
    | some linkLayerAddr =>
      exact ndpKeeps_learn h _ linkLayerAddr ({ · with isRouter := true }) (fun _ => rfl) j
  | some i =>
    have hi := ndpFind_some hfind
    have hrouter := @NdpKeeps.update s i ({ · with isRouter := true }) hi (.inl ⟨rfl, rfl⟩) j
    simp only
    cases message.linkLayerAddr with
    | none => exact hrouter
    | some linkLayerAddr =>
      exact hrouter.trans (ndpKeeps_learn (by rwa [ndp_size_update]) _ linkLayerAddr
        ({ · with isRouter := true }) (fun _ => rfl) j)

theorem ndpKeeps_routerAdv (h : s.neighborCache.length = NDP_NEIGHBOR_CACHE_SIZE)
    (message : NdpMessage) (reachableTime retransTimer : Word) (j : Nat) :
    NdpKeeps (s.entry j)
      ((ndpProcessRouterAdv w s message reachableTime retransTimer).entry j) := by
  unfold ndpProcessRouterAdv
  split
  · exact .refl _
  · let s₁ : NdpInterface := { s with
      reachableTime := if reachableTime ≠ 0 then reachableTime else s.reachableTime
      retransTimer := if retransTimer ≠ 0 then retransTimer else s.retransTimer }
    exact ndpKeeps_learnRouter (s := s₁) h message j

theorem ndpKeeps_neighborSol (h : s.neighborCache.length = NDP_NEIGHBOR_CACHE_SIZE)
    (message : NdpMessage) (j : Nat) :
    NdpKeeps (s.entry j) ((ndpProcessNeighborSol w s message).entry j) := by
  unfold ndpProcessNeighborSol
  split
  · exact .refl _
  split
  · split <;> exact .refl _
  split
  · exact .refl _
  split
  · split
    · exact .refl _
    · exact ndpKeeps_learn h _ _ id (fun _ => rfl) j
  · exact .refl _

theorem ndpKeeps_advertise {i : Nat} (hi : i < s.neighborCache.length) (flags : NdpFlags)
    (linkLayerAddr : Option MacAddr) (j : Nat) :
    NdpKeeps (s.entry j) ((ndpAdvertise w s flags linkLayerAddr i).entry j) := by
  unfold ndpAdvertise
  simp only
  split
  · split
    · refine NdpKeeps.update hi (.inr ?_) j
      split
      · exact ⟨by simp, by simp⟩
      · split <;> exact ⟨by simp, by simp⟩
    · exact .refl _
  split
  · split
    · exact NdpKeeps.update hi (.inr ⟨by simp, by simp⟩) j
    · exact .refl _
  split
  · exact NdpKeeps.update hi (.inr ⟨by simp, by simp⟩) j
  split
  · exact NdpKeeps.update hi (.inr ⟨by simp, by simp⟩) j
  · exact .refl _

theorem ndp_size_advertise (i : Nat) (flags : NdpFlags) (linkLayerAddr : Option MacAddr) :
    (ndpAdvertise w s flags linkLayerAddr i).neighborCache.length = s.neighborCache.length := by
  unfold ndpAdvertise
  simp only
  repeat' split
  all_goals simp

theorem ndpKeeps_neighborAdv (message : NdpMessage) (flags : NdpFlags) (j : Nat) :
    NdpKeeps (s.entry j) ((ndpProcessNeighborAdv w s message flags).entry j) := by
  unfold ndpProcessNeighborAdv
  split
  · exact .refl _
  split
  · exact .refl _
  split
  · rename_i i hfind
    have hi := ndpFind_some hfind
    exact (ndpKeeps_advertise hi flags message.linkLayerAddr j).trans
      (NdpKeeps.update (by rwa [ndp_size_advertise]) (.inl ⟨rfl, rfl⟩) j)
  · exact .refl _

theorem NdpKeeps.step {e e' : NdpNeighborCacheEntry} (h : NdpKeeps e e') (now : Word) :
    ProbeStep probeTiming now e.prober e'.prober := by
  rcases h with ⟨h, -⟩ | ⟨h, -⟩
  · rw [h]
    exact .stay
  · exact .leave (by simp [NdpNeighborCacheEntry.prober, h])

/-- What `ndpUpdateNeighborCache` makes of entry `i`. -/
def updatedEntry (w : NdpWorld) (retransTimer : Word) (i : Nat) (e : NdpNeighborCacheEntry) :
    NdpNeighborCacheEntry :=
  if !e.timedOut w.time then e
  else match e.state with
    | .INCOMPLETE =>
      if e.retransmitCount + 1 < NDP_MAX_MULTICAST_SOLICIT then
        { e with retransmitCount := e.retransmitCount + 1, timestamp := w.time,
                 timeout := retransTimer }
      else { e with retransmitCount := e.retransmitCount + 1, queueSize := 0, state := .NONE }
    | .REACHABLE => { e with timestamp := w.stamp i, state := .STALE }
    | .DELAY =>
      { e with timestamp := w.time, timeout := retransTimer, state := .PROBE,
               probes := w.probe retransTimer i }
    | .PROBE =>
      if e.retransmitCount + 1 < NDP_MAX_UNICAST_SOLICIT then
        { e with retransmitCount := e.retransmitCount + 1, timestamp := w.time,
                 timeout := retransTimer, probes := e.probes ++ w.probe retransTimer i }
      else { e with retransmitCount := e.retransmitCount + 1, state := .NONE }
    | _ => e

theorem entry_updateEntry (hi : i < s.neighborCache.length) : (ndpUpdateEntry w s i).entry j =
    if j = i then updatedEntry w s.retransTimer i (s.entry i) else s.entry j := by
  by_cases hlate : (s.entry i).timedOut w.time = true
  · cases hstate : (s.entry i).state <;>
      simp only [ndpUpdateEntry, updatedEntry, hstate, hlate, if_true, if_false, reduceCtorEq,
        Bool.not_true, Bool.false_eq_true]
    case INCOMPLETE =>
      split
      · rw [ndp_entry_update hi, hstate]
      · exact ndp_entry_update hi
    case REACHABLE => exact ndp_entry_update hi
    case DELAY => exact ndp_entry_update hi
    case PROBE =>
      split
      · rw [ndp_entry_update hi, hstate]
      · exact ndp_entry_update hi
    all_goals
      split
      · rename_i hj
        rw [hj]
      · rfl
  · have hidle : ndpUpdateEntry w s i = s := by simp [ndpUpdateEntry, hlate]
    have hsame : updatedEntry w s.retransTimer i (s.entry i) = s.entry i := by simp [updatedEntry, hlate]
    rw [hidle, hsame]
    split
    · rename_i hj
      rw [hj]
    · rfl

theorem size_updateEntry (w : NdpWorld) (s : NdpInterface) (i : Nat) :
    (ndpUpdateEntry w s i).neighborCache.length = s.neighborCache.length ∧
      (ndpUpdateEntry w s i).retransTimer = s.retransTimer := by
  unfold ndpUpdateEntry
  simp only
  repeat' split
  all_goals exact ⟨by simp, rfl⟩

/-- The loop turns every entry into its update. -/
theorem entry_updateCache (h : s.neighborCache.length = NDP_NEIGHBOR_CACHE_SIZE) (i : Nat) :
    (ndpUpdateNeighborCache w s).neighborCache.length = NDP_NEIGHBOR_CACHE_SIZE ∧
      (ndpUpdateNeighborCache w s).entry i = if i < NDP_NEIGHBOR_CACHE_SIZE then
        updatedEntry w s.retransTimer i (s.entry i) else s.entry i := by
  have hloop := loop_entries NdpInterface.entry
    (fun t => t.neighborCache.length = NDP_NEIGHBOR_CACHE_SIZE ∧ t.retransTimer = s.retransTimer)
    (updatedEntry w s.retransTimer) (f := ndpUpdateEntry w) (n := NDP_NEIGHBOR_CACHE_SIZE)
    (fun t i ht _ => ⟨(size_updateEntry w t i).1.trans ht.1, (size_updateEntry w t i).2.trans ht.2⟩)
    (fun t i j ht hi => by rw [entry_updateEntry (by rw [ht.1]; exact hi), ht.2]) ⟨h, rfl⟩
  exact ⟨hloop.1.1, hloop.2 i⟩

/-- What `ndpUpdateNeighborCache` does with one entry, when it may be probed. -/
theorem updated_step {e : NdpNeighborCacheEntry} (retransTimer : Word)
    (hsound : e.timedOut w.time → (e.state = .DELAY → e.retransmitCount = 0 ∧ w.ready i) ∧
      (e.state = .PROBE → e.retransmitCount + 1 < NDP_MAX_UNICAST_SOLICIT → w.ready i)) :
    ProbeStep probeTiming w.time e.prober (updatedEntry w retransTimer i e).prober ∧
      (e.state = .PROBE → (updatedEntry w retransTimer i e).state = .NONE →
        e.timedOut w.time ∧ NDP_MAX_UNICAST_SOLICIT ≤ e.retransmitCount + 1) := by
  unfold updatedEntry
  by_cases hlate : e.timedOut w.time
  case neg =>
    rw [if_pos (by simpa using hlate)]
    exact ⟨.stay, fun hp hn => by rw [hp] at hn; cases hn⟩
  rw [if_neg (by simpa using hlate)]
  obtain ⟨hdelay, hprobe⟩ := hsound hlate
  cases hstate : e.state <;> dsimp only
  case DELAY =>
    obtain ⟨hcount, hready⟩ := hdelay hstate
    refine ⟨?_, fun h => by cases h⟩
    simp only [NdpNeighborCacheEntry.prober, NdpWorld.probe, hcount, if_pos hready, decide_true]
    exact .enter rfl
  case PROBE =>
    split
    · rename_i hmore
      have hready := hprobe hstate hmore
      refine ⟨?_, fun _ h => by cases h⟩
      simp only [NdpNeighborCacheEntry.prober, NdpWorld.probe, hstate, if_pos hready, decide_true]
      exact .resend rfl hlate rfl
    · exact ⟨.leave (by simp [NdpNeighborCacheEntry.prober]), fun _ _ => ⟨hlate, by omega⟩⟩
  case INCOMPLETE =>
    refine ⟨.leave ?_, fun h => by cases h⟩
    split <;> simp [NdpNeighborCacheEntry.prober]
  case REACHABLE => exact ⟨.leave (by simp [NdpNeighborCacheEntry.prober]), fun h => by cases h⟩
  all_goals exact ⟨.leave (by simp [NdpNeighborCacheEntry.prober, hstate]), fun h => by cases h⟩

/-- What a call does with one entry. -/
theorem ndpCall_step (h : s.neighborCache.length = NDP_NEIGHBOR_CACHE_SIZE)
    {call : NdpWorld × NdpCall} (hsound : NdpSound s call) (i : Nat) :
    ProbeStep probeTiming call.1.time (s.entry i).prober ((ndpCall s call).entry i).prober ∧
      ((s.entry i).state = .PROBE → ((ndpCall s call).entry i).state = .NONE →
        (s.entry i).timedOut call.1.time ∧
          NDP_MAX_UNICAST_SOLICIT ≤ (s.entry i).retransmitCount + 1) := by
  obtain ⟨w, call⟩ := call
  have hkeeps {e' : NdpNeighborCacheEntry} (hk : NdpKeeps (s.entry i) e') :
      ProbeStep probeTiming w.time (s.entry i).prober e'.prober ∧
        ((s.entry i).state = .PROBE → e'.state = .NONE → (s.entry i).timedOut w.time ∧
          NDP_MAX_UNICAST_SOLICIT ≤ (s.entry i).retransmitCount + 1) := by
    refine ⟨hk.step _, fun hp hn => ?_⟩
    rcases hk with ⟨-, hs⟩ | ⟨-, hs⟩
    · rw [hs, hp] at hn
      cases hn
    · exact absurd hn hs
  cases call with
  | resolve ipAddr => exact hkeeps (ndpKeeps_resolve h ipAddr i)
  | enqueue alloc ipAddr => exact hkeeps (ndpKeeps_enqueuePacket alloc ipAddr i)
  | routerAdv message reachableTime retransTimer =>
    exact hkeeps (ndpKeeps_routerAdv h message reachableTime retransTimer i)
  | neighborSol message => exact hkeeps (ndpKeeps_neighborSol h message i)
  | neighborAdv message flags => exact hkeeps (ndpKeeps_neighborAdv message flags i)
  | configure addrList anycastAddrList => exact hkeeps (.refl _)
  | update =>
    simp only [ndpCall]
    rw [(entry_updateCache h i).2]
    split
    · exact updated_step s.retransTimer (hsound i)
    · exact hkeeps (.refl _)

theorem ndp_size_create :
    (ndpCreateNeighborCacheEntry w s).1.neighborCache.length = s.neighborCache.length := by
  unfold ndpCreateNeighborCacheEntry
  split <;> simp

theorem ndp_size_learn (ipAddr : Ipv6Addr) (linkLayerAddr : MacAddr)
    (create : NdpNeighborCacheEntry → NdpNeighborCacheEntry) :
    (ndpLearn w s ipAddr linkLayerAddr create).neighborCache.length = s.neighborCache.length := by
  unfold ndpLearn
  split
  · simp [ndp_size_create]
  · simp only
    split
    · simp
    · split <;> simp

theorem ndp_size_learnRouter (message : NdpMessage) :
    (ndpLearnRouter w s message).neighborCache.length = s.neighborCache.length := by
  unfold ndpLearnRouter
  simp only
  split <;> split <;> simp [ndp_size_learn]

theorem ndp_size_call (call : NdpWorld × NdpCall) :
    (ndpCall s call).neighborCache.length = s.neighborCache.length := by
  obtain ⟨w, call⟩ := call
  cases call with
  | resolve ipAddr =>
    simp only [ndpCall, ndpResolve]
    split
    · split
      · rfl
      · split <;> simp
    · simp [ndp_size_create]
  | enqueue alloc ipAddr =>
    simp only [ndpCall, ndpEnqueuePacket]
    split
    · split
      · split <;> split <;> simp
      · rfl
    · rfl
  | update =>
    exact List.foldlRecOn (motive := fun t => t.neighborCache.length = s.neighborCache.length) _ _
      rfl fun t ht i _ => (size_updateEntry w t i).1.trans ht
  | routerAdv message reachableTime retransTimer =>
    simp only [ndpCall, ndpProcessRouterAdv]
    split
    · rfl
    · exact ndp_size_learnRouter message
  | neighborSol message =>
    simp only [ndpCall, ndpProcessNeighborSol]
    repeat' split
    all_goals first | rfl | exact ndp_size_learn _ _ _
  | neighborAdv message flags =>
    simp only [ndpCall, ndpProcessNeighborAdv]
    repeat' split
    all_goals first | rfl | simp [ndp_size_advertise]
  | configure addrList anycastAddrList => rfl

/-- Induction on the run: whatever is probed has been probed once more than is counted. -/
theorem ndp_probers {s₀ : NdpInterface}
    (hstart : s₀.neighborCache = List.replicate NDP_NEIGHBOR_CACHE_SIZE {})
    (h : Reach ndpCall NdpSound s₀ s) :
    s.neighborCache.length = NDP_NEIGHBOR_CACHE_SIZE ∧ ∀ i, (s.entry i).prober.Ok probeTiming := by
  refine Reach.inv (P := fun s => s.neighborCache.length = NDP_NEIGHBOR_CACHE_SIZE ∧
      ∀ i, (s.entry i).prober.Ok probeTiming) h ⟨by rw [hstart, List.length_replicate], fun i => ?_⟩
    fun s call hs hsound =>
      ⟨(ndp_size_call call).trans hs.1, fun i => (ndpCall_step hs.1 hsound i).1.inv (hs.2 i)⟩
  have hentry : s₀.entry i = {} := by
    rw [NdpInterface.entry, hstart, List.getD, List.getElem?_replicate]
    split <;> rfl
  rw [hentry]
  exact .idle rfl

theorem ndp_givesUp {s₀ : NdpInterface}
    (hstart : s₀.neighborCache = List.replicate NDP_NEIGHBOR_CACHE_SIZE {})
    (h : Reach ndpCall NdpSound s₀ s) {call : NdpWorld × NdpCall}
    (hsound : NdpSound s call) : NdpGivesUp s call := by
  intro i hprobe hnone
  obtain ⟨hsize, hprobers⟩ := ndp_probers hstart h
  obtain ⟨-, hgive⟩ := ndpCall_step hsize hsound i
  obtain ⟨hlate, hcount⟩ := hgive hprobe hnone
  exact (hprobers i).justified (by simp [NdpNeighborCacheEntry.prober, hprobe]) hlate hcount

end Ndp

/-- Everything happens at the time given, and there is memory for every request. -/
def calmAt (time : Word) : ArpWorld := { time, stamp := fun _ => time, ready := fun _ => true }

/-- The host 10.0.0.1. -/
def probingHost : ArpInterface :=
  { macAddr := 0x020000000001
    addrList := [{ addr := 0x0A000001, state := .VALID, subnetMask := 0xFFFFFF00 }] }

/-- The neighbor 10.0.0.2 answers the second request; later it is probed once. -/
def probedOnce : List (ArpWorld × ArpCall) :=
  [(calmAt 0, .resolve 0x0A000002), (calmAt 1000, .tick),
    (calmAt 1500, .processPacket { op := ARP_OPCODE_ARP_REPLY, sha := 0x020000000002,
                                   spa := 0x0A000002, tpa := 0x0A000001 } 28),
    (calmAt 61500, .tick), (calmAt 62000, .resolve 0x0A000002), (calmAt 67000, .tick)]

end Cyclone
