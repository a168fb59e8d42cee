import Cyclone.Lib.Run
import Cyclone.Multicast

/-!
# Cyclone.MulticastRuns

Runs of the calls that join and leave groups, with the record of the successful ones.

* `Exact`: what every call keeps, from the books of the filters and of the address entries.
* `reference_counts`: memberships are counted exactly, as long as no counter wraps.
* `joinedTimes`: a run in which one does.
-/

namespace Cyclone
namespace Multicast

open RefTable Serial

/-! ## Runs -/

section Runs

variable {ι : Type} [DecidableEq ι] [Fintype ι] {physical i : ι} {g : Group} {s : State ι}

/-- The references to a group are the joins that were not left. -/
structure Books (physical : ι) (s : State ι) : Prop where
  linked : Linked physical s.net
  balance : ∀ j h, s.joins j h = s.leaves j h + groupRefs (s.net j) h

omit [Fintype ι] in
@[simp] theorem setEntry_net_self (index : Nat) (f : Ipv6AddrEntry → Ipv6AddrEntry) :
    (s.setEntry i index f).net i = (s.net i).setEntry index f := Function.update_self ..

omit [Fintype ι] in
theorem setEntry_net_of_ne {j : ι} (hj : j ≠ i) (index : Nat) (f : Ipv6AddrEntry → Ipv6AddrEntry) :
    (s.setEntry i index f).net j = s.net j := Function.update_of_ne hj ..

omit [Fintype ι] in
theorem length_setEntry (j : ι) (index : Nat) (f : Ipv6AddrEntry → Ipv6AddrEntry) :
    ((s.setEntry i index f).net j).addrList.length = (s.net j).addrList.length := by
  by_cases hj : j = i
  · subst hj
    rw [setEntry_net_self, McastInterface.setEntry, List.length_modify]
  · rw [setEntry_net_of_ne hj]

omit [Fintype ι] in
theorem entryAt_setEntry_self {index : Nat} (hi : index < (s.net i).addrList.length)
    (f : Ipv6AddrEntry → Ipv6AddrEntry) :
    (s.setEntry i index f).entryAt i index = f (s.entryAt i index) := by
  rw [State.entryAt, State.entryAt, setEntry_net_self, McastInterface.setEntry]
  simp [List.getD_eq_getElem?_getD, List.getElem?_eq_getElem hi]

omit [Fintype ι] in
theorem entryAt_setEntry_other {j : ι} {k index : Nat} (h : ¬(j = i ∧ k = index))
    (f : Ipv6AddrEntry → Ipv6AddrEntry) :
    (s.setEntry i index f).entryAt j k = s.entryAt j k := by
  rw [State.entryAt, State.entryAt]
  by_cases hj : j = i
  · subst hj
    have hk : index ≠ k := fun hc => h ⟨rfl, hc.symm⟩
    rw [setEntry_net_self, McastInterface.setEntry]
    simp [List.getD_eq_getElem?_getD, hk]
  · rw [setEntry_net_of_ne hj]

/-- The last lines of `ipv6SetAddr` leave the filters as they are. -/
theorem Books.setEntry (hb : Books physical s) (index : Nat)
    (f : Ipv6AddrEntry → Ipv6AddrEntry) : Books physical (s.setEntry i index f) := by
  have hsame : ∀ j, ∃ list, (s.setEntry i index f).net j = { s.net j with addrList := list } := by
    intro j
    by_cases hj : j = i
    · subst hj
      exact ⟨_, setEntry_net_self ..⟩
    · exact ⟨_, setEntry_net_of_ne hj ..⟩
  have hgroups : ∀ j, groups ((s.setEntry i index f).net j) = groups (s.net j) ∧
      groupRefs ((s.setEntry i index f).net j) = groupRefs (s.net j) := by
    intro j
    obtain ⟨list, hl⟩ := hsame j
    rw [hl]
    exact groups_congr rfl rfl
  have hmac : ∀ j, ((s.setEntry i index f).net j).macAddrFilter = (s.net j).macAddrFilter := by
    intro j
    obtain ⟨list, hl⟩ := hsame j
    rw [hl]
  refine ⟨⟨fun j => ?_, fun j => ?_, fun j m => ?_, fun j => ?_⟩, fun j h => ?_⟩
  · rw [(hgroups j).1]
    exact hb.linked.nodup j
  · rw [hmac]
    exact hb.linked.macNodup j
  · rw [hmac, hb.linked.macs]
    simp only [load, mapped, (hgroups _).1]
  · obtain ⟨list, hl⟩ := hsame j
    rw [hl]
    exact ⟨(hb.linked.clean j).mac, (hb.linked.clean j).ipv4, (hb.linked.clean j).ipv6⟩
  · rw [(hgroups j).2]
    exact hb.balance j h

theorem Books.join (hb : Books physical s) (hr : Room physical i g s.net) :
    Books physical (s.join physical i g).2 ∧
      ∀ j, ((s.join physical i g).2.net j).addrList = (s.net j).addrList := by
  unfold State.join
  dsimp only
  by_cases he : (joinMulticastGroup physical i g s.net).1 = .NO_ERROR
  · obtain ⟨hj, hc⟩ := join_ok hr he
    refine ⟨⟨hb.linked.join hj (hc hb.linked.clean), fun j h => ?_⟩, hj.addrList⟩
    dsimp only
    rw [hj.groupRefs, record]
    simp only [he, true_and]
    rw [hb.balance, Nat.add_assoc]
  · have hnet := join_error hr hb.linked.clean he
    rw [hnet]
    refine ⟨⟨hb.linked, fun j h => ?_⟩, fun _ => rfl⟩
    dsimp only
    rw [record, if_neg fun hc => he hc.1, Nat.add_zero]
    exact hb.balance j h

theorem Books.leave (hb : Books physical s) : Books physical (s.leave physical i g).2 ∧
    ∀ j, ((s.leave physical i g).2.net j).addrList = (s.net j).addrList := by
  unfold State.leave
  dsimp only
  by_cases he : (leaveMulticastGroup physical i g s.net).1 = .NO_ERROR
  · obtain ⟨hj, hc⟩ := leave_ok hb.linked he
    refine ⟨⟨hb.linked.leave hj hc, fun j h => ?_⟩, fun j => (hj.addrList j).symm⟩
    have hrefs := hj.groupRefs j h
    have hbal := hb.balance j h
    dsimp only
    rw [record]
    simp only [he, true_and]
    rw [hbal, hrefs]
    omega
  · rw [leave_error he]
    refine ⟨⟨hb.linked, fun j h => ?_⟩, fun _ => rfl⟩
    dsimp only
    rw [record, if_neg fun hc => he hc.1, Nat.add_zero]
    exact hb.balance j h

/-- The books, and one join for every entry that listens. -/
structure Exact (physical : ι) (s : State ι) : Prop where
  books : Books physical s
  holders : ∀ j h, s.joins j h = s.applied j h +
    ∑ k ∈ Finset.range (s.net j).addrList.length, s.attached j k h
  entries : ∀ j k h, s.attached j k h = s.detached j k h +
    if Solicits (s.entryAt j k) h then 1 else 0

theorem Exact.apply (hx : Exact physical s) (hr : Room physical i g s.net) :
    Exact physical (s.apply physical i g).2 := by
  obtain ⟨hb, hlist⟩ := hx.books.join hr
  refine ⟨⟨hb.linked, hb.balance⟩, fun j h => ?_, fun j k h => ?_⟩
  · show record _ i g s.joins j h = record _ i g s.applied j h +
      ∑ k ∈ Finset.range ((s.join physical i g).2.net j).addrList.length, s.attached j k h
    rw [hlist, record, record, hx.holders]
    exact Nat.add_right_comm ..
  · show s.attached j k h = s.detached j k h +
      if Solicits (((s.join physical i g).2.net j).addrList.getD k {}) h then 1 else 0
    rw [hlist]
    exact hx.entries j k h

theorem Exact.leave (hx : Exact physical s) : Exact physical (s.leave physical i g).2 := by
  obtain ⟨hb, hlist⟩ := @Books.leave _ _ _ _ i g _ hx.books
  refine ⟨hb, fun j h => ?_, fun j k h => ?_⟩
  · show s.joins j h = s.applied j h +
      ∑ k ∈ Finset.range ((s.leave physical i g).2.net j).addrList.length, s.attached j k h
    rw [hlist]
    exact hx.holders j h
  · show s.attached j k h = s.detached j k h +
      if Solicits (((s.leave physical i g).2.net j).addrList.getD k {}) h then 1 else 0
    rw [hlist]
    exact hx.entries j k h

/-- What leaving the old group of an entry changes. -/
structure Detached (physical i : ι) (index : Nat) (s s' : State ι) : Prop where
  books : Books physical s'
  addrList : ∀ j, (s'.net j).addrList = (s.net j).addrList
  joins : s'.joins = s.joins
  applied : s'.applied = s.applied
  attached : s'.attached = s.attached
  detached : ∀ j k h, s'.detached j k h = s.detached j k h +
    if j = i ∧ k = index ∧ Solicits (s.entryAt i index) h then 1 else 0

theorem detach_spec (hb : Books physical s) (index : Nat) :
    Detached physical i index s (s.detach physical i index) := by
  unfold State.detach
  dsimp only
  split_ifs with hs
  · obtain ⟨hb', hlist⟩ := @Books.leave _ _ _ _ i
      (.ipv6 (ipv6ComputeSolicitedNodeAddr (s.entryAt i index).addr)) _ hb
    refine ⟨⟨hb'.linked, hb'.balance⟩, hlist, rfl, rfl, rfl, fun j k h => ?_⟩
    have hiff : Solicits (s.entryAt i index) h ↔
        h = .ipv6 (ipv6ComputeSolicitedNodeAddr (s.entryAt i index).addr) :=
      ⟨fun hh => hh.2.2, fun hh => ⟨hs.1, hs.2.1, hh⟩⟩
    simp only [recordEntry, true_and, hiff]
  · refine ⟨hb, fun _ => rfl, rfl, rfl, rfl, fun j k h => ?_⟩
    have hnot : ¬Solicits (s.entryAt i index) h := fun hh => hs ⟨hh.1, hh.2.1, rfl⟩
    rw [if_neg fun hc => hnot hc.2.2, Nat.add_zero]

/-- An address that is set with this state wants the group. -/
def Wants (addr : Ipv6Addr) (state : Ipv6AddrState) (g : Group) : Prop :=
  addr ≠ IPV6_UNSPECIFIED_ADDR ∧ state ≠ .INVALID ∧ g = .ipv6 (ipv6ComputeSolicitedNodeAddr addr)

instance (addr : Ipv6Addr) (state : Ipv6AddrState) (g : Group) : Decidable (Wants addr state g) :=
  inferInstanceAs (Decidable (_ ∧ _ ∧ _))

/-- What joining the new group changes, with the result of the call. -/
structure AttachedTo (physical i : ι) (index : Nat) (addr : Ipv6Addr) (state : Ipv6AddrState)
    (e : McastError) (s s' : State ι) : Prop where
  books : Books physical s'
  addrList : ∀ j, (s'.net j).addrList = (s.net j).addrList
  applied : s'.applied = s.applied
  detached : s'.detached = s.detached
  joins : ∀ j h, s'.joins j h = s.joins j h +
    if e = .NO_ERROR ∧ j = i ∧ Wants addr state h then 1 else 0
  attached : ∀ j k h, s'.attached j k h = s.attached j k h +
    if e = .NO_ERROR ∧ j = i ∧ k = index ∧ Wants addr state h then 1 else 0

theorem attach_spec (hb : Books physical s) (index : Nat) {addr : Ipv6Addr} {state : Ipv6AddrState}
    (hr : addr ≠ IPV6_UNSPECIFIED_ADDR → state ≠ .INVALID →
      Room physical i (.ipv6 (ipv6ComputeSolicitedNodeAddr addr)) s.net) :
    AttachedTo physical i index addr state (s.attach physical i index addr state).1 s
      (s.attach physical i index addr state).2 := by
  unfold State.attach
  dsimp only
  split_ifs with hs
  · obtain ⟨hb', hlist⟩ := hb.join (hr hs.1 hs.2)
    have hiff : ∀ h, Wants addr state h ↔ h = .ipv6 (ipv6ComputeSolicitedNodeAddr addr) :=
      fun h => ⟨fun hh => hh.2.2, fun hh => ⟨hs.1, hs.2, hh⟩⟩
    refine ⟨⟨hb'.linked, hb'.balance⟩, hlist, rfl, rfl, fun j h => ?_, fun j k h => ?_⟩
    · simp only [hiff]
      rfl
    · simp only [hiff]
      rfl
  · have hnot : ∀ h, ¬Wants addr state h := fun h hh => hs ⟨hh.1, hh.2.1⟩
    refine ⟨hb, fun _ => rfl, rfl, rfl, fun j h => ?_, fun j k h => ?_⟩
    · rw [if_neg fun hc => hnot h hc.2.2, Nat.add_zero]
    · rw [if_neg fun hc => hnot h hc.2.2.2, Nat.add_zero]

/-- The entry listens afterwards if its group could be joined. -/
theorem solicits_setAddr {e : Ipv6AddrEntry} {w : Ipv6World} {index : Nat} {addr : Ipv6Addr}
    {state : Ipv6AddrState} {error : McastError} (hm : ipv6IsMulticastAddr addr = false)
    (he : state = .INVALID → error = .NO_ERROR) (valid preferred : Word) (permanent : Bool) :
    Solicits (e.setAddr { w with join := fun _ => error == .NO_ERROR } index addr state valid
      preferred permanent) g ↔ error = .NO_ERROR ∧ Wants addr state g := by
  unfold Ipv6AddrEntry.setAddr Solicits Wants
  rw [hm, if_neg Bool.false_ne_true]
  by_cases ha : addr = IPV6_UNSPECIFIED_ADDR
  · rw [if_pos ha]
    simp [ha]
  · rw [if_neg ha]
    by_cases hok : error = .NO_ERROR
    · simp [hok, ha]
    · have hs : state ≠ .INVALID := fun hc => hok (he hc)
      simp [hok, hs]

theorem Exact.setAddr (hx : Exact physical s) (w : Ipv6World) {index : Nat} {addr : Ipv6Addr}
    {state : Ipv6AddrState} (valid preferred : Word) (permanent : Bool)
    (hi : index < (s.net i).addrList.length) (hm : ipv6IsMulticastAddr addr = false)
    (hr : addr ≠ IPV6_UNSPECIFIED_ADDR → state ≠ .INVALID →
      Room physical i (.ipv6 (ipv6ComputeSolicitedNodeAddr addr)) (s.detach physical i index).net) :
    Exact physical (ipv6SetAddr physical w i index addr state valid preferred permanent s).2 := by
  have hd := detach_spec (i := i) hx.books index
  have ha := attach_spec hd.books index hr
  have herror : state = .INVALID →
      ((s.detach physical i index).attach physical i index addr state).1 = .NO_ERROR := by
    intro hs
    rw [State.attach]
    dsimp only
    rw [if_neg fun hc => hc.2 hs]
  unfold ipv6SetAddr
  rw [if_neg (Nat.not_le.mpr hi), if_neg (by rw [hm]; exact Bool.false_ne_true)]
  dsimp only
  generalize ((s.detach physical i index).attach physical i index addr state) = r at ha herror ⊢
  obtain ⟨error, s'⟩ := r
  dsimp only at ha herror ⊢
  have hlist : ∀ j, (s'.net j).addrList = (s.net j).addrList := fun j =>
    (ha.addrList j).trans (hd.addrList j)
  have hentry : ∀ j k, s'.entryAt j k = s.entryAt j k := fun j k => by
    rw [State.entryAt, State.entryAt, hlist]
  refine ⟨ha.books.setEntry index _, fun j h => ?_, fun j k h => ?_⟩
  · -- the join of the new group is one more of this entry
    rw [length_setEntry, hlist]
    show s'.joins j h = s'.applied j h + ∑ k ∈ Finset.range (s.net j).addrList.length,
      s'.attached j k h
    rw [ha.joins, hd.joins, ha.applied, hd.applied, hx.holders,
      Finset.sum_congr rfl fun k _ => ha.attached j k h, Finset.sum_add_distrib, hd.attached,
      Nat.add_assoc]
    congr 2
    by_cases hc : error = .NO_ERROR ∧ j = i ∧ Wants addr state h
    · obtain ⟨rfl, rfl, hw⟩ := hc
      simp only [hw, true_and, and_true, if_true]
      rw [Finset.sum_ite_eq', if_pos (Finset.mem_range.mpr hi)]
    · rw [if_neg hc, Finset.sum_eq_zero]
      intro k _
      rw [if_neg fun hk => hc ⟨hk.1, hk.2.1, hk.2.2.2⟩]
  · show s'.attached j k h = s'.detached j k h + _
    rw [ha.attached, ha.detached, hd.attached, hd.detached, hx.entries]
    by_cases hjk : j = i ∧ k = index
    · -- the entry that is set held a join of its old group until now
      obtain ⟨rfl, rfl⟩ := hjk
      rw [entryAt_setEntry_self (by rw [hlist]; exact hi), hentry]
      simp only [solicits_setAddr hm herror, true_and]
    · have hnew : ¬(error = .NO_ERROR ∧ j = i ∧ k = index ∧ Wants addr state h) := fun hc =>
        hjk ⟨hc.2.1, hc.2.2.1⟩
      have hold : ¬(j = i ∧ k = index ∧ Solicits (s.entryAt i index) h) := fun hc =>
        hjk ⟨hc.1, hc.2.1⟩
      rw [entryAt_setEntry_other hjk, hentry, if_neg hnew, if_neg hold, Nat.add_zero,
        Nat.add_zero]

/-- Filters that are empty, and entries that hold no address in use. -/
structure Empty (s : State ι) : Prop where
  macAddrFilter : ∀ j, ∀ e ∈ (s.net j).macAddrFilter, e = ⟨MAC_UNSPECIFIED_ADDR, 0⟩
  ipv4Filter : ∀ j, ∀ e ∈ (s.net j).ipv4Filter, e = ⟨IPV4_UNSPECIFIED_ADDR, 0⟩
  ipv6Filter : ∀ j, ∀ e ∈ (s.net j).ipv6Filter, e = ⟨IPV6_UNSPECIFIED_ADDR, 0⟩
  addrList : ∀ j, ∀ e ∈ (s.net j).addrList, e.addr = IPV6_UNSPECIFIED_ADDR ∨ e.state = .INVALID
  joins : ∀ j h, s.joins j h = 0
  leaves : ∀ j h, s.leaves j h = 0
  applied : ∀ j h, s.applied j h = 0
  attached : ∀ j k h, s.attached j k h = 0
  detached : ∀ j k h, s.detached j k h = 0

omit [DecidableEq ι] in
theorem Empty.exact (h0 : Empty s) [DecidableEq ι] : Exact physical s := by
  have hgroups : ∀ j, groups (s.net j) = [] := by
    intro j
    rw [groups, members_eq_nil fun e he => by rw [h0.ipv4Filter j e he],
      members_eq_nil fun e he => by rw [h0.ipv6Filter j e he]]
    rfl
  have hmacs : ∀ j, members (s.net j).macAddrFilter = [] := fun j =>
    members_eq_nil fun e he => by rw [h0.macAddrFilter j e he]
  have hzero : ∀ j h, groupRefs (s.net j) h = 0 := by
    intro j h
    have hn : h ∉ groups (s.net j) := by
      rw [hgroups]
      exact List.not_mem_nil
    exact Nat.eq_zero_of_not_pos fun hc => hn (mem_groups_iff.mpr hc)
  refine ⟨⟨⟨fun j => ?_, fun j => ?_, fun j m => ?_, fun j => ⟨?_, ?_, ?_⟩⟩, fun j h => ?_⟩,
    fun j h => ?_, fun j k h => ?_⟩
  · rw [hgroups]
    exact List.nodup_nil
  · rw [hmacs]
    exact List.nodup_nil
  · have hn : m ∉ members (s.net j).macAddrFilter := by
      rw [hmacs]
      exact List.not_mem_nil
    have hload : load physical s.net j m = 0 := by simp [load, mapped, hgroups]
    rw [hload]
    exact Nat.eq_zero_of_not_pos fun hc => hn (mem_members_iff.mpr hc)
  · exact fun e he _ => by rw [h0.macAddrFilter j e he]
  · exact fun e he _ => by rw [h0.ipv4Filter j e he]
  · exact fun e he _ => by rw [h0.ipv6Filter j e he]
  · rw [h0.joins, h0.leaves, hzero]
  · rw [h0.joins, h0.applied, Finset.sum_eq_zero fun k _ => h0.attached j k h, Nat.add_zero]
  · have hn : ¬Solicits (s.entryAt j k) h := by
      intro hs
      rw [State.entryAt, List.getD_eq_getElem?_getD] at hs
      cases he : (s.net j).addrList[k]? with
      | none =>
        rw [he] at hs
        exact hs.1 rfl
      | some e =>
        rw [he] at hs
        exact (h0.addrList j e (List.mem_of_getElem? he)).elim hs.1 hs.2.1
    rw [h0.attached, h0.detached, if_neg hn, Nat.add_zero]

/-- A counter that the call counts up is not the largest number it can hold. -/
def Fits (physical : ι) (s : State ι) : Call ι → Prop
  | .ipv4JoinMulticastGroup i groupAddr => Room physical i (.ipv4 groupAddr) s.net
  | .ipv6JoinMulticastGroup i groupAddr => Room physical i (.ipv6 groupAddr) s.net
  | .ipv6SetAddr _ i index addr state _ _ _ =>
    index < (s.net i).addrList.length → ipv6IsMulticastAddr addr = false →
      addr ≠ IPV6_UNSPECIFIED_ADDR → state ≠ .INVALID →
      -- the group of the old address is left before
      Room physical i (.ipv6 (ipv6ComputeSolicitedNodeAddr addr)) (s.detach physical i index).net
  | .ipv4LeaveMulticastGroup _ _ | .ipv6LeaveMulticastGroup _ _ => True

theorem exact_step (s : State ι) (c : Call ι) (hx : Exact physical s) (hf : Fits physical s c) :
    Exact physical (step physical s c) := by
  cases c with
  | ipv4JoinMulticastGroup i groupAddr => exact hx.apply hf
  | ipv4LeaveMulticastGroup i groupAddr => exact hx.leave
  | ipv6JoinMulticastGroup i groupAddr => exact hx.apply hf
  | ipv6LeaveMulticastGroup i groupAddr => exact hx.leave
  | ipv6SetAddr w i index addr state valid preferred permanent =>
    by_cases hi : index < (s.net i).addrList.length
    · by_cases hm : ipv6IsMulticastAddr addr = false
      · exact hx.setAddr w valid preferred permanent hi hm (hf hi hm)
      · show Exact physical (ipv6SetAddr ..).2
        rw [ipv6SetAddr, if_neg (Nat.not_le.mpr hi), if_pos (by simpa using hm)]
        exact hx
    · show Exact physical (ipv6SetAddr ..).2
      rw [ipv6SetAddr, if_pos (Nat.not_lt.mp hi)]
      exact hx

/-- Memberships are counted exactly, on both levels. -/
structure Counted (physical : ι) (s : State ι) : Prop where
  present : ∀ j h, h ∈ groups (s.net j) ↔ s.leaves j h < s.joins j h
  nodup : ∀ j, (groups (s.net j)).Nodup
  ipv4Count : ∀ j, ∀ e ∈ (s.net j).ipv4Filter, 0 < e.refCount →
    s.joins j (.ipv4 e.addr) = s.leaves j (.ipv4 e.addr) + e.refCount
  ipv6Count : ∀ j, ∀ e ∈ (s.net j).ipv6Filter, 0 < e.refCount →
    s.joins j (.ipv6 e.addr) = s.leaves j (.ipv6 e.addr) + e.refCount
  macPresent : ∀ j m, m ∈ members (s.net j).macAddrFilter ↔ 0 < load physical s.net j m
  macCount : ∀ j, ∀ e ∈ (s.net j).macAddrFilter, 0 < e.refCount →
    e.refCount = load physical s.net j e.addr
  holders : ∀ j h, s.joins j h = s.applied j h +
    ∑ k ∈ Finset.range (s.net j).addrList.length, s.attached j k h
  entries : ∀ j k h, s.attached j k h = s.detached j k h +
    if Solicits (s.entryAt j k) h then 1 else 0

theorem Exact.counted (hx : Exact physical s) : Counted physical s where
  present j h := by
    rw [mem_groups_iff, hx.books.balance]
    omega
  nodup := hx.books.linked.nodup
  ipv4Count j e he hpos := by
    have hn := (List.nodup_append.mp (hx.books.linked.nodup j)).1.of_map
    rw [hx.books.balance, refCount_eq hn he hpos]
    rfl
  ipv6Count j e he hpos := by
    have hn := (List.nodup_append.mp (hx.books.linked.nodup j)).2.1.of_map
    rw [hx.books.balance, refCount_eq hn he hpos]
    rfl
  macPresent j m := by rw [mem_members_iff, hx.books.linked.macs]
  macCount j e he hpos := by
    rw [refCount_eq (hx.books.linked.macNodup j) he hpos, hx.books.linked.macs]
  holders := hx.holders
  entries := hx.entries

/-- Joins that fail leave all the filters as they are: those of the application, and the ones that
stand for an address that is set. -/
structure FailsClean (physical : ι) (s : State ι) : Prop where
  ipv4 : ∀ j addr, Fits physical s (.ipv4JoinMulticastGroup j addr) →
    (ipv4JoinMulticastGroup physical j addr s.net).1 ≠ .NO_ERROR →
    (ipv4JoinMulticastGroup physical j addr s.net).2 = s.net
  ipv6 : ∀ j addr, Fits physical s (.ipv6JoinMulticastGroup j addr) →
    (ipv6JoinMulticastGroup physical j addr s.net).1 ≠ .NO_ERROR →
    (ipv6JoinMulticastGroup physical j addr s.net).2 = s.net
  setAddr : ∀ j index addr, Room physical j (.ipv6 addr) (s.detach physical j index).net →
    (ipv6JoinMulticastGroup physical j addr (s.detach physical j index).net).1 ≠ .NO_ERROR →
    (ipv6JoinMulticastGroup physical j addr (s.detach physical j index).net).2 =
      (s.detach physical j index).net

theorem Exact.failsClean (hx : Exact physical s) : FailsClean physical s where
  ipv4 _ _ hr he := join_error hr hx.books.linked.clean he
  ipv6 _ _ hr he := join_error hr hx.books.linked.clean he
  setAddr _ index _ hr he :=
    join_error hr (detach_spec hx.books index).books.linked.clean he

/-- In a run in which no counter is counted beyond its largest number. -/
theorem reference_counts {s₀ : State ι} (h0 : Empty s₀)
    (h : Run.Reach (step physical) (Fits physical) s₀ s) :
    Counted physical s ∧ FailsClean physical s := by
  have hx : Exact physical s := h.inv h0.exact exact_step
  exact ⟨hx.counted, hx.failsClean⟩

end Runs

/-! ## A virtual interface, and one group that is joined too often -/

instance {ι : Type} [DecidableEq ι] [Fintype ι] (physical i : ι) (g : Group)
    (net : ι → McastInterface) : Decidable (Room physical i g net) :=
  inferInstanceAs (Decidable (_ → _ ∧ (_ → ∀ j, j = i ∨ j = physical → _)))

/-- Two interfaces with tables of two entries; `false` is the physical one. -/
def twoInterfaces : State Bool where
  net _ := ⟨[⟨MAC_UNSPECIFIED_ADDR, 0⟩, ⟨MAC_UNSPECIFIED_ADDR, 0⟩],
    [⟨IPV4_UNSPECIFIED_ADDR, 0⟩, ⟨IPV4_UNSPECIFIED_ADDR, 0⟩],
    [⟨IPV6_UNSPECIFIED_ADDR, 0⟩, ⟨IPV6_UNSPECIFIED_ADDR, 0⟩], [{}, {}]⟩

theorem twoInterfaces_empty : Empty twoInterfaces where
  macAddrFilter _ e he := by simpa [twoInterfaces] using he
  ipv4Filter _ e he := by simpa [twoInterfaces] using he
  ipv6Filter _ e he := by simpa [twoInterfaces] using he
  addrList _ e he := .inr (by simp [twoInterfaces] at he; rw [he])
  joins _ _ := rfl
  leaves _ _ := rfl
  applied _ _ := rfl
  attached _ _ _ := rfl
  detached _ _ _ := rfl

def setLinkLocal : Call Bool :=
  .ipv6SetAddr ⟨0, fun _ => 0, fun _ => 0, fun _ => true⟩ true 0
    0xFE800000000000000000000000000001 .PREFERRED 0 0 true

def joinMdns : Call Bool := .ipv4JoinMulticastGroup true 0xE00000FB

theorem reference_counts_two :
    Counted false (step false (step false twoInterfaces setLinkLocal) joinMdns) ∧
      FailsClean false (step false (step false twoInterfaces setLinkLocal) joinMdns) :=
  reference_counts twoInterfaces_empty
    ((Run.Reach.init.step (by intro _ _ _ _; decide +kernel)).step
      (show Room _ _ _ _ by decide +kernel))

/-- One interface, and one entry in each table. -/
def oneInterface : State Unit where
  net _ := ⟨[⟨MAC_UNSPECIFIED_ADDR, 0⟩], [⟨IPV4_UNSPECIFIED_ADDR, 0⟩],
    [⟨IPV6_UNSPECIFIED_ADDR, 0⟩], []⟩

theorem oneInterface_empty : Empty oneInterface where
  macAddrFilter _ e he := by simpa [oneInterface] using he
  ipv4Filter _ e he := by simpa [oneInterface] using he
  ipv6Filter _ e he := by simpa [oneInterface] using he
  addrList _ _ he := by cases he
  joins _ _ := rfl
  leaves _ _ := rfl
  applied _ _ := rfl
  attached _ _ _ := rfl
  detached _ _ _ := rfl

/-- The group all the joins are for. -/
def allHosts : Ipv4Addr := 0xE0000001

/-- After `n` joins of a group and no leave. -/
def JoinedTimes (n count : Nat) (s : State Unit) : Prop :=
  Run.Reach (step ()) (fun _ _ => True) oneInterface s ∧
    (s.net ()).ipv4Filter = [⟨allHosts, count⟩] ∧ (s.net ()).ipv6Filter = [⟨0, 0⟩] ∧
    s.joins () (.ipv4 allHosts) = n ∧ s.leaves () (.ipv4 allHosts) = 0

theorem joinedTimes_one :
    JoinedTimes 1 1 (step () oneInterface (.ipv4JoinMulticastGroup () allHosts)) :=
  ⟨Run.Reach.init.step trivial, by decide +kernel, by decide +kernel, by decide +kernel,
    by decide +kernel⟩

theorem joinedTimes_succ {n count : Nat} {s : State Unit} (h : JoinedTimes n count s)
    (hc : 0 < count) : JoinedTimes (n + 1) ((count + 1) % COUNT_MODULUS)
      (step () s (.ipv4JoinMulticastGroup () allHosts)) := by
  obtain ⟨hr, h4, h6, hj, hl⟩ := h
  have hbump : bumpGroup (s.net ()) (.ipv4 allHosts) =
      some { s.net () with ipv4Filter := [⟨allHosts, (count + 1) % COUNT_MODULUS⟩] } := by
    rw [bumpGroup, h4, bump, if_pos ⟨hc, rfl⟩]
    rfl
  have hjoin : joinMulticastGroup () () (.ipv4 allHosts) s.net = (.NO_ERROR,
      Function.update s.net ()
        { s.net () with ipv4Filter := [⟨allHosts, (count + 1) % COUNT_MODULUS⟩] }) := by
    rw [joinMulticastGroup, if_neg (by decide), hbump]
  refine ⟨hr.step trivial, ?_, ?_, ?_, hl⟩
  · show ((joinMulticastGroup () () (.ipv4 allHosts) s.net).2 ()).ipv4Filter = _
    rw [hjoin]
    rfl
  · show ((joinMulticastGroup () () (.ipv4 allHosts) s.net).2 ()).ipv6Filter = _
    rw [hjoin]
    exact h6
  · show record (joinMulticastGroup () () (.ipv4 allHosts) s.net).1 () (.ipv4 allHosts) s.joins ()
      (.ipv4 allHosts) = n + 1
    rw [hjoin, record, hj, if_pos ⟨rfl, rfl, rfl⟩]

theorem joinedTimes (n : Nat) (hn : n + 1 < COUNT_MODULUS) :
    ∃ s, JoinedTimes (n + 1) (n + 1) s := by
  induction n with
  | zero => exact ⟨_, joinedTimes_one⟩
  | succ n ih =>
    obtain ⟨s, hs⟩ := ih (by omega)
    have hnext := joinedTimes_succ hs (Nat.succ_pos n)
    rw [Nat.mod_eq_of_lt hn] at hnext
    exact ⟨_, hnext⟩

/-- With one join more than the counter can count the group is gone, and none was left. -/
theorem reference_counts_wrapped :
    ∃ s, Run.Reach (step ()) (fun _ _ => True) oneInterface s ∧ Empty oneInterface ∧
      s.joins () (.ipv4 allHosts) = 2 ^ 32 ∧ s.leaves () (.ipv4 allHosts) = 0 ∧
      groups (s.net ()) = [] ∧ ¬Counted () s := by
  obtain ⟨s, hs⟩ := joinedTimes (2 ^ 32 - 2) (by decide)
  obtain ⟨hr, h4, h6, hj, hl⟩ := joinedTimes_succ hs (Nat.succ_pos _)
  have hgroups : groups ((step () s (.ipv4JoinMulticastGroup () allHosts)).net ()) = [] := by
    rw [groups, h4, h6]
    rfl
  refine ⟨_, hr, oneInterface_empty, hj, hl, hgroups, fun hc => ?_⟩
  have hmem := (hc.present () (.ipv4 allHosts)).mpr (by rw [hj, hl]; exact Nat.succ_pos _)
  rw [hgroups] at hmem
  exact List.not_mem_nil hmem

end Multicast
end Cyclone
