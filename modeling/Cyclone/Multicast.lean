import Cyclone.Arp
import Cyclone.Ipv6Addrs
import Cyclone.Lib.RefTable

/-!
# Cyclone.Multicast

The multicast groups of the interfaces that share one Ethernet port (`ipv4.c`, `ipv6.c`,
`ethernet.c`, `ipv6_misc.c`). Every interface has a filter of groups for each protocol and a filter
of MAC addresses; a group that is new to a filter has its MAC address accepted on the interface and
on the physical one.

* `joinMulticastGroup`, `leaveMulticastGroup`, `ipv6SetAddr`: the calls, over all the interfaces.
* `Joined`: what a successful join changes; a successful leave changes it back, and a join that
  fails changes nothing.
* `Linked`: the counters of the MAC addresses are the groups that map to them.
-/

namespace Cyclone
namespace Multicast

open RefTable Serial

/-! ## The code -/

inductive McastError
  | NO_ERROR | FAILURE | INVALID_ADDRESS | ADDRESS_NOT_FOUND | OUT_OF_RANGE
  deriving DecidableEq, Repr

/-- A group of either protocol. -/
inductive Group
  | ipv4 (addr : Ipv4Addr)
  | ipv6 (addr : Ipv6Addr)
  deriving DecidableEq, Repr

/-- What the functions below use of an interface. -/
structure McastInterface where
  macAddrFilter : List (Slot MacAddr)
  ipv4Filter : List (Slot Ipv4Addr)
  ipv6Filter : List (Slot Ipv6Addr)
  addrList : List Ipv6AddrEntry
  deriving DecidableEq, Repr

/-- `refCount` is a `uint_t`. -/
def COUNT_MODULUS : Nat := 2 ^ 32

/-- The low 23 bits after 01-00-5E; the group is one. -/
def ipv4MapMulticastAddrToMac (ipAddr : Ipv4Addr) : MacAddr :=
  0x01005E000000 ||| (ipAddr &&& 0x7FFFFF).setWidth 48

/-- The low 32 bits after 33-33; the group is one. -/
def ipv6MapMulticastAddrToMac (ipAddr : Ipv6Addr) : MacAddr :=
  0x333300000000 ||| (ipAddr &&& 0xFFFFFFFF).setWidth 48

/-- The low 24 bits after FF02::1:FF; the address is unicast. -/
def ipv6ComputeSolicitedNodeAddr (ipAddr : Ipv6Addr) : Ipv6Addr :=
  0xFF0200000000000000000001FF000000 ||| (ipAddr &&& 0xFFFFFF)

def Group.isMulticast : Group → Bool
  | .ipv4 addr => ipv4IsMulticastAddr addr
  | .ipv6 addr => ipv6IsMulticastAddr addr

def Group.mac : Group → MacAddr
  | .ipv4 addr => ipv4MapMulticastAddrToMac addr
  | .ipv6 addr => ipv6MapMulticastAddrToMac addr

def McastInterface.setEntry (n : McastInterface) (index : Nat) (f : Ipv6AddrEntry → Ipv6AddrEntry) :
    McastInterface := { n with addrList := n.addrList.modify index f }

/-- A reference more to a group of the filter. -/
def bumpGroup (n : McastInterface) : Group → Option McastInterface
  | .ipv4 addr => (bump COUNT_MODULUS addr n.ipv4Filter).map fun t => { n with ipv4Filter := t }
  | .ipv6 addr => (bump COUNT_MODULUS addr n.ipv6Filter).map fun t => { n with ipv6Filter := t }

/-- `firstFreeEntry != NULL` -/
def hasFreeEntry (n : McastInterface) : Group → Bool
  | .ipv4 _ => decide (Free n.ipv4Filter)
  | .ipv6 _ => decide (Free n.ipv6Filter)

def fillGroup (n : McastInterface) : Group → McastInterface
  | .ipv4 addr => { n with ipv4Filter := fill addr n.ipv4Filter }
  | .ipv6 addr => { n with ipv6Filter := fill addr n.ipv6Filter }

/-- A reference less, and whether it was the last one. -/
def dropGroup (n : McastInterface) : Group → Option (Bool × McastInterface)
  | .ipv4 addr =>
    (drop IPV4_UNSPECIFIED_ADDR addr n.ipv4Filter).map fun r => (r.1, { n with ipv4Filter := r.2 })
  | .ipv6 addr =>
    (drop IPV6_UNSPECIFIED_ADDR addr n.ipv6Filter).map fun r => (r.1, { n with ipv6Filter := r.2 })

def ethAcceptMacAddr (mac : MacAddr) (n : McastInterface) : McastError × McastInterface :=
  match bump COUNT_MODULUS mac n.macAddrFilter with
  | some t => (.NO_ERROR, { n with macAddrFilter := t })
  | none =>
    if Free n.macAddrFilter then
      (.NO_ERROR, { n with macAddrFilter := fill mac n.macAddrFilter })
    else (.FAILURE, n)

def ethDropMacAddr (mac : MacAddr) (n : McastInterface) : McastError × McastInterface :=
  match drop MAC_UNSPECIFIED_ADDR mac n.macAddrFilter with
  | some (_, t) => (.NO_ERROR, { n with macAddrFilter := t })
  | none => (.ADDRESS_NOT_FOUND, n)

section Calls

variable {ι : Type} [DecidableEq ι]

/-- A function of one interface. -/
def onInterface (i : ι) (f : McastInterface → McastError × McastInterface)
    (net : ι → McastInterface) : McastError × (ι → McastInterface) :=
  ((f (net i)).1, Function.update net i (f (net i)).2)

variable (physical : ι)

/-- The MAC address is accepted on the interface and on the physical one, or on neither. -/
def acceptMac (i : ι) (mac : MacAddr) (net : ι → McastInterface) :
    McastError × (ι → McastInterface) :=
  let r := onInterface i (ethAcceptMacAddr mac) net
  if r.1 = .NO_ERROR ∧ i ≠ physical then
    let r' := onInterface physical (ethAcceptMacAddr mac) r.2
    -- clean up side effects
    if r'.1 = .NO_ERROR then r' else (r'.1, (onInterface i (ethDropMacAddr mac) r'.2).2)
  else r

def dropMac (i : ι) (mac : MacAddr) (net : ι → McastInterface) : ι → McastInterface :=
  let net := (onInterface i (ethDropMacAddr mac) net).2
  if i ≠ physical then (onInterface physical (ethDropMacAddr mac) net).2 else net

/-- `ipv4JoinMulticastGroup` and `ipv6JoinMulticastGroup` differ in their addresses alone. -/
def joinMulticastGroup (i : ι) (g : Group) (net : ι → McastInterface) :
    McastError × (ι → McastInterface) :=
  if g.isMulticast = false then (.INVALID_ADDRESS, net)
  else
    match bumpGroup (net i) g with
    | some n => (.NO_ERROR, Function.update net i n)
    | none =>
      if hasFreeEntry (net i) g = false then (.FAILURE, net)
      else
        let r := acceptMac physical i g.mac net
        if r.1 = .NO_ERROR then (.NO_ERROR, Function.update r.2 i (fillGroup (r.2 i) g)) else r

def leaveMulticastGroup (i : ι) (g : Group) (net : ι → McastInterface) :
    McastError × (ι → McastInterface) :=
  if g.isMulticast = false then (.INVALID_ADDRESS, net)
  else
    match dropGroup (net i) g with
    | some (gone, n) =>
      let net := Function.update net i n
      (.NO_ERROR, if gone then dropMac physical i g.mac net else net)
    | none => (.ADDRESS_NOT_FOUND, net)

def ipv4JoinMulticastGroup (i : ι) (groupAddr : Ipv4Addr) :=
  joinMulticastGroup physical i (.ipv4 groupAddr)

def ipv6JoinMulticastGroup (i : ι) (groupAddr : Ipv6Addr) :=
  joinMulticastGroup physical i (.ipv6 groupAddr)

def ipv4LeaveMulticastGroup (i : ι) (groupAddr : Ipv4Addr) :=
  leaveMulticastGroup physical i (.ipv4 groupAddr)

def ipv6LeaveMulticastGroup (i : ι) (groupAddr : Ipv6Addr) :=
  leaveMulticastGroup physical i (.ipv6 groupAddr)

/-- The interfaces, and a record of the successful calls: all joins and leaves of a group, the
joins by the application, and the joins and leaves that stand for an address entry. -/
structure State (ι : Type) where
  net : ι → McastInterface
  joins : ι → Group → Nat := fun _ _ => 0
  leaves : ι → Group → Nat := fun _ _ => 0
  applied : ι → Group → Nat := fun _ _ => 0
  attached : ι → Nat → Group → Nat := fun _ _ _ => 0
  detached : ι → Nat → Group → Nat := fun _ _ _ => 0

/-- One more at `i` and `g` after a success. -/
def record (e : McastError) (i : ι) (g : Group) (count : ι → Group → Nat) : ι → Group → Nat :=
  fun j h => count j h + if e = .NO_ERROR ∧ j = i ∧ h = g then 1 else 0

/-- The same for entry `k`. -/
def recordEntry (e : McastError) (i : ι) (k : Nat) (g : Group) (count : ι → Nat → Group → Nat) :
    ι → Nat → Group → Nat :=
  fun j l h => count j l h + if e = .NO_ERROR ∧ j = i ∧ l = k ∧ h = g then 1 else 0

def State.join (i : ι) (g : Group) (s : State ι) : McastError × State ι :=
  let r := joinMulticastGroup physical i g s.net
  (r.1, { s with net := r.2, joins := record r.1 i g s.joins })

def State.leave (i : ι) (g : Group) (s : State ι) : McastError × State ι :=
  let r := leaveMulticastGroup physical i g s.net
  (r.1, { s with net := r.2, leaves := record r.1 i g s.leaves })

/-- A join by the application. -/
def State.apply (i : ι) (g : Group) (s : State ι) : McastError × State ι :=
  let r := s.join physical i g
  (r.1, { r.2 with applied := record r.1 i g s.applied })

def State.entryAt (s : State ι) (i : ι) (index : Nat) : Ipv6AddrEntry :=
  (s.net i).addrList.getD index {}

/-- An address that is neither unspecified nor invalid listens to its Solicited-Node group. -/
def Solicits (e : Ipv6AddrEntry) (g : Group) : Prop :=
  e.addr ≠ IPV6_UNSPECIFIED_ADDR ∧ e.state ≠ .INVALID ∧
    g = .ipv6 (ipv6ComputeSolicitedNodeAddr e.addr)

instance (e : Ipv6AddrEntry) (g : Group) : Decidable (Solicits e g) :=
  inferInstanceAs (Decidable (_ ∧ _ ∧ _))

/-- The group of the address that entry `index` holds is left. -/
def State.detach (i : ι) (index : Nat) (s : State ι) : State ι :=
  let g := Group.ipv6 (ipv6ComputeSolicitedNodeAddr (s.entryAt i index).addr)
  if Solicits (s.entryAt i index) g then
    { (s.leave physical i g).2 with detached := recordEntry .NO_ERROR i index g s.detached }
  else s

/-- The group of the new address is joined. -/
def State.attach (i : ι) (index : Nat) (addr : Ipv6Addr) (state : Ipv6AddrState) (s : State ι) :
    McastError × State ι :=
  let g := Group.ipv6 (ipv6ComputeSolicitedNodeAddr addr)
  if addr ≠ IPV6_UNSPECIFIED_ADDR ∧ state ≠ .INVALID then
    let r := s.join physical i g
    (r.1, { r.2 with attached := recordEntry r.1 i index g s.attached })
  else (.NO_ERROR, s)

def State.setEntry (i : ι) (index : Nat) (f : Ipv6AddrEntry → Ipv6AddrEntry) (s : State ι) :
    State ι :=
  { s with net := Function.update s.net i ((s.net i).setEntry index f) }

/-- The port is an Ethernet one. The group of an address is the one the entry is set with. -/
def ipv6SetAddr (w : Ipv6World) (i : ι) (index : Nat) (addr : Ipv6Addr) (state : Ipv6AddrState)
    (validLifetime preferredLifetime : Word) (permanent : Bool) (s : State ι) :
    McastError × State ι :=
  if (s.net i).addrList.length ≤ index then (.OUT_OF_RANGE, s)
  else if ipv6IsMulticastAddr addr then (.INVALID_ADDRESS, s)
  else
    let r := (s.detach physical i index).attach physical i index addr state
    (r.1, r.2.setEntry i index fun e =>
      e.setAddr { w with join := fun _ => r.1 == .NO_ERROR } index addr state validLifetime
        preferredLifetime permanent)

inductive Call (ι : Type)
  | ipv4JoinMulticastGroup (i : ι) (groupAddr : Ipv4Addr)
  | ipv4LeaveMulticastGroup (i : ι) (groupAddr : Ipv4Addr)
  | ipv6JoinMulticastGroup (i : ι) (groupAddr : Ipv6Addr)
  | ipv6LeaveMulticastGroup (i : ι) (groupAddr : Ipv6Addr)
  | ipv6SetAddr (w : Ipv6World) (i : ι) (index : Nat) (addr : Ipv6Addr) (state : Ipv6AddrState)
      (validLifetime preferredLifetime : Word) (permanent : Bool)

def exec (s : State ι) : Call ι → McastError × State ι
  | .ipv4JoinMulticastGroup i groupAddr => s.apply physical i (.ipv4 groupAddr)
  | .ipv4LeaveMulticastGroup i groupAddr => s.leave physical i (.ipv4 groupAddr)
  | .ipv6JoinMulticastGroup i groupAddr => s.apply physical i (.ipv6 groupAddr)
  | .ipv6LeaveMulticastGroup i groupAddr => s.leave physical i (.ipv6 groupAddr)
  | .ipv6SetAddr w i index addr state valid preferred permanent =>
    ipv6SetAddr physical w i index addr state valid preferred permanent s

def step (s : State ι) (c : Call ι) : State ι := (exec physical s c).2

end Calls

/-! ## One table -/

def groupRefs (n : McastInterface) : Group → Nat
  | .ipv4 addr => refs n.ipv4Filter addr
  | .ipv6 addr => refs n.ipv6Filter addr

/-- The groups in the filters of an interface. -/
def groups (n : McastInterface) : List Group :=
  (members n.ipv4Filter).map .ipv4 ++ (members n.ipv6Filter).map .ipv6

/-- A free entry holds the unspecified address. -/
structure CleanFilters (n : McastInterface) : Prop where
  mac : Clean MAC_UNSPECIFIED_ADDR n.macAddrFilter
  ipv4 : Clean IPV4_UNSPECIFIED_ADDR n.ipv4Filter
  ipv6 : Clean IPV6_UNSPECIFIED_ADDR n.ipv6Filter

/-- A reference to the group more, and nothing else. -/
structure GroupStep (g : Group) (n n' : McastInterface) : Prop where
  grows : Grows g (groupRefs n) (groupRefs n') (groups n) (groups n')
  mac : n'.macAddrFilter = n.macAddrFilter
  addrList : n'.addrList = n.addrList

structure MacStep (mac : MacAddr) (n n' : McastInterface) : Prop where
  adds : Adds mac n.macAddrFilter n'.macAddrFilter
  same : n' = { n with macAddrFilter := n'.macAddrFilter }

section Tables

variable {n n' : McastInterface} {g : Group} {mac : MacAddr} {gone : Bool}

theorem mem_groups_iff : g ∈ groups n ↔ 0 < groupRefs n g := by
  cases g <;> simp [groups, groupRefs, mem_members_iff]

theorem groupStep_ipv4 {addr : Ipv4Addr} {t : List (Slot Ipv4Addr)} (h : Adds addr n.ipv4Filter t) :
    GroupStep (.ipv4 addr) n { n with ipv4Filter := t } := by
  refine ⟨⟨fun b => ?_, ?_⟩, rfl, rfl⟩
  · cases b with
    | ipv4 b => simp [groupRefs, h.count b]
    | ipv6 b => simp [groupRefs]
  · rcases h.keys with ⟨hm, h⟩ | ⟨hn, h⟩
    · exact .inl ⟨by simpa [groups] using hm, by simp [groups, h]⟩
    · exact .inr ⟨by simpa [groups] using hn, (h.map Group.ipv4).append_right _⟩

theorem groupStep_ipv6 {addr : Ipv6Addr} {t : List (Slot Ipv6Addr)} (h : Adds addr n.ipv6Filter t) :
    GroupStep (.ipv6 addr) n { n with ipv6Filter := t } := by
  refine ⟨⟨fun b => ?_, ?_⟩, rfl, rfl⟩
  · cases b with
    | ipv4 b => simp [groupRefs]
    | ipv6 b => simp [groupRefs, h.count b]
  · rcases h.keys with ⟨hm, h⟩ | ⟨hn, h⟩
    · exact .inl ⟨by simpa [groups] using hm, by simp [groups, h]⟩
    · refine .inr ⟨by simpa [groups] using hn, ?_⟩
      exact ((h.map Group.ipv6).append_left _).trans List.perm_middle

theorem bumpGroup_eq_none : bumpGroup n g = none ↔ g ∉ groups n := by
  cases g <;> simp [bumpGroup, bump_eq_none, groups]

theorem bumpGroup_spec (h : bumpGroup n g = some n') (hr : groupRefs n g + 1 < COUNT_MODULUS) :
    GroupStep g n n' ∧ (CleanFilters n → CleanFilters n') := by
  cases g with
  | ipv4 addr =>
    rw [bumpGroup, Option.map_eq_some_iff] at h
    obtain ⟨t, ht, rfl⟩ := h
    obtain ⟨-, -, hclean, -⟩ := bump_some ht hr
    exact ⟨groupStep_ipv4 (bump_adds ht hr), fun hc => ⟨hc.mac, hclean _ hc.ipv4, hc.ipv6⟩⟩
  | ipv6 addr =>
    rw [bumpGroup, Option.map_eq_some_iff] at h
    obtain ⟨t, ht, rfl⟩ := h
    obtain ⟨-, -, hclean, -⟩ := bump_some ht hr
    exact ⟨groupStep_ipv6 (bump_adds ht hr), fun hc => ⟨hc.mac, hc.ipv4, hclean _ hc.ipv6⟩⟩

theorem fillGroup_spec (hf : hasFreeEntry n g = true) (hn : g ∉ groups n) :
    GroupStep g n (fillGroup n g) ∧ (CleanFilters n → CleanFilters (fillGroup n g)) := by
  cases g with
  | ipv4 addr =>
    have hf : Free n.ipv4Filter := of_decide_eq_true hf
    have hn : addr ∉ members n.ipv4Filter := by simpa [groups] using hn
    refine ⟨groupStep_ipv4 (fill_adds hf hn), fun hc => ⟨hc.mac, ?_, hc.ipv6⟩⟩
    exact ((fill_spec hf hn).2.2 _ hc.ipv4).1
  | ipv6 addr =>
    have hf : Free n.ipv6Filter := of_decide_eq_true hf
    have hn : addr ∉ members n.ipv6Filter := by simpa [groups] using hn
    refine ⟨groupStep_ipv6 (fill_adds hf hn), fun hc => ⟨hc.mac, hc.ipv4, ?_⟩⟩
    exact ((fill_spec hf hn).2.2 _ hc.ipv6).1

theorem dropGroup_eq_none : dropGroup n g = none ↔ g ∉ groups n := by
  cases g <;> simp [dropGroup, drop_eq_none, groups]

theorem dropGroup_spec (h : dropGroup n g = some (gone, n')) (hn : (groups n).Nodup) :
    GroupStep g n' n ∧ (gone = true ↔ g ∉ groups n') ∧ (CleanFilters n → CleanFilters n') := by
  rw [groups, List.nodup_append] at hn
  cases g with
  | ipv4 addr =>
    rw [dropGroup, Option.map_eq_some_iff] at h
    obtain ⟨⟨gone', t⟩, ht, he⟩ := h
    cases he
    have hn4 := hn.1.of_map
    refine ⟨groupStep_ipv4 (drop_adds ht hn4), ?_, fun hc => ⟨hc.mac, ?_, hc.ipv6⟩⟩
    · rw [drop_gone ht hn4]
      simp [groups]
    · exact (drop_some ht).2.2.2 hc.ipv4
  | ipv6 addr =>
    rw [dropGroup, Option.map_eq_some_iff] at h
    obtain ⟨⟨gone', t⟩, ht, he⟩ := h
    cases he
    have hn6 := hn.2.1.of_map
    refine ⟨groupStep_ipv6 (drop_adds ht hn6), ?_, fun hc => ⟨hc.mac, hc.ipv4, ?_⟩⟩
    · rw [drop_gone ht hn6]
      simp [groups]
    · exact (drop_some ht).2.2.2 hc.ipv6

theorem ethAcceptMacAddr_error (h : (ethAcceptMacAddr mac n).1 ≠ .NO_ERROR) :
    (ethAcceptMacAddr mac n).2 = n := by
  unfold ethAcceptMacAddr at h ⊢
  split at h
  · exact absurd rfl h
  · split_ifs at h ⊢
    · exact absurd rfl h
    · rfl

theorem ethAcceptMacAddr_spec (h : (ethAcceptMacAddr mac n).1 = .NO_ERROR)
    (hr : refs n.macAddrFilter mac + 1 < COUNT_MODULUS) :
    MacStep mac n (ethAcceptMacAddr mac n).2 ∧
      (CleanFilters n → CleanFilters (ethAcceptMacAddr mac n).2 ∧
        (ethDropMacAddr mac (ethAcceptMacAddr mac n).2).2 = n) := by
  unfold ethAcceptMacAddr at h ⊢
  split at h
  next t ht =>
    obtain ⟨-, -, hclean, hdrop⟩ := bump_some ht hr
    refine ⟨⟨bump_adds ht hr, rfl⟩, fun hc => ⟨⟨hclean _ hc.mac, hc.ipv4, hc.ipv6⟩, ?_⟩⟩
    rw [ethDropMacAddr]
    simp only [hdrop]
  next hnone =>
    have hn := bump_eq_none.mp hnone
    split_ifs at h ⊢ with hf
    have hfill := (fill_spec hf hn).2.2
    refine ⟨⟨fill_adds hf hn, rfl⟩, fun hc => ⟨⟨(hfill _ hc.mac).1, hc.ipv4, hc.ipv6⟩, ?_⟩⟩
    rw [ethDropMacAddr]
    simp only [(hfill _ hc.mac).2]

theorem ethDropMacAddr_spec (hm : mac ∈ members n.macAddrFilter)
    (hn : (members n.macAddrFilter).Nodup) :
    MacStep mac (ethDropMacAddr mac n).2 n ∧
      (CleanFilters n → CleanFilters (ethDropMacAddr mac n).2) := by
  unfold ethDropMacAddr
  split
  next t ht =>
    refine ⟨⟨drop_adds ht hn, rfl⟩, fun hc => ⟨?_, hc.ipv4, hc.ipv6⟩⟩
    exact (drop_some ht).2.2.2 hc.mac
  next hnone => exact absurd hm (drop_eq_none.mp hnone)

end Tables

/-! ## All the interfaces -/

section Nets

variable {ι : Type} [DecidableEq ι] {physical : ι} {i : ι} {mac : MacAddr} {g : Group}
  {net net' : ι → McastInterface}

/-- A reference to the MAC address more on the interface and on the physical one. -/
structure MacsStep (physical i : ι) (mac : MacAddr) (net net' : ι → McastInterface) : Prop where
  step : ∀ j, j = i ∨ j = physical → MacStep mac (net j) (net' j)
  other : ∀ j, ¬(j = i ∨ j = physical) → net' j = net j

/-- A group whose MAC address can be counted once more. -/
def MacRoom (physical i : ι) (mac : MacAddr) (net : ι → McastInterface) : Prop :=
  ∀ j, j = i ∨ j = physical → refs (net j).macAddrFilter mac + 1 < COUNT_MODULUS

@[simp] theorem onInterface_fst (f : McastInterface → McastError × McastInterface) :
    (onInterface i f net).1 = (f (net i)).1 := rfl

@[simp] theorem onInterface_snd (f : McastInterface → McastError × McastInterface) :
    (onInterface i f net).2 = Function.update net i (f (net i)).2 := rfl

theorem acceptMac_eq : acceptMac physical i mac net =
    if (ethAcceptMacAddr mac (net i)).1 = .NO_ERROR ∧ i ≠ physical then
      let net1 := Function.update net i (ethAcceptMacAddr mac (net i)).2
      let r := ethAcceptMacAddr mac (net1 physical)
      let net2 := Function.update net1 physical r.2
      if r.1 = .NO_ERROR then (r.1, net2)
      else (r.1, Function.update net2 i (ethDropMacAddr mac (net2 i)).2)
    else
      ((ethAcceptMacAddr mac (net i)).1, Function.update net i (ethAcceptMacAddr mac (net i)).2) :=
  rfl

theorem acceptMac_error (hr : MacRoom physical i mac net) (hc : ∀ j, CleanFilters (net j))
    (h : (acceptMac physical i mac net).1 ≠ .NO_ERROR) :
    (acceptMac physical i mac net).2 = net := by
  rw [acceptMac_eq] at h ⊢
  by_cases hi : (ethAcceptMacAddr mac (net i)).1 = .NO_ERROR ∧ i ≠ physical
  · rw [if_pos hi] at h ⊢
    dsimp only at h ⊢
    rw [Function.update_of_ne hi.2.symm] at h ⊢
    by_cases hp : (ethAcceptMacAddr mac (net physical)).1 = .NO_ERROR
    · rw [if_pos hp] at h
      exact absurd hp h
    · -- the roll-back takes the entry out that was put in
      obtain ⟨-, hback⟩ := ethAcceptMacAddr_spec hi.1 (hr i (.inl rfl))
      rw [if_neg hp, ethAcceptMacAddr_error hp]
      dsimp only
      funext j
      by_cases hj : j = i
      · subst hj
        simp only [Function.update_self, Function.update_of_ne hi.2]
        exact (hback (hc j)).2
      · rw [Function.update_of_ne hj]
        by_cases hjp : j = physical
        · subst hjp
          rw [Function.update_self]
        · rw [Function.update_of_ne hjp, Function.update_of_ne hj]
  · rw [if_neg hi] at h ⊢
    have he : (ethAcceptMacAddr mac (net i)).1 ≠ .NO_ERROR := h
    show Function.update net i _ = net
    rw [ethAcceptMacAddr_error he, Function.update_eq_self]

theorem acceptMac_spec (hr : MacRoom physical i mac net)
    (h : (acceptMac physical i mac net).1 = .NO_ERROR) :
    MacsStep physical i mac net (acceptMac physical i mac net).2 ∧
      ∀ j, CleanFilters (net j) → CleanFilters ((acceptMac physical i mac net).2 j) := by
  rw [acceptMac_eq] at h ⊢
  by_cases hi : (ethAcceptMacAddr mac (net i)).1 = .NO_ERROR ∧ i ≠ physical
  · obtain ⟨hstep, hclean⟩ := ethAcceptMacAddr_spec hi.1 (hr i (.inl rfl))
    rw [if_pos hi] at h ⊢
    dsimp only at h ⊢
    rw [Function.update_of_ne hi.2.symm] at h ⊢
    have hp : (ethAcceptMacAddr mac (net physical)).1 = .NO_ERROR := by
      by_contra hp
      rw [if_neg hp] at h
      exact hp h
    obtain ⟨hstep', hclean'⟩ := ethAcceptMacAddr_spec hp (hr physical (.inr rfl))
    rw [if_pos hp]
    dsimp only
    refine ⟨⟨fun j hj => ?_, fun j hj => ?_⟩, fun j => ?_⟩
    · rcases hj with rfl | rfl
      · rw [Function.update_of_ne hi.2, Function.update_self]
        exact hstep
      · rw [Function.update_self]
        exact hstep'
    · rw [not_or] at hj
      rw [Function.update_of_ne hj.2, Function.update_of_ne hj.1]
    · by_cases hjp : j = physical
      · subst hjp
        rw [Function.update_self]
        exact fun hc => (hclean' hc).1
      · rw [Function.update_of_ne hjp]
        by_cases hj : j = i
        · subst hj
          rw [Function.update_self]
          exact fun hc => (hclean hc).1
        · rw [Function.update_of_ne hj]
          exact id
  · rw [if_neg hi] at h ⊢
    have he : (ethAcceptMacAddr mac (net i)).1 = .NO_ERROR := h
    have hip : i = physical := by
      by_contra hne
      exact hi ⟨he, hne⟩
    obtain ⟨hstep, hclean⟩ := ethAcceptMacAddr_spec he (hr i (.inl rfl))
    subst hip
    dsimp only
    refine ⟨⟨fun j hj => ?_, fun j hj => ?_⟩, fun j => ?_⟩
    · obtain rfl : j = i := by simpa using hj
      rw [Function.update_self]
      exact hstep
    · rw [not_or] at hj
      rw [Function.update_of_ne hj.1]
    · by_cases hj : j = i
      · subst hj
        rw [Function.update_self]
        exact fun hc => (hclean hc).1
      · rw [Function.update_of_ne hj]
        exact id

/-- A MAC address that is in both filters. -/
theorem dropMac_spec (hm : ∀ j, j = i ∨ j = physical → mac ∈ members (net j).macAddrFilter)
    (hn : ∀ j, (members (net j).macAddrFilter).Nodup) :
    MacsStep physical i mac (dropMac physical i mac net) net ∧
      ∀ j, CleanFilters (net j) → CleanFilters (dropMac physical i mac net j) := by
  obtain ⟨hi, hci⟩ := ethDropMacAddr_spec (hm i (.inl rfl)) (hn i)
  obtain ⟨hp, hcp⟩ := ethDropMacAddr_spec (hm physical (.inr rfl)) (hn physical)
  have hval : ∀ j, dropMac physical i mac net j =
      if j = i ∨ j = physical then (ethDropMacAddr mac (net j)).2 else net j := by
    intro j
    unfold dropMac
    simp only [onInterface_snd]
    by_cases hip : i = physical
    · subst hip
      rw [if_neg (not_not_intro rfl)]
      by_cases hj : j = i
      · subst hj
        rw [Function.update_self, if_pos (.inl rfl)]
      · rw [Function.update_of_ne hj, if_neg (not_or.mpr ⟨hj, hj⟩)]
    · rw [if_pos hip, Function.update_of_ne (Ne.symm hip)]
      by_cases hjp : j = physical
      · subst hjp
        rw [Function.update_self, if_pos (.inr rfl)]
      · rw [Function.update_of_ne hjp]
        by_cases hj : j = i
        · subst hj
          rw [Function.update_self, if_pos (.inl rfl)]
        · rw [Function.update_of_ne hj, if_neg (not_or.mpr ⟨hj, hjp⟩)]
  refine ⟨⟨fun j hj => ?_, fun j hj => ?_⟩, fun j hc => ?_⟩
  · rw [hval, if_pos hj]
    rcases hj with rfl | rfl
    · exact hi
    · exact hp
  · rw [hval, if_neg hj]
  · rw [hval]
    split_ifs with hj
    · rcases hj with rfl | rfl
      · exact hci hc
      · exact hcp hc
    · exact hc

/-- What a successful join changes. -/
structure Joined (physical i : ι) (g : Group) (net net' : ι → McastInterface) : Prop where
  group : Grows g (groupRefs (net i)) (groupRefs (net' i)) (groups (net i)) (groups (net' i))
  other : ∀ j, j ≠ i →
    (net' j).ipv4Filter = (net j).ipv4Filter ∧ (net' j).ipv6Filter = (net j).ipv6Filter
  addrList : ∀ j, (net' j).addrList = (net j).addrList
  mac : g ∉ groups (net i) → ∀ j, j = i ∨ j = physical →
    Adds g.mac (net j).macAddrFilter (net' j).macAddrFilter
  macSame : ∀ j, ¬(g ∉ groups (net i) ∧ (j = i ∨ j = physical)) →
    (net' j).macAddrFilter = (net j).macAddrFilter

/-- A group that was known. -/
theorem Joined.of_known {n : McastInterface} (h : GroupStep g (net i) n)
    (hm : g ∈ groups (net i)) : Joined physical i g net (Function.update net i n) := by
  refine ⟨?_, fun j hj => ?_, fun j => ?_, fun hn => absurd hm hn, fun j _ => ?_⟩
  · rw [Function.update_self]
    exact h.grows
  · rw [Function.update_of_ne hj]
    exact ⟨rfl, rfl⟩
  · by_cases hj : j = i
    · subst hj
      rw [Function.update_self, h.addrList]
    · rw [Function.update_of_ne hj]
  · by_cases hj : j = i
    · subst hj
      rw [Function.update_self, h.mac]
    · rw [Function.update_of_ne hj]

theorem MacStep.groups_eq {n n' : McastInterface} (h : MacStep mac n n') :
    groups n' = groups n ∧ groupRefs n' = groupRefs n ∧ n'.ipv4Filter = n.ipv4Filter ∧
      n'.ipv6Filter = n.ipv6Filter ∧ n'.addrList = n.addrList := by
  rw [h.same]
  refine ⟨rfl, ?_, rfl, rfl, rfl⟩
  funext g
  cases g <;> rfl

/-- A new group, after its MAC address. -/
theorem Joined.of_new {mid : ι → McastInterface} {n : McastInterface}
    (hmac : MacsStep physical i g.mac net mid) (h : GroupStep g (mid i) n)
    (hn : g ∉ groups (net i)) : Joined physical i g net (Function.update mid i n) := by
  obtain ⟨hgroups, hrefs, -, -, hlist⟩ := (hmac.step i (.inl rfl)).groups_eq
  refine ⟨?_, fun j hj => ?_, fun j => ?_, fun _ j hj => ?_, fun j hj => ?_⟩
  · rw [Function.update_self, ← hgroups, ← hrefs]
    exact h.grows
  · rw [Function.update_of_ne hj]
    by_cases hjp : j = physical
    · exact ⟨(hmac.step j (.inr hjp)).groups_eq.2.2.1, (hmac.step j (.inr hjp)).groups_eq.2.2.2.1⟩
    · rw [hmac.other j (not_or.mpr ⟨hj, hjp⟩)]
      exact ⟨rfl, rfl⟩
  · by_cases hj : j = i
    · subst hj
      rw [Function.update_self, h.addrList, hlist]
    · rw [Function.update_of_ne hj]
      by_cases hjp : j = physical
      · exact (hmac.step j (.inr hjp)).groups_eq.2.2.2.2
      · rw [hmac.other j (not_or.mpr ⟨hj, hjp⟩)]
  · have hadds := (hmac.step j hj).adds
    by_cases hji : j = i
    · subst hji
      rw [Function.update_self, h.mac]
      exact hadds
    · rw [Function.update_of_ne hji]
      exact hadds
  · have hj' : ¬(j = i ∨ j = physical) := fun hc => hj ⟨hn, hc⟩
    rw [Function.update_of_ne (not_or.mp hj').1, hmac.other j hj']

/-- The counters that a join of `g` counts up can take one more. -/
def Room (physical i : ι) (g : Group) (net : ι → McastInterface) : Prop :=
  g.isMulticast = true → groupRefs (net i) g + 1 < COUNT_MODULUS ∧
    (g ∉ groups (net i) → MacRoom physical i g.mac net)

theorem join_error (hr : Room physical i g net) (hc : ∀ j, CleanFilters (net j))
    (h : (joinMulticastGroup physical i g net).1 ≠ .NO_ERROR) :
    (joinMulticastGroup physical i g net).2 = net := by
  unfold joinMulticastGroup at h ⊢
  by_cases hg : g.isMulticast = false
  · rw [if_pos hg]
  · have hr := hr (by simpa using hg)
    rw [if_neg hg] at h ⊢
    cases hb : bumpGroup (net i) g with
    | some n =>
      rw [hb] at h
      exact absurd rfl h
    | none =>
      rw [hb] at h
      dsimp only at h ⊢
      have hmac := hr.2 (bumpGroup_eq_none.mp hb)
      split_ifs at h ⊢ with hfree hacc
      · rfl
      · exact absurd rfl h
      · exact acceptMac_error hmac hc hacc

theorem join_ok (hr : Room physical i g net)
    (h : (joinMulticastGroup physical i g net).1 = .NO_ERROR) :
    Joined physical i g net (joinMulticastGroup physical i g net).2 ∧
      ((∀ j, CleanFilters (net j)) →
        ∀ j, CleanFilters ((joinMulticastGroup physical i g net).2 j)) := by
  unfold joinMulticastGroup at h ⊢
  by_cases hg : g.isMulticast = false
  · rw [if_pos hg] at h
    cases h
  have hr := hr (by simpa using hg)
  rw [if_neg hg] at h ⊢
  cases hb : bumpGroup (net i) g with
  | some n =>
    have hm : g ∈ groups (net i) := by
      by_contra hc
      rw [bumpGroup_eq_none.mpr hc] at hb
      cases hb
    obtain ⟨hstep, hclean⟩ := bumpGroup_spec hb hr.1
    refine ⟨.of_known hstep hm, fun hc j => ?_⟩
    dsimp only
    by_cases hj : j = i
    · subst hj
      rw [Function.update_self]
      exact hclean (hc j)
    · rw [Function.update_of_ne hj]
      exact hc j
  | none =>
    have hn := bumpGroup_eq_none.mp hb
    rw [hb] at h
    dsimp only at h ⊢
    by_cases hfree : hasFreeEntry (net i) g = false
    · rw [if_pos hfree] at h
      cases h
    rw [if_neg hfree] at h ⊢
    by_cases hacc : (acceptMac physical i g.mac net).1 = .NO_ERROR
    · rw [if_pos hacc]
      obtain ⟨hmac, hclean⟩ := acceptMac_spec (hr.2 hn) hacc
      -- the filter of groups is still the one that was searched
      obtain ⟨hgroups, -, h4, h6, -⟩ := (hmac.step i (.inl rfl)).groups_eq
      have hfree' : hasFreeEntry ((acceptMac physical i g.mac net).2 i) g = true := by
        have he : hasFreeEntry ((acceptMac physical i g.mac net).2 i) g =
            hasFreeEntry (net i) g := by
          cases g <;> simp only [hasFreeEntry, h4, h6]
        rw [he]
        simpa using hfree
      obtain ⟨hstep, hfill⟩ := fillGroup_spec hfree' (by rw [hgroups]; exact hn)
      refine ⟨.of_new hmac hstep hn, fun hc j => ?_⟩
      dsimp only
      by_cases hj : j = i
      · subst hj
        rw [Function.update_self]
        exact hfill (hclean j (hc j))
      · rw [Function.update_of_ne hj]
        exact hclean j (hc j)
    · rw [if_neg hacc] at h
      exact absurd h hacc

/-! ## The load of a MAC address -/

/-- How many groups of an interface map to a MAC address. -/
def mapped (n : McastInterface) (mac : MacAddr) : Nat :=
  (groups n).countP fun g => decide (g.mac = mac)

/-- How many groups need a MAC address: its own ones, and those of all for the physical
interface. -/
def load [Fintype ι] (physical : ι) (net : ι → McastInterface) (i : ι) (mac : MacAddr) : Nat :=
  if i = physical then ∑ j, mapped (net j) mac else mapped (net i) mac

omit [DecidableEq ι] in
theorem groups_congr {n n' : McastInterface} (h4 : n'.ipv4Filter = n.ipv4Filter)
    (h6 : n'.ipv6Filter = n.ipv6Filter) : groups n' = groups n ∧ groupRefs n' = groupRefs n := by
  refine ⟨by rw [groups, groups, h4, h6], ?_⟩
  funext g
  cases g <;> simp only [groupRefs, h4, h6]

section Joined

variable (h : Joined physical i g net net')
include h

omit [DecidableEq ι] in
theorem Joined.groups_other {j : ι} (hj : j ≠ i) :
    groups (net' j) = groups (net j) ∧ groupRefs (net' j) = groupRefs (net j) :=
  groups_congr (h.other j hj).1 (h.other j hj).2

theorem Joined.groupRefs (j : ι) (k : Group) : Multicast.groupRefs (net' j) k =
    Multicast.groupRefs (net j) k + if j = i ∧ k = g then 1 else 0 := by
  by_cases hj : j = i
  · subst hj
    rw [h.group.count k]
    simp only [true_and]
  · rw [(h.groups_other hj).2, if_neg fun hc => hj hc.1, Nat.add_zero]

theorem Joined.nodup_iff (j : ι) : (groups (net' j)).Nodup ↔ (groups (net j)).Nodup := by
  by_cases hj : j = i
  · subst hj
    exact h.group.nodup_iff
  · rw [(h.groups_other hj).1]

theorem Joined.mac_nodup_iff (j : ι) :
    (members (net' j).macAddrFilter).Nodup ↔ (members (net j).macAddrFilter).Nodup := by
  by_cases hj : g ∉ groups (net i) ∧ (j = i ∨ j = physical)
  · exact (h.mac hj.1 j hj.2).nodup_iff
  · rw [h.macSame j hj]

theorem Joined.mapped (j : ι) (m : MacAddr) : Multicast.mapped (net' j) m =
    Multicast.mapped (net j) m + if j = i then
      if g ∉ groups (net i) ∧ g.mac = m then 1 else 0 else 0 := by
  by_cases hj : j = i
  · subst hj
    rw [Multicast.mapped, h.group.countP, if_pos rfl]
    simp only [decide_eq_true_eq]
    rfl
  · rw [Multicast.mapped, (h.groups_other hj).1, if_neg hj]
    rfl

theorem Joined.load [Fintype ι] (j : ι) (m : MacAddr) : Multicast.load physical net' j m =
    Multicast.load physical net j m +
      if (j = i ∨ j = physical) ∧ g ∉ groups (net i) ∧ g.mac = m then 1 else 0 := by
  unfold Multicast.load
  by_cases hp : j = physical
  · rw [if_pos hp, if_pos hp, Finset.sum_congr rfl fun k _ => h.mapped k m,
      Finset.sum_add_distrib, Finset.sum_ite_eq' Finset.univ i, if_pos (Finset.mem_univ i)]
    simp only [hp, or_true, true_and]
  · rw [if_neg hp, if_neg hp, h.mapped j m]
    by_cases hj : j = i
    · simp only [hj, if_true, true_or, true_and]
    · rw [if_neg hj, if_neg fun hc => hc.1.elim hj hp]

theorem Joined.macRefs (j : ι) (m : MacAddr) : refs (net' j).macAddrFilter m =
    refs (net j).macAddrFilter m +
      if (j = i ∨ j = physical) ∧ g ∉ groups (net i) ∧ g.mac = m then 1 else 0 := by
  by_cases hj : g ∉ groups (net i) ∧ (j = i ∨ j = physical)
  · rw [(h.mac hj.1 j hj.2).count m]
    simp only [hj.1, hj.2, true_and, not_false_eq_true, @eq_comm _ m]
  · rw [h.macSame j hj, if_neg fun hc => hj ⟨hc.2.1, hc.1⟩, Nat.add_zero]

/-- The counters of the MAC addresses follow the groups. -/
theorem Joined.macs_iff [Fintype ι] :
    (∀ j m, refs (net' j).macAddrFilter m = Multicast.load physical net' j m) ↔
      ∀ j m, refs (net j).macAddrFilter m = Multicast.load physical net j m := by
  constructor
  · intro hm j m
    have hj := hm j m
    rw [h.macRefs, h.load] at hj
    exact Nat.add_right_cancel hj
  · intro hm j m
    rw [h.macRefs, h.load, hm]

end Joined

/-- What the calls rely on between them. -/
structure Linked [Fintype ι] (physical : ι) (net : ι → McastInterface) : Prop where
  nodup : ∀ j, (groups (net j)).Nodup
  macNodup : ∀ j, (members (net j).macAddrFilter).Nodup
  macs : ∀ j m, refs (net j).macAddrFilter m = load physical net j m
  clean : ∀ j, CleanFilters (net j)

theorem Linked.mac_mem [Fintype ι] (hl : Linked physical net) (hg : g ∈ groups (net i)) (j : ι)
    (hj : j = i ∨ j = physical) : g.mac ∈ members (net j).macAddrFilter := by
  have hmapped : 0 < mapped (net i) g.mac :=
    List.countP_pos_iff.mpr ⟨g, hg, decide_eq_true rfl⟩
  rw [mem_members_iff, hl.macs, load]
  split_ifs with hp
  · exact hmapped.trans_le
      (Finset.single_le_sum (f := fun j => mapped (net j) g.mac) (fun _ _ => Nat.zero_le _)
        (Finset.mem_univ i))
  · rw [hj.resolve_right hp]
    exact hmapped

theorem leave_error (h : (leaveMulticastGroup physical i g net).1 ≠ .NO_ERROR) :
    (leaveMulticastGroup physical i g net).2 = net := by
  unfold leaveMulticastGroup at h ⊢
  by_cases hg : g.isMulticast = false
  · rw [if_pos hg]
  · rw [if_neg hg] at h ⊢
    cases hd : dropGroup (net i) g with
    | some r =>
      rw [hd] at h
      exact absurd rfl h
    | none => rfl

theorem leave_ok [Fintype ι] (hl : Linked physical net)
    (h : (leaveMulticastGroup physical i g net).1 = .NO_ERROR) :
    Joined physical i g (leaveMulticastGroup physical i g net).2 net ∧
      ∀ j, CleanFilters ((leaveMulticastGroup physical i g net).2 j) := by
  unfold leaveMulticastGroup at h ⊢
  by_cases hg : g.isMulticast = false
  · rw [if_pos hg] at h
    cases h
  rw [if_neg hg] at h ⊢
  cases hd : dropGroup (net i) g with
  | none =>
    rw [hd] at h
    cases h
  | some r =>
    obtain ⟨gone, n⟩ := r
    obtain ⟨hstep, hgone, hclean⟩ := dropGroup_spec hd (hl.nodup i)
    have hm : g ∈ groups (net i) := by
      by_contra hc
      rw [dropGroup_eq_none.mpr hc] at hd
      cases hd
    have hclean1 : ∀ j, CleanFilters (Function.update net i n j) := by
      intro j
      by_cases hj : j = i
      · subst hj
        rw [Function.update_self]
        exact hclean (hl.clean j)
      · rw [Function.update_of_ne hj]
        exact hl.clean j
    have hback : Function.update (Function.update net i n) i (net i) = net := by
      rw [Function.update_idem, Function.update_eq_self]
    have hmacs : ∀ j, (Function.update net i n j).macAddrFilter = (net j).macAddrFilter := by
      intro j
      by_cases hj : j = i
      · subst hj
        rw [Function.update_self, hstep.mac]
      · rw [Function.update_of_ne hj]
    have hstep' : GroupStep g (Function.update net i n i) (net i) := by
      rw [Function.update_self]
      exact hstep
    dsimp only
    cases gone with
    | false =>
      have hin : g ∈ groups (Function.update net i n i) := by
        rw [Function.update_self]
        by_contra hc
        cases hgone.mpr hc
      have hjoined := @Joined.of_known _ _ physical _ _ _ _ hstep' hin
      rw [hback] at hjoined
      exact ⟨hjoined, hclean1⟩
    | true =>
      have hmem : ∀ j, j = i ∨ j = physical →
          g.mac ∈ members (Function.update net i n j).macAddrFilter := by
        intro j hj
        rw [hmacs]
        exact hl.mac_mem hm j hj
      obtain ⟨hdrop, hcdrop⟩ := dropMac_spec hmem fun j => by
        rw [hmacs]
        exact hl.macNodup j
      have hout : g ∉ groups (dropMac physical i g.mac (Function.update net i n) i) := by
        rw [← (hdrop.step i (.inl rfl)).groups_eq.1, Function.update_self]
        exact hgone.mp rfl
      have hjoined := Joined.of_new hdrop hstep' hout
      rw [hback] at hjoined
      exact ⟨hjoined, fun j => hcdrop j (hclean1 j)⟩

/-- A join or a leave keeps the tables linked. -/
theorem Linked.join [Fintype ι] (hl : Linked physical net) (h : Joined physical i g net net')
    (hc : ∀ j, CleanFilters (net' j)) : Linked physical net' :=
  ⟨fun j => (h.nodup_iff j).mpr (hl.nodup j), fun j => (h.mac_nodup_iff j).mpr (hl.macNodup j),
    h.macs_iff.mpr hl.macs, hc⟩

theorem Linked.leave [Fintype ι] (hl : Linked physical net) (h : Joined physical i g net' net)
    (hc : ∀ j, CleanFilters (net' j)) : Linked physical net' :=
  ⟨fun j => (h.nodup_iff j).mp (hl.nodup j), fun j => (h.mac_nodup_iff j).mp (hl.macNodup j),
    h.macs_iff.mp hl.macs, hc⟩

end Nets

end Multicast
end Cyclone
