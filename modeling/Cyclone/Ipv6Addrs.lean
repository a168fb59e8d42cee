import Cyclone.Types
import Cyclone.Lib.Run

/-!
# Cyclone.Ipv6Addrs

The IPv6 address list of an interface, and what may change it: `ipv6SetAddr`, `ipv6AddAddr`,
`ipv6RemoveAddr`, `ipv6FlushAddrList` (`ipv6_misc.c`), `ndpUpdateAddrList` (`ndp_misc.c`),
`slaacStart`, `slaacParseRouterAdv` (`slaac.c`), `ipv6LinkChangeEvent` (`ipv6.c`) and the manual
assignment of an address.

* `permanent_survives`: a manually assigned address stays in place as long as no Prefix
  Information option touches it.
-/

namespace Cyclone

open Serial

def IPV6_ADDR_LIST_SIZE : Nat := 3
def NDP_INFINITE_LIFETIME : Word := BitVec.allOnes 32
def NDP_DUP_ADDR_DETECT_TRANSMITS : Nat := 1
def NDP_RETRANS_TIMER : Word := 1000
def MAX_DELAY : Word := 0x7FFFFFFF
def SLAAC_LIFETIME_2_HOURS : Word := 7200000
def IPV6_UNSPECIFIED_ADDR : Ipv6Addr := 0
def IPV6_LINK_LOCAL_ADDR_PREFIX : Ipv6Addr := 0xFE800000000000000000000000000000

inductive Ipv6AddrState
  | INVALID | TENTATIVE | PREFERRED | DEPRECATED
  deriving DecidableEq, Repr

structure Ipv6AddrEntry where
  addr : Ipv6Addr := 0
  state : Ipv6AddrState := .INVALID
  duplicate : Bool := false
  validLifetime : Word := 0
  preferredLifetime : Word := 0
  permanent : Bool := false
  timestamp : Word := 0
  dadTimeout : Word := 0
  dadRetransmitCount : Nat := 0
  deriving DecidableEq, Repr

/-- What the functions below use of an interface. -/
structure Ipv6Interface where
  addrList : List Ipv6AddrEntry := List.replicate IPV6_ADDR_LIST_SIZE {}
  linkState : Bool := false
  dupAddrDetectTransmits : Nat := NDP_DUP_ADDR_DETECT_TRANSMITS
  retransTimer : Word := NDP_RETRANS_TIMER
  eui64 : BitVec 64 := 0
  slaacRunning : Bool := false
  deriving DecidableEq, Repr

/-- The answers one call gets: the time, the times at which entries are assigned, random numbers,
and whether the multicast group of an entry could be joined. -/
structure Ipv6World where
  time : Word
  stamp : Nat → Word
  rand : Nat → Word
  join : Nat → Bool

structure NdpPrefixInfoOption where
  length : Nat := 4
  prefixLength : Nat := 64
  a : Bool := true
  validLifetime : Word
  preferredLifetime : Word
  pfx : Ipv6Addr
  deriving DecidableEq, Repr

/-! ## The code -/

def ipv6IsMulticastAddr (addr : Ipv6Addr) : Bool := addr >>> 120 == 0xFF

/-- `ipv6CompPrefix`, the addresses as numbers. -/
def ipv6CompPrefix (addr1 addr2 : Ipv6Addr) (length : Nat) : Bool :=
  if length > 128 then false else addr1 >>> (128 - length) == addr2 >>> (128 - length)

/-- `timeCompare(t1, t2) >= 0`. -/
def timeReached (t1 t2 : Word) : Bool := !(t1 - t2).msb

def Ipv6Interface.update (s : Ipv6Interface) (i : Nat) (f : Ipv6AddrEntry → Ipv6AddrEntry) :
    Ipv6Interface := { s with addrList := s.addrList.modify i f }

/-- What `ipv6SetAddr` makes of entry `i`. -/
def Ipv6AddrEntry.setAddr (w : Ipv6World) (i : Nat) (e : Ipv6AddrEntry) (addr : Ipv6Addr)
    (state : Ipv6AddrState) (validLifetime preferredLifetime : Word) (permanent : Bool) :
    Ipv6AddrEntry :=
  if ipv6IsMulticastAddr addr then e
  else
    let e := { e with state := .INVALID, validLifetime := 0, preferredLifetime := 0,
                      permanent := false, addr }
    if addr = IPV6_UNSPECIFIED_ADDR then e
    else
      -- a state other than INVALID needs the Solicited-Node group
      let e := if state = .INVALID ∨ w.join i then
          { e with state, duplicate := false, preferredLifetime, validLifetime,
                   timestamp := w.stamp i, dadTimeout := 0, dadRetransmitCount := 0 }
        else e
      { e with permanent }

def ipv6SetAddr (w : Ipv6World) (s : Ipv6Interface) (index : Nat) (addr : Ipv6Addr)
    (state : Ipv6AddrState) (validLifetime preferredLifetime : Word) (permanent : Bool) :
    Ipv6Interface :=
  s.update index fun e => e.setAddr w index addr state validLifetime preferredLifetime permanent

/-- Tentative when addresses are checked for duplicates, else usable at once. -/
def Ipv6Interface.newState (s : Ipv6Interface) : Ipv6AddrState :=
  if s.dupAddrDetectTransmits > 0 then .TENTATIVE else .PREFERRED

/-- A lifetime in seconds as a delay in milliseconds. -/
def lifetimeDelay (lifetime : Word) : Word :=
  if lifetime ≠ NDP_INFINITE_LIFETIME then
    if lifetime < MAX_DELAY / 1000 then lifetime * 1000 else MAX_DELAY
  else INFINITE_DELAY

/-- The indices of the list; the first entry is the link-local address. -/
def addrIndexes : List Nat := List.range IPV6_ADDR_LIST_SIZE

def globalIndexes : List Nat := addrIndexes.tail

def Ipv6Interface.entryAt (s : Ipv6Interface) (i : Nat) : Ipv6AddrEntry :=
  s.addrList.getD i {}

def Ipv6Interface.stateAt (s : Ipv6Interface) (i : Nat) : Ipv6AddrState := (s.entryAt i).state

def ipv6AddAddr (w : Ipv6World) (s : Ipv6Interface) (addr : Ipv6Addr)
    (validLifetime preferredLifetime : Word) : Ipv6Interface :=
  let valid := lifetimeDelay validLifetime
  let preferred := lifetimeDelay preferredLifetime
  match addrIndexes.find? fun i =>
      (s.stateAt i = .PREFERRED ∨ s.stateAt i = .DEPRECATED) ∧
        (s.entryAt i).addr = addr with
  | some i =>
    s.update i fun e =>
      if !e.permanent then
        { e with validLifetime := valid, preferredLifetime := preferred, timestamp := w.stamp i,
                 state := .PREFERRED }
      else e
  | none =>
    match addrIndexes.find? fun i =>
        s.stateAt i = .INVALID ∧ (s.entryAt i).permanent = false with
    | some i => ipv6SetAddr w s i addr s.newState valid preferred false
    | none => s

def ipv6RemoveAddr (w : Ipv6World) (s : Ipv6Interface) (addr : Ipv6Addr) : Ipv6Interface :=
  addrIndexes.foldl (fun s i => s.update i fun e =>
    if e.validLifetime ≠ 0 ∧ e.addr = addr ∧ !e.permanent then
      e.setAddr w i IPV6_UNSPECIFIED_ADDR .INVALID 0 0 false
    else e) s

def ipv6FlushAddrList (w : Ipv6World) (s : Ipv6Interface) : Ipv6Interface :=
  addrIndexes.foldl (fun s i => s.update i fun e =>
    if e.validLifetime ≠ 0 ∧ !e.permanent then
      e.setAddr w i IPV6_UNSPECIFIED_ADDR .INVALID 0 0 false
    else e) s

/-- One turn of the loop of `ndpUpdateAddrList`. -/
def ndpUpdateAddr (w : Ipv6World) (s : Ipv6Interface) (i : Nat) : Ipv6Interface :=
  s.update i fun e =>
    match e.state with
    | .INVALID => e
    | .TENTATIVE =>
      if !s.linkState then e
      else if e.dadRetransmitCount = 0 then
        let e := { e with timestamp := w.time }
        if s.dupAddrDetectTransmits > 0 then
          if i = 0 then { e with dadTimeout := w.rand i, dadRetransmitCount := 1 }
          else if s.stateAt 0 = .PREFERRED then { e with dadTimeout := 0, dadRetransmitCount := 1 }
          else e
        else { e with state := .PREFERRED }
      else if timeReached w.time (e.timestamp + e.dadTimeout) then
        if e.duplicate then
          if e.permanent then e.setAddr w i e.addr .INVALID 0 0 true
          else e.setAddr w i IPV6_UNSPECIFIED_ADDR .INVALID 0 0 false
        else if e.dadRetransmitCount ≤ s.dupAddrDetectTransmits then
          { e with dadTimeout := e.dadTimeout + s.retransTimer,
                   dadRetransmitCount := e.dadRetransmitCount + 1 }
        else { e with state := .PREFERRED }
      else e
    | .PREFERRED =>
      if e.preferredLifetime ≠ NDP_INFINITE_LIFETIME ∧
          timeReached w.time (e.timestamp + e.preferredLifetime) then
        { e with state := .DEPRECATED }
      else e
    | .DEPRECATED =>
      if e.validLifetime ≠ NDP_INFINITE_LIFETIME ∧
          timeReached w.time (e.timestamp + e.validLifetime) then
        e.setAddr w i IPV6_UNSPECIFIED_ADDR .INVALID 0 0 false
      else e

def ndpUpdateAddrList (w : Ipv6World) (s : Ipv6Interface) : Ipv6Interface :=
  addrIndexes.foldl (ndpUpdateAddr w) s

/-- The checks of `slaacParsePrefixInfoOption`. -/
def NdpPrefixInfoOption.accepted (o : NdpPrefixInfoOption) : Bool :=
  o.length = 4 ∧ o.a ∧ !ipv6CompPrefix o.pfx IPV6_LINK_LOCAL_ADDR_PREFIX 10 ∧
    o.validLifetime ≠ 0 ∧ o.preferredLifetime ≤ o.validLifetime ∧ o.prefixLength = 64

/-- The lifetimes of an address whose prefix is advertised again. -/
def slaacRefresh (w : Ipv6World) (o : NdpPrefixInfoOption) (e : Ipv6AddrEntry) : Ipv6AddrEntry :=
  let valid := lifetimeDelay o.validLifetime
  let e := { e with preferredLifetime := lifetimeDelay o.preferredLifetime }
  let remaining := if timeReached w.time (e.timestamp + e.validLifetime) then 0
    else e.timestamp + e.validLifetime - w.time
  if valid > SLAAC_LIFETIME_2_HOURS ∨ valid > remaining then
    { e with validLifetime := valid, timestamp := w.time, state := .PREFERRED }
  else if remaining ≤ SLAAC_LIFETIME_2_HOURS then e
  else { e with validLifetime := SLAAC_LIFETIME_2_HOURS, timestamp := w.time, state := .PREFERRED }

/-- One turn of the first loop: the interface and the flag `found`. -/
def slaacMatch (w : Ipv6World) (o : NdpPrefixInfoOption) (r : Ipv6Interface × Bool) (i : Nat) :
    Ipv6Interface × Bool :=
  if ipv6CompPrefix (r.1.entryAt i).addr o.pfx o.prefixLength then
    if r.1.stateAt i = .PREFERRED ∨ r.1.stateAt i = .DEPRECATED then
      (r.1.update i (slaacRefresh w o), true)
    else if r.1.stateAt i = .TENTATIVE then (r.1, true)
    else r
  else r

def slaacParsePrefixInfoOption (w : Ipv6World) (s : Ipv6Interface) (o : NdpPrefixInfoOption) :
    Ipv6Interface :=
  if !o.accepted then s
  else
    let addr : Ipv6Addr := o.pfx >>> 64 <<< 64 ||| s.eui64.setWidth 128
    match globalIndexes.foldl (slaacMatch w o) (s, false) with
    | (s, true) => s
    | (s, false) =>
      match globalIndexes.find? fun i => s.stateAt i = .INVALID with
      | some i => ipv6SetAddr w s i addr s.newState (lifetimeDelay o.validLifetime)
          (lifetimeDelay o.preferredLifetime) false
      | none => s

/-- `slaacParseRouterAdv` on the Prefix Information options of the message. -/
def slaacParseRouterAdv (w : Ipv6World) (s : Ipv6Interface) (options : List NdpPrefixInfoOption) :
    Ipv6Interface :=
  if !s.slaacRunning ∨ s.stateAt 0 ≠ .PREFERRED then s
  else options.foldl (slaacParsePrefixInfoOption w) s

def slaacGenerateLinkLocalAddr (w : Ipv6World) (s : Ipv6Interface) : Ipv6Interface :=
  if s.stateAt 0 ≠ .INVALID ∧ (s.entryAt 0).permanent then s
  else ipv6SetAddr w s 0 (IPV6_LINK_LOCAL_ADDR_PREFIX ||| s.eui64.setWidth 128) s.newState
    NDP_INFINITE_LIFETIME NDP_INFINITE_LIFETIME false

def slaacStart (w : Ipv6World) (s : Ipv6Interface) : Ipv6Interface :=
  let s := ipv6FlushAddrList w s
  let s := if s.linkState then slaacGenerateLinkLocalAddr w s else s
  { s with slaacRunning := true }

/-- `ipv6LinkChangeEvent`, with the new link state and the defaults `ndpLinkChangeEvent`
restores. -/
def ipv6LinkChangeEvent (w : Ipv6World) (s : Ipv6Interface) (linkState : Bool) : Ipv6Interface :=
  let s := ipv6FlushAddrList w { s with linkState }
  let s := { s with retransTimer := NDP_RETRANS_TIMER,
                    dupAddrDetectTransmits := NDP_DUP_ADDR_DETECT_TRANSMITS }
  let s := if s.slaacRunning ∧ s.linkState then slaacGenerateLinkLocalAddr w s else s
  addrIndexes.foldl (fun s i => s.update i fun e =>
    if e.permanent then
      e.setAddr w i e.addr s.newState NDP_INFINITE_LIFETIME NDP_INFINITE_LIFETIME true
    else e) s

/-- `ipv6SetLinkLocalAddr` (index 0) and `ipv6SetGlobalAddr`. -/
def ipv6AssignAddr (w : Ipv6World) (s : Ipv6Interface) (index : Nat) (addr : Ipv6Addr) :
    Ipv6Interface :=
  ipv6SetAddr w s index addr s.newState NDP_INFINITE_LIFETIME NDP_INFINITE_LIFETIME true

/-! ## Runs -/

inductive Ipv6Act
  | routerAdv (options : List NdpPrefixInfoOption)
  | slaacStart
  | addAddr (addr : Ipv6Addr) (validLifetime preferredLifetime : Word)
  | removeAddr (addr : Ipv6Addr)
  | timer
  | linkChange (linkState : Bool)
  /-- A neighbor reports that the address of an entry is in use. -/
  | duplicate (index : Nat)
  | assign (index : Nat) (addr : Ipv6Addr)

def Ipv6Act.run (s : Ipv6Interface) (a : Ipv6World × Ipv6Act) : Ipv6Interface :=
  match a.2 with
  | .routerAdv options => slaacParseRouterAdv a.1 s options
  | .slaacStart => Cyclone.slaacStart a.1 s
  | .addAddr addr valid preferred => ipv6AddAddr a.1 s addr valid preferred
  | .removeAddr addr => ipv6RemoveAddr a.1 s addr
  | .timer => ndpUpdateAddrList a.1 s
  | .linkChange linkState => ipv6LinkChangeEvent a.1 s linkState
  | .duplicate index => s.update index fun e => { e with duplicate := true }
  | .assign index addr => ipv6AssignAddr a.1 s index addr

/-! ## Manually assigned addresses -/

/-- What holds of an address that was assigned by hand. -/
structure Ipv6AddrEntry.Manual (e : Ipv6AddrEntry) : Prop where
  assigned : e.addr ≠ IPV6_UNSPECIFIED_ADDR
  current : e.state ≠ .DEPRECATED
  lasting : e.state = .INVALID ∨ e.preferredLifetime = NDP_INFINITE_LIFETIME

/-- What a call may make of an entry. A permanent one keeps its place, and its state as well if
the link does not change. -/
structure EntryKept (steady : Prop) (e e' : Ipv6AddrEntry) : Prop where
  permanent : e'.permanent = true → e.permanent = true
  kept : e.permanent = true → e.Manual →
    e'.permanent = true ∧ e'.addr = e.addr ∧ e'.Manual ∧
      (steady → e.state = .PREFERRED → e'.state = .PREFERRED)

variable {steady : Prop} {e e' : Ipv6AddrEntry} {s s' : Ipv6Interface} {w : Ipv6World}

theorem EntryKept.refl (e : Ipv6AddrEntry) : EntryKept steady e e :=
  ⟨fun h => h, fun h hm => ⟨h, rfl, hm, fun _ h => h⟩⟩

theorem EntryKept.trans {e'' : Ipv6AddrEntry} (h : EntryKept steady e e')
    (h' : EntryKept steady e' e'') : EntryKept steady e e'' := by
  refine ⟨fun hp => h.permanent (h'.permanent hp), fun hp hm => ?_⟩
  obtain ⟨h1, h2, h3, h4⟩ := h.kept hp hm
  obtain ⟨h5, h6, h7, h8⟩ := h'.kept h1 h3
  exact ⟨h5, h6.trans h2, h7, fun hs he => h8 hs (h4 hs he)⟩

/-- An entry that is not permanent may become anything that is not permanent. -/
theorem EntryKept.free (h : e.permanent = false) (h' : e'.permanent = false) :
    EntryKept steady e e' := by
  refine ⟨fun hp => ?_, fun hp => ?_⟩
  · rw [h'] at hp; cases hp
  · rw [h] at hp; cases hp

theorem setAddr_free {e : Ipv6AddrEntry} (h : e.permanent = false) (w : Ipv6World) (i : Nat)
    (addr : Ipv6Addr) (state : Ipv6AddrState) (valid preferred : Word) :
    (e.setAddr w i addr state valid preferred false).permanent = false := by
  unfold Ipv6AddrEntry.setAddr
  split
  · exact h
  · simp only
    split <;> rfl

/-- A permanent address that is set again. -/
theorem setAddr_manual (hm : e.Manual) (hp : e.permanent = true) (w : Ipv6World) (i : Nat)
    {state : Ipv6AddrState} (hs : state ≠ .DEPRECATED) (valid : Word) {preferred : Word}
    (hl : state = .INVALID ∨ preferred = NDP_INFINITE_LIFETIME) :
    EntryKept False e (e.setAddr w i e.addr state valid preferred true) := by
  refine ⟨fun _ => hp, fun _ _ => ?_⟩
  unfold Ipv6AddrEntry.setAddr
  split
  · exact ⟨hp, rfl, hm, False.elim⟩
  · rw [if_neg hm.assigned]
    split
    · exact ⟨rfl, rfl, ⟨hm.assigned, hs, hl⟩, False.elim⟩
    · exact ⟨rfl, rfl, ⟨hm.assigned, by simp, .inl rfl⟩, False.elim⟩

/-- Every entry of one list against the one at its place in the other. -/
def Kept (steady : Prop) (s s' : Ipv6Interface) : Prop :=
  ∀ i, EntryKept steady (s.entryAt i) (s'.entryAt i)

theorem Kept.refl (s : Ipv6Interface) : Kept steady s s := fun _ => .refl _

theorem Kept.trans {s'' : Ipv6Interface} (h : Kept steady s s') (h' : Kept steady s' s'') :
    Kept steady s s'' := fun i => (h i).trans (h' i)

theorem entryAt_update (s : Ipv6Interface) (i j : Nat) (f : Ipv6AddrEntry → Ipv6AddrEntry) :
    (s.update i f).entryAt j =
      if i = j ∧ j < s.addrList.length then f (s.entryAt j) else s.entryAt j := by
  simp only [Ipv6Interface.update, Ipv6Interface.entryAt, List.getD_eq_getElem?_getD,
    List.getElem?_modify]
  by_cases hj : j < s.addrList.length
  · rw [List.getElem?_eq_getElem hj]
    by_cases hi : i = j <;> simp [hi, hj]
  · rw [List.getElem?_eq_none (by omega)]
    simp [hj]

theorem kept_update {i : Nat} {f : Ipv6AddrEntry → Ipv6AddrEntry}
    (h : EntryKept steady (s.entryAt i) (f (s.entryAt i))) : Kept steady s (s.update i f) := by
  intro j
  rw [entryAt_update]
  split
  · rename_i hj
    rw [← hj.1]; exact h
  · exact .refl _

theorem kept_foldl {body : Ipv6Interface → Nat → Ipv6Interface} (is : List Nat)
    (h : ∀ s i, Kept steady s (body s i)) (s : Ipv6Interface) : Kept steady s (is.foldl body s) := by
  induction is generalizing s with
  | nil => exact .refl s
  | cons i is ih => exact (h s i).trans (ih (body s i))

/-! ## Calls -/

theorem EntryKept.settle (h : EntryKept False e e') (hs : e.state ≠ .PREFERRED) :
    EntryKept steady e e' := by
  refine ⟨h.permanent, fun hp hm => ?_⟩
  obtain ⟨h1, h2, h3, -⟩ := h.kept hp hm
  exact ⟨h1, h2, h3, fun _ he => absurd he hs⟩

theorem kept_ipv6FlushAddrList (w : Ipv6World) (s : Ipv6Interface) :
    Kept steady s (ipv6FlushAddrList w s) := by
  refine kept_foldl _ (fun s i => kept_update ?_) s
  split
  · rename_i h
    have hp : (s.entryAt i).permanent = false := by simpa using h.2
    exact .free hp (setAddr_free hp w i _ _ _ _)
  · exact .refl _

theorem kept_ipv6RemoveAddr (w : Ipv6World) (s : Ipv6Interface) (addr : Ipv6Addr) :
    Kept steady s (ipv6RemoveAddr w s addr) := by
  refine kept_foldl _ (fun s i => kept_update ?_) s
  split
  · rename_i h
    have hp : (s.entryAt i).permanent = false := by simpa using h.2.2
    exact .free hp (setAddr_free hp w i _ _ _ _)
  · exact .refl _

theorem kept_ipv6AddAddr (w : Ipv6World) (s : Ipv6Interface) (addr : Ipv6Addr)
    (valid preferred : Word) : Kept steady s (ipv6AddAddr w s addr valid preferred) := by
  unfold ipv6AddAddr
  simp only
  split
  · refine kept_update ?_
    split
    · rename_i i _ h
      have hp : (s.entryAt i).permanent = false := by simpa using h
      exact .free hp hp
    · exact .refl _
  · split
    · rename_i i hi
      have hp : (s.entryAt i).permanent = false := by
        have := List.find?_some hi
        simp at this
        exact this.2
      exact kept_update (.free hp (setAddr_free hp w i _ _ _ _))
    · exact .refl _

theorem entryKept_tentative {e' : Ipv6AddrEntry} (hs : e.state = .TENTATIVE)
    (hp : e'.permanent = e.permanent) (ha : e'.addr = e.addr)
    (hl : e'.preferredLifetime = e.preferredLifetime) (hs' : e'.state ≠ .DEPRECATED) :
    EntryKept steady e e' := by
  refine ⟨fun h => by rw [← hp]; exact h, fun h hm => ⟨by rw [hp]; exact h, ha, ?_, ?_⟩⟩
  · refine ⟨by rw [ha]; exact hm.assigned, hs', .inr ?_⟩
    rcases hm.lasting with h | h
    · rw [hs] at h; cases h
    · rw [hl]; exact h
  · intro _ h
    rw [hs] at h; cases h

theorem kept_ndpUpdateAddr (w : Ipv6World) (s : Ipv6Interface) (i : Nat) :
    Kept steady s (ndpUpdateAddr w s i) := by
  refine kept_update ?_
  generalize s.entryAt i = e
  cases hs : e.state with
  | INVALID => exact .refl e
  | TENTATIVE =>
    have hne : e.state ≠ .PREFERRED := by rw [hs]; decide
    simp only
    split
    · exact .refl e
    split
    · split
      · split
        · exact entryKept_tentative hs rfl rfl rfl (by simp)
        · split
          · exact entryKept_tentative hs rfl rfl rfl (by simp)
          · exact entryKept_tentative hs rfl rfl rfl (by simp)
      · exact entryKept_tentative hs rfl rfl rfl (by simp)
    split
    · split
      · split
        · rename_i hp
          refine ⟨fun _ => hp, fun _ hm => ?_⟩
          exact ((setAddr_manual hm hp w i (by decide) 0 (.inl rfl)).settle hne).kept hp hm
        · rename_i hp
          have hp : e.permanent = false := by simpa using hp
          exact .free hp (setAddr_free hp w i _ _ _ _)
      · split
        · exact entryKept_tentative hs rfl rfl rfl (by simp)
        · exact entryKept_tentative hs rfl rfl rfl (by simp)
    · exact .refl e
  | PREFERRED =>
    simp only
    split
    · rename_i h
      refine ⟨fun hp => hp, fun hp hm => ?_⟩
      rcases hm.lasting with hl | hl
      · rw [hs] at hl; cases hl
      · exact absurd hl h.1
    · exact .refl e
  | DEPRECATED =>
    simp only
    split
    · by_cases hp : e.permanent = true
      · exact ⟨fun _ => hp, fun _ hm => absurd hs hm.current⟩
      · have hp : e.permanent = false := by simpa using hp
        exact .free hp (setAddr_free hp w i _ _ _ _)
    · exact .refl e

theorem kept_ndpUpdateAddrList (w : Ipv6World) (s : Ipv6Interface) :
    Kept steady s (ndpUpdateAddrList w s) :=
  kept_foldl _ (kept_ndpUpdateAddr w) s

/-! ## Calls of the autoconfiguration -/

/-- Every manually assigned address of the list is as it was assigned. -/
def AllManual (s : Ipv6Interface) : Prop :=
  ∀ i, (s.entryAt i).permanent = true → (s.entryAt i).Manual

theorem AllManual.kept (h : AllManual s) (hk : Kept steady s s') : AllManual s' := fun i hp =>
  ((hk i).kept ((hk i).permanent hp) (h i ((hk i).permanent hp))).2.2.1

/-- The link-local address is not a manual one that could not be set up. -/
def LinkLocalSafe (s : Ipv6Interface) : Prop :=
  (s.entryAt 0).permanent = true → s.stateAt 0 ≠ .INVALID

/-- A Prefix Information option that is ignored or leaves the manual addresses alone: it does not
give a finite preferred lifetime to one that is in use, and no address is formed in the place of
one that could not be set up. -/
def OptionSafe (s : Ipv6Interface) (o : NdpPrefixInfoOption) : Prop :=
  o.accepted = true →
    (∀ i ∈ globalIndexes, (s.entryAt i).permanent = true →
      ipv6CompPrefix (s.entryAt i).addr o.pfx o.prefixLength = true → s.stateAt i = .PREFERRED →
        o.preferredLifetime = NDP_INFINITE_LIFETIME) ∧
    ((∀ i ∈ globalIndexes, ipv6CompPrefix (s.entryAt i).addr o.pfx o.prefixLength = true →
        s.stateAt i = .INVALID) →
      ∀ i, globalIndexes.find? (fun i => s.stateAt i = .INVALID) = some i →
        (s.entryAt i).permanent = false)

theorem kept_slaacGenerateLinkLocalAddr (h : LinkLocalSafe s) (w : Ipv6World) :
    Kept steady s (slaacGenerateLinkLocalAddr w s) := by
  unfold slaacGenerateLinkLocalAddr
  split
  · exact .refl s
  · rename_i hno
    have hp : (s.entryAt 0).permanent = false := by
      by_contra hp
      have hp : (s.entryAt 0).permanent = true := by simpa using hp
      exact hno ⟨h hp, hp⟩
    exact kept_update (.free hp (setAddr_free hp w 0 _ _ _ _))

theorem slaacRefresh_eq (w : Ipv6World) (o : NdpPrefixInfoOption) (e : Ipv6AddrEntry) :
    ∃ valid stamp state, (state = e.state ∨ state = .PREFERRED) ∧
      slaacRefresh w o e = { e with preferredLifetime := lifetimeDelay o.preferredLifetime,
                                    validLifetime := valid, timestamp := stamp, state } := by
  unfold slaacRefresh
  simp only
  generalize (if timeReached w.time (e.timestamp + e.validLifetime) then (0 : Word)
    else e.timestamp + e.validLifetime - w.time) = remaining
  split
  · exact ⟨_, _, _, .inr rfl, rfl⟩
  · split
    · exact ⟨_, _, _, .inl rfl, rfl⟩
    · exact ⟨_, _, _, .inr rfl, rfl⟩

theorem slaacRefresh_permanent (w : Ipv6World) (o : NdpPrefixInfoOption) (e : Ipv6AddrEntry) :
    (slaacRefresh w o e).permanent = e.permanent := by
  obtain ⟨valid, stamp, state, -, h⟩ := slaacRefresh_eq w o e
  rw [h]

/-- An infinite preferred lifetime does no harm. -/
theorem entryKept_slaacRefresh {o : NdpPrefixInfoOption}
    (ho : o.preferredLifetime = NDP_INFINITE_LIFETIME) (hs : e.state = .PREFERRED) :
    EntryKept steady e (slaacRefresh w o e) := by
  have hl : lifetimeDelay o.preferredLifetime = NDP_INFINITE_LIFETIME := by rw [ho]; rfl
  obtain ⟨valid, stamp, state, hst, h⟩ := slaacRefresh_eq w o e
  have hstate : state = .PREFERRED := by
    rcases hst with hst | hst
    · rw [hst, hs]
    · exact hst
  rw [h, hstate]
  refine ⟨fun hp => hp, fun hp hm => ⟨hp, rfl, ⟨hm.assigned, by simp, .inr hl⟩, fun _ _ => rfl⟩⟩

/-- The first loop touches no manual address, or touches it with an infinite lifetime only. -/
theorem kept_slaacMatch {o : NdpPrefixInfoOption} (is : List Nat) (r : Ipv6Interface × Bool)
    (hm : AllManual r.1)
    (ho : ∀ i ∈ is, (r.1.entryAt i).permanent = true →
      ipv6CompPrefix (r.1.entryAt i).addr o.pfx o.prefixLength = true →
        r.1.stateAt i = .PREFERRED → o.preferredLifetime = NDP_INFINITE_LIFETIME) :
    Kept steady r.1 (is.foldl (slaacMatch w o) r).1 := by
  induction is generalizing r with
  | nil => exact .refl _
  | cons i is ih =>
    rw [List.foldl_cons]
    have hi := ho i List.mem_cons_self
    have hstep : (slaacMatch w o r i).1 = r.1 ∨
        (ipv6CompPrefix (r.1.entryAt i).addr o.pfx o.prefixLength = true ∧
          (r.1.stateAt i = .PREFERRED ∨ r.1.stateAt i = .DEPRECATED) ∧
          (slaacMatch w o r i).1 = r.1.update i (slaacRefresh w o)) := by
      unfold slaacMatch
      split
      · rename_i hmatch
        split
        · rename_i hst
          exact .inr ⟨hmatch, hst, rfl⟩
        · split
          · exact .inl rfl
          · exact .inl rfl
      · exact .inl rfl
    rcases hstep with hsame | ⟨hmatch, hst, hsame⟩
    · have := ih (slaacMatch w o r i) (by rw [hsame]; exact hm)
        (by rw [hsame]; exact fun j hj => ho j (List.mem_cons_of_mem _ hj))
      rw [hsame] at this
      exact this
    · have hkept : EntryKept steady (r.1.entryAt i) (slaacRefresh w o (r.1.entryAt i)) := by
        by_cases hp : (r.1.entryAt i).permanent = true
        · have hcur := (hm i hp).current
          have hpref : (r.1.entryAt i).state = .PREFERRED := by
            rcases hst with h | h
            · exact h
            · exact absurd h hcur
          exact entryKept_slaacRefresh (hi hp hmatch hpref) hpref
        · have hp : (r.1.entryAt i).permanent = false := by simpa using hp
          exact .free hp (by rw [slaacRefresh_permanent]; exact hp)
      have hk : Kept steady r.1 (slaacMatch w o r i).1 := by
        rw [hsame]
        exact kept_update hkept
      refine hk.trans (ih _ (hm.kept hk) fun j hj hp hmj hsj => ?_)
      by_cases hij : i = j
      · -- an entry the refresh has made PREFERRED: it was so before
        rw [← hij] at hp hmj hsj
        have hp' := (hk i).permanent hp
        have haddr := ((hk i).kept hp' (hm i hp')).2.1
        have hpref : r.1.stateAt i = .PREFERRED := by
          rcases hst with h | h
          · exact h
          · exact absurd h (hm i hp').current
        rw [haddr] at hmj
        exact hi hp' hmj hpref
      · have hsame' : (slaacMatch w o r i).1.entryAt j = r.1.entryAt j := by
          rw [hsame, entryAt_update, if_neg fun h => hij h.1]
        have hst' : r.1.stateAt j = .PREFERRED := by
          show (r.1.entryAt j).state = _
          rw [← hsame']
          exact hsj
        rw [hsame'] at hp hmj
        exact ho j (List.mem_cons_of_mem _ hj) hp hmj hst'

/-- If no address has the prefix, the first loop has changed nothing. -/
theorem slaacMatch_none {o : NdpPrefixInfoOption} (is : List Nat) (r : Ipv6Interface × Bool)
    (h : (is.foldl (slaacMatch w o) r).2 = false) :
    (is.foldl (slaacMatch w o) r).1 = r.1 ∧ r.2 = false ∧
      ∀ i ∈ is, ipv6CompPrefix (r.1.entryAt i).addr o.pfx o.prefixLength = true →
        r.1.stateAt i = .INVALID := by
  induction is generalizing r with
  | nil => exact ⟨rfl, h, by simp⟩
  | cons i is ih =>
    rw [List.foldl_cons] at h ⊢
    obtain ⟨h1, h2, h3⟩ := ih _ h
    have hstep : slaacMatch w o r i = r ∧
        (ipv6CompPrefix (r.1.entryAt i).addr o.pfx o.prefixLength = true →
          r.1.stateAt i = .INVALID) := by
      unfold slaacMatch at h2 ⊢
      split at h2
      · split at h2
        · cases h2
        · rename_i hst
          split at h2
          · cases h2
          · rename_i hten
            refine ⟨?_, fun _ => ?_⟩
            · simp_all
            · cases hcase : r.1.stateAt i <;> simp_all
      · rename_i hno
        simp [hno]
    rw [hstep.1] at h1 h2 h3
    refine ⟨by rw [hstep.1]; exact h1, h2, fun j hj => ?_⟩
    rcases List.mem_cons.mp hj with rfl | hj
    · exact hstep.2
    · exact h3 j hj

theorem kept_slaacParsePrefixInfoOption {o : NdpPrefixInfoOption} (hm : AllManual s)
    (ho : OptionSafe s o) : Kept steady s (slaacParsePrefixInfoOption w s o) := by
  unfold slaacParsePrefixInfoOption
  split
  · exact .refl s
  · rename_i hacc
    obtain ⟨h1, h2⟩ := ho (by simpa using hacc)
    have hloop := @kept_slaacMatch steady w _ globalIndexes (s, false) hm h1
    simp only
    split
    · rename_i s' heq
      rw [heq] at hloop
      exact hloop
    · rename_i s' heq
      obtain ⟨hsame, -, hnone⟩ := slaacMatch_none (w := w) (o := o) globalIndexes (s, false)
        (by rw [heq])
      rw [heq] at hsame
      obtain rfl : s' = s := hsame
      split
      · rename_i i hi
        have hp := h2 hnone i hi
        exact kept_update (.free hp (setAddr_free hp w i _ _ _ _))
      · exact .refl _

/-! ## Runs of calls -/

/-- The options of one advertisement, each judged where it is parsed. -/
def OptionsSafe (w : Ipv6World) : Ipv6Interface → List NdpPrefixInfoOption → Prop
  | _, [] => True
  | s, o :: os => OptionSafe s o ∧ OptionsSafe w (slaacParsePrefixInfoOption w s o) os

/-- A call that reaches no manual address through the autoconfiguration. -/
def Ipv6Act.Safe (s : Ipv6Interface) (a : Ipv6World × Ipv6Act) : Prop :=
  match a.2 with
  | .routerAdv options =>
    s.slaacRunning = true → s.stateAt 0 = .PREFERRED → OptionsSafe a.1 s options
  | .slaacStart => s.linkState = true → LinkLocalSafe s
  | .linkChange linkState => s.slaacRunning = true → linkState = true → LinkLocalSafe s
  | _ => True

/-- A call that does not assign entry `i` again. -/
def Ipv6Act.Spares (i : Nat) : Ipv6Act → Prop
  | .assign index _ => index ≠ i
  | _ => True

def Ipv6Act.Steady : Ipv6Act → Prop
  | .linkChange _ => False
  | _ => True

theorem kept_options (w : Ipv6World) (options : List NdpPrefixInfoOption) :
    ∀ s, AllManual s → OptionsSafe w s options →
      Kept steady s (options.foldl (slaacParsePrefixInfoOption w) s) := by
  induction options with
  | nil => intro s _ _; exact .refl s
  | cons o os ih =>
    intro s hm ho
    have hk : Kept steady s (slaacParsePrefixInfoOption w s o) :=
      kept_slaacParsePrefixInfoOption hm ho.1
    exact hk.trans (ih _ (hm.kept hk) ho.2)

/-- What flushing the list leaves of a permanent entry: all of it. -/
theorem ipv6FlushAddrList_permanent (w : Ipv6World) (s : Ipv6Interface) (i : Nat)
    (h : ((ipv6FlushAddrList w s).entryAt i).permanent = true) :
    (ipv6FlushAddrList w s).entryAt i = s.entryAt i := by
  unfold ipv6FlushAddrList at h ⊢
  revert h
  generalize addrIndexes = is
  induction is generalizing s with
  | nil => intro _; rfl
  | cons j is ih =>
    rw [List.foldl_cons]
    intro h
    have hstep := ih _ h
    rw [hstep] at h
    rw [hstep]
    rw [entryAt_update] at h ⊢
    split
    · rename_i hj
      rw [if_pos hj] at h
      split
      · rename_i hc
        have hp : (s.entryAt i).permanent = false := by simpa using hc.2
        rw [if_pos hc, setAddr_free hp] at h
        cases h
      · rfl
    · rfl

theorem LinkLocalSafe.flush (h : LinkLocalSafe s) (w : Ipv6World) :
    LinkLocalSafe (ipv6FlushAddrList w s) := by
  intro hp
  have hsame := ipv6FlushAddrList_permanent w s 0 hp
  show ((ipv6FlushAddrList w s).entryAt 0).state ≠ .INVALID
  rw [hsame]
  exact h (by rw [← hsame]; exact hp)

theorem ipv6FlushAddrList_linkState (w : Ipv6World) (s : Ipv6Interface) :
    (ipv6FlushAddrList w s).linkState = s.linkState ∧
      (ipv6FlushAddrList w s).slaacRunning = s.slaacRunning := by
  unfold ipv6FlushAddrList
  generalize addrIndexes = is
  induction is generalizing s with
  | nil => exact ⟨rfl, rfl⟩
  | cons j is ih =>
    rw [List.foldl_cons]
    exact ih _

theorem kept_slaacStart (h : s.linkState = true → LinkLocalSafe s) (w : Ipv6World) :
    Kept steady s (slaacStart w s) := by
  have hflush : Kept steady s (ipv6FlushAddrList w s) := kept_ipv6FlushAddrList w s
  have hlink := (ipv6FlushAddrList_linkState w s).1
  unfold slaacStart
  simp only
  split
  · rename_i hup
    rw [hlink] at hup
    exact hflush.trans (kept_slaacGenerateLinkLocalAddr ((h hup).flush w) w)
  · exact hflush

theorem kept_ipv6LinkChangeEvent {linkState : Bool}
    (h : s.slaacRunning = true → linkState = true → LinkLocalSafe s) (w : Ipv6World) :
    Kept False s (ipv6LinkChangeEvent w s linkState) := by
  have hflush : Kept False s (ipv6FlushAddrList w { s with linkState }) :=
    kept_ipv6FlushAddrList w { s with linkState }
  obtain ⟨hlink, hrun⟩ := ipv6FlushAddrList_linkState w { s with linkState }
  unfold ipv6LinkChangeEvent
  simp only
  refine hflush.trans (Kept.trans ?_ (kept_foldl addrIndexes (fun s i => kept_update ?_) _))
  · split
    · rename_i hup
      rw [hlink, hrun] at hup
      have hsafe : LinkLocalSafe { s with linkState } := h hup.1 hup.2
      exact fun i => kept_slaacGenerateLinkLocalAddr (s := { ipv6FlushAddrList w
        { s with linkState } with retransTimer := NDP_RETRANS_TIMER, dupAddrDetectTransmits :=
          NDP_DUP_ADDR_DETECT_TRANSMITS }) (hsafe.flush w) w i
    · exact fun i => .refl _
  · split
    · rename_i hp
      refine ⟨fun _ => hp, fun _ hm => ?_⟩
      have hne : s.newState ≠ .DEPRECATED := by
        unfold Ipv6Interface.newState
        split <;> decide
      exact (setAddr_manual hm hp w i hne _ (.inr rfl)).kept hp hm
    · exact .refl _

/-- One call, seen from entry `i`. -/
theorem entryKept_run {a : Ipv6World × Ipv6Act} (hm : AllManual s) (ha : Ipv6Act.Safe s a)
    {i : Nat} (hi : a.2.Spares i) (hs : steady → a.2.Steady) :
    EntryKept steady (s.entryAt i) ((Ipv6Act.run s a).entryAt i) := by
  obtain ⟨w, a⟩ := a
  cases a with
  | routerAdv options =>
    refine (?_ : Kept steady s _) i
    unfold Ipv6Act.run slaacParseRouterAdv
    simp only
    split
    · exact .refl s
    · rename_i hrun
      simp only [Bool.not_eq_true', not_or, Bool.not_eq_false, ne_eq, not_not] at hrun
      exact kept_options w options s hm (ha hrun.1 hrun.2)
  | slaacStart => exact kept_slaacStart ha w i
  | addAddr addr valid preferred => exact kept_ipv6AddAddr w s addr valid preferred i
  | removeAddr addr => exact kept_ipv6RemoveAddr w s addr i
  | timer => exact kept_ndpUpdateAddrList w s i
  | linkChange linkState =>
    have hk := kept_ipv6LinkChangeEvent ha w i
    exact ⟨hk.permanent, fun hp hm => by
      obtain ⟨h1, h2, h3, -⟩ := hk.kept hp hm
      exact ⟨h1, h2, h3, fun h => (hs h).elim⟩⟩
  | duplicate index =>
    exact kept_update ⟨fun h => h, fun h hm => ⟨h, rfl, ⟨hm.assigned, hm.current, hm.lasting⟩,
      fun _ h => h⟩⟩ i
  | assign index addr =>
    have hne : (Ipv6Act.run s (w, .assign index addr)).entryAt i = s.entryAt i := by
      unfold Ipv6Act.run ipv6AssignAddr ipv6SetAddr
      rw [entryAt_update, if_neg fun h => hi h.1]
    rw [hne]
    exact .refl _

theorem setAddr_assigned (hm : e.permanent = true → e.Manual) (w : Ipv6World) (i : Nat)
    (addr : Ipv6Addr) {state : Ipv6AddrState} (hs : state ≠ .DEPRECATED) (valid : Word) :
    (e.setAddr w i addr state valid NDP_INFINITE_LIFETIME true).permanent = true →
      (e.setAddr w i addr state valid NDP_INFINITE_LIFETIME true).Manual := by
  unfold Ipv6AddrEntry.setAddr
  split
  · exact hm
  · simp only
    split
    · intro h; cases h
    · rename_i hne
      intro _
      split
      · exact ⟨hne, hs, .inr rfl⟩
      · exact ⟨hne, by simp, .inl rfl⟩

theorem AllManual.run {a : Ipv6World × Ipv6Act} (hm : AllManual s) (ha : Ipv6Act.Safe s a) :
    AllManual (Ipv6Act.run s a) := by
  intro i hp
  by_cases hi : a.2.Spares i
  · have hk := @entryKept_run False _ _ hm ha _ hi False.elim
    exact (hk.kept (hk.permanent hp) (hm i (hk.permanent hp))).2.2.1
  · obtain ⟨w, a⟩ := a
    cases a with
    | assign index addr =>
      revert hp
      unfold Ipv6Act.run ipv6AssignAddr ipv6SetAddr
      rw [entryAt_update]
      split
      · have hne : s.newState ≠ .DEPRECATED := by
          unfold Ipv6Interface.newState
          split <;> decide
        exact setAddr_assigned (hm i) w index addr hne _
      · exact hm i
    | _ => exact absurd trivial hi

/-- From a list without addresses on, a manually assigned address keeps its place over every run
of safe calls that do not assign its entry again, never becomes DEPRECATED, and once PREFERRED
stays so while the link does not change. -/
theorem permanent_survives {s₀ s : Ipv6Interface}
    (h0 : s₀.addrList = List.replicate IPV6_ADDR_LIST_SIZE {})
    (hr : Run.Reach Ipv6Act.run Ipv6Act.Safe s₀ s) {i : Nat}
    (hp : (s.entryAt i).permanent = true) :
    (∀ s', Run.Reach Ipv6Act.run (fun s a => Ipv6Act.Safe s a ∧ a.2.Spares i) s s' →
      (s'.entryAt i).permanent = true ∧ (s'.entryAt i).addr = (s.entryAt i).addr ∧
        s'.stateAt i ≠ .DEPRECATED) ∧
    (s.stateAt i = .PREFERRED → ∀ s', Run.Reach Ipv6Act.run
        (fun s a => Ipv6Act.Safe s a ∧ a.2.Spares i ∧ a.2.Steady) s s' →
      s'.stateAt i = .PREFERRED) := by
  have hinit : AllManual s₀ := by
    intro j hj
    have hblank : s₀.entryAt j = {} := by
      rw [Ipv6Interface.entryAt, h0, List.getD_eq_getElem?_getD, List.getElem?_replicate]
      split <;> rfl
    rw [hblank] at hj
    cases hj
  have hm : AllManual s := hr.inv hinit fun s a hm ha => hm.run ha
  constructor
  · intro s' hr'
    have h := hr'.inv (P := fun s' => AllManual s' ∧ EntryKept False (s.entryAt i) (s'.entryAt i))
      ⟨hm, .refl _⟩ fun s'' a h ha =>
        ⟨h.1.run ha.1, h.2.trans (entryKept_run h.1 ha.1 ha.2 False.elim)⟩
    obtain ⟨h1, h2, h3, -⟩ := h.2.kept hp (hm i hp)
    exact ⟨h1, h2, h3.current⟩
  · intro hs s' hr'
    have h := hr'.inv (P := fun s' => AllManual s' ∧ EntryKept True (s.entryAt i) (s'.entryAt i))
      ⟨hm, .refl _⟩ fun s'' a h ha =>
        ⟨h.1.run ha.1, h.2.trans (entryKept_run h.1 ha.1 ha.2.1 fun _ => ha.2.2)⟩
    obtain ⟨-, -, -, h4⟩ := h.2.kept hp (hm i hp)
    exact h4 trivial hs

/-- Answers at one time, every group joined. -/
def worldAt (time : Word) : Ipv6World :=
  { time, stamp := fun _ => time, rand := fun _ => 0, join := fun _ => true }

/-- An interface that is up and does not check addresses for duplicates. -/
def plainInterface : Ipv6Interface := { linkState := true, dupAddrDetectTransmits := 0 }

/-- A manual address through a run of the timer. -/
theorem permanent_survives_timer :
    (ndpUpdateAddrList (worldAt 5000) (ipv6AssignAddr (worldAt 0) plainInterface 1
      0x20010DB8000000000000000000000005)).stateAt 1 = .PREFERRED := by
  have hassign : Run.Reach Ipv6Act.run Ipv6Act.Safe plainInterface
      (Ipv6Act.run plainInterface (worldAt 0, .assign 1 0x20010DB8000000000000000000000005)) :=
    .step .init trivial
  have htimer : Run.Reach Ipv6Act.run (fun s a => Ipv6Act.Safe s a ∧ a.2.Spares 1 ∧ a.2.Steady)
      (Ipv6Act.run plainInterface (worldAt 0, .assign 1 0x20010DB8000000000000000000000005))
      (Ipv6Act.run (Ipv6Act.run plainInterface
        (worldAt 0, .assign 1 0x20010DB8000000000000000000000005)) (worldAt 5000, .timer)) :=
    .step .init ⟨trivial, trivial, trivial⟩
  exact (permanent_survives rfl hassign rfl).2 rfl _ htimer

/-- An advertisement of the prefix of a manual address, and the timer after the lifetime it
carries: the address is deprecated. -/
theorem permanent_deprecated :
    let acts : List (Ipv6World × Ipv6Act) :=
      [(worldAt 0, .assign 0 0xFE800000000000000000000000000001),
       (worldAt 0, .assign 1 0x20010DB8000000000000000000000005), (worldAt 0, .slaacStart),
       (worldAt 1000, .routerAdv [{ validLifetime := 7200, preferredLifetime := 1,
                                    pfx := 0x20010DB8000000000000000000000000 }]),
       (worldAt 5000, .timer)]
    ((acts.take 3).foldl Ipv6Act.run plainInterface).stateAt 1 = .PREFERRED ∧
      (acts.foldl Ipv6Act.run plainInterface).stateAt 1 = .DEPRECATED ∧
      ((acts.foldl Ipv6Act.run plainInterface).entryAt 1).permanent = true := by
  decide +kernel

end Cyclone
