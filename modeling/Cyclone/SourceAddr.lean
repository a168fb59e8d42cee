import Mathlib.Tactic.Ring
import Cyclone.Ipv6Addrs
import Cyclone.Lib.Ranking

/-!
# Cyclone.SourceAddr

The choice of a source address: `ipv6SelectSourceAddr`, `ipv6GetAddrScope` and
`ipv6GetCommonPrefixLength` (`ipv6_misc.c`).

* `Prefers`: the rules 1, 2, 3 and 8 for the ordering of source addresses, in that order.
* `ipv6SelectSourceAddr_best_iff`: the choice follows them unless the destination is itself a
  candidate, both PREFERRED and DEPRECATED.
-/

namespace Cyclone

open Ranking

/-! ## The code -/

def IPV6_LOOPBACK_ADDR : Ipv6Addr := 1

def IPV6_ADDR_SCOPE_INTERFACE_LOCAL : Nat := 1
def IPV6_ADDR_SCOPE_LINK_LOCAL : Nat := 2
def IPV6_ADDR_SCOPE_SITE_LOCAL : Nat := 5
def IPV6_ADDR_SCOPE_GLOBAL : Nat := 14

/-- `ipAddr->b[i]`. -/
def Ipv6Addr.b (ipAddr : Ipv6Addr) (i : Nat) : BitVec 8 := ipAddr.extractLsb' (8 * (15 - i)) 8

def ipv6IsLinkLocalUnicastAddr (ipAddr : Ipv6Addr) : Bool :=
  ipAddr.b 0 == 0xFE && ipAddr.b 1 &&& 0xC0 == 0x80

def ipv6IsSiteLocalUnicastAddr (ipAddr : Ipv6Addr) : Bool :=
  ipAddr.b 0 == 0xFE && ipAddr.b 1 &&& 0xC0 == 0xC0

def ipv6GetMulticastAddrScope (ipAddr : Ipv6Addr) : Nat :=
  let scope := (ipAddr.b 1 &&& 0x0F).toNat
  if scope = 0x0F then IPV6_ADDR_SCOPE_GLOBAL else scope

def ipv6GetAddrScope (ipAddr : Ipv6Addr) : Nat :=
  if ipv6IsMulticastAddr ipAddr then ipv6GetMulticastAddrScope ipAddr
  else if ipAddr = IPV6_LOOPBACK_ADDR then IPV6_ADDR_SCOPE_INTERFACE_LOCAL
  else if ipv6IsLinkLocalUnicastAddr ipAddr then IPV6_ADDR_SCOPE_LINK_LOCAL
  else if ipv6IsSiteLocalUnicastAddr ipAddr then IPV6_ADDR_SCOPE_SITE_LOCAL
  else IPV6_ADDR_SCOPE_GLOBAL

/-- Where `for(i = 0; i < n; i++)` is left when its body breaks unless `p` holds. -/
def breakAt (p : Nat → Bool) (n : Nat) : Nat := ((List.range n).takeWhile p).length

/-- The two bytes agree at bit `j`, the first one being the most significant. -/
def sameBit (x y : BitVec 8) (j : Nat) : Bool :=
  let mask := (1 : BitVec 8) <<< (7 - j)
  x &&& mask == y &&& mask

def ipv6GetCommonPrefixLength (ipAddr1 ipAddr2 : Ipv6Addr) : Nat :=
  let i := breakAt (fun i => ipAddr1.b i == ipAddr2.b i) sizeofIpv6Addr
  let j := if i < sizeofIpv6Addr then breakAt (sameBit (ipAddr1.b i) (ipAddr2.b i)) 8 else 0
  i * 8 + j

def Ipv6AddrEntry.Usable (e : Ipv6AddrEntry) : Prop :=
  e.state = .PREFERRED ∨ e.state = .DEPRECATED

instance (e : Ipv6AddrEntry) : Decidable e.Usable := inferInstanceAs (Decidable (_ ∨ _))

/-- A candidate source address, and the interface that goes with it. -/
structure SourceAddr where
  interface : NetInterface
  entry : Ipv6AddrEntry
  usable : entry.Usable

/-- `current` is given the higher precedence over `best`. -/
def supersedes (destAddr : Ipv6Addr) (current best : Ipv6AddrEntry) : Bool :=
  -- rule 1
  if best.addr = destAddr then false
  else if current.addr = destAddr then true
  -- rule 2
  else if ipv6GetAddrScope current.addr < ipv6GetAddrScope best.addr then
    ipv6GetAddrScope current.addr ≥ ipv6GetAddrScope destAddr
  else if ipv6GetAddrScope best.addr < ipv6GetAddrScope current.addr then
    ipv6GetAddrScope best.addr < ipv6GetAddrScope destAddr
  -- rule 3
  else if best.state = .PREFERRED ∧ current.state = .DEPRECATED then false
  else if current.state = .PREFERRED ∧ best.state = .DEPRECATED then true
  -- rule 8
  else ipv6GetCommonPrefixLength current.addr destAddr >
    ipv6GetCommonPrefixLength best.addr destAddr

/-- The body of the inner loop. -/
def selectTurn (destAddr : Ipv6Addr) (interface : NetInterface) (best : Option SourceAddr)
    (current : Ipv6AddrEntry) : Option SourceAddr :=
  if usable : current.Usable then
    match best with
    | none => some ⟨interface, current, usable⟩
    | some b => if supersedes destAddr current b.entry then some ⟨interface, current, usable⟩ else b
  else best

/-- The interfaces by their handles; `hint` is the interface given by the caller, if any. The
result is what `*interface` and `*srcAddr` are taken from, nothing for ERROR_NO_ADDRESS. -/
def ipv6SelectSourceAddr (netInterface : List (NetInterface × Ipv6Interface))
    (hint : Option NetInterface) (destAddr : Ipv6Addr) : Option SourceAddr :=
  netInterface.foldl (fun best i =>
    if hint ≠ some i.1 ∧ hint ≠ none then best
    else i.2.addrList.foldl (selectTurn destAddr i.1) best) none

/-! ## The rules -/

/-- The addresses agree in their first `n` bits. -/
def SharePrefix (n : Nat) (a b : Ipv6Addr) : Prop := ∀ k < n, a.getMsbD k = b.getMsbD k

section Rules

variable (destAddr : Ipv6Addr) (a b : SourceAddr)

/-- Rule 1: prefer same address. -/
def SameAddress : Prop := a.entry.addr = destAddr ∧ b.entry.addr ≠ destAddr

/-- Rule 2: prefer appropriate scope. -/
def AppropriateScope : Prop :=
  let s (addr : Ipv6Addr) := ipv6GetAddrScope addr
  s a.entry.addr < s b.entry.addr ∧ ¬ s a.entry.addr < s destAddr ∨
    s b.entry.addr < s a.entry.addr ∧ s b.entry.addr < s destAddr

/-- Rule 3: avoid deprecated addresses. -/
def AvoidDeprecated : Prop := a.entry.state = .PREFERRED ∧ b.entry.state = .DEPRECATED

/-- Rule 8: use longest matching prefix, of which no more than `length` bits count. -/
def LongestPrefix (length : Nat) : Prop :=
  ∃ n ≤ length, SharePrefix n a.entry.addr destAddr ∧ ¬ SharePrefix n b.entry.addr destAddr

/-- `a` is preferred to `b` as the source address for `destAddr`. -/
def Prefers (length : Nat) : SourceAddr → SourceAddr → Prop :=
  Decides [SameAddress destAddr, AppropriateScope destAddr, AvoidDeprecated,
    fun a b => LongestPrefix destAddr a b length]

end Rules

/-- The candidates: the usable addresses of the admissible interfaces. -/
def Candidate (netInterface : List (NetInterface × Ipv6Interface)) (hint : Option NetInterface)
    (a : SourceAddr) : Prop :=
  (hint = none ∨ hint = some a.interface) ∧
    ∃ s, (a.interface, s) ∈ netInterface ∧ a.entry ∈ s.addrList

/-! ## The length of the common prefix -/

theorem le_breakAt {p : Nat → Bool} {m n : Nat} : m ≤ breakAt p n ↔ m ≤ n ∧ ∀ k < m, p k := by
  have hpre := List.takeWhile_prefix (l := List.range n) p
  constructor
  · intro h
    have hn : breakAt p n ≤ n := by simpa [breakAt] using hpre.length_le
    refine ⟨by omega, fun k hk => ?_⟩
    have hlt : k < ((List.range n).takeWhile p).length := Nat.lt_of_lt_of_le hk h
    have hmem : ((List.range n).takeWhile p)[k] ∈ (List.range n).takeWhile p :=
      List.getElem_mem hlt
    have hget : ((List.range n).takeWhile p)[k] = k := by
      rw [hpre.getElem hlt, List.getElem_range]
    rw [hget] at hmem
    exact List.mem_takeWhile_imp hmem
  · rintro ⟨hm, hp⟩
    have hall : (List.range m).takeWhile p = List.range m := by
      rw [List.takeWhile_eq_self_iff]
      intro k hk
      exact hp k (List.mem_range.mp hk)
    have hsplit : List.range n = List.range m ++ (List.range (n - m)).map (m + ·) := by
      rw [← List.range_add, Nat.add_sub_cancel' hm]
    rw [breakAt, hsplit, List.takeWhile_append_of_pos (by simpa using hp)]
    simp

theorem sameBit_iff {x y : BitVec 8} {j : Nat} (hj : j < 8) :
    sameBit x y j ↔ x.getMsbD j = y.getMsbD j := by
  have hone : (1 : BitVec 8) <<< (7 - j) = BitVec.twoPow 8 (7 - j) := rfl
  have hne : BitVec.twoPow 8 (7 - j) ≠ 0#8 := by
    intro h
    have := congrArg (BitVec.getLsbD · (7 - j)) h
    simp [BitVec.getLsbD_twoPow] at this
    omega
  have hx : ∀ z : BitVec 8, z.getMsbD j = z.getLsbD (7 - j) := fun z => by
    simp [BitVec.getMsbD, hj]
  rw [sameBit, beq_iff_eq, hone, BitVec.and_twoPow, BitVec.and_twoPow, hx, hx]
  cases x.getLsbD (7 - j) <;> cases y.getLsbD (7 - j) <;> simp [hne, hne.symm]

theorem b_getMsbD (a : Ipv6Addr) {i j : Nat} (hi : i < 16) (hj : j < 8) :
    (a.b i).getMsbD j = a.getMsbD (8 * i + j) := by
  simp only [Ipv6Addr.b, BitVec.getMsbD, BitVec.getLsbD_extractLsb']
  rw [decide_eq_true hj, decide_eq_true (by omega : 8 - 1 - j < 8),
    decide_eq_true (by omega : 8 * i + j < 128)]
  simp only [Bool.true_and]
  congr 1
  omega

theorem b_eq_iff {a b : Ipv6Addr} {i : Nat} (hi : i < 16) :
    a.b i = b.b i ↔ ∀ j < 8, a.getMsbD (8 * i + j) = b.getMsbD (8 * i + j) := by
  constructor
  · intro h j hj
    rw [← b_getMsbD a hi hj, ← b_getMsbD b hi hj, h]
  · intro h
    apply BitVec.eq_of_getMsbD_eq
    intro j hj
    rw [b_getMsbD a hi hj, b_getMsbD b hi hj, h j hj]

/-- The length is that of the longest prefix the addresses share. -/
theorem le_ipv6GetCommonPrefixLength {a b : Ipv6Addr} {n : Nat} :
    n ≤ ipv6GetCommonPrefixLength a b ↔ n ≤ 128 ∧ SharePrefix n a b := by
  have hbytes (m : Nat) : m ≤ breakAt (fun i => a.b i == b.b i) 16 ↔
      m ≤ 16 ∧ SharePrefix (8 * m) a b := by
    rw [le_breakAt]
    refine and_congr_right fun hm => ?_
    constructor
    · intro h k hk
      have hi : k / 8 < m := by omega
      have := (b_eq_iff (by omega)).mp (beq_iff_eq.mp (h _ hi)) (k % 8) (by omega)
      rwa [Nat.div_add_mod] at this
    · intro h i hi
      exact beq_iff_eq.mpr ((b_eq_iff (by omega)).mpr fun j hj => h _ (by omega))
  unfold ipv6GetCommonPrefixLength sizeofIpv6Addr
  generalize hi : breakAt (fun i => a.b i == b.b i) 16 = i at hbytes ⊢
  have shared : SharePrefix (8 * i) a b := ((hbytes i).mp le_rfl).2
  have hi16 : i ≤ 16 := ((hbytes i).mp le_rfl).1
  by_cases hlt : i < 16
  · -- the bytes differ at `i`, so the bits do before the byte ends
    have differ : ¬ SharePrefix (8 * (i + 1)) a b := fun h => by
      have := (hbytes (i + 1)).mpr ⟨by omega, h⟩
      omega
    have hbits (m : Nat) : m ≤ breakAt (sameBit (a.b i) (b.b i)) 8 ↔
        m ≤ 8 ∧ SharePrefix (8 * i + m) a b := by
      rw [le_breakAt]
      refine and_congr_right fun hm => ?_
      constructor
      · intro h k hk
        by_cases hk' : k < 8 * i
        · exact shared k hk'
        · have := (sameBit_iff (by omega)).mp (h (k - 8 * i) (by omega))
          rw [b_getMsbD _ hlt (by omega), b_getMsbD _ hlt (by omega)] at this
          rwa [show 8 * i + (k - 8 * i) = k by omega] at this
      · intro h j hj
        rw [sameBit_iff (by omega), b_getMsbD _ hlt (by omega), b_getMsbD _ hlt (by omega)]
        exact h _ (by omega)
    simp only [if_pos hlt]
    generalize breakAt (sameBit (a.b i) (b.b i)) 8 = j at hbits ⊢
    have hj := (hbits j).mp le_rfl
    constructor
    · intro h
      exact ⟨by omega, fun k hk => hj.2 k (by omega)⟩
    · rintro ⟨-, h⟩
      by_contra hn
      by_cases hj8 : j < 8
      · have := (hbits (j + 1)).mpr ⟨by omega, fun k hk => h k (by omega)⟩
        omega
      · exact differ fun k hk => h k (by omega)
  · simp only [if_neg hlt]
    constructor
    · intro h
      exact ⟨by omega, fun k hk => shared k (by omega)⟩
    · omega

theorem sharePrefix_commonPrefix (a b : Ipv6Addr) :
    ipv6GetCommonPrefixLength a b ≤ 128 ∧ SharePrefix (ipv6GetCommonPrefixLength a b) a b :=
  le_ipv6GetCommonPrefixLength.mp le_rfl

/-! ## The comparison -/

section Comparison

variable {destAddr : Ipv6Addr} {length : Nat} {a b : SourceAddr}

theorem sharePrefix_min {n : Nat} {a b : Ipv6Addr} (h : SharePrefix (min n 128) a b) :
    SharePrefix n a b := by
  intro k hk
  by_cases hlt : k < 128
  · exact h k (by omega)
  · rw [BitVec.getMsbD_of_ge _ _ (by omega), BitVec.getMsbD_of_ge _ _ (by omega)]

theorem longestPrefix_iff : LongestPrefix destAddr a b length ↔
    min (ipv6GetCommonPrefixLength b.entry.addr destAddr) length <
      min (ipv6GetCommonPrefixLength a.entry.addr destAddr) length := by
  constructor
  · rintro ⟨n, hn, ha, hb⟩
    have hla : min n 128 ≤ ipv6GetCommonPrefixLength a.entry.addr destAddr :=
      le_ipv6GetCommonPrefixLength.mpr ⟨by omega, fun k hk => ha k (by omega)⟩
    have hlb : ¬ min n 128 ≤ ipv6GetCommonPrefixLength b.entry.addr destAddr := fun h =>
      hb (sharePrefix_min (le_ipv6GetCommonPrefixLength.mp h).2)
    omega
  · intro h
    have ha := sharePrefix_commonPrefix a.entry.addr destAddr
    refine ⟨min (ipv6GetCommonPrefixLength a.entry.addr destAddr) length, by omega,
      fun k hk => ha.2 k (by omega), fun hb => ?_⟩
    have := le_ipv6GetCommonPrefixLength.mpr ⟨by omega, hb⟩
    omega

theorem appropriateScope_ranks (destAddr : Ipv6Addr) : Ranks (AppropriateScope destAddr) := by
  constructor <;> intros <;> simp only [AppropriateScope] at * <;> omega

theorem sameAddress_ranks (destAddr : Ipv6Addr) : Ranks (SameAddress destAddr) := by
  constructor
  · rintro a b ⟨-, hb⟩ ⟨hb', -⟩
    exact hb hb'
  · rintro a b c hab hbc ⟨ha, hc⟩
    by_cases hb : b.entry.addr = destAddr
    · exact hbc ⟨hb, hc⟩
    · exact hab ⟨ha, hb⟩

theorem avoidDeprecated_ranks : Ranks AvoidDeprecated := by
  constructor
  · rintro a b ⟨ha, -⟩ ⟨-, ha'⟩
    rw [ha] at ha'
    cases ha'
  · rintro a b c hab hbc ⟨ha, hc⟩
    -- a usable address is either PREFERRED or DEPRECATED
    rcases b.usable with hb | hb
    · exact hbc ⟨hb, hc⟩
    · exact hab ⟨ha, hb⟩

theorem longestPrefix_ranks (destAddr : Ipv6Addr) (length : Nat) :
    Ranks fun a b => LongestPrefix destAddr a b length :=
  .of_measure (fun a => min (ipv6GetCommonPrefixLength a.entry.addr destAddr) length)
    fun _ _ => longestPrefix_iff

theorem prefers_ranks (destAddr : Ipv6Addr) (length : Nat) : Ranks (Prefers destAddr length) := by
  apply decides_ranks
  intro r hr
  simp only [List.mem_cons, List.not_mem_nil, or_false] at hr
  rcases hr with rfl | rfl | rfl | rfl
  · exact sameAddress_ranks destAddr
  · exact appropriateScope_ranks destAddr
  · exact avoidDeprecated_ranks
  · exact longestPrefix_ranks destAddr length

theorem supersedes_iff : supersedes destAddr a.entry b.entry ↔
    b.entry.addr ≠ destAddr ∧ Prefers destAddr 128 a b := by
  have ha := (sharePrefix_commonPrefix a.entry.addr destAddr).1
  have hb := (sharePrefix_commonPrefix b.entry.addr destAddr).1
  simp only [supersedes, Prefers, Decides, SameAddress, AppropriateScope, AvoidDeprecated,
    longestPrefix_iff, Nat.min_eq_left ha, Nat.min_eq_left hb]
  by_cases hba : b.entry.addr = destAddr
  · simp [hba]
  by_cases haa : a.entry.addr = destAddr
  · simp [haa, hba]
  rcases a.usable with ha' | ha' <;> rcases b.usable with hb' | hb' <;>
    simp only [hba, haa, ha', hb'] <;> grind

theorem prefers_full (h : Prefers destAddr length a b) : Prefers destAddr 128 a b := by
  simp only [Prefers, Decides] at h ⊢
  rcases h with h | ⟨h1, h | ⟨h2, h | ⟨h3, h | ⟨-, h⟩⟩⟩⟩
  · exact .inl h
  · exact .inr ⟨h1, .inl h⟩
  · exact .inr ⟨h1, .inr ⟨h2, .inl h⟩⟩
  · refine .inr ⟨h1, .inr ⟨h2, .inr ⟨h3, .inl ?_⟩⟩⟩
    rw [longestPrefix_iff] at h ⊢
    have := (sharePrefix_commonPrefix a.entry.addr destAddr).1
    omega
  · exact h.elim

end Comparison

/-! ## The scan -/

section Scan

variable {netInterface netInterface' : List (NetInterface × Ipv6Interface)}
  {hint : Option NetInterface} {destAddr : Ipv6Addr} {length : Nat}

/-- The addresses compared at one interface. -/
def usableAddrs (interface : NetInterface) (l : List Ipv6AddrEntry) : List SourceAddr :=
  l.filterMap fun entry =>
    if usable : entry.Usable then some ⟨interface, entry, usable⟩ else none

/-- The addresses compared, in the order of the loops. -/
def candidates (netInterface : List (NetInterface × Ipv6Interface)) (hint : Option NetInterface) :
    List SourceAddr :=
  (netInterface.filter fun i => ¬ (hint ≠ some i.1 ∧ hint ≠ none)).flatMap fun i =>
    usableAddrs i.1 i.2.addrList

theorem candidates_cons (i : NetInterface × Ipv6Interface) :
    candidates (i :: netInterface) hint =
      if hint ≠ some i.1 ∧ hint ≠ none then candidates netInterface hint
      else usableAddrs i.1 i.2.addrList ++ candidates netInterface hint := by
  by_cases hi : hint ≠ some i.1 ∧ hint ≠ none
  · have hskip : ¬ decide (¬ (hint ≠ some i.1 ∧ hint ≠ none)) = true := by simpa using hi
    rw [if_pos hi, candidates, List.filter_cons, if_neg hskip, candidates]
  · have hkeep : decide (¬ (hint ≠ some i.1 ∧ hint ≠ none)) = true := decide_eq_true hi
    rw [if_neg hi, candidates, List.filter_cons, if_pos hkeep, List.flatMap_cons, candidates]

/-- One candidate replaces another. -/
abbrev Supersedes (destAddr : Ipv6Addr) (a b : SourceAddr) : Prop :=
  supersedes destAddr a.entry b.entry

theorem selectTurn_usable (best : Option SourceAddr) (a : SourceAddr) :
    selectTurn destAddr a.interface best a.entry = List.argAux (Supersedes destAddr) best a := by
  rw [selectTurn, dif_pos a.usable]
  cases best <;> rfl

theorem select_list (interface : NetInterface) (l : List Ipv6AddrEntry) (best : Option SourceAddr) :
    l.foldl (selectTurn destAddr interface) best =
      (usableAddrs interface l).foldl (List.argAux (Supersedes destAddr)) best := by
  induction l generalizing best with
  | nil => rfl
  | cons entry l ih =>
    rw [List.foldl_cons, ih]
    by_cases usable : entry.Usable
    · rw [selectTurn_usable best ⟨interface, entry, usable⟩]
      simp [usableAddrs, usable]
    · simp [usableAddrs, selectTurn, usable]

/-- The two loops scan the candidates. -/
theorem ipv6SelectSourceAddr_scan (netInterface : List (NetInterface × Ipv6Interface))
    (hint : Option NetInterface) (destAddr : Ipv6Addr) :
    ipv6SelectSourceAddr netInterface hint destAddr =
      scan (Supersedes destAddr) (candidates netInterface hint) := by
  unfold ipv6SelectSourceAddr scan
  generalize (none : Option SourceAddr) = best
  induction netInterface generalizing best with
  | nil => rfl
  | cons i rest ih =>
    rw [List.foldl_cons, ih, candidates_cons]
    split
    · rfl
    · rw [List.foldl_append, select_list]

theorem mem_candidates {a : SourceAddr} :
    a ∈ candidates netInterface hint ↔ Candidate netInterface hint a := by
  have hopt : ¬ (hint ≠ some a.interface ∧ hint ≠ none) ↔
      hint = none ∨ hint = some a.interface := by
    by_cases h : hint = none <;> simp [h]
  simp only [candidates, List.mem_flatMap, List.mem_filter, decide_eq_true_eq, usableAddrs,
    List.mem_filterMap, Candidate, ← hopt]
  constructor
  · rintro ⟨⟨interface, s⟩, ⟨hs, hi⟩, entry, he, h⟩
    split at h
    · obtain rfl := Option.some.inj h
      exact ⟨hi, s, hs, he⟩
    · cases h
  · rintro ⟨hi, s, hs, he⟩
    exact ⟨(a.interface, s), ⟨hs, hi⟩, a.entry, he, by rw [dif_pos a.usable]⟩

theorem supersedes_irrefl (a : SourceAddr) : ¬ Supersedes destAddr a a := by
  intro h
  exact (prefers_ranks destAddr 128).irrefl a (supersedes_iff.mp h).2

theorem supersedes_trans (a b c : SourceAddr) (hab : Supersedes destAddr a b)
    (hbc : Supersedes destAddr b c) : Supersedes destAddr a c := by
  have hab := (supersedes_iff.mp hab).2
  have ⟨hc, hbc⟩ := supersedes_iff.mp hbc
  exact supersedes_iff.mpr ⟨hc, (prefers_ranks destAddr 128).trans hab hbc⟩

end Scan

/-! ## The choice -/

/-- What a choice among the candidates has to be. -/
structure BestSource (netInterface : List (NetInterface × Ipv6Interface))
    (hint : Option NetInterface) (destAddr : Ipv6Addr) (length : Nat) (r : Option SourceAddr) :
    Prop where
  candidate : ∀ a ∈ r, Candidate netInterface hint a
  best : ∀ a ∈ r, ∀ b, Candidate netInterface hint b → ¬ Prefers destAddr length b a
  missing : r = none → ∀ a, ¬ Candidate netInterface hint a

/-- The interfaces in another order, and the addresses of each in another order. -/
def Permuted (netInterface netInterface' : List (NetInterface × Ipv6Interface)) : Prop :=
  ∃ m, netInterface.Perm m ∧
    List.Forall₂ (fun i j => i.1 = j.1 ∧ i.2.addrList.Perm j.2.addrList) m netInterface'

/-- The candidates that are the destination itself are all in one state. -/
def OneState (netInterface : List (NetInterface × Ipv6Interface)) (hint : Option NetInterface)
    (destAddr : Ipv6Addr) : Prop :=
  ∀ a b, Candidate netInterface hint a → Candidate netInterface hint b →
    a.entry.addr = destAddr → b.entry.addr = destAddr → a.entry.state = b.entry.state

section Choice

variable {netInterface netInterface' : List (NetInterface × Ipv6Interface)}
  {hint : Option NetInterface} {destAddr : Ipv6Addr} {length : Nat}

theorem select_mem {a : SourceAddr}
    (h : ipv6SelectSourceAddr netInterface hint destAddr = some a) :
    Candidate netInterface hint a := by
  rw [ipv6SelectSourceAddr_scan] at h
  exact mem_candidates.mp (scan_mem h)

theorem select_none (h : ipv6SelectSourceAddr netInterface hint destAddr = none) (a : SourceAddr) :
    ¬ Candidate netInterface hint a := by
  rw [ipv6SelectSourceAddr_scan, scan_eq_none] at h
  rw [← mem_candidates, h]
  simp

/-- Nothing that is preferred to the choice is left, unless the choice is the destination. -/
theorem select_best {a b : SourceAddr}
    (h : ipv6SelectSourceAddr netInterface hint destAddr = some a)
    (hb : Candidate netInterface hint b) :
    a.entry.addr = destAddr ∨ ¬ Prefers destAddr 128 b a := by
  rw [ipv6SelectSourceAddr_scan] at h
  have := scan_best supersedes_irrefl supersedes_trans h b (mem_candidates.mpr hb)
  by_cases ha : a.entry.addr = destAddr
  · exact .inl ha
  · exact .inr fun hpref => this (supersedes_iff.mpr ⟨ha, hpref⟩)

/-- Of two candidates that are the destination, the state decides. -/
theorem prefers_same {a b : SourceAddr} (ha : a.entry.addr = destAddr)
    (hb : b.entry.addr = destAddr) : Prefers destAddr length a b ↔ AvoidDeprecated a b := by
  simp only [Prefers, Decides, SameAddress, AppropriateScope, longestPrefix_iff, ha, hb]
  simp

theorem select_bestSource (h : OneState netInterface hint destAddr) :
    BestSource netInterface hint destAddr length
      (ipv6SelectSourceAddr netInterface hint destAddr) := by
  refine ⟨fun a ha => select_mem ha, fun a ha b hb hpref => ?_, fun hn => select_none hn⟩
  rcases select_best ha hb with haddr | hbest
  · by_cases hbaddr : b.entry.addr = destAddr
    · have hstate := h a b (select_mem ha) hb haddr hbaddr
      rw [prefers_same hbaddr haddr] at hpref
      obtain ⟨hb', ha'⟩ := hpref
      rw [ha', hb'] at hstate
      cases hstate
    · rcases hpref with hpref | ⟨hno, -⟩
      · exact hpref.2 haddr
      · exact hno ⟨haddr, hbaddr⟩
  · exact hbest (prefers_full hpref)

/-- What is found at the interface `interface` of the list. -/
def Listed (l : List (NetInterface × Ipv6Interface)) (interface : NetInterface)
    (entry : Ipv6AddrEntry) : Prop := ∃ s, (interface, s) ∈ l ∧ entry ∈ s.addrList

theorem listed_cons {i : NetInterface × Ipv6Interface} {l : List (NetInterface × Ipv6Interface)}
    {interface : NetInterface} {entry : Ipv6AddrEntry} : Listed (i :: l) interface entry ↔
      interface = i.1 ∧ entry ∈ i.2.addrList ∨ Listed l interface entry := by
  constructor
  · rintro ⟨s, hs, he⟩
    rcases List.mem_cons.mp hs with rfl | hs
    · exact .inl ⟨rfl, he⟩
    · exact .inr ⟨s, hs, he⟩
  · rintro (⟨rfl, he⟩ | ⟨s, hs, he⟩)
    · exact ⟨i.2, by simp, he⟩
    · exact ⟨s, by simp [hs], he⟩

theorem Permuted.listed_iff (h : Permuted netInterface netInterface') (interface : NetInterface)
    (entry : Ipv6AddrEntry) :
    Listed netInterface' interface entry ↔ Listed netInterface interface entry := by
  obtain ⟨m, hperm, hentries⟩ := h
  have hm : Listed netInterface interface entry ↔ Listed m interface entry := by
    simp only [Listed, hperm.mem_iff]
  rw [hm]
  clear hm hperm
  induction hentries with
  | nil => exact Iff.rfl
  | cons hij _ ih =>
    rw [listed_cons, listed_cons, hij.1, hij.2.mem_iff]
    exact or_congr_right ih

theorem Permuted.candidate_iff (h : Permuted netInterface netInterface') {a : SourceAddr} :
    Candidate netInterface' hint a ↔ Candidate netInterface hint a :=
  and_congr_right fun _ => h.listed_iff a.interface a.entry

/-- Two choices that nothing beats tie. -/
theorem bestSource_ties {r r' : Option SourceAddr} (h : Permuted netInterface netInterface')
    (hr : BestSource netInterface hint destAddr length r)
    (hr' : BestSource netInterface' hint destAddr length r') :
    Option.Rel (Ties (Prefers destAddr length)) r r' := by
  cases r with
  | none =>
    cases r' with
    | none => exact .none
    | some a' => exact (hr.missing rfl a' (h.candidate_iff.mp (hr'.candidate a' rfl))).elim
  | some a =>
    cases r' with
    | none => exact (hr'.missing rfl a (h.candidate_iff.mpr (hr.candidate a rfl))).elim
    | some a' =>
      exact .some ⟨hr'.best a' rfl a (h.candidate_iff.mpr (hr.candidate a rfl)),
        hr.best a rfl a' (h.candidate_iff.mp (hr'.candidate a' rfl))⟩

/-- Any candidate can be made the first one. -/
theorem candidate_first {a : SourceAddr} (h : Candidate netInterface hint a) :
    ∃ s rest entries, Permuted netInterface ((a.interface, s) :: rest) ∧
      s.addrList = a.entry :: entries := by
  obtain ⟨-, s, hs, he⟩ := h
  obtain ⟨xs, ys, rfl⟩ := List.append_of_mem hs
  obtain ⟨es, fs, hsplit⟩ := List.append_of_mem he
  refine ⟨{ s with addrList := a.entry :: (es ++ fs) }, xs ++ ys, es ++ fs,
    ⟨(a.interface, s) :: (xs ++ ys), List.perm_middle, ?_⟩, rfl⟩
  refine .cons ⟨rfl, ?_⟩ (List.forall₂_same.mpr fun i _ => ⟨rfl, .refl _⟩)
  rw [hsplit]
  exact List.perm_middle

/-- The first candidate stays when it is the destination. -/
theorem select_first {a : SourceAddr} {s : Ipv6Interface}
    {rest : List (NetInterface × Ipv6Interface)} {entries : List Ipv6AddrEntry}
    (hint' : hint = none ∨ hint = some a.interface) (hs : s.addrList = a.entry :: entries)
    (haddr : a.entry.addr = destAddr) :
    ipv6SelectSourceAddr ((a.interface, s) :: rest) hint destAddr = some a := by
  have kept (l : List SourceAddr) :
      l.foldl (List.argAux (Supersedes destAddr)) (some a) = some a := by
    induction l with
    | nil => rfl
    | cons b l ih =>
      have : ¬ Supersedes destAddr b a := fun h => (supersedes_iff.mp h).1 haddr
      rw [List.foldl_cons, argAux_some, if_neg this, ih]
  have hskip : ¬ (hint ≠ some a.interface ∧ hint ≠ none) := by tauto
  have hfirst : usableAddrs a.interface s.addrList =
      a :: usableAddrs a.interface entries := by
    simp [usableAddrs, hs, a.usable]
  rw [ipv6SelectSourceAddr_scan, candidates_cons, if_neg hskip, hfirst]
  exact kept _

/-- **Selection.** The comparison is a total preorder. The choice is a candidate to which none is
preferred, the same up to ties in whatever order the tables are, exactly if the candidates that
are the destination itself are in one state. -/
theorem ipv6SelectSourceAddr_best_iff (netInterface : List (NetInterface × Ipv6Interface))
    (hint : Option NetInterface) (destAddr : Ipv6Addr) (length : Nat) :
    IsPreorder SourceAddr (fun a b => ¬ Prefers destAddr length b a) ∧
      Std.Total (fun a b : SourceAddr => ¬ Prefers destAddr length b a) ∧
      (BestSource netInterface hint destAddr length
          (ipv6SelectSourceAddr netInterface hint destAddr) ∧
        (∀ netInterface', Permuted netInterface netInterface' →
          Option.Rel (Ties (Prefers destAddr length))
            (ipv6SelectSourceAddr netInterface hint destAddr)
            (ipv6SelectSourceAddr netInterface' hint destAddr)) ↔
        OneState netInterface hint destAddr) := by
  have ranks := prefers_ranks destAddr length
  refine ⟨{ refl := ranks.irrefl, trans := fun a b c hab hbc => ranks.negTrans hbc hab },
    ⟨fun a b => ?_⟩, ?_, ?_⟩
  · by_cases h : Prefers destAddr length b a
    · exact .inr (ranks.asymm h)
    · exact .inl h
  · rintro ⟨hbest, hties⟩
    -- of two states at the destination one is preferred, and the other may come first
    have absurd {a b : SourceAddr} (ha : Candidate netInterface hint a)
        (hb : Candidate netInterface hint b) (haddr : a.entry.addr = destAddr)
        (hbaddr : b.entry.addr = destAddr) : ¬ AvoidDeprecated a b := by
      intro hab
      obtain ⟨s, rest, entries, hperm, hs⟩ := candidate_first hb
      have htie := hties _ hperm
      rw [select_first hb.1 hs hbaddr] at htie
      generalize ipv6SelectSourceAddr netInterface hint destAddr = r at hbest htie
      cases htie with
      | some htie =>
        rename_i c
        exact htie.1 (ranks.trans_right (hbest.best c rfl a ha)
          ((prefers_same haddr hbaddr).mpr hab))
    intro a b ha hb haddr hbaddr
    rcases a.usable with ha' | ha' <;> rcases b.usable with hb' | hb'
    · rw [ha', hb']
    · exact (absurd ha hb haddr hbaddr ⟨ha', hb'⟩).elim
    · exact (absurd hb ha hbaddr haddr ⟨hb', ha'⟩).elim
    · rw [ha', hb']
  · intro h
    have h' {netInterface'} (hperm : Permuted netInterface netInterface') :
        OneState netInterface' hint destAddr := fun a b ha hb =>
      h a b (hperm.candidate_iff.mp ha) (hperm.candidate_iff.mp hb)
    exact ⟨select_bestSource h, fun _ hperm =>
      bestSource_ties hperm (select_bestSource h) (select_bestSource (h' hperm))⟩

/-- The address 2001:db8::1. -/
def sharedAddr : Ipv6Addr := 0x20010DB8000000000000000000000001

/-- An interface with this address, in the state given. -/
def atDestination (state : Ipv6AddrState) : Ipv6Interface :=
  { addrList := [{ addr := sharedAddr, state }, {}, {}] }

/-- The first interface stays the choice, though the address is PREFERRED on the second. -/
theorem ipv6SelectSourceAddr_deprecated :
    ¬ BestSource [(0, atDestination .DEPRECATED), (1, atDestination .PREFERRED)] none
      sharedAddr 128
      (ipv6SelectSourceAddr [(0, atDestination .DEPRECATED), (1, atDestination .PREFERRED)] none
        sharedAddr) := by
  intro h
  let first : SourceAddr :=
    ⟨0, { addr := sharedAddr, state := .DEPRECATED }, .inr rfl⟩
  let second : SourceAddr :=
    ⟨1, { addr := sharedAddr, state := .PREFERRED }, .inl rfl⟩
  have chosen : ipv6SelectSourceAddr
      [(0, atDestination .DEPRECATED), (1, atDestination .PREFERRED)] none sharedAddr =
        some first := @select_first none _ first _ _ _ (.inl rfl) rfl rfl
  have candidate : Candidate [(0, atDestination .DEPRECATED), (1, atDestination .PREFERRED)] none
      second := ⟨.inl rfl, atDestination .PREFERRED, by simp [second], by simp [second, atDestination]⟩
  have preferred : Prefers sharedAddr 128 second first :=
    (prefers_same (a := second) (b := first) rfl rfl).mpr ⟨rfl, rfl⟩
  exact h.best first chosen second candidate preferred

end Choice

end Cyclone
