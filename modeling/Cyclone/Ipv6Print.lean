import Cyclone.Ipv6Text

/-!
# Cyclone.Ipv6Print

`ipv6AddrToString` (`ipv6.c`), and the way back through `ipv6StringToAddr`.

* `Rfc5952`: the recommended text of an address, apart from the code.
* `ipv6_text_round_trip`: every address is printed in that form and read back.
-/

namespace Cyclone

open Serial

/-! ## The code -/

/-- The words of an address, the first one being the most significant. -/
def ipv6Words (a : Ipv6Addr) : List (BitVec 16) :=
  [a.extractLsb' 112 16, a.extractLsb' 96 16, a.extractLsb' 80 16, a.extractLsb' 64 16,
    a.extractLsb' 48 16, a.extractLsb' 32 16, a.extractLsb' 16 16, a.extractLsb' 0 16]

/-- The address made of the eight words. -/
def Ipv6Words.addr (m : Ipv6Words) : Ipv6Addr :=
  m.word 0 ++ m.word 1 ++ m.word 2 ++ m.word 3 ++ m.word 4 ++ m.word 5 ++ m.word 6 ++ m.word 7

def hexChar (n : Nat) : UInt8 :=
  if n < 10 then UInt8.ofNat (0x30 + n) else UInt8.ofNat (0x61 + (n - 10))

/-- `%x` on a number of at most `width` digits. -/
def printHex : Nat → Nat → List UInt8
  | 0, _ => []
  | width + 1, n => (if n < 16 then [] else printHex width (n / 16)) ++ [hexChar (n % 16)]

/-- `%x` on a word. -/
def hex (v : BitVec 16) : List UInt8 := printHex 4 v.toNat

/-- `j - i` behind the first inner loop: the number of zeros from `i` on. -/
def zeroRunLength (w : List (BitVec 16)) (i : Nat) : Nat :=
  ((w.drop i).takeWhile (· = 0)).length

/-- One turn of the search for the longest run of zeros. -/
def zeroRunTurn (w : List (BitVec 16)) (r : Nat × Nat) (i : Nat) : Nat × Nat :=
  if zeroRunLength w i > 1 ∧ zeroRunLength w i > r.2 - r.1 then (i, i + zeroRunLength w i) else r

/-- `zeroRunStart` and `zeroRunEnd`. -/
def bestZeroRun (w : List (BitVec 16)) : Nat × Nat := (List.range 8).foldl (zeroRunTurn w) (0, 0)

/-- The loop that formats the words, from index `i` on. The first argument bounds its turns. -/
def formatLoop (w : List (BitVec 16)) (zeroRunStart zeroRunEnd : Nat) : Nat → Nat → List UInt8
  | 0, _ => []
  | n + 1, i =>
    if i < 8 then
      if i ≥ zeroRunStart ∧ i < zeroRunEnd then
        COLON :: formatLoop w zeroRunStart zeroRunEnd n zeroRunEnd
      else
        (if i > 0 then [COLON] else []) ++ hex (w.getD i 0) ++
          formatLoop w zeroRunStart zeroRunEnd n (i + 1)
    else []

/-- `ipv6AddrToString`: the characters in front of the NUL. -/
def ipv6AddrToString (ipAddr : Ipv6Addr) : List UInt8 :=
  let w := ipv6Words ipAddr
  let (zeroRunStart, zeroRunEnd) := bestZeroRun w
  formatLoop w zeroRunStart zeroRunEnd 8 0 ++ if zeroRunEnd = 8 then [COLON] else []

/-! ## The recommended form -/

/-- Lower case, and no leading zero. -/
structure CanonicalGroup (g : List UInt8) (v : BitVec 16) : Prop extends Group g v where
  lower : ∀ c ∈ g, isUpper c = false
  leading : g.head? = some 0x30 → g = [0x30]
  short : g.length ≤ 4

/-- From `i` on there are `m` words that are zero. -/
def ZeroRun (w : List (BitVec 16)) (i m : Nat) : Prop := ∀ k < m, w[i + k]? = some 0

/-- The text of an address: the groups in their shortest form, and a `::` for the first of the
longest runs of zeros unless these are single. -/
inductive Rfc5952 : List (BitVec 16) → List UInt8 → Prop where
  | full {gs : List (List UInt8)} {ws : List (BitVec 16)} (groups : List.Forall₂ CanonicalGroup gs ws)
    (single : ∀ i m, ZeroRun ws i m → m ≤ 1) : Rfc5952 ws (colons gs)
  | gap {fs bs : List (List UInt8)} {us vs : List (BitVec 16)} {n : Nat}
    (front : List.Forall₂ CanonicalGroup fs us) (back : List.Forall₂ CanonicalGroup bs vs)
    (two : 2 ≤ n)
    (longest : ∀ i m, ZeroRun (us ++ List.replicate n 0 ++ vs) i m →
      m ≤ n ∧ (i < us.length → m < n)) :
    Rfc5952 (us ++ List.replicate n 0 ++ vs) (colons fs ++ GAP ++ colons bs)

/-! ## Groups -/

theorem hexChar_spec : ∀ n < 16, isXDigit (hexChar n) ∧ digitValue (hexChar n) = n ∧
    isUpper (hexChar n) = false ∧ (hexChar n = 0x30 → n = 0) := by decide

theorem hexValue_append (g : List UInt8) (c : UInt8) :
    hexValue (g ++ [c]) = hexValue g * 16 + digitValue c := hexValue_snoc g c

theorem length_printHex (width n : Nat) : (printHex width n).length ≤ width := by
  induction width generalizing n with
  | zero => simp [printHex]
  | succ width ih =>
    have := ih (n / 16)
    rw [printHex, List.length_append, List.length_singleton]
    split
    · simp
    · omega

theorem printHex_ne_nil (width n : Nat) : printHex (width + 1) n ≠ [] := by simp [printHex]

/-- Every character printed is that of a digit. -/
theorem printHex_mem {width n : Nat} {c : UInt8} (h : c ∈ printHex width n) :
    ∃ d < 16, c = hexChar d := by
  induction width generalizing n with
  | zero => simp [printHex] at h
  | succ width ih =>
    rw [printHex] at h
    rcases List.mem_append.mp h with h | h
    · split at h
      · simp at h
      · exact ih h
    · exact ⟨n % 16, Nat.mod_lt _ (by omega), List.mem_singleton.mp h⟩

theorem hexValue_printHex {width n : Nat} (h : n < 16 ^ width) : hexValue (printHex width n) = n := by
  induction width generalizing n with
  | zero =>
    have : n = 0 := by simpa using h
    rw [this]; rfl
  | succ width ih =>
    rw [printHex, hexValue_append, (hexChar_spec (n % 16) (Nat.mod_lt _ (by omega))).2.1]
    split
    · simp [hexValue]; omega
    · rw [ih (by rw [Nat.pow_succ] at h; omega)]; omega

/-- Only zero is printed with a leading zero. -/
theorem printHex_leading {width n : Nat} (h : n < 16 ^ (width + 1))
    (hz : (printHex (width + 1) n).head? = some 0x30) : n = 0 := by
  induction width generalizing n with
  | zero =>
    simp only [printHex, ite_self, List.nil_append, List.head?_cons, Option.some.injEq] at hz
    have := (hexChar_spec (n % 16) (Nat.mod_lt _ (by omega))).2.2.2 hz
    have : n < 16 := by simpa using h
    omega
  | succ width ih =>
    rw [printHex] at hz
    split at hz
    · rename_i hn
      simp only [List.nil_append, List.head?_cons, Option.some.injEq] at hz
      have := (hexChar_spec (n % 16) (Nat.mod_lt _ (by omega))).2.2.2 hz
      omega
    · rw [List.head?_append_of_ne_nil _ (printHex_ne_nil width _)] at hz
      have := ih (by rw [Nat.pow_succ] at h; omega) hz
      omega

theorem canonical_hex (v : BitVec 16) : CanonicalGroup (hex v) v where
  digits c hc := by
    obtain ⟨d, hd, rfl⟩ := printHex_mem hc
    exact (hexChar_spec d hd).1
  nonempty := printHex_ne_nil 3 _
  value := hexValue_printHex v.isLt
  lower c hc := by
    obtain ⟨d, hd, rfl⟩ := printHex_mem hc
    exact (hexChar_spec d hd).2.2.1
  leading h := by
    have hv := @printHex_leading 3 _ v.isLt h
    rw [hex, hv]
    rfl
  short := length_printHex 4 _

theorem canonical_groups (ws : List (BitVec 16)) :
    List.Forall₂ CanonicalGroup (ws.map hex) ws := by
  induction ws with
  | nil => exact .nil
  | cons w ws ih => exact .cons (canonical_hex w) ih

theorem groups_hex (ws : List (BitVec 16)) : Groups (ws.map hex) ws :=
  (canonical_groups ws).imp fun _ _ h => h.toGroup

/-! ## The longest run of zeros -/

theorem takeWhile_zero (l : List (BitVec 16)) {k : Nat}
    (hk : k < (l.takeWhile (· = 0)).length) : l[k]? = some 0 := by
  induction l generalizing k with
  | nil => simp at hk
  | cons a l ih =>
    by_cases ha : a = 0
    · rw [List.takeWhile_cons_of_pos (by simp [ha])] at hk
      cases k with
      | zero => simp [ha]
      | succ k => rw [List.getElem?_cons_succ]; exact ih (by simpa using hk)
    · rw [List.takeWhile_cons_of_neg (by simpa using ha)] at hk
      simp at hk

theorem le_takeWhile_zero (l : List (BitVec 16)) {m : Nat} (h : ∀ k < m, l[k]? = some 0) :
    m ≤ (l.takeWhile (· = 0)).length := by
  induction l generalizing m with
  | nil =>
    cases m with
    | zero => exact Nat.zero_le _
    | succ m => have := h 0 (by omega); simp at this
  | cons a l ih =>
    cases m with
    | zero => exact Nat.zero_le _
    | succ m =>
      have ha : a = 0 := by simpa using h 0 (by omega)
      have := ih fun k (hk : k < m) => by simpa using h (k + 1) (by omega)
      rw [List.takeWhile_cons_of_pos (by simp [ha]), List.length_cons]
      omega

theorem ZeroRun.le {w : List (BitVec 16)} {i m : Nat} (h : ZeroRun w i m) :
    m ≤ zeroRunLength w i :=
  le_takeWhile_zero _ fun k hk => by rw [List.getElem?_drop]; exact h k hk

theorem zeroRun_length (w : List (BitVec 16)) (i : Nat) : ZeroRun w i (zeroRunLength w i) := by
  intro k hk
  rw [← List.getElem?_drop]
  exact takeWhile_zero _ hk

/-- What `zeroRunStart` and `zeroRunEnd` are after `t` turns. -/
inductive BestSoFar (w : List (BitVec 16)) (t : Nat) : Nat × Nat → Prop where
  | none (single : ∀ i m, ZeroRun w i m → i < t → m ≤ 1) : BestSoFar w t (0, 0)
  | some {s n : Nat} (two : 2 ≤ n) (run : ZeroRun w s n)
    (longest : ∀ i m, ZeroRun w i m → i < t → m ≤ n ∧ (i < s → m < n)) (before : s < t) :
    BestSoFar w t (s, s + n)

theorem bestSoFar_turn {w : List (BitVec 16)} {t : Nat} {r : Nat × Nat} (h : BestSoFar w t r) :
    BestSoFar w (t + 1) (zeroRunTurn w r t) := by
  have hrun := zeroRun_length w t
  unfold zeroRunTurn
  cases h with
  | none single =>
    split
    · rename_i hn
      refine .some (by omega) hrun ?_ (by omega)
      intro i m hm hi
      rcases Nat.lt_or_ge i t with hlt | hge
      · have := single i m hm hlt
        omega
      · obtain rfl : i = t := by omega
        exact ⟨hm.le, fun h => by omega⟩
    · rename_i hn
      refine .none ?_
      intro i m hm hi
      rcases Nat.lt_or_ge i t with hlt | hge
      · exact single i m hm hlt
      · obtain rfl : i = t := by omega
        have := hm.le
        omega
  | @some s n two run longest before =>
    split
    · rename_i hn
      refine .some (by omega) hrun ?_ (by omega)
      intro i m hm hi
      rcases Nat.lt_or_ge i t with hlt | hge
      · have := (longest i m hm hlt).1
        omega
      · obtain rfl : i = t := by omega
        exact ⟨hm.le, fun h => by omega⟩
    · rename_i hn
      refine .some two run ?_ (by omega)
      intro i m hm hi
      rcases Nat.lt_or_ge i t with hlt | hge
      · exact longest i m hm hlt
      · obtain rfl : i = t := by omega
        have := hm.le
        exact ⟨by omega, fun h => by omega⟩

theorem bestSoFar_all (w : List (BitVec 16)) : BestSoFar w 8 (bestZeroRun w) := by
  have start : BestSoFar w 0 (0, 0) := .none fun i m _ hi => by omega
  unfold bestZeroRun
  generalize 8 = t
  induction t with
  | zero => exact start
  | succ t ih =>
    rw [List.range_succ, List.foldl_append, List.foldl_cons, List.foldl_nil]
    exact bestSoFar_turn ih

/-! ## The text -/

theorem colons_cons (g : List UInt8) (gs : List (List UInt8)) :
    colons (g :: gs) = g ++ gs.flatMap (COLON :: ·) := by
  induction gs generalizing g with
  | nil => simp [colons]
  | cons a gs ih =>
    have : colons (g :: a :: gs) = g ++ COLON :: colons (a :: gs) := rfl
    rw [this, ih]
    simp

/-- The loop where there are no more zeros to be skipped. -/
theorem formatLoop_rest {w : List (BitVec 16)} (hw : w.length = 8) {s e : Nat} (n i : Nat)
    (hi : 0 < i) (hn : 8 ≤ n + i) (past : e ≤ i) :
    formatLoop w s e n i = ((w.drop i).map hex).flatMap (COLON :: ·) := by
  induction n generalizing i with
  | zero => rw [List.drop_eq_nil_of_le (by omega)]; rfl
  | succ n ih =>
    rw [formatLoop]
    split
    · rename_i h8
      have hg : w.getD i 0 = w[i] := by simp [List.getElem?_eq_getElem (by omega : i < w.length)]
      rw [if_neg (by omega), ih (i + 1) (by omega) (by omega) (by omega), hg,
        List.drop_eq_getElem_cons (by omega : i < w.length), List.map_cons, List.flatMap_cons]
      rfl
    · rw [List.drop_eq_nil_of_le (by omega)]; rfl

/-- The loop up to the zeros that are skipped. -/
theorem formatLoop_front {w : List (BitVec 16)} (hw : w.length = 8) {s e : Nat} (n i : Nat)
    (hi : 0 < i) (hn : 8 ≤ n + i) (before : i ≤ s) (run : s < e) (he : e ≤ 8) :
    formatLoop w s e n i = (((w.take s).drop i).map hex).flatMap (COLON :: ·) ++
      COLON :: ((w.drop e).map hex).flatMap (COLON :: ·) := by
  induction n generalizing i with
  | zero => omega
  | succ n ih =>
    rw [formatLoop, if_pos (by omega)]
    split
    · obtain rfl : i = s := by omega
      rw [List.drop_eq_nil_of_le (by simp), formatLoop_rest hw n e (by omega) (by omega) (by omega)]
      rfl
    · have hs : i < (w.take s).length := by simp; omega
      have hg : w.getD i 0 = (w.take s)[i] := by
        simp [List.getElem?_eq_getElem (by omega : i < w.length)]
      rw [ih (i + 1) (by omega) (by omega) (by omega), hg, List.drop_eq_getElem_cons hs,
        List.map_cons, List.flatMap_cons]
      simp

/-- A separator in front of each group. -/
theorem separated_groups (gs : List (List UInt8)) :
    gs.flatMap (COLON :: ·) ++ (if gs = [] then [COLON] else []) = COLON :: colons gs := by
  cases gs with
  | nil => rfl
  | cons g gs => simp [colons_cons]

theorem format_full {w : List (BitVec 16)} (hw : w.length = 8) :
    formatLoop w 0 0 8 0 = colons (w.map hex) := by
  obtain ⟨a, l, rfl⟩ := List.exists_cons_of_length_pos (by omega : 0 < w.length)
  rw [formatLoop, if_pos (by omega), if_neg (by omega),
    formatLoop_rest hw 7 1 (by omega) (by omega) (by omega), List.map_cons, colons_cons]
  rfl

theorem format_gap {w : List (BitVec 16)} (hw : w.length = 8) {s e : Nat} (run : s < e)
    (he : e ≤ 8) :
    formatLoop w s e 8 0 ++ (if e = 8 then [COLON] else []) =
      colons ((w.take s).map hex) ++ GAP ++ colons ((w.drop e).map hex) := by
  have behind : ((w.drop e).map hex).flatMap (COLON :: ·) ++ (if e = 8 then [COLON] else []) =
      COLON :: colons ((w.drop e).map hex) := by
    rw [← separated_groups]
    congr 1
    by_cases h8 : e = 8
    · rw [if_pos h8, if_pos (by simp; omega)]
    · rw [if_neg h8, if_neg (by simp; omega)]
  rw [formatLoop, if_pos (by omega)]
  split
  · obtain rfl : s = 0 := by omega
    rw [formatLoop_rest hw 7 e (by omega) (by omega) (by omega), List.cons_append, behind]
    rfl
  · obtain ⟨a, l, rfl⟩ := List.exists_cons_of_length_pos (by omega : 0 < w.length)
    obtain ⟨s, rfl⟩ : ∃ t, s = t + 1 := ⟨s - 1, by omega⟩
    rw [formatLoop_front hw 7 1 (by omega) (by omega) (by omega) run he, List.append_assoc,
      List.append_assoc, List.append_assoc, List.cons_append, behind, List.take_succ_cons,
      List.map_cons, colons_cons]
    simp [GAP]

/-- A run of zeros and what surrounds it. -/
theorem zeroRun_split {w : List (BitVec 16)} {s n : Nat} (h : ZeroRun w s n) (hn : 0 < n) :
    w = w.take s ++ List.replicate n 0 ++ w.drop (s + n) := by
  have inside : s + n ≤ w.length := by
    have := h (n - 1) (by omega)
    have := (List.getElem?_eq_some_iff.mp this).1
    omega
  apply List.ext_getElem?
  intro k
  rcases Nat.lt_or_ge k s with hs | hs
  · rw [List.append_assoc, List.getElem?_append_left (by simp; omega), List.getElem?_take_of_lt hs]
  rcases Nat.lt_or_ge k (s + n) with hk | hk
  · rw [List.getElem?_append_left (by simp; omega), List.getElem?_append_right (by simp; omega),
      List.getElem?_replicate, if_pos (by simp; omega)]
    have := h (k - s) (by omega)
    rwa [Nat.add_sub_cancel' hs] at this
  · rw [List.getElem?_append_right (by simp; omega), List.getElem?_drop]
    congr 1
    simp; omega

/-- The text of an address, as it is put together. -/
inductive Printed (w : List (BitVec 16)) : List UInt8 → Prop where
  | full (single : ∀ i m, ZeroRun w i m → m ≤ 1) : Printed w (colons (w.map hex))
  | gap {us vs : List (BitVec 16)} {n : Nat} (split : w = us ++ List.replicate n 0 ++ vs)
    (two : 2 ≤ n) (longest : ∀ i m, ZeroRun w i m → m ≤ n ∧ (i < us.length → m < n)) :
    Printed w (colons (us.map hex) ++ GAP ++ colons (vs.map hex))

theorem ZeroRun.index_lt {w : List (BitVec 16)} {i m : Nat} (h : ZeroRun w i (m + 1)) :
    i < w.length := by
  have := (List.getElem?_eq_some_iff.mp (h 0 (by omega))).1
  omega

theorem ipv6AddrToString_printed (a : Ipv6Addr) : Printed (ipv6Words a) (ipv6AddrToString a) := by
  have hs : ipv6AddrToString a = formatLoop (ipv6Words a) (bestZeroRun (ipv6Words a)).1
      (bestZeroRun (ipv6Words a)).2 8 0 ++
        if (bestZeroRun (ipv6Words a)).2 = 8 then [COLON] else [] := rfl
  rw [hs]
  have hw : (ipv6Words a).length = 8 := rfl
  have hbest := bestSoFar_all (ipv6Words a)
  generalize bestZeroRun (ipv6Words a) = r at hbest
  generalize ipv6Words a = w at hw hbest
  cases hbest with
  | none single =>
    rw [if_neg (by omega), List.append_nil, format_full hw]
    refine .full ?_
    intro i m hm
    cases m with
    | zero => omega
    | succ m => exact single i _ hm (by have := hm.index_lt; omega)
  | @some s n two run longest before =>
    have hsplit := zeroRun_split run (by omega)
    have hlen : (w.take s).length = s := by simp; omega
    have hin : s + n ≤ 8 := by
      have := congrArg List.length hsplit
      simp at this; omega
    rw [format_gap hw (by omega) hin]
    refine .gap hsplit two ?_
    intro i m hm
    rw [hlen]
    cases m with
    | zero => omega
    | succ m => exact longest i _ hm (by have := hm.index_lt; omega)

theorem Printed.rfc5952 {w : List (BitVec 16)} {s : List UInt8} (h : Printed w s) : Rfc5952 w s := by
  cases h with
  | full single => exact .full (canonical_groups w) single
  | gap split two longest =>
    subst split
    exact .gap (canonical_groups _) (canonical_groups _) two longest

theorem length_colons (ws : List (BitVec 16)) :
    (colons (ws.map hex)).length ≤ 5 * ws.length - 1 := by
  have separated : ∀ ws : List (BitVec 16),
      ((ws.map hex).flatMap (COLON :: ·)).length ≤ 5 * ws.length := by
    intro ws
    induction ws with
    | nil => simp
    | cons w ws ih =>
      have := (canonical_hex w).short
      rw [List.map_cons, List.flatMap_cons, List.length_append, List.length_cons,
        List.length_cons]
      omega
  cases ws with
  | nil => simp [colons]
  | cons w ws =>
    have := (canonical_hex w).short
    have := separated ws
    rw [List.map_cons, colons_cons, List.length_append, List.length_cons]
    omega

theorem Printed.length_le {w : List (BitVec 16)} (hw : w.length = 8) {s : List UInt8}
    (h : Printed w s) : s.length ≤ 39 := by
  cases h with
  | full single =>
    have := length_colons w
    omega
  | @gap us vs n split two longest =>
    have hlen := congrArg List.length split
    have := length_colons us
    have := length_colons vs
    simp [GAP] at hlen ⊢
    omega

/-! ## The way back -/

theorem addr_of_holds {m : Ipv6Words} {a : Ipv6Addr} (h : m.Holds (ipv6Words a)) : m.addr = a := by
  have hw : ∀ k v, (ipv6Words a)[k]? = some v → m.word k = v := h.2
  unfold Ipv6Words.addr
  rw [hw 0 _ rfl, hw 1 _ rfl, hw 2 _ rfl, hw 3 _ rfl, hw 4 _ rfl, hw 5 _ rfl, hw 6 _ rfl,
    hw 7 _ rfl]
  have join {s t n : Nat} (h : s = t + 16) : a.extractLsb' s n ++ a.extractLsb' t 16 =
      a.extractLsb' t (n + 16) := BitVec.extractLsb'_append_extractLsb'_eq_extractLsb' h
  have h1 : a.extractLsb' 112 16 ++ a.extractLsb' 96 16 = a.extractLsb' 96 32 := join rfl
  have h2 : a.extractLsb' 96 32 ++ a.extractLsb' 80 16 = a.extractLsb' 80 48 := join rfl
  have h3 : a.extractLsb' 80 48 ++ a.extractLsb' 64 16 = a.extractLsb' 64 64 := join rfl
  have h4 : a.extractLsb' 64 64 ++ a.extractLsb' 48 16 = a.extractLsb' 48 80 := join rfl
  have h5 : a.extractLsb' 48 80 ++ a.extractLsb' 32 16 = a.extractLsb' 32 96 := join rfl
  have h6 : a.extractLsb' 32 96 ++ a.extractLsb' 16 16 = a.extractLsb' 16 112 := join rfl
  have h7 : a.extractLsb' 16 112 ++ a.extractLsb' 0 16 = a.extractLsb' 0 128 := join rfl
  rw [h1, h2, h3, h4, h5, h6, h7]
  exact BitVec.extractLsb'_eq_self

theorem parse_printed (a : Ipv6Addr) (word : Nat → BitVec 16) :
    (ipv6StringToAddr (ipv6AddrToString a) word).1 = .NO_ERROR ∧
      (ipv6StringToAddr (ipv6AddrToString a) word).2.addr = a := by
  have hp := ipv6AddrToString_printed a
  have parsed : (ipv6StringToAddr (ipv6AddrToString a) word).1 = .NO_ERROR ∧
      (ipv6StringToAddr (ipv6AddrToString a) word).2.Holds (ipv6Words a) := by
    have hw : (ipv6Words a).length = 8 := rfl
    generalize ipv6AddrToString a = s at hp
    generalize ipv6Words a = w at hp hw
    cases hp with
    | full single => exact parse_full (groups_hex w) hw word
    | @gap us vs n split two longest =>
      have hlen := congrArg List.length split
      simp at hlen
      have hg : gapped us vs = w := by
        rw [split, gapped, show 8 - (us.length + vs.length) = n by omega]
      have := parse_gapped (groups_hex us) (groups_hex vs) (by omega) (by omega) word
      rwa [hg] at this
  exact ⟨parsed.1, addr_of_holds parsed.2⟩

/-- Every address is printed in the recommended form, in at most 39 characters, and read back. No
two addresses have the same text. -/
theorem ipv6_text_round_trip (a : Ipv6Addr) (word : Nat → BitVec 16) :
    (ipv6AddrToString a).length ≤ 39 ∧ Rfc5952 (ipv6Words a) (ipv6AddrToString a) ∧
      (ipv6StringToAddr (ipv6AddrToString a) word).1 = .NO_ERROR ∧
      (ipv6StringToAddr (ipv6AddrToString a) word).2.addr = a ∧
      ∀ b, ipv6AddrToString b = ipv6AddrToString a → b = a := by
  have hp := ipv6AddrToString_printed a
  obtain ⟨hok, haddr⟩ := parse_printed a word
  refine ⟨hp.length_le rfl, hp.rfc5952, hok, haddr, ?_⟩
  intro b hb
  have := (parse_printed b word).2
  rw [hb, haddr] at this
  exact this.symm

end Cyclone
