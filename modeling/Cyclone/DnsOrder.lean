import Cyclone.DnsNames

/-!
# Cyclone.DnsOrder

The order of encoded names: `dnsCompareEncodedName` (`dns_common.c`), which mDNS hosts use to break
ties.

* `Encoded`: the labels of an encoded name, and how many pointers stand before each of them and
  before the end marker.
* `OrderSlip`: the pairs of names the comparison gets wrong.
* `dnsCompareEncodedName_iff`: it finds two names equal exactly when they are, but for these; and
  it is an order.
-/

namespace Cyclone

/-- Where a name goes on: behind a compression tag, or where it is. -/
def nextPos (p : List UInt8) (pos : Nat) (n : UInt8) : Option Nat :=
  if n ≥ DNS_COMPRESSION_TAG then
    match p[pos + 1]? with
    | none => none
    | some lo => some (namePointer n lo)
  else some pos

def dnsCompareEncodedName (p1 : List UInt8) (pos1 : Nat) (p2 : List UInt8) (pos2 level : Nat) :
    Int :=
  if level ≥ DNS_NAME_MAX_RECURSION then -2
  else
    match _h : p1[pos1]?, p2[pos2]? with
    | some n1, some n2 =>
      if n1 = 0 ∨ n2 = 0 then
        if n1 < n2 then -1 else if n1 > n2 then 1 else 0
      else if n1 ≥ DNS_COMPRESSION_TAG ∨ n2 ≥ DNS_COMPRESSION_TAG then
        match nextPos p1 pos1 n1, nextPos p2 pos2 n2 with
        | some pointer1, some pointer2 =>
          dnsCompareEncodedName p1 pointer1 p2 pointer2 (level + 1)
        | _, _ => -2
      else if pos1 + 1 + n1.toNat > p1.length ∨ pos2 + 1 + n2.toNat > p2.length then -2
      else
        let n := min n1.toNat n2.toNat
        let res := strncasecmp ((p1.drop (pos1 + 1)).take n) ((p2.drop (pos2 + 1)).take n)
        if res ≠ 0 then res
        else if n1 < n2 then -1
        else if n1 > n2 then 1
        else dnsCompareEncodedName p1 (pos1 + 1 + n1.toNat) p2 (pos2 + 1 + n2.toNat) level
    | _, _ => -2
termination_by (DNS_NAME_MAX_RECURSION - level, p1.length - pos1)
decreasing_by
  · exact Prod.Lex.left _ _ (by omega)
  · have := (List.getElem?_eq_some_iff.mp _h).1
    exact Prod.Lex.right _ (by omega)

/-! ## Encoded names -/

/-- The labels of a name, each with the number of pointers before it, and the number of pointers
before the end marker. -/
structure Shape where
  labels : List (Nat × List UInt8)
  last : Nat
  deriving DecidableEq, Repr

/-- A pointer to a name. -/
def Shape.behindPointer : Shape → Shape
  | ⟨[], last⟩ => ⟨[], last + 1⟩
  | ⟨(k, label) :: labels, last⟩ => ⟨(k + 1, label) :: labels, last⟩

/-- A label before a name. -/
def Shape.behindLabel (label : List UInt8) (s : Shape) : Shape := ⟨(0, label) :: s.labels, s.last⟩

/-- A name that ends with an end marker, however many pointers it takes. -/
inductive Encoded (p : List UInt8) : Nat → Shape → Prop
  | root {pos : Nat} (hb : p[pos]? = some 0) : Encoded p pos ⟨[], 0⟩
  | pointer {pos : Nat} {b lo : UInt8} {s : Shape} (hb : p[pos]? = some b)
      (htag : b ≥ DNS_COMPRESSION_TAG) (hlo : p[pos + 1]? = some lo)
      (h : Encoded p (namePointer b lo) s) : Encoded p pos s.behindPointer
  | label {pos : Nat} {b : UInt8} {s : Shape} (hb : p[pos]? = some b) (h0 : b ≠ 0)
      (htag : ¬ b ≥ DNS_COMPRESSION_TAG) (hlen : ¬ pos + 1 + b.toNat > p.length)
      (h : Encoded p (pos + 1 + b.toNat) s) :
      Encoded p pos (s.behindLabel ((p.drop (pos + 1)).take b.toNat))

/-- The comparison of two labels. -/
def compareLabels (l1 l2 : List UInt8) : Int :=
  let n := min l1.length l2.length
  if strncasecmp (l1.take n) (l2.take n) ≠ 0 then strncasecmp (l1.take n) (l2.take n)
  else if l1.length < l2.length then -1
  else if l1.length > l2.length then 1
  else 0

/-- What the comparison makes of two names; `none` when the pointers of both together are too
many. -/
def compareShapes : Nat → Shape → Shape → Option Int
  | level, ⟨[], d1⟩, ⟨[], d2⟩ =>
    if level + min d1 d2 ≥ DNS_NAME_MAX_RECURSION then none
    else some (if d1 < d2 then -1 else if d1 > d2 then 1 else 0)
  | level, ⟨[], d1⟩, ⟨_ :: _, _⟩ => if level + d1 ≥ DNS_NAME_MAX_RECURSION then none else some (-1)
  | level, ⟨_ :: _, _⟩, ⟨[], d2⟩ => if level + d2 ≥ DNS_NAME_MAX_RECURSION then none else some 1
  | level, ⟨(k1, l1) :: s1, d1⟩, ⟨(k2, l2) :: s2, d2⟩ =>
    if level + max k1 k2 ≥ DNS_NAME_MAX_RECURSION then none
    else if compareLabels l1 l2 ≠ 0 then some (compareLabels l1 l2)
    else compareShapes (level + max k1 k2) ⟨s1, d1⟩ ⟨s2, d2⟩

section Shapes

variable {level : Nat} {s1 s2 : Shape} {l1 l2 : List UInt8}

theorem compareShapes_over (h : level ≥ DNS_NAME_MAX_RECURSION) :
    compareShapes level s1 s2 = none := by
  obtain ⟨_ | ⟨⟨k1, l1⟩, r1⟩, d1⟩ := s1 <;> obtain ⟨_ | ⟨⟨k2, l2⟩, r2⟩, d2⟩ := s2
  · rw [compareShapes, if_pos (by omega)]
  · rw [compareShapes, if_pos (by omega)]
  · rw [compareShapes, if_pos (by omega)]
  · rw [compareShapes, if_pos (by omega)]

/-- The end marker comes first. -/
theorem compareShapes_root (h : ¬ level ≥ DNS_NAME_MAX_RECURSION) :
    compareShapes level ⟨[], 0⟩ s2 = some (if s2 = ⟨[], 0⟩ then 0 else -1) := by
  obtain ⟨_ | ⟨⟨k2, l2⟩, r2⟩, d2⟩ := s2
  · rw [compareShapes, if_neg (by omega)]
    cases d2 with
    | zero => simp
    | succ d2 => simp
  · rw [compareShapes, if_neg (by omega), if_neg (by simp)]

theorem compareShapes_root_right (h : ¬ level ≥ DNS_NAME_MAX_RECURSION) :
    compareShapes level s1 ⟨[], 0⟩ = some (if s1 = ⟨[], 0⟩ then 0 else 1) := by
  obtain ⟨_ | ⟨⟨k1, l1⟩, r1⟩, d1⟩ := s1
  · rw [compareShapes, if_neg (by omega)]
    cases d1 with
    | zero => simp
    | succ d1 => simp
  · rw [compareShapes, if_neg (by omega), if_neg (by simp)]

/-- Pointers that face each other are followed together. -/
theorem compareShapes_pointers :
    compareShapes level s1.behindPointer s2.behindPointer = compareShapes (level + 1) s1 s2 := by
  have hlevel (n : Nat) : level + 1 + n = level + (n + 1) := by omega
  obtain ⟨_ | ⟨⟨k1, l1⟩, r1⟩, d1⟩ := s1 <;> obtain ⟨_ | ⟨⟨k2, l2⟩, r2⟩, d2⟩ := s2
  · simp only [Shape.behindPointer, compareShapes, Nat.add_min_add_right, Nat.add_lt_add_iff_right,
      gt_iff_lt, hlevel]
  · simp only [Shape.behindPointer, compareShapes, hlevel]
  · simp only [Shape.behindPointer, compareShapes, hlevel]
  · simp only [Shape.behindPointer, compareShapes, Nat.add_max_add_right, hlevel]

/-- A pointer that faces a label is followed alone. -/
theorem compareShapes_pointer_label :
    compareShapes level s1.behindPointer (s2.behindLabel l2) =
      compareShapes (level + 1) s1 (s2.behindLabel l2) := by
  have hlevel (n : Nat) : level + 1 + n = level + (n + 1) := by omega
  obtain ⟨_ | ⟨⟨k1, l1⟩, r1⟩, d1⟩ := s1
  · simp only [Shape.behindPointer, Shape.behindLabel, compareShapes, hlevel]
  · simp only [Shape.behindPointer, Shape.behindLabel, compareShapes, Nat.max_zero, hlevel]

theorem compareShapes_label_pointer :
    compareShapes level (s1.behindLabel l1) s2.behindPointer =
      compareShapes (level + 1) (s1.behindLabel l1) s2 := by
  have hlevel (n : Nat) : level + 1 + n = level + (n + 1) := by omega
  obtain ⟨_ | ⟨⟨k2, l2⟩, r2⟩, d2⟩ := s2
  · simp only [Shape.behindPointer, Shape.behindLabel, compareShapes, hlevel]
  · simp only [Shape.behindPointer, Shape.behindLabel, compareShapes, Nat.zero_max, hlevel]

theorem compareShapes_labels (h : ¬ level ≥ DNS_NAME_MAX_RECURSION) :
    compareShapes level (s1.behindLabel l1) (s2.behindLabel l2) =
      if compareLabels l1 l2 ≠ 0 then some (compareLabels l1 l2)
      else compareShapes level s1 s2 := by
  simp only [Shape.behindLabel, compareShapes, Nat.max_zero, Nat.add_zero]
  rw [if_neg h]

end Shapes

theorem behindPointer_ne (s : Shape) : s.behindPointer ≠ ⟨[], 0⟩ := by
  obtain ⟨_ | ⟨⟨k, l⟩, r⟩, d⟩ := s
  · simp [Shape.behindPointer]
  · simp [Shape.behindPointer]

theorem behindLabel_ne (l : List UInt8) (s : Shape) : s.behindLabel l ≠ ⟨[], 0⟩ := by
  simp [Shape.behindLabel]

/-- What the first byte says about an encoded name. -/
theorem Encoded.cases_byte {p : List UInt8} {pos : Nat} {s : Shape} {b : UInt8}
    (h : Encoded p pos s) (hb : p[pos]? = some b) :
    (b = 0 ∧ s = ⟨[], 0⟩) ∨
      (b ≥ DNS_COMPRESSION_TAG ∧ ∃ q s', nextPos p pos b = some q ∧ Encoded p q s' ∧
        s = s'.behindPointer) ∨
      (b ≠ 0 ∧ ¬ b ≥ DNS_COMPRESSION_TAG ∧ ¬ pos + 1 + b.toNat > p.length ∧
        ∃ s', Encoded p (pos + 1 + b.toNat) s' ∧
          s = s'.behindLabel ((p.drop (pos + 1)).take b.toNat)) := by
  cases h with
  | root h0 =>
    rw [hb] at h0
    exact .inl ⟨Option.some.inj h0, rfl⟩
  | pointer hb' htag hlo hs =>
    obtain rfl := Option.some.inj (hb.symm.trans hb')
    refine .inr (.inl ⟨htag, _, _, ?_, hs, rfl⟩)
    rw [nextPos, if_pos htag, hlo]
  | label hb' h0 htag hlen hs =>
    obtain rfl := Option.some.inj (hb.symm.trans hb')
    exact .inr (.inr ⟨h0, htag, hlen, _, hs, rfl⟩)

theorem Encoded.first {p : List UInt8} {pos : Nat} {s : Shape} (h : Encoded p pos s) :
    ∃ b, p[pos]? = some b := by
  cases h with
  | root hb => exact ⟨_, hb⟩
  | pointer hb => exact ⟨_, hb⟩
  | label hb => exact ⟨_, hb⟩

theorem tag_ne_zero {b : UInt8} (h : b ≥ DNS_COMPRESSION_TAG) : b ≠ 0 := by
  rintro rfl
  exact absurd h (by decide)

theorem Encoded.zero {p : List UInt8} {pos : Nat} {s : Shape} (h : Encoded p pos s)
    (hb : p[pos]? = some 0) : s = ⟨[], 0⟩ := by
  rcases h.cases_byte hb with ⟨-, rfl⟩ | ⟨htag, -⟩ | ⟨h0, -⟩
  · rfl
  · exact absurd rfl (tag_ne_zero htag)
  · exact absurd rfl h0

theorem Encoded.nonzero {p : List UInt8} {pos : Nat} {s : Shape} {b : UInt8}
    (h : Encoded p pos s) (hb : p[pos]? = some b) (h0 : b ≠ 0) : s ≠ ⟨[], 0⟩ := by
  rcases h.cases_byte hb with ⟨hz, -⟩ | ⟨-, q, s', -, -, rfl⟩ | ⟨-, -, -, s', -, rfl⟩
  · exact absurd hz h0
  · exact behindPointer_ne s'
  · exact behindLabel_ne _ s'

/-- The comparison of two labels in messages. -/
theorem compareLabels_taken {p1 p2 : List UInt8} {pos1 pos2 n1 n2 : Nat}
    (h1 : ¬ pos1 + 1 + n1 > p1.length) (h2 : ¬ pos2 + 1 + n2 > p2.length) :
    compareLabels ((p1.drop (pos1 + 1)).take n1) ((p2.drop (pos2 + 1)).take n2) =
      if strncasecmp ((p1.drop (pos1 + 1)).take (min n1 n2))
          ((p2.drop (pos2 + 1)).take (min n1 n2)) ≠ 0 then
        strncasecmp ((p1.drop (pos1 + 1)).take (min n1 n2))
          ((p2.drop (pos2 + 1)).take (min n1 n2))
      else if n1 < n2 then -1 else if n1 > n2 then 1 else 0 := by
  unfold compareLabels
  simp only [length_label h1, length_label h2, List.take_take]
  rw [min_eq_left (min_le_left n1 n2), min_eq_left (min_le_right n1 n2)]

/-- Two pointers, or a pointer and a label, are followed. -/
theorem compareShapes_next {p1 p2 : List UInt8} {pos1 pos2 : Nat} (level : Nat) {n1 n2 : UInt8}
    {s1 s2 : Shape} (h1 : Encoded p1 pos1 s1) (h2 : Encoded p2 pos2 s2)
    (hb1 : p1[pos1]? = some n1) (hb2 : p2[pos2]? = some n2) (h0 : ¬ (n1 = 0 ∨ n2 = 0))
    (htag : n1 ≥ DNS_COMPRESSION_TAG ∨ n2 ≥ DNS_COMPRESSION_TAG) :
    ∃ q1 q2 t1 t2, nextPos p1 pos1 n1 = some q1 ∧ nextPos p2 pos2 n2 = some q2 ∧
      Encoded p1 q1 t1 ∧ Encoded p2 q2 t2 ∧
      compareShapes level s1 s2 = compareShapes (level + 1) t1 t2 := by
  have hstay {p : List UInt8} {pos : Nat} {n : UInt8} (h : ¬ n ≥ DNS_COMPRESSION_TAG) :
      nextPos p pos n = some pos := if_neg h
  rcases h1.cases_byte hb1 with ⟨hz, -⟩ | ⟨-, q1, t1, hq1, ht1, rfl⟩ | ⟨-, hn1, -, t1, -, hs1⟩
  · exact absurd (.inl hz) h0
  · rcases h2.cases_byte hb2 with ⟨hz, -⟩ | ⟨-, q2, t2, hq2, ht2, rfl⟩ | ⟨-, hn2, -, t2, -, hs2⟩
    · exact absurd (.inr hz) h0
    · exact ⟨q1, q2, t1, t2, hq1, hq2, ht1, ht2, compareShapes_pointers⟩
    · refine ⟨q1, pos2, t1, s2, hq1, hstay hn2, ht1, h2, ?_⟩
      rw [hs2]
      exact compareShapes_pointer_label
  · rcases h2.cases_byte hb2 with ⟨hz, -⟩ | ⟨-, q2, t2, hq2, ht2, rfl⟩ | ⟨-, hn2, -⟩
    · exact absurd (.inr hz) h0
    · refine ⟨pos1, q2, s1, t2, hstay hn1, hq2, h1, ht2, ?_⟩
      rw [hs1]
      exact compareShapes_label_pointer
    · exact absurd htag (by simp [hn1, hn2])

/-- Two labels that face each other. -/
theorem compareShapes_at_labels {p1 p2 : List UInt8} {pos1 pos2 : Nat} {n1 n2 : UInt8}
    {s1 s2 : Shape} (h1 : Encoded p1 pos1 s1) (h2 : Encoded p2 pos2 s2)
    (hb1 : p1[pos1]? = some n1) (hb2 : p2[pos2]? = some n2) (h0 : ¬ (n1 = 0 ∨ n2 = 0))
    (htag : ¬ (n1 ≥ DNS_COMPRESSION_TAG ∨ n2 ≥ DNS_COMPRESSION_TAG)) :
    ∃ t1 t2, ¬ pos1 + 1 + n1.toNat > p1.length ∧ ¬ pos2 + 1 + n2.toNat > p2.length ∧
      Encoded p1 (pos1 + 1 + n1.toNat) t1 ∧ Encoded p2 (pos2 + 1 + n2.toNat) t2 ∧
      s1 = t1.behindLabel ((p1.drop (pos1 + 1)).take n1.toNat) ∧
      s2 = t2.behindLabel ((p2.drop (pos2 + 1)).take n2.toNat) := by
  rcases h1.cases_byte hb1 with ⟨hz, -⟩ | ⟨ht, -⟩ | ⟨-, -, hlen1, t1, ht1, hs1⟩
  · exact absurd (.inl hz) h0
  · exact absurd (.inl ht) htag
  rcases h2.cases_byte hb2 with ⟨hz, -⟩ | ⟨ht, -⟩ | ⟨-, -, hlen2, t2, ht2, hs2⟩
  · exact absurd (.inr hz) h0
  · exact absurd (.inr ht) htag
  exact ⟨t1, t2, hlen1, hlen2, ht1, ht2, hs1, hs2⟩

/-- The comparison of two encoded names. -/
theorem dnsCompareEncodedName_shapes {p1 p2 : List UInt8} {pos1 pos2 level : Nat} {s1 s2 : Shape}
    (h1 : Encoded p1 pos1 s1) (h2 : Encoded p2 pos2 s2) :
    dnsCompareEncodedName p1 pos1 p2 pos2 level = (compareShapes level s1 s2).getD (-2) := by
  fun_induction dnsCompareEncodedName p1 pos1 p2 pos2 level generalizing s1 s2 with
  | case1 pos1 pos2 level hl => rw [compareShapes_over hl]; rfl
  | case2 pos1 pos2 level hl n1 n2 hb1 hb2 hzero hlt =>
    have hn2 : n2 ≠ 0 := by
      rintro rfl
      exact absurd hlt (by simp)
    obtain rfl : n1 = 0 := hzero.resolve_right hn2
    rw [h1.zero hb1, compareShapes_root hl, if_neg (h2.nonzero hb2 hn2)]
    rfl
  | case3 pos1 pos2 level hl n1 n2 hb1 hb2 hzero hlt hgt =>
    have hn1 : n1 ≠ 0 := by
      rintro rfl
      exact absurd hgt (by simp)
    obtain rfl : n2 = 0 := hzero.resolve_left hn1
    rw [h2.zero hb2, compareShapes_root_right hl, if_neg (h1.nonzero hb1 hn1)]
    rfl
  | case4 pos1 pos2 level hl n1 n2 hb1 hb2 hzero hlt hgt =>
    obtain rfl : n1 = n2 := by
      exact UInt8.le_antisymm (UInt8.not_lt.mp hgt) (UInt8.not_lt.mp hlt)
    obtain rfl : n1 = 0 := hzero.elim id id
    rw [h1.zero hb1, h2.zero hb2, compareShapes_root hl, if_pos rfl]
    rfl
  | case5 pos1 pos2 level hl n1 n2 hb1 hb2 h0 htag q1 q2 hq2 hq1 ih =>
    obtain ⟨q1', q2', t1, t2, hq1', hq2', ht1, ht2, hsame⟩ :=
      compareShapes_next level h1 h2 hb1 hb2 h0 htag
    obtain rfl := Option.some.inj (hq1.symm.trans hq1')
    obtain rfl := Option.some.inj (hq2.symm.trans hq2')
    rw [hsame]
    exact ih ht1 ht2
  | case6 pos1 pos2 level hl n1 n2 hb1 hb2 h0 htag hnone =>
    obtain ⟨q1, q2, -, -, hq1, hq2, -⟩ :=
      compareShapes_next level h1 h2 hb1 hb2 h0 htag
    exact absurd hq2 (hnone q1 q2 hq1)
  | case7 pos1 pos2 level hl n1 n2 hb1 hb2 h0 htag hlen =>
    obtain ⟨t1, t2, hlen1, hlen2, -⟩ := compareShapes_at_labels h1 h2 hb1 hb2 h0 htag
    exact absurd hlen (by simp only [not_or]; exact ⟨hlen1, hlen2⟩)
  | case8 pos1 pos2 level hl n1 n2 hb1 hb2 h0 htag hlen =>
    rename_i n res hres
    obtain ⟨t1, t2, hlen1, hlen2, -, -, hs1, hs2⟩ :=
      compareShapes_at_labels h1 h2 hb1 hb2 h0 htag
    have hlabels := compareLabels_taken hlen1 hlen2
    rw [if_pos hres] at hlabels
    rw [hs1, hs2, compareShapes_labels hl, hlabels, if_pos hres]
    rfl
  | case9 pos1 pos2 level hl n1 n2 hb1 hb2 h0 htag hlen =>
    rename_i n res hres hlt
    obtain ⟨t1, t2, hlen1, hlen2, -, -, hs1, hs2⟩ :=
      compareShapes_at_labels h1 h2 hb1 hb2 h0 htag
    have hlabels := compareLabels_taken hlen1 hlen2
    rw [if_neg hres, if_pos (UInt8.lt_iff_toNat_lt.mp hlt)] at hlabels
    rw [hs1, hs2, compareShapes_labels hl, hlabels, if_pos (by decide)]
    rfl
  | case10 pos1 pos2 level hl n1 n2 hb1 hb2 h0 htag hlen =>
    rename_i n res hres hlt hgt
    obtain ⟨t1, t2, hlen1, hlen2, -, -, hs1, hs2⟩ :=
      compareShapes_at_labels h1 h2 hb1 hb2 h0 htag
    have hlabels := compareLabels_taken hlen1 hlen2
    rw [if_neg hres, if_neg (fun h => hlt (UInt8.lt_iff_toNat_lt.mpr h)),
      if_pos (UInt8.lt_iff_toNat_lt.mp hgt)] at hlabels
    rw [hs1, hs2, compareShapes_labels hl, hlabels, if_pos (by decide)]
    rfl
  | case11 pos1 pos2 level hl n1 n2 hb1 hb2 h0 htag hlen =>
    rename_i n res hres hlt hgt ih
    obtain ⟨t1, t2, hlen1, hlen2, ht1, ht2, hs1, hs2⟩ :=
      compareShapes_at_labels h1 h2 hb1 hb2 h0 htag
    have hlabels := compareLabels_taken hlen1 hlen2
    rw [if_neg hres, if_neg (fun h => hlt (UInt8.lt_iff_toNat_lt.mpr h)),
      if_neg (fun h => hgt (UInt8.lt_iff_toNat_lt.mpr h))] at hlabels
    rw [hs1, hs2, compareShapes_labels hl, hlabels, if_neg (fun h => h rfl)]
    exact ih ht1 ht2
  | case12 pos1 pos2 level hl hnone =>
    -- An encoded name has a first byte.
    obtain ⟨b1, hb1⟩ := h1.first
    obtain ⟨b2, hb2⟩ := h2.first
    exact absurd hb2 (hnone b1 b2 hb1)

theorem Encoded.from_next {p : List UInt8} {pos q : Nat} {n : UInt8} {s : Shape}
    (h : Encoded p q s) (hb : p[pos]? = some n) (hq : nextPos p pos n = some q) :
    ∃ s', Encoded p pos s' := by
  unfold nextPos at hq
  split_ifs at hq with htag
  · cases hlo : p[pos + 1]? with
    | none => rw [hlo] at hq; cases hq
    | some lo =>
      rw [hlo] at hq
      cases hq
      exact ⟨_, .pointer hb htag hlo h⟩
  · cases hq
    exact ⟨s, h⟩

/-- Names found equal are encoded names. -/
theorem encoded_of_zero {p1 p2 : List UInt8} {pos1 pos2 level : Nat}
    (h : dnsCompareEncodedName p1 pos1 p2 pos2 level = 0) :
    (∃ s1, Encoded p1 pos1 s1) ∧ ∃ s2, Encoded p2 pos2 s2 := by
  fun_induction dnsCompareEncodedName p1 pos1 p2 pos2 level with
  | case4 pos1 pos2 level hl n1 n2 hb1 hb2 hzero hlt hgt =>
    obtain rfl : n1 = n2 := UInt8.le_antisymm (UInt8.not_lt.mp hgt) (UInt8.not_lt.mp hlt)
    obtain rfl : n1 = 0 := hzero.elim id id
    exact ⟨⟨_, .root hb1⟩, _, .root hb2⟩
  | case5 pos1 pos2 level hl n1 n2 hb1 hb2 h0 htag q1 q2 hq2 hq1 ih =>
    obtain ⟨⟨s1, hs1⟩, s2, hs2⟩ := ih h
    exact ⟨hs1.from_next hb1 hq1, hs2.from_next hb2 hq2⟩
  | case8 pos1 pos2 level hl n1 n2 hb1 hb2 h0 htag hlen =>
    rename_i n res hres
    exact absurd h hres
  | case11 pos1 pos2 level hl n1 n2 hb1 hb2 h0 htag hlen =>
    rename_i n res hres hlt hgt ih
    obtain ⟨⟨s1, hs1⟩, s2, hs2⟩ := ih h
    obtain ⟨hz1, hz2⟩ := not_or.mp h0
    obtain ⟨ht1, ht2⟩ := not_or.mp htag
    obtain ⟨hlen1, hlen2⟩ := not_or.mp hlen
    exact ⟨⟨_, .label hb1 hz1 ht1 hlen1 hs1⟩, _, .label hb2 hz2 ht2 hlen2 hs2⟩
  | _ => exact absurd h (by decide)

/-! ## Swapping -/

theorem strncasecmp_swap {s1 s2 : List UInt8} (h : s1.length = s2.length) :
    strncasecmp s2 s1 = -strncasecmp s1 s2 := by
  induction s1 generalizing s2 with
  | nil =>
    obtain rfl : s2 = [] := List.length_eq_zero_iff.mp h.symm
    rfl
  | cons c s1 ih =>
    cases s2 with
    | nil => simp at h
    | cons d s2 =>
      have hlen : s1.length = s2.length := by simpa using h
      rw [strncasecmp_cons, strncasecmp_cons]
      by_cases heq : tolower c = tolower d
      · have hzero : c = 0 ↔ d = 0 := by
          rw [← tolower_eq_zero, heq, tolower_eq_zero]
        simp only [ne_eq, heq, not_true_eq_false, if_false, hzero]
        split_ifs with hd
        · rfl
        · exact ih hlen
      · rw [if_pos (fun h => heq h.symm), if_pos heq]
        omega

/-- The comparison at two bytes, below the recursion limit. -/
theorem dnsCompareEncodedName_some {p1 p2 : List UInt8} {pos1 pos2 level : Nat} {n1 n2 : UInt8}
    (hl : ¬level ≥ DNS_NAME_MAX_RECURSION) (hb1 : p1[pos1]? = some n1)
    (hb2 : p2[pos2]? = some n2) :
    dnsCompareEncodedName p1 pos1 p2 pos2 level =
      if n1 = 0 ∨ n2 = 0 then
        if n1 < n2 then -1 else if n1 > n2 then 1 else 0
      else if n1 ≥ DNS_COMPRESSION_TAG ∨ n2 ≥ DNS_COMPRESSION_TAG then
        match nextPos p1 pos1 n1, nextPos p2 pos2 n2 with
        | some pointer1, some pointer2 =>
          dnsCompareEncodedName p1 pointer1 p2 pointer2 (level + 1)
        | _, _ => -2
      else if pos1 + 1 + n1.toNat > p1.length ∨ pos2 + 1 + n2.toNat > p2.length then -2
      else
        let n := min n1.toNat n2.toNat
        let res := strncasecmp ((p1.drop (pos1 + 1)).take n) ((p2.drop (pos2 + 1)).take n)
        if res ≠ 0 then res
        else if n1 < n2 then -1
        else if n1 > n2 then 1
        else dnsCompareEncodedName p1 (pos1 + 1 + n1.toNat) p2 (pos2 + 1 + n2.toNat) level := by
  rw [dnsCompareEncodedName, if_neg hl]
  split
  · rename_i c1 c2 hc1 hc2
    obtain rfl : n1 = c1 := Option.some.inj (hb1.symm.trans hc1)
    obtain rfl : n2 = c2 := Option.some.inj (hb2.symm.trans hc2)
    rfl
  · rename_i hnone
    exact absurd hb2 (hnone n1 n2 hb1)

/-- The two labels are cut to one length before they are compared. -/
theorem strncasecmp_taken {p1 p2 : List UInt8} {pos1 pos2 n1 n2 : Nat}
    (h1 : ¬ pos1 + 1 + n1 > p1.length) (h2 : ¬ pos2 + 1 + n2 > p2.length) :
    strncasecmp ((p2.drop (pos2 + 1)).take (min n2 n1)) ((p1.drop (pos1 + 1)).take (min n2 n1)) =
      -strncasecmp ((p1.drop (pos1 + 1)).take (min n1 n2))
        ((p2.drop (pos2 + 1)).take (min n1 n2)) := by
  rw [min_comm n2 n1]
  refine strncasecmp_swap ?_
  rw [List.length_take, List.length_take, List.length_drop, List.length_drop]
  omega

/-- Swapping the names negates the result. -/
theorem dnsCompareEncodedName_swap {p1 p2 : List UInt8} {pos1 pos2 level : Nat}
    (h : dnsCompareEncodedName p1 pos1 p2 pos2 level ≠ -2) :
    dnsCompareEncodedName p2 pos2 p1 pos1 level =
      -dnsCompareEncodedName p1 pos1 p2 pos2 level := by
  fun_induction dnsCompareEncodedName p1 pos1 p2 pos2 level with
  | case2 pos1 pos2 level hl n1 n2 hb1 hb2 hzero hlt =>
    rw [dnsCompareEncodedName_some hl hb2 hb1, if_pos hzero.symm,
      if_neg (UInt8.not_lt.mpr (UInt8.le_of_lt hlt)), if_pos hlt]
    rfl
  | case3 pos1 pos2 level hl n1 n2 hb1 hb2 hzero hlt hgt =>
    rw [dnsCompareEncodedName_some hl hb2 hb1, if_pos hzero.symm, if_pos hgt]
  | case4 pos1 pos2 level hl n1 n2 hb1 hb2 hzero hlt hgt =>
    rw [dnsCompareEncodedName_some hl hb2 hb1, if_pos hzero.symm, if_neg hgt, if_neg hlt]
    rfl
  | case5 pos1 pos2 level hl n1 n2 hb1 hb2 h0 htag q1 q2 hq2 hq1 ih =>
    rw [dnsCompareEncodedName_some hl hb2 hb1, if_neg (fun h => h0 h.symm), if_pos htag.symm,
      hq1, hq2]
    exact ih h
  | case8 pos1 pos2 level hl n1 n2 hb1 hb2 h0 htag hlen =>
    rename_i n res hres
    obtain ⟨hlen1, hlen2⟩ := not_or.mp hlen
    have hswap := strncasecmp_taken hlen1 hlen2
    rw [dnsCompareEncodedName_some hl hb2 hb1, if_neg (fun h => h0 h.symm),
      if_neg (fun h => htag h.symm), if_neg (fun h => hlen h.symm)]
    simp only [hswap]
    rw [if_pos (neg_ne_zero.mpr hres)]
  | case9 pos1 pos2 level hl n1 n2 hb1 hb2 h0 htag hlen =>
    rename_i n res hres hlt
    obtain ⟨hlen1, hlen2⟩ := not_or.mp hlen
    have hswap := strncasecmp_taken hlen1 hlen2
    rw [dnsCompareEncodedName_some hl hb2 hb1, if_neg (fun h => h0 h.symm),
      if_neg (fun h => htag h.symm), if_neg (fun h => hlen h.symm)]
    simp only [hswap]
    rw [if_neg (neg_ne_zero.not.mpr hres), if_neg (UInt8.not_lt.mpr (UInt8.le_of_lt hlt)),
      if_pos hlt]
    rfl
  | case10 pos1 pos2 level hl n1 n2 hb1 hb2 h0 htag hlen =>
    rename_i n res hres hlt hgt
    obtain ⟨hlen1, hlen2⟩ := not_or.mp hlen
    have hswap := strncasecmp_taken hlen1 hlen2
    rw [dnsCompareEncodedName_some hl hb2 hb1, if_neg (fun h => h0 h.symm),
      if_neg (fun h => htag h.symm), if_neg (fun h => hlen h.symm)]
    simp only [hswap]
    rw [if_neg (neg_ne_zero.not.mpr hres), if_pos hgt]
  | case11 pos1 pos2 level hl n1 n2 hb1 hb2 h0 htag hlen =>
    rename_i n res hres hlt hgt ih
    obtain ⟨hlen1, hlen2⟩ := not_or.mp hlen
    have hswap := strncasecmp_taken hlen1 hlen2
    rw [dnsCompareEncodedName_some hl hb2 hb1, if_neg (fun h => h0 h.symm),
      if_neg (fun h => htag h.symm), if_neg (fun h => hlen h.symm)]
    simp only [hswap]
    rw [if_neg (neg_ne_zero.not.mpr hres), if_neg hgt, if_neg hlt]
    exact ih h
  | _ => exact absurd rfl h

/-! ## The order of labels -/

/-- A label up to its first zero byte. -/
def upToZero : List UInt8 → List UInt8
  | [] => []
  | c :: l => if c = 0 then [c] else c :: upToZero l

/-- What the comparison of labels goes by. -/
def labelKey (l : List UInt8) : List Nat ×ₗ Nat :=
  toLex ((upToZero l).map fun c => (tolower c).toNat, l.length)

/-- The sign of a result is the order of two keys. -/
def Signs {α : Type} [LT α] (r : Int) (a b : α) : Prop := (r < 0 ↔ a < b) ∧ (r = 0 ↔ a = b)

theorem compareLabels_cons (c d : UInt8) (l1 l2 : List UInt8) :
    compareLabels (c :: l1) (d :: l2) =
      if tolower c ≠ tolower d then ((tolower c).toNat : Int) - (tolower d).toNat
      else if c = 0 then
        if l1.length < l2.length then -1 else if l1.length > l2.length then 1 else 0
      else compareLabels l1 l2 := by
  unfold compareLabels
  simp only [List.length_cons, Nat.add_min_add_right, List.take_succ_cons, strncasecmp_cons,
    Nat.add_lt_add_iff_right, gt_iff_lt]
  by_cases heq : tolower c = tolower d
  · by_cases hc : c = 0
    · subst hc
      simp [← heq]
    · simp [heq, hc]
  · have hne : ((tolower c).toNat : Int) - (tolower d).toNat ≠ 0 := fun h =>
      heq (tolower_toNat_inj h)
    simp only [ne_eq, heq, not_false_eq_true, if_true, hne]

theorem labelKey_nil : labelKey [] = toLex ([], 0) := rfl

theorem labelKey_zero (l : List UInt8) :
    labelKey (0 :: l) = toLex ([(tolower 0).toNat], l.length + 1) := rfl

theorem labelKey_cons {c : UInt8} (h : c ≠ 0) (l : List UInt8) :
    labelKey (c :: l) =
      toLex ((tolower c).toNat :: (ofLex (labelKey l)).1, (ofLex (labelKey l)).2 + 1) := by
  simp only [labelKey, upToZero, if_neg h, List.map_cons, List.length_cons, ofLex_toLex]

theorem labelKey_head (c : UInt8) (l : List UInt8) :
    ∃ t, labelKey (c :: l) = toLex ((tolower c).toNat :: t, l.length + 1) := by
  by_cases h : c = 0
  · subst h
    exact ⟨[], rfl⟩
  · exact ⟨_, labelKey_cons h l⟩

theorem toLex_cons_lt {x : Nat} {a b : List Nat} {n m : Nat} :
    (toLex (x :: a, n + 1) : List Nat ×ₗ Nat) < toLex (x :: b, m + 1) ↔
      (toLex (a, n) : List Nat ×ₗ Nat) < toLex (b, m) := by
  simp [Prod.Lex.toLex_lt_toLex]

theorem Signs.of_lt {α : Type} [Preorder α] {r : Int} {a b : α} (hr : r < 0) (h : a < b) :
    Signs r a b :=
  ⟨⟨fun _ => h, fun _ => hr⟩,
    ⟨fun h0 => absurd hr (by omega), fun heq => absurd h (heq ▸ lt_irrefl _)⟩⟩

theorem Signs.of_gt {α : Type} [Preorder α] {r : Int} {a b : α} (hr : 0 < r) (h : b < a) :
    Signs r a b :=
  ⟨⟨fun h0 => absurd hr (by omega), fun hlt => absurd h (lt_asymm hlt)⟩,
    ⟨fun h0 => absurd hr (by omega), fun heq => absurd h (heq ▸ lt_irrefl _)⟩⟩

theorem Signs.of_eq {α : Type} [Preorder α] {a b : α} (h : a = b) : Signs 0 a b :=
  ⟨⟨fun h0 => absurd h0 (lt_irrefl _), fun hlt => absurd hlt (h ▸ lt_irrefl _)⟩,
    ⟨fun _ => h, fun _ => rfl⟩⟩

/-- Labels are compared by their keys. -/
theorem compareLabels_signs (l1 l2 : List UInt8) :
    Signs (compareLabels l1 l2) (labelKey l1) (labelKey l2) := by
  induction l1 generalizing l2 with
  | nil =>
    cases l2 with
    | nil => exact .of_eq rfl
    | cons d l2 =>
      obtain ⟨t, ht⟩ := labelKey_head d l2
      have hr : compareLabels [] (d :: l2) = -1 := by simp [compareLabels, strncasecmp]
      rw [hr, ht, labelKey_nil]
      exact .of_lt (by decide) (Prod.Lex.toLex_lt_toLex.mpr (.inl (by simp)))
  | cons c l1 ih =>
    cases l2 with
    | nil =>
      obtain ⟨t, ht⟩ := labelKey_head c l1
      have hr : compareLabels (c :: l1) [] = 1 := by simp [compareLabels, strncasecmp]
      rw [hr, ht, labelKey_nil]
      exact .of_gt (by decide) (Prod.Lex.toLex_lt_toLex.mpr (.inl (by simp)))
    | cons d l2 =>
      rw [compareLabels_cons]
      by_cases heq : tolower c = tolower d
      · rw [if_neg (fun h => h heq)]
        by_cases hc : c = 0
        · -- Behind a zero byte in both, only the lengths count.
          have hd : d = 0 := by rw [← tolower_eq_zero, ← heq, tolower_eq_zero, hc]
          subst hc hd
          rw [if_pos rfl, labelKey_zero, labelKey_zero]
          split_ifs with hlt hgt
          · exact .of_lt (by decide) (Prod.Lex.toLex_lt_toLex.mpr (.inr ⟨rfl, by simpa using hlt⟩))
          · exact .of_gt (by decide) (Prod.Lex.toLex_lt_toLex.mpr (.inr ⟨rfl, by simpa using hgt⟩))
          · have hlen : l1.length = l2.length := by omega
            rw [hlen]
            exact .of_eq rfl
        · have hd : d ≠ 0 := fun h => hc (by rw [← tolower_eq_zero, heq, h]; rfl)
          obtain ⟨hlt, hzero⟩ := ih l2
          rw [if_neg hc, labelKey_cons hc, labelKey_cons hd, heq]
          refine ⟨hlt.trans toLex_cons_lt.symm, hzero.trans ?_⟩
          generalize labelKey l1 = k1
          generalize labelKey l2 = k2
          constructor
          · rintro rfl
            rfl
          · intro h
            have hpair := toLex_inj.mp h
            simp only [Prod.mk.injEq, List.cons.injEq, true_and, Nat.add_right_cancel_iff] at hpair
            exact ofLex_inj.mp (Prod.ext hpair.1 hpair.2)
      · rw [if_pos heq]
        obtain ⟨t1, ht1⟩ := labelKey_head c l1
        obtain ⟨t2, ht2⟩ := labelKey_head d l2
        have hne : (tolower c).toNat ≠ (tolower d).toNat := fun h => heq (UInt8.toNat_inj.mp h)
        rw [ht1, ht2]
        rcases Nat.lt_or_gt_of_ne hne with hlt | hgt
        · refine .of_lt (by omega) (Prod.Lex.toLex_lt_toLex.mpr (.inl ?_))
          exact List.cons_lt_cons_iff.mpr (.inl hlt)
        · refine .of_gt (by omega) (Prod.Lex.toLex_lt_toLex.mpr (.inl ?_))
          exact List.cons_lt_cons_iff.mpr (.inl hgt)

/-- Labels that differ in case only have one key. -/
theorem labelKey_of_lower {l1 l2 : List UInt8} (h : lower l1 = lower l2) :
    labelKey l1 = labelKey l2 := by
  induction l1 generalizing l2 with
  | nil =>
    obtain rfl : l2 = [] := by simpa [lower] using h.symm
    rfl
  | cons c l1 ih =>
    cases l2 with
    | nil => simp [lower] at h
    | cons d l2 =>
      simp only [lower_cons, List.cons.injEq] at h
      obtain ⟨hc, hl⟩ := h
      have hlen : l1.length = l2.length := by simpa using congrArg List.length hl
      by_cases hzero : c = 0
      · have hd : d = 0 := by rw [← tolower_eq_zero, ← hc, tolower_eq_zero, hzero]
        subst hzero hd
        rw [labelKey_zero, labelKey_zero, hlen]
      · have hd : d ≠ 0 := fun h => hzero (by rw [← tolower_eq_zero, hc, h]; rfl)
        rw [labelKey_cons hzero, labelKey_cons hd, hc, ih hl]

/-! ## The order of names -/

/-- What the comparison of names goes by: the labels, and then the pointers before the end
marker. -/
def nameKey (s : Shape) : List (List Nat ×ₗ Nat) ×ₗ Nat :=
  toLex (s.labels.map fun label => labelKey label.2, s.last)

theorem compareShapes_signs {level : Nat} {s1 s2 : Shape} {r : Int}
    (h : compareShapes level s1 s2 = some r) : Signs r (nameKey s1) (nameKey s2) := by
  obtain ⟨ls1, d1⟩ := s1
  obtain ⟨ls2, d2⟩ := s2
  induction ls1 generalizing level ls2 with
  | nil =>
    cases ls2 with
    | nil =>
      simp only [compareShapes] at h
      split_ifs at h with hl hlt hgt
      · cases h
        exact .of_lt (by decide) (Prod.Lex.toLex_lt_toLex.mpr (.inr ⟨rfl, hlt⟩))
      · cases h
        exact .of_gt (by decide) (Prod.Lex.toLex_lt_toLex.mpr (.inr ⟨rfl, hgt⟩))
      · cases h
        obtain rfl : d1 = d2 := by omega
        exact .of_eq rfl
    | cons label ls2 =>
      simp only [compareShapes] at h
      split_ifs at h
      cases h
      exact .of_lt (by decide) (Prod.Lex.toLex_lt_toLex.mpr (.inl (List.nil_lt_cons _ _)))
  | cons label ls1 ih =>
    obtain ⟨k1, l1⟩ := label
    cases ls2 with
    | nil =>
      simp only [compareShapes] at h
      split_ifs at h
      cases h
      exact .of_gt (by decide) (Prod.Lex.toLex_lt_toLex.mpr (.inl (List.nil_lt_cons _ _)))
    | cons label ls2 =>
      obtain ⟨k2, l2⟩ := label
      obtain ⟨hlt, hzero⟩ := compareLabels_signs l1 l2
      simp only [compareShapes] at h
      split_ifs at h with hl hne
      · cases h
        rcases lt_or_gt_of_ne hne with hneg | hpos
        · exact .of_lt hneg (Prod.Lex.toLex_lt_toLex.mpr (.inl
            (List.cons_lt_cons_iff.mpr (.inl (hlt.mp hneg)))))
        · have hgt : labelKey l2 < labelKey l1 :=
            lt_of_le_of_ne (not_lt.mp fun h => absurd (hlt.mpr h) (by omega))
              fun h => hne (hzero.mpr h.symm)
          exact .of_gt hpos (Prod.Lex.toLex_lt_toLex.mpr (.inl
            (List.cons_lt_cons_iff.mpr (.inl hgt))))
      · have hkey := hzero.mp (not_not.mp hne)
        obtain ⟨hlt', hzero'⟩ := ih _ h
        have hcons {a b : List (List Nat ×ₗ Nat)} {x : List Nat ×ₗ Nat} :
            (toLex (x :: a, d1) : List (List Nat ×ₗ Nat) ×ₗ Nat) < toLex (x :: b, d2) ↔
              (toLex (a, d1) : List (List Nat ×ₗ Nat) ×ₗ Nat) < toLex (b, d2) := by
          simp [Prod.Lex.toLex_lt_toLex]
        simp only [nameKey, List.map_cons, hkey] at hlt' hzero' ⊢
        refine ⟨hlt'.trans hcons.symm, hzero'.trans ?_⟩
        simp

/-- The order of names is transitive. -/
theorem compareShapes_trans {level : Nat} {s1 s2 s3 : Shape} {r12 r23 r13 : Int}
    (h12 : compareShapes level s1 s2 = some r12) (h23 : compareShapes level s2 s3 = some r23)
    (h13 : compareShapes level s1 s3 = some r13) (hle12 : r12 ≤ 0) (hle23 : r23 ≤ 0) :
    r13 ≤ 0 := by
  have hle {r : Int} {s t : Shape} (h : Signs r (nameKey s) (nameKey t)) :
      r ≤ 0 ↔ nameKey s ≤ nameKey t := by
    rw [le_iff_lt_or_eq, le_iff_lt_or_eq, h.1, h.2]
  have h1 := (hle (compareShapes_signs h12)).mp hle12
  have h2 := (hle (compareShapes_signs h23)).mp hle23
  exact (hle (compareShapes_signs h13)).mpr (h1.trans h2)

/-! ## Well-formed names -/

/-- All pointers of a name. -/
def Shape.hops (s : Shape) : Nat := (s.labels.map Prod.fst).sum + s.last

def Shape.texts (s : Shape) : List (List UInt8) := s.labels.map Prod.snd

@[simp] theorem hops_behindPointer (s : Shape) : s.behindPointer.hops = s.hops + 1 := by
  obtain ⟨_ | ⟨⟨k, l⟩, r⟩, d⟩ := s
  · rfl
  · simp [Shape.behindPointer, Shape.hops]
    omega

@[simp] theorem texts_behindPointer (s : Shape) : s.behindPointer.texts = s.texts := by
  obtain ⟨_ | ⟨⟨k, l⟩, r⟩, d⟩ := s
  · rfl
  · rfl

@[simp] theorem hops_behindLabel (s : Shape) (l : List UInt8) :
    (s.behindLabel l).hops = s.hops := by
  simp [Shape.behindLabel, Shape.hops]

@[simp] theorem texts_behindLabel (s : Shape) (l : List UInt8) :
    (s.behindLabel l).texts = l :: s.texts := rfl

theorem withLabel_root (label : List UInt8) (dot dot' : Bool) (labels : List (List UInt8)) :
    ∃ d, withLabel label dot (labels, .root dot') = (label :: labels, .root d) := by
  cases labels with
  | nil => exact ⟨dot, rfl⟩
  | cons l labels => exact ⟨dot', rfl⟩

theorem withLabel_of_root {label : List UInt8} {dot d : Bool} {w : List (List UInt8) × NameEnd}
    {labels : List (List UInt8)} (h : withLabel label dot w = (labels, .root d)) :
    ∃ labels' d', w = (labels', .root d') ∧ labels = label :: labels' := by
  obtain ⟨labels', e⟩ := w
  cases e with
  | root d' =>
    obtain ⟨d'', h'⟩ := withLabel_root label dot d' labels'
    rw [h'] at h
    exact ⟨labels', d', rfl, (Prod.mk.injEq .. ▸ h).1.symm⟩
  | cut => cases labels' <;> cases h
  | broken => cases labels' <;> cases h

/-- A name within the recursion limit is walked to its end. -/
theorem Encoded.walk {p : List UInt8} {pos : Nat} {s : Shape} (h : Encoded p pos s) {level : Nat}
    (hl : level + s.hops < DNS_NAME_MAX_RECURSION) :
    ∃ dot, walk p pos level = (s.texts, .root dot) := by
  induction h generalizing level with
  | root hb =>
    have hl' : ¬ level ≥ DNS_NAME_MAX_RECURSION := by omega
    exact ⟨false, by rw [walk_some hl' hb, if_pos rfl]; rfl⟩
  | pointer hb htag hlo hs ih =>
    rw [hops_behindPointer] at hl
    have hl' : ¬ level ≥ DNS_NAME_MAX_RECURSION := by omega
    obtain ⟨dot, hw⟩ := ih (show level + 1 + _ < _ by omega)
    refine ⟨dot, ?_⟩
    rw [walk_some hl' hb, if_neg (tag_ne_zero htag), if_pos htag, hlo, texts_behindPointer]
    exact hw
  | label hb h0 htag hlen hs ih =>
    rw [hops_behindLabel] at hl
    have hl' : ¬ level ≥ DNS_NAME_MAX_RECURSION := by omega
    obtain ⟨dot, hw⟩ := ih hl
    rw [walk_some hl' hb, if_neg h0, if_neg htag, if_neg hlen, hw]
    exact withLabel_root _ _ _ _

theorem encoded_of_walk {p : List UInt8} {pos level : Nat} {labels : List (List UInt8)}
    {dot : Bool} (h : walk p pos level = (labels, .root dot)) :
    ∃ s, Encoded p pos s ∧ s.texts = labels ∧ level + s.hops < DNS_NAME_MAX_RECURSION := by
  fun_induction walk p pos level generalizing labels dot with
  | case1 => cases h
  | case2 => cases h
  | case3 pos level hl hb =>
    cases h
    exact ⟨_, .root hb, rfl, Nat.lt_of_not_le hl⟩
  | case4 => cases h
  | case5 pos level hl b hb h0 htag lo hlo ih =>
    obtain ⟨s, hs, htexts, hhops⟩ := ih h
    refine ⟨_, .pointer hb htag hlo hs, by rw [texts_behindPointer, htexts], ?_⟩
    rw [hops_behindPointer]
    omega
  | case6 => cases h
  | case7 pos level hl b hb h0 htag hlen ih =>
    obtain ⟨labels', d', hw, rfl⟩ := withLabel_of_root h
    obtain ⟨s, hs, htexts, hhops⟩ := ih hw
    refine ⟨_, .label hb h0 htag hlen hs, by rw [texts_behindLabel, htexts], ?_⟩
    rw [hops_behindLabel]
    exact hhops

/-- An encoded name has one shape. -/
theorem Encoded.unique {p : List UInt8} {pos : Nat} {s t : Shape} (hs : Encoded p pos s)
    (ht : Encoded p pos t) : s = t := by
  induction hs generalizing t with
  | root hb => exact (ht.zero hb).symm
  | pointer hb htag hlo hs ih =>
    rcases ht.cases_byte hb with ⟨hz, -⟩ | ⟨-, q, t', hq, ht', rfl⟩ | ⟨-, hn, -⟩
    · exact absurd hz (tag_ne_zero htag)
    · rw [nextPos, if_pos htag, hlo] at hq
      cases hq
      rw [ih ht']
    · exact absurd htag hn
  | label hb h0 htag hlen hs ih =>
    rcases ht.cases_byte hb with ⟨hz, -⟩ | ⟨htag', -⟩ | ⟨-, -, -, t', ht', rfl⟩
    · exact absurd hz h0
    · exact absurd htag' htag
    · rw [ih ht']

/-- The decoder accepts the names that end within the limit, and whose labels are short. -/
theorem dnsParseName_isSome {p : List UInt8} {pos level : Nat} :
    (dnsParseName p pos level).isSome ↔
      ∃ s, Encoded p pos s ∧ level + s.hops < DNS_NAME_MAX_RECURSION ∧
        ∀ l ∈ s.texts, l.length < DNS_LABEL_MAX_SIZE := by
  have hmap : (dnsParseName p pos level).isSome = (decoded (walk p pos level)).isSome := by
    rw [← dnsParseName_walk, Option.isSome_map]
  rw [hmap]
  constructor
  · intro h
    cases hw : walk p pos level with
    | mk labels e =>
      rw [hw] at h
      cases e with
      | root dot =>
        obtain ⟨s, hs, rfl, hhops⟩ := encoded_of_walk hw
        refine ⟨s, hs, hhops, ?_⟩
        by_contra hlong
        rw [decoded, if_neg hlong] at h
        simp at h
      | cut => simp [decoded] at h
      | broken => simp [decoded] at h
  · rintro ⟨s, hs, hhops, hshort⟩
    obtain ⟨dot, hw⟩ := hs.walk hhops
    rw [hw, decoded, if_pos hshort]
    rfl

/-! ## Where the comparison goes wrong -/

/-- The pointers that are followed when both names are equal: those that face each other count
once. -/
def sharedHops (s1 s2 : Shape) : Nat :=
  (List.zipWith (fun a b => max a.1 b.1) s1.labels s2.labels).sum + s1.last

theorem nameKey_inj {s1 s2 : Shape} : nameKey s1 = nameKey s2 ↔
    s1.texts.map labelKey = s2.texts.map labelKey ∧ s1.last = s2.last := by
  simp only [nameKey, Shape.texts, List.map_map, toLex_inj, Prod.mk.injEq]
  rfl

/-- Two names are found equal when their keys are, and the pointers of both are not too many. -/
theorem compareShapes_zero {level : Nat} {s1 s2 : Shape} :
    compareShapes level s1 s2 = some 0 ↔
      nameKey s1 = nameKey s2 ∧ level + sharedHops s1 s2 < DNS_NAME_MAX_RECURSION := by
  obtain ⟨ls1, d1⟩ := s1
  obtain ⟨ls2, d2⟩ := s2
  induction ls1 generalizing level ls2 with
  | nil =>
    cases ls2 with
    | nil =>
      simp only [compareShapes, nameKey_inj, Shape.texts, List.map_nil, true_and, sharedHops,
        List.zipWith_nil_left, List.sum_nil]
      split_ifs with hl hlt hgt
      · simp
        omega
      · simp
        omega
      · simp
        omega
      · simp
        omega
    | cons label ls2 =>
      simp only [compareShapes, nameKey_inj, Shape.texts, List.map_nil, List.map_cons]
      split_ifs <;> simp
  | cons label ls1 ih =>
    obtain ⟨k1, l1⟩ := label
    cases ls2 with
    | nil =>
      simp only [compareShapes, nameKey_inj, Shape.texts, List.map_nil, List.map_cons]
      split_ifs <;> simp
    | cons label ls2 =>
      obtain ⟨k2, l2⟩ := label
      have hzero := (compareLabels_signs l1 l2).2
      have hkey : nameKey ⟨(k1, l1) :: ls1, d1⟩ = nameKey ⟨(k2, l2) :: ls2, d2⟩ ↔
          labelKey l1 = labelKey l2 ∧ nameKey ⟨ls1, d1⟩ = nameKey ⟨ls2, d2⟩ := by
        simp only [nameKey_inj, Shape.texts, List.map_cons, List.cons.injEq, and_assoc]
      have hhops : sharedHops ⟨(k1, l1) :: ls1, d1⟩ ⟨(k2, l2) :: ls2, d2⟩ =
          max k1 k2 + sharedHops ⟨ls1, d1⟩ ⟨ls2, d2⟩ := by
        simp only [sharedHops, List.zipWith_cons_cons, List.sum_cons]
        omega
      rw [hkey, hhops, compareShapes]
      split_ifs with hl hne
      · simp
        omega
      · have hlabels : labelKey l1 ≠ labelKey l2 := fun h => hne (hzero.mpr h)
        simp [hne, hlabels]
      · rw [ih _, ← Nat.add_assoc, and_assoc, and_iff_right (hzero.mp (not_not.mp hne))]

/-- Each name alone follows no more pointers. -/
theorem hops_le_sharedHops {s1 s2 : Shape} (hlen : s1.labels.length = s2.labels.length)
    (hlast : s1.last = s2.last) : s1.hops ≤ sharedHops s1 s2 ∧ s2.hops ≤ sharedHops s1 s2 := by
  obtain ⟨ls1, d1⟩ := s1
  obtain ⟨ls2, d2⟩ := s2
  simp only [Shape.hops, sharedHops] at *
  suffices h : (ls1.map Prod.fst).sum ≤ (List.zipWith (fun a b => max a.1 b.1) ls1 ls2).sum ∧
      (ls2.map Prod.fst).sum ≤ (List.zipWith (fun a b => max a.1 b.1) ls1 ls2).sum by omega
  clear hlast
  induction ls1 generalizing ls2 with
  | nil =>
    obtain rfl : ls2 = [] := List.length_eq_zero_iff.mp hlen.symm
    simp
  | cons a ls1 ih =>
    cases ls2 with
    | nil => simp at hlen
    | cons b ls2 =>
      have := ih ls2 (by simpa using hlen)
      simp only [List.map_cons, List.sum_cons, List.zipWith_cons_cons]
      omega

/-- The decoder accepts both names, and their labels are the same but for the case. -/
def NamesAgree (p1 : List UInt8) (pos1 : Nat) (p2 : List UInt8) (pos2 level : Nat) : Prop :=
  (dnsParseName p1 pos1 level).isSome ∧ (dnsParseName p2 pos2 level).isSome ∧
    (walk p1 pos1 level).1.map lower = (walk p2 pos2 level).1.map lower

/-- The encoded names the comparison gets wrong. -/
inductive OrderSlip (p1 : List UInt8) (pos1 : Nat) (p2 : List UInt8) (pos2 level : Nat) : Prop
  /-- Equal names, one of which takes more pointers to reach its end marker. -/
  | ends {s1 s2 : Shape} (h1 : Encoded p1 pos1 s1) (h2 : Encoded p2 pos2 s2)
      (hagree : NamesAgree p1 pos1 p2 pos2 level) (h : s1.last ≠ s2.last)
  /-- Equal names whose pointers are too many together. -/
  | pointers {s1 s2 : Shape} (h1 : Encoded p1 pos1 s1) (h2 : Encoded p2 pos2 s2)
      (hagree : NamesAgree p1 pos1 p2 pos2 level)
      (h : level + sharedHops s1 s2 ≥ DNS_NAME_MAX_RECURSION)
  /-- Names whose labels differ behind a zero byte. -/
  | zeroByte {s1 s2 : Shape} (h1 : Encoded p1 pos1 s1) (h2 : Encoded p2 pos2 s2)
      (hkey : nameKey s1 = nameKey s2) (hl : level + sharedHops s1 s2 < DNS_NAME_MAX_RECURSION)
      (h : s1.texts.map lower ≠ s2.texts.map lower)
  /-- Names with a label that is too long for the decoder. -/
  | long {s1 s2 : Shape} (h1 : Encoded p1 pos1 s1) (h2 : Encoded p2 pos2 s2)
      (hkey : nameKey s1 = nameKey s2) (hl : level + sharedHops s1 s2 < DNS_NAME_MAX_RECURSION)
      {l : List UInt8} (hmem : l ∈ s1.texts) (h : DNS_LABEL_MAX_SIZE ≤ l.length)

/-- The comparison is an order of the well-formed names, for which two names are equal when their
labels are. -/
structure OrderAgrees (p1 : List UInt8) (pos1 : Nat) (p2 : List UInt8) (pos2 level : Nat) :
    Prop where
  zero : dnsCompareEncodedName p1 pos1 p2 pos2 level = 0 ↔ NamesAgree p1 pos1 p2 pos2 level
  swap : dnsCompareEncodedName p1 pos1 p2 pos2 level ≠ -2 →
    dnsCompareEncodedName p2 pos2 p1 pos1 level = -dnsCompareEncodedName p1 pos1 p2 pos2 level
  trans : ∀ p3 pos3, (dnsParseName p1 pos1 level).isSome → (dnsParseName p2 pos2 level).isSome →
    (dnsParseName p3 pos3 level).isSome →
    dnsCompareEncodedName p1 pos1 p2 pos2 level ≠ -2 →
    dnsCompareEncodedName p2 pos2 p3 pos3 level ≠ -2 →
    dnsCompareEncodedName p1 pos1 p3 pos3 level ≠ -2 →
    dnsCompareEncodedName p1 pos1 p2 pos2 level ≤ 0 →
    dnsCompareEncodedName p2 pos2 p3 pos3 level ≤ 0 →
    dnsCompareEncodedName p1 pos1 p3 pos3 level ≤ 0

section Agreement

variable {p1 p2 : List UInt8} {pos1 pos2 level : Nat}

/-- The comparison finds two names equal when their shapes are. -/
theorem dnsCompareEncodedName_zero :
    dnsCompareEncodedName p1 pos1 p2 pos2 level = 0 ↔
      ∃ s1 s2, Encoded p1 pos1 s1 ∧ Encoded p2 pos2 s2 ∧ nameKey s1 = nameKey s2 ∧
        level + sharedHops s1 s2 < DNS_NAME_MAX_RECURSION := by
  constructor
  · intro h
    obtain ⟨⟨s1, h1⟩, s2, h2⟩ := encoded_of_zero h
    rw [dnsCompareEncodedName_shapes h1 h2] at h
    refine ⟨s1, s2, h1, h2, compareShapes_zero.mp ?_⟩
    cases hr : compareShapes level s1 s2 with
    | none => rw [hr] at h; simp at h
    | some r =>
      rw [hr] at h
      exact congrArg some h
  · rintro ⟨s1, s2, h1, h2, hkey⟩
    rw [dnsCompareEncodedName_shapes h1 h2, compareShapes_zero.mpr hkey]
    rfl

theorem namesAgree_iff : NamesAgree p1 pos1 p2 pos2 level ↔
    ∃ s1 s2, Encoded p1 pos1 s1 ∧ Encoded p2 pos2 s2 ∧
      level + s1.hops < DNS_NAME_MAX_RECURSION ∧ level + s2.hops < DNS_NAME_MAX_RECURSION ∧
      (∀ l ∈ s1.texts, l.length < DNS_LABEL_MAX_SIZE) ∧
      s1.texts.map lower = s2.texts.map lower := by
  constructor
  · rintro ⟨hp1, hp2, hlabels⟩
    obtain ⟨s1, h1, hh1, hl1⟩ := dnsParseName_isSome.mp hp1
    obtain ⟨s2, h2, hh2, -⟩ := dnsParseName_isSome.mp hp2
    obtain ⟨dot1, hw1⟩ := h1.walk hh1
    obtain ⟨dot2, hw2⟩ := h2.walk hh2
    rw [hw1, hw2] at hlabels
    exact ⟨s1, s2, h1, h2, hh1, hh2, hl1, hlabels⟩
  · rintro ⟨s1, s2, h1, h2, hh1, hh2, hl1, hlabels⟩
    have hl2 : ∀ l ∈ s2.texts, l.length < DNS_LABEL_MAX_SIZE := by
      intro l hl
      have hmem : lower l ∈ s1.texts.map lower := by
        rw [hlabels]
        exact List.mem_map_of_mem hl
      obtain ⟨l', hl', heq⟩ := List.mem_map.mp hmem
      have hlen := congrArg List.length heq
      simp only [length_lower] at hlen
      have := hl1 l' hl'
      omega
    obtain ⟨dot1, hw1⟩ := h1.walk hh1
    obtain ⟨dot2, hw2⟩ := h2.walk hh2
    refine ⟨dnsParseName_isSome.mpr ⟨s1, h1, hh1, hl1⟩,
      dnsParseName_isSome.mpr ⟨s2, h2, hh2, hl2⟩, ?_⟩
    rw [hw1, hw2]
    exact hlabels

theorem map_labelKey_of_lower {ls1 ls2 : List (List UInt8)} (h : ls1.map lower = ls2.map lower) :
    ls1.map labelKey = ls2.map labelKey := by
  induction ls1 generalizing ls2 with
  | nil =>
    obtain rfl : ls2 = [] := by simpa using h.symm
    rfl
  | cons l1 ls1 ih =>
    cases ls2 with
    | nil => simp at h
    | cons l2 ls2 =>
      simp only [List.map_cons, List.cons.injEq] at h ⊢
      exact ⟨labelKey_of_lower h.1, ih h.2⟩

/-- Names that are found equal without a slip agree. -/
theorem agree_of_zero (hno : ¬ OrderSlip p1 pos1 p2 pos2 level)
    (h : dnsCompareEncodedName p1 pos1 p2 pos2 level = 0) : NamesAgree p1 pos1 p2 pos2 level := by
  obtain ⟨s1, s2, h1, h2, hkey, hl⟩ := dnsCompareEncodedName_zero.mp h
  obtain ⟨htexts, hlast⟩ := nameKey_inj.mp hkey
  have hlen : s1.labels.length = s2.labels.length := by
    simpa [Shape.texts] using congrArg List.length htexts
  obtain ⟨hhops1, hhops2⟩ := hops_le_sharedHops hlen hlast
  refine namesAgree_iff.mpr ⟨s1, s2, h1, h2, by omega, by omega, fun l hmem => ?_, ?_⟩
  · by_contra hlong
    exact hno (.long h1 h2 hkey hl hmem (Nat.le_of_not_lt hlong))
  · by_contra hdiffer
    exact hno (.zeroByte h1 h2 hkey hl hdiffer)

/-- Names that agree without a slip are found equal. -/
theorem zero_of_agree (hno : ¬ OrderSlip p1 pos1 p2 pos2 level)
    (hagree : NamesAgree p1 pos1 p2 pos2 level) :
    dnsCompareEncodedName p1 pos1 p2 pos2 level = 0 := by
  obtain ⟨s1, s2, h1, h2, -, -, -, hlower⟩ := namesAgree_iff.mp hagree
  have hlast : s1.last = s2.last := by
    by_contra hne
    exact hno (.ends h1 h2 hagree hne)
  have hl : level + sharedHops s1 s2 < DNS_NAME_MAX_RECURSION := by
    by_contra hmany
    exact hno (.pointers h1 h2 hagree (Nat.le_of_not_lt hmany))
  have hkey := nameKey_inj.mpr ⟨map_labelKey_of_lower hlower, hlast⟩
  exact dnsCompareEncodedName_zero.mpr ⟨s1, s2, h1, h2, hkey, hl⟩

/-- A slip makes the comparison and the decoder disagree. -/
theorem OrderSlip.disagree (h : OrderSlip p1 pos1 p2 pos2 level) :
    ¬ (dnsCompareEncodedName p1 pos1 p2 pos2 level = 0 ↔ NamesAgree p1 pos1 p2 pos2 level) := by
  intro hiff
  cases h with
  | ends h1 h2 hagree hne =>
    obtain ⟨s1, s2, h1', h2', hkey, -⟩ := dnsCompareEncodedName_zero.mp (hiff.mpr hagree)
    obtain rfl := h1.unique h1'
    obtain rfl := h2.unique h2'
    exact hne (nameKey_inj.mp hkey).2
  | pointers h1 h2 hagree hmany =>
    obtain ⟨s1, s2, h1', h2', -, hl⟩ := dnsCompareEncodedName_zero.mp (hiff.mpr hagree)
    obtain rfl := h1.unique h1'
    obtain rfl := h2.unique h2'
    omega
  | zeroByte h1 h2 hkey hl hne =>
    have hzero := dnsCompareEncodedName_zero.mpr ⟨_, _, h1, h2, hkey, hl⟩
    obtain ⟨s1, s2, h1', h2', -, -, -, hlower⟩ := namesAgree_iff.mp (hiff.mp hzero)
    obtain rfl := h1.unique h1'
    obtain rfl := h2.unique h2'
    exact hne hlower
  | long h1 h2 hkey hl hmem hlong =>
    have hzero := dnsCompareEncodedName_zero.mpr ⟨_, _, h1, h2, hkey, hl⟩
    obtain ⟨s1, s2, h1', h2', -, -, hshort, -⟩ := namesAgree_iff.mp (hiff.mp hzero)
    obtain rfl := h1.unique h1'
    exact absurd (hshort _ hmem) (Nat.not_lt_of_le hlong)

/-- A result other than `-2` is the order of the shapes. -/
theorem compareShapes_of_ne {s1 s2 : Shape} (h1 : Encoded p1 pos1 s1) (h2 : Encoded p2 pos2 s2)
    (h : dnsCompareEncodedName p1 pos1 p2 pos2 level ≠ -2) :
    compareShapes level s1 s2 = some (dnsCompareEncodedName p1 pos1 p2 pos2 level) := by
  rw [dnsCompareEncodedName_shapes h1 h2] at h ⊢
  cases hr : compareShapes level s1 s2 with
  | none =>
    rw [hr] at h
    exact absurd rfl h
  | some r => rfl

/-- **The order of names.** Two names are found equal exactly when they are, but for the slips; and
the comparison is antisymmetric and transitive. -/
theorem dnsCompareEncodedName_iff (p1 : List UInt8) (pos1 : Nat) (p2 : List UInt8)
    (pos2 level : Nat) :
    OrderAgrees p1 pos1 p2 pos2 level ↔ ¬ OrderSlip p1 pos1 p2 pos2 level := by
  constructor
  · intro h hslip
    exact hslip.disagree h.zero
  · intro hno
    refine ⟨⟨agree_of_zero hno, zero_of_agree hno⟩, dnsCompareEncodedName_swap, ?_⟩
    intro p3 pos3 hp1 hp2 hp3 h12 h23 h13 hle12 hle23
    obtain ⟨s1, h1, -⟩ := dnsParseName_isSome.mp hp1
    obtain ⟨s2, h2, -⟩ := dnsParseName_isSome.mp hp2
    obtain ⟨s3, h3, -⟩ := dnsParseName_isSome.mp hp3
    exact compareShapes_trans (compareShapes_of_ne h1 h2 h12) (compareShapes_of_ne h2 h3 h23)
      (compareShapes_of_ne h1 h3 h13) hle12 hle23

end Agreement

/-- The name `a` behind a header, and the same name with a pointer to its end marker. -/
theorem dnsCompareEncodedName_pointer :
    ¬ OrderAgrees (List.replicate 12 0 ++ [1, 97, 0]) 12
      (List.replicate 12 0 ++ [1, 97, 0xC0, 16, 0]) 12 0 := by
  generalize hp1 : List.replicate 12 (0 : UInt8) ++ [1, 97, 0] = p1
  generalize hp2 : List.replicate 12 (0 : UInt8) ++ [1, 97, 0xC0, 16, 0] = p2
  have hb1 : p1[12]? = some 1 := by rw [← hp1]; rfl
  have hend1 : p1[14]? = some 0 := by rw [← hp1]; rfl
  have hb2 : p2[12]? = some 1 := by rw [← hp2]; rfl
  have htag : p2[14]? = some 0xC0 := by rw [← hp2]; rfl
  have hlo : p2[15]? = some 16 := by rw [← hp2]; rfl
  have hend2 : p2[16]? = some 0 := by rw [← hp2]; rfl
  have h1 := Encoded.label hb1 (by decide) (by decide) (by rw [← hp1]; decide) (.root hend1)
  have h2 := Encoded.label hb2 (by decide) (by decide) (by rw [← hp2]; decide)
    (.pointer htag (by decide) hlo (.root hend2))
  have hl1 : (p1.drop 13).take (1 : UInt8).toNat = [97] := by rw [← hp1]; rfl
  have hl2 : (p2.drop 13).take (1 : UInt8).toNat = [97] := by rw [← hp2]; rfl
  rw [hl1] at h1
  rw [hl2] at h2
  have hagree : NamesAgree p1 12 p2 12 0 := namesAgree_iff.mpr
    ⟨_, _, h1, h2, by decide, by decide, by decide, by decide⟩
  exact fun h => (OrderSlip.ends h1 h2 hagree (by decide)).disagree h.zero

end Cyclone
