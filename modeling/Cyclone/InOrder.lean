import Cyclone.Blocks
import Cyclone.Acts

/-!
# Cyclone.InOrder

How far `RCV.NXT` moves on a segment. `tcpUpdateSackBlocks` merges with `MIN` and `MAX` on the plain
values of sequence numbers, which is right as long as these do not wrap between the edges it
compares.

* `serialEnd`: where the merged range ends when the edges are compared as serial numbers.
* `merge_end_iff`: when the loop of the code ends there.
* `progress_iff`: when `RCV.NXT` moves to the first number that is missing, at every offset.
-/

namespace Cyclone

open Serial

variable {n l r x : Word} {W L R : Nat} {b : TcpSackBlock} {bs : List TcpSackBlock}

/-- The plain value of `x`, which is ahead of `n`, is below that of `n`. -/
def Wrapped (n x : Word) : Prop := x.toNat < n.toNat

instance (n x : Word) : Decidable (Wrapped n x) := inferInstanceAs (Decidable (_ < _))

theorem wrapped_iff : Wrapped n x ↔ 2 ^ 32 ≤ n.toNat + dist n x := by
  have h1 := toNat_dist n x
  have h2 := dist_lt n x
  have h3 := n.isLt
  unfold Wrapped
  omega

/-! ## The end of the data without a gap -/

/-- The end of the range that starts at `RCV.NXT` and ends at distance `R`, after the blocks it
touches are merged into it. -/
def serialEnd (n : Word) : List TcpSackBlock → Nat → Nat
  | [], R => R
  | b :: bs, R =>
    if dist n b.leftEdge ≤ R then serialEnd n bs (max R (dist n b.rightEdge))
    else serialEnd n bs R

theorem le_serialEnd (bs : List TcpSackBlock) : ∀ R, R ≤ serialEnd n bs R := by
  induction bs with
  | nil => intro R; exact Nat.le_refl R
  | cons b bs ih =>
    intro R
    unfold serialEnd
    split
    · exact (Nat.le_max_left _ _).trans (ih _)
    · exact ih R

/-- A number at distance `k` belongs to the range from `L` to `R` or to a block. -/
def Belongs (n : Word) (bs : List TcpSackBlock) (L R k : Nat) : Prop :=
  L ≤ k ∧ k < R ∨ ∃ b ∈ bs, dist n b.leftEdge ≤ k ∧ k < dist n b.rightEdge

theorem serialEnd_belongs (bs : List TcpSackBlock) : ∀ R k, k < serialEnd n bs R →
    Belongs n bs 0 R k := by
  induction bs with
  | nil => intro R k hk; exact .inl ⟨Nat.zero_le k, hk⟩
  | cons b bs ih =>
    intro R k hk
    unfold serialEnd at hk
    split at hk
    · rename_i ht
      rcases ih _ k hk with ⟨-, hk⟩ | ⟨b', hb', hk⟩
      · by_cases hR : k < R
        · exact .inl ⟨Nat.zero_le k, hR⟩
        · exact .inr ⟨b, List.mem_cons_self, by omega, by omega⟩
      · exact .inr ⟨b', List.mem_cons_of_mem b hb', hk⟩
    · rcases ih _ k hk with hk | ⟨b', hb', hk⟩
      · exact .inl hk
      · exact .inr ⟨b', List.mem_cons_of_mem b hb', hk⟩

/-- The end is `R` or the end of the one block that reaches over `R`. -/
theorem serialEnd_eq (bs : List TcpSackBlock) : ∀ R, RcvBlocks n W bs →
    serialEnd n bs R = R ∨ ∃ b ∈ bs, serialEnd n bs R = dist n b.rightEdge ∧
      dist n b.leftEdge ≤ R ∧ R < dist n b.rightEdge := by
  induction bs with
  | nil => intro R _; exact .inl rfl
  | cons b bs ih =>
    intro R h
    have hpair := (List.pairwise_cons.mp h.apart).1
    have hb := h.inside b List.mem_cons_self
    unfold serialEnd
    split
    · rename_i ht
      rcases ih (max R (dist n b.rightEdge)) h.tail with heq | ⟨b', hb', heq, h1, h2⟩
      · rw [heq]
        by_cases hR : dist n b.rightEdge ≤ R
        · exact .inl (Nat.max_eq_left hR)
        · exact .inr ⟨b, List.mem_cons_self, Nat.max_eq_right (by omega), ht, by omega⟩
      · refine .inr ⟨b', List.mem_cons_of_mem b hb', heq, ?_, by omega⟩
        have hap := hpair b' hb'
        have he := hb.edges
        unfold ApartBlocks at hap
        omega
    · rcases ih R h.tail with heq | ⟨b', hb', heq⟩
      · exact .inl heq
      · exact .inr ⟨b', List.mem_cons_of_mem b hb', heq⟩

theorem serialEnd_missing (bs : List TcpSackBlock) : ∀ R, RcvBlocks n W bs →
    ∀ b ∈ bs, ¬(dist n b.leftEdge ≤ serialEnd n bs R ∧ serialEnd n bs R < dist n b.rightEdge) := by
  induction bs with
  | nil => intro R _ b hb; cases hb
  | cons b bs ih =>
    intro R h d hd
    have hpair := (List.pairwise_cons.mp h.apart).1
    unfold serialEnd
    split
    · rcases List.mem_cons.mp hd with rfl | hd
      · have hle := le_serialEnd (n := n) bs (max R (dist n d.rightEdge))
        omega
      · exact ih _ h.tail d hd
    · rename_i hno
      rcases List.mem_cons.mp hd with rfl | hd
      · rcases serialEnd_eq bs R h.tail with heq | ⟨b', hb', heq, h1, h2⟩
        · rw [heq]
          omega
        · have hap := hpair b' hb'
          unfold ApartBlocks at hap
          rw [heq]
          omega
      · exact ih R h.tail d hd

/-! ## The loop of the code -/

theorem merge_min (bs : List TcpSackBlock) : ∀ l r, (mergeSackBlocks bs l r).2.1.toNat ≤ l.toNat := by
  induction bs with
  | nil => intro l r; exact Nat.le_refl _
  | cons b bs ih =>
    intro l r
    unfold mergeSackBlocks
    split
    · refine (ih _ _).trans ?_
      obtain ⟨h, -⟩ | ⟨h, h1⟩ := minWord_cases l b.leftEdge
      · rw [h]
      · rw [h]
        exact h1
    · exact ih l r

theorem merge_max (bs : List TcpSackBlock) : ∀ l r, r.toNat ≤ (mergeSackBlocks bs l r).2.2.toNat := by
  induction bs with
  | nil => intro l r; exact Nat.le_refl _
  | cons b bs ih =>
    intro l r
    unfold mergeSackBlocks
    split
    · refine le_trans ?_ (ih _ _)
      obtain ⟨h, -⟩ | ⟨h, h1⟩ := maxWord_cases r b.rightEdge
      · rw [h]
      · rw [h]
        exact h1
    · exact ih l r

/-- The plain values do not wrap between the edges that the merging of the range up to `r`
compares: `RCV.NXT` and the left edges, the right edges among each other. -/
def NoWrap (n : Word) (bs : List TcpSackBlock) (r : Word) : Prop :=
  ∀ b ∈ bs, dist n b.leftEdge ≤ dist n r →
    ¬Wrapped n b.leftEdge ∧ (Wrapped n b.rightEdge ↔ Wrapped n r)

/-- Edges on the same side of the wrap are ordered by their plain values. -/
theorem dist_maxWord (h : Wrapped n x ↔ Wrapped n r) :
    dist n (maxWord r x) = max (dist n r) (dist n x) ∧ (Wrapped n (maxWord r x) ↔ Wrapped n r) := by
  have h1 := toNat_dist n r
  have h2 := toNat_dist n x
  have h3 := dist_lt n r
  have h4 := dist_lt n x
  have h5 := n.isLt
  have hi := h
  rw [wrapped_iff, wrapped_iff] at hi
  obtain ⟨hm, hlt⟩ | ⟨hm, hle⟩ := maxWord_cases r x
  · rw [hm]
    exact ⟨by omega, Iff.rfl⟩
  · rw [hm]
    exact ⟨by omega, h⟩

theorem minWord_base (h : 0 < dist n x) (hw : ¬Wrapped n x) : minWord n x = n := by
  obtain ⟨hm, -⟩ | ⟨-, hle⟩ := minWord_cases n x
  · exact hm
  · have h1 : x.toNat = n.toNat := Nat.le_antisymm hle (Nat.le_of_not_lt hw)
    rw [BitVec.eq_of_toNat_eq h1, dist_self] at h
    exact absurd h (Nat.lt_irrefl 0)

/-- Induction on the blocks: the loop keeps the left edge and ends where serial numbers would exactly
when no two edges it compares lie on different sides of the wrap. -/
theorem merge_end_iff (hW : W < 65536) : ∀ (bs : List TcpSackBlock) (r : Word),
    RcvBlocks n W bs → 0 < dist n r → dist n r ≤ W →
    ((mergeSackBlocks bs n r).2.1 = n ∧
        dist n (mergeSackBlocks bs n r).2.2 = serialEnd n bs (dist n r) ↔
      NoWrap n bs r) := by
  intro bs
  induction bs with
  | nil => intro r _ _ _; exact ⟨fun _ => nofun, fun _ => ⟨rfl, rfl⟩⟩
  | cons b bs ih =>
    intro r h h0 hr
    have hb := h.inside b List.mem_cons_self
    have hpair := (List.pairwise_cons.mp h.apart).1
    have hself : dist n n = 0 := dist_self n
    have hbase : dist n n < dist n r := by omega
    by_cases ht : dist n b.leftEdge ≤ dist n r
    case neg =>
      have htest := fun hc => ht ((touches_iff hW hb hbase hr).mp hc).1
      rw [mergeSackBlocks, if_neg htest, serialEnd, if_neg ht]
      refine (ih r h.tail h0 hr).trans ⟨fun hn d hd => ?_, fun hn d hd => ?_⟩
      · rcases List.mem_cons.mp hd with rfl | hd
        · exact fun hc => absurd hc ht
        · exact hn d hd
      · exact hn d (List.mem_cons_of_mem b hd)
    have htest := (touches_iff hW hb hbase hr).mpr ⟨ht, by omega⟩
    rw [mergeSackBlocks, if_pos htest, serialEnd, if_pos ht]
    constructor
    · rintro ⟨hleft, hend⟩
      have hleft' : minWord n b.leftEdge = n ∧ ¬Wrapped n b.leftEdge := by
        have hmin := merge_min bs (minWord n b.leftEdge) (maxWord r b.rightEdge)
        rw [hleft] at hmin
        have hnw : ¬Wrapped n b.leftEdge := by
          intro hw
          obtain ⟨hm, hlt⟩ | ⟨hm, -⟩ := minWord_cases n b.leftEdge
          · exact absurd hlt (Nat.not_lt.mpr (Nat.le_of_lt hw))
          · rw [hm] at hmin
            exact absurd hmin (Nat.not_le.mpr hw)
        exact ⟨minWord_base hb.left hnw, hnw⟩
      rw [hleft'.1] at hleft hend
      -- a right edge behind the wrap loses against one before it, and never comes back
      have hmax := merge_max bs n (maxWord r b.rightEdge)
      have hle := le_serialEnd (n := n) bs (max (dist n r) (dist n b.rightEdge))
      have hside : Wrapped n b.rightEdge ↔ Wrapped n r := by
        have e1 := toNat_dist n (mergeSackBlocks bs n (maxWord r b.rightEdge)).2.2
        have e2 := toNat_dist n r
        have e3 := toNat_dist n b.rightEdge
        have e4 := dist_lt n r
        have e5 := dist_lt n b.rightEdge
        have e6 := dist_lt n (mergeSackBlocks bs n (maxWord r b.rightEdge)).2.2
        have e7 := n.isLt
        rw [wrapped_iff, wrapped_iff]
        obtain ⟨hm, hlt⟩ | ⟨hm, hle'⟩ := maxWord_cases r b.rightEdge <;> rw [hm] at hmax hend e1 e6 <;>
          constructor <;> intro hw <;> omega
      obtain ⟨hd, hw⟩ := dist_maxWord hside
      rw [← hd] at hend
      have hnw := (ih (maxWord r b.rightEdge) h.tail (by omega)
        (by have := hb.right; omega)).mp ⟨hleft, hend⟩
      intro d hd'
      rcases List.mem_cons.mp hd' with rfl | hd'
      · exact fun _ => ⟨hleft'.2, hside⟩
      · intro hdl
        have h1 := hnw d hd' (by omega)
        exact ⟨h1.1, h1.2.trans hw⟩
    · intro hn
      obtain ⟨hnw, hside⟩ := hn b List.mem_cons_self ht
      obtain ⟨hd, hw⟩ := dist_maxWord hside
      rw [minWord_base hb.left hnw, ← hd]
      refine (ih (maxWord r b.rightEdge) h.tail (by omega) (by have := hb.right; omega)).mpr ?_
      intro d hd' hdl
      have hdl' : dist n d.leftEdge ≤ dist n r := by
        have hap := hpair d hd'
        have he := hb.edges
        have he' := (h.inside d (List.mem_cons_of_mem b hd')).edges
        unfold ApartBlocks at hap
        omega
      have h1 := hn d (List.mem_cons_of_mem b hd') hdl'
      exact ⟨h1.1, h1.2.trans hw.symm⟩

/-! ## The segment -/

/-- `RCV.NXT` has moved to the first number that belongs to neither the range nor a block, and the
data and the window have changed by as much. -/
structure Advances (v : RcvVars) (l r : Word) (v' : RcvVars) : Prop where
  before : ∀ k < dist v.rcvNxt v'.rcvNxt,
    Belongs v.rcvNxt v.sackBlock (dist v.rcvNxt l) (dist v.rcvNxt r) k
  missing : ¬Belongs v.rcvNxt v.sackBlock (dist v.rcvNxt l) (dist v.rcvNxt r)
    (dist v.rcvNxt v'.rcvNxt)
  user : v'.rcvUser = v.rcvUser + dist v.rcvNxt v'.rcvNxt
  wnd : v.rcvWnd = v'.rcvWnd + dist v.rcvNxt v'.rcvNxt

/-- A first missing number is the only one. -/
theorem first_missing {k k' : Nat} (h : ∀ i < k, Belongs n bs L R i) (hk : ¬Belongs n bs L R k)
    (h' : ∀ i < k', Belongs n bs L R i) (hk' : ¬Belongs n bs L R k') : k = k' := by
  rcases Nat.lt_trichotomy k k' with hlt | heq | hlt
  · exact absurd (h' k hlt) hk
  · exact heq
  · exact absurd (h k' hlt) hk'

theorem serialEnd_first (h : RcvBlocks n W bs) (R : Nat) :
    (∀ k < serialEnd n bs R, Belongs n bs 0 R k) ∧ ¬Belongs n bs 0 R (serialEnd n bs R) := by
  refine ⟨serialEnd_belongs bs R, ?_⟩
  rintro (⟨-, hlt⟩ | ⟨b, hb, hin⟩)
  · exact absurd (le_serialEnd bs R) (Nat.not_le.mpr hlt)
  · exact serialEnd_missing bs R h b hb hin

/-- The edges of the segment after trimming. -/
def trimmed (s : SockCore) (segment : TcpHeader) (length : Nat) : Word × Word :=
  ((trimSegment s segment.seqNum 0 length).1, (trimSegment s segment.seqNum 0 length).2.1)

theorem trimSegment_edges (s : SockCore) (seqNum : Word) (offset length : Nat) :
    (trimSegment s seqNum offset length).1 = (trimSegment s seqNum 0 length).1 ∧
      (trimSegment s seqNum offset length).2.1 = (trimSegment s seqNum 0 length).2.1 := by
  unfold trimSegment
  simp only
  split <;> exact ⟨rfl, rfl⟩

/-- A segment with text at a socket whose receive side is in order: the segment is acceptable, and
the blocks lie in the window. -/
structure Receivable (s : SockCore) (segment : TcpHeader) (length : Nat) : Prop where
  text : 0 < length
  short : length < 65536
  acceptable : seqAcceptable s segment length = true
  blocks : RcvBlocks s.rcvNxt s.rcvWnd s.sackBlock
  room : s.rcvUser + s.rcvWnd < 65536

/-- The segment is out of order, or the merging does not compare edges across the wrap. -/
def StaysBelowWrap (s : SockCore) (segment : TcpHeader) (length : Nat) : Prop :=
  (trimmed s segment length).1 = s.rcvNxt →
    NoWrap s.rcvNxt s.sackBlock (trimmed s segment length).2

theorem receiveData_progress {s : SockCore} {segment : TcpHeader} {length : Nat}
    (h : Receivable s segment length) (b : NetBuffer) (offset : Nat) :
    Advances s.toRcvVars (trimmed s segment length).1 (trimmed s segment length).2
      (receiveData s segment b offset length).1.toRcvVars ↔ StaysBelowWrap s segment length := by
  obtain ⟨h0, hlen, hacc, hblocks, hroom⟩ := h
  have hW : s.rcvWnd < 65536 := by omega
  obtain ⟨hlt, hle⟩ := @trimSegment_in s segment offset length hW hlen h0 hacc
  obtain ⟨hm, -⟩ := merge_blocks hW s.sackBlock _ _ hblocks hlt hle
  rw [receiveData_rcv]
  unfold StaysBelowWrap trimmed mergeSegment
  obtain ⟨e1, e2⟩ := trimSegment_edges s segment.seqNum offset length
  rw [e1] at hm hlt ⊢
  rw [e2] at hm hlt hle ⊢
  generalize (trimSegment s segment.seqNum 0 length).1 = l at *
  generalize (trimSegment s segment.seqNum 0 length).2.1 = r at *
  have hiff := merge_end_iff hW s.sackBlock r hblocks (by omega) hle
  have hcmp : cmpSeq (mergeSackBlocks s.sackBlock l r).2.1 s.rcvNxt =
      dist s.rcvNxt (mergeSackBlocks s.sackBlock l r).2.1 := by
    have h1 := hm.edges
    have h2 := hm.right
    have h3 := cmpSeq_dist (n := s.rcvNxt) (x := (mergeSackBlocks s.sackBlock l r).2.1)
      (y := s.rcvNxt) hW (by omega) (by rw [dist_self]; omega)
    rw [h3, dist_self, Nat.cast_zero, sub_zero]
  simp only
  by_cases hl : l = s.rcvNxt
  · -- in order
    subst hl
    simp only [true_implies]
    by_cases hleft : (mergeSackBlocks s.sackBlock s.rcvNxt r).2.1 = s.rcvNxt
    · have hno : ¬cmpSeq (mergeSackBlocks s.sackBlock s.rcvNxt r).2.1 s.rcvNxt > 0 := by
        rw [hcmp, hleft, dist_self]
        decide
      rw [if_neg hno, ← hiff, hleft]
      have hright := hm.right
      generalize (mergeSackBlocks s.sackBlock s.rcvNxt r).2.2 = e at hright hiff ⊢
      have hnxt : s.rcvNxt + (e - s.rcvNxt) = e := by
        bv_omega
      have hn : (e - s.rcvNxt).toNat = dist s.rcvNxt e := rfl
      rw [hnxt, hn]
      constructor
      · rintro ⟨h1, h2, -, -⟩
        refine ⟨rfl, ?_⟩
        have hs := serialEnd_first hblocks (dist s.rcvNxt r)
        simp only [Serial.dist_self] at h1 h2
        exact first_missing h1 h2 hs.1 hs.2
      · rintro ⟨-, hend⟩
        have hs := serialEnd_first hblocks (dist s.rcvNxt r)
        rw [← hend] at hs
        refine ⟨?_, ?_, ?_, ?_⟩
        · simp only [Serial.dist_self]
          exact hs.1
        · simp only [Serial.dist_self]
          exact hs.2
        · exact u16_of_lt (by omega)
        · show s.rcvWnd = u16Sub s.rcvWnd (dist s.rcvNxt e) + dist s.rcvNxt e
          rw [u16Sub_of_le hright (by omega)]
          omega
    · have hpos : dist s.rcvNxt (mergeSackBlocks s.sackBlock s.rcvNxt r).2.1 ≠ 0 :=
        fun hz => hleft (dist_eq_zero.mp hz)
      rw [if_pos (by rw [hcmp]; omega)]
      refine ⟨fun hp => ?_, fun hn => absurd (hiff.mpr hn).1 hleft⟩
      refine absurd ?_ hp.missing
      simp only [Serial.dist_self] at hlt ⊢
      exact .inl ⟨Nat.le_refl 0, hlt⟩
  · -- out of order: nothing moves
    have hl0 : dist s.rcvNxt l ≠ 0 := fun hz => hl (dist_eq_zero.mp hz)
    have hpos : 0 < dist s.rcvNxt (mergeSackBlocks s.sackBlock l r).2.1 := by
      rcases hm.left with heq | ⟨b', hb', heq⟩
      · rw [heq]
        omega
      · rw [heq]
        exact (hblocks.inside b' hb').left
    rw [if_pos (by rw [hcmp]; omega)]
    refine ⟨fun _ hc => absurd hc hl, fun _ => ⟨?_, ?_, ?_, ?_⟩⟩
    · intro k hk
      simp only [Serial.dist_self] at hk
      exact absurd hk (Nat.not_lt_zero k)
    · simp only [Serial.dist_self]
      rintro (⟨h1, -⟩ | ⟨b', hb', h1, -⟩)
      · omega
      · have h2 := (hblocks.inside b' hb').left
        omega
    · simp
    · simp

/-! ## The same segment at another offset -/

def TcpSackBlock.shift (k : Word) (b : TcpSackBlock) : TcpSackBlock :=
  ⟨b.leftEdge + k, b.rightEdge + k⟩

/-- `k` is added to the sequence numbers of the receive side. -/
def RcvVars.shift (k : Word) (v : RcvVars) : RcvVars :=
  { v with irs := v.irs + k, rcvNxt := v.rcvNxt + k, sackBlock := v.sackBlock.map (.shift k) }

def SockCore.shift (k : Word) (s : SockCore) : SockCore := { s with toRcvVars := s.toRcvVars.shift k }

def TcpHeader.shift (k : Word) (segment : TcpHeader) : TcpHeader :=
  { segment with seqNum := segment.seqNum + k }

theorem dist_shift (k n x : Word) : dist (n + k) (x + k) = dist n x := by
  simp only [Serial.dist]
  congr 1
  bv_omega

theorem cmpSeq_shift (k a b : Word) : cmpSeq (a + k) (b + k) = cmpSeq a b := by
  have h : a + k - (b + k) = a - b := by bv_omega
  simp only [Serial.cmp, h]

theorem trimmed_shift (k : Word) (s : SockCore) (segment : TcpHeader) (length : Nat) :
    trimmed (s.shift k) (segment.shift k) length =
      ((trimmed s segment length).1 + k, (trimmed s segment length).2 + k) := by
  have h1 : segment.seqNum + k + w32 length = segment.seqNum + w32 length + k := by
    rw [BitVec.add_assoc, BitVec.add_comm k, ← BitVec.add_assoc]
  have h2 : s.rcvNxt + k + w32 s.rcvWnd = s.rcvNxt + w32 s.rcvWnd + k := by
    rw [BitVec.add_assoc, BitVec.add_comm k, ← BitVec.add_assoc]
  unfold trimmed trimSegment
  simp only [SockCore.shift, RcvVars.shift, TcpHeader.shift, h1, h2, cmpSeq_shift]
  split <;> split <;> rfl

theorem belongs_shift (k : Word) (n : Word) (bs : List TcpSackBlock) (L R i : Nat) :
    Belongs (n + k) (bs.map (.shift k)) L R i ↔ Belongs n bs L R i := by
  unfold Belongs
  simp only [List.mem_map, exists_exists_and_eq_and, TcpSackBlock.shift, dist_shift]

theorem RcvBlocks.shift (k : Word) (h : RcvBlocks n W bs) :
    RcvBlocks (n + k) W (bs.map (.shift k)) := by
  constructor
  · intro b hb
    obtain ⟨d, hd, rfl⟩ := List.mem_map.mp hb
    obtain ⟨h1, h2, h3⟩ := h.inside d hd
    refine ⟨?_, ?_, ?_⟩
    · show 0 < dist (n + k) (d.leftEdge + k)
      rw [dist_shift]
      exact h1
    · show dist (n + k) (d.leftEdge + k) < dist (n + k) (d.rightEdge + k)
      rw [dist_shift, dist_shift]
      exact h2
    · show dist (n + k) (d.rightEdge + k) ≤ W
      rw [dist_shift]
      exact h3
  · refine List.pairwise_map.mpr (h.apart.imp fun {a b} hab => ?_)
    unfold ApartBlocks at *
    simp only [TcpSackBlock.shift, dist_shift]
    exact hab

theorem seqAcceptable_shift (k : Word) (s : SockCore) (segment : TcpHeader) (length : Nat) :
    seqAcceptable (s.shift k) (segment.shift k) length = seqAcceptable s segment length := by
  have h2 : s.rcvNxt + k + w32 s.rcvWnd = s.rcvNxt + w32 s.rcvWnd + k := by
    rw [BitVec.add_assoc, BitVec.add_comm k, ← BitVec.add_assoc]
  have h3 : segment.seqNum + k + w32 length - 1 = segment.seqNum + w32 length - 1 + k := by
    bv_omega
  have h4 : (segment.seqNum + k == s.rcvNxt + k) = (segment.seqNum == s.rcvNxt) := by
    rw [Bool.eq_iff_iff, beq_iff_eq, beq_iff_eq, BitVec.add_left_inj]
  unfold seqAcceptable
  simp only [SockCore.shift, RcvVars.shift, TcpHeader.shift, h2, h3, h4, cmpSeq_shift]

theorem Receivable.shift {s : SockCore} {segment : TcpHeader} {length : Nat}
    (h : Receivable s segment length) (k : Word) :
    Receivable (s.shift k) (segment.shift k) length :=
  ⟨h.text, h.short, (seqAcceptable_shift k s segment length).trans h.acceptable, h.blocks.shift k,
    h.room⟩

/-- `RCV.NXT`, the data and the window have moved alike from `v` and, `k` further on, from
`v.shift k`. -/
structure MovesAlike (k : Word) (v' w' : RcvVars) : Prop where
  nxt : w'.rcvNxt = v'.rcvNxt + k
  user : w'.rcvUser = v'.rcvUser
  wnd : w'.rcvWnd = v'.rcvWnd

/-- Where `RCV.NXT` moves to the first missing number from `v`, the same is true `k` further on
exactly when it has moved alike. -/
theorem Advances.shift {v v' w' : RcvVars} (k : Word) (h : Advances v l r v') :
    Advances (v.shift k) (l + k) (r + k) w' ↔ MovesAlike k v' w' := by
  obtain ⟨h1, h2, h3, h4⟩ := h
  constructor
  · rintro ⟨g1, g2, g3, g4⟩
    simp only [RcvVars.shift, belongs_shift, dist_shift] at g1 g2 g3 g4
    have hk := first_missing h1 h2 g1 g2
    refine ⟨?_, by omega, by omega⟩
    apply eq_of_dist_eq (b := v.rcvNxt + k)
    rw [dist_shift, ← hk]
  · rintro ⟨g1, g2, g3⟩
    refine ⟨?_, ?_, ?_, ?_⟩ <;> simp only [RcvVars.shift, belongs_shift, dist_shift, g1, g2, g3]
    · exact h1
    · exact h2
    · exact h3
    · exact h4

/-! ## The function -/

theorem tcpProcessSegmentData_rcv (c : Ctx) (segment : TcpHeader) (b : NetBuffer)
    (offset length : Nat) : (tcpProcessSegmentData c segment b offset length).toRcvVars =
      (receiveData c.toSockCore segment b offset length).1.toRcvVars := by
  unfold tcpProcessSegmentData
  generalize receiveData c.toSockCore segment b offset length = d
  obtain ⟨s1, inOrder⟩ := d
  simp only
  let c1 : Ctx := { c with toSockCore := s1 }
  have h2 : Quiet c1 (tcpSendSegment c1 { ack := true } c1.sndNxt c1.rcvNxt 0 false).1 :=
    quiet_bare _ _ _ _ _
  split
  · exact congrArg (·.toRcvVars) h2.core
  · exact congrArg (·.toRcvVars) h2.core

/-- `RCV.NXT` moves to the first missing number, and moves alike when `k` is added to all sequence
numbers, exactly when neither merging compares edges across the wrap. -/
theorem progress_iff {c : Ctx} {segment : TcpHeader} {length : Nat}
    (h : Receivable c.toSockCore segment length) (b : NetBuffer) (offset : Nat) (k : Word) :
    Advances c.toRcvVars (trimmed c.toSockCore segment length).1
          (trimmed c.toSockCore segment length).2
          (tcpProcessSegmentData c segment b offset length).toRcvVars ∧
        MovesAlike k (tcpProcessSegmentData c segment b offset length).toRcvVars
          (tcpProcessSegmentData { c with toRcvVars := c.toRcvVars.shift k } (segment.shift k) b
            offset length).toRcvVars ↔
      StaysBelowWrap c.toSockCore segment length ∧
        StaysBelowWrap (c.toSockCore.shift k) (segment.shift k) length := by
  have h1 := receiveData_progress h b offset
  have h2 := receiveData_progress (h.shift k) b offset
  rw [trimmed_shift] at h2
  have e1 := tcpProcessSegmentData_rcv c segment b offset length
  have e2 := tcpProcessSegmentData_rcv { c with toRcvVars := c.toRcvVars.shift k }
    (segment.shift k) b offset length
  have hcore : ({ c with toRcvVars := c.toRcvVars.shift k } : Ctx).toSockCore =
      c.toSockCore.shift k := rfl
  rw [hcore] at e2
  rw [e1, e2]
  generalize (receiveData c.toSockCore segment b offset length).1.toRcvVars = v' at h1
  generalize (receiveData (c.toSockCore.shift k) (segment.shift k) b offset
    length).1.toRcvVars = w' at h2
  generalize (trimmed c.toSockCore segment length).1 = l at h1 h2
  generalize (trimmed c.toSockCore segment length).2 = r at h1 h2
  have hrcv : (c.toSockCore.shift k).toRcvVars = c.toRcvVars.shift k := rfl
  rw [hrcv] at h2
  constructor
  · rintro ⟨ha, hm⟩
    exact ⟨h1.mp ha, h2.mp ((ha.shift k).mpr hm)⟩
  · rintro ⟨hs, hs'⟩
    have ha := h1.mpr hs
    exact ⟨ha, (ha.shift k).mp (h2.mpr hs')⟩

/-- A connection that waits for `nxt` with one block queued in a window of eight bytes. -/
def oneBlock (nxt leftEdge rightEdge : Word) : Ctx where
  toEnv := Env.granting
  state := .ESTABLISHED
  irs := nxt - 1
  rcvNxt := nxt
  rcvWnd := 8
  rxBuffer := ⟨[⟨List.replicate 8 0, 8⟩], 1⟩
  rxBufferSize := 8
  sackBlock := [⟨leftEdge, rightEdge⟩]

/-- Its segment with three bytes. -/
def threeBytes (seqNum : Word) : TcpHeader :=
  { srcPort := 80, destPort := 1024, seqNum, ackNum := 0, dataOffset := 5, window := 8
    flags := { ack := true } }

def threeData : NetBuffer := ⟨[⟨[1, 2, 3], 0⟩], 1⟩

theorem oneBlock_receivable {nxt leftEdge rightEdge : Word}
    (ha : seqAcceptable (oneBlock nxt leftEdge rightEdge).toSockCore (threeBytes nxt) 3 = true)
    (hb : BlockIn nxt 8 ⟨leftEdge, rightEdge⟩) :
    Receivable (oneBlock nxt leftEdge rightEdge).toSockCore (threeBytes nxt) 3 := by
  refine ⟨by decide, by decide, ha, ⟨fun b hm => ?_, ?_⟩, by show 0 + 8 < 65536; decide⟩
  · rw [List.mem_singleton.mp hm]
    exact hb
  · exact List.pairwise_singleton _ _

theorem progress_iff_merged :
    (tcpProcessSegmentData (oneBlock 100 102 105) (threeBytes 100) threeData 0 3).rcvUser =
      0 + dist 100
        (tcpProcessSegmentData (oneBlock 100 102 105) (threeBytes 100) threeData 0 3).rcvNxt := by
  have h := @oneBlock_receivable 100 102 105 (by decide) ⟨by decide, by decide, by decide⟩
  have hno : ∀ b ∈ [(⟨102, 105⟩ : TcpSackBlock)], ¬Wrapped 100 b.leftEdge ∧
      (Wrapped 100 b.rightEdge ↔ Wrapped 100 103) := by
    intro b hb
    rw [List.mem_singleton.mp hb]
    decide
  exact ((progress_iff h threeData 0 0).mpr ⟨fun _ b hb _ => hno b hb, fun _ b hb _ => hno b hb⟩).1.user

/-- The segment closes the gap in front of the block, and the wrap lies between the two: the merged
range begins behind `RCV.NXT`, which stays where it is. -/
theorem progress_stalls :
    Receivable (oneBlock 0xFFFFFFFF 1 5).toSockCore (threeBytes 0xFFFFFFFF) 3 ∧
    ¬Advances (oneBlock 0xFFFFFFFF 1 5).toRcvVars 0xFFFFFFFF 2
      (tcpProcessSegmentData (oneBlock 0xFFFFFFFF 1 5) (threeBytes 0xFFFFFFFF) threeData 0
        3).toRcvVars := by
  refine ⟨oneBlock_receivable (by decide) ⟨by decide, by decide, by decide⟩, fun h => ?_⟩
  have hnxt : (tcpProcessSegmentData (oneBlock 0xFFFFFFFF 1 5) (threeBytes 0xFFFFFFFF) threeData 0
      3).rcvNxt = 0xFFFFFFFF := by
    decide +kernel
  have hmiss := h.missing
  rw [hnxt] at hmiss
  exact hmiss (.inl (by decide))

end Cyclone
