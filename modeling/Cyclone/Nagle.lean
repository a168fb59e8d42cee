import Cyclone.Acks

/-!
# Cyclone.Nagle

What the sending loops of `tcpNagleAlgo` and of the override timer put into flight.

* `sendLoop_fuel`: the loop ends within `sndUser` turns.
* `Paced`: the segments follow one another from `SND.NXT` on and stay inside the usable window.
* `sending_paced`: both loops, for every pattern of send results.
-/

namespace Cyclone

open Serial

variable {c c' c1 : Ctx} {es : List Emission}

/-- The fields of 16 bits the loops compute with. -/
structure Sized (s : Socket) : Prop where
  user : s.sndUser < 65536
  wnd : s.sndWnd < 65536

/-- Segments with 1 to `smss` bytes of data that follow one another from `seqNum` on. -/
def Consecutive (smss : Nat) : Word → List Emission → Prop
  | _, [] => True
  | seqNum, e :: es => e.header.seqNum = seqNum ∧ 1 ≤ e.data.length ∧ e.data.length ≤ smss ∧
      Consecutive smss (seqNum + w32 e.data.length) es

/-- The data bytes of the segments. -/
def dataLength (es : List Emission) : Nat := (es.map fun e => e.data.length).sum

/-- From `v` to `v'` some segments were sent, which the log has in `sent'` behind `sent`. The last one
may have been refused by the IP layer, it is not counted then. `w` is the size of the window. -/
structure Paced (smss w : Nat) (v : SndVars) (sent : List Emission) (v' : SndVars)
    (sent' : List Emission) : Prop where
  una : v'.sndUna = v.sndUna
  total : v'.sndNxt + w32 v'.sndUser = v.sndNxt + w32 v.sndUser
  segments : ∃ counted refused, sent' = sent ++ (counted ++ refused) ∧ refused.length ≤ 1 ∧
    Consecutive smss v.sndNxt (counted ++ refused) ∧
    v'.sndNxt = v.sndNxt + w32 (dataLength counted)
  bound : sent' ≠ sent ∨ v'.sndNxt ≠ v.sndNxt → (v'.sndNxt - v'.sndUna).toNat ≤ w

variable {smss w n : Nat} {v v' : SndVars} {sent sent' : List Emission} {e : Emission}

theorem Paced.refl : Paced smss w v sent v sent := by
  refine ⟨rfl, rfl, ⟨[], [], ?_, Nat.zero_le 1, trivial, ?_⟩, fun h => ?_⟩
  · simp
  · simp [dataLength]
  · rcases h with h | h <;> exact absurd rfl h

/-- A first segment, of `n` bytes, and the rest. -/
theorem Paced.count (hseq : e.header.seqNum = v.sndNxt) (hlen : e.data.length = n) (hn : 1 ≤ n)
    (hs : n ≤ smss) (hu : n ≤ v.sndUser) (hroom : (v.sndNxt + w32 n - v.sndUna).toNat ≤ w)
    (h : Paced smss w { v with sndNxt := v.sndNxt + w32 n, sndUser := v.sndUser - n } (sent ++ [e])
      v' sent') : Paced smss w v sent v' sent' := by
  obtain ⟨una, total, ⟨counted, refused, s1, s2, s3, s4⟩, bound⟩ := h
  simp only at una total s3 s4 bound
  refine ⟨una, ?_, ⟨e :: counted, refused, ?_, s2, ?_, ?_⟩, fun _ => ?_⟩
  · rw [total, BitVec.add_assoc, ← BitVec.ofNat_add, Nat.add_sub_cancel' hu]
  · rw [s1, List.append_assoc]
    rfl
  · refine ⟨hseq, by omega, by omega, ?_⟩
    rw [hlen]
    exact s3
  · have hsum : dataLength (e :: counted) = n + dataLength counted := by
      simp [dataLength, hlen]
    rw [s4, hsum, BitVec.add_assoc, ← BitVec.ofNat_add]
  · by_cases hsame : v'.sndNxt = v.sndNxt + w32 n
    · rw [hsame, una]
      exact hroom
    · exact bound (.inr hsame)

/-- What a data segment does: on success it has been sent, and a segment that was sent has `n`
bytes from `SND.NXT` on. -/
theorem sent_tcpSendSegment (c : Ctx) (n : Nat) :
    (tcpSendSegment c { psh := true, ack := true } c.sndNxt c.rcvNxt n true).1.toSndVars =
        c.toSndVars ∧
      (tcpSendSegment c { psh := true, ack := true } c.sndNxt c.rcvNxt n true).1.toMssVars =
        c.toMssVars ∧
      ((tcpSendSegment c { psh := true, ack := true } c.sndNxt c.rcvNxt n true).1.sent = c.sent ∧
          (tcpSendSegment c { psh := true, ack := true } c.sndNxt c.rcvNxt n true).2 ≠ .NO_ERROR ∨
        ∃ e, (tcpSendSegment c { psh := true, ack := true } c.sndNxt c.rcvNxt n true).1.sent =
          c.sent ++ [e] ∧ e.header.seqNum = c.sndNxt ∧ e.data.length = n) := by
  obtain ⟨-, hspec⟩ := tcpSendSegment_spec c { psh := true, ack := true } c.sndNxt c.rcvNxt n true
  have hqueue := queues_tcpSendSegment c { psh := true, ack := true } c.sndNxt c.rcvNxt n
  generalize tcpSendSegment c { psh := true, ack := true } c.sndNxt c.rcvNxt n true = r at *
  have haux : r.1.toSndVars = c.toSndVars ∧ r.1.toMssVars = c.toMssVars := by
    obtain ⟨ho, -⟩ | ⟨item, -, hq⟩ := hqueue
    · exact ⟨congrArg (·.toSndVars) ho.quiet.core, ho.quiet.mss⟩
    · exact ⟨congrArg (·.toSndVars) hq.core, hq.aux.2.1⟩
  refine ⟨haux.1, haux.2, ?_⟩
  obtain ⟨hk, hne⟩ | ⟨ph, h, hs⟩ := hspec
  · exact .inl ⟨congrArg (·.sent) hk, hne⟩
  · refine .inr ⟨⟨ph, h, txRead c.toSockCore c.sndNxt n, c.sndUna⟩, ?_, hs.seq_eq, hs.data_length⟩
    have hsent := congrArg (·.sent) hs.kernel_eq
    rw [if_pos rfl] at hsent
    refine Eq.trans hsent ?_
    show c.sent ++ [_] = _
    rw [hs.seq_eq]
    rfl

/-- Induction on the turns. `w` is the size of the window, of which `u` is left. -/
theorem sendLoop_paced (sendable : Ctx → Word → Nat → Bool) (fuel : Nat) : ∀ (c : Ctx) (u : Word)
    (w : Nat), w < 2 ^ 31 → u = w32 w - (c.sndNxt - c.sndUna) →
    (c.sndNxt - c.sndUna).toNat ≤ 2 ^ 31 → 0 < c.smss → c.sndUser < 65536 →
    Paced c.smss w c.toSndVars c.sent (sendLoop sendable fuel c u).1.toSndVars
      (sendLoop sendable fuel c u).1.sent := by
  induction fuel with
  | zero => intro c u w _ _ _ _ _; exact .refl
  | succ fuel ih =>
    intro c u w hw hu hf hs hu16
    unfold sendLoop
    split
    · exact .refl
    rename_i hgo
    simp only
    split
    case isFalse => exact .refl
    have hpos : 0 < u.toNat := by
      have h1 : ¬u.toInt ≤ 0 := fun h => hgo (.inr h)
      rw [BitVec.toInt_eq_toNat_cond] at h1
      split at h1 <;> omega
    generalize hn : min (min u.toNat c.sndUser) c.smss = n
    have hlt : (c.sndNxt - c.sndUna).toNat < w := flight_lt hw hf (by rw [← hu]; omega)
    have hroom : (c.sndNxt + w32 n - c.sndUna).toNat ≤ w := by
      have hle : n ≤ u.toNat := by omega
      rw [hu] at hle
      simp only [w32] at hle ⊢
      bv_omega
    obtain ⟨hsnd, hmss, hsent⟩ := sent_tcpSendSegment c n
    generalize tcpSendSegment c { psh := true, ack := true } c.sndNxt c.rcvNxt n true = r
      at hsnd hmss hsent
    obtain ⟨c1, err⟩ := r
    simp only at hsnd hmss hsent
    cases err with
    | NO_ERROR =>
      obtain ⟨-, hno⟩ | ⟨e, hlog, hseq, hlen⟩ := hsent
      · exact absurd rfl hno
      -- the segment is counted, the rest follows by induction
      have hsub : u16Sub c1.sndUser n = c.sndUser - n := by
        rw [congrArg (·.sndUser) hsnd]
        exact u16Sub_of_le (by omega) (by omega)
      have hnxt : c1.sndNxt = c.sndNxt := congrArg (·.sndNxt) hsnd
      have huna : c1.sndUna = c.sndUna := congrArg (·.sndUna) hsnd
      have hsmss : c1.smss = c.smss := congrArg (·.smss) hmss
      have h1 := ih { c1 with sndNxt := c1.sndNxt + w32 n, sndUser := u16Sub c1.sndUser n }
        (u - w32 n) w hw
        (by
          show u - w32 n = w32 w - (c1.sndNxt + w32 n - c1.sndUna)
          rw [hu, huna, hnxt]
          simp only [w32]
          bv_omega)
        (by
          show (c1.sndNxt + w32 n - c1.sndUna).toNat ≤ 2 ^ 31
          rw [huna, hnxt]
          omega)
        (by rw [hsmss]; exact hs) (u16_lt _)
      have hvars : ({ c1 with sndNxt := c1.sndNxt + w32 n, sndUser := u16Sub c1.sndUser n } :
          Ctx).toSndVars =
          { c.toSndVars with sndNxt := c.sndNxt + w32 n, sndUser := c.sndUser - n } := by
        show ({ c1.toSndVars with
          sndNxt := c1.sndNxt + w32 n, sndUser := u16Sub c1.sndUser n } : SndVars) = _
        rw [hsub, hnxt, hsnd]
      rw [hvars] at h1
      simp only [hsmss, hlog] at h1
      exact .count hseq hlen (by omega) (by omega) (by omega) hroom h1
    | _ =>
      obtain ⟨hlog, -⟩ | ⟨e, hlog, hseq, hlen⟩ := hsent
      · simp only [hlog, hsnd]
        exact .refl
      · simp only [hlog, hsnd]
        refine ⟨rfl, rfl, ⟨[], [e], rfl, Nat.le_refl 1, ⟨hseq, by omega, by omega, trivial⟩, ?_⟩,
          fun _ => hlt.le⟩
        simp [dataLength]

/-- A turn takes at least one byte from `sndUser`: one turn more than `sndUser` changes nothing. -/
theorem sendLoop_succ (sendable : Ctx → Word → Nat → Bool) (fuel : Nat) : ∀ (c : Ctx) (u : Word),
    0 < c.smss → c.sndUser < 65536 → c.sndUser ≤ fuel →
    sendLoop sendable (fuel + 1) c u = sendLoop sendable fuel c u := by
  induction fuel with
  | zero =>
    intro c u _ _ h0
    have h0 : c.sndUser = 0 := Nat.le_zero.mp h0
    simp [sendLoop, h0]
  | succ fuel ih =>
    intro c u hs hu16 hle
    rw [sendLoop, sendLoop]
    by_cases hstop : c.sndUser = 0 ∨ u.toInt ≤ 0
    · rw [if_pos hstop, if_pos hstop]
    rw [if_neg hstop, if_neg hstop]
    have hpos : 0 < u.toNat := by
      have h1 : ¬u.toInt ≤ 0 := fun h => hstop (.inr h)
      rw [BitVec.toInt_eq_toNat_cond] at h1
      split at h1 <;> omega
    simp only
    generalize hn : min (min u.toNat c.sndUser) c.smss = n
    obtain ⟨hsnd, hmss, -⟩ := sent_tcpSendSegment c n
    generalize tcpSendSegment c { psh := true, ack := true } c.sndNxt c.rcvNxt n true = r
      at hsnd hmss
    obtain ⟨c1, err⟩ := r
    simp only at hsnd hmss
    cases err with
    | NO_ERROR =>
      have hsub : u16Sub c1.sndUser n = c.sndUser - n := by
        rw [congrArg (·.sndUser) hsnd]
        exact u16Sub_of_le (by omega) (by omega)
      have hsmss : c1.smss = c.smss := congrArg (·.smss) hmss
      have h1 := ih { c1 with sndNxt := c1.sndNxt + w32 n, sndUser := u16Sub c1.sndUser n }
        (u - w32 n) (by rw [hsmss]; exact hs) (u16_lt _)
        (by
          show u16Sub c1.sndUser n ≤ fuel
          rw [hsub]
          omega)
      simp only [h1]
    | _ => rfl

theorem sendLoop_fuel (sendable : Ctx → Word → Nat → Bool) (c : Ctx) (u : Word) (hs : 0 < c.smss)
    (hu16 : c.sndUser < 65536) {fuel : Nat} (hle : c.sndUser ≤ fuel) :
    sendLoop sendable fuel c u = sendLoop sendable c.sndUser c u := by
  induction fuel, hle using Nat.le_induction with
  | base => rfl
  | succ k hk ih => rw [sendLoop_succ sendable k c u hs hu16 hk, ih]

/-- The window both loops send into. -/
def sendWindow (c : Ctx) : Nat := min (min c.sndWnd c.txBufferSize) c.cwnd

/-- Both loops end, and what they send follows on from `SND.NXT` and stays inside the window, also
when more than the window is in flight before. -/
theorem sending_paced (c : Ctx) (hs : 0 < c.smss) (hf : (c.sndNxt - c.sndUna).toNat < 2 ^ 31)
    (hsize : Sized c.toSocket) :
    (∀ sendable fuel, c.sndUser ≤ fuel →
      sendLoop sendable fuel c (usableWindow c) = sendLoop sendable c.sndUser c (usableWindow c)) ∧
    (∀ flags, Paced c.smss (sendWindow c) c.toSndVars c.sent (tcpNagleAlgo c flags).1.toSndVars
      (tcpNagleAlgo c flags).1.sent) ∧
    Paced c.smss (sendWindow c) c.toSndVars c.sent (tickOverride c).toSndVars
      (tickOverride c).sent := by
  have hwnd := hsize.wnd
  have hw : sendWindow c < 2 ^ 31 := by
    unfold sendWindow
    omega
  have hpaced : ∀ sendable, Paced c.smss (sendWindow c) c.toSndVars c.sent
      (sendLoop sendable c.sndUser c (usableWindow c)).1.toSndVars
      (sendLoop sendable c.sndUser c (usableWindow c)).1.sent :=
    fun sendable => sendLoop_paced sendable c.sndUser c _ _ hw rfl hf.le hs hsize.user
  refine ⟨fun sendable fuel => sendLoop_fuel sendable c _ hs hsize.user, fun flags => ?_, ?_⟩
  · have h1 := hpaced (nagleSendable flags)
    unfold tcpNagleAlgo
    generalize sendLoop (nagleSendable flags) c.sndUser c (usableWindow c) = r at h1
    split
    · exact h1
    · exact h1
  · have h1 := hpaced fun _ _ _ => true
    unfold tickOverride
    generalize sendLoop (fun _ _ _ => true) c.sndUser c (usableWindow c) = r at h1
    simp only
    split
    · exact h1
    · exact h1

/-- 8 bytes wait and the window has room for 5 of them. -/
def waitingBytes : Ctx where
  toEnv := Env.granting
  smss := 536
  state := .ESTABLISHED
  remoteIpAddr := { length := sizeofIpv4Addr, ipv4Addr := 0x0A000002 }
  sndUser := 8
  sndWnd := 5
  txBuffer := ⟨[⟨[1, 2, 3, 4, 5, 6, 7, 8], 8⟩], 1⟩
  txBufferSize := 8
  cwnd := 1072

theorem sending_paced_once :
    ((tcpNagleAlgo waitingBytes SOCKET_FLAG_NO_DELAY).1.sndNxt -
      (tcpNagleAlgo waitingBytes SOCKET_FLAG_NO_DELAY).1.sndUna).toNat ≤ 5 := by
  have h := (sending_paced waitingBytes (by decide) (by decide) ⟨by decide, by decide⟩).2.1
    SOCKET_FLAG_NO_DELAY
  exact h.bound (.inr (by decide +kernel))

end Cyclone
