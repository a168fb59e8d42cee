import Cyclone.PppReplies

/-!
# Cyclone.PppRepliesFit

When the replies of LCP are what they should be.

* `nak_length_pap`, `nak_length_chap`: the size of a Configure-Nak against that of its request.
* `configureReq_replies` to `unknownPacket_eq`: the replies to each kind of packet.
* `replies_iff`: the replies are right exactly when the packet fits.
-/

namespace Cyclone

/-! ## The size of the answer -/

section Size

variable {settings : AuthSettings} {options : List ConfOption}

/-- What the first loop decides. -/
def chosenCode (settings : AuthSettings) (options : List ConfOption) : ConfigureCode :=
  if ∃ o ∈ options, ¬Recognized settings o then .CONFIGURE_REJ
  else if ∃ o ∈ options, Recognized settings o ∧ ¬Accepts settings o then .CONFIGURE_NAK
  else .CONFIGURE_ACK

/-- The answer the second loop writes. -/
def chosenAnswer (settings : AuthSettings) (identifier : UInt8) (options : List ConfOption) :
    ConfigureAckNak :=
  addAll { code := chosenCode settings options, identifier }
    (options.filterMap (answerOption settings (chosenCode settings options)))

/-- An option that asks for PAP. -/
def AsksPap (o : ConfOption) : Prop :=
  o.1 = LCP_OPTION_AUTH_PROTOCOL ∧ be16Value o.2 = PPP_PROTOCOL_PAP

instance (o : ConfOption) : Decidable (AsksPap o) := inferInstanceAs (Decidable (_ ∧ _))

/-- The bytes of the options that are acceptable. -/
def acceptedBytes (settings : AuthSettings) (options : List ConfOption) : Nat :=
  (encodeConf (options.filter fun o => Accepts settings o)).length

theorem filterMap_reject : options.filterMap (answerOption settings .CONFIGURE_REJ) =
    options.filter fun o => ¬Recognized settings o := by
  induction options with
  | nil => rfl
  | cons o options ih =>
    rw [List.filterMap_cons, List.filter_cons, answerOption, ih]
    by_cases h : Recognized settings o <;> simp [h]

theorem filterMap_nak (h : ∀ o ∈ options, Recognized settings o) :
    options.filterMap (answerOption settings .CONFIGURE_NAK) =
      (options.filter fun o => ¬Accepts settings o).map fun o => (o.1, nakValue settings o.1) := by
  induction options with
  | nil => rfl
  | cons o options ih =>
    have ho := h o List.mem_cons_self
    rw [List.filterMap_cons, List.filter_cons, answerOption,
      ih fun o ho => h o (List.mem_cons_of_mem _ ho)]
    by_cases ha : Accepts settings o <;> simp [ho, ha]

theorem filterMap_ack (h : ∀ o ∈ options, Recognized settings o ∧ Accepts settings o) :
    options.filterMap (answerOption settings .CONFIGURE_ACK) = options := by
  induction options with
  | nil => rfl
  | cons o options ih =>
    rw [List.filterMap_cons, answerOption, if_pos (h o List.mem_cons_self),
      ih fun o ho => h o (List.mem_cons_of_mem _ ho)]

theorem length_filter_le (p : ConfOption → Bool) :
    (encodeConf (options.filter p)).length ≤ (encodeConf options).length := by
  induction options with
  | nil => exact Nat.le_refl _
  | cons o options ih =>
    rw [List.filter_cons]
    split_ifs
    · rw [length_encodeConf_cons, length_encodeConf_cons]
      omega
    · rw [length_encodeConf_cons]
      omega

/-- An option with a value that is not acceptable is one of two. -/
theorem not_accepts_cases {o : ConfOption} (hr : Recognized settings o)
    (ha : ¬Accepts settings o) : o.1 = LCP_OPTION_MRU ∨ o.1 = LCP_OPTION_AUTH_PROTOCOL ∧
      (settings.pap = true ∨ settings.chapMd5 = true) := by
  by_cases hm : o.1 = LCP_OPTION_MRU
  · exact .inl hm
  · rcases hr with hr | hr
    · refine absurd ⟨fun h => absurd h hm, fun h => ?_⟩ ha
      rw [h] at hr
      exact absurd hr (by decide)
    · exact .inr hr

theorem nakValue_length_pap {o : ConfOption} (hp : Parses o) (hr : Recognized settings o)
    (ha : ¬Accepts settings o) (hpap : settings.pap = true) :
    (nakValue settings o.1).length ≤ o.2.length := by
  rcases not_accepts_cases hr ha with hm | ⟨hauth, -⟩
  · rw [hm, hp.1.mru hm]
    exact Nat.le_refl _
  · rw [hauth, nakValue, if_neg (by decide), if_pos hpap]
    exact (hp.1.auth hauth).1

theorem nakValue_length_chap {o : ConfOption} (hp : Parses o) (hr : Recognized settings o)
    (ha : ¬Accepts settings o) (hpap : settings.pap = false) :
    (nakValue settings o.1).length = o.2.length + if AsksPap o then 1 else 0 := by
  rcases not_accepts_cases hr ha with hm | ⟨hauth, -⟩
  · have hn : ¬AsksPap o := fun h => absurd (hm.symm.trans h.1) (by decide)
    rw [if_neg hn, hm, hp.1.mru hm]
    rfl
  · have hlen := (hp.1.auth hauth).2
    have hval : (nakValue settings o.1).length = 3 := by
      rw [hauth, nakValue, if_neg (by decide), hpap, if_neg Bool.false_ne_true]
      rfl
    rw [hval]
    rcases hp.2 hauth with hv | hv
    · rw [if_pos ⟨hauth, hv⟩, hlen.1 hv]
    · have hn : ¬AsksPap o := fun h => absurd (hv.symm.trans h.2) (by decide)
      rw [if_neg hn, hlen.2 hv]

/-- The replacement by PAP is never longer. -/
theorem nak_length_pap (hp : ∀ o ∈ options, Parses o) (hr : ∀ o ∈ options, Recognized settings o)
    (hpap : settings.pap = true) :
    (encodeConf (options.filterMap (answerOption settings .CONFIGURE_NAK))).length ≤
      (encodeConf options).length := by
  induction options with
  | nil => exact Nat.le_refl _
  | cons o options ih =>
    have ih := ih (fun o ho => hp o (List.mem_cons_of_mem _ ho)) fun o ho =>
      hr o (List.mem_cons_of_mem _ ho)
    have ho := hr o List.mem_cons_self
    rw [List.filterMap_cons, answerOption, length_encodeConf_cons]
    by_cases ha : Accepts settings o
    · rw [if_neg fun hc => hc.2 ha]
      dsimp only
      omega
    · rw [if_pos ⟨ho, ha⟩]
      dsimp only
      have hval := nakValue_length_pap (hp o List.mem_cons_self) ho ha hpap
      rw [length_encodeConf_cons]
      dsimp only
      omega

/-- The replacement of PAP by CHAP is one byte longer. -/
theorem nak_length_chap (hp : ∀ o ∈ options, Parses o) (hr : ∀ o ∈ options, Recognized settings o)
    (hpap : settings.pap = false) :
    (encodeConf (options.filterMap (answerOption settings .CONFIGURE_NAK))).length +
      acceptedBytes settings options =
        (encodeConf options).length + options.countP fun o => AsksPap o := by
  induction options with
  | nil => rfl
  | cons o options ih =>
    have ih := ih (fun o ho => hp o (List.mem_cons_of_mem _ ho)) fun o ho =>
      hr o (List.mem_cons_of_mem _ ho)
    have ho := hr o List.mem_cons_self
    rw [acceptedBytes] at ih ⊢
    rw [List.filterMap_cons, answerOption, length_encodeConf_cons, List.countP_cons,
      List.filter_cons]
    by_cases ha : Accepts settings o
    · have hn : ¬AsksPap o := by
        intro h
        rcases ha.2 h.1 with ⟨hc, -⟩ | ⟨-, hv⟩
        · rw [hpap] at hc
          cases hc
        · have hval := h.2
          rw [hv] at hval
          exact absurd hval (by decide)
      rw [if_neg fun hc => hc.2 ha, if_pos (decide_eq_true ha), length_encodeConf_cons]
      simp only [decide_eq_true_eq, hn, if_false]
      omega
    · have hval := nakValue_length_chap (hp o List.mem_cons_self) ho ha hpap
      rw [if_pos ⟨ho, ha⟩, if_neg (by simpa using ha)]
      dsimp only
      rw [length_encodeConf_cons]
      dsimp only
      simp only [decide_eq_true_eq]
      omega

end Size

/-! ## When the replies are right -/

/-- The options of a Configure-Request are of the kinds that the code handles: no authentication
protocol but PAP and CHAP, and not more options that ask for PAP, where CHAP alone is allowed, than
there are bytes of acceptable options to make room for what replaces them. -/
def OptionsFit (settings : AuthSettings) (options : List ConfOption) : Prop :=
  (∀ o ∈ options, KnownAuth o) ∧
    ((∀ o ∈ options, Recognized settings o) → settings.pap = false →
      (options.countP fun o => AsksPap o) ≤ acceptedBytes settings options)

section Options

variable {settings : AuthSettings} {options : List ConfOption} {identifier : UInt8}

theorem accepts_nakValue {o : ConfOption} (hr : Recognized settings o)
    (ha : ¬Accepts settings o) : Accepts settings (o.1, nakValue settings o.1) := by
  rcases not_accepts_cases hr ha with hm | ⟨hauth, hs⟩
  · rw [hm]
    refine ⟨fun _ => show PPP_MIN_MRU ≤ be16Value (be16 PPP_DEFAULT_MRU) by decide, fun h => ?_⟩
    exact absurd (show LCP_OPTION_MRU = LCP_OPTION_AUTH_PROTOCOL from h) (by decide)
  · rw [hauth]
    refine ⟨fun h => ?_, fun _ => ?_⟩
    · exact absurd (show LCP_OPTION_AUTH_PROTOCOL = LCP_OPTION_MRU from h) (by decide)
    · rw [nakValue, if_neg (by decide)]
      by_cases hpap : settings.pap = true
      · exact .inl ⟨hpap, by rw [if_pos hpap]⟩
      · exact .inr ⟨hs.resolve_left hpap, by rw [if_neg hpap]⟩

theorem chosenCode_naks (hr : ∀ o ∈ options, Recognized settings o)
    (ha : ∃ o ∈ options, ¬Accepts settings o) : chosenCode settings options = .CONFIGURE_NAK := by
  obtain ⟨o, ho, hna⟩ := ha
  rw [chosenCode, if_neg fun ⟨v, hv, hc⟩ => hc (hr v hv), if_pos ⟨o, ho, hr o ho, hna⟩]

/-- The answer is no longer than the request. -/
theorem chosen_length_le (hp : ∀ o ∈ options, Parses o) (hf : OptionsFit settings options) :
    (encodeConf (options.filterMap (answerOption settings (chosenCode settings options)))).length
      ≤ (encodeConf options).length := by
  by_cases hr : ∀ o ∈ options, Recognized settings o
  · by_cases ha : ∃ o ∈ options, ¬Accepts settings o
    · rw [chosenCode_naks hr ha]
      cases hpap : settings.pap with
      | true => exact nak_length_pap hp hr hpap
      | false =>
        have hlen := nak_length_chap hp hr hpap
        have hcount := hf.2 hr hpap
        omega
    · have ha' : ∀ o ∈ options, Recognized settings o ∧ Accepts settings o := fun o ho =>
        ⟨hr o ho, by_contra fun hc => ha ⟨o, ho, hc⟩⟩
      rw [chosenCode, if_neg fun ⟨v, hv, hc⟩ => hc (hr v hv),
        if_neg fun ⟨v, hv, hc⟩ => hc.2 (ha' v hv).2, filterMap_ack ha']
  · have hrej : ∃ o ∈ options, ¬Recognized settings o := by
      by_contra hc
      exact hr fun o ho => by_contra fun hno => hc ⟨o, ho, hno⟩
    rw [chosenCode, if_pos hrej, filterMap_reject]
    exact length_filter_le _

theorem chosenAnswer_right (hp : ∀ o ∈ options, Parses o) (hf : OptionsFit settings options)
    (hsize : 4 + (encodeConf options).length < 65536) :
    RightAnswer settings identifier options (chosenAnswer settings identifier options) ∧
      (chosenAnswer settings identifier options).written ≤ 4 + (encodeConf options).length := by
  have hle := chosen_length_le hp hf
  obtain ⟨hcode, hid, hopts, -⟩ := addAll_contents
    { code := chosenCode settings options, identifier }
    (options.filterMap (answerOption settings (chosenCode settings options)))
  obtain ⟨hlen, hwritten⟩ := @addAll_fits { code := chosenCode settings options, identifier }
    (options.filterMap (answerOption settings (chosenCode settings options)))
    (4 + (encodeConf options).length) hsize rfl (by dsimp only; omega)
  rw [List.nil_append] at hopts
  refine ⟨⟨hid, ?_, fun hrej => ?_, fun hr ha => ?_, fun hr ha => ?_⟩, ?_⟩
  · rw [chosenAnswer, hlen, hopts]
  · have hc : chosenCode settings options = .CONFIGURE_REJ := if_pos hrej
    rw [chosenAnswer, hcode, hopts, hc, filterMap_reject]
    exact ⟨rfl, rfl⟩
  · have hc := chosenCode_naks hr ha
    rw [chosenAnswer, hcode, hopts, hc, filterMap_nak hr]
    exact ⟨rfl, fun o => nakValue settings o.1, fun o ho hna => accepts_nakValue (hr o ho) hna,
      rfl⟩
  · have hc : chosenCode settings options = .CONFIGURE_ACK := by
      rw [chosenCode, if_neg fun ⟨v, hv, hn⟩ => hn (hr v hv),
        if_neg fun ⟨v, hv, hn⟩ => hn.2 (ha v hv)]
    rw [chosenAnswer, hcode, hopts, hc, filterMap_ack fun o ho => ⟨hr o ho, ha o ho⟩]
    exact ⟨rfl, rfl⟩
  · rw [chosenAnswer, hwritten]
    dsimp only
    omega

/-- Too many options that ask for PAP. -/
theorem chosenAnswer_beyond (hp : ∀ o ∈ options, Parses o)
    (hr : ∀ o ∈ options, Recognized settings o) (hpap : settings.pap = false)
    (hmany : acceptedBytes settings options < options.countP fun o => AsksPap o)
    (hsize : 4 + (encodeConf options).length < 65536) :
    4 + (encodeConf options).length < (chosenAnswer settings identifier options).written := by
  have ha : ∃ o ∈ options, ¬Accepts settings o := by
    obtain ⟨o, ho, hasks⟩ := List.countP_pos_iff.mp (Nat.zero_lt_of_lt hmany)
    have hasks := of_decide_eq_true hasks
    refine ⟨o, ho, fun hacc => ?_⟩
    rcases hacc.2 hasks.1 with ⟨hc, -⟩ | ⟨-, hv⟩
    · rw [hpap] at hc
      cases hc
    · have hval := hasks.2
      rw [hv] at hval
      exact absurd hval (by decide)
  have hlen := nak_length_chap hp hr hpap
  rw [chosenAnswer, chosenCode_naks hr ha]
  exact addAll_beyond hsize rfl (Nat.le_add_right ..) (by dsimp only; omega)

end Options

section Packets

variable {e : LcpEndpoint} {frame packet : List UInt8} {options : List ConfOption}

theorem length_lcpPacket (h : lcpPacket frame = some packet) :
    4 ≤ packet.length ∧ packet.length < 65536 := by
  unfold lcpPacket at h
  dsimp only at h
  have h2 := (frame.getD 2 0).toNat_lt
  have h3 := (frame.getD 3 0).toNat_lt
  split_ifs at h
  obtain rfl := Option.some.inj h
  rw [List.length_take]
  omega

theorem act_replies (f : ConfContext LcpConfig → ConfContext LcpConfig) :
    (e.act f).replies = e.replies := rfl

theorem sendConfigure_memory (c : ConfContext LcpConfig) :
    (lcpCallbacks.sendConfigureReq c).memory = c.memory := by
  show (sendConfigureReq lcpRequestOptions c).memory = c.memory
  unfold sendConfigureReq
  split_ifs <;> rfl

/-- The reply depends on the memory, the settings and the peer. -/
theorem sendConfigureAckNak_act (code : ConfigureCode)
    {f : ConfContext LcpConfig → ConfContext LcpConfig} (hf : (f e.conf).memory = e.conf.memory) :
    (pppSendConfigureAckNak (e.act f) packet code).replies =
      (pppSendConfigureAckNak e packet code).replies := by
  unfold pppSendConfigureAckNak LcpEndpoint.act
  dsimp only
  rw [hf]
  split_ifs <;> rfl

/-- In the states that answer a Configure-Request, one Configure packet is sent. -/
theorem configureReqEvent_replies (code : ConfigureCode) :
    (pppRcvConfigureReqEvent lcpFsm lcpReplyCallbacks e packet code).replies =
      if e.conf.state.Answers then (pppSendConfigureAckNak e packet code).replies
      else e.replies := by
  unfold pppRcvConfigureReqEvent
  have hstate : lcpFsm.state e = e.conf.state := rfl
  rw [hstate]
  cases hs : e.conf.state with
  | STOPPED =>
    rw [if_pos (show PppState.STOPPED.Answers by decide)]
    exact sendConfigureAckNak_act code (f := fun c => lcpCallbacks.sendConfigureReq
      (lcpCallbacks.initRestartCount c PPP_MAX_CONFIGURE)) (sendConfigure_memory _)
  | REQ_SENT =>
    rw [if_pos (show PppState.REQ_SENT.Answers by decide)]
    dsimp only
    split_ifs <;> rfl
  | ACK_RCVD =>
    rw [if_pos (show PppState.ACK_RCVD.Answers by decide)]
    dsimp only
    split_ifs <;> rfl
  | ACK_SENT =>
    rw [if_pos (show PppState.ACK_SENT.Answers by decide)]
    dsimp only
    split_ifs <;> rfl
  | OPENED =>
    rw [if_pos (show PppState.OPENED.Answers by decide)]
    exact sendConfigureAckNak_act code (f := lcpCallbacks.sendConfigureReq)
      (sendConfigure_memory _)
  | _ => rfl

theorem configureReq_replies (hb : packet.drop 4 = encodeConf options)
    (hp : ∀ o ∈ options, Parses o) :
    (lcpProcessConfigureReq e packet).replies =
      if e.conf.state.Answers ∧ e.conf.memory = true then
        .configure packet.length (chosenAnswer e.settings (packet.getD 1 0) options) :: e.replies
      else e.replies := by
  have hbyte : ∀ o ∈ options, o.2.length ≤ 253 := fun o ho => (hp o ho).1.byte
  unfold lcpProcessConfigureReq
  rw [hb, applyOptions_encode hbyte, applyAll_check hp]
  simp only [Bool.false_or]
  rw [configureReqEvent_replies]
  by_cases hs : e.conf.state.Answers
  · rw [if_pos hs]
    unfold pppSendConfigureAckNak
    by_cases hm : e.conf.memory = true
    · have hand : e.conf.state.Answers ∧ e.conf.memory = true := ⟨hs, hm⟩
      rw [if_pos hm, if_pos hand]
      dsimp only
      rw [hb, applyOptions_encode hbyte, applyAll_answer hp, Option.getD_some]
      simp only [decide_eq_true_eq]
      rfl
    · rw [if_neg hm, if_neg fun hc => hm hc.2]
  · rw [if_neg hs, if_neg fun hc => hs hc.1]

/-- A list that is no list of options, or has an option that does not parse, gets no answer. -/
theorem configureReq_stop (h : ¬∃ options, packet.drop 4 = encodeConf options ∧
    ∀ o ∈ options, Parses o) : (lcpProcessConfigureReq e packet).replies = e.replies := by
  unfold lcpProcessConfigureReq
  split
  next flag1 flag2 hloop =>
    refine absurd ?_ h
    have hopt : ∀ type d c err, lcpCheckOption e.settings e.peerConfig type d c = .error err →
        err ≠ .NO_ERROR := by
      intro type d c err he
      rw [lcpCheckOption_error he]
      decide
    have hok : (applyOptions (lcpCheckOption e.settings e.peerConfig) (packet.drop 4)
        (false, false)).1 = .NO_ERROR := by rw [hloop]
    obtain ⟨options, hb, hbyte⟩ := confOptionLoop_split hopt (Nat.le_refl _) hok
    refine ⟨options, hb, by_contra fun hn => ?_⟩
    rw [hb, applyOptions_encode hbyte, applyAll_check_stop hbyte hn] at hok
    cases hok
  next => rfl

theorem copied_right {r : CopiedReply} {mru : Nat} (hm : r.length ≤ mru) (h16 : r.length < 65536)
    (hh : 4 + r.fields.length ≤ r.length)
    (hc : r.copied = appendedLength r.length (4 + r.fields.length))
    (hs : r.length ≤ 4 + r.fields.length + r.source.length) : RightCopy mru r := by
  have hcopied : r.copied = r.length - (4 + r.fields.length) := by
    rw [hc, appendedLength]
    omega
  refine ⟨hh, ?_, ?_, hm.trans (Nat.le_max_right _ _)⟩
  · rw [hcopied]
    omega
  · rw [hcopied]
    omega

theorem codeRejEvent_replies (hm : e.conf.memory = true) (h1 : e.conf.state ≠ .INITIAL)
    (h2 : e.conf.state ≠ .STARTING) :
    (pppRcvUnknownCodeEvent lcpFsm lcpReplyCallbacks e packet).replies =
      .codeRej ⟨e.conf.identifier + 1, min (packet.length + 4) e.peerConfig.mru.toNat, [],
        appendedLength (min (packet.length + 4) e.peerConfig.mru.toNat) 4, packet⟩ ::
        e.replies := by
  have hsend : (lcpReplyCallbacks.sendCodeRej e packet).replies =
      .codeRej ⟨e.conf.identifier + 1, min (packet.length + 4) e.peerConfig.mru.toNat, [],
        appendedLength (min (packet.length + 4) e.peerConfig.mru.toNat) 4, packet⟩ ::
        e.replies := by
    show (pppSendCodeRej _ packet).replies = _
    have hm' : (e.act fun c => { c with identifier := c.identifier + 1 }).conf.memory = true := hm
    rw [pppSendCodeRej, if_pos hm']
    rfl
  unfold pppRcvUnknownCodeEvent
  have hstate : lcpFsm.state e = e.conf.state := rfl
  rw [hstate]
  cases hs : e.conf.state with
  | INITIAL => exact absurd hs h1
  | STARTING => exact absurd hs h2
  | _ => exact hsend

theorem codeRejEvent_silent
    (h : ¬(e.conf.memory = true ∧ e.conf.state ≠ .INITIAL ∧ e.conf.state ≠ .STARTING)) :
    (pppRcvUnknownCodeEvent lcpFsm lcpReplyCallbacks e packet).replies = e.replies := by
  have hsend : e.conf.memory ≠ true → (lcpReplyCallbacks.sendCodeRej e packet).replies =
      e.replies := by
    intro hm
    show (pppSendCodeRej _ packet).replies = _
    have hm' : (e.act fun c => { c with identifier := c.identifier + 1 }).conf.memory ≠ true := hm
    rw [pppSendCodeRej, if_neg hm']
    rfl
  unfold pppRcvUnknownCodeEvent
  have hstate : lcpFsm.state e = e.conf.state := rfl
  rw [hstate]
  cases hs : e.conf.state with
  | INITIAL => rfl
  | STARTING => rfl
  | _ => exact hsend fun hm => h ⟨hm, by rw [hs]; decide, by rw [hs]; decide⟩

/-- An Echo-Reply is right whatever the peer has negotiated. -/
theorem echoEvent_right (hold : e.replies = []) :
    ∀ r ∈ (pppRcvEchoReqEvent lcpFsm lcpReplyCallbacks e packet).replies,
      RightReply e.peerConfig.mru.toNat r := by
  have hsend : ∀ r ∈ (pppSendEchoRep e packet).replies, RightReply e.peerConfig.mru.toNat r := by
    unfold pppSendEchoRep
    intro r hr
    by_cases h1 : packet.length < 8
    · rw [if_pos h1, hold] at hr
      cases hr
    rw [if_neg h1] at hr
    by_cases h2 : packet.length > e.peerConfig.mru.toNat
    · rw [if_pos h2, hold] at hr
      cases hr
    rw [if_neg h2] at hr
    by_cases hm : e.conf.memory = true
    · rw [if_pos hm, hold] at hr
      obtain rfl := List.mem_singleton.mp hr
      have hmru := e.peerConfig.mru.toNat_lt
      have hfields : (be32 e.conf.localConfig.magicNumber).length = 4 := rfl
      refine copied_right (Nat.not_lt.mp h2) ?_ ?_ rfl ?_
      · dsimp only
        omega
      · dsimp only
        omega
      · dsimp only
        rw [hfields, List.length_drop]
        omega
    · rw [if_neg hm, hold] at hr
      cases hr
  unfold pppRcvEchoReqEvent
  have hstate : lcpFsm.state e = e.conf.state := rfl
  rw [hstate]
  cases hs : e.conf.state with
  | OPENED => exact hsend
  | _ =>
    intro r hr
    dsimp only at hr
    rw [hold] at hr
    cases hr

/-- The codes of the packets that LCP knows, Configure-Request and Echo-Request apart, get none of
the replies. -/
theorem otherPacket_replies (h1 : (packet.getD 0 0).toNat ≠ 1) (h9 : (packet.getD 0 0).toNat ≠ 9)
    (hlow : (packet.getD 0 0).toNat ≠ 0) (hhigh : (packet.getD 0 0).toNat ≤ 11)
    (hp : lcpPacket frame = some packet) : (lcpProcessPacket e frame).replies = e.replies := by
  unfold lcpProcessPacket
  rw [hp]
  dsimp only
  generalize (packet.getD 0 0).toNat = code at h1 h9 hlow hhigh ⊢
  interval_cases code
  case «7» =>
    show (lcpProcessCodeRej e packet).replies = _
    unfold lcpProcessCodeRej
    split_ifs <;> rfl
  case «8» =>
    show (lcpProcessProtocolRej e packet).replies = _
    unfold lcpProcessProtocolRej
    dsimp only
    split_ifs <;> rfl
  all_goals first | rfl | contradiction

theorem configurePacket_eq (hp : lcpPacket frame = some packet)
    (h : (packet.getD 0 0).toNat = 1) :
    lcpProcessPacket e frame = lcpProcessConfigureReq e packet := by
  unfold lcpProcessPacket
  rw [hp]
  dsimp only
  rw [h]
  rfl

theorem echoPacket_eq (hp : lcpPacket frame = some packet) (h : (packet.getD 0 0).toNat = 9) :
    lcpProcessPacket e frame = pppRcvEchoReqEvent lcpFsm lcpReplyCallbacks e packet := by
  unfold lcpProcessPacket
  rw [hp]
  dsimp only
  rw [h]
  rfl

theorem unknownPacket_eq (hp : lcpPacket frame = some packet)
    (h : (packet.getD 0 0).toNat = 0 ∨ 11 < (packet.getD 0 0).toNat) :
    lcpProcessPacket e frame = pppRcvUnknownCodeEvent lcpFsm lcpReplyCallbacks e packet := by
  unfold lcpProcessPacket
  rw [hp]
  dsimp only
  generalize (packet.getD 0 0).toNat = code at h ⊢
  split
  all_goals first | rfl | omega

end Packets

/-- The options of a Configure-Request are of the kinds that the code handles, and the MRU of the
peer has room for the header of a reject. -/
def RepliesFit (e : LcpEndpoint) : LcpInput → Prop
  | .packet frame => ∀ packet, lcpPacket frame = some packet →
    ((packet.getD 0 0).toNat = 1 → e.conf.state.Answers → e.conf.memory = true →
      ∀ options, packet.drop 4 = encodeConf options → (∀ o ∈ options, WellFormedOption o) →
        OptionsFit e.settings options) ∧
    ((packet.getD 0 0).toNat = 0 ∨ 11 < (packet.getD 0 0).toNat → e.conf.memory = true →
      e.conf.state ≠ .INITIAL → e.conf.state ≠ .STARTING → 4 ≤ e.peerConfig.mru.toNat)
  | .unknownProtocol _ _ =>
    e.conf.memory = true → e.conf.state = .OPENED → 6 ≤ e.peerConfig.mru.toNat

section Replies

variable {e : LcpEndpoint} {frame packet : List UInt8}

/-- A Configure-Request to an endpoint that has sent nothing. -/
theorem configure_right (hold : e.replies = []) (hp : lcpPacket frame = some packet)
    (h1 : (packet.getD 0 0).toNat = 1)
    (hf : e.conf.state.Answers → e.conf.memory = true → ∀ options,
      packet.drop 4 = encodeConf options → (∀ o ∈ options, WellFormedOption o) →
        OptionsFit e.settings options) :
    ∀ r ∈ (lcpProcessPacket e frame).replies, RightReply e.peerConfig.mru.toNat r := by
  intro r hr
  rw [configurePacket_eq hp h1] at hr
  by_cases hopts : ∃ options, packet.drop 4 = encodeConf options ∧ ∀ o ∈ options, Parses o
  · obtain ⟨options, hb, hparses⟩ := hopts
    rw [configureReq_replies hb hparses] at hr
    by_cases hand : e.conf.state.Answers ∧ e.conf.memory = true
    · rw [if_pos hand, hold] at hr
      obtain rfl := List.mem_singleton.mp hr
      obtain ⟨hlow, hhigh⟩ := length_lcpPacket hp
      have hlen : packet.length = 4 + (encodeConf options).length := by
        rw [← hb, List.length_drop]
        omega
      show (chosenAnswer _ _ _).written ≤ packet.length
      rw [hlen]
      exact (chosenAnswer_right hparses (hf hand.1 hand.2 options hb fun o ho => (hparses o ho).1)
        (by omega)).2
    · rw [if_neg hand, hold] at hr
      cases hr
  · rw [configureReq_stop hopts, hold] at hr
    cases hr

theorem replies_of_fit (hold : e.replies = []) {i : LcpInput} (hf : RepliesFit e i) :
    ∀ r ∈ (e.receive i).replies, RightReply e.peerConfig.mru.toNat r := by
  have hmru := e.peerConfig.mru.toNat_lt
  cases i with
  | packet frame =>
    show ∀ r ∈ (lcpProcessPacket e frame).replies, _
    cases hp : lcpPacket frame with
    | none =>
      have hnone : lcpProcessPacket e frame = e := by rw [lcpProcessPacket, hp]
      rw [hnone, hold]
      exact fun _ h => absurd h List.not_mem_nil
    | some packet =>
      obtain ⟨hconf, hrej⟩ := hf packet hp
      by_cases h1 : (packet.getD 0 0).toNat = 1
      · exact configure_right hold hp h1 (hconf h1)
      by_cases h9 : (packet.getD 0 0).toNat = 9
      · rw [echoPacket_eq hp h9]
        exact echoEvent_right hold
      by_cases hun : (packet.getD 0 0).toNat = 0 ∨ 11 < (packet.getD 0 0).toNat
      · rw [unknownPacket_eq hp hun]
        by_cases hs : e.conf.memory = true ∧ e.conf.state ≠ .INITIAL ∧ e.conf.state ≠ .STARTING
        · have h4 := hrej hun hs.1 hs.2.1 hs.2.2
          rw [codeRejEvent_replies hs.1 hs.2.1 hs.2.2, hold]
          intro r hr
          obtain rfl := List.mem_singleton.mp hr
          refine copied_right (Nat.min_le_right _ _) ?_ ?_ rfl ?_
          · dsimp only
            omega
          · simp only [List.length_nil]
            omega
          · simp only [List.length_nil]
            omega
        · rw [codeRejEvent_silent hs, hold]
          exact fun _ h => absurd h List.not_mem_nil
      · rw [otherPacket_replies h1 h9 (fun h => hun (.inl h)) (by omega) hp, hold]
        exact fun _ h => absurd h List.not_mem_nil
  | unknownProtocol protocol information =>
    show ∀ r ∈ (lcpProcessUnknownProtocol e protocol information).replies, _
    unfold lcpProcessUnknownProtocol
    by_cases hs : e.conf.state = .OPENED
    · rw [if_pos hs, pppSendProtocolRej]
      by_cases hm : e.conf.memory = true
      · have hm' : (e.act fun c => { c with identifier := c.identifier + 1 }).conf.memory = true :=
          hm
        have h6 := hf hm hs
        rw [if_pos hm']
        intro r hr
        change r ∈ [_] ++ e.replies at hr
        rw [hold] at hr
        obtain rfl := List.mem_singleton.mp hr
        have hfields : (be16 protocol).length = 2 := rfl
        refine copied_right (Nat.min_le_right _ _) ?_ ?_ rfl ?_
        · show min _ e.peerConfig.mru.toNat < 65536
          omega
        · show 4 + (be16 protocol).length ≤ min (information.length + 6) e.peerConfig.mru.toNat
          omega
        · show min (information.length + 6) e.peerConfig.mru.toNat ≤
            4 + (be16 protocol).length + information.length
          omega
      · have hm' : (e.act fun c => { c with identifier := c.identifier + 1 }).conf.memory ≠ true :=
          hm
        rw [if_neg hm']
        intro r hr
        change r ∈ e.replies at hr
        rw [hold] at hr
        cases hr
    · rw [if_neg hs, hold]
      exact fun _ h => absurd h List.not_mem_nil

/-- The replies are what they should be exactly when the packet fits: for every endpoint, and every
packet. -/
theorem replies_iff {i : LcpInput} : RepliesRight e i ↔ RepliesFit e i := by
  constructor
  · intro hr
    cases i with
    | packet frame =>
      intro packet hp
      obtain ⟨hlow, hhigh⟩ := length_lcpPacket hp
      refine ⟨fun h1 hs hm options hb hw => ?_, fun hun hm hi hst => ?_⟩
      · obtain ⟨out, hout, -⟩ := hr.answer frame packet options rfl hp h1 hb hw hs hm
        have heq : e.repliesTo (.packet frame) =
            (lcpProcessConfigureReq { e with replies := [] } packet).replies :=
          congrArg LcpEndpoint.replies (configurePacket_eq hp h1)
        have hknown : ∀ o ∈ options, KnownAuth o := by
          -- the list cannot be taken apart in another way, so the parser stops at the option
          by_contra hn
          have hbyte : ∀ o ∈ options, o.2.length ≤ 253 := fun o ho => (hw o ho).byte
          have hstop : ¬∀ o ∈ options, Parses o := fun hc => hn fun o ho => (hc o ho).2
          have hloop := @applyAll_check_stop e.settings e.peerConfig options (false, false) hbyte
            hstop
          rw [heq, lcpProcessConfigureReq, hb, applyOptions_encode hbyte] at hout
          dsimp only at hout
          generalize applyAll (lcpCheckOption e.settings e.peerConfig) options (false, false) = r
            at hloop hout
          obtain ⟨err, flags⟩ := r
          obtain rfl : err = .INVALID_LENGTH := hloop
          cases hout
        refine ⟨hknown, fun hrec hpap => ?_⟩
        have hparses : ∀ o ∈ options, Parses o := fun o ho => ⟨hw o ho, hknown o ho⟩
        have hlen : packet.length = 4 + (encodeConf options).length := by
          rw [← hb, List.length_drop]
          omega
        by_contra hmany
        have hand : e.conf.state.Answers ∧ e.conf.memory = true := ⟨hs, hm⟩
        have hbeyond := @chosenAnswer_beyond e.settings options (packet.getD 1 0) hparses hrec hpap
          (Nat.not_le.mp hmany) (by omega)
        have hmem : LcpReply.configure packet.length
            (chosenAnswer e.settings (packet.getD 1 0) options) ∈ e.repliesTo (.packet frame) := by
          rw [heq, configureReq_replies hb hparses]
          show _ ∈ (if e.conf.state.Answers ∧ e.conf.memory = true then _ else _)
          rw [if_pos hand]
          exact List.mem_cons_self
        have hwritten : (chosenAnswer e.settings (packet.getD 1 0) options).written ≤
            packet.length := hr.replies _ hmem
        omega
      · have heq : e.repliesTo (.packet frame) = (pppRcvUnknownCodeEvent lcpFsm lcpReplyCallbacks
            { e with replies := [] } packet).replies :=
          congrArg LcpEndpoint.replies (unknownPacket_eq hp hun)
        rw [@codeRejEvent_replies { e with replies := [] } packet hm hi hst] at heq
        have hreply := hr.replies
        rw [heq] at hreply
        have hheader := RightCopy.header (hreply _ List.mem_cons_self)
        simp only [List.length_nil] at hheader
        omega
    | unknownProtocol protocol information =>
      intro hm hs
      have heq : e.repliesTo (.unknownProtocol protocol information) =
          [.protocolRej ⟨e.conf.identifier + 1,
            min (information.length + 6) e.peerConfig.mru.toNat, be16 protocol,
            appendedLength (min (information.length + 6) e.peerConfig.mru.toNat) 6,
            information⟩] := by
        show (lcpProcessUnknownProtocol { e with replies := [] } protocol information).replies = _
        have hm' : (({ e with replies := [] } : LcpEndpoint).act fun c =>
            { c with identifier := c.identifier + 1 }).conf.memory = true := hm
        rw [lcpProcessUnknownProtocol, if_pos (show e.conf.state = .OPENED from hs),
          pppSendProtocolRej, if_pos hm']
        rfl
      have hreply := hr.replies
      rw [heq] at hreply
      have hheader := RightCopy.header (hreply _ List.mem_cons_self)
      have hfields : (be16 protocol).length = 2 := rfl
      dsimp only at hheader
      omega
  · intro hf
    refine ⟨fun frame packet options hi hp h1 hb hw hs hm => ?_, ?_⟩
    · subst hi
      obtain ⟨hlow, hhigh⟩ := length_lcpPacket hp
      have hfit := (hf packet hp).1 h1 hs hm options hb hw
      have hparses : ∀ o ∈ options, Parses o := fun o ho => ⟨hw o ho, hfit.1 o ho⟩
      have hlen : packet.length = 4 + (encodeConf options).length := by
        rw [← hb, List.length_drop]
        omega
      have hand : e.conf.state.Answers ∧ e.conf.memory = true := ⟨hs, hm⟩
      refine ⟨chosenAnswer e.settings (packet.getD 1 0) options, ?_,
        (chosenAnswer_right hparses hfit (by omega)).1⟩
      have heq : e.repliesTo (.packet frame) =
          (lcpProcessConfigureReq { e with replies := [] } packet).replies :=
        congrArg LcpEndpoint.replies (configurePacket_eq hp h1)
      rw [heq, configureReq_replies hb hparses]
      exact if_pos hand
    · exact @replies_of_fit { e with replies := [] } rfl i hf

end Replies

/-! ## A peer that asks for PAP -/

/-- An endpoint that lets CHAP authenticate it and nothing else, and has sent its request. -/
def chapOnly : LcpEndpoint where
  conf := { mruRequested with memory := true }
  settings := ⟨false, true⟩
  peerConfig := ⟨1500, 0xFFFFFFFF, 0, 0, 0, false, false⟩
  replies := []

/-- A Configure-Request for PAP: the Configure-Nak asks for CHAP in five bytes where the request
had four, and a Code-Reject to a peer that negotiated an MRU has a length field of zero. -/
theorem replies_beyond :
    ¬RepliesRight chapOnly (.packet [1, 1, 0, 8, 3, 4, 0xC0, 0x23]) ∧
      (∃ out, chapOnly.repliesTo (.packet [1, 1, 0, 8, 3, 4, 0xC0, 0x23]) =
        [.configure 8 out] ∧ out.written = 9) ∧
      (∃ r, (lcpProcessPacket chapOnly [1, 1, 0, 8, 1, 4, 5, 0xDC]).repliesTo
        (.packet [99, 1, 0, 4]) = [.codeRej r] ∧ r.length = 0) := by
  have hnak : chapOnly.repliesTo (.packet [1, 1, 0, 8, 3, 4, 0xC0, 0x23]) = [.configure 8
      ⟨.CONFIGURE_NAK, 1, 9, [3, 5, 0xC2, 0x23, 5], 9⟩] := by decide +kernel
  refine ⟨fun h => ?_, ⟨_, hnak, rfl⟩, ?_⟩
  · have hwritten := h.replies
    rw [hnak] at hwritten
    exact absurd (show (9 : Nat) ≤ 8 from hwritten _ List.mem_cons_self) (by decide)
  · exact ⟨⟨2, 0, [], 65532, [99, 1, 0, 4]⟩, by decide +kernel, rfl⟩

end Cyclone
