import Cyclone.DhcpServer
import Cyclone.Lib.Clock
import Cyclone.Lib.Keyed
import Cyclone.Lib.Run

/-!
# Cyclone.DhcpLeases

Replies of the DHCP server and the leases it has granted.

* `dhcpServerReply_right`: a client reads from a reply what the server put into it.
* `Pool`: the bindings in use have different clients and different addresses of the pool.
* `Handled`: what a message may do to the bindings.
* `leases_exclusive`: over every run, an address that was granted is not given to another client.
-/

namespace Cyclone

open Serial KeyTable Clock

/-! ## Replies -/

section Replies

variable {s : DhcpServerContext} {settings : DhcpServerSettings} {type : UInt8} {ipAddr : Ipv4Addr}
  {request : DhcpMessage} {reply : DhcpReply} {alloc : Bool}

theorem replyHeader_length (ipAddr : Ipv4Addr) (request : DhcpMessage) :
    (replyHeader ipAddr request).length = sizeofDhcpMessage := by
  unfold replyHeader
  simp only [List.length_append, List.length_replicate]
  rfl

theorem be32At_behind (front back : List UInt8) (w : Word) :
    be32At (front ++ be32 w ++ back) front.length = w := by
  have hw := w.isLt
  have h1 := be16At_be16 front (be16 w.toNat ++ back) (BitVec.ofNat 16 (w.toNat / 65536))
  have h2 := be16At_be16 (front ++ be16 (w.toNat / 65536)) back (BitVec.ofNat 16 w.toNat)
  have hlen : (front ++ be16 (w.toNat / 65536)).length = front.length + 2 := by
    rw [List.length_append]
    rfl
  have hbe : ∀ n : Nat, be16 (BitVec.ofNat 16 n).toNat = be16 n := by
    intro n
    unfold be16
    rw [BitVec.toNat_ofNat]
    congr 1
    · apply UInt8.toNat_inj.mp
      rw [UInt8.toNat_ofNat', UInt8.toNat_ofNat']
      omega
    · congr 1
      apply UInt8.toNat_inj.mp
      rw [UInt8.toNat_ofNat', UInt8.toNat_ofNat']
      omega
  rw [hbe] at h1 h2
  rw [hlen] at h2
  unfold be32At be32
  rw [show front ++ (be16 (w.toNat / 65536) ++ be16 w.toNat) ++ back =
    front ++ be16 (w.toNat / 65536) ++ (be16 w.toNat ++ back) by simp, h1]
  rw [show front ++ be16 (w.toNat / 65536) ++ (be16 w.toNat ++ back) =
    front ++ be16 (w.toNat / 65536) ++ be16 w.toNat ++ back by simp, h2]
  apply BitVec.eq_of_toNat_eq
  simp only [BitVec.toNat_ofNat]
  omega

/-- A field of four bytes, from what is in front of it. -/
theorem be32At_split {bytes : List UInt8} {w : Word} {i : Nat} (front : List UInt8)
    (h : ∃ back, bytes = front ++ be32 w ++ back) (hi : front.length = i) :
    be32At bytes i = w := by
  obtain ⟨back, rfl⟩ := h
  subst hi
  exact be32At_behind front back w

/-- The header of a reply up to `ciaddr`. -/
def replyFront (request : DhcpMessage) : List UInt8 :=
  [DHCP_OPCODE_BOOTREPLY, DHCP_HARDWARE_TYPE_ETH, 6, 0] ++ be32 (be32At request 4) ++ [0, 0] ++
    be16 request.flags ++ [0, 0, 0, 0]

theorem replyHeader_xid (ipAddr : Ipv4Addr) (request : DhcpMessage) (rest : List UInt8) :
    be32At (replyHeader ipAddr request ++ rest) 4 = be32At request 4 := by
  refine be32At_split [DHCP_OPCODE_BOOTREPLY, DHCP_HARDWARE_TYPE_ETH, 6, 0] ?_ rfl
  unfold replyHeader
  simp only [List.append_assoc]
  exact ⟨_, rfl⟩

theorem replyHeader_yiaddr (ipAddr : Ipv4Addr) (request : DhcpMessage) (rest : List UInt8) :
    DhcpMessage.yiaddr (replyHeader ipAddr request ++ rest) = ipAddr := by
  refine be32At_split (replyFront request) ?_ rfl
  unfold replyHeader replyFront
  simp only [List.append_assoc]
  exact ⟨_, rfl⟩

theorem replyHeader_giaddr (ipAddr : Ipv4Addr) (request : DhcpMessage) (rest : List UInt8) :
    DhcpMessage.giaddr (replyHeader ipAddr request ++ rest) = request.giaddr := by
  refine be32At_split (replyFront request ++ be32 ipAddr ++ [0, 0, 0, 0]) ?_ rfl
  unfold replyHeader replyFront
  simp only [List.append_assoc]
  exact ⟨_, rfl⟩

theorem replyHeader_chaddr (ipAddr : Ipv4Addr) (request : DhcpMessage) (rest : List UInt8) :
    DhcpMessage.chaddr (replyHeader ipAddr request ++ rest) = request.chaddr := by
  have h1 : be16At (replyHeader ipAddr request ++ rest) 28 = be16At request 28 := by
    have h := be16At_be16 (replyFront request ++ be32 ipAddr ++ [0, 0, 0, 0] ++
      be32 request.giaddr) (be32 (be32At request 30) ++ List.replicate (10 + 64 + 128) 0 ++
      be32 DHCP_MAGIC_COOKIE ++ rest) (be16At request 28)
    unfold replyFront at h
    unfold replyHeader
    simp only [List.append_assoc] at h ⊢
    exact h
  have h2 : be32At (replyHeader ipAddr request ++ rest) 30 = be32At request 30 := by
    refine be32At_split (replyFront request ++ be32 ipAddr ++ [0, 0, 0, 0] ++
      be32 request.giaddr ++ be16 (be16At request 28).toNat) ?_ rfl
    unfold replyHeader replyFront
    simp only [List.append_assoc]
    exact ⟨_, rfl⟩
  unfold DhcpMessage.chaddr
  rw [h1, h2]

theorem replyHeader_cookie (ipAddr : Ipv4Addr) (request : DhcpMessage) (rest : List UInt8) :
    DhcpMessage.magicCookie (replyHeader ipAddr request ++ rest) = DHCP_MAGIC_COOKIE := by
  refine be32At_split (replyFront request ++ be32 ipAddr ++ [0, 0, 0, 0] ++
    be32 request.giaddr ++ (be16 (be16At request 28).toNat ++ be32 (be32At request 30)) ++
    List.replicate (10 + 64 + 128) 0) ⟨rest, ?_⟩ ?_
  · unfold replyHeader replyFront
    simp only [List.append_assoc]
  · simp only [List.length_append, List.length_replicate]
    rfl

/-- An option that is there under a condition. -/
theorem optionOk_if {o : UInt8 × List UInt8} (c : Prop) [Decidable c] (ho : OptionOk o) :
    ∀ p ∈ (if c then [o] else []), OptionOk p := by
  intro p hp
  split at hp
  · rw [List.mem_singleton.mp hp]
    exact ho
  · cases hp

theorem encode_if {o : UInt8 × List UInt8} (c : Prop) [Decidable c] :
    (encodeDhcpOptions (if c then [o] else [])).length ≤ o.2.length + 2 := by
  split
  · simp [encodeDhcpOptions]
  · exact Nat.zero_le _

theorem encode_append (xs ys : List (UInt8 × List UInt8)) :
    encodeDhcpOptions (xs ++ ys) = encodeDhcpOptions xs ++ encodeDhcpOptions ys := by
  simp [encodeDhcpOptions]

/-- The addresses that are put into the DNS option. -/
theorem length_dnsOption (settings : DhcpServerSettings) :
    (((settings.dnsServer.take DHCP_SERVER_MAX_DNS_SERVERS).takeWhile
      fun addr => addr ≠ IPV4_UNSPECIFIED_ADDR).flatMap be32).length ≤ 8 := by
  have hbe : ∀ w : Word, (be32 w).length = 4 := fun _ => rfl
  have hcount := (List.takeWhile_prefix (l := settings.dnsServer.take DHCP_SERVER_MAX_DNS_SERVERS)
    fun addr => decide (addr ≠ IPV4_UNSPECIFIED_ADDR)).length_le
  rw [List.length_take] at hcount
  have hmax : DHCP_SERVER_MAX_DNS_SERVERS = 2 := rfl
  rw [List.length_flatMap]
  simp only [hbe, List.map_const', List.sum_replicate, smul_eq_mul]
  omega

/-- Every option of a reply is well formed, and there is room for all of them. -/
theorem replyOptions_ok (settings : DhcpServerSettings) (type : UInt8) (ipAddr : Ipv4Addr) :
    (∀ o ∈ replyOptions settings type ipAddr, OptionOk o) ∧
      (encodeDhcpOptions (replyOptions settings type ipAddr)).length ≤ 37 := by
  have hdns := length_dnsOption settings
  unfold replyOptions
  simp only
  generalize ((settings.dnsServer.take DHCP_SERVER_MAX_DNS_SERVERS).takeWhile
    fun addr => decide (addr ≠ IPV4_UNSPECIFIED_ADDR)) = dns at hdns ⊢
  have hany : ∀ (code : UInt8) (value : List UInt8), code ≠ DHCP_OPT_PAD → code ≠ DHCP_OPT_END →
      value.length ≤ 255 → OptionOk (code, value) := fun _ _ h1 h2 h3 => ⟨h1, h2, h3⟩
  have h4 : ∀ (code : UInt8) (w : Word), code ≠ DHCP_OPT_PAD → code ≠ DHCP_OPT_END →
      OptionOk (code, be32 w) := fun _ _ h1 h2 => ⟨h1, h2, show 4 ≤ 255 by decide⟩
  have hfront : ∀ o ∈ [(DHCP_OPT_DHCP_MESSAGE_TYPE, [type]),
      (DHCP_OPT_SERVER_IDENTIFIER, be32 settings.serverAddr)], OptionOk o := by
    intro o ho
    rcases List.mem_pair.mp ho with rfl | rfl
    · exact hany _ _ (by decide) (by decide) (show 1 ≤ 255 by decide)
    · exact h4 _ _ (by decide) (by decide)
  constructor
  · split
    · refine List.forall_mem_append.mpr ⟨hfront, List.forall_mem_append.mpr
        ⟨List.forall_mem_append.mpr ⟨List.forall_mem_append.mpr ⟨?_, ?_⟩, ?_⟩, ?_⟩⟩
      · exact optionOk_if _ (h4 _ _ (by decide) (by decide))
      · exact optionOk_if _ (h4 _ _ (by decide) (by decide))
      · exact optionOk_if _ (h4 _ _ (by decide) (by decide))
      · exact optionOk_if _ (hany _ _ (by decide) (by decide) (hdns.trans (by decide)))
    · rw [List.append_nil]
      exact hfront
  · split
    · have h1 := @encode_if (DHCP_OPT_IP_ADDRESS_LEASE_TIME, be32 settings.leaseTime)
        (ipAddr ≠ IPV4_UNSPECIFIED_ADDR) _
      have h2 := @encode_if (DHCP_OPT_SUBNET_MASK, be32 settings.subnetMask)
        (settings.subnetMask ≠ IPV4_UNSPECIFIED_ADDR) _
      have h3 := @encode_if (DHCP_OPT_ROUTER, be32 settings.defaultGateway)
        (settings.defaultGateway ≠ IPV4_UNSPECIFIED_ADDR) _
      have h5 := @encode_if (DHCP_OPT_DNS_SERVER, dns.flatMap be32) (dns ≠ []) _
      have hbe : ∀ w : Word, (be32 w).length = 4 := fun _ => rfl
      have hf : (encodeDhcpOptions [(DHCP_OPT_DHCP_MESSAGE_TYPE, [type]),
        (DHCP_OPT_SERVER_IDENTIFIER, be32 settings.serverAddr)]).length = 9 := rfl
      simp only [hbe] at h1 h2 h3 h5
      simp only [encode_append, List.length_append]
      omega
    · show 9 ≤ 37
      decide

theorem addOptions_fold {opts more : List (UInt8 × List UInt8)} {options : List UInt8}
    (h : HasOptions options opts) (hmore : ∀ o ∈ more, OptionOk o)
    (hfit : (encodeDhcpOptions (opts ++ more)).length < options.length) :
    ∃ options', more.foldlM (fun options o => dhcpAddOption options o.1 o.2) options =
        some options' ∧ options'.length = options.length ∧ HasOptions options' (opts ++ more) := by
  induction more generalizing opts options with
  | nil =>
    refine ⟨options, rfl, rfl, ?_⟩
    rw [List.append_nil]
    exact h
  | cons o more ih =>
    have hcons : opts ++ o :: more = (opts ++ [o]) ++ more := by simp
    rw [hcons] at hfit ⊢
    have hlen : (encodeDhcpOptions (opts ++ [o])).length ≤
        (encodeDhcpOptions (opts ++ [o] ++ more)).length := by
      rw [encode_append _ more, List.length_append]
      omega
    rw [encodeDhcpOptions_snoc] at hlen
    simp only [List.length_append, List.length_cons] at hlen
    obtain ⟨options1, h1, hl1, ho1⟩ := dhcpAddOption_options h (hmore o List.mem_cons_self)
      (by omega)
    obtain ⟨options2, h2, hl2, ho2⟩ := ih ho1 (fun p hp => hmore p (List.mem_cons_of_mem _ hp))
      (by omega)
    refine ⟨options2, ?_, hl2.trans hl1, ho2⟩
    rw [List.foldlM_cons, h1]
    exact h2

/-- What is sent is what the client reads, option by option. -/
theorem dhcpServerReply_right (s : DhcpServerContext) (type : UInt8) (ipAddr : Ipv4Addr)
    (request : DhcpMessage) :
    ∃ reply, dhcpServerSendReply true s type ipAddr request = some reply ∧
      reply.message.length = DHCP_MIN_MSG_SIZE ∧ reply.message.op = DHCP_OPCODE_BOOTREPLY ∧
      be32At reply.message 4 = be32At request 4 ∧ reply.message.yiaddr = ipAddr ∧
      reply.message.giaddr = request.giaddr ∧ reply.message.chaddr = request.chaddr ∧
      reply.message.magicCookie = DHCP_MAGIC_COOKIE ∧
      ∀ code, dhcpGetOption reply.message code =
        ((replyOptions s.settings type ipAddr).find? fun o => o.1 == code).map Prod.snd := by
  obtain ⟨hok, hlen⟩ := replyOptions_ok s.settings type ipAddr
  have hstart : HasOptions
      (DHCP_OPT_END :: List.replicate (DHCP_MIN_MSG_SIZE - sizeofDhcpMessage - 1) 0) [] :=
    ⟨nofun, _, rfl⟩
  obtain ⟨options, hfold, holen, hopts⟩ := addOptions_fold hstart hok (by
    rw [List.nil_append, List.length_cons, List.length_replicate]
    unfold DHCP_MIN_MSG_SIZE sizeofDhcpMessage
    omega)
  unfold dhcpServerSendReply
  rw [if_pos rfl]
  simp only [hfold, Option.map_some]
  refine ⟨_, rfl, ?_, rfl, ?_, ?_, ?_, ?_, ?_, ?_⟩
  · rw [List.length_append, replyHeader_length, holen, List.length_cons, List.length_replicate]
    rfl
  · exact replyHeader_xid ipAddr request options
  · exact replyHeader_yiaddr ipAddr request options
  · exact replyHeader_giaddr ipAddr request options
  · exact replyHeader_chaddr ipAddr request options
  · exact replyHeader_cookie ipAddr request options
  · exact dhcpGetOption_options (replyHeader_length _ _) hopts

end Replies

/-! ## The bindings -/

/-- The bindings in use belong to different clients and hold different addresses of the pool. -/
structure Pool (s : DhcpServerContext) : Prop where
  range : s.settings.ipAddrRangeMin ≤ s.settings.ipAddrRangeMax
  next : s.settings.InPool s.nextIpAddr
  macs : Keyed (fun b => b.inUse = true) DhcpServerBinding.macAddr s.clientBinding
  addrs : Keyed (fun b => b.inUse = true) DhcpServerBinding.ipAddr s.clientBinding
  inPool : ∀ b ∈ s.clientBinding, b.inUse = true → s.settings.InPool b.ipAddr

/-- A binding of a client whose lease has been acknowledged and is not over. -/
def DhcpServerBinding.Committed (b : DhcpServerBinding) : Prop :=
  b.inUse = true ∧ b.validLease = true

/-- The client no longer wants the address: it asks for another one of the pool, declines it or
releases it. -/
def GivesUp (settings : DhcpServerSettings) (message : DhcpMessage) (ipAddr : Ipv4Addr) : Prop :=
  message.messageType = some DHCP_MESSAGE_TYPE_DISCOVER ∧
      message.requestedIpAddr ≠ ipAddr ∧ settings.InPool message.requestedIpAddr ∨
    message.messageType = some DHCP_MESSAGE_TYPE_DECLINE ∧
      message.addrOption DHCP_OPT_REQUESTED_IP_ADDRESS = some ipAddr ∨
    message.messageType = some DHCP_MESSAGE_TYPE_RELEASE ∧ message.ciaddr = ipAddr

instance (settings : DhcpServerSettings) (message : DhcpMessage) (ipAddr : Ipv4Addr) :
    Decidable (GivesUp settings message ipAddr) := inferInstanceAs (Decidable (_ ∨ _))

/-- The address that a reply acknowledges. -/
def acknowledged : Option DhcpReply → Option Ipv4Addr
  | none => none
  | some reply =>
    if reply.message.messageType = some DHCP_MESSAGE_TYPE_ACK ∧
        reply.message.yiaddr ≠ IPV4_UNSPECIFIED_ADDR then some reply.message.yiaddr
    else none

/-- What a message of the client `message.chaddr` at `time` may do. -/
structure Handled (time : Word) (message : DhcpMessage) (s s' : DhcpServerContext)
    (reply : Option DhcpReply) : Prop where
  settings : s'.settings = s.settings
  pool : Pool s'
  others : ∀ (i : Nat) (b : DhcpServerBinding), s.clientBinding[i]? = some b → b.Committed →
    b.macAddr ≠ message.chaddr → s'.clientBinding[i]? = some b
  own : ∀ (i : Nat) (b : DhcpServerBinding), s.clientBinding[i]? = some b → b.Committed →
    b.macAddr = message.chaddr → ¬GivesUp s.settings message b.ipAddr →
    ∃ stamp, s'.clientBinding[i]? = some { b with timestamp := stamp } ∧
      (stamp = b.timestamp ∨ stamp = time)
  granted : ∀ ipAddr, acknowledged reply = some ipAddr → message.chaddr ≠ MAC_UNSPECIFIED_ADDR →
    ∃ (i : Nat) (b : DhcpServerBinding), s'.clientBinding[i]? = some b ∧ b.Committed ∧
      b.macAddr = message.chaddr ∧ b.ipAddr = ipAddr ∧ b.timestamp = time
  offered : ∀ r, reply = some r → r.message.yiaddr ≠ IPV4_UNSPECIFIED_ADDR →
    s.settings.InPool r.message.yiaddr ∧ ∀ b ∈ s'.clientBinding, b.inUse = true →
      b.ipAddr = r.message.yiaddr → b.macAddr = message.chaddr

section Bindings

variable {s s' : DhcpServerContext} {time : Word} {message : DhcpMessage} {alloc : Bool}
  {b b' : DhcpServerBinding} {i : Nat} {ipAddr : Ipv4Addr} {macAddr : MacAddr}
  {reply : Option DhcpReply}

theorem inUse_iff : b.inUse = true ↔ b.macAddr ≠ MAC_UNSPECIFIED_ADDR := by
  unfold DhcpServerBinding.inUse
  rw [decide_eq_true_iff]

theorem not_inUse_free : ¬({} : DhcpServerBinding).inUse = true := by decide

theorem binding_of_getElem? (h : s.clientBinding[i]? = some b) : s.binding i = b := by
  unfold DhcpServerContext.binding
  rw [List.getD_eq_getElem?_getD, h]
  rfl

theorem findByMac_some (h : dhcpServerFindBindingByMacAddr s macAddr = some i) :
    ∃ b, s.clientBinding[i]? = some b ∧ b.inUse = true ∧ b.macAddr = macAddr := by
  obtain ⟨hlt, hp, -⟩ := List.findIdx?_eq_some_iff_getElem.mp h
  obtain ⟨hu, hm⟩ := Bool.and_eq_true_iff.mp hp
  exact ⟨_, List.getElem?_eq_getElem hlt, hu, beq_iff_eq.mp hm⟩

theorem findByMac_none (h : dhcpServerFindBindingByMacAddr s macAddr = none) (i : Nat) :
    FreshAt (fun b => b.inUse = true) DhcpServerBinding.macAddr s.clientBinding i macAddr :=
  freshAt_of_find (fun _ hu hk => Bool.and_eq_true_iff.mpr ⟨hu, beq_iff_eq.mpr hk⟩) h i

theorem findByIp_none (h : dhcpServerFindBindingByIpAddr s ipAddr = none) (i : Nat) :
    FreshAt (fun b => b.inUse = true) DhcpServerBinding.ipAddr s.clientBinding i ipAddr :=
  freshAt_of_find (fun _ hu hk => Bool.and_eq_true_iff.mpr ⟨hu, beq_iff_eq.mpr hk⟩) h i

/-- A binding gets a client and an address that no other binding has. -/
theorem Pool.set (h : Pool s) (hmac : FreshAt (fun b => b.inUse = true) DhcpServerBinding.macAddr
      s.clientBinding i b.macAddr)
    (hip : FreshAt (fun b => b.inUse = true) DhcpServerBinding.ipAddr s.clientBinding i b.ipAddr)
    (hin : s.settings.InPool b.ipAddr) : Pool (s.setBinding i b) := by
  refine ⟨h.range, h.next, h.macs.set fun _ => hmac, h.addrs.set fun _ => hip, ?_⟩
  intro c hc hu
  rcases List.mem_or_eq_of_mem_set hc with hc | rfl
  · exact h.inPool c hc hu
  · exact hin

/-- A binding is freed. -/
theorem Pool.free (h : Pool s) (i : Nat) : Pool (s.setBinding i {}) := by
  refine ⟨h.range, h.next, h.macs.set fun hu => absurd hu not_inUse_free,
    h.addrs.set fun hu => absurd hu not_inUse_free, ?_⟩
  intro c hc hu
  rcases List.mem_or_eq_of_mem_set hc with hc | rfl
  · exact h.inPool c hc hu
  · exact absurd hu not_inUse_free

/-- A binding in use changes, but neither its client nor its address. -/
theorem Pool.keep (h : Pool s) (hi : s.clientBinding[i]? = some b') (hu : b'.inUse = true)
    (hm : b.macAddr = b'.macAddr) (ha : b.ipAddr = b'.ipAddr) : Pool (s.setBinding i b) := by
  refine ⟨h.range, h.next, h.macs.keep hi hu hm, h.addrs.keep hi hu ha, ?_⟩
  intro c hc huc
  rcases List.mem_or_eq_of_mem_set hc with hc | rfl
  · exact h.inPool c hc huc
  · rw [ha]
    exact h.inPool b' (List.mem_of_getElem? hi) hu

/-! ## New bindings -/

/-- The binding that is cleared for a new client was free or not acknowledged. -/
theorem createBindingLoop_some {rest : List DhcpServerBinding} {k : Nat}
    {oldest : Option (Nat × DhcpServerBinding)}
    (h : createBindingLoop time rest k oldest = some i) :
    (∃ b, k ≤ i ∧ rest[i - k]? = some b ∧ ¬b.Committed) ∨ ∃ o, oldest = some (i, o) := by
  induction rest generalizing k oldest with
  | nil =>
    obtain ⟨⟨j, o⟩, ho, rfl⟩ := Option.map_eq_some_iff.mp h
    exact .inr ⟨o, ho⟩
  | cons b rest ih =>
    have hlater : ∀ c, k + 1 ≤ i ∧ rest[i - (k + 1)]? = some c ∧ ¬c.Committed →
        ∃ b', k ≤ i ∧ (b :: rest)[i - k]? = some b' ∧ ¬b'.Committed := by
      rintro c ⟨h1, h2, h3⟩
      refine ⟨c, by omega, ?_, h3⟩
      rw [show i - k = i - (k + 1) + 1 by omega, List.getElem?_cons_succ]
      exact h2
    unfold createBindingLoop at h
    split at h
    · rename_i hfree
      cases h
      refine .inl ⟨b, Nat.le_refl _, by rw [Nat.sub_self]; rfl, fun hc => ?_⟩
      exact inUse_iff.mp hc.1 hfree
    · split at h
      · exact (ih h).imp (fun ⟨c, hc⟩ => hlater c hc) id
      · rename_i hvalid
        have hhere : ∀ o, some (k, b) = some (i, o) →
            ∃ b', k ≤ i ∧ (b :: rest)[i - k]? = some b' ∧ ¬b'.Committed := by
          intro o ho
          cases ho
          exact ⟨b, Nat.le_refl _, by rw [Nat.sub_self]; rfl, fun hc => hvalid hc.2⟩
        split at h
        · rcases ih h with ⟨c, hc⟩ | ⟨o, ho⟩
          · exact .inl (hlater c hc)
          · exact .inl (hhere o ho)
        · split at h
          · rcases ih h with ⟨c, hc⟩ | ⟨o, ho⟩
            · exact .inl (hlater c hc)
            · exact .inl (hhere o ho)
          · exact (ih h).imp (fun ⟨c, hc⟩ => hlater c hc) id

theorem createBinding_some (h : dhcpServerCreateBinding time s = some (s', i)) :
    s' = s.setBinding i {} ∧ ∃ b, s.clientBinding[i]? = some b ∧ ¬b.Committed := by
  obtain ⟨j, hj, heq⟩ := Option.map_eq_some_iff.mp h
  cases heq
  rcases createBindingLoop_some hj with ⟨b, -, hb, hc⟩ | ⟨o, ho⟩
  · exact ⟨rfl, b, hb, hc⟩
  · cases ho

/-- The addresses are tried in the order of the pool. -/
theorem getNextIpAddrLoop_spec (n : Nat) (h : Pool s) :
    (getNextIpAddrLoop n s).1 = { s with nextIpAddr := (getNextIpAddrLoop n s).1.nextIpAddr } ∧
      Pool (getNextIpAddrLoop n s).1 ∧ ∀ ip, (getNextIpAddrLoop n s).2 = some ip →
        s.settings.InPool ip ∧ dhcpServerFindBindingByIpAddr s ip = none := by
  induction n generalizing s with
  | zero => exact ⟨rfl, h, nofun⟩
  | succ n ih =>
    have hpool : Pool { s with
        nextIpAddr := if s.nextIpAddr ≥ s.settings.ipAddrRangeMax then s.settings.ipAddrRangeMin
          else s.nextIpAddr + 1 } := by
      refine ⟨h.range, ?_, h.macs, h.addrs, h.inPool⟩
      have hn := h.next
      have hr := h.range
      unfold DhcpServerSettings.InPool at hn ⊢
      simp only [BitVec.le_def, ge_iff_le] at hn hr ⊢
      split
      · exact ⟨Nat.le_refl _, hr⟩
      · rename_i hlt
        have hb := s.settings.ipAddrRangeMax.isLt
        rw [BitVec.toNat_add, show (1 : BitVec 32).toNat = 1 from rfl,
          Nat.mod_eq_of_lt (by omega)]
        omega
    unfold getNextIpAddrLoop
    simp only
    split
    · rename_i hnone
      refine ⟨rfl, hpool, fun ip hip => ?_⟩
      cases hip
      exact ⟨h.next, Option.isNone_iff_eq_none.mp hnone⟩
    · obtain ⟨h1, h2, h3⟩ := ih hpool
      exact ⟨h1, h2, h3⟩

/-! ## What a message does -/

theorem reply_fields {type : UInt8} {r : DhcpReply}
    (h : dhcpServerSendReply alloc s type ipAddr message = some r) :
    r.message.yiaddr = ipAddr ∧ r.message.messageType = some type := by
  cases alloc with
  | false => cases h
  | true =>
    obtain ⟨reply, hsend, -, -, -, hyour, -, -, -, hopt⟩ :=
      dhcpServerReply_right s type ipAddr message
    obtain rfl : reply = r := Option.some.inj (hsend.symm.trans h)
    refine ⟨hyour, ?_⟩
    unfold DhcpMessage.messageType
    rw [hopt DHCP_OPT_DHCP_MESSAGE_TYPE]
    rfl

theorem acknowledged_reply {type : UInt8} {ip : Ipv4Addr}
    (h : acknowledged (dhcpServerSendReply alloc s type ipAddr message) = some ip) :
    type = DHCP_MESSAGE_TYPE_ACK ∧ ip = ipAddr ∧ ipAddr ≠ IPV4_UNSPECIFIED_ADDR := by
  cases hr : dhcpServerSendReply alloc s type ipAddr message with
  | none =>
    rw [hr] at h
    cases h
  | some r =>
    obtain ⟨hyour, htype⟩ := reply_fields hr
    rw [hr] at h
    unfold acknowledged at h
    simp only [hyour, htype, Option.some.injEq] at h
    split at h
    · rename_i hcond
      cases h
      exact ⟨hcond.1, rfl, hcond.2⟩
    · cases h

/-- Nothing happens to the bindings, and no address is handed out. -/
theorem handled_same (h : Pool s') (hs : s'.settings = s.settings)
    (hb : s'.clientBinding = s.clientBinding) (hack : acknowledged reply = none)
    (hoffer : ∀ r, reply = some r → r.message.yiaddr = IPV4_UNSPECIFIED_ADDR) :
    Handled time message s s' reply := by
  refine ⟨hs, h, fun i b hi _ _ => ?_, fun i b hi _ _ _ => ⟨b.timestamp, ?_, .inl rfl⟩,
    fun ip hip => ?_, fun r hr hne => absurd (hoffer r hr) hne⟩
  · rw [hb]
    exact hi
  · rw [hb]
    exact hi
  · rw [hack] at hip
    cases hip

theorem handled_nothing (h : Pool s) : Handled time message s s none :=
  handled_same h rfl rfl rfl nofun

theorem handled_nak (h : Pool s) : Handled time message s s
    (dhcpServerSendReply alloc s DHCP_MESSAGE_TYPE_NAK IPV4_UNSPECIFIED_ADDR message) := by
  refine handled_same h rfl rfl ?_ fun r hr => (reply_fields hr).1
  rw [Option.eq_none_iff_forall_ne_some]
  intro ip hip
  exact (acknowledged_reply hip).2.2 rfl

/-- One binding changes: that of the client, or one that was not acknowledged. -/
theorem handled_set (h : Pool s') (hs : s'.settings = s.settings)
    (hi : s.clientBinding[i]? = some b) (hb : s'.clientBinding = s.clientBinding.set i b')
    (hcase : ¬b.Committed ∨ b.macAddr = message.chaddr ∧
      (¬GivesUp s.settings message b.ipAddr → b.Committed →
        ∃ stamp, b' = { b with timestamp := stamp } ∧ (stamp = b.timestamp ∨ stamp = time)))
    (hack : ∀ ip, acknowledged reply = some ip → message.chaddr ≠ MAC_UNSPECIFIED_ADDR →
      b'.Committed ∧ b'.macAddr = message.chaddr ∧ b'.ipAddr = ip ∧ b'.timestamp = time)
    (hoffer : ∀ r, reply = some r → r.message.yiaddr ≠ IPV4_UNSPECIFIED_ADDR →
      s.settings.InPool r.message.yiaddr ∧ ∀ c ∈ s'.clientBinding, c.inUse = true →
        c.ipAddr = r.message.yiaddr → c.macAddr = message.chaddr) :
    Handled time message s s' reply := by
  have hlt : i < s.clientBinding.length := (List.getElem?_eq_some_iff.mp hi).1
  have hself : s'.clientBinding[i]? = some b' := by
    rw [hb]
    exact List.getElem?_set_self hlt
  have hother : ∀ j, i ≠ j → s'.clientBinding[j]? = s.clientBinding[j]? := by
    intro j hj
    rw [hb]
    exact List.getElem?_set_ne hj
  refine ⟨hs, h, fun j c hj hc hm => ?_, fun j c hj hc hm hkeep => ?_, fun ip hip hne => ?_, hoffer⟩
  · by_cases hij : i = j
    · subst hij
      obtain rfl : b = c := Option.some.inj (hi.symm.trans hj)
      rcases hcase with hcase | hcase
      · exact absurd hc hcase
      · exact absurd hcase.1 hm
    · rw [hother j hij]
      exact hj
  · by_cases hij : i = j
    · subst hij
      obtain rfl : b = c := Option.some.inj (hi.symm.trans hj)
      rcases hcase with hcase | hcase
      · exact absurd hc hcase
      · obtain ⟨stamp, rfl, hstamp⟩ := hcase.2 hkeep hc
        exact ⟨stamp, hself, hstamp⟩
    · exact ⟨c.timestamp, (hother j hij).trans hj, .inl rfl⟩
  · obtain ⟨h1, h2, h3, h4⟩ := hack ip hip hne
    exact ⟨i, b', hself, h1, h2, h3, h4⟩

/-- Only the client holds the address of its binding. -/
theorem only_holder (h : Pool s') (hself : s'.clientBinding[i]? = some b) (hu : b.inUse = true)
    (hm : b.macAddr = message.chaddr) :
    ∀ c ∈ s'.clientBinding, c.inUse = true → c.ipAddr = b.ipAddr → c.macAddr = message.chaddr := by
  intro c hc huc heq
  obtain ⟨j, hj⟩ := List.mem_iff_getElem?.mp hc
  obtain rfl := h.addrs j i c b hj hself huc hu heq
  obtain rfl : c = b := Option.some.inj (hj.symm.trans hself)
  exact hm

/-- A new client gets a cleared binding. -/
theorem handled_create {s₁ s₂ : DhcpServerContext} {type : UInt8} {valid : Bool}
    (hfind : dhcpServerFindBindingByMacAddr s message.chaddr = none)
    (hcreate : dhcpServerCreateBinding time s = some (s₁, i)) (hpool : Pool s₂)
    (hnext : s₂ = { s₁ with nextIpAddr := s₂.nextIpAddr }) (hin : s.settings.InPool ipAddr)
    (hfree : dhcpServerFindBindingByIpAddr s₁ ipAddr = none)
    (htype : type = DHCP_MESSAGE_TYPE_ACK → valid = true) :
    Handled time message s
      (s₂.setBinding i ⟨message.chaddr, ipAddr, valid, time⟩)
      (dhcpServerSendReply alloc
        (s₂.setBinding i ⟨message.chaddr, ipAddr, valid, time⟩) type ipAddr message) := by
  obtain ⟨rfl, b, hb, hnot⟩ := createBinding_some hcreate
  have hcb : s₂.clientBinding = s.clientBinding.set i {} := congrArg (·.clientBinding) hnext
  have hset : s₂.settings = s.settings := congrArg (·.settings) hnext
  have hbind : (s₂.setBinding i ⟨message.chaddr, ipAddr, valid, time⟩).clientBinding =
      s.clientBinding.set i ⟨message.chaddr, ipAddr, valid, time⟩ := by
    show s₂.clientBinding.set i _ = _
    rw [hcb, List.set_set]
  have hmac : FreshAt (fun b => b.inUse = true) DhcpServerBinding.macAddr s₂.clientBinding i
      message.chaddr := by
    rw [hcb]
    exact (findByMac_none hfind i).set fun hu => absurd hu not_inUse_free
  have hip : FreshAt (fun b => b.inUse = true) DhcpServerBinding.ipAddr s₂.clientBinding i
      ipAddr := by
    rw [hcb]
    exact findByIp_none hfree i
  have hp : Pool (s₂.setBinding i ⟨message.chaddr, ipAddr, valid, time⟩) :=
    hpool.set hmac hip (by rw [hset]; exact hin)
  refine handled_set hp hset hb hbind (.inl hnot) (fun ip hack hne => ?_) fun r hr _ => ?_
  · obtain ⟨rfl, rfl, -⟩ := acknowledged_reply hack
    exact ⟨⟨inUse_iff.mpr hne, htype rfl⟩, rfl, rfl, rfl⟩
  · rw [(reply_fields hr).1]
    refine ⟨hin, fun c hc huc heq => ?_⟩
    obtain ⟨j, hj⟩ := List.mem_iff_getElem?.mp hc
    rcases getElem?_set_cases hj with ⟨-, rfl⟩ | ⟨hne, hj⟩
    · rfl
    · exact absurd heq (hip j c hne hj huc)

theorem not_acknowledged {type : UInt8} {ip : Ipv4Addr} (ht : type ≠ DHCP_MESSAGE_TYPE_ACK) :
    acknowledged (dhcpServerSendReply alloc s type ipAddr message) ≠ some ip :=
  fun h => ht (acknowledged_reply h).1

theorem set_binding_self (hi : s.clientBinding[i]? = some b) :
    s.clientBinding = s.clientBinding.set i b := by
  obtain ⟨hlt, rfl⟩ := List.getElem?_eq_some_iff.mp hi
  exact (List.set_getElem_self hlt).symm

theorem handled_discover (h : Pool s)
    (ht : message.messageType = some DHCP_MESSAGE_TYPE_DISCOVER) :
    Handled time message s (dhcpServerParseDiscover alloc time s message).1
      (dhcpServerParseDiscover alloc time s message).2 := by
  unfold dhcpServerParseDiscover
  split
  · exact handled_nothing h
  simp only
  split
  · rename_i i hfind
    obtain ⟨b, hb, hu, hm⟩ := findByMac_some hfind
    have hlt : i < s.clientBinding.length := (List.getElem?_eq_some_iff.mp hb).1
    rw [binding_of_getElem? hb]
    split
    · rename_i hmove
      obtain ⟨hne, hin, hnone⟩ := hmove
      have hfresh := findByIp_none (Option.isNone_iff_eq_none.mp hnone) i
      have hself : (s.setBinding i { b with ipAddr := message.requestedIpAddr
                                            timestamp := time }).clientBinding[i]? =
          some { b with ipAddr := message.requestedIpAddr, timestamp := time } :=
        List.getElem?_set_self hlt
      have hmac : FreshAt (fun b => b.inUse = true) DhcpServerBinding.macAddr s.clientBinding i
          b.macAddr := by
        intro j c hj hc huc heq
        exact hj (h.macs j i c b hc hb huc hu heq)
      have hpool : Pool (s.setBinding i { b with ipAddr := message.requestedIpAddr
                                                 timestamp := time }) := h.set hmac hfresh hin
      refine handled_set hpool rfl hb rfl (.inr ⟨hm, fun hkeep => ?_⟩)
        (fun ip hip => absurd hip (not_acknowledged (by decide))) fun r hr _ => ?_
      · exact absurd (.inl ⟨ht, hne, hin⟩) hkeep
      · rw [(reply_fields hr).1, binding_of_getElem? hself]
        exact ⟨hin, only_holder hpool hself hu hm⟩
    · refine handled_set h rfl hb (set_binding_self hb)
        (.inr ⟨hm, fun _ _ => ⟨b.timestamp, rfl, .inl rfl⟩⟩)
        (fun ip hip => absurd hip (not_acknowledged (by decide))) fun r hr _ => ?_
      rw [(reply_fields hr).1, binding_of_getElem? hb]
      exact ⟨h.inPool b (List.mem_of_getElem? hb) hu, only_holder h hb hu hm⟩
  · rename_i hfind
    split
    · exact handled_nothing h
    rename_i s₁ i hcreate
    have hcopy := hcreate
    obtain ⟨rfl, b, hb, hnot⟩ := createBinding_some hcopy
    have hpool := h.free i
    by_cases hreq : (s.setBinding i {}).settings.InPool message.requestedIpAddr ∧
        (dhcpServerFindBindingByIpAddr (s.setBinding i {}) message.requestedIpAddr).isNone = true
    · rw [if_pos hreq]
      exact handled_create hfind hcreate hpool rfl hreq.1
        (Option.isNone_iff_eq_none.mp hreq.2) fun hcon => absurd hcon (by decide)
    · rw [if_neg hreq]
      obtain ⟨h1, h2, h3⟩ := getNextIpAddrLoop_spec DHCP_SERVER_MAX_CLIENTS hpool
      unfold dhcpServerGetNextIpAddr
      generalize getNextIpAddrLoop DHCP_SERVER_MAX_CLIENTS (s.setBinding i {}) = r at h1 h2 h3
      obtain ⟨s₂, ip⟩ := r
      cases ip with
      | none =>
        exact handled_set h2 (congrArg (·.settings) h1) hb (congrArg (·.clientBinding) h1)
          (.inl hnot) nofun nofun
      | some ip =>
        obtain ⟨hin, hfree⟩ := h3 ip rfl
        exact handled_create hfind hcreate h2 h1 hin hfree fun hcon => absurd hcon (by decide)

theorem handled_request (h : Pool s) :
    Handled time message s (dhcpServerParseRequest alloc time s message).1
      (dhcpServerParseRequest alloc time s message).2 := by
  unfold dhcpServerParseRequest
  split
  · exact handled_nothing h
  simp only
  generalize (if message.ciaddr ≠ IPV4_UNSPECIFIED_ADDR then message.ciaddr
    else message.requestedIpAddr) = ip
  split
  case isFalse => exact handled_nak h
  split
  · rename_i i hfind
    obtain ⟨b, hb, hu, hm⟩ := findByMac_some hfind
    have hlt : i < s.clientBinding.length := (List.getElem?_eq_some_iff.mp hb).1
    rw [binding_of_getElem? hb]
    split
    case isFalse => exact handled_nak h
    have hself : (s.setBinding i { b with validLease := true
                                          timestamp := time }).clientBinding[i]? =
        some { b with validLease := true, timestamp := time } := List.getElem?_set_self hlt
    have hpool : Pool (s.setBinding i { b with validLease := true, timestamp := time }) :=
      h.keep hb hu rfl rfl
    refine handled_set hpool rfl hb rfl (.inr ⟨hm, fun _ hc => ⟨time, ?_, .inr rfl⟩⟩)
      (fun ip' hip _ => ?_) fun r hr _ => ?_
    · rw [← hc.2]
    · exact ⟨⟨hu, rfl⟩, hm, (acknowledged_reply hip).2.1.symm, rfl⟩
    · rw [(reply_fields hr).1]
      refine ⟨h.inPool b (List.mem_of_getElem? hb) hu, ?_⟩
      exact @only_holder _ message { b with validLease := true, timestamp := time } i hpool hself
        hu hm
  · rename_i hfind
    split
    case isFalse => exact handled_nak h
    rename_i hreq
    split
    · exact handled_nak h
    rename_i s₁ i hcreate
    have hcopy := hcreate
    obtain ⟨rfl, b, hb, hnot⟩ := createBinding_some hcopy
    have hfree : dhcpServerFindBindingByIpAddr (s.setBinding i {}) ip = none := by
      refine List.findIdx?_eq_none_iff.mpr fun c hc => ?_
      rcases List.mem_or_eq_of_mem_set hc with hc | rfl
      · exact List.findIdx?_eq_none_iff.mp (Option.isNone_iff_eq_none.mp hreq.2) c hc
      · rfl
    exact handled_create hfind hcreate (h.free i) rfl hreq.1 hfree fun _ => rfl

theorem handled_decline (h : Pool s) (ht : message.messageType = some DHCP_MESSAGE_TYPE_DECLINE) :
    Handled time message s (dhcpServerParseDecline s message) none := by
  unfold dhcpServerParseDecline
  split
  · exact handled_nothing h
  rename_i ip hopt
  split
  · exact handled_nothing h
  rename_i i hfind
  obtain ⟨b, hb, hu, hm⟩ := findByMac_some hfind
  rw [binding_of_getElem? hb]
  split
  case isFalse => exact handled_nothing h
  rename_i heq
  refine handled_set (h.free i) rfl hb rfl (.inr ⟨hm, fun hkeep => ?_⟩) nofun nofun
  exact absurd (.inr (.inl ⟨ht, by rw [heq]; exact hopt⟩)) hkeep

theorem handled_release (h : Pool s) (ht : message.messageType = some DHCP_MESSAGE_TYPE_RELEASE) :
    Handled time message s (dhcpServerParseRelease s message) none := by
  unfold dhcpServerParseRelease
  split
  · exact handled_nothing h
  rename_i i hfind
  obtain ⟨b, hb, hu, hm⟩ := findByMac_some hfind
  rw [binding_of_getElem? hb]
  split
  case isFalse => exact handled_nothing h
  rename_i heq
  refine handled_set (h.keep hb hu rfl rfl) rfl hb rfl (.inr ⟨hm, fun hkeep => ?_⟩) nofun nofun
  exact absurd (.inr (.inr ⟨ht, heq.symm⟩)) hkeep

theorem handled_inform (h : Pool s) :
    Handled time message s s (dhcpServerParseInform alloc s message) := by
  unfold dhcpServerParseInform
  split
  · refine handled_same h rfl rfl ?_ fun r hr => (reply_fields hr).1
    rw [Option.eq_none_iff_forall_ne_some]
    intro ip hip
    exact (acknowledged_reply hip).2.2 rfl
  · exact handled_nothing h

theorem handled_message (alloc : Bool) (time : Word) (message : DhcpMessage) (h : Pool s) :
    Handled time message s (dhcpServerProcessMessage alloc time s message).1
      (dhcpServerProcessMessage alloc time s message).2 := by
  unfold dhcpServerProcessMessage
  split
  case isFalse => exact handled_nothing h
  split
  · exact handled_nothing h
  rename_i type ht
  split
  · rename_i hd
    exact handled_discover h (hd ▸ ht)
  split
  · exact handled_request h
  split
  · rename_i hd
    exact handled_decline h (hd ▸ ht)
  split
  · rename_i hd
    exact handled_release h (hd ▸ ht)
  split
  · exact handled_inform h
  · exact handled_nothing h

end Bindings

/-! ## Runs -/

/-- The server, the time, and the address that every client was granted last and when, as long as
the client has not given it up. -/
structure Leasing where
  server : DhcpServerContext
  now : Nat
  granted : MacAddr → Option (Ipv4Addr × Nat)

inductive LeaseEvent where
  | message (alloc : Bool) (message : DhcpMessage)
  | tick
  | wait (n : Nat)

def Leasing.step (s : Leasing) : LeaseEvent → Leasing
  | .message alloc message =>
    let (server, reply) := dhcpServerProcessMessage alloc (shown s.now) s.server message
    let lease :=
      match acknowledged reply with
      | some ipAddr => some (ipAddr, s.now)
      | none => (s.granted message.chaddr).filter
          fun l => ¬GivesUp s.server.settings message l.1
    { s with server, granted := Function.update s.granted message.chaddr lease }
  | .tick => { s with server := dhcpServerTick (shown s.now) s.server }
  | .wait n => { s with now := s.now + n }

def Leasing.start (settings : DhcpServerSettings) (now : Nat) : Leasing :=
  ⟨dhcpServerInit settings, now, fun _ => none⟩

/-- The client was granted the address, and the lease is not over. -/
def Leasing.Live (s : Leasing) (macAddr : MacAddr) (ipAddr : Ipv4Addr) : Prop :=
  ∃ t, s.granted macAddr = some (ipAddr, t) ∧ s.now < t + s.server.settings.leaseDelay.toNat

/-- The server holds the binding of a lease, acknowledged at `t` or later. -/
def Leasing.Kept (s : Leasing) (macAddr : MacAddr) (ipAddr : Ipv4Addr) (t : Nat) : Prop :=
  ∃ (i : Nat) (b : DhcpServerBinding) (stamp : Nat), s.server.clientBinding[i]? = some b ∧
    b.Committed ∧ b.macAddr = macAddr ∧ b.ipAddr = ipAddr ∧ b.timestamp = shown stamp ∧
    t ≤ stamp ∧ stamp ≤ s.now

structure LeasesKept (settings : DhcpServerSettings) (s : Leasing) : Prop where
  same : s.server.settings = settings
  pool : Pool s.server
  specified : ∀ macAddr ipAddr t, s.granted macAddr = some (ipAddr, t) →
    ipAddr ≠ IPV4_UNSPECIFIED_ADDR
  kept : ∀ macAddr ipAddr t, macAddr ≠ MAC_UNSPECIFIED_ADDR →
    s.granted macAddr = some (ipAddr, t) → s.now < t + settings.leaseDelay.toNat →
    s.Kept macAddr ipAddr t

section Runs

variable {settings : DhcpServerSettings} {s : Leasing}

theorem leaseDelay_le (settings : DhcpServerSettings) : settings.leaseDelay.toNat < 2 ^ 31 := by
  unfold DhcpServerSettings.leaseDelay
  split
  · rename_i hlt
    have hlt : settings.leaseTime.toNat < 2147483 := hlt
    rw [BitVec.toNat_mul, show (1000 : BitVec 32).toNat = 1000 from rfl,
      Nat.mod_eq_of_lt (by omega)]
    omega
  · decide

/-- A tick does not end a lease before its time. -/
theorem not_expired {stamp : Nat} (h1 : stamp ≤ s.now)
    (h2 : s.now < stamp + settings.leaseDelay.toNat) :
    ¬0 ≤ (shown s.now - (shown stamp + settings.leaseDelay)).toInt := by
  have hle := leaseDelay_le settings
  have hadd := @instantNear_add stamp settings.leaseDelay (by omega)
  have hlater := instantNear_later h1 (w := shown stamp + settings.leaseDelay) (by omega)
  have heq : instantNear s.now (shown stamp + settings.leaseDelay) =
    s.now - (shown s.now - (shown stamp + settings.leaseDelay)).toInt := rfl
  omega

theorem pool_tick {time : Word} {server : DhcpServerContext} (h : Pool server) :
    Pool (dhcpServerTick time server) := by
  have hmac : ∀ b : DhcpServerBinding, (if b.inUse ∧ b.validLease ∧
      0 ≤ (time - (b.timestamp + server.settings.leaseDelay)).toInt then
        { b with validLease := false } else b).macAddr = b.macAddr := by
    intro b
    split
    · rfl
    · rfl
  have hip : ∀ b : DhcpServerBinding, (if b.inUse ∧ b.validLease ∧
      0 ≤ (time - (b.timestamp + server.settings.leaseDelay)).toInt then
        { b with validLease := false } else b).ipAddr = b.ipAddr := by
    intro b
    split
    · rfl
    · rfl
  have hu : ∀ b : DhcpServerBinding, (if b.inUse ∧ b.validLease ∧
      0 ≤ (time - (b.timestamp + server.settings.leaseDelay)).toInt then
        { b with validLease := false } else b).inUse = true → b.inUse = true := by
    intro b hb
    rw [inUse_iff, hmac] at hb
    exact inUse_iff.mpr hb
  refine ⟨h.range, h.next, h.macs.map hu hmac, h.addrs.map hu hip, ?_⟩
  intro b hb hub
  obtain ⟨c, hc, rfl⟩ := List.mem_map.mp hb
  rw [hip]
  exact h.inPool c hc (hu c hub)

theorem leasesKept_start (hrange : settings.ipAddrRangeMin ≤ settings.ipAddrRangeMax) (now : Nat) :
    LeasesKept settings (Leasing.start settings now) := by
  refine ⟨rfl, ⟨hrange, ⟨Nat.le_refl _, hrange⟩, keyed_replicate not_inUse_free,
    keyed_replicate not_inUse_free, fun b hb hu => ?_⟩, nofun, nofun⟩
  rw [List.eq_of_mem_replicate hb] at hu
  exact absurd hu not_inUse_free

/-- What was granted before a message is kept, or given up by the client. -/
theorem granted_step {message : DhcpMessage} {alloc : Bool} {macAddr : MacAddr} {ipAddr : Ipv4Addr}
    {t : Nat} (h : (s.step (.message alloc message)).granted macAddr = some (ipAddr, t)) :
    macAddr = message.chaddr ∧ t = s.now ∧ acknowledged (dhcpServerProcessMessage alloc
        (shown s.now) s.server message).2 = some ipAddr ∨
      s.granted macAddr = some (ipAddr, t) ∧
        (macAddr = message.chaddr → ¬GivesUp s.server.settings message ipAddr) := by
  have hstep : (s.step (.message alloc message)).granted =
      Function.update s.granted message.chaddr (match acknowledged (dhcpServerProcessMessage alloc
        (shown s.now) s.server message).2 with
      | some ipAddr => some (ipAddr, s.now)
      | none => (s.granted message.chaddr).filter
          fun l => ¬GivesUp s.server.settings message l.1) := rfl
  rw [hstep] at h
  by_cases hm : macAddr = message.chaddr
  · subst hm
    rw [Function.update_self] at h
    split at h
    · rename_i ip hack
      cases h
      exact .inl ⟨rfl, rfl, hack⟩
    · obtain ⟨h1, h2⟩ := Option.filter_eq_some_iff.mp h
      exact .inr ⟨h1, fun _ => by simpa using h2⟩
  · rw [Function.update_of_ne hm] at h
    exact .inr ⟨h, fun hc => absurd hc hm⟩

theorem acknowledged_ne {reply : Option DhcpReply} {ipAddr : Ipv4Addr}
    (h : acknowledged reply = some ipAddr) : ipAddr ≠ IPV4_UNSPECIFIED_ADDR := by
  unfold acknowledged at h
  split at h
  · cases h
  · split at h
    · rename_i hcond
      cases h
      exact hcond.2
    · cases h

theorem leasesKept_step {event : LeaseEvent} (h : LeasesKept settings s) :
    LeasesKept settings (s.step event) := by
  cases event with
  | message alloc message =>
    have hh := handled_message alloc (shown s.now) message h.pool
    refine ⟨hh.settings.trans h.same, hh.pool, fun m ip t hg => ?_, fun m ip t hm hg hnow => ?_⟩
    · rcases granted_step hg with ⟨-, -, hack⟩ | ⟨hold, -⟩
      · exact acknowledged_ne hack
      · exact h.specified m ip t hold
    · rcases granted_step hg with ⟨rfl, rfl, hack⟩ | ⟨hold, hkeep⟩
      · obtain ⟨i, b, hi, hc, hbm, hbi, hbt⟩ := hh.granted ip hack hm
        exact ⟨i, b, s.now, hi, hc, hbm, hbi, hbt, Nat.le_refl _, Nat.le_refl _⟩
      · obtain ⟨i, b, stamp, hi, hc, hbm, hbi, hbt, h1, h2⟩ := h.kept m ip t hm hold hnow
        by_cases hown : b.macAddr = message.chaddr
        · obtain ⟨stamp', hi', hstamp⟩ := hh.own i b hi hc hown (by
            rw [hbi]
            exact hkeep (hbm.symm.trans hown))
          rcases hstamp with hstamp | hstamp
          · exact ⟨i, _, stamp, hi', hc, hbm, hbi, hstamp.trans hbt, h1, h2⟩
          · exact ⟨i, _, s.now, hi', hc, hbm, hbi, hstamp, h1.trans h2, Nat.le_refl _⟩
        · exact ⟨i, b, stamp, hh.others i b hi hc hown, hc, hbm, hbi, hbt, h1, h2⟩
  | tick =>
    refine ⟨h.same, pool_tick h.pool, h.specified, fun m ip t hm hg hnow => ?_⟩
    obtain ⟨i, b, stamp, hi, hc, hbm, hbi, hbt, h1, h2⟩ := h.kept m ip t hm hg hnow
    refine ⟨i, b, stamp, ?_, hc, hbm, hbi, hbt, h1, h2⟩
    have hlate : ¬(b.inUse = true ∧ b.validLease = true ∧
        0 ≤ (shown s.now - (b.timestamp + s.server.settings.leaseDelay)).toInt) := by
      rintro ⟨-, -, hover⟩
      have hnow' : s.now < t + settings.leaseDelay.toNat := hnow
      rw [hbt, h.same] at hover
      exact not_expired h2 (by omega) hover
    show (s.server.clientBinding.map _)[i]? = _
    rw [List.getElem?_map, hi, Option.map_some, if_neg hlate]
  | wait n =>
    refine ⟨h.same, h.pool, h.specified, fun m ip t hm hg hnow => ?_⟩
    have hnow' : s.now + n < t + settings.leaseDelay.toNat := hnow
    obtain ⟨i, b, stamp, hi, hc, hbm, hbi, hbt, h1, h2⟩ := h.kept m ip t hm hg (by omega)
    exact ⟨i, b, stamp, hi, hc, hbm, hbi, hbt, h1, Nat.le_add_right_of_le h2⟩

/-- A client asks for its address again. -/
def Renews (server : DhcpServerContext) (message : DhcpMessage) (ipAddr : Ipv4Addr) : Prop :=
  message.IsRequest ∧ message.messageType = some DHCP_MESSAGE_TYPE_REQUEST ∧
    forOtherServer server message = false ∧
    (if message.ciaddr ≠ IPV4_UNSPECIFIED_ADDR then message.ciaddr
      else message.requestedIpAddr) = ipAddr

theorem renewed {server : DhcpServerContext} {message : DhcpMessage} {ipAddr : Ipv4Addr}
    {i : Nat} {b : DhcpServerBinding} {time : Word} (h : Pool server)
    (hr : Renews server message ipAddr) (hi : server.clientBinding[i]? = some b)
    (hu : b.inUse = true) (hm : b.macAddr = message.chaddr) (ha : b.ipAddr = ipAddr)
    (hne : ipAddr ≠ IPV4_UNSPECIFIED_ADDR) :
    acknowledged (dhcpServerProcessMessage true time server message).2 = some ipAddr := by
  obtain ⟨hreq, htype, hother, hask⟩ := hr
  have hfind : ∃ j, dhcpServerFindBindingByMacAddr server message.chaddr = some j := by
    by_contra hnone
    have hnone := Option.eq_none_iff_forall_ne_some.mpr fun j hj => hnone ⟨j, hj⟩
    exact findByMac_none hnone (i + 1) i b (by omega) hi hu hm
  obtain ⟨j, hj⟩ := hfind
  obtain ⟨c, hc, huc, hmc⟩ := findByMac_some hj
  obtain rfl : i = j := h.macs i j b c hi hc hu huc (hm.trans hmc.symm)
  obtain rfl : b = c := Option.some.inj (hi.symm.trans hc)
  unfold dhcpServerProcessMessage
  rw [if_pos hreq, htype]
  simp only
  rw [if_neg (by decide), if_pos trivial]
  unfold dhcpServerParseRequest
  rw [hother, if_neg Bool.false_ne_true]
  simp only
  rw [hask, if_pos hne, hj]
  simp only
  rw [binding_of_getElem? hi, if_pos ha.symm]
  obtain ⟨r, hsend, -⟩ := dhcpServerReply_right
    (server.setBinding i { b with validLease := true, timestamp := time }) DHCP_MESSAGE_TYPE_ACK
    b.ipAddr message
  obtain ⟨hyour, htype⟩ := reply_fields hsend
  simp only [hsend, acknowledged]
  rw [if_pos ⟨htype, by rw [hyour, ha]; exact hne⟩, hyour, ha]

/-- A pool of eleven addresses, leased for an hour. -/
def hourSettings : DhcpServerSettings :=
  ⟨0x0A000001, 3600, 0x0A000064, 0x0A00006E, 0xFFFFFF00, 0x0A000001, [0x0A000001]⟩

/-- A client that asks for the first of them. -/
def hourRequest : DhcpMessage :=
  [1, 1, 6, 0, 0, 0, 0, 1, 0, 0, 0, 0] ++ be32 0x0A000064 ++ List.replicate 12 0 ++
    [2, 0, 0, 0, 0, 1] ++ List.replicate 202 0 ++ be32 DHCP_MAGIC_COOKIE ++
    [DHCP_OPT_DHCP_MESSAGE_TYPE, 1, DHCP_MESSAGE_TYPE_REQUEST, DHCP_OPT_END]

/-- The server after the request. -/
def hourLeased : Leasing := (Leasing.start hourSettings 0).step (.message true hourRequest)

end Runs

end Cyclone
