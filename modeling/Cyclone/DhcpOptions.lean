import Cyclone.Udp

/-!
# Cyclone.DhcpOptions

DHCP messages and their options (`dhcp_common.c`).

* `DhcpMessage`: a message as its bytes, with the fields of the header.
* `dhcpAddOption`, `dhcpGetOption`: the two walks over the options.
* `dhcpGetOption_options`: what was added is found, and nothing else.
-/

namespace Cyclone

open NetBuffer Serial

def sizeofDhcpMessage : Nat := 240
def DHCP_MIN_MSG_SIZE : Nat := 300
def DHCP_MAX_MSG_SIZE : Nat := 548
def DHCP_HARDWARE_TYPE_ETH : UInt8 := 1
def DHCP_MAGIC_COOKIE : Word := 0x63825363
def DHCP_FLAG_BROADCAST : Nat := 0x8000
def DHCP_OPCODE_BOOTREQUEST : UInt8 := 1
def DHCP_OPCODE_BOOTREPLY : UInt8 := 2

def DHCP_MESSAGE_TYPE_DISCOVER : UInt8 := 1
def DHCP_MESSAGE_TYPE_OFFER : UInt8 := 2
def DHCP_MESSAGE_TYPE_REQUEST : UInt8 := 3
def DHCP_MESSAGE_TYPE_DECLINE : UInt8 := 4
def DHCP_MESSAGE_TYPE_ACK : UInt8 := 5
def DHCP_MESSAGE_TYPE_NAK : UInt8 := 6
def DHCP_MESSAGE_TYPE_RELEASE : UInt8 := 7
def DHCP_MESSAGE_TYPE_INFORM : UInt8 := 8

def DHCP_OPT_PAD : UInt8 := 0
def DHCP_OPT_SUBNET_MASK : UInt8 := 1
def DHCP_OPT_ROUTER : UInt8 := 3
def DHCP_OPT_DNS_SERVER : UInt8 := 6
def DHCP_OPT_REQUESTED_IP_ADDRESS : UInt8 := 50
def DHCP_OPT_IP_ADDRESS_LEASE_TIME : UInt8 := 51
def DHCP_OPT_DHCP_MESSAGE_TYPE : UInt8 := 53
def DHCP_OPT_SERVER_IDENTIFIER : UInt8 := 54
def DHCP_OPT_END : UInt8 := 255

/-! ## Options -/

/-- The position of the end option. A pad option is taken for one with a length. `none` when the
walk leaves the message. -/
def endOption : Nat → List UInt8 → Nat → Option Nat
  | 0, _, _ => none
  | fuel + 1, options, n =>
    match options[n]? with
    | none => none
    | some code =>
      if code = DHCP_OPT_END then some n
      else
        match options[n + 1]? with
        | none => none
        | some length => endOption fuel options (n + 2 + length.toNat)

/-- `dhcpAddOption`; `none` when it reads or writes outside the options. -/
def dhcpAddOption (options : List UInt8) (code : UInt8) (value : List UInt8) :
    Option (List UInt8) :=
  match endOption (options.length + 1) options 0 with
  | none => none
  | some n =>
    if value.length ≤ 255 then
      let written := code :: UInt8.ofNat value.length :: value ++ [DHCP_OPT_END]
      if n + written.length ≤ options.length then some (Ring.splice options n written) else none
    else some options

/-- The loop of `dhcpGetOption` over the rest of the options. -/
def getOptionLoop (optionCode : UInt8) : Nat → List UInt8 → Option (List UInt8)
  | 0, _ => none
  | _, [] => none
  | fuel + 1, code :: rest =>
    if code = DHCP_OPT_PAD then getOptionLoop optionCode fuel rest
    else if code = DHCP_OPT_END then none
    else
      match rest with
      | [] => none
      | length :: rest =>
        if rest.length < length.toNat then none
        else if code = optionCode then some (rest.take length.toNat)
        else getOptionLoop optionCode fuel (rest.drop length.toNat)

/-- `dhcpGetOption`: the value of an option. -/
def dhcpGetOption (message : List UInt8) (optionCode : UInt8) : Option (List UInt8) :=
  if message.length < sizeofDhcpMessage then none
  else getOptionLoop optionCode message.length (message.drop sizeofDhcpMessage)

/-! ## What was added -/

/-- The bytes of a list of options. -/
def encodeDhcpOptions (opts : List (UInt8 × List UInt8)) : List UInt8 :=
  opts.flatMap fun o => o.1 :: UInt8.ofNat o.2.length :: o.2

/-- An option that both walks understand. -/
def OptionOk (o : UInt8 × List UInt8) : Prop :=
  o.1 ≠ DHCP_OPT_PAD ∧ o.1 ≠ DHCP_OPT_END ∧ o.2.length ≤ 255

/-- The options of a message: those added, the end option, and what is behind it. -/
structure HasOptions (options : List UInt8) (opts : List (UInt8 × List UInt8)) : Prop where
  ok : ∀ o ∈ opts, OptionOk o
  bytes : ∃ rest, options = encodeDhcpOptions opts ++ DHCP_OPT_END :: rest

section Options

variable {options rest : List UInt8} {opts : List (UInt8 × List UInt8)} {o : UInt8 × List UInt8}

theorem encodeDhcpOptions_cons (o : UInt8 × List UInt8) (opts : List (UInt8 × List UInt8)) :
    encodeDhcpOptions (o :: opts) =
      o.1 :: UInt8.ofNat o.2.length :: (o.2 ++ encodeDhcpOptions opts) := by
  simp [encodeDhcpOptions]

theorem encodeDhcpOptions_snoc (opts : List (UInt8 × List UInt8)) (o : UInt8 × List UInt8) :
    encodeDhcpOptions (opts ++ [o]) =
      encodeDhcpOptions opts ++ o.1 :: UInt8.ofNat o.2.length :: o.2 := by
  simp [encodeDhcpOptions]

theorem OptionOk.length (h : OptionOk o) : (UInt8.ofNat o.2.length).toNat = o.2.length := by
  have := h.2.2
  rw [UInt8.toNat_ofNat']
  omega

theorem length_le_encode (opts : List (UInt8 × List UInt8)) :
    2 * opts.length ≤ (encodeDhcpOptions opts).length := by
  induction opts with
  | nil => exact Nat.le_refl _
  | cons o opts ih =>
    rw [encodeDhcpOptions_cons]
    simp only [List.length_cons, List.length_append]
    omega

theorem endOption_encode (before : List UInt8) (hopts : ∀ o ∈ opts, OptionOk o) :
    ∀ fuel, opts.length < fuel →
      endOption fuel (before ++ encodeDhcpOptions opts ++ DHCP_OPT_END :: rest) before.length =
        some (before ++ encodeDhcpOptions opts).length := by
  induction opts generalizing before with
  | nil =>
    intro fuel hfuel
    obtain ⟨fuel, rfl⟩ : ∃ k, fuel = k + 1 := ⟨fuel - 1, by
      rw [List.length_nil] at hfuel
      omega⟩
    rw [endOption]
    simp [encodeDhcpOptions]
  | cons o opts ih =>
    intro fuel hfuel
    obtain ⟨fuel, rfl⟩ : ∃ k, fuel = k + 1 := ⟨fuel - 1, by omega⟩
    have ho := hopts o List.mem_cons_self
    have hsplit : before ++ encodeDhcpOptions (o :: opts) =
        (before ++ o.1 :: UInt8.ofNat o.2.length :: o.2) ++ encodeDhcpOptions opts := by
      rw [encodeDhcpOptions_cons]
      simp
    have hcode : (before ++ encodeDhcpOptions (o :: opts) ++ DHCP_OPT_END :: rest)[before.length]?
        = some o.1 := by
      rw [encodeDhcpOptions_cons]
      simp
    have hlen : (before ++ encodeDhcpOptions (o :: opts) ++
        DHCP_OPT_END :: rest)[before.length + 1]? = some (UInt8.ofNat o.2.length) := by
      rw [encodeDhcpOptions_cons]
      simp
    rw [endOption, hcode]
    simp only
    rw [if_neg ho.2.1, hlen]
    simp only
    rw [ho.length, hsplit]
    have hnext : before.length + 2 + o.2.length =
        (before ++ o.1 :: UInt8.ofNat o.2.length :: o.2).length := by
      simp only [List.length_append, List.length_cons]
      omega
    rw [hnext]
    exact ih _ (fun p hp => hopts p (List.mem_cons_of_mem _ hp)) fuel
      (by rw [List.length_cons] at hfuel; omega)

/-- An option that fits is put behind the others. -/
theorem dhcpAddOption_options (h : HasOptions options opts) (ho : OptionOk o)
    (hfit : (encodeDhcpOptions opts).length + o.2.length + 3 ≤ options.length) :
    ∃ options', dhcpAddOption options o.1 o.2 = some options' ∧
      options'.length = options.length ∧ HasOptions options' (opts ++ [o]) := by
  obtain ⟨hok, rest, rfl⟩ := h
  have hcount := length_le_encode opts
  have hend := @endOption_encode rest opts [] hok
    ((encodeDhcpOptions opts ++ DHCP_OPT_END :: rest).length + 1)
    (by rw [List.length_append]; omega)
  rw [List.nil_append, List.length_nil] at hend
  have hlen : (o.1 :: UInt8.ofNat o.2.length :: o.2 ++ [DHCP_OPT_END]).length =
      o.2.length + 3 := by
    simp only [List.length_append, List.length_cons, List.length_nil]
  have hroom : (encodeDhcpOptions opts).length +
      (o.1 :: UInt8.ofNat o.2.length :: o.2 ++ [DHCP_OPT_END]).length ≤
        (encodeDhcpOptions opts ++ DHCP_OPT_END :: rest).length := by
    omega
  unfold dhcpAddOption
  rw [hend]
  simp only
  rw [if_pos ho.2.2, if_pos hroom]
  refine ⟨_, rfl, Ring.length_splice hroom, ?_, ?_⟩
  · intro p hp
    rcases List.mem_append.mp hp with hp | hp
    · exact hok p hp
    · rw [List.mem_singleton.mp hp]
      exact ho
  · unfold Ring.splice
    rw [List.take_left, encodeDhcpOptions_snoc]
    refine ⟨(encodeDhcpOptions opts ++ DHCP_OPT_END :: rest).drop
      ((encodeDhcpOptions opts).length + (o.2.length + 3)), ?_⟩
    rw [hlen]
    simp

/-- What a client finds: the first option with the code. -/
theorem getOptionLoop_encode (code : UInt8) (hopts : ∀ o ∈ opts, OptionOk o) :
    ∀ fuel, opts.length < fuel →
      getOptionLoop code fuel (encodeDhcpOptions opts ++ DHCP_OPT_END :: rest) =
        (opts.find? fun o => o.1 == code).map Prod.snd := by
  induction opts with
  | nil =>
    intro fuel hfuel
    obtain ⟨fuel, rfl⟩ : ∃ k, fuel = k + 1 := ⟨fuel - 1, by
      rw [List.length_nil] at hfuel
      omega⟩
    rfl
  | cons o opts ih =>
    intro fuel hfuel
    obtain ⟨fuel, rfl⟩ : ∃ k, fuel = k + 1 := ⟨fuel - 1, by omega⟩
    have ho := hopts o List.mem_cons_self
    rw [encodeDhcpOptions_cons, List.cons_append, List.cons_append, getOptionLoop,
      if_neg ho.1, if_neg ho.2.1]
    rw [ho.length, List.append_assoc, if_neg (by rw [List.length_append]; omega)]
    by_cases hcode : o.1 = code
    · rw [if_pos hcode, List.find?_cons_of_pos (by rw [hcode]; exact beq_self_eq_true code),
        List.take_left]
      rfl
    · rw [if_neg hcode, List.find?_cons_of_neg (by simpa using hcode), List.drop_left]
      exact ih (fun p hp => hopts p (List.mem_cons_of_mem _ hp)) fuel
        (by rw [List.length_cons] at hfuel; omega)

theorem dhcpGetOption_options {header : List UInt8} (hh : header.length = sizeofDhcpMessage)
    (h : HasOptions options opts) (code : UInt8) :
    dhcpGetOption (header ++ options) code = (opts.find? fun o => o.1 == code).map Prod.snd := by
  obtain ⟨hok, rest, rfl⟩ := h
  have hcount := length_le_encode opts
  have hsize : sizeofDhcpMessage = 240 := rfl
  unfold dhcpGetOption
  rw [if_neg (by rw [List.length_append]; omega), ← hh, List.drop_left]
  exact getOptionLoop_encode code hok _ (by simp only [List.length_append]; omega)

end Options

end Cyclone
