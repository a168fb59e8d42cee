import Cyclone.Ppp
import Cyclone.Lib.Run
import Cyclone.PppFsm

/-!
# Cyclone.PppConfigure

The Configure-Nak and the Configure-Reject of LCP and IPCP (`lcp.c`, `ipcp.c`): the options of the
local configuration that the peer changes, and the Configure-Request that follows.

* `ConfContext`: the part of the context that belongs to one layer, with the requests it has sent.
* `lcpProcessConfigureNak` to `ipcpProcessConfigureReject`: one loop over the options, and what
  each layer does with one.
* `configureHandled_iff`: what a packet leaves, and when it is what it should be.
* `Configured`: the last request describes the configuration.
-/

namespace Cyclone

open Run Serial

def PPP_MIN_MRU : Nat := 32
def PPP_DEFAULT_MRU : Nat := 1500
def PPP_PROTOCOL_PAP : Nat := 0xC023
def PPP_PROTOCOL_CHAP : Nat := 0xC223
def CHAP_ALGO_ID_CHAP_MD5 : UInt8 := 5
def LCP_OPTION_MRU : UInt8 := 1
def LCP_OPTION_ACCM : UInt8 := 2
def LCP_OPTION_AUTH_PROTOCOL : UInt8 := 3
def LCP_OPTION_MAGIC_NUMBER : UInt8 := 5
def LCP_OPTION_PFC : UInt8 := 7
def LCP_OPTION_ACFC : UInt8 := 8
def IPCP_OPTION_IP_ADDRESS : UInt8 := 3
def IPCP_OPTION_PRIMARY_DNS : UInt8 := 129
def IPCP_OPTION_SECONDARY_DNS : UInt8 := 131

inductive PppError where
  | NO_ERROR
  | WRONG_IDENTIFIER
  | INVALID_LENGTH
  | FAILURE
  deriving DecidableEq, Repr

/-! ## The local configuration -/

/-- The options of LCP in `PppConfig`. -/
structure LcpConfig where
  mru : Nat
  mruRejected : Bool
  accm : Word
  accmRejected : Bool
  authProtocol : Nat
  authAlgo : UInt8
  authProtocolRejected : Bool
  magicNumber : Word
  magicNumberRejected : Bool
  pfc : Bool
  pfcRejected : Bool
  acfc : Bool
  acfcRejected : Bool
  deriving DecidableEq, Repr

/-- The options of IPCP in `PppConfig`. An address is its four bytes. -/
structure IpcpConfig where
  ipAddr : List UInt8
  ipAddrRejected : Bool
  primaryDns : List UInt8
  primaryDnsRejected : Bool
  secondaryDns : List UInt8
  secondaryDnsRejected : Bool
  deriving DecidableEq, Repr

/-- The authentication protocols that are compiled in and allowed by `settings.authProtocol`. -/
structure AuthSettings where
  pap : Bool
  chapMd5 : Bool
  deriving DecidableEq, Repr

def pppAddOption (optionType : UInt8) (value : List UInt8) : List UInt8 :=
  optionType :: UInt8.ofNat (value.length + 2) :: value

def lcpRequestAuth (config : LcpConfig) : List UInt8 :=
  if config.authProtocolRejected then []
  else if config.authProtocol = PPP_PROTOCOL_PAP then
    pppAddOption LCP_OPTION_AUTH_PROTOCOL (be16 PPP_PROTOCOL_PAP)
  else if config.authProtocol = PPP_PROTOCOL_CHAP then
    pppAddOption LCP_OPTION_AUTH_PROTOCOL (be16 PPP_PROTOCOL_CHAP ++ [config.authAlgo])
  else []

/-- The options of the Configure-Request of `lcpSendConfigureReq`. -/
def lcpRequestOptions (config : LcpConfig) : List UInt8 :=
  (if config.mruRejected then [] else pppAddOption LCP_OPTION_MRU (be16 config.mru)) ++
  (if config.accmRejected then [] else pppAddOption LCP_OPTION_ACCM (be32 config.accm)) ++
  lcpRequestAuth config ++
  (if config.pfcRejected ∨ ¬config.pfc then [] else pppAddOption LCP_OPTION_PFC []) ++
  (if config.acfcRejected ∨ ¬config.acfc then [] else pppAddOption LCP_OPTION_ACFC [])

/-- The options of the Configure-Request of `ipcpSendConfigureReq`. -/
def ipcpRequestOptions (config : IpcpConfig) : List UInt8 :=
  (if config.ipAddrRejected then []
    else pppAddOption IPCP_OPTION_IP_ADDRESS config.ipAddr) ++
  (if config.primaryDnsRejected then []
    else pppAddOption IPCP_OPTION_PRIMARY_DNS config.primaryDns) ++
  (if config.secondaryDnsRejected then []
    else pppAddOption IPCP_OPTION_SECONDARY_DNS config.secondaryDns)

/-! ## One option -/

/-- The Authentication-Protocol option of a Configure-Nak. -/
def lcpNakAuth (settings : AuthSettings) (data : List UInt8) (config : LcpConfig) :
    Except PppError LcpConfig :=
  match data with
  | hi :: lo :: rest =>
    if hi.toNat * 256 + lo.toNat = PPP_PROTOCOL_PAP then
      .ok (if settings.pap then { config with authProtocol := PPP_PROTOCOL_PAP } else config)
    else if hi.toNat * 256 + lo.toNat = PPP_PROTOCOL_CHAP then
      .ok (if rest.head? = some CHAP_ALGO_ID_CHAP_MD5 ∧ settings.chapMd5 then
        { config with authProtocol := PPP_PROTOCOL_CHAP, authAlgo := CHAP_ALGO_ID_CHAP_MD5 }
        else config)
    else .ok config
  | _ => .error .INVALID_LENGTH

/-- An option of a Configure-Nak: its type, and the data behind the two bytes of type and
length. -/
def lcpNakOption (settings : AuthSettings) (type : UInt8) (data : List UInt8)
    (config : LcpConfig) : Except PppError LcpConfig :=
  if type = LCP_OPTION_MRU then
    match data with
    | [hi, lo] =>
      .ok { config with mru := min (max (hi.toNat * 256 + lo.toNat) PPP_MIN_MRU) PPP_MAX_MRU }
    | _ => .error .INVALID_LENGTH
  else if type = LCP_OPTION_ACCM then
    match data with
    | [a, b, c, d] =>
      .ok { config with
        accm := w32 (((a.toNat * 256 + b.toNat) * 256 + c.toNat) * 256 + d.toNat) }
    | _ => .error .INVALID_LENGTH
  else if type = LCP_OPTION_AUTH_PROTOCOL then lcpNakAuth settings data config
  else .ok config

def lcpRejectOption (type : UInt8) (config : LcpConfig) : Except PppError LcpConfig :=
  if type = LCP_OPTION_MRU then
    .ok { config with mruRejected := true, mru := PPP_DEFAULT_MRU }
  else if type = LCP_OPTION_ACCM then
    .ok { config with accmRejected := true, accm := PPP_DEFAULT_ACCM }
  else if type = LCP_OPTION_AUTH_PROTOCOL then .error .FAILURE
  else if type = LCP_OPTION_MAGIC_NUMBER then
    .ok { config with magicNumberRejected := true, magicNumber := 0 }
  else if type = LCP_OPTION_PFC then .ok { config with pfcRejected := true, pfc := false }
  else if type = LCP_OPTION_ACFC then .ok { config with acfcRejected := true, acfc := false }
  else .ok config

def ipcpNakOption (type : UInt8) (data : List UInt8) (config : IpcpConfig) :
    Except PppError IpcpConfig :=
  if type = IPCP_OPTION_IP_ADDRESS then
    if data.length = 4 then .ok { config with ipAddr := data } else .error .INVALID_LENGTH
  else if type = IPCP_OPTION_PRIMARY_DNS then
    if data.length = 4 then .ok { config with primaryDns := data } else .error .INVALID_LENGTH
  else if type = IPCP_OPTION_SECONDARY_DNS then
    if data.length = 4 then .ok { config with secondaryDns := data } else .error .INVALID_LENGTH
  else .ok config

def ipcpRejectOption (type : UInt8) (config : IpcpConfig) : Except PppError IpcpConfig :=
  if type = IPCP_OPTION_IP_ADDRESS then .ok { config with ipAddrRejected := true }
  else if type = IPCP_OPTION_PRIMARY_DNS then .ok { config with primaryDnsRejected := true }
  else if type = IPCP_OPTION_SECONDARY_DNS then .ok { config with secondaryDnsRejected := true }
  else .ok config

/-! ## The list of options -/

section Layer

variable {κ : Type}

/-- The loop over the options: the error, and the configuration the options before it have left.
The first argument is a bound on the turns, which the number of bytes is. -/
def confOptionLoop (option : UInt8 → List UInt8 → κ → Except PppError κ) :
    Nat → List UInt8 → κ → PppError × κ
  | 0, _, config => (.NO_ERROR, config)
  | _ + 1, [], config => (.NO_ERROR, config)
  | _ + 1, [_], config => (.INVALID_LENGTH, config)
  | fuel + 1, type :: length :: rest, config =>
    if length.toNat < 2 then (.INVALID_LENGTH, config)
    else if length.toNat > rest.length + 2 then (.INVALID_LENGTH, config)
    else
      match option type (rest.take (length.toNat - 2)) config with
      | .error e => (e, config)
      | .ok config => confOptionLoop option fuel (rest.drop (length.toNat - 2)) config

def applyOptions (option : UInt8 → List UInt8 → κ → Except PppError κ) (options : List UInt8)
    (config : κ) : PppError × κ :=
  confOptionLoop option options.length options config

/-! ## A layer -/

/-- The automaton of a layer and its part of the local configuration, the requests that were sent,
the last first, and the options of the request that was acknowledged last. -/
structure ConfContext (κ : Type) where
  state : PppState
  identifier : UInt8
  restartCounter : Nat
  localConfig : κ
  /-- `pppAllocBuffer` has memory for a Configure-Request. -/
  memory : Bool
  requests : List (UInt8 × List UInt8)
  acknowledged : Option (List UInt8)
  deriving DecidableEq, Repr

def confFsm : PppFsmRef (ConfContext κ) where
  state c := c.state
  change c t := { c with state := t }
  restartCounter c := c.restartCounter

/-- `lcpSendConfigureReq` and `ipcpSendConfigureReq`. -/
def sendConfigureReq (request : κ → List UInt8) (c : ConfContext κ) : ConfContext κ :=
  if c.memory then
    { c with
      identifier := c.identifier + 1
      requests := (c.identifier + 1, request c.localConfig) :: c.requests
      restartCounter := c.restartCounter - 1 }
  else c

/-- The actions of a layer. The layers above are no part of its context. -/
def confCallbacks (request : κ → List UInt8)
    (thisLayerFinished : ConfContext κ → ConfContext κ) : PppCallbacks (ConfContext κ) where
  thisLayerUp c := c
  thisLayerDown c := c
  thisLayerStarted c := c
  thisLayerFinished := thisLayerFinished
  initRestartCount c value := { c with restartCounter := value }
  zeroRestartCount c := { c with restartCounter := 0 }
  sendConfigureReq := sendConfigureReq request
  sendConfigure _ c _ := c
  sendTerminateReq c :=
    { c with identifier := c.identifier + 1, restartCounter := c.restartCounter - 1 }
  sendTerminateAck c packet :=
    match packet with
    | some _ => c
    | none => { c with identifier := c.identifier + 1 }
  sendCodeRej c _ := { c with identifier := c.identifier + 1 }
  sendEchoRep c _ := c

/-- `lcpProcessConfigureAck` and `ipcpProcessConfigureAck`. -/
def processConfigureAck (callbacks : PppCallbacks (ConfContext κ)) (c : ConfContext κ)
    (identifier : UInt8) : PppError × ConfContext κ :=
  if identifier ≠ c.identifier then (.WRONG_IDENTIFIER, c)
  else
    (.NO_ERROR, pppRcvConfigureAckEvent confFsm callbacks
      { c with acknowledged := c.requests.head?.map Prod.snd })

/-- A Configure-Nak or a Configure-Reject: the options, then the event. Only an option of LCP fails
in another way than by its length. -/
def processConfigure (callbacks : PppCallbacks (ConfContext κ))
    (option : UInt8 → List UInt8 → κ → Except PppError κ) (c : ConfContext κ)
    (identifier : UInt8) (options : List UInt8) : PppError × ConfContext κ :=
  if identifier ≠ c.identifier then (.WRONG_IDENTIFIER, c)
  else
    match applyOptions option options c.localConfig with
    | (.NO_ERROR, config) =>
      (.NO_ERROR, pppRcvConfigureNakEvent confFsm callbacks { c with localConfig := config })
    | (.FAILURE, config) =>
      (.FAILURE, pppRcvCodeRejEvent confFsm callbacks { c with localConfig := config } false)
    | (e, config) => (e, { c with localConfig := config })

end Layer

/-! ## LCP and IPCP -/

/-- `lcpThisLayerFinished` closes the automaton again: it is in Initial, Closed or Stopped there,
where none of the actions is called. -/
def lcpThisLayerFinished (c : ConfContext LcpConfig) : ConfContext LcpConfig :=
  let callbacks := confCallbacks lcpRequestOptions id
  pppDownEvent confFsm callbacks (pppCloseEvent confFsm callbacks c)

def lcpCallbacks : PppCallbacks (ConfContext LcpConfig) :=
  confCallbacks lcpRequestOptions lcpThisLayerFinished

def ipcpCallbacks : PppCallbacks (ConfContext IpcpConfig) := confCallbacks ipcpRequestOptions id

def lcpProcessConfigureNak (settings : AuthSettings) :=
  processConfigure lcpCallbacks (lcpNakOption settings)

def lcpProcessConfigureReject := processConfigure lcpCallbacks fun type _ => lcpRejectOption type

def ipcpProcessConfigureNak := processConfigure ipcpCallbacks ipcpNakOption

def ipcpProcessConfigureReject :=
  processConfigure ipcpCallbacks fun type _ => ipcpRejectOption type

/-! ## One packet -/

section Packet

variable {κ : Type} {request : κ → List UInt8} {finished : ConfContext κ → ConfContext κ}
  {option : UInt8 → List UInt8 → κ → Except PppError κ}

/-- The states in which a request is waiting for its answer, or was answered. -/
def PppState.Negotiates (s : PppState) : Prop :=
  s = .REQ_SENT ∨ s = .ACK_RCVD ∨ s = .ACK_SENT ∨ s = .OPENED

instance (s : PppState) : Decidable s.Negotiates :=
  inferInstanceAs (Decidable (_ ∨ _ ∨ _ ∨ _))

/-- What a Configure-Nak or a Configure-Reject is to leave: after an error all as it was, and else
a new request with the new configuration. -/
structure ConfigureHandled (request : κ → List UInt8) (c : ConfContext κ)
    (result : PppError × ConfContext κ) : Prop where
  refused : result.1 = .WRONG_IDENTIFIER ∨ result.1 = .INVALID_LENGTH →
    result.2.localConfig = c.localConfig ∧ result.2.state = c.state ∧
      result.2.identifier = c.identifier ∧ result.2.restartCounter = c.restartCounter
  accepted : result.1 = .NO_ERROR → c.state.Negotiates →
    result.2.identifier ≠ c.identifier ∧
      result.2.requests = (result.2.identifier, request result.2.localConfig) :: c.requests

/-- The options before a malformed one change nothing, and there is memory for the request. -/
def ConfigureFits (option : UInt8 → List UInt8 → κ → Except PppError κ) (c : ConfContext κ)
    (identifier : UInt8) (options : List UInt8) : Prop :=
  identifier = c.identifier →
    ((applyOptions option options c.localConfig).1 = .INVALID_LENGTH →
      (applyOptions option options c.localConfig).2 = c.localConfig) ∧
    ((applyOptions option options c.localConfig).1 = .NO_ERROR → c.state.Negotiates →
      c.memory = true)

/-- What the event does in the states that negotiate. -/
theorem nakEvent_negotiates (c : ConfContext κ) (h : c.state.Negotiates) :
    (pppRcvConfigureNakEvent confFsm (confCallbacks request finished) c).identifier =
        (if c.memory then c.identifier + 1 else c.identifier) ∧
      (pppRcvConfigureNakEvent confFsm (confCallbacks request finished) c).localConfig =
        c.localConfig ∧
      (pppRcvConfigureNakEvent confFsm (confCallbacks request finished) c).requests =
        (if c.memory then (c.identifier + 1, request c.localConfig) :: c.requests
          else c.requests) ∧
      ¬(pppRcvConfigureNakEvent confFsm (confCallbacks request finished) c).state.Agreed := by
  unfold pppRcvConfigureNakEvent
  rcases h with h | h | h | h <;> cases hm : c.memory <;>
    simp [confFsm, confCallbacks, sendConfigureReq, h, hm, PppState.Agreed]

/-- Only the options of LCP fail with another error, and never with a wrong identifier. -/
theorem confOptionLoop_error {fuel : Nat} {options : List UInt8} {config : κ}
    (hopt : ∀ type data config e, option type data config = .error e →
      e = .INVALID_LENGTH ∨ e = .FAILURE) :
    (confOptionLoop option fuel options config).1 = .NO_ERROR ∨
      (confOptionLoop option fuel options config).1 = .INVALID_LENGTH ∨
      (confOptionLoop option fuel options config).1 = .FAILURE := by
  induction fuel generalizing options config with
  | zero => exact .inl rfl
  | succ fuel ih =>
    match options with
    | [] => exact .inl rfl
    | [_] => exact .inr (.inl rfl)
    | type :: length :: rest =>
      unfold confOptionLoop
      split_ifs with h1 h2
      · exact .inr (.inl rfl)
      · exact .inr (.inl rfl)
      · cases ho : option type (rest.take (length.toNat - 2)) config with
        | error e => exact .inr (hopt _ _ _ _ ho)
        | ok config' => exact ih

theorem applyOptions_error {options : List UInt8} {config : κ}
    (hopt : ∀ type data config e, option type data config = .error e →
      e = .INVALID_LENGTH ∨ e = .FAILURE) :
    (applyOptions option options config).1 = .NO_ERROR ∨
      (applyOptions option options config).1 = .INVALID_LENGTH ∨
      (applyOptions option options config).1 = .FAILURE :=
  confOptionLoop_error hopt

theorem succ_identifier_ne (x : UInt8) : x + 1 ≠ x := by
  intro h
  have h' := congrArg UInt8.toNat h
  rw [UInt8.toNat_add] at h'
  have hx := x.toNat_lt
  simp at h'
  omega

theorem configureHandled_iff
    (hopt : ∀ type data config e, option type data config = .error e →
      e = .INVALID_LENGTH ∨ e = .FAILURE)
    (c : ConfContext κ) (identifier : UInt8) (options : List UInt8) :
    ConfigureHandled request c
        (processConfigure (confCallbacks request finished) option c identifier options) ↔
      ConfigureFits option c identifier options := by
  unfold processConfigure ConfigureFits
  by_cases hid : identifier = c.identifier
  · rw [if_neg (not_not.mpr hid)]
    have herr := @applyOptions_error κ option options c.localConfig hopt
    generalize applyOptions option options c.localConfig = result at herr
    obtain ⟨e, config⟩ := result
    dsimp only at herr
    rcases herr with rfl | rfl | rfl
    · have hnak := fun hn => @nakEvent_negotiates κ request finished
        { c with localConfig := config } hn
      dsimp only at hnak ⊢
      constructor
      · intro hh _
        refine ⟨fun hc => (nomatch hc), fun _ hn => ?_⟩
        by_contra hm
        obtain ⟨h1, -⟩ := hnak hn
        rw [if_neg hm] at h1
        exact (hh.accepted rfl hn).1 h1
      · intro hfit
        refine ⟨fun hc => ?_, fun _ hn => ?_⟩
        · rcases hc with hc | hc <;> cases hc
        · obtain ⟨h1, h2, h3, -⟩ := hnak hn
          have hm := (hfit hid).2 rfl hn
          rw [if_pos hm] at h1 h3
          exact ⟨by rw [h1]; exact succ_identifier_ne _, by rw [h1, h2, h3]⟩
    · dsimp only
      constructor
      · intro hh _
        exact ⟨fun _ => (hh.refused (.inr rfl)).1, fun hc => (nomatch hc)⟩
      · intro hfit
        refine ⟨fun _ => ⟨(hfit hid).1 rfl, rfl, rfl, rfl⟩, fun hc => (nomatch hc)⟩
    · dsimp only
      constructor
      · intro _ _
        exact ⟨fun hc => (nomatch hc), fun hc => (nomatch hc)⟩
      · intro _
        refine ⟨fun hc => ?_, fun hc => (nomatch hc)⟩
        rcases hc with hc | hc <;> cases hc
  · rw [if_pos hid]
    constructor
    · intro _ heq
      exact absurd heq hid
    · intro _
      exact ⟨fun _ => ⟨rfl, rfl, rfl, rfl⟩, fun hc => (nomatch hc)⟩

end Packet

theorem lcpNakOption_error {settings : AuthSettings} {type : UInt8} {data : List UInt8}
    {config : LcpConfig} {e : PppError} (h : lcpNakOption settings type data config = .error e) :
    e = .INVALID_LENGTH ∨ e = .FAILURE := by
  unfold lcpNakOption at h
  split_ifs at h
  · split at h <;> cases h
    exact .inl rfl
  · split at h <;> cases h
    exact .inl rfl
  · unfold lcpNakAuth at h
    split at h
    · split_ifs at h
    · cases h
      exact .inl rfl

theorem lcpRejectOption_error {type : UInt8} {config : LcpConfig} {e : PppError}
    (h : lcpRejectOption type config = .error e) : e = .INVALID_LENGTH ∨ e = .FAILURE := by
  unfold lcpRejectOption at h
  split_ifs at h
  cases h
  exact .inr rfl

theorem ipcpNakOption_error {type : UInt8} {data : List UInt8} {config : IpcpConfig}
    {e : PppError} (h : ipcpNakOption type data config = .error e) :
    e = .INVALID_LENGTH ∨ e = .FAILURE := by
  unfold ipcpNakOption at h
  split_ifs at h <;> cases h <;> exact .inl rfl

theorem ipcpRejectOption_error {type : UInt8} {config : IpcpConfig} {e : PppError}
    (h : ipcpRejectOption type config = .error e) : e = .INVALID_LENGTH ∨ e = .FAILURE := by
  unfold ipcpRejectOption at h
  split_ifs at h

/-! ## Runs -/

/-- What a layer does with the options, and at its end. -/
structure ConfLayer (κ : Type) where
  request : κ → List UInt8
  nakOption : UInt8 → List UInt8 → κ → Except PppError κ
  rejectOption : UInt8 → List UInt8 → κ → Except PppError κ
  thisLayerFinished : ConfContext κ → ConfContext κ

def lcpLayer (settings : AuthSettings) : ConfLayer LcpConfig where
  request := lcpRequestOptions
  nakOption := lcpNakOption settings
  rejectOption type _ := lcpRejectOption type
  thisLayerFinished := lcpThisLayerFinished

def ipcpLayer : ConfLayer IpcpConfig where
  request := ipcpRequestOptions
  nakOption := ipcpNakOption
  rejectOption type _ := ipcpRejectOption type
  thisLayerFinished := id

/-- What happens to a layer. `connect` is the start of `pppConnect`, and `abort` the end of a
`pppConnect` or a `pppClose` that has waited too long. -/
inductive ConfEvent (κ : Type) where
  | connect (config : κ)
  | up
  | down
  | open
  | close
  | timeout
  | abort
  | configureReq (packet : List UInt8) (code : ConfigureCode)
  | configureAck (identifier : UInt8)
  | configureNak (identifier : UInt8) (options : List UInt8)
  | configureReject (identifier : UInt8) (options : List UInt8)
  | terminateReq (packet : List UInt8)
  | terminateAck
  | codeRej (acceptable : Bool)
  | unknownCode (packet : List UInt8)
  | unknownProtocol
  | echoReq (packet : List UInt8)

section Runs

variable {κ : Type} (layer : ConfLayer κ)

def ConfLayer.callbacks : PppCallbacks (ConfContext κ) :=
  confCallbacks layer.request layer.thisLayerFinished

/-- Nothing was sent on this connection. -/
def ConfContext.start (config : κ) : ConfContext κ where
  state := .INITIAL
  identifier := 0
  restartCounter := 0
  localConfig := config
  memory := false
  requests := []
  acknowledged := none

def ConfLayer.handle (c : ConfContext κ) : ConfEvent κ → ConfContext κ
  | .connect config => .start config
  | .up => pppUpEvent confFsm layer.callbacks c
  | .down => pppDownEvent confFsm layer.callbacks c
  | .open => pppOpenEvent confFsm layer.callbacks c
  | .close => pppCloseEvent confFsm layer.callbacks c
  | .timeout => pppTimeoutEvent confFsm layer.callbacks c
  | .abort => { c with state := .INITIAL }
  | .configureReq packet code => pppRcvConfigureReqEvent confFsm layer.callbacks c packet code
  | .configureAck identifier => (processConfigureAck layer.callbacks c identifier).2
  | .configureNak identifier options =>
    (processConfigure layer.callbacks layer.nakOption c identifier options).2
  | .configureReject identifier options =>
    (processConfigure layer.callbacks layer.rejectOption c identifier options).2
  | .terminateReq packet => pppRcvTerminateReqEvent confFsm layer.callbacks c packet
  | .terminateAck => pppRcvTerminateAckEvent confFsm layer.callbacks c
  | .codeRej acceptable => pppRcvCodeRejEvent confFsm layer.callbacks c acceptable
  | .unknownCode packet => pppRcvUnknownCodeEvent confFsm layer.callbacks c packet
  | .unknownProtocol =>
    if c.state = .OPENED then { c with identifier := c.identifier + 1 } else c
  | .echoReq packet => pppRcvEchoReqEvent confFsm layer.callbacks c packet

/-- An event, and whether there is memory for a Configure-Request at its time. -/
def ConfLayer.step (c : ConfContext κ) (e : Bool × ConfEvent κ) : ConfContext κ :=
  layer.handle { c with memory := e.1 } e.2

/-- The options leave the next request as it was, or the packet is well formed and the request is
sent. -/
def ConfLayer.Renews (option : UInt8 → List UInt8 → κ → Except PppError κ) (c : ConfContext κ)
    (memory : Bool) (identifier : UInt8) (options : List UInt8) : Prop :=
  identifier = c.identifier →
    layer.request (applyOptions option options c.localConfig).2 = layer.request c.localConfig ∨
      (applyOptions option options c.localConfig).1 = .NO_ERROR ∧ c.state.Negotiates ∧
        memory = true

def ConfLayer.Steady (c : ConfContext κ) : Bool × ConfEvent κ → Prop
  | (memory, .configureNak identifier options) =>
    layer.Renews layer.nakOption c memory identifier options
  | (memory, .configureReject identifier options) =>
    layer.Renews layer.rejectOption c memory identifier options
  | _ => True

/-- The last Configure-Request describes the configuration, and so does the one that the peer has
acknowledged. -/
structure Configured (c : ConfContext κ) : Prop where
  requested : ∀ r ∈ c.requests.head?, r.2 = layer.request c.localConfig
  agreed : c.state.Agreed → ∀ o ∈ c.acknowledged, o = layer.request c.localConfig

/-- The configuration stays, and what is sent describes it. -/
structure ConfKept (c c' : ConfContext κ) : Prop where
  config : c'.localConfig = c.localConfig
  acknowledged : c'.acknowledged = c.acknowledged
  requests : ∃ new, c'.requests = new ++ c.requests ∧
    ∀ r ∈ new, r.2 = layer.request c.localConfig
  agreed : c'.state.Agreed → c.state.Agreed

variable {layer}

theorem ConfKept.same {c c' : ConfContext κ} (hc : c'.localConfig = c.localConfig)
    (ha : c'.acknowledged = c.acknowledged) (hr : c'.requests = c.requests)
    (hs : c'.state = c.state) : ConfKept layer c c' :=
  ⟨hc, ha, ⟨[], hr, by simp⟩, fun h => hs ▸ h⟩

theorem ConfKept.trans {a b c : ConfContext κ} (h : ConfKept layer a b) (h' : ConfKept layer b c) :
    ConfKept layer a c := by
  obtain ⟨new, hr, hn⟩ := h.requests
  obtain ⟨new', hr', hn'⟩ := h'.requests
  refine ⟨h'.config.trans h.config, h'.acknowledged.trans h.acknowledged,
    ⟨new' ++ new, by rw [hr', hr, List.append_assoc], ?_⟩, fun ha => h.agreed (h'.agreed ha)⟩
  intro r hr
  rcases List.mem_append.mp hr with hr | hr
  · rw [hn' r hr, h.config]
  · exact hn r hr

theorem ConfKept.configured {c c' : ConfContext κ} (h : ConfKept layer c c')
    (hc : Configured layer c) : Configured layer c' := by
  obtain ⟨new, hr, hn⟩ := h.requests
  constructor
  · intro r hmem
    rw [hr] at hmem
    rw [h.config]
    cases new with
    | nil => exact hc.requested r hmem
    | cons _ new =>
      cases hmem
      exact hn _ List.mem_cons_self
  · intro ha o ho
    rw [h.acknowledged] at ho
    rw [h.config]
    exact hc.agreed (h.agreed ha) o ho

theorem kept_sendConfigureReq (c : ConfContext κ) :
    ConfKept layer c (sendConfigureReq layer.request c) := by
  unfold sendConfigureReq
  split_ifs
  · exact ⟨rfl, rfl, ⟨[_], rfl, by simp⟩, id⟩
  · exact .same rfl rfl rfl rfl

/-- Every action of a layer is `ConfKept` when its last one is. -/
theorem keeps_confKept {finished : ConfContext κ → ConfContext κ}
    (hf : ∀ c, ConfKept layer c (finished c)) :
    Keeps confFsm (confCallbacks layer.request finished) (ConfKept layer) where
  refl c := .same rfl rfl rfl rfl
  trans := ConfKept.trans
  change := fun q _ ht => ⟨q.config, q.acknowledged, q.requests, ht⟩
  thisLayerUp c := .same rfl rfl rfl rfl
  thisLayerDown c := .same rfl rfl rfl rfl
  thisLayerStarted c := .same rfl rfl rfl rfl
  thisLayerFinished := hf
  initRestartCount c n := .same rfl rfl rfl rfl
  zeroRestartCount c := .same rfl rfl rfl rfl
  sendConfigureReq := kept_sendConfigureReq
  sendConfigure code c p := .same rfl rfl rfl rfl
  sendTerminateReq c := .same rfl rfl rfl rfl
  sendTerminateAck c p := by cases p <;> exact .same rfl rfl rfl rfl
  sendCodeRej c p := .same rfl rfl rfl rfl
  sendEchoRep c p := .same rfl rfl rfl rfl

theorem not_agreed_initial : ¬PppState.INITIAL.Agreed := by decide

theorem configured_start (config : κ) : Configured layer (.start config) :=
  ⟨fun _ hr => (nomatch hr), fun h => absurd h not_agreed_initial⟩

theorem configured_ackEvent (k : Keeps confFsm layer.callbacks (ConfKept layer))
    {c : ConfContext κ} (hr : ∀ r ∈ c.requests.head?, r.2 = layer.request c.localConfig)
    (ha : ∀ o ∈ c.acknowledged, o = layer.request c.localConfig) :
    Configured layer (pppRcvConfigureAckEvent confFsm layer.callbacks c) := by
  have hc : Configured layer c := ⟨hr, fun _ => ha⟩
  unfold pppRcvConfigureAckEvent
  cases hs : confFsm.state c
  case CLOSED => exact (k.sendTerminateAck c none).configured hc
  case STOPPED => exact (k.sendTerminateAck c none).configured hc
  case REQ_SENT => exact ⟨hr, fun _ => ha⟩
  case ACK_RCVD => exact (k.to (k.sendConfigureReq c) .REQ_SENT (by decide)).configured hc
  case ACK_SENT => exact ⟨hr, fun _ => ha⟩
  case OPENED => exact (k.to (k.sendConfigureReq c) .REQ_SENT (by decide)).configured hc
  all_goals exact hc

/-- A Configure-Ack with the right identifier acknowledges the last request. -/
theorem configured_ack (k : Keeps confFsm layer.callbacks (ConfKept layer)) {c : ConfContext κ}
    (hc : Configured layer c) (identifier : UInt8) :
    Configured layer (processConfigureAck layer.callbacks c identifier).2 := by
  unfold processConfigureAck
  split_ifs with hid
  · exact hc
  · refine configured_ackEvent k hc.requested fun o ho => ?_
    obtain ⟨r, hr, rfl⟩ := Option.map_eq_some_iff.mp ho
    exact hc.requested r hr

theorem configured_processConfigure {option : UInt8 → List UInt8 → κ → Except PppError κ}
    (k : Keeps confFsm layer.callbacks (ConfKept layer)) {c : ConfContext κ}
    (hc : Configured layer c) {identifier : UInt8} {options : List UInt8}
    (hr : layer.Renews option c c.memory identifier options) :
    Configured layer (processConfigure layer.callbacks option c identifier options).2 := by
  unfold processConfigure
  split_ifs with hid
  · exact hc
  have hrenew := hr (not_not.mp hid)
  generalize applyOptions option options c.localConfig = result at hrenew
  obtain ⟨e, config⟩ := result
  dsimp only at hrenew
  rcases hrenew with hsame | ⟨rfl, hn, hm⟩
  · have hc' : Configured layer { c with localConfig := config } :=
      ⟨fun r h => (hc.requested r h).trans hsame.symm,
        fun ha o ho => (hc.agreed ha o ho).trans hsame.symm⟩
    cases e with
    | NO_ERROR => exact (keeps_pppRcvConfigureNakEvent k _).configured hc'
    | FAILURE => exact (keeps_pppRcvCodeRejEvent k _ false).configured hc'
    | WRONG_IDENTIFIER => exact hc'
    | INVALID_LENGTH => exact hc'
  · obtain ⟨-, h2, h3, h4⟩ := @nakEvent_negotiates κ layer.request layer.thisLayerFinished
      { c with localConfig := config } hn
    dsimp only at h2 h3 h4 ⊢
    rw [if_pos hm] at h3
    refine ⟨fun r h => ?_, fun ha => absurd ha h4⟩
    change r ∈ (pppRcvConfigureNakEvent confFsm
      (confCallbacks layer.request layer.thisLayerFinished) _).requests.head? at h
    rw [h3] at h
    cases h
    exact congrArg layer.request h2.symm

theorem configured_step (k : Keeps confFsm layer.callbacks (ConfKept layer)) (c : ConfContext κ)
    (e : Bool × ConfEvent κ) (hc : Configured layer c) (ok : layer.Steady c e) :
    Configured layer (layer.step c e) := by
  obtain ⟨memory, e⟩ := e
  have hm : Configured layer { c with memory := memory } := ⟨hc.requested, hc.agreed⟩
  unfold ConfLayer.step
  cases e with
  | connect config => exact configured_start config
  | up => exact (keeps_pppUpEvent k _).configured hm
  | down => exact (keeps_pppDownEvent k _).configured hm
  | «open» => exact (keeps_pppOpenEvent k _).configured hm
  | close => exact (keeps_pppCloseEvent k _).configured hm
  | timeout => exact (keeps_pppTimeoutEvent k _).configured hm
  | abort => exact ⟨hc.requested, fun h => absurd h not_agreed_initial⟩
  | configureReq packet code => exact (keeps_pppRcvConfigureReqEvent k _ packet code).configured hm
  | configureAck identifier => exact configured_ack k hm identifier
  | configureNak identifier options => exact configured_processConfigure k hm ok
  | configureReject identifier options => exact configured_processConfigure k hm ok
  | terminateReq packet => exact (keeps_pppRcvTerminateReqEvent k _ packet).configured hm
  | terminateAck => exact (keeps_pppRcvTerminateAckEvent k _).configured hm
  | codeRej acceptable => exact (keeps_pppRcvCodeRejEvent k _ acceptable).configured hm
  | unknownCode packet => exact (keeps_pppRcvUnknownCodeEvent k _ packet).configured hm
  | unknownProtocol =>
    unfold ConfLayer.handle
    dsimp only
    split_ifs
    · exact ⟨hm.requested, hm.agreed⟩
    · exact hm
  | echoReq packet => exact (keeps_pppRcvEchoReqEvent k _ packet).configured hm

theorem configured_reach (k : Keeps confFsm layer.callbacks (ConfKept layer)) {config : κ}
    {c : ConfContext κ} (h : Reach layer.step layer.Steady (.start config) c) :
    Configured layer c := by
  apply h.inv
  · exact configured_start config
  · intro c e hc ok
    exact configured_step k c e hc ok

end Runs

theorem keeps_ipcp : Keeps confFsm ipcpLayer.callbacks (ConfKept ipcpLayer) :=
  keeps_confKept fun _ => .same rfl rfl rfl rfl

theorem keeps_lcp (settings : AuthSettings) :
    Keeps confFsm (lcpLayer settings).callbacks (ConfKept (lcpLayer settings)) := by
  apply keeps_confKept
  intro c
  have k : Keeps confFsm (confCallbacks (lcpLayer settings).request id)
      (ConfKept (lcpLayer settings)) := keeps_confKept fun _ => .same rfl rfl rfl rfl
  exact (keeps_pppCloseEvent k c).trans (keeps_pppDownEvent k _)

/-- What `pppConnect` sets, without authentication. -/
def lcpDefaultConfig : LcpConfig where
  mru := PPP_DEFAULT_MRU
  mruRejected := false
  accm := PPP_DEFAULT_ACCM
  accmRejected := false
  authProtocol := 0
  authAlgo := 0
  authProtocolRejected := false
  magicNumber := 0
  magicNumberRejected := false
  pfc := true
  pfcRejected := false
  acfc := true
  acfcRejected := false

def noAuth : AuthSettings := ⟨false, false⟩

/-- A request was sent, and waits for its answer. -/
def mruRequested : ConfContext LcpConfig :=
  [(true, ConfEvent.open), (true, .up)].foldl (lcpLayer noAuth).step (.start lcpDefaultConfig)

/-- The peer asks for an MRU of 200 bytes, and acknowledges that. -/
def mruNakRun : ConfContext LcpConfig :=
  [(true, .configureNak 1 [1, 4, 0, 200]), (true, .configureAck 2)].foldl (lcpLayer noAuth).step
    mruRequested

end Cyclone
