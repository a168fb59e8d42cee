import Cyclone.TftpRuns

/-!
# Cyclone.TftpRead

A client reads a file.

* `Reading`, `ReadState`: where a connection of the server and the client are in the file.
* `ReadInv`: the invariant of a transfer, kept by every step.
* `tftp_read`: the application reads the file, as far as it comes, and all of it at its end.
-/

namespace Cyclone

open Serial Chunks Run

/-! ## Reading a file -/

/-- A connection that serves the file. -/
def Reading (content : List UInt8) (c : TftpClientConnection) : Prop :=
  c.state = .CLOSED ∨ ∃ n, c.block = BitVec.ofNat 16 (n + 1) ∧ c.packet = dataPacket content n ∧
    TFTP_SERVER_BLOCK_SIZE * n ≤ content.length ∧
    (c.state = .READ_COMPLETE ∨ c.state = .READING ∧
      TFTP_SERVER_BLOCK_SIZE * (n + 1) ≤ content.length ∧
      ∀ file, c.file = some file → file.content = content)

/-- What the server sends to a client that reads. -/
def ReadAnswer (content data : List UInt8) : Prop :=
  ErrorPacket data ∨
    ∃ n, TFTP_SERVER_BLOCK_SIZE * n ≤ content.length ∧ data = dataPacket content n

/-- What a client that reads sends to the server. -/
def ReadRequest (filename mode data : List UInt8) : Prop :=
  data.length < 2 ∨ be16At data 0 = TFTP_OPCODE_ACK ∨
    filename.length + mode.length ≤ TFTP_CLIENT_BLOCK_SIZE ∧
      data = tftpRequest TFTP_OPCODE_RRQ filename mode

section Reading

variable {content : List UInt8} {c : TftpClientConnection} {n : Nat}

theorem served_read_data (hsize : content.length < TFTP_MAX_FILE_SIZE) (env : TftpServerEnv)
    (hs : c.state = .READING) (hblock : c.block = BitVec.ofNat 16 (n + 1))
    (hn : TFTP_SERVER_BLOCK_SIZE * n ≤ content.length)
    (hfile : ∀ file, c.file = some file → file.content = content) :
    Served (Reading content) (ReadAnswer content) c (tftpServerSendDataPacket env c) := by
  have hb : TFTP_SERVER_BLOCK_SIZE = 512 := rfl
  have hmax : TFTP_MAX_FILE_SIZE = 65535 * 512 := rfl
  obtain ⟨text, h⟩ | ⟨file, data, hf, hdata, hsent⟩ := sendData_cases env c
  · rw [h]
    exact served_abort env.time text (fun _ hc => .inl hc) fun _ he => .inl he
  · have hcount : n < 65535 := by
      rw [hb] at hn
      omega
    have hchunk : data = chunk TFTP_SERVER_BLOCK_SIZE content n := by
      rw [hdata, hblock, offset_block hcount, readFile_chunk, hfile file hf]
    have hpacket : tftpHeader TFTP_OPCODE_DATA c.block ++ data = dataPacket content n := by
      rw [hchunk, hblock, dataPacket]
    rw [hpacket] at hsent
    obtain ⟨-, h⟩ | ⟨hlen, h⟩ := hsent
    · rw [h]
      exact served_transmit rfl rfl (.inr ⟨n, hblock, rfl, hn, .inl rfl⟩) (.inr ⟨n, hn, rfl⟩)
    · rw [h]
      have hfull : TFTP_SERVER_BLOCK_SIZE * (n + 1) ≤ content.length := by
        rw [hchunk, length_chunk, hb] at hlen
        rw [hb]
        omega
      exact served_transmit rfl rfl (.inr ⟨n, hblock, rfl, hn, .inr ⟨hs, hfull, hfile⟩⟩)
        (.inr ⟨n, hn, rfl⟩)

theorem served_read (hsize : content.length < TFTP_MAX_FILE_SIZE) {packet : List UInt8}
    {r : TftpStep} (hc : Reading content c) (h : ConnectionMove c packet r) :
    Served (Reading content) (ReadAnswer content) c r := by
  have hwriting : c.state ≠ .WRITING := by
    rcases hc with hc | ⟨n, -, -, -, hs | ⟨hs, -⟩⟩
    · rw [hc]
      decide
    · rw [hs]
      decide
    · rw [hs]
      decide
  cases h with
  | stay => exact served_silent (.inr rfl) hc
  | resend time count hcl ho =>
    obtain ⟨n, hblock, hpacket, hn, hs⟩ := hc.resolve_left hcl
    exact served_transmit rfl rfl (.inr ⟨n, hblock, hpacket, hn, hs⟩) (.inr ⟨n, hn, hpacket⟩)
  | close => exact served_silent (.inl rfl) (.inl rfl)
  | abort time text => exact served_abort time text (fun _ hc => .inl hc) fun _ he => .inl he
  | next env hs _ =>
    obtain ⟨n, hblock, -, -, hstate⟩ := hc.resolve_left (by rw [hs]; decide)
    obtain ⟨-, hfull, hfile⟩ := hstate.resolve_left (by rw [hs]; decide)
    have h := served_read_data (c := { c with block := c.block + 1 }) (n := n + 1) hsize env hs
      (by rw [hblock]; exact block_succ _) hfull hfile
    exact ⟨h.socket, h.connection, h.sent⟩
  | stored time file hs => exact absurd hs hwriting
  | storedLast time file hs => exact absurd hs hwriting

end Reading

/-! ## The client reads -/

/-- Where the client is in the file, after the application has read `moved`. -/
def ReadState (content moved : List UInt8) (c : TftpClientContext) : Prop :=
  match c.state with
  | .RRQ => c.block = 1 ∧ moved = []
  | .DATA => ∃ n, c.block = BitVec.ofNat 16 (n + 1) ∧
      TFTP_SERVER_BLOCK_SIZE * n ≤ content.length ∧ c.inPacket = dataPacket content n ∧
      c.inDataLen = (chunk TFTP_SERVER_BLOCK_SIZE content n).length ∧ c.inDataPos ≤ c.inDataLen ∧
      moved = content.take (TFTP_SERVER_BLOCK_SIZE * n + c.inDataPos)
  | .ACK => ∃ n, c.block = BitVec.ofNat 16 (n + 1) ∧
      TFTP_SERVER_BLOCK_SIZE * n ≤ content.length ∧
      moved = content.take (TFTP_SERVER_BLOCK_SIZE * n)
  | .COMPLETE => moved = content
  | .CLOSED | .ERROR => moved <+: content
  | .WRQ | .LAST_DATA => False

structure ReadClient (own : Endpoint) (settings : TftpServerSettings)
    (content filename mode moved : List UInt8) (c : TftpClientContext) : Prop where
  state : ReadState content moved c
  buffer : c.outPacket.length = TFTP_CLIENT_MAX_PACKET_SIZE
  packet : ReadRequest filename mode (c.outPacket.take c.outPacketLen)
  socket : ∀ k, c.socket = some k → k = own
  server : c.serverIpAddr = settings.ipAddr

section ReadClient

variable {own : Endpoint} {settings : TftpServerSettings}
  {content filename mode moved : List UInt8} {c : TftpClientContext}

theorem ReadState.prefix_of (h : ReadState content moved c) : moved <+: content := by
  unfold ReadState at h
  split at h
  · rw [h.2]
    exact List.nil_prefix
  · obtain ⟨n, -, -, -, -, -, rfl⟩ := h
    exact List.take_prefix _ _
  · obtain ⟨n, -, -, rfl⟩ := h
    exact List.take_prefix _ _
  · rw [h]
  · exact h
  · exact h
  · exact h.elim
  · exact h.elim

/-- What the server may send moves the client on by one block. -/
theorem readState_move (hsize : content.length < TFTP_MAX_FILE_SIZE)
    (h : ReadState content moved c) (hs : c.state = .RRQ ∨ c.state = .ACK) {data : List UInt8}
    (hin : c.inPacket = data.take TFTP_CLIENT_MAX_PACKET_SIZE) (hdata : ReadAnswer content data)
    {c' : TftpClientContext} (hm : ClientMove c c') : ReadState content moved c' := by
  have hb : TFTP_SERVER_BLOCK_SIZE = 512 := rfl
  have hmax : TFTP_MAX_FILE_SIZE = 65535 * 512 := rfl
  have hcap : TFTP_CLIENT_MAX_PACKET_SIZE = TFTP_SERVER_MAX_PACKET_SIZE := rfl
  have hplace : ∃ n, c.block = BitVec.ofNat 16 (n + 1) ∧
      TFTP_SERVER_BLOCK_SIZE * n ≤ content.length ∧
      moved = content.take (TFTP_SERVER_BLOCK_SIZE * n) := by
    rcases hs with hs | hs
    · rw [ReadState, hs] at h
      exact ⟨0, h.1, by simp, by simpa using h.2⟩
    · rw [ReadState, hs] at h
      exact h
  obtain ⟨n, hblock, hn, hmoved⟩ := hplace
  cases hm with
  | stay => exact h
  | data tid _ hop hfield =>
    rw [hcap] at hin
    rw [hin] at hop hfield
    rcases hdata with herr | ⟨m, hm, rfl⟩
    · rw [be16At_take (by decide), herr] at hop
      exact absurd hop (by decide)
    · rw [take_dataPacket] at hin hfield
      rw [dataPacket, header_field, hblock] at hfield
      have hcount : m < 65535 ∧ n < 65535 := by
        rw [hb] at hm hn
        omega
      obtain rfl : m = n := by
        have := block_inj (by omega) (by omega) hfield
        omega
      refine ⟨m, hblock, hm, hin, ?_, Nat.zero_le _, by simpa using hmoved⟩
      show c.inPacket.length - sizeofTftpDataPacket = _
      rw [hin, length_dataPacket]
      exact Nat.add_sub_cancel_left 4 _
  | ack tid hw => rcases hs with hs | hs <;> rcases hw with hw | hw <;> rw [hs] at hw <;> cases hw
  | last hw => rcases hs with hs | hs <;> rw [hs] at hw <;> cases hw
  | error => exact h.prefix_of

theorem read_wait (hsize : content.length < TFTP_MAX_FILE_SIZE) {env : TftpClientEnv}
    (call : TftpCall) (h : ReadClient own settings content filename mode moved c)
    (hs : c.state = .RRQ ∨ c.state = .ACK)
    (hin : ∀ src data, env.received = .packet src data → src.ipAddr = settings.ipAddr →
      ReadAnswer content data) :
    ReadClient own settings content filename mode moved (waitEvents env c call).context ∧
      Sends own (ReadRequest filename mode) (waitEvents env c call).sent ∧
      (waitEvents env c call).moved = [] ∧
      ((waitEvents env c call).next = .again call ∨
        (waitEvents env c call).next = .done .TIMEOUT ∨
        (waitEvents env c call).next = .done .FAILURE) := by
  refine wait_turn call h (fun c h => h.socket) (fun c h => h.packet)
    (fun c time count h => ⟨h.state, h.buffer, h.packet, h.socket, h.server⟩)
    fun src data hr => ?_
  have hstate : ReadState content moved
      { c with inPacket := data.take TFTP_CLIENT_MAX_PACKET_SIZE } := by
    have := h.state
    rcases hs with hs | hs
    · rw [ReadState, hs] at this
      rw [ReadState, hs]
      exact this
    · rw [ReadState, hs] at this
      rw [ReadState, hs]
      exact this
  refine ⟨⟨hstate, h.buffer, h.packet, h.socket, h.server⟩, fun hip c' hm => ?_⟩
  have hnew := readState_move hsize hstate hs rfl (hin src data hr (hip.trans h.server)) hm
  cases hm with
  | stay => exact ⟨hnew, h.buffer, h.packet, h.socket, h.server⟩
  | data => exact ⟨hnew, h.buffer, h.packet, h.socket, h.server⟩
  | ack => exact ⟨hnew, h.buffer, h.packet, h.socket, h.server⟩
  | last => exact ⟨hnew, h.buffer, h.packet, h.socket, h.server⟩
  | error => exact ⟨hnew, h.buffer, h.packet, h.socket, h.server⟩

/-- The calls of an application that reads the file. -/
def Reads (filename : List UInt8) (mode : Nat) : TftpCall → Prop
  | .openFile name m => name = filename ∧ m = mode ∧ mode &&& TFTP_FILE_MODE_WRITE = 0
  | .readFile _ _ => True
  | _ => False

/-- A turn of a call that reads. -/
structure ReadTurn (own : Endpoint) (settings : TftpServerSettings) (content filename : List UInt8)
    (mode : Nat) (moved : List UInt8) (call : TftpCall) (t : TftpTurn) : Prop where
  context : ReadClient own settings content filename (modeString mode) (moved ++ t.moved) t.context
  sent : Sends own (ReadRequest filename (modeString mode)) t.sent
  opening : ∀ name m, call = .openFile name m → t.moved = []
  again : ∀ next, t.next = .again next → Reads filename mode next ∧
    ∀ name m, next = .openFile name m → call = .openFile name m
  stream : t.next = .done .END_OF_STREAM → moved ++ t.moved = content

theorem read_turn_wait {mode : Nat} (hsize : content.length < TFTP_MAX_FILE_SIZE)
    {env : TftpClientEnv} {call : TftpCall} (hcall : Reads filename mode call)
    (h : ReadClient own settings content filename (modeString mode) moved c)
    (hs : c.state = .RRQ ∨ c.state = .ACK)
    (hin : ∀ src data, env.received = .packet src data → src.ipAddr = settings.ipAddr →
      ReadAnswer content data) :
    ReadTurn own settings content filename mode moved call (waitEvents env c call) := by
  obtain ⟨hc, hsent, hm, hnext⟩ := read_wait hsize call h hs hin
  refine ⟨by rw [hm, List.append_nil]; exact hc, hsent, fun _ _ _ => hm, fun next hn => ?_,
    fun hn => ?_⟩
  · rcases hnext with he | he | he
    · rw [he] at hn
      cases hn
      exact ⟨hcall, fun _ _ h => h⟩
    · rw [he] at hn
      cases hn
    · rw [he] at hn
      cases hn
  · rcases hnext with he | he | he
    · rw [he] at hn
      cases hn
    · rw [he] at hn
      cases hn
    · rw [he] at hn
      cases hn

/-- A turn that only returns. -/
theorem read_turn_done {mode : Nat} {call : TftpCall} {c' : TftpClientContext} {error : TftpError}
    (h : ReadClient own settings content filename (modeString mode) moved c')
    (hstream : error = .END_OF_STREAM → moved = content) :
    ReadTurn own settings content filename mode moved call
      { context := c', next := .done error } := by
  refine ⟨by rw [List.append_nil]; exact h, nofun, fun _ _ _ => rfl, nofun, fun hn => ?_⟩
  cases hn
  rw [List.append_nil]
  exact hstream rfl

theorem read_turn_open {mode : Nat} (hsize : content.length < TFTP_MAX_FILE_SIZE)
    {env : TftpClientEnv} (hmode : mode &&& TFTP_FILE_MODE_WRITE = 0)
    (h : ReadClient own settings content filename (modeString mode) moved c)
    (hmoved : c.state = .CLOSED → moved = [])
    (hsock : ∀ k, env.socket = some k → k = own)
    (hin : ∀ src data, env.received = .packet src data → src.ipAddr = settings.ipAddr →
      ReadAnswer content data) :
    ReadTurn own settings content filename mode moved (.openFile filename mode)
      (tftpClientOpenFile env c filename mode) := by
  unfold tftpClientOpenFile
  rw [if_neg (not_not_intro hmode)]
  unfold openFileWith
  split
  · rename_i hs
    unfold tftpClientOpenConnection
    simp only
    cases hsocket : env.socket with
    | none =>
      refine read_turn_done ⟨?_, h.buffer, h.packet, nofun, h.server⟩ nofun
      exact h.state
    | some k =>
      have hk : ∀ k', some k = some k' → k' = own := fun k' hk' => by
        cases hk'
        exact hsock k hsocket
      obtain ⟨outPacket, outPacketLen, timestamp, retransmitCount, sent, heq, hbuffer, hpacket,
        hsent⟩ := @request_sent own { tftpClientCloseConnection c with socket := some k }
          (ReadRequest filename (modeString mode)) TFTP_OPCODE_RRQ filename (modeString mode)
          env.time h.buffer hk h.packet fun hlen => .inr (.inr ⟨hlen, rfl⟩)
      simp only [heq]
      refine ⟨⟨⟨rfl, ?_⟩, hbuffer, hpacket, hk, h.server⟩, hsent, fun _ _ _ => rfl, ?_, nofun⟩
      · rw [List.append_nil]
        exact hmoved hs
      · intro next hn
        cases hn
        exact ⟨⟨rfl, rfl, hmode⟩, fun _ _ h => h⟩
  · split
    · rename_i hs
      exact read_turn_wait hsize ⟨rfl, rfl, hmode⟩ h (.inl hs) hin
    · split
      · exact read_turn_done h nofun
      · exact read_turn_done ⟨h.state.prefix_of, h.buffer, h.packet, nofun, h.server⟩ nofun

/-- A turn copies from the block that is in hand, and acknowledges it at its end. -/
theorem read_turn_file {mode : Nat} (hsize : content.length < TFTP_MAX_FILE_SIZE)
    {env : TftpClientEnv} {size received : Nat}
    (h : ReadClient own settings content filename (modeString mode) moved c)
    (hin : ∀ src data, env.received = .packet src data → src.ipAddr = settings.ipAddr →
      ReadAnswer content data) :
    ReadTurn own settings content filename mode moved (.readFile size received)
      (tftpClientReadFile env c size received) := by
  have hb : TFTP_SERVER_BLOCK_SIZE = 512 := rfl
  have hclient : TFTP_CLIENT_BLOCK_SIZE = TFTP_SERVER_BLOCK_SIZE := rfl
  have hstate := h.state
  unfold tftpClientReadFile
  split
  · exact read_turn_done h (by intro he; cases he)
  · split
    · rename_i hs
      rw [ReadState, hs] at hstate
      obtain ⟨n, hblock, hn, hpacket, hlen, hpos, hmoved⟩ := hstate
      have hchunk := @length_chunk _ TFTP_SERVER_BLOCK_SIZE n content
      generalize hcount : min (c.inDataLen - c.inDataPos) (size - received) = count
      have hcount : count ≤ c.inDataLen - c.inDataPos := hcount ▸ Nat.min_le_left _ _
      have hnew : moved ++ (c.inPacket.drop (sizeofTftpDataPacket + c.inDataPos)).take count =
          content.take (TFTP_SERVER_BLOCK_SIZE * n + (c.inDataPos + count)) := by
        rw [hmoved, hpacket, ← List.drop_drop, drop_dataPacket, chunk, List.drop_take,
          List.drop_drop, List.take_take, Nat.min_eq_left (by omega), ← List.take_add,
          Nat.add_assoc]
      have hagain : ∀ next, TftpProgress.again (.readFile size (received + count)) = .again next →
          Reads filename mode next ∧ ∀ name m, next = .openFile name m →
            TftpCall.readFile size received = .openFile name m := by
        intro next hn
        cases hn
        refine ⟨trivial, ?_⟩
        intro name m he
        cases he
      have hopen : ∀ {p : Prop} (name : List UInt8) (m : Nat),
          TftpCall.readFile size received = .openFile name m → p := by
        intro p name m he
        cases he
      have hstream : ∀ {p : Prop} {next : TftpCall},
          TftpProgress.again next = .done .END_OF_STREAM → p := by
        intro p next he
        cases he
      simp only
      split
      · rename_i hend
        have hend : c.inDataPos + count = c.inDataLen := by omega
        have hack : ReadRequest filename (modeString mode) ((store c.outPacket 0
            (tftpHeader TFTP_OPCODE_ACK c.block)).take sizeofTftpAckPacket) := by
          rw [show sizeofTftpAckPacket = (tftpHeader TFTP_OPCODE_ACK c.block).length from rfl,
            take_packet]
          exact .inr (.inl (by simpa using header_opcode TFTP_OPCODE_ACK c.block []))
        have hbuffer : (store c.outPacket 0 (tftpHeader TFTP_OPCODE_ACK c.block)).length =
            TFTP_CLIENT_MAX_PACKET_SIZE := by
          rw [length_store (by rw [h.buffer, length_tftpHeader]; decide), h.buffer]
        refine ⟨⟨?_, hbuffer, hack, h.socket, h.server⟩,
          sends_transmit (by exact h.socket) (by exact hack) _, hopen, hagain, hstream⟩
        simp only [tftpClientSendAckPacket, hnew, hend]
        split
        · rename_i hshort
          rw [ReadState]
          simp only
          rw [hlen, take_add_length]
          exact take_chunk_last (by rw [← hlen]; exact hshort)
        · rename_i hfull
          have hall : TFTP_SERVER_BLOCK_SIZE * (n + 1) ≤ content.length ∧
              c.inDataLen = TFTP_SERVER_BLOCK_SIZE := by
            rw [hclient, hb] at hfull
            rw [hchunk, hb] at hlen
            rw [hb]
            omega
          refine ⟨n + 1, ?_, hall.1, ?_⟩
          · show c.block + 1 = _
            rw [hblock]
            exact block_succ _
          · rw [hall.2, Nat.mul_add_one]
      · rename_i hend
        refine ⟨⟨?_, h.buffer, h.packet, h.socket, h.server⟩, ?_, hopen, hagain, hstream⟩
        · rw [ReadState]
          simp only [hs]
          exact ⟨n, hblock, hn, hpacket, hlen, by omega, hnew⟩
        · intro d hd
          cases hd
    · split
      · rename_i hs
        exact read_turn_wait hsize trivial h (.inr hs) hin
      · split
        · rename_i hs
          rw [ReadState, hs] at hstate
          refine read_turn_done h fun _ => hstate
        · exact read_turn_done h (by intro he; cases he)

end ReadClient

/-! ## Runs of a client that reads -/

structure ReadInv (own : Endpoint) (settings : TftpServerSettings)
    (content filename : List UInt8) (mode : Nat) (s : TftpWorld) : Prop where
  session : Session own settings (Reading content) (ReadAnswer content)
    (ReadRequest filename (modeString mode)) s
  client : ReadClient own settings content filename (modeString mode) s.moved s.client
  call : ∀ call, s.call = some call → Reads filename mode call
  start : s.call = none → s.returned = [] → s.moved = []
  opening : ∀ name m, s.call = some (.openFile name m) → s.moved = []
  stream : ∀ call, (call, .END_OF_STREAM) ∈ s.returned → s.moved = content

section ReadRuns

variable {own : Endpoint} {settings : TftpServerSettings} {content filename : List UInt8}
  {mode : Nat} {s : TftpWorld}

theorem readInv_fresh (h : Unheard own s) :
    ReadInv own s.server.settings content filename mode s := by
  obtain ⟨hcall, hreturned, hmoved⟩ := h.idle
  obtain ⟨port, hclient⟩ := h.client
  refine ⟨h.session _ _ _, ?_, by rw [hcall]; nofun, fun _ _ => hmoved, fun _ _ _ => hmoved,
    by rw [hreturned]; nofun⟩
  rw [hclient, hmoved]
  exact ⟨List.nil_prefix, List.length_replicate, .inl (by simp), nofun, rfl⟩

/-- A packet that is not too short to be a request. -/
theorem parsed_request {data name m : List UInt8} {opcode : Port}
    (hR : ReadRequest filename (modeString mode) data)
    (hop : be16At data 0 = opcode) (hne : opcode ≠ TFTP_OPCODE_ACK)
    (hparse : tftpParseRequest (data.take TFTP_SERVER_MAX_PACKET_SIZE) = some (name, m)) :
    filename.length + (modeString mode).length ≤ TFTP_CLIENT_BLOCK_SIZE ∧
      data = tftpRequest TFTP_OPCODE_RRQ filename (modeString mode) := by
  rcases hR with hlen | hack | hreq
  · have hshort : (data.take TFTP_SERVER_MAX_PACKET_SIZE).length ≤ sizeofTftpRrqPacket := by
      rw [List.length_take]
      exact (Nat.min_le_right _ _).trans hlen.le
    rw [tftpParseRequest, if_pos hshort] at hparse
    cases hparse
  · exact absurd (hop.symm.trans hack) hne
  · exact hreq

/-- The server opens the file that the client asked for. -/
theorem served_read_request (hsize : content.length < TFTP_MAX_FILE_SIZE)
    (hname : (0 : UInt8) ∉ filename)
    (hfile : (settings.openFileCallback filename (modeString mode) false).getD [] = content)
    {env : TftpServerEnv} {data name m : List UInt8} (c : TftpClientConnection)
    (hR : ReadRequest filename (modeString mode) data)
    (hop : be16At data 0 = TFTP_OPCODE_RRQ)
    (hparse : tftpParseRequest (data.take TFTP_SERVER_MAX_PACKET_SIZE) = some (name, m)) :
    Served (Reading content) (ReadAnswer content) c
      (tftpServerProcessRrqPacket env settings c name m) := by
  have hpair : name = filename ∧ m = modeString mode := by
    obtain ⟨hlen, rfl⟩ := parsed_request hR hop (by decide) hparse
    rw [parse_request _ hname (zero_notMem_modeString mode) hlen] at hparse
    cases hparse
    exact ⟨rfl, rfl⟩
  obtain ⟨rfl, rfl⟩ := hpair
  unfold tftpServerProcessRrqPacket
  split
  · rename_i found hopen
    rw [hopen] at hfile
    have h := served_read_data (n := 0) (c := { c with
      file := some ⟨name, modeString mode, found⟩, state := .READING, block := 1 }) hsize env rfl
      rfl (Nat.zero_le _) (fun file hf => by cases hf; exact hfile)
    exact ⟨h.socket, h.connection, h.sent⟩
  · exact served_abort env.time _ (fun _ hc => .inl hc) fun _ he => .inl he

theorem readInv_turn (hsize : content.length < TFTP_MAX_FILE_SIZE)
    (hown : own.ipAddr ≠ settings.ipAddr) {env : TftpClientEnv}
    (h : ReadInv own settings content filename mode s)
    (hok : s.Admitted own (Reads filename mode) (.turn env)) :
    ReadInv own settings content filename mode (s.step (.turn env)) := by
  obtain ⟨hsock, hin⟩ := hok
  unfold TftpWorld.step
  cases hcall : s.call with
  | none =>
    exact h
  | some call =>
    have hans : ∀ src data, env.received = .packet src data → src.ipAddr = settings.ipAddr →
        ReadAnswer content data := by
      intro src data hr hip
      obtain ⟨dest, hdest, hd⟩ := hin src data hr
      exact h.session.server ⟨src, dest, data⟩ hd hip (h.session.socket dest hdest)
    have hturn : ReadTurn own settings content filename mode s.moved call
        (tftpClientIterate env s.client call) := by
      cases call with
      | openFile name m =>
        obtain ⟨rfl, rfl, hmode⟩ := h.call _ hcall
        exact read_turn_open hsize hmode h.client (fun _ => h.opening _ _ hcall) hsock hans
      | readFile size received => exact read_turn_file hsize h.client hans
      | writeFile data n => exact (h.call _ hcall).elim
      | flushFile => exact (h.call _ hcall).elim
    show ReadInv own settings content filename mode
      (s.turned call (tftpClientIterate env s.client call))
    generalize tftpClientIterate env s.client call = t at hturn ⊢
    have hsession := h.session.turned hown call (t := t) (fun _ h => h) (fun _ h => h)
      (fun _ h => h) hturn.sent hturn.context.socket
    have hmoved : ∀ call', (call', TftpError.END_OF_STREAM) ∈ s.returned →
        s.moved ++ t.moved = content := by
      intro call' hmem
      have hall := h.stream call' hmem
      have hpre := hturn.context.state.prefix_of
      rw [hall] at hpre ⊢
      exact (List.prefix_append _ _).eq_of_length_le hpre.length_le ▸ rfl
    unfold TftpWorld.turned at hsession ⊢
    cases hnext : t.next with
    | again next =>
      rw [hnext] at hsession
      simp only at hsession ⊢
      obtain ⟨hreads, hsame⟩ := hturn.again next hnext
      refine ⟨hsession, hturn.context, fun c hc => ?_, nofun, fun name m hc => ?_, hmoved⟩
      · cases hc
        exact hreads
      · cases hc
        have hc := hsame name m rfl
        show s.moved ++ t.moved = []
        rw [h.opening name m (by rw [hcall, hc]), hturn.opening name m hc]
        rfl
    | done error =>
      rw [hnext] at hsession
      simp only at hsession ⊢
      refine ⟨hsession, hturn.context, nofun, fun _ hr => ?_, nofun, fun call' hmem => ?_⟩
      · simp at hr
      · rcases List.mem_append.mp hmem with hmem | hmem
        · exact hmoved call' hmem
        · cases List.mem_singleton.mp hmem
          exact hturn.stream hnext

theorem readInv_step (hsize : content.length < TFTP_MAX_FILE_SIZE)
    (hname : (0 : UInt8) ∉ filename) (hown : own.ipAddr ≠ settings.ipAddr)
    (hfile : (settings.openFileCallback filename (modeString mode) false).getD [] = content)
    {e : TftpEvent} (h : ReadInv own settings content filename mode s)
    (hok : s.Admitted own (Reads filename mode) e) :
    ReadInv own settings content filename mode (s.step e) := by
  have hkeep : ∀ s' : TftpWorld, Session own settings (Reading content) (ReadAnswer content)
      (ReadRequest filename (modeString mode)) s' → s'.client = s.client → s'.call = s.call →
      s'.moved = s.moved → s'.returned = s.returned →
      ReadInv own settings content filename mode s' := by
    intro s' hs hclient hcall hmoved hreturned
    refine ⟨hs, by rw [hclient, hmoved]; exact h.client, by rw [hcall]; exact h.call,
      by rw [hcall, hreturned, hmoved]; exact h.start, by rw [hcall, hmoved]; exact h.opening,
      by rw [hreturned, hmoved]; exact h.stream⟩
  cases e with
  | call call =>
    obtain ⟨hnone, hreads, honce⟩ := hok
    refine ⟨⟨h.session.same, h.session.connection, h.session.server, h.session.client,
      h.session.socket⟩, h.client, fun c hc => ?_, nofun, fun name m hc => ?_, h.stream⟩
    · cases hc
      exact hreads
    · cases hc
      exact h.start hnone (honce name m rfl)
  | turn env => exact readInv_turn hsize hown h hok
  | close =>
    refine ⟨⟨h.session.same, h.session.connection, h.session.server, h.session.client, nofun⟩,
      ⟨h.client.state.prefix_of, h.client.buffer, h.client.packet, nofun, h.client.server⟩,
      h.call, h.start, h.opening, h.stream⟩
  | accept env d =>
    refine hkeep _ (h.session.accept hown hok (fun _ h => h) (fun _ h => h)
      (fun c name m => served_read_request hsize hname hfile c) fun c name m hR hop hparse => ?_)
      rfl rfl rfl rfl
    obtain ⟨-, hd⟩ := parsed_request hR hop (by decide) hparse
    rw [hd, request_opcode] at hop
    exact absurd hop (by decide)
  | receive env i d =>
    exact hkeep _ (h.session.receive hown hok (fun _ h => h) (fun _ h => h)
      fun hc _ => served_read hsize hc (move_packet env _ d.data)) rfl rfl rfl rfl
  | tick time =>
    exact hkeep _ (h.session.tick hown (fun _ h => h) (fun _ h => h)
      fun c _ hc => served_read hsize hc (move_tick time c [])) rfl rfl rfl rfl
  | other d => exact hkeep _ (h.session.other hok) rfl rfl rfl rfl

end ReadRuns

end Cyclone
