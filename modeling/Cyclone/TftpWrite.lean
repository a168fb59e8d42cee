import Cyclone.TftpRuns

/-!
# Cyclone.TftpWrite

A client writes a file.

* `Writing`, `WriteState`: where a connection of the server and the client are in the file.
* `WriteInv`: the invariant of a transfer, kept by every step.
* `tftp_write`: a flush that succeeds leaves the server with what the application wrote.
-/

namespace Cyclone

open Serial Chunks Run

/-! ## What the parties send -/

/-- What a client that writes sends. `written` is what the application has written; as long as it
grows, only full blocks are sent. -/
def WriteRequest (filename mode written : List UInt8) (grows : Prop) (data : List UInt8) : Prop :=
  data = [] ∨
    filename.length + mode.length ≤ TFTP_CLIENT_BLOCK_SIZE ∧
      data = tftpRequest TFTP_OPCODE_WRQ filename mode ∨
    ∃ n, TFTP_SERVER_BLOCK_SIZE * n ≤ written.length ∧ data = dataPacket written n ∧
      (grows → TFTP_SERVER_BLOCK_SIZE * (n + 1) ≤ written.length)

/-- What the server sends to it: only blocks that are in the file are acknowledged, and the last
one when the file was closed. -/
def WriteAnswer (written : List UInt8) (stored grows : Prop) (data : List UInt8) : Prop :=
  ErrorPacket data ∨ ∃ k, k ≤ 65535 ∧ data = tftpHeader TFTP_OPCODE_ACK (BitVec.ofNat 16 k) ∧
    (TFTP_SERVER_BLOCK_SIZE * k ≤ written.length ∨ ¬grows ∧ stored)

/-- A connection that stores the file. -/
def Writing (filename mode written : List UInt8) (stored grows : Prop)
    (c : TftpClientConnection) : Prop :=
  c.state = .CLOSED ∨ WriteAnswer written stored grows c.packet ∧
    (c.state = .WRITE_COMPLETE ∨ c.state = .WRITING ∧
      ∃ k, c.block = BitVec.ofNat 16 (k + 1) ∧ TFTP_SERVER_BLOCK_SIZE * k ≤ written.length ∧
        ∀ file, c.file = some file → file.filename = filename ∧ file.mode = mode ∧
          file.content = written.take (TFTP_SERVER_BLOCK_SIZE * k))

/-- The server closed the file with this content. -/
def HasFile (closed : List TftpFile) (filename mode content : List UInt8) : Prop :=
  ∃ file ∈ closed, file.filename = filename ∧ file.mode = mode ∧ file.content = content

section Mono

variable {filename mode written data : List UInt8} {stored stored' grows grows' : Prop}

theorem WriteRequest.mono (h : WriteRequest filename mode written grows data) (more : List UInt8)
    (hgrows : grows' → grows) (hmore : more ≠ [] → grows) :
    WriteRequest filename mode (written ++ more) grows' data := by
  rcases h with h | h | ⟨n, hn, rfl, hfull⟩
  · exact .inl h
  · exact .inr (.inl h)
  · refine .inr (.inr ⟨n, ?_, ?_, fun hg => ?_⟩)
    · rw [List.length_append]
      omega
    · by_cases hm : more = []
      · rw [hm, List.append_nil]
      · rw [dataPacket, dataPacket, chunk_append (hfull (hmore hm))]
    · have := hfull (hgrows hg)
      rw [List.length_append]
      omega

theorem WriteAnswer.mono (h : WriteAnswer written stored grows data) (more : List UInt8)
    (hgrows : grows' → grows) (hstored : ¬grows → stored → stored') :
    WriteAnswer (written ++ more) stored' grows' data := by
  refine h.imp_right fun ⟨k, hk, hdata, h⟩ => ⟨k, hk, hdata, ?_⟩
  rcases h with h | ⟨hg, hs⟩
  · rw [List.length_append]
    exact .inl (by omega)
  · exact .inr ⟨fun h => hg (hgrows h), hstored hg hs⟩

theorem Writing.mono {c : TftpClientConnection} (h : Writing filename mode written stored grows c)
    (more : List UInt8) (hgrows : grows' → grows) (hstored : ¬grows → stored → stored') :
    Writing filename mode (written ++ more) stored' grows' c := by
  refine h.imp_right fun ⟨ha, hs⟩ => ⟨ha.mono more hgrows hstored, hs.imp_right ?_⟩
  rintro ⟨hs, k, hblock, hk, hfile⟩
  refine ⟨hs, k, hblock, ?_, fun file hf => ?_⟩
  · rw [List.length_append]
    omega
  · obtain ⟨hname, hmode, hcontent⟩ := hfile file hf
    exact ⟨hname, hmode, by rw [hcontent, List.take_append_of_le_length hk]⟩

end Mono

/-! ## The server -/

section Server

variable {filename mode written : List UInt8} {grows : Prop} {closed : List TftpFile}
  {c : TftpClientConnection}

theorem HasFile.append {content : List UInt8} (h : HasFile closed filename mode content)
    (more : List TftpFile) : HasFile (closed ++ more) filename mode content := by
  obtain ⟨file, hmem, h⟩ := h
  exact ⟨file, List.mem_append_left _ hmem, h⟩

/-- A block goes to the end of what is in the file. -/
theorem writeFile_chunk {file : TftpFile} {k : Nat}
    (hk : TFTP_SERVER_BLOCK_SIZE * k ≤ written.length)
    (hcontent : file.content = written.take (TFTP_SERVER_BLOCK_SIZE * k)) :
    writeFileCallback file (TFTP_SERVER_BLOCK_SIZE * k)
        (chunk TFTP_SERVER_BLOCK_SIZE written k) =
      { file with content := written.take (TFTP_SERVER_BLOCK_SIZE * (k + 1)) } := by
  have hlen : TFTP_SERVER_BLOCK_SIZE * k = file.content.length := by
    rw [hcontent, List.length_take, Nat.min_eq_left hk]
  unfold writeFileCallback
  simp only
  rw [← hlen, Nat.sub_self, List.replicate_zero, List.append_nil, hlen, store_end, hcontent,
    take_chunk]

theorem served_write (hsize : written.length < TFTP_MAX_FILE_SIZE) {data : List UInt8}
    {r : TftpStep}
    (hc : Writing filename mode written (HasFile closed filename mode written) grows c)
    (hR : WriteRequest filename mode written grows data)
    (h : ConnectionMove c (data.take TFTP_SERVER_MAX_PACKET_SIZE) r) :
    Served (Writing filename mode written
        (HasFile (closed ++ r.closed) filename mode written) grows)
      (WriteAnswer written (HasFile (closed ++ r.closed) filename mode written) grows) c r := by
  have hb : TFTP_SERVER_BLOCK_SIZE = 512 := rfl
  have hmax : TFTP_MAX_FILE_SIZE = 65535 * 512 := rfl
  have hreading : c.state ≠ .READING := by
    rcases hc with hc | ⟨-, hs | ⟨hs, -⟩⟩
    · rw [hc]
      decide
    · rw [hs]
      decide
    · rw [hs]
      decide
  -- the block that is stored is the next one of what was written
  have hnext : c.state = .WRITING → be16At (data.take TFTP_SERVER_MAX_PACKET_SIZE) 0 =
      TFTP_OPCODE_DATA → be16At (data.take TFTP_SERVER_MAX_PACKET_SIZE) 2 = c.block →
      ∃ k, c.block = BitVec.ofNat 16 (k + 1) ∧ k < 65535 ∧
        TFTP_SERVER_BLOCK_SIZE * k ≤ written.length ∧
        data.take TFTP_SERVER_MAX_PACKET_SIZE = dataPacket written k ∧
        (grows → TFTP_SERVER_BLOCK_SIZE * (k + 1) ≤ written.length) ∧
        ∀ file, c.file = some file → file.filename = filename ∧ file.mode = mode ∧
          file.content = written.take (TFTP_SERVER_BLOCK_SIZE * k) := by
    intro hs hop hfield
    obtain ⟨-, hstate⟩ := hc.resolve_left (by rw [hs]; decide)
    obtain ⟨-, k, hblock, hk, hfile⟩ := hstate.resolve_left (by rw [hs]; decide)
    rcases hR with rfl | ⟨-, rfl⟩ | ⟨n, hn, rfl, hfull⟩
    · exact absurd hop (by decide)
    · rw [be16At_take (by decide), request_opcode] at hop
      exact absurd hop (by decide)
    · rw [take_dataPacket, dataPacket, header_field, hblock] at hfield
      have hcount : k < 65535 ∧ n < 65535 := by
        rw [hb] at hk hn
        omega
      obtain rfl : n = k := by
        have := block_inj (by omega) (by omega) hfield
        omega
      exact ⟨n, hblock, hcount.1, hn, take_dataPacket, hfull, hfile⟩
  cases h with
  | stay =>
    rw [List.append_nil]
    exact served_silent (.inr rfl) hc
  | resend time count hcl ho =>
    rw [List.append_nil]
    obtain ⟨ha, hs⟩ := hc.resolve_left hcl
    exact served_transmit rfl rfl (.inr ⟨ha, hs⟩) ha
  | close => exact served_silent (.inl rfl) (.inl rfl)
  | abort time text => exact served_abort time text (fun _ hc => .inl hc) fun _ he => .inl he
  | next env hs => exact absurd hs hreading
  | stored time file hs hfile hop hfield hlen =>
    rw [List.append_nil]
    obtain ⟨k, hblock, hcount, hk, hdata, -, hcontent⟩ := hnext hs hop hfield
    obtain ⟨hname, hmode, hcontent⟩ := hcontent file hfile
    have hfull : TFTP_SERVER_BLOCK_SIZE * (k + 1) ≤ written.length := by
      rw [hdata, length_dataPacket, length_chunk, hb] at hlen
      rw [hb] at hk ⊢
      simp only [sizeofTftpDataPacket] at hlen
      omega
    have hack : WriteAnswer written (HasFile closed filename mode written) grows
        (tftpHeader TFTP_OPCODE_ACK c.block) :=
      .inr ⟨k + 1, by omega, by rw [hblock], .inl hfull⟩
    refine served_transmit rfl rfl (.inr ⟨hack, .inr ⟨hs, k + 1, ?_, hfull, ?_⟩⟩) hack
    · show c.block + 1 = _
      rw [hblock]
      exact block_succ _
    · intro file' hf
      cases hf
      rw [hdata, drop_dataPacket, hblock, offset_block hcount, writeFile_chunk hk hcontent]
      exact ⟨hname, hmode, rfl⟩
  | storedLast time file hs hfile hop hfield hlen =>
    obtain ⟨k, hblock, hcount, hk, hdata, hgrows, hcontent⟩ := hnext hs hop hfield
    obtain ⟨hname, hmode, hcontent⟩ := hcontent file hfile
    have hshort : written.length < TFTP_SERVER_BLOCK_SIZE * (k + 1) := by
      refine chunk_short ?_
      rw [hdata, length_dataPacket] at hlen
      simp only [sizeofTftpDataPacket] at hlen
      omega
    rw [hdata, drop_dataPacket, hblock, offset_block hcount, writeFile_chunk hk hcontent,
      List.take_of_length_le hshort.le]
    have hack : WriteAnswer written (HasFile (closed ++ [{ file with content := written }])
        filename mode written) grows (tftpHeader TFTP_OPCODE_ACK (BitVec.ofNat 16 (k + 1))) := by
      refine .inr ⟨k + 1, by omega, rfl, .inr ⟨fun hg => ?_, ?_⟩⟩
      · have := hgrows hg
        omega
      · exact ⟨_, List.mem_append_right _ List.mem_cons_self, hname, hmode, rfl⟩
    exact served_transmit rfl rfl (.inr ⟨hack, .inl rfl⟩) hack

end Server

/-! ## The client -/

/-- The states in which more can be written. -/
def Growing (c : TftpClientContext) : Prop := c.state = .WRQ ∨ c.state = .DATA ∨ c.state = .ACK

/-- Where the client is in the file, after the application has written `written`. -/
def WriteState (written : List UInt8) (stored : Prop) (c : TftpClientContext) : Prop :=
  match c.state with
  | .WRQ => c.block = 0 ∧ written = []
  | .ACK => ∃ b, c.block = BitVec.ofNat 16 b ∧ c.outDataLen < TFTP_SERVER_BLOCK_SIZE ∧
      written.length = TFTP_SERVER_BLOCK_SIZE * b + c.outDataLen ∧
      (c.outPacket.drop sizeofTftpDataPacket).take c.outDataLen =
        written.drop (TFTP_SERVER_BLOCK_SIZE * b)
  | .DATA => ∃ b, c.block = BitVec.ofNat 16 (b + 1) ∧
      written.length = TFTP_SERVER_BLOCK_SIZE * (b + 1)
  | .LAST_DATA => ∃ b, c.block = BitVec.ofNat 16 (b + 1) ∧
      TFTP_SERVER_BLOCK_SIZE * b ≤ written.length ∧
      written.length < TFTP_SERVER_BLOCK_SIZE * (b + 1)
  | .COMPLETE => stored
  | .CLOSED | .ERROR => True
  | .RRQ => False

structure WriteClient (own : Endpoint) (settings : TftpServerSettings)
    (filename mode written : List UInt8) (stored : Prop) (c : TftpClientContext) : Prop where
  state : WriteState written stored c
  buffer : c.outPacket.length = TFTP_CLIENT_MAX_PACKET_SIZE
  packet : c.state ≠ .ACK → c.state ≠ .CLOSED →
    WriteRequest filename mode written (Growing c) (c.outPacket.take c.outPacketLen)
  socket : ∀ k, c.socket = some k → k = own
  server : c.serverIpAddr = settings.ipAddr

section WriteClient

variable {own : Endpoint} {settings : TftpServerSettings}
  {filename mode written : List UInt8} {stored : Prop} {c : TftpClientContext}

/-- While a client waits, its packet is one that may be sent, whatever it moves to. -/
structure WriteWaiting (own : Endpoint) (settings : TftpServerSettings)
    (filename mode written : List UInt8) (stored grows : Prop) (c : TftpClientContext) : Prop where
  client : WriteClient own settings filename mode written stored c
  growing : Growing c → grows
  opened : c.state ≠ .CLOSED
  packet : WriteRequest filename mode written grows (c.outPacket.take c.outPacketLen)

theorem WriteRequest.weaken {grows grows' : Prop} {data : List UInt8}
    (h : WriteRequest filename mode written grows data) (hgrows : grows' → grows) :
    WriteRequest filename mode written grows' data := by
  have := h.mono [] hgrows fun hne => absurd rfl hne
  rwa [List.append_nil] at this

theorem writeState_move {grows : Prop} (hsize : written.length < TFTP_MAX_FILE_SIZE)
    (h : WriteState written stored c)
    (hs : c.state = .WRQ ∨ c.state = .DATA ∨ c.state = .LAST_DATA)
    {data : List UInt8} (hin : c.inPacket = data.take TFTP_CLIENT_MAX_PACKET_SIZE)
    (hdata : WriteAnswer written stored grows data) {c' : TftpClientContext}
    (hm : ClientMove c c') : WriteState written stored c' ∧ (Growing c' → Growing c) := by
  have hb : TFTP_SERVER_BLOCK_SIZE = 512 := rfl
  have hmax : TFTP_MAX_FILE_SIZE = 65535 * 512 := rfl
  cases hm with
  | stay => exact ⟨h, fun hg => hg⟩
  | data tid hr =>
    rcases hs with hs | hs | hs <;> rcases hr with hr | hr <;> rw [hs] at hr <;> cases hr
  | ack tid hw =>
    refine ⟨?_, fun _ => ?_⟩
    · rcases hw with hw | hw
      · rw [WriteState, hw] at h
        exact ⟨0, h.1, (by decide : 0 < TFTP_SERVER_BLOCK_SIZE), by rw [h.2]; rfl, by rw [h.2]; rfl⟩
      · rw [WriteState, hw] at h
        obtain ⟨b, hblock, hlen⟩ := h
        exact ⟨b + 1, hblock, (by decide : 0 < TFTP_SERVER_BLOCK_SIZE), hlen,
          by rw [← hlen, List.drop_length]; rfl⟩
    · exact hw.imp_right .inl
  | last hl hop hfield =>
    rw [WriteState, hl] at h
    obtain ⟨b, hblock, hlow, hhigh⟩ := h
    refine ⟨?_, nofun⟩
    have hop : be16At data 0 = TFTP_OPCODE_ACK := by
      rw [hin, be16At_take (by decide)] at hop
      exact hop
    have hfield : be16At data 2 = BitVec.ofNat 16 (b + 1) := by
      rw [hin, be16At_take (by decide), hblock] at hfield
      exact hfield
    rcases hdata with herr | ⟨k, hk, rfl, hcase⟩
    · rw [herr] at hop
      exact absurd hop (by decide)
    · rw [← List.append_nil (tftpHeader _ _), header_field] at hfield
      obtain rfl : k = b + 1 := by
        refine block_inj (by omega) ?_ hfield
        rw [hb] at hlow
        omega
      rcases hcase with hle | ⟨-, hs⟩
      · omega
      · exact hs
  | error => exact ⟨trivial, nofun⟩

theorem write_wait {env : TftpClientEnv} (hsize : written.length < TFTP_MAX_FILE_SIZE)
    (call : TftpCall) (h : WriteClient own settings filename mode written stored c)
    (hs : c.state = .WRQ ∨ c.state = .DATA ∨ c.state = .LAST_DATA)
    (hin : ∀ src data, env.received = .packet src data → src.ipAddr = settings.ipAddr →
      WriteAnswer written stored (Growing c) data) :
    WriteWaiting own settings filename mode written stored (Growing c)
        (waitEvents env c call).context ∧
      Sends own (WriteRequest filename mode written (Growing c)) (waitEvents env c call).sent ∧
      (waitEvents env c call).moved = [] ∧
      ((waitEvents env c call).next = .again call ∨
        (waitEvents env c call).next = .done .TIMEOUT ∨
        (waitEvents env c call).next = .done .FAILURE) := by
  have hpacket := h.packet (by rcases hs with hs | hs | hs <;> rw [hs] <;> decide)
    (by rcases hs with hs | hs | hs <;> rw [hs] <;> decide)
  have hopened : c.state ≠ .CLOSED := by
    rcases hs with hs | hs | hs
    · rw [hs]
      decide
    · rw [hs]
      decide
    · rw [hs]
      decide
  refine wait_turn call ⟨h, fun hg => hg, hopened, hpacket⟩ (fun c h => h.client.socket)
    (fun c h => h.packet) (fun c time count h => ⟨⟨h.client.state, h.client.buffer,
      h.client.packet, h.client.socket, h.client.server⟩, h.growing, h.opened, h.packet⟩)
    fun src data hr => ?_
  have hheard : WriteState written stored
      { c with inPacket := data.take TFTP_CLIENT_MAX_PACKET_SIZE } := by
    have hstate := h.state
    rcases hs with hs | hs | hs
    · rw [WriteState, hs] at hstate
      rw [WriteState, hs]
      exact hstate
    · rw [WriteState, hs] at hstate
      rw [WriteState, hs]
      exact hstate
    · rw [WriteState, hs] at hstate
      rw [WriteState, hs]
      exact hstate
  refine ⟨⟨⟨hheard, h.buffer, h.packet, h.socket, h.server⟩, fun hg => hg, hopened, hpacket⟩,
    fun hip c' hm => ?_⟩
  obtain ⟨hnew, hgrows⟩ := writeState_move hsize hheard hs rfl
    (hin src data hr (hip.trans h.server)) hm
  have hkeep : c'.outPacket = c.outPacket ∧ c'.outPacketLen = c.outPacketLen ∧
      c'.socket = c.socket ∧ c'.serverIpAddr = c.serverIpAddr ∧ c'.state ≠ .CLOSED := by
    cases hm with
    | stay => exact ⟨rfl, rfl, rfl, rfl, hopened⟩
    | data => exact ⟨rfl, rfl, rfl, rfl, nofun⟩
    | ack => exact ⟨rfl, rfl, rfl, rfl, nofun⟩
    | last => exact ⟨rfl, rfl, rfl, rfl, nofun⟩
    | error => exact ⟨rfl, rfl, rfl, rfl, nofun⟩
  obtain ⟨hout, hlen, hsock, hserver, hopened'⟩ := hkeep
  refine ⟨⟨hnew, by rw [hout]; exact h.buffer, fun _ _ => ?_, by rw [hsock]; exact h.socket,
    by rw [hserver]; exact h.server⟩, hgrows, hopened', by rw [hout, hlen]; exact hpacket⟩
  rw [hout, hlen]
  exact hpacket.weaken hgrows

/-- The calls of an application that writes the file. -/
def Writes (filename : List UInt8) (mode : Nat) : TftpCall → Prop
  | .openFile name m => name = filename ∧ m = mode ∧ mode &&& TFTP_FILE_MODE_WRITE ≠ 0
  | .writeFile _ _ => True
  | .flushFile => True
  | .readFile _ _ => False

/-- A turn of a call that writes. -/
structure WriteTurn (own : Endpoint) (settings : TftpServerSettings) (filename : List UInt8)
    (mode : Nat) (written : List UInt8) (stored grows : Prop) (call : TftpCall) (t : TftpTurn) :
    Prop where
  context : WriteClient own settings filename (modeString mode) (written ++ t.moved) stored
    t.context
  sent : Sends own (WriteRequest filename (modeString mode) (written ++ t.moved)
    (Growing t.context)) t.sent
  growing : Growing t.context → grows
  moved : t.moved ≠ [] → grows ∧ Growing t.context
  again : ∀ next, t.next = .again next → Writes filename mode next ∧
    ∀ name m, next = .openFile name m → call = .openFile name m ∧ t.context.state ≠ .CLOSED
  flushed : call = .flushFile → t.next = .done .NO_ERROR → t.context.state = .COMPLETE

/-- A turn that only returns, without having flushed. -/
theorem write_turn_done {mode : Nat} {call : TftpCall} {c' : TftpClientContext} {grows : Prop}
    {error : TftpError}
    (h : WriteClient own settings filename (modeString mode) written stored c')
    (hgrows : Growing c' → grows)
    (hflushed : call = .flushFile → error = .NO_ERROR → c'.state = .COMPLETE) :
    WriteTurn own settings filename mode written stored grows call
      { context := c', next := .done error } := by
  refine ⟨by rw [List.append_nil]; exact h, nofun, hgrows, fun hne => absurd rfl hne, nofun,
    fun hc hn => ?_⟩
  cases hn
  exact hflushed hc rfl

theorem write_turn_wait {mode : Nat} {env : TftpClientEnv}
    (hsize : written.length < TFTP_MAX_FILE_SIZE) {call : TftpCall}
    (hcall : Writes filename mode call)
    (h : WriteClient own settings filename (modeString mode) written stored c)
    (hs : c.state = .WRQ ∨ c.state = .DATA ∨ c.state = .LAST_DATA)
    (hin : ∀ src data, env.received = .packet src data → src.ipAddr = settings.ipAddr →
      WriteAnswer written stored (Growing c) data) :
    WriteTurn own settings filename mode written stored (Growing c) call
      (waitEvents env c call) := by
  obtain ⟨hw, hsent, hm, hnext⟩ := write_wait hsize call h hs hin
  refine ⟨by rw [hm, List.append_nil]; exact hw.client, fun d hd => ?_, hw.growing,
    fun hne => absurd hm hne, fun next hn => ?_, fun _ hn => ?_⟩
  · rw [hm, List.append_nil]
    exact ⟨(hsent d hd).1, (hsent d hd).2.weaken hw.growing⟩
  · rcases hnext with he | he | he
    · rw [he] at hn
      cases hn
      exact ⟨hcall, fun _ _ h => ⟨h, hw.opened⟩⟩
    · rw [he] at hn
      cases hn
    · rw [he] at hn
      cases hn
  · rcases hnext with he | he | he
    · rw [he] at hn
      cases hn
    · rw [he] at hn
      cases hn
    · rw [he] at hn
      cases hn

theorem write_turn_open {mode : Nat} {env : TftpClientEnv}
    (hsize : written.length < TFTP_MAX_FILE_SIZE) (hmode : mode &&& TFTP_FILE_MODE_WRITE ≠ 0)
    (h : WriteClient own settings filename (modeString mode) written stored c)
    (hopen : c.state ≠ .CLOSED)
    (hin : ∀ src data, env.received = .packet src data → src.ipAddr = settings.ipAddr →
      WriteAnswer written stored (Growing c) data) :
    WriteTurn own settings filename mode written stored (Growing c) (.openFile filename mode)
      (tftpClientOpenFile env c filename mode) := by
  unfold tftpClientOpenFile
  rw [if_pos hmode]
  unfold openFileWith
  rw [if_neg hopen]
  split
  · rename_i hs
    exact write_turn_wait hsize ⟨rfl, rfl, hmode⟩ h (.inl hs) hin
  · split
    · exact write_turn_done h (fun hg => hg) nofun
    · exact write_turn_done ⟨trivial, h.buffer, fun _ hc => absurd rfl hc, nofun, h.server⟩ nofun
        nofun

/-- The header goes before the data that is in the buffer. -/
theorem take_header {buffer : List UInt8} {opcode : Port} {field : Block} {n : Nat} :
    (store buffer 0 (tftpHeader opcode field)).take (sizeofTftpDataPacket + n) =
      tftpHeader opcode field ++ (buffer.drop sizeofTftpDataPacket).take n := by
  have hdrop := @drop_store_zero _ buffer (tftpHeader opcode field)
  have htake := @take_packet buffer (tftpHeader opcode field)
  rw [length_tftpHeader] at hdrop htake
  rw [List.take_add]
  exact congrArg₂ (fun a b => a ++ List.take n b) htake hdrop

/-- A data packet from what is in the buffer. -/
theorem sends_data {b : Nat} {buffer : List UInt8}
    (hbuffer : buffer.length = TFTP_CLIENT_MAX_PACKET_SIZE) {n : Nat}
    (hdata : (buffer.drop sizeofTftpDataPacket).take n = chunk TFTP_SERVER_BLOCK_SIZE written b) :
    (store buffer 0 (tftpHeader TFTP_OPCODE_DATA (BitVec.ofNat 16 (b + 1)))).length =
        TFTP_CLIENT_MAX_PACKET_SIZE ∧
      (store buffer 0 (tftpHeader TFTP_OPCODE_DATA (BitVec.ofNat 16 (b + 1)))).take
        (sizeofTftpDataPacket + n) = dataPacket written b := by
  constructor
  · rw [length_store (by rw [hbuffer, length_tftpHeader]; decide), hbuffer]
  · rw [take_header, hdata, dataPacket]

/-- A turn fills the block, and sends it when it is full. -/
theorem write_turn_file {mode : Nat} {env : TftpClientEnv} {data : List UInt8} {n : Nat}
    (hsize : written.length < TFTP_MAX_FILE_SIZE)
    (h : WriteClient own settings filename (modeString mode) written stored c)
    (hin : ∀ src data, env.received = .packet src data → src.ipAddr = settings.ipAddr →
      WriteAnswer written stored (Growing c) data) :
    WriteTurn own settings filename mode written stored (Growing c) (.writeFile data n)
      (tftpClientWriteFile env c data n) := by
  have hb : TFTP_SERVER_BLOCK_SIZE = 512 := rfl
  have hclient : TFTP_CLIENT_BLOCK_SIZE = TFTP_SERVER_BLOCK_SIZE := rfl
  have hcap : TFTP_CLIENT_MAX_PACKET_SIZE = 516 := rfl
  unfold tftpClientWriteFile
  split
  · exact write_turn_done h (fun hg => hg) nofun
  · split
    · rename_i hs
      exact write_turn_wait hsize trivial h (.inr (.inl hs)) hin
    · split
      · rename_i hs
        have hstate := h.state
        rw [WriteState, hs] at hstate
        obtain ⟨b, hblock, hroom, hlen, hfilled⟩ := hstate
        have hgrows : Growing c := .inr (.inr hs)
        generalize hcount : min (TFTP_CLIENT_BLOCK_SIZE - c.outDataLen) data.length = count
        have hroom' : count ≤ TFTP_SERVER_BLOCK_SIZE - c.outDataLen :=
          hcount ▸ Nat.min_le_left _ _
        have htaken : (data.take count).length = count := by
          rw [List.length_take]
          exact Nat.min_eq_left (hcount ▸ Nat.min_le_right _ _)
        have hsum : sizeofTftpDataPacket + c.outDataLen + count ≤ c.outPacket.length := by
          rw [h.buffer, hcap]
          rw [hb] at hroom hroom'
          simp only [sizeofTftpDataPacket]
          omega
        have hfits : sizeofTftpDataPacket + c.outDataLen ≤ c.outPacket.length := by omega
        have hbuffer : (store c.outPacket (sizeofTftpDataPacket + c.outDataLen)
            (data.take count)).length = TFTP_CLIENT_MAX_PACKET_SIZE := by
          rw [length_store (by rw [htaken]; exact hsum), h.buffer]
        have hlen' : (written ++ data.take count).length =
            TFTP_SERVER_BLOCK_SIZE * b + (c.outDataLen + count) := by
          rw [List.length_append, htaken, hlen, Nat.add_assoc]
        -- the buffer holds what was written behind the blocks that were sent
        have hbehind : ((store c.outPacket (sizeofTftpDataPacket + c.outDataLen)
            (data.take count)).drop sizeofTftpDataPacket).take (c.outDataLen + count) =
              (written ++ data.take count).drop (TFTP_SERVER_BLOCK_SIZE * b) := by
          have htake := take_store (data.take count) hfits
          rw [htaken, Nat.add_assoc] at htake
          have hdrop := congrArg (List.drop sizeofTftpDataPacket) htake
          rw [List.drop_take, Nat.add_sub_cancel_left, List.drop_append_of_le_length
            (by rw [List.length_take]; omega), List.drop_take, Nat.add_sub_cancel_left,
            hfilled] at hdrop
          rw [hdrop, List.drop_append_of_le_length (by omega)]
        have hagain : ∀ (state : TftpClientState) next,
            TftpProgress.again (.writeFile (data.drop count) (n + count)) = .again next →
            Writes filename mode next ∧ ∀ name m, next = .openFile name m →
              TftpCall.writeFile data n = .openFile name m ∧ state ≠ .CLOSED := by
          intro state next hn
          cases hn
          exact ⟨trivial, nofun⟩
        simp only
        split
        · rename_i hfull
          have hfull : c.outDataLen + count = TFTP_SERVER_BLOCK_SIZE := by omega
          have hchunk : chunk TFTP_SERVER_BLOCK_SIZE (written ++ data.take count) b =
              (written ++ data.take count).drop (TFTP_SERVER_BLOCK_SIZE * b) := by
            refine chunk_rest ?_
            rw [hlen', hfull, Nat.mul_add_one]
          have hnumber : c.block + 1 = BitVec.ofNat 16 (b + 1) := by
            rw [hblock]
            exact block_succ _
          have hall : (written ++ data.take count).length = TFTP_SERVER_BLOCK_SIZE * (b + 1) := by
            rw [hlen', hfull, Nat.mul_add_one]
          obtain ⟨hsent, hpacket⟩ := sends_data hbuffer (hbehind.trans hchunk.symm)
          have hreq : ∀ grows, WriteRequest filename (modeString mode) (written ++ data.take count)
              grows (dataPacket (written ++ data.take count) b) := fun _ =>
            .inr (.inr ⟨b, by rw [hlen']; omega, rfl, fun _ => hall.ge⟩)
          simp only [tftpClientSendDataPacket, hnumber]
          refine ⟨⟨⟨b, rfl, hall⟩, hsent, fun _ _ => ?_, h.socket, h.server⟩,
            sends_transmit (by exact h.socket) ?_ _, fun _ => hgrows,
            fun _ => ⟨hgrows, .inr (.inl rfl)⟩, hagain _, nofun⟩
          · rw [hpacket]
            exact hreq _
          · rw [hpacket]
            exact hreq _
        · rename_i hfull
          refine ⟨⟨?_, hbuffer, fun hne => absurd hs hne, h.socket, h.server⟩, nofun,
            fun _ => hgrows, fun _ => ⟨hgrows, .inr (.inr hs)⟩, hagain _, nofun⟩
          rw [WriteState]
          simp only [hs]
          exact ⟨b, hblock, by omega, hlen', hbehind⟩
      · exact write_turn_done h (fun hg => hg) nofun

/-- A flush sends the last block, which is short or empty. -/
theorem write_turn_flush {mode : Nat} {env : TftpClientEnv}
    (hsize : written.length < TFTP_MAX_FILE_SIZE)
    (h : WriteClient own settings filename (modeString mode) written stored c)
    (hin : ∀ src data, env.received = .packet src data → src.ipAddr = settings.ipAddr →
      WriteAnswer written stored (Growing c) data) :
    WriteTurn own settings filename mode written stored (Growing c) .flushFile
      (tftpClientFlushFile env c) := by
  unfold tftpClientFlushFile
  split
  · rename_i hs
    exact write_turn_wait hsize trivial h (.inr hs) hin
  · split
    · rename_i hs
      have hstate := h.state
      rw [WriteState, hs] at hstate
      obtain ⟨b, hblock, hroom, hlen, hfilled⟩ := hstate
      have hchunk : chunk TFTP_SERVER_BLOCK_SIZE written b =
          written.drop (TFTP_SERVER_BLOCK_SIZE * b) := by
        refine chunk_rest ?_
        rw [hlen, Nat.mul_add_one]
        omega
      have hnumber : c.block + 1 = BitVec.ofNat 16 (b + 1) := by
        rw [hblock]
        exact block_succ _
      obtain ⟨hsent, hpacket⟩ := sends_data h.buffer (hfilled.trans hchunk.symm)
      have hreq : WriteRequest filename (modeString mode) written False
          (dataPacket written b) := .inr (.inr ⟨b, by rw [hlen]; omega, rfl, False.elim⟩)
      simp only [tftpClientSendDataPacket, hnumber]
      refine ⟨⟨⟨b, rfl, ?_⟩, hsent, fun _ _ => ?_, h.socket, h.server⟩,
        sends_transmit (by exact h.socket) ?_ _, nofun, fun hne => absurd rfl hne,
        fun next hn => ?_, nofun⟩
      · rw [List.append_nil, Nat.mul_add_one, hlen]
        omega
      · rw [hpacket, List.append_nil]
        exact hreq.weaken nofun
      · rw [hpacket, List.append_nil]
        exact hreq.weaken nofun
      · cases hn
        exact ⟨trivial, nofun⟩
    · split
      · rename_i hs
        exact write_turn_done h (fun hg => hg) fun _ _ => hs
      · exact write_turn_done h (fun hg => hg) nofun

end WriteClient

/-! ## Runs of a client that writes -/

/-- Before the application has opened the file. -/
structure Unopened (own : Endpoint) (settings : TftpServerSettings) (filename : List UInt8)
    (mode : Nat) (s : TftpWorld) : Prop where
  session : Session own settings (fun _ => False) (fun _ => False) (fun _ => False) s
  client : ∃ port, s.client = { serverIpAddr := settings.ipAddr, serverPort := port }
  idle : s.returned = [] ∧ s.moved = []
  call : ∀ call, s.call = some call →
    call = .openFile filename mode ∧ mode &&& TFTP_FILE_MODE_WRITE ≠ 0

/-- The file is what was written, as far as each side knows. -/
structure Active (own : Endpoint) (settings : TftpServerSettings) (filename : List UInt8)
    (mode : Nat) (s : TftpWorld) : Prop where
  session : Session own settings
    (Writing filename (modeString mode) s.moved
      (HasFile s.closed filename (modeString mode) s.moved) (Growing s.client))
    (WriteAnswer s.moved (HasFile s.closed filename (modeString mode) s.moved) (Growing s.client))
    (WriteRequest filename (modeString mode) s.moved (Growing s.client)) s
  client : WriteClient own settings filename (modeString mode) s.moved
    (HasFile s.closed filename (modeString mode) s.moved) s.client
  call : ∀ call, s.call = some call → Writes filename mode call
  opening : ∀ name m, s.call = some (.openFile name m) → s.client.state ≠ .CLOSED
  ended : s.call = none → s.returned ≠ []
  flushed : (.flushFile, .NO_ERROR) ∈ s.returned →
    ¬Growing s.client ∧ HasFile s.closed filename (modeString mode) s.moved

def WriteInv (own : Endpoint) (settings : TftpServerSettings) (filename : List UInt8) (mode : Nat)
    (s : TftpWorld) : Prop :=
  Unopened own settings filename mode s ∨ Active own settings filename mode s

section WriteRuns

variable {own : Endpoint} {settings : TftpServerSettings} {filename : List UInt8} {mode : Nat}
  {s : TftpWorld}

theorem HasFile.mono {closed closed' : List TftpFile} {m content : List UInt8}
    (h : HasFile closed filename m content) (hsub : ∀ file ∈ closed, file ∈ closed') :
    HasFile closed' filename m content := by
  obtain ⟨file, hmem, h⟩ := h
  exact ⟨file, hsub file hmem, h⟩

theorem idle_fresh (h : Unheard own s) : Unopened own s.server.settings filename mode s := by
  obtain ⟨hcall, hreturned, hmoved⟩ := h.idle
  exact ⟨h.session _ _ _, h.client, ⟨hreturned, hmoved⟩, by rw [hcall]; nofun⟩

/-- A new client has sent and written nothing. -/
theorem Unopened.active (h : Unopened own settings filename mode s) {call : TftpCall}
    (hwrites : Writes filename mode call) (hopen : ∀ name m, call ≠ .openFile name m) :
    Active own settings filename mode { s with call := some call } := by
  obtain ⟨port, hclient⟩ := h.client
  have hsession := h.session
  refine ⟨Session.mono ⟨hsession.same, hsession.connection, hsession.server, hsession.client,
    hsession.socket⟩ (fun _ => False.elim) (fun _ => False.elim) fun _ => False.elim, ?_,
    fun c hc => ?_, fun name m hc => ?_, nofun, fun hf => ?_⟩
  · show WriteClient own settings filename (modeString mode) s.moved _ s.client
    rw [hclient]
    exact ⟨trivial, List.length_replicate, fun _ hc => absurd rfl hc, nofun, rfl⟩
  · cases hc
    exact hwrites
  · cases hc
    exact absurd rfl (hopen name m)
  · have hf : (TftpCall.flushFile, TftpError.NO_ERROR) ∈ s.returned := hf
    rw [h.idle.1] at hf
    cases hf

/-- The request is the first that anybody hears of the client. -/
theorem idle_turn (h : Unopened own settings filename mode s) (hown : own.ipAddr ≠ settings.ipAddr)
    {env : TftpClientEnv} (hok : s.Admitted own (Writes filename mode) (.turn env)) :
    WriteInv own settings filename mode (s.step (.turn env)) := by
  obtain ⟨hsock, -⟩ := hok
  obtain ⟨port, hclient⟩ := h.client
  obtain ⟨hreturned, hmoved⟩ := h.idle
  unfold TftpWorld.step
  cases hcall : s.call with
  | none => exact .inl h
  | some call =>
    obtain ⟨rfl, hmode⟩ := h.call call hcall
    refine .inr ?_
    show Active own settings filename mode
      (s.turned (.openFile filename mode) (tftpClientOpenFile env s.client filename mode))
    have hlost : ∀ {P : TftpClientConnection → Prop} {Q R : List UInt8 → Prop} {t : TftpTurn},
        Sends own R t.sent → (∀ k, t.context.socket = some k → k = own) →
        Session own settings P Q R (s.turned (.openFile filename mode) t) :=
      fun hsent hk => h.session.turned hown _ (fun _ => False.elim) (fun _ => False.elim)
        (fun _ => False.elim) hsent hk
    rw [tftpClientOpenFile, if_pos hmode, openFileWith, if_pos (by rw [hclient])]
    unfold tftpClientOpenConnection
    simp only
    cases hsocket : env.socket with
    | none =>
      simp only
      refine ⟨hlost nofun nofun, ⟨?_, ?_, ?_, nofun, ?_⟩, nofun, nofun, fun _ => ?_, fun hf => ?_⟩
      · rw [hclient]
        trivial
      · rw [hclient]
        exact List.length_replicate
      · rw [hclient]
        exact fun _ hc => absurd rfl hc
      · rw [hclient]
        rfl
      · exact List.append_ne_nil_of_right_ne_nil _ (List.cons_ne_nil _ _)
      · rcases List.mem_append.mp hf with hf | hf
        · rw [hreturned] at hf
          cases hf
        · cases List.mem_singleton.mp hf
    | some k =>
      have hk : ∀ k', some k = some k' → k' = own := fun k' hk' => by
        cases hk'
        exact hsock k hsocket
      obtain ⟨outPacket, outPacketLen, timestamp, retransmitCount, sent, heq, hbuffer, hpacket,
        hsent⟩ := @request_sent own { tftpClientCloseConnection s.client with socket := some k }
          (WriteRequest filename (modeString mode) [] True) TFTP_OPCODE_WRQ filename
          (modeString mode) env.time
          (by rw [hclient]; exact List.length_replicate) hk
          (by rw [hclient]; exact .inl rfl) fun hlen => .inr (.inl ⟨hlen, rfl⟩)
      simp only [heq]
      have hnone : s.moved ++ ([] : List UInt8) = [] := by rw [hmoved]; rfl
      refine ⟨hlost (fun d hd => ⟨(hsent d hd).1, ?_⟩) hk, ⟨⟨rfl, hnone⟩, hbuffer,
        fun _ _ => ?_, hk, by rw [hclient]; rfl⟩, fun c hc => ?_, fun _ _ _ => nofun, nofun,
        fun hf => ?_⟩
      · show WriteRequest filename (modeString mode) (s.moved ++ []) _ _
        rw [hnone]
        exact (hsent d hd).2.weaken fun _ => trivial
      · show WriteRequest filename (modeString mode) (s.moved ++ []) _ _
        rw [hnone]
        exact hpacket.weaken fun _ => trivial
      · cases hc
        exact ⟨rfl, rfl, hmode⟩
      · have hf : (TftpCall.flushFile, TftpError.NO_ERROR) ∈ s.returned := hf
        rw [hreturned] at hf
        cases hf

theorem idle_step (h : Unopened own settings filename mode s) (hown : own.ipAddr ≠ settings.ipAddr)
    {e : TftpEvent} (hok : s.Admitted own (Writes filename mode) e) :
    WriteInv own settings filename mode (s.step e) := by
  have hkeep : ∀ s' : TftpWorld,
      Session own settings (fun _ => False) (fun _ => False) (fun _ => False) s' →
      s'.client = s.client → s'.call = s.call → s'.moved = s.moved → s'.returned = s.returned →
      WriteInv own settings filename mode s' := by
    intro s' hs hclient hcall hmoved hreturned
    exact .inl ⟨hs, by rw [hclient]; exact h.client, by rw [hreturned, hmoved]; exact h.idle,
      by rw [hcall]; exact h.call⟩
  cases e with
  | call call =>
    obtain ⟨-, hwrites, -⟩ := hok
    by_cases hopen : ∀ name m, call ≠ .openFile name m
    · exact .inr (h.active hwrites hopen)
    · push Not at hopen
      obtain ⟨name, m, rfl⟩ := hopen
      obtain ⟨rfl, rfl, hmode⟩ := hwrites
      refine .inl ⟨⟨h.session.same, h.session.connection, h.session.server, h.session.client,
        h.session.socket⟩, h.client, h.idle, fun c hc => ?_⟩
      cases hc
      exact ⟨rfl, hmode⟩
  | turn env => exact idle_turn h hown hok
  | close =>
    obtain ⟨port, hclient⟩ := h.client
    refine .inl ⟨⟨h.session.same, h.session.connection, h.session.server, h.session.client, nofun⟩,
      ⟨port, ?_⟩, h.idle, h.call⟩
    show tftpClientCloseFile s.client = _
    rw [hclient]
    rfl
  | accept env d =>
    exact hkeep _ (h.session.accept hown hok (fun _ => False.elim) (fun _ => False.elim)
      (fun _ _ _ => False.elim) fun _ _ _ => False.elim) rfl rfl rfl rfl
  | receive env i d =>
    exact hkeep _ (h.session.receive hown hok (fun _ => False.elim) (fun _ => False.elim)
      fun _ => False.elim) rfl rfl rfl rfl
  | tick time =>
    exact hkeep _ (h.session.tick hown (fun _ => False.elim) (fun _ => False.elim)
      fun _ _ => False.elim) rfl rfl rfl rfl
  | other d => exact hkeep _ (h.session.other hok) rfl rfl rfl rfl

theorem active_turn (h : Active own settings filename mode s)
    (hown : own.ipAddr ≠ settings.ipAddr) {env : TftpClientEnv}
    (hsize : s.moved.length < TFTP_MAX_FILE_SIZE)
    (hok : s.Admitted own (Writes filename mode) (.turn env)) :
    Active own settings filename mode (s.step (.turn env)) := by
  obtain ⟨hsock, hin⟩ := hok
  unfold TftpWorld.step
  cases hcall : s.call with
  | none => exact h
  | some call =>
    have hans : ∀ src data, env.received = .packet src data → src.ipAddr = settings.ipAddr →
        WriteAnswer s.moved (HasFile s.closed filename (modeString mode) s.moved)
          (Growing s.client) data := by
      intro src data hr hip
      obtain ⟨dest, hdest, hd⟩ := hin src data hr
      exact h.session.server ⟨src, dest, data⟩ hd hip (h.session.socket dest hdest)
    have hturn : WriteTurn own settings filename mode s.moved
        (HasFile s.closed filename (modeString mode) s.moved) (Growing s.client) call
        (tftpClientIterate env s.client call) := by
      cases call with
      | openFile name m =>
        obtain ⟨rfl, rfl, hmode⟩ := h.call _ hcall
        exact write_turn_open hsize hmode h.client (h.opening _ _ hcall) hans
      | writeFile data n => exact write_turn_file hsize h.client hans
      | flushFile => exact write_turn_flush hsize h.client hans
      | readFile size received => exact (h.call _ hcall).elim
    show Active own settings filename mode
      (s.turned call (tftpClientIterate env s.client call))
    generalize tftpClientIterate env s.client call = t at hturn ⊢
    have hstored : ¬Growing s.client → HasFile s.closed filename (modeString mode) s.moved →
        HasFile s.closed filename (modeString mode) (s.moved ++ t.moved) := by
      intro hg hs
      by_cases hm : t.moved = []
      · rwa [hm, List.append_nil]
      · exact absurd (hturn.moved hm).1 hg
    have hsession := h.session.turned hown call (t := t)
      (fun _ hp => hp.mono t.moved hturn.growing hstored)
      (fun _ hq => hq.mono t.moved hturn.growing hstored)
      (fun _ hr => hr.mono t.moved hturn.growing fun hm => (hturn.moved hm).1)
      hturn.sent hturn.context.socket
    have hclient : WriteClient own settings filename (modeString mode) (s.moved ++ t.moved)
        (HasFile s.closed filename (modeString mode) (s.moved ++ t.moved)) t.context := by
      by_cases hm : t.moved = []
      · have hc := hturn.context
        rw [hm, List.append_nil] at hc ⊢
        exact hc
      · refine ⟨?_, hturn.context.buffer, hturn.context.packet, hturn.context.socket,
          hturn.context.server⟩
        have hstate := hturn.context.state
        rcases (hturn.moved hm).2 with hs | hs | hs
        · rw [WriteState, hs] at hstate ⊢
          exact hstate
        · rw [WriteState, hs] at hstate ⊢
          exact hstate
        · rw [WriteState, hs] at hstate ⊢
          exact hstate
    have hflushed : (TftpCall.flushFile, TftpError.NO_ERROR) ∈ s.returned →
        ¬Growing t.context ∧
          HasFile s.closed filename (modeString mode) (s.moved ++ t.moved) := by
      intro hf
      obtain ⟨hg, hs⟩ := h.flushed hf
      exact ⟨fun hg' => hg (hturn.growing hg'), hstored hg hs⟩
    unfold TftpWorld.turned at hsession ⊢
    cases hnext : t.next with
    | again next =>
      rw [hnext] at hsession
      simp only at hsession ⊢
      obtain ⟨hwrites, hsame⟩ := hturn.again next hnext
      refine ⟨hsession, hclient, fun c hc => ?_, fun name m hc => ?_, nofun, hflushed⟩
      · cases hc
        exact hwrites
      · cases hc
        exact (hsame name m rfl).2
    | done error =>
      rw [hnext] at hsession
      simp only at hsession ⊢
      refine ⟨hsession, hclient, nofun, nofun, fun _ => ?_, fun hf => ?_⟩
      · exact List.append_ne_nil_of_right_ne_nil _ (List.cons_ne_nil _ _)
      · rcases List.mem_append.mp hf with hf | hf
        · exact hflushed hf
        · cases List.mem_singleton.mp hf
          have hcomplete := hturn.flushed rfl hnext
          have hstate := hclient.state
          rw [WriteState, hcomplete] at hstate
          refine ⟨?_, hstate⟩
          show ¬Growing t.context
          rw [Growing, hcomplete]
          decide

theorem served_write_request {written : List UInt8} {stored grows : Prop}
    (hname : (0 : UInt8) ∉ filename)
    (hempty : ∀ content, settings.openFileCallback filename (modeString mode) true =
      some content → content = [])
    {env : TftpServerEnv} {data name m : List UInt8} (c : TftpClientConnection)
    (hR : WriteRequest filename (modeString mode) written grows data)
    (hop : be16At data 0 = TFTP_OPCODE_WRQ)
    (hparse : tftpParseRequest (data.take TFTP_SERVER_MAX_PACKET_SIZE) = some (name, m)) :
    Served (Writing filename (modeString mode) written stored grows)
      (WriteAnswer written stored grows) c (tftpServerProcessWrqPacket env settings c name m) := by
  have hpair : name = filename ∧ m = modeString mode := by
    rcases hR with rfl | ⟨hlen, rfl⟩ | ⟨n, -, rfl, -⟩
    · exact absurd hop (by decide)
    · rw [parse_request _ hname (zero_notMem_modeString mode) hlen] at hparse
      cases hparse
      exact ⟨rfl, rfl⟩
    · rw [dataPacket, header_opcode] at hop
      exact absurd hop (by decide)
  obtain ⟨rfl, rfl⟩ := hpair
  unfold tftpServerProcessWrqPacket
  split
  · rename_i found hopen
    obtain rfl := hempty found hopen
    have hack : WriteAnswer written stored grows (tftpHeader TFTP_OPCODE_ACK 0) :=
      .inr ⟨0, Nat.zero_le _, rfl, .inl (Nat.zero_le _)⟩
    refine served_transmit rfl rfl (.inr ⟨hack, .inr ⟨rfl, 0, rfl, Nat.zero_le _, ?_⟩⟩) hack
    intro file hf
    cases hf
    exact ⟨rfl, rfl, rfl⟩
  · exact served_abort env.time _ (fun _ hc => .inl hc) fun _ he => .inl he

theorem active_step (hname : (0 : UInt8) ∉ filename) (hown : own.ipAddr ≠ settings.ipAddr)
    (hempty : ∀ content, settings.openFileCallback filename (modeString mode) true =
      some content → content = [])
    (hsize : s.moved.length < TFTP_MAX_FILE_SIZE) {e : TftpEvent}
    (h : Active own settings filename mode s)
    (hok : s.Admitted own (Writes filename mode) e) :
    Active own settings filename mode (s.step e) := by
  -- what the server closes is added to what it has closed
  have hkeep : ∀ (r : TftpServerStep), Session own settings
        (Writing filename (modeString mode) s.moved
          (HasFile (s.closed ++ r.closed) filename (modeString mode) s.moved) (Growing s.client))
        (WriteAnswer s.moved
          (HasFile (s.closed ++ r.closed) filename (modeString mode) s.moved) (Growing s.client))
        (WriteRequest filename (modeString mode) s.moved (Growing s.client)) (s.serve r) →
      Active own settings filename mode (s.serve r) := by
    intro r hs
    refine ⟨hs, ⟨?_, h.client.buffer, h.client.packet, h.client.socket, h.client.server⟩, h.call,
      h.opening, h.ended, fun hf => ?_⟩
    · have hstate := h.client.state
      show WriteState s.moved _ s.client
      unfold WriteState at hstate ⊢
      split at hstate
      · exact hstate
      · exact hstate
      · exact hstate
      · exact hstate
      · exact hstate.append r.closed
      · trivial
      · trivial
      · exact hstate
    · obtain ⟨hg, hs⟩ := h.flushed hf
      exact ⟨hg, hs.append r.closed⟩
  have hP : ∀ more c, Writing filename (modeString mode) s.moved
        (HasFile s.closed filename (modeString mode) s.moved) (Growing s.client) c →
      Writing filename (modeString mode) s.moved
        (HasFile (s.closed ++ more) filename (modeString mode) s.moved) (Growing s.client) c := by
    intro more c hc
    have := hc.mono [] (fun hg => hg) fun _ hs => hs.append more
    rwa [List.append_nil] at this
  have hQ : ∀ more data, WriteAnswer s.moved
        (HasFile s.closed filename (modeString mode) s.moved) (Growing s.client) data →
      WriteAnswer s.moved (HasFile (s.closed ++ more) filename (modeString mode) s.moved)
        (Growing s.client) data := by
    intro more data hc
    have := hc.mono [] (fun hg => hg) fun _ hs => hs.append more
    rwa [List.append_nil] at this
  cases e with
  | call call =>
    obtain ⟨hnone, hwrites, honce⟩ := hok
    refine ⟨⟨h.session.same, h.session.connection, h.session.server, h.session.client,
      h.session.socket⟩, h.client, fun c hc => ?_, fun name m hc => ?_, nofun, h.flushed⟩
    · cases hc
      exact hwrites
    · cases hc
      exact absurd (honce name m rfl) (h.ended hnone)
  | turn env => exact active_turn h hown hsize hok
  | close =>
    have hnot : ¬Growing (tftpClientCloseFile s.client) := nofun
    refine ⟨Session.mono ⟨h.session.same, h.session.connection, h.session.server,
      h.session.client, nofun⟩ (fun c hc => ?_) (fun data hq => ?_) (fun data hr => ?_),
      ⟨trivial, h.client.buffer, fun _ hc => absurd rfl hc, nofun, h.client.server⟩,
      h.call, ?_, h.ended, fun hf => ⟨hnot, (h.flushed hf).2⟩⟩
    · have := hc.mono [] (fun hg => absurd hg hnot) fun _ hs => hs
      rwa [List.append_nil] at this
    · have := hq.mono [] (fun hg => absurd hg hnot) fun _ hs => hs
      rwa [List.append_nil] at this
    · exact hr.weaken fun hg => absurd hg hnot
    · intro name m hc
      have hnone : s.call = none := hok
      have hc : s.call = some (.openFile name m) := hc
      rw [hnone] at hc
      cases hc
  | accept env d =>
    refine hkeep _ (h.session.accept hown hok (hP _) (hQ _) (fun c name m hR hop hparse => ?_)
      fun c name m hR hop hparse => served_write_request hname hempty c hR hop hparse)
    rcases hR with hd | ⟨-, hd⟩ | ⟨n, -, hd, -⟩
    · rw [hd] at hop
      exact absurd hop (by decide)
    · rw [hd, request_opcode] at hop
      exact absurd hop (by decide)
    · rw [hd, dataPacket, header_opcode] at hop
      exact absurd hop (by decide)
  | receive env i d =>
    exact hkeep _ (h.session.receive hown hok (hP _) (hQ _)
      fun hc hR => served_write hsize hc hR (move_packet env _ d.data))
  | tick time =>
    refine hkeep _ (h.session.tick hown (hP _) (hQ _) fun c hmem hc => ?_)
    have hsub : ∀ file ∈ s.closed ++ (tickConnection time c).closed,
        file ∈ s.closed ++ (tftpServerTick time s.server).closed := by
      intro file hf
      rcases List.mem_append.mp hf with hf | hf
      · exact List.mem_append_left _ hf
      · exact List.mem_append_right _ (List.mem_flatMap.mpr ⟨c, hmem, hf⟩)
    refine (served_write hsize hc (.inl rfl) (move_tick time c [])).mono (fun c hp => ?_)
      fun data hq => ?_
    · have := hp.mono [] (fun hg => hg) fun _ hs => hs.mono hsub
      rwa [List.append_nil] at this
    · have := hq.mono [] (fun hg => hg) fun _ hs => hs.mono hsub
      rwa [List.append_nil] at this
  | other d =>
    exact ⟨h.session.other hok, h.client, h.call, h.opening, h.ended, h.flushed⟩

theorem moved_le (s : TftpWorld) (e : TftpEvent) : s.moved.length ≤ (s.step e).moved.length := by
  cases e with
  | turn env =>
    unfold TftpWorld.step
    cases s.call with
    | none => exact Nat.le_refl _
    | some call =>
      simp only [TftpWorld.turned]
      split
      · simp
      · simp
  | _ => exact Nat.le_refl _

end WriteRuns

end Cyclone
