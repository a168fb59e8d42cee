import Cyclone.Lib.Run
import Cyclone.Tftp

/-!
# Cyclone.TftpRuns

Transfers between the client and the server over a network that loses, repeats and reorders.

* `TftpWorld.step`: a turn of the client, a packet for the server or its tick, in any order.
* `ConnectionMove`, `ClientMove`: what a packet or a tick may do to either side.
* `Session`: what both sides know of each other, and the steps that keep it.
-/

namespace Cyclone

open Serial Chunks Run

/-! ## The two parties and the network -/

/-- `net` keeps every datagram that was ever sent: it may be received at any time, more than once,
or never. `moved` is what the application has read or written, `returned` the calls that ended. -/
structure TftpWorld where
  server : TftpServerContext
  client : TftpClientContext
  call : Option TftpCall := none
  net : List Datagram := []
  closed : List TftpFile := []
  moved : List UInt8 := []
  returned : List (TftpCall × TftpError) := []

inductive TftpEvent where
  | call (call : TftpCall)
  | turn (env : TftpClientEnv)
  | close
  | accept (env : TftpServerEnv) (datagram : Datagram)
  | receive (env : TftpServerEnv) (i : Nat) (datagram : Datagram)
  | tick (time : Word)
  /-- Somebody else sends. -/
  | other (datagram : Datagram)

namespace TftpWorld

variable (s : TftpWorld)

def serve (r : TftpServerStep) : TftpWorld :=
  { s with server := r.server, net := s.net ++ r.sent, closed := s.closed ++ r.closed }

def turned (call : TftpCall) (t : TftpTurn) : TftpWorld :=
  let s := { s with client := t.context, net := s.net ++ t.sent, moved := s.moved ++ t.moved }
  match t.next with
  | .again call => { s with call := some call }
  | .done error => { s with call := none, returned := s.returned ++ [(call, error)] }

def step : TftpEvent → TftpWorld
  | .call call => { s with call := some call }
  | .turn env =>
    match s.call with
    | none => s
    | some call => s.turned call (tftpClientIterate env s.client call)
  | .close => { s with client := tftpClientCloseFile s.client }
  | .accept env datagram =>
    s.serve (tftpServerAcceptRequest env s.server datagram.src datagram.data)
  | .receive env i datagram =>
    let r := tftpServerProcessPacket env (s.server.connection.getD i {}) datagram.data
    s.serve { server := { s.server with connection := s.server.connection.set i r.connection }
              sent := r.sent, closed := r.closed }
  | .tick time => s.serve (tftpServerTick time s.server)
  | .other datagram => { s with net := s.net ++ [datagram] }

/-- What may happen, when the application makes the calls `calls` on a socket at `own` and opens
the file once. The addresses of server and client are used by nobody else. -/
def Admitted (own : Endpoint) (calls : TftpCall → Prop) : TftpEvent → Prop
  | .call call => s.call = none ∧ calls call ∧
      ∀ filename mode, call = .openFile filename mode → s.returned = []
  | .turn env => (∀ socket, env.socket = some socket → socket = own) ∧
      ∀ src data, env.received = .packet src data →
        ∃ dest, s.client.socket = some dest ∧ ⟨src, dest, data⟩ ∈ s.net
  | .close => s.call = none
  | .accept _ datagram => datagram ∈ s.net ∧
      datagram.dest = ⟨s.server.settings.ipAddr, s.server.settings.port⟩
  | .receive _ i datagram => datagram ∈ s.net ∧
      (s.server.connection.getD i {}).socket = some ⟨datagram.dest, datagram.src⟩
  | .tick _ => True
  | .other datagram => datagram.src.ipAddr ≠ s.server.settings.ipAddr ∧ datagram.src ≠ own

end TftpWorld

/-! ## The server, one connection at a time -/

/-- What a packet or a tick does to a connection. -/
inductive ConnectionMove (c : TftpClientConnection) (packet : List UInt8) : TftpStep → Prop where
  | stay : ConnectionMove c packet { connection := c }
  | resend (time : Word) (count : Nat) (hc : c.state ≠ .CLOSED) (ho : c.state ≠ .OPEN) :
    ConnectionMove c packet
      { connection := { c with timestamp := time, retransmitCount := count }, sent := c.transmit }
  | close : ConnectionMove c packet (tftpServerCloseConnection c)
  | abort (time : Word) (text : String) :
    ConnectionMove c packet (tftpServerAbort time c text)
  | next (env : TftpServerEnv) (hs : c.state = .READING) (hblock : be16At packet 2 = c.block) :
    ConnectionMove c packet (tftpServerSendDataPacket env { c with block := c.block + 1 })
  | stored (time : Word) (file : TftpFile) (hs : c.state = .WRITING) (hfile : c.file = some file)
    (hop : be16At packet 0 = TFTP_OPCODE_DATA) (hblock : be16At packet 2 = c.block)
    (hlen : TFTP_SERVER_BLOCK_SIZE ≤ packet.length - sizeofTftpDataPacket) :
    ConnectionMove c packet
      { connection := { c with
          packet := tftpHeader TFTP_OPCODE_ACK c.block, timestamp := time, retransmitCount := 0
          file := some (writeFileCallback file (tftpServerOffset c.block)
            (packet.drop sizeofTftpDataPacket))
          block := c.block + 1 }
        sent := { c with packet := tftpHeader TFTP_OPCODE_ACK c.block }.transmit }
  | storedLast (time : Word) (file : TftpFile) (hs : c.state = .WRITING)
    (hfile : c.file = some file) (hop : be16At packet 0 = TFTP_OPCODE_DATA)
    (hblock : be16At packet 2 = c.block)
    (hlen : packet.length - sizeofTftpDataPacket < TFTP_SERVER_BLOCK_SIZE) :
    ConnectionMove c packet
      { connection := { c with
          packet := tftpHeader TFTP_OPCODE_ACK c.block, timestamp := time, retransmitCount := 0
          file := none, block := c.block + 1, state := .WRITE_COMPLETE }
        sent := { c with packet := tftpHeader TFTP_OPCODE_ACK c.block }.transmit
        closed := [writeFileCallback file (tftpServerOffset c.block)
          (packet.drop sizeofTftpDataPacket)] }

theorem move_data (env : TftpServerEnv) (c : TftpClientConnection) {packet : List UInt8}
    (hop : be16At packet 0 = TFTP_OPCODE_DATA) :
    ConnectionMove c packet (tftpServerProcessDataPacket env c packet) := by
  unfold tftpServerProcessDataPacket
  split
  · exact .stay
  · split
    · rename_i hs
      split
      · rename_i hblock
        split
        · rename_i file hfile _
          simp only [List.length_drop]
          split
          · rename_i hlen
            exact .storedLast env.time file hs hfile hop hblock hlen
          · rename_i hlen
            exact .stored env.time file hs hfile hop hblock (Nat.le_of_not_lt hlen)
        · exact .abort env.time _
      · exact .resend c.timestamp c.retransmitCount (by rw [hs]; decide) (by rw [hs]; decide)
    · split
      · rename_i hs
        exact .resend c.timestamp c.retransmitCount (by rw [hs]; decide) (by rw [hs]; decide)
      · exact .stay

theorem move_ack (env : TftpServerEnv) (c : TftpClientConnection) (packet : List UInt8) :
    ConnectionMove c packet (tftpServerProcessAckPacket env c packet) := by
  unfold tftpServerProcessAckPacket
  split
  · exact .stay
  · split
    · rename_i hs
      split
      · rename_i hblock
        exact .next env hs hblock
      · exact .stay
    · split
      · split
        · exact .close
        · exact .stay
      · exact .stay

theorem move_packet (env : TftpServerEnv) (c : TftpClientConnection) (data : List UInt8) :
    ConnectionMove c (data.take TFTP_SERVER_MAX_PACKET_SIZE)
      (tftpServerProcessPacket env c data) := by
  unfold tftpServerProcessPacket
  simp only
  split
  · exact .stay
  · split
    · rename_i hop
      exact move_data env c hop
    · split
      · exact move_ack env c _
      · split
        · unfold tftpServerProcessErrorPacket
          split
          · exact .stay
          · exact .close
        · exact .stay

theorem move_tick (time : Word) (c : TftpClientConnection) (packet : List UInt8) :
    ConnectionMove c packet (tickConnection time c) := by
  have hlive : ∀ (hc : c.state ≠ .CLOSED) (ho : c.state ≠ .OPEN), ConnectionMove c packet
      (if 0 ≤ (time - (c.timestamp + TFTP_SERVER_TIMEOUT)).toInt then
        if c.retransmitCount < TFTP_SERVER_MAX_RETRIES then
          { connection := { c with
              timestamp := time, retransmitCount := c.retransmitCount + 1 }
            sent := tftpServerRetransmitPacket c }
        else tftpServerCloseConnection c
      else { connection := c }) := by
    intro hc ho
    split
    · split
      · exact .resend time (c.retransmitCount + 1) hc ho
      · exact .close
    · exact .stay
  unfold tickConnection
  split
  · rename_i hs
    exact hlive (by rw [hs]; decide) (by rw [hs]; decide)
  · rename_i hs
    exact hlive (by rw [hs]; decide) (by rw [hs]; decide)
  · rename_i hs
    exact hlive (by rw [hs]; decide) (by rw [hs]; decide)
  · split
    · exact .close
    · exact .stay
  · exact .stay

theorem mem_transmit {c : TftpClientConnection} {d : Datagram} (h : d ∈ c.transmit) :
    ∃ k, c.socket = some k ∧ d = ⟨k.localAddr, k.remoteAddr, c.packet⟩ := by
  unfold TftpClientConnection.transmit at h
  split at h
  · cases h
  · rename_i k hk
    exact ⟨k, hk, List.mem_singleton.mp h⟩

/-- A step leaves `P` of the connection and sends only what satisfies `Q`. -/
structure Served (P : TftpClientConnection → Prop) (Q : List UInt8 → Prop)
    (c : TftpClientConnection) (r : TftpStep) : Prop where
  socket : r.connection.socket = none ∨ r.connection.socket = c.socket
  connection : P r.connection
  sent : ∀ d ∈ r.sent, ∃ k, c.socket = some k ∧ d.src = k.localAddr ∧ d.dest = k.remoteAddr ∧
    Q d.data

section Served

variable {P : TftpClientConnection → Prop} {Q : List UInt8 → Prop} {c : TftpClientConnection}

theorem Served.mono {P' : TftpClientConnection → Prop} {Q' : List UInt8 → Prop} {r : TftpStep}
    (h : Served P Q c r) (hP : ∀ c, P c → P' c) (hQ : ∀ data, Q data → Q' data) :
    Served P' Q' c r := by
  refine ⟨h.socket, hP _ h.connection, fun d hd => ?_⟩
  obtain ⟨k, hk, hsrc, hdest, hq⟩ := h.sent d hd
  exact ⟨k, hk, hsrc, hdest, hQ _ hq⟩

theorem served_transmit {c' c'' : TftpClientConnection} {closed : List TftpFile}
    (hs : c'.socket = c.socket) (hs' : c''.socket = c.socket) (hP : P c') (hQ : Q c''.packet) :
    Served P Q c { connection := c', sent := c''.transmit, closed } := by
  refine ⟨.inr hs, hP, fun d hd => ?_⟩
  obtain ⟨k, hk, rfl⟩ := mem_transmit hd
  exact ⟨k, hs'.symm.trans hk, rfl, rfl, hQ⟩

theorem served_silent {c' : TftpClientConnection} {closed : List TftpFile}
    (hs : c'.socket = none ∨ c'.socket = c.socket) (hP : P c') :
    Served P Q c { connection := c', closed } :=
  ⟨hs, hP, nofun⟩

/-- A packet that says that something went wrong. -/
def ErrorPacket (data : List UInt8) : Prop := be16At data 0 = TFTP_OPCODE_ERROR

theorem served_abort (time : Word) (text : String) (hP : ∀ c, c.state = .CLOSED → P c)
    (hQ : ∀ data, ErrorPacket data → Q data) : Served P Q c (tftpServerAbort time c text) := by
  refine ⟨.inl rfl, hP _ rfl, fun d hd => ?_⟩
  obtain ⟨k, hk, rfl⟩ := mem_transmit hd
  refine ⟨k, hk, rfl, rfl, hQ _ ?_⟩
  show be16At (be16 TFTP_OPCODE_ERROR.toNat ++ be16 _ ++ _ ++ _) 0 = _
  rw [List.append_assoc, List.append_assoc]
  exact be16At_be16 [] _ TFTP_OPCODE_ERROR

/-- A block of the file, or an error. -/
theorem sendData_cases (env : TftpServerEnv) (c : TftpClientConnection) :
    (∃ text, tftpServerSendDataPacket env c = tftpServerAbort env.time c text) ∨
    ∃ file data, c.file = some file ∧
      data = (readFileCallback file (tftpServerOffset c.block) TFTP_SERVER_BLOCK_SIZE).getD [] ∧
      (data.length < TFTP_SERVER_BLOCK_SIZE ∧ tftpServerSendDataPacket env c =
          { connection := { c with
              file := none, state := .READ_COMPLETE
              packet := tftpHeader TFTP_OPCODE_DATA c.block ++ data
              timestamp := env.time, retransmitCount := 0 }
            sent := { c with packet := tftpHeader TFTP_OPCODE_DATA c.block ++ data }.transmit
            closed := [file] } ∨
        TFTP_SERVER_BLOCK_SIZE ≤ data.length ∧ tftpServerSendDataPacket env c =
          { connection := { c with
              packet := tftpHeader TFTP_OPCODE_DATA c.block ++ data
              timestamp := env.time, retransmitCount := 0 }
            sent := { c with
              packet := tftpHeader TFTP_OPCODE_DATA c.block ++ data }.transmit }) := by
  unfold tftpServerSendDataPacket
  split
  · rename_i file hfile _
    refine .inr ⟨file, _, hfile, rfl, ?_⟩
    simp only
    split
    · rename_i hlen
      exact .inl ⟨hlen, rfl⟩
    · rename_i hlen
      exact .inr ⟨Nat.le_of_not_lt hlen, rfl⟩
  · exact .inl ⟨_, rfl⟩

theorem served_any_data (env : TftpServerEnv) :
    Served (fun _ => True) (fun _ => True) c (tftpServerSendDataPacket env c) := by
  obtain ⟨text, h⟩ | ⟨file, data, -, -, ⟨-, h⟩ | ⟨-, h⟩⟩ := sendData_cases env c
  · rw [h]
    exact served_abort env.time text (fun _ _ => trivial) fun _ _ => trivial
  · rw [h]
    exact served_transmit rfl rfl trivial trivial
  · rw [h]
    exact served_transmit rfl rfl trivial trivial

/-- A connection sends to the client that it is connected to. -/
theorem served_any {packet : List UInt8} {r : TftpStep} (h : ConnectionMove c packet r) :
    Served (fun _ => True) (fun _ => True) c r := by
  cases h with
  | stay => exact served_silent (.inr rfl) trivial
  | resend time count hc ho => exact served_transmit rfl rfl trivial trivial
  | close => exact served_silent (.inl rfl) trivial
  | abort time text => exact served_abort time text (fun _ _ => trivial) fun _ _ => trivial
  | next env hs hblock =>
    have h := served_any_data (c := { c with block := c.block + 1 }) env
    exact ⟨h.socket, trivial, h.sent⟩
  | stored => exact served_transmit rfl rfl trivial trivial
  | storedLast => exact served_transmit rfl rfl trivial trivial

theorem served_any_rrq (env : TftpServerEnv) (settings : TftpServerSettings)
    (c : TftpClientConnection) (filename mode : List UInt8) :
    Served (fun _ => True) (fun _ => True) c
      (tftpServerProcessRrqPacket env settings c filename mode) := by
  unfold tftpServerProcessRrqPacket
  split
  · rename_i content _
    have h := served_any_data (c := { c with
      file := some ⟨filename, mode, content⟩, state := .READING, block := 1 }) env
    exact ⟨h.socket, trivial, h.sent⟩
  · exact served_abort env.time _ (fun _ _ => trivial) fun _ _ => trivial

theorem served_any_wrq (env : TftpServerEnv) (settings : TftpServerSettings)
    (c : TftpClientConnection) (filename mode : List UInt8) :
    Served (fun _ => True) (fun _ => True) c
      (tftpServerProcessWrqPacket env settings c filename mode) := by
  unfold tftpServerProcessWrqPacket
  split
  · exact served_transmit rfl rfl trivial trivial
  · exact served_abort env.time _ (fun _ _ => trivial) fun _ _ => trivial

end Served

theorem be16At_take {data : List UInt8} {n i : Nat} (h : i + 1 < n) :
    be16At (data.take n) i = be16At data i := by
  unfold be16At
  rw [List.getD_eq_getElem?_getD, List.getD_eq_getElem?_getD, List.getElem?_take_of_lt (by omega),
    List.getElem?_take_of_lt h, List.getD_eq_getElem?_getD, List.getD_eq_getElem?_getD]

/-! ## What the two parties know of each other -/

/-- `own` is the address of the client's socket. `P` holds of the connections to it, `Q` of what
the server sent there and `R` of what the client sent. -/
structure Session (own : Endpoint) (settings : TftpServerSettings)
    (P : TftpClientConnection → Prop) (Q R : List UInt8 → Prop) (s : TftpWorld) : Prop where
  same : s.server.settings = settings
  connection : ∀ c ∈ s.server.connection, ∀ k, c.socket = some k →
    k.localAddr.ipAddr = settings.ipAddr ∧ (k.remoteAddr = own → P c)
  server : ∀ d ∈ s.net, d.src.ipAddr = settings.ipAddr → d.dest = own → Q d.data
  client : ∀ d ∈ s.net, d.src = own → R d.data
  socket : ∀ k, s.client.socket = some k → k = own

namespace Session

variable {own : Endpoint} {settings : TftpServerSettings} {P P' : TftpClientConnection → Prop}
  {Q Q' R R' : List UInt8 → Prop} {s : TftpWorld} {calls : TftpCall → Prop}

theorem mono (h : Session own settings P Q R s) (hP : ∀ c, P c → P' c)
    (hQ : ∀ data, Q data → Q' data) (hR : ∀ data, R data → R' data) :
    Session own settings P' Q' R' s := by
  refine ⟨h.same, fun c hc k hk => ?_, fun d hd hs hdest => hQ _ (h.server d hd hs hdest),
    fun d hd hs => hR _ (h.client d hd hs), h.socket⟩
  obtain ⟨hl, hp⟩ := h.connection c hc k hk
  exact ⟨hl, fun hr => hP c (hp hr)⟩

/-- A step of the server that is right for each of its connections. -/
theorem serve (h : Session own settings P Q R s) (hown : own.ipAddr ≠ settings.ipAddr)
    {r : TftpServerStep} (hset : r.server.settings = settings)
    (hconn : ∀ c ∈ r.server.connection, ∀ k, c.socket = some k →
      k.localAddr.ipAddr = settings.ipAddr ∧ (k.remoteAddr = own → P c))
    (hsent : ∀ d ∈ r.sent, d.src.ipAddr = settings.ipAddr ∧ (d.dest = own → Q d.data)) :
    Session own settings P Q R (s.serve r) := by
  refine ⟨hset, hconn, fun d hd hs hdest => ?_, fun d hd hs => ?_, h.socket⟩
  · rcases List.mem_append.mp hd with hd | hd
    · exact h.server d hd hs hdest
    · exact (hsent d hd).2 hdest
  · rcases List.mem_append.mp hd with hd | hd
    · exact h.client d hd hs
    · exact absurd ((hsent d hd).1.symm.trans (congrArg Endpoint.ipAddr hs)) (Ne.symm hown)

variable (P Q own settings) in
/-- What a step of one connection sends and leaves, to the client and to others. -/
theorem of_served {c : TftpClientConnection} {r : TftpStep}
    (hc : ∀ k, c.socket = some k → k.localAddr.ipAddr = settings.ipAddr)
    (hany : Served (fun _ => True) (fun _ => True) c r)
    (hown : ∀ k, c.socket = some k → k.remoteAddr = own → Served P Q c r) :
    (∀ k, r.connection.socket = some k →
      k.localAddr.ipAddr = settings.ipAddr ∧ (k.remoteAddr = own → P r.connection)) ∧
    ∀ d ∈ r.sent, d.src.ipAddr = settings.ipAddr ∧ (d.dest = own → Q d.data) := by
  constructor
  · intro k hk
    have hk' : c.socket = some k := by
      rcases hany.socket with hs | hs
      · rw [hs] at hk
        cases hk
      · exact hs.symm.trans hk
    exact ⟨hc k hk', fun hr => (hown k hk' hr).connection⟩
  · intro d hd
    obtain ⟨k, hk, hsrc, hdest, -⟩ := hany.sent d hd
    refine ⟨by rw [hsrc]; exact hc k hk, fun hr => ?_⟩
    obtain ⟨-, -, -, -, hq⟩ := (hown k hk (hdest.symm.trans hr)).sent d hd
    exact hq

theorem receive (h : Session own settings P Q R s) (hown : own.ipAddr ≠ settings.ipAddr)
    {env : TftpServerEnv} {i : Nat} {d : Datagram}
    (hok : s.Admitted own calls (.receive env i d))
    (hP : ∀ c, P c → P' c) (hQ : ∀ data, Q data → Q' data)
    (hmove : P (s.server.connection.getD i {}) → R d.data →
      Served P' Q' (s.server.connection.getD i {})
        (tftpServerProcessPacket env (s.server.connection.getD i {}) d.data)) :
    Session own settings P' Q' R (s.step (.receive env i d)) := by
  obtain ⟨hd, hsock⟩ := hok
  have hmem : s.server.connection.getD i {} ∈ s.server.connection := by
    rw [List.getD_eq_getElem?_getD] at hsock ⊢
    cases hi : s.server.connection[i]? with
    | none =>
      rw [hi] at hsock
      cases hsock
    | some c => exact List.mem_of_getElem? hi
  obtain ⟨hl, hp⟩ := h.connection _ hmem _ hsock
  have hnew := of_served own settings P' Q'
    (fun k hk => by
      rw [hsock] at hk
      cases hk
      exact hl)
    (served_any (move_packet env (s.server.connection.getD i {}) d.data))
    (fun k hk hr => by
      rw [hsock] at hk
      cases hk
      exact hmove (hp hr) (h.client d hd hr))
  refine (h.mono hP hQ fun _ hr => hr).serve hown h.same (fun c hc k hk => ?_) hnew.2
  rcases List.mem_or_eq_of_mem_set hc with hc | rfl
  · obtain ⟨hl, hp⟩ := h.connection c hc k hk
    exact ⟨hl, fun hr => hP c (hp hr)⟩
  · exact hnew.1 k hk

/-- A request opens a connection to where it comes from. -/
theorem accept (h : Session own settings P Q R s) (hown : own.ipAddr ≠ settings.ipAddr)
    {env : TftpServerEnv} {d : Datagram} (hok : s.Admitted own calls (.accept env d))
    (hP : ∀ c, P c → P' c) (hQ : ∀ data, Q data → Q' data)
    (hrrq : ∀ c filename mode, R d.data → be16At d.data 0 = TFTP_OPCODE_RRQ →
      tftpParseRequest (d.data.take TFTP_SERVER_MAX_PACKET_SIZE) = some (filename, mode) →
      Served P' Q' c (tftpServerProcessRrqPacket env settings c filename mode))
    (hwrq : ∀ c filename mode, R d.data → be16At d.data 0 = TFTP_OPCODE_WRQ →
      tftpParseRequest (d.data.take TFTP_SERVER_MAX_PACKET_SIZE) = some (filename, mode) →
      Served P' Q' c (tftpServerProcessWrqPacket env settings c filename mode)) :
    Session own settings P' Q' R (s.step (.accept env d)) := by
  obtain ⟨hd, -⟩ := hok
  have h' := h.mono hP hQ fun _ hr => hr
  have hnone : Session own settings P' Q' R (s.serve { server := s.server }) :=
    h'.serve hown h.same h'.connection nofun
  have hwith : ∀ process : TftpClientConnection → List UInt8 → List UInt8 → TftpStep,
      (∀ c filename mode, Served (fun _ => True) (fun _ => True) c (process c filename mode)) →
      (∀ c filename mode, d.src = own →
        tftpParseRequest (d.data.take TFTP_SERVER_MAX_PACKET_SIZE) = some (filename, mode) →
        Served P' Q' c (process c filename mode)) →
      Session own settings P' Q' R (s.serve (acceptWith env s.server d.src
        (d.data.take TFTP_SERVER_MAX_PACKET_SIZE) process)) := by
    intro process hany hmine
    unfold acceptWith
    split
    · exact hnone
    · rename_i filename mode hparse
      unfold tftpServerOpenConnection
      cases openConnectionLoop env.time s.server.connection 0 none with
      | none => exact hnone
      | some i =>
        simp only [Option.map_some]
        cases env.port with
        | none =>
          refine h'.serve hown h.same (fun c hc k hk => ?_) nofun
          rcases List.mem_or_eq_of_mem_set hc with hc | rfl
          · exact h'.connection c hc k hk
          · cases hk
        | some port =>
          simp only [reduceCtorEq, if_false]
          have hnew := of_served own settings P' Q'
            (c := { state := .OPEN, socket := some ⟨⟨s.server.settings.ipAddr, port⟩, d.src⟩ })
            (fun k hk => by
              cases hk
              exact congrArg TftpServerSettings.ipAddr h.same)
            (hany _ filename mode)
            (fun k hk hr => by
              cases hk
              exact hmine _ filename mode hr hparse)
          refine h'.serve hown h.same (fun c hc k hk => ?_) hnew.2
          rcases List.mem_or_eq_of_mem_set hc with hc | rfl
          · exact h'.connection c hc k hk
          · exact hnew.1 k hk
  show Session own settings P' Q' R (s.serve (tftpServerAcceptRequest env s.server d.src d.data))
  unfold tftpServerAcceptRequest
  simp only
  split
  · exact hnone
  · rename_i hlen
    have hop : be16At (d.data.take TFTP_SERVER_MAX_PACKET_SIZE) 0 = be16At d.data 0 :=
      be16At_take (by rw [List.length_take] at hlen; omega)
    rw [hop, h.same]
    split
    · rename_i hr
      exact hwith _ (served_any_rrq env settings)
        fun c filename mode hsrc hparse => hrrq c filename mode (h.client d hd hsrc) hr hparse
    · split
      · rename_i hr
        exact hwith _ (served_any_wrq env settings)
          fun c filename mode hsrc hparse => hwrq c filename mode (h.client d hd hsrc) hr hparse
      · exact hnone

theorem tick (h : Session own settings P Q R s) (hown : own.ipAddr ≠ settings.ipAddr) {time : Word}
    (hP : ∀ c, P c → P' c) (hQ : ∀ data, Q data → Q' data)
    (hmove : ∀ c ∈ s.server.connection, P c → Served P' Q' c (tickConnection time c)) :
    Session own settings P' Q' R (s.step (.tick time)) := by
  have hnew := fun c hc => of_served own settings P' Q'
    (fun k hk => (h.connection c hc k hk).1) (served_any (move_tick time c []))
    (fun k hk hr => hmove c hc ((h.connection c hc k hk).2 hr))
  refine (h.mono hP hQ fun _ hr => hr).serve hown h.same (fun c hc k hk => ?_) fun d hd => ?_
  · obtain ⟨c, hmem, rfl⟩ := List.mem_map.mp hc
    exact (hnew c hmem).1 k hk
  · obtain ⟨c, hc, hd⟩ := List.mem_flatMap.mp hd
    exact (hnew c hc).2 d hd

theorem other (h : Session own settings P Q R s) {d : Datagram}
    (hok : s.Admitted own calls (.other d)) :
    Session own settings P Q R (s.step (.other d)) := by
  obtain ⟨hip, hsrc⟩ := hok
  rw [h.same] at hip
  refine ⟨h.same, h.connection, fun d' hd hs hdest => ?_, fun d' hd hs => ?_, h.socket⟩
  · rcases List.mem_append.mp hd with hd | hd
    · exact h.server d' hd hs hdest
    · cases List.mem_singleton.mp hd
      exact absurd hs hip
  · rcases List.mem_append.mp hd with hd | hd
    · exact h.client d' hd hs
    · cases List.mem_singleton.mp hd
      exact absurd hs hsrc

/-- A turn of the client. -/
theorem turned (h : Session own settings P Q R s) (hown : own.ipAddr ≠ settings.ipAddr)
    (call : TftpCall) {t : TftpTurn} (hP : ∀ c, P c → P' c) (hQ : ∀ data, Q data → Q' data)
    (hR : ∀ data, R data → R' data) (hsent : ∀ d ∈ t.sent, d.src = own ∧ R' d.data)
    (hsock : ∀ k, t.context.socket = some k → k = own) :
    Session own settings P' Q' R' (s.turned call t) := by
  have hw : Session own settings P' Q' R' { s with
      client := t.context, net := s.net ++ t.sent, moved := s.moved ++ t.moved } := by
    have h' := h.mono hP hQ hR
    refine ⟨h.same, h'.connection, fun d hd hs hdest => ?_, fun d hd hs => ?_, hsock⟩
    · rcases List.mem_append.mp hd with hd | hd
      · exact h'.server d hd hs hdest
      · rw [(hsent d hd).1] at hs
        exact absurd hs hown
    · rcases List.mem_append.mp hd with hd | hd
      · exact h'.client d hd hs
      · exact (hsent d hd).2
  unfold TftpWorld.turned
  simp only
  split
  · exact ⟨hw.same, hw.connection, hw.server, hw.client, hw.socket⟩
  · exact ⟨hw.same, hw.connection, hw.server, hw.client, hw.socket⟩

end Session

/-! ## Packets -/

theorem length_tftpHeader (opcode : Port) (field : Block) : (tftpHeader opcode field).length = 4 :=
  rfl

theorem header_opcode (opcode : Port) (field : Block) (rest : List UInt8) :
    be16At (tftpHeader opcode field ++ rest) 0 = opcode := by
  rw [tftpHeader, List.append_assoc]
  exact be16At_be16 [] _ opcode

theorem header_field (opcode : Port) (field : Block) (rest : List UInt8) :
    be16At (tftpHeader opcode field ++ rest) 2 = field :=
  be16At_be16 (be16 opcode.toNat) rest field

/-- Block `n` of a file, counted from zero, goes under the number `n + 1`. -/
def dataPacket (content : List UInt8) (n : Nat) : List UInt8 :=
  tftpHeader TFTP_OPCODE_DATA (BitVec.ofNat 16 (n + 1)) ++ chunk TFTP_SERVER_BLOCK_SIZE content n

/-- The largest size whose blocks can be counted. -/
def TFTP_MAX_FILE_SIZE : Nat := 65535 * TFTP_SERVER_BLOCK_SIZE

section Packets

variable {content : List UInt8} {n m : Nat}

theorem length_dataPacket :
    (dataPacket content n).length = 4 + (chunk TFTP_SERVER_BLOCK_SIZE content n).length := by
  rw [dataPacket, List.length_append, length_tftpHeader]

theorem take_dataPacket :
    (dataPacket content n).take TFTP_SERVER_MAX_PACKET_SIZE = dataPacket content n := by
  refine List.take_of_length_le ?_
  have := @length_chunk_le _ TFTP_SERVER_BLOCK_SIZE n content
  have hmax : TFTP_SERVER_MAX_PACKET_SIZE = 4 + TFTP_SERVER_BLOCK_SIZE := rfl
  rw [length_dataPacket]
  omega

theorem drop_dataPacket : (dataPacket content n).drop sizeofTftpDataPacket =
    chunk TFTP_SERVER_BLOCK_SIZE content n :=
  List.drop_left' rfl

theorem block_inj {a b : Nat} (ha : a < 65536) (hb : b < 65536)
    (h : BitVec.ofNat 16 a = BitVec.ofNat 16 b) : a = b := by
  have h := congrArg BitVec.toNat h
  rw [BitVec.toNat_ofNat, BitVec.toNat_ofNat, Nat.mod_eq_of_lt ha, Nat.mod_eq_of_lt hb] at h
  exact h

theorem block_succ (a : Nat) : BitVec.ofNat 16 a + 1 = BitVec.ofNat 16 (a + 1) := by
  rw [BitVec.ofNat_add]
  rfl

theorem offset_block (hn : n < 65535) :
    tftpServerOffset (BitVec.ofNat 16 (n + 1)) = TFTP_SERVER_BLOCK_SIZE * n := by
  have hb : TFTP_SERVER_BLOCK_SIZE = 512 := rfl
  rw [tftpServerOffset, BitVec.toNat_ofNat, Nat.mod_eq_of_lt (by omega), hb]
  omega

theorem readFile_chunk (file : TftpFile) (n : Nat) :
    (readFileCallback file (TFTP_SERVER_BLOCK_SIZE * n) TFTP_SERVER_BLOCK_SIZE).getD [] =
      chunk TFTP_SERVER_BLOCK_SIZE file.content n := by
  unfold readFileCallback
  split
  · rename_i h
    rw [chunk, List.drop_of_length_le h]
    rfl
  · rfl

theorem request_opcode (opcode : Port) (name m : List UInt8) :
    be16At (tftpRequest opcode name m) 0 = opcode := by
  rw [tftpRequest, List.append_assoc, List.append_assoc, List.append_assoc]
  exact be16At_be16 [] _ opcode

/-- What the server parses is what the client asked for. -/
theorem parse_request {filename mode : List UInt8} (opcode : Port) (hname : (0 : UInt8) ∉ filename)
    (hmode : (0 : UInt8) ∉ mode)
    (hlen : filename.length + mode.length ≤ TFTP_CLIENT_BLOCK_SIZE) :
    tftpParseRequest ((tftpRequest opcode filename mode).take TFTP_SERVER_MAX_PACKET_SIZE) =
      some (filename, mode) := by
  have hsize : TFTP_CLIENT_BLOCK_SIZE = 512 := rfl
  have hmax : TFTP_SERVER_MAX_PACKET_SIZE = 516 := rfl
  have hfull : (tftpRequest opcode filename mode).length = filename.length + mode.length + 4 := by
    simp only [tftpRequest, be16, List.length_append, List.length_cons, List.length_nil]
    omega
  rw [List.take_of_length_le (by omega)]
  have hdrop : (tftpRequest opcode filename mode).drop sizeofTftpRrqPacket =
      filename ++ 0 :: (mode ++ [0]) := by
    simp [tftpRequest, be16, sizeofTftpRrqPacket]
  have hstring : ∀ (text rest : List UInt8), (0 : UInt8) ∉ text →
      (text ++ 0 :: rest).takeWhile (· ≠ 0) = text := by
    intro text rest htext
    rw [List.takeWhile_append_of_pos]
    · simp
    · intro b hb
      simp only [ne_eq, decide_not, Bool.not_eq_true', decide_eq_false_iff_not]
      rintro rfl
      exact htext hb
  unfold tftpParseRequest
  simp only
  rw [hdrop, hstring filename _ hname, hfull,
    if_neg (by simp only [sizeofTftpRrqPacket]; omega)]
  have hlast : (filename ++ 0 :: (mode ++ [0])).getLast? = some 0 := by
    rw [← List.cons_append, ← List.append_assoc, List.getLast?_concat]
  rw [if_neg (not_not_intro hlast), if_neg (by simp; omega)]
  have hrest : (filename ++ 0 :: (mode ++ [0])).drop (filename.length + 1) = mode ++ [0] := by
    rw [← List.drop_drop, List.drop_left]
    rfl
  rw [hrest, hstring mode [] hmode]

end Packets

/-! ## The client, one turn at a time -/

section Client

variable {own : Endpoint} {c : TftpClientContext} {R : List UInt8 → Prop}

/-- Sent by the client, and it satisfies `R`. -/
def Sends (own : Endpoint) (R : List UInt8 → Prop) (sent : List Datagram) : Prop :=
  ∀ d ∈ sent, d.src = own ∧ R d.data

theorem sends_append {sent more : List Datagram} (h : Sends own R sent) (h' : Sends own R more) :
    Sends own R (sent ++ more) := by
  intro d hd
  rcases List.mem_append.mp hd with hd | hd
  · exact h d hd
  · exact h' d hd

theorem sends_transmit (hown : ∀ k, c.socket = some k → k = own)
    (hR : R (c.outPacket.take c.outPacketLen)) (port : Port) : Sends own R (c.transmit port) := by
  intro d hd
  unfold TftpClientContext.transmit at hd
  split at hd
  · cases hd
  · rename_i k hk
    cases List.mem_singleton.mp hd
    exact ⟨hown k hk, hR⟩

theorem sends_retransmit (hown : ∀ k, c.socket = some k → k = own)
    (hR : R (c.outPacket.take c.outPacketLen)) : Sends own R (tftpClientRetransmitPacket c) := by
  unfold tftpClientRetransmitPacket
  split
  · exact sends_transmit hown hR _
  · exact sends_transmit hown hR _

/-- A packet that is written into the buffer from its start. -/
theorem take_packet {buffer packet : List UInt8} :
    (store buffer 0 packet).take packet.length = packet := by
  have := @take_store _ buffer packet 0 (Nat.zero_le _)
  simpa using this

/-- A request is in the buffer afterwards and was sent, or its name is too long. -/
theorem request_sent {opcode : Port} {filename mode : List UInt8} (time : Word)
    (hbuffer : c.outPacket.length = TFTP_CLIENT_MAX_PACKET_SIZE)
    (hown : ∀ k, c.socket = some k → k = own) (hR : R (c.outPacket.take c.outPacketLen))
    (hreq : filename.length + mode.length ≤ TFTP_CLIENT_BLOCK_SIZE →
      R (tftpRequest opcode filename mode)) :
    ∃ outPacket outPacketLen timestamp retransmitCount sent,
      sendRequest opcode time c filename mode =
        ({ c with outPacket, outPacketLen, timestamp, retransmitCount }, sent) ∧
      outPacket.length = TFTP_CLIENT_MAX_PACKET_SIZE ∧ R (outPacket.take outPacketLen) ∧
      Sends own R sent := by
  have hcap : TFTP_CLIENT_MAX_PACKET_SIZE = 516 := rfl
  have hclient : TFTP_CLIENT_BLOCK_SIZE = 512 := rfl
  unfold sendRequest
  split
  · exact ⟨_, _, _, _, _, rfl, hbuffer, hR, nofun⟩
  · rename_i hlen
    have hfull : (tftpRequest opcode filename mode).length =
        filename.length + mode.length + 4 := by
      simp only [tftpRequest, be16, List.length_append, List.length_cons, List.length_nil]
      omega
    have hR : R ((store c.outPacket 0 (tftpRequest opcode filename mode)).take
        (tftpRequest opcode filename mode).length) := by
      rw [take_packet]
      exact hreq (Nat.le_of_not_lt hlen)
    refine ⟨_, _, _, _, _, rfl, ?_, hR, sends_transmit (by exact hown) (by exact hR) _⟩
    rw [length_store (by rw [hbuffer]; omega), hbuffer]

/-- What a packet from the server may do to a client. -/
inductive ClientMove (c : TftpClientContext) : TftpClientContext → Prop where
  | stay : ClientMove c c
  | data (tid : Port) (hs : c.state = .RRQ ∨ c.state = .ACK)
    (hop : be16At c.inPacket 0 = TFTP_OPCODE_DATA) (hblock : be16At c.inPacket 2 = c.block) :
    ClientMove c { c with
      state := .DATA, inDataLen := c.inPacket.length - sizeofTftpDataPacket, inDataPos := 0
      serverTid := tid }
  | ack (tid : Port) (hs : c.state = .WRQ ∨ c.state = .DATA)
    (hop : be16At c.inPacket 0 = TFTP_OPCODE_ACK) (hblock : be16At c.inPacket 2 = c.block) :
    ClientMove c { c with state := .ACK, outDataLen := 0, serverTid := tid }
  | last (hs : c.state = .LAST_DATA) (hop : be16At c.inPacket 0 = TFTP_OPCODE_ACK)
    (hblock : be16At c.inPacket 2 = c.block) :
    ClientMove c { c with state := .COMPLETE, outDataLen := 0 }
  | error : ClientMove c { c with state := .ERROR }

/-- A packet moves the client, and may make it send its own again. -/
def ClientMoved (c : TftpClientContext) (r : TftpClientContext × List Datagram) : Prop :=
  ClientMove c r.1 ∧ (r.2 = [] ∨ r.2 = tftpClientRetransmitPacket c)

theorem moved_stay (c : TftpClientContext) : ClientMoved c (c, []) := ⟨.stay, .inl rfl⟩

theorem moved_data (c : TftpClientContext) (port : Port)
    (hop : be16At c.inPacket 0 = TFTP_OPCODE_DATA) :
    ClientMoved c (tftpClientProcessDataPacket c port) := by
  unfold tftpClientProcessDataPacket
  simp only
  split
  · exact moved_stay c
  · split
    · rename_i hs
      split
      · rename_i hblock
        exact ⟨.data port (.inl hs) hop hblock, .inl rfl⟩
      · exact moved_stay c
    · split
      · rename_i hs
        split
        · rename_i hblock
          exact ⟨.data c.serverTid (.inr hs.1) hop hblock, .inl rfl⟩
        · exact ⟨.stay, .inr rfl⟩
      · exact moved_stay c

theorem moved_ack (c : TftpClientContext) (port : Port)
    (hop : be16At c.inPacket 0 = TFTP_OPCODE_ACK) :
    ClientMoved c (tftpClientProcessAckPacket c port) := by
  unfold tftpClientProcessAckPacket
  split
  · exact moved_stay c
  · split
    · exact moved_stay c
    · rename_i hblock
      have hblock := not_not.mp hblock
      split
      · rename_i hs
        exact ⟨.ack port (.inl hs) hop hblock, .inl rfl⟩
      · split
        · rename_i hs
          exact ⟨.ack c.serverTid (.inr hs.1) hop hblock, .inl rfl⟩
        · split
          · rename_i hs
            exact ⟨.last hs.1 hop hblock, .inl rfl⟩
          · exact moved_stay c

theorem moved_packet (c : TftpClientContext) {src : Endpoint}
    (hip : src.ipAddr = c.serverIpAddr) : ClientMoved c (tftpClientProcessPacket c src) := by
  unfold tftpClientProcessPacket
  rw [if_neg (not_not_intro hip)]
  split
  · exact moved_stay c
  · split
    · rename_i hop
      exact moved_data c src.port hop
    · split
      · rename_i hop
        exact moved_ack c src.port hop
      · split
        · unfold tftpClientProcessErrorPacket
          split
          · exact moved_stay c
          · exact ⟨.error, .inl rfl⟩
        · exact moved_stay c

/-- A turn that waits, when `P` holds of the client and allows what may come in. -/
theorem wait_turn {P : TftpClientContext → Prop} {env : TftpClientEnv} (call : TftpCall)
    (hc : P c) (hown : ∀ c, P c → ∀ k, c.socket = some k → k = own)
    (hR : ∀ c, P c → R (c.outPacket.take c.outPacketLen))
    (htimer : ∀ c time count, P c → P { c with timestamp := time, retransmitCount := count })
    (hin : ∀ src data, env.received = .packet src data →
      P { c with inPacket := data.take TFTP_CLIENT_MAX_PACKET_SIZE } ∧
      (src.ipAddr = c.serverIpAddr → ∀ c',
        ClientMove { c with inPacket := data.take TFTP_CLIENT_MAX_PACKET_SIZE } c' → P c')) :
    P (waitEvents env c call).context ∧ Sends own R (waitEvents env c call).sent ∧
      (waitEvents env c call).moved = [] ∧
      ((waitEvents env c call).next = .again call ∨
        (waitEvents env c call).next = .done .TIMEOUT ∨
        (waitEvents env c call).next = .done .FAILURE) := by
  have hrecv : P (receivePacket env c).1 ∧ Sends own R (receivePacket env c).2.1 ∧
      ((receivePacket env c).2.2 = .NO_ERROR ∨ (receivePacket env c).2.2 = .FAILURE) := by
    unfold receivePacket
    split
    · rename_i src data hr
      obtain ⟨hP, hmove⟩ := hin src data hr
      refine ⟨?_, ?_, .inl rfl⟩
      · by_cases hip : src.ipAddr = c.serverIpAddr
        · exact hmove hip _ (moved_packet { c with
            inPacket := data.take TFTP_CLIENT_MAX_PACKET_SIZE } hip).1
        · simpa [tftpClientProcessPacket, hip] using hP
      · by_cases hip : src.ipAddr = c.serverIpAddr
        · simp only
          rcases (moved_packet { c with
              inPacket := data.take TFTP_CLIENT_MAX_PACKET_SIZE } hip).2 with h | h
          · rw [h]
            exact nofun
          · rw [h]
            exact sends_retransmit (hown _ hP) (hR _ hP)
        · simp only [tftpClientProcessPacket, ne_eq, hip, not_false_eq_true, if_true]
          exact nofun
    · exact ⟨hc, nofun, .inl rfl⟩
    · exact ⟨hc, nofun, .inr rfl⟩
  obtain ⟨hP, hsent, herr⟩ := hrecv
  have hnext : ∀ error, error = .NO_ERROR ∨ error = .FAILURE →
      TftpProgress.unless call error = .again call ∨
        TftpProgress.unless call error = .done .TIMEOUT ∨
        TftpProgress.unless call error = .done .FAILURE := by
    intro error h
    rcases h with rfl | rfl
    · exact .inl rfl
    · exact .inr (.inr rfl)
  unfold waitEvents tftpClientProcessEvents
  simp only
  split
  · split
    · exact ⟨htimer _ _ _ hP, sends_append hsent (sends_retransmit (hown _ hP) (hR _ hP)), trivial,
        hnext _ herr⟩
    · exact ⟨hP, hsent, trivial, .inr (.inl rfl)⟩
  · exact ⟨hP, hsent, trivial, hnext _ herr⟩

end Client

/-! ## Before a transfer -/

/-- Before a transfer: the client is new, and nobody has heard of its address. -/
structure Unheard (own : Endpoint) (s : TftpWorld) : Prop where
  client : ∃ port, s.client = { serverIpAddr := s.server.settings.ipAddr, serverPort := port }
  idle : s.call = none ∧ s.returned = [] ∧ s.moved = []
  connection : ∀ c ∈ s.server.connection, ∀ k, c.socket = some k →
    k.localAddr.ipAddr = s.server.settings.ipAddr ∧ k.remoteAddr ≠ own
  net : ∀ d ∈ s.net, d.src ≠ own ∧ d.dest ≠ own

theorem Unheard.session {own : Endpoint} {s : TftpWorld} (h : Unheard own s)
    (P : TftpClientConnection → Prop) (Q R : List UInt8 → Prop) :
    Session own s.server.settings P Q R s := by
  obtain ⟨port, hclient⟩ := h.client
  refine ⟨rfl, fun c hc k hk => ?_, fun d hd _ hdest => absurd hdest (h.net d hd).2,
    fun d hd hsrc => absurd hsrc (h.net d hd).1, fun k hk => ?_⟩
  · obtain ⟨hl, hr⟩ := h.connection c hc k hk
    exact ⟨hl, fun ho => absurd ho hr⟩
  · rw [hclient] at hk
    cases hk

theorem zero_notMem_modeString (mode : Nat) : (0 : UInt8) ∉ modeString mode := by
  unfold modeString
  split
  · decide
  · decide

/-! ## A server and a client -/

def tftpServerAddr : IpAddr := { length := sizeofIpv4Addr, ipv4Addr := 0x0A000001 }

/-- A server with one file of two bytes. -/
def tftpSettings : TftpServerSettings where
  ipAddr := tftpServerAddr
  port := 69
  openFileCallback := fun _ _ write => some (if write then [] else [0x48, 0x69])

def tftpOwn : Endpoint := ⟨{ length := sizeofIpv4Addr, ipv4Addr := 0x0A000002 }, 50000⟩

def tftpTid : Endpoint := ⟨tftpServerAddr, 50001⟩

def tftpStart : TftpWorld where
  server := tftpServerInit tftpSettings
  client := { serverIpAddr := tftpServerAddr, serverPort := 69 }

theorem fresh_start : Unheard tftpOwn tftpStart := by
  refine ⟨⟨69, rfl⟩, ⟨rfl, rfl, rfl⟩, fun c hc k hk => ?_, nofun⟩
  rw [List.eq_of_mem_replicate hc] at hk
  cases hk

end Cyclone
