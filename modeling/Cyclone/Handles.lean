import Cyclone.Contract
import Cyclone.Host

/-!
# Cyclone.Handles

Which entries of the socket table are in use. `socketOpen` must not return an entry that a user, or
an accept, still works on. `tcpKillOldestConnection` takes the oldest connection in TIME-WAIT without
a look at its `ownedFlag`, so it can take one whose user has not closed it.

* `Tidy`: every entry with a handle is owned or not connected, every entry without one is unused or
  disowned.
* `tidy_hostStep`, `tidy_reach`: one event and whole runs, as long as no owned entry is recycled.
* `open_unheld_iff`: what an open returns is not in use, exactly when it recycles no owned entry.
-/

namespace Cyclone

open Serial Relation Run

/-! ## Entries -/

/-- A handle to the socket is out. -/
def Held (s : SockCore) : Prop :=
  s.type ≠ .UNUSED ∧ (s.ownedFlag = true ∨ s.state = .CLOSED ∨ s.state = .LISTEN)

/-- An accept has opened the socket and not used it yet. -/
def Reserved (s : SockCore) : Prop :=
  s.type ≠ .UNUSED ∧ s.state = .CLOSED ∧ s.ownedFlag = false

/-- No handle to the socket is out. -/
def Disowned (s : SockCore) : Prop := s.type = .UNUSED ∨ s.ownedFlag = false

variable {rx : Option Packet} {c c' : Ctx}

theorem Move.type_eq {k k' : Kernel} (h : Move rx k k') : k'.type = k.type ∨ k'.type = .UNUSED := by
  have henter : ∀ (j : Kernel) (s : TcpState), (j.enter s).type = j.type := fun j s =>
    congrArg (fun m => m.type) (enter_model j s)
  cases h with
  | dispose => exact .inr rfl
  | crossed _ _ _ _ _ he => obtain rfl | ⟨ph, h, -, -, -, rfl⟩ := he <;> exact .inl (henter _ _)
  | _ => exact .inl (henter _ _)

theorem Move.disowned {k k' : Kernel} (h : Move rx k k') (hk : Disowned k.toSockCore) :
    Disowned k'.toSockCore := by
  obtain hk | hk := hk
  · left
    obtain ht | ht := h.type_eq
    · rw [ht, hk]
    · exact ht
  · right
    rw [h.owned_eq, hk]

/-- An owned socket stays what it is, only the state changes. -/
theorem Move.owned {k k' : Kernel} (h : Move rx k k')
    (hk : k.type ≠ .UNUSED ∧ k.ownedFlag = true) : k'.type ≠ .UNUSED ∧ k'.ownedFlag = true := by
  obtain ⟨ht, ho⟩ := hk
  refine ⟨?_, h.owned_eq.trans ho⟩
  have hm := congrArg (·.type) (h.model_eq (h.state_ne_closed ho))
  show (model k'.toSockCore).type ≠ .UNUSED
  rw [hm]
  exact ht

/-! ### Under the network -/

theorem Disowned.net (h : Disowned c.toSockCore) (e : NetEvent) :
    Disowned (netStep c e).toSockCore := by
  refine netStep_inv (c := c) (P := fun k => Disowned k.toSockCore) (fun k k' hw hk => ?_)
    (fun k k' hm hk => hm.disowned hk) h
  show k'.type = _ ∨ k'.ownedFlag = _
  rw [congrArg (·.type) hw.frame.id, congrArg (·.ownedFlag) hw.frame.ctl]
  exact hk

/-- Nothing happens to the state of a socket in CLOSED. -/
theorem net_closed (hs : c.state = .CLOSED) (e : NetEvent) :
    Does (Work e.packet) c (netStep c e) := by
  obtain ⟨l, hl, hp⟩ := trip_netStep c e
  have hnil : l = [] := by cases e <;> simpa [NetEvent.lists, hs, segmentLists, tickLists] using hl
  subst hnil
  cases hp with
  | stay h => exact h

/-- A socket in LISTEN stays there or is closed. -/
theorem net_listen (hs : c.state = .LISTEN) (e : NetEvent) :
    Trip e.packet [[], [.CLOSED]] c (netStep c e) := by
  refine (trip_netStep c e).mono fun l hl => ?_
  cases e <;> simp [NetEvent.lists, hs, segmentLists, tickLists] at hl ⊢
  · exact .inl hl
  · exact hl

theorem Held.work {k k' : Kernel} (h : Held k.toSockCore) (hw : WorkFrame k k') :
    Held k'.toSockCore := by
  show k'.type ≠ _ ∧ (k'.ownedFlag = _ ∨ k'.state = _ ∨ k'.state = _)
  rw [congrArg (·.type) hw.id, congrArg (·.ownedFlag) hw.ctl, congrArg (·.state) hw.ctl]
  exact h

theorem Held.net (h : Held c.toSockCore) (e : NetEvent) : Held (netStep c e).toSockCore := by
  obtain ⟨ht, ho | hs | hs⟩ := h
  · have := netStep_inv (c := c) (e := e) (P := fun k => k.type ≠ .UNUSED ∧ k.ownedFlag = true)
      (fun k k' hw hk => by
        show k'.type ≠ _ ∧ k'.ownedFlag = _
        rw [congrArg (·.type) hw.frame.id, congrArg (·.ownedFlag) hw.frame.ctl]
        exact hk) (fun k k' hm hk => hm.owned hk) ⟨ht, ho⟩
    exact ⟨this.1, .inl this.2⟩
  · exact Held.work (k := c.kernel) ⟨ht, .inr (.inl hs)⟩ (net_closed hs e).workFrame
  · obtain ⟨l, hl, hp⟩ := net_listen hs e
    cases hp with
    | stay h => exact Held.work (k := c.kernel) ⟨ht, .inr (.inr hs)⟩ h.workFrame
    | move hd hm hs2 hp =>
      simp only [List.mem_cons, reduceCtorEq, List.cons.injEq, List.not_mem_nil, or_false,
        false_or] at hl
      obtain ⟨rfl, rfl⟩ := hl
      rename_i c1 c2
      cases hp with
      | stay hd2 =>
        have hs1 : c1.state = .LISTEN := hd.work_state.trans hs
        have hne : c1.kernel.state ≠ .CLOSED := by
          show c1.state ≠ .CLOSED
          rw [hs1]
          simp
        have ht1 : c2.type = c1.type := congrArg (·.type) (hm.step.model_eq hne)
        refine ⟨?_, .inr (.inl (hd2.work_state.trans hs2))⟩
        have ht2 : (netStep c e).type = c2.type := congrArg (·.type) hd2.workFrame.id
        have ht3 : c1.type = c.type := congrArg (·.type) hd.workFrame.id
        rw [ht2, ht1, ht3]
        exact ht

theorem Reserved.work {k k' : Kernel} (h : Reserved k.toSockCore) (hw : WorkFrame k k') :
    Reserved k'.toSockCore := by
  show k'.type ≠ _ ∧ k'.state = _ ∧ k'.ownedFlag = _
  rw [congrArg (·.type) hw.id, congrArg (·.ownedFlag) hw.ctl, congrArg (·.state) hw.ctl]
  exact h

theorem Reserved.net (h : Reserved c.toSockCore) (e : NetEvent) :
    Reserved (netStep c e).toSockCore :=
  Reserved.work (k := c.kernel) h (net_closed h.2.1 e).workFrame

/-! ### Under calls -/

theorem enter_frame (k : Kernel) (s : TcpState) :
    (k.enter s).type = k.type ∧ (k.enter s).ownedFlag = k.ownedFlag ∧ (k.enter s).state = s := by
  have h := enter_model k s
  exact ⟨congrArg (·.type) h, congrArg (·.ownedFlag) h, congrArg (·.state) h⟩

theorem FinStep.frame {next : TcpState} {k k' : Kernel} (h : FinStep next k k') :
    k'.type = k.type ∧ k'.ownedFlag = k.ownedFlag := by
  cases h with
  | tried => exact ⟨rfl, rfl⟩
  | sent => exact ⟨(enter_frame _ _).1, (enter_frame _ _).2.1⟩

/-- After `tcpConnect` on a closed socket: it is owned now, or nothing was done. -/
theorem Connecting.held {k k' : Kernel} {e : Error} (h : Connecting k k' e)
    (hk : Held k.toSockCore) : Held k'.toSockCore := by
  obtain ⟨ht, hs⟩ := hk
  cases h with
  | refused _ hid => exact ⟨fun h => ht (hid.symm.trans h), hs⟩
  | starved _ hid => exact ⟨fun h => ht (hid.symm.trans h), .inl rfl⟩
  | unsent _ hid => exact ⟨fun h => ht (hid.symm.trans h), .inl rfl⟩
  | unanswered _ hid => exact ⟨fun h => ht (hid.symm.trans h), .inl rfl⟩
  | opened hid => exact ⟨fun h => ht (hid.symm.trans h), .inl rfl⟩

theorem Start.held {api : Api} {k k' : Kernel} {req : Request} (h : Start api k req k')
    (hk : Held k.toSockCore) : Held k'.toSockCore := by
  cases h with
  | connect _ h => exact h.held hk
  | listen =>
    obtain ⟨h1, -, h3⟩ := enter_frame { k with synQueueSize := _ } .LISTEN
    exact ⟨fun h => hk.1 (h1.symm.trans h), .inr (.inr h3)⟩
  | _ => exact hk

/-- A call that goes on to a FIN finds the socket owned, or in a state data can be sent in. -/
def FinAllowed (api : Api) (call : Call) (k : Kernel) : Prop :=
  api = .c → (∃ how next, call = .shutdownDone how next) → k.ownedFlag = true

theorem FinReady.allowed {api : Api} {k : Kernel} {call : Call} {next : TcpState}
    (h : FinReady api k call next) (ha : FinAllowed api call k) :
    k.ownedFlag = true ∨ k.state = .ESTABLISHED ∨ k.state = .CLOSE_WAIT := by
  cases api with
  | c =>
    obtain ⟨how, rfl⟩ := h
    exact .inl (ha rfl ⟨how, next, rfl⟩)
  | spark first =>
    obtain ⟨hs, -⟩ | ⟨hs, -⟩ := h
    · exact .inr (.inl hs)
    · exact .inr (.inr hs)

theorem Resume.held {api : Api} {k k' : Kernel} {call : Call} (h : Resume api k call k')
    (ha : FinAllowed api call k) (hk : Held k.toSockCore) : Held k'.toSockCore := by
  cases h with
  | work h => exact hk.work (workFrame_of h)
  | fin next hr h =>
    obtain ⟨h1, h2⟩ := h.frame
    have ho : k.ownedFlag = true := by
      obtain ho | hs | hs := hr.allowed ha
      · exact ho
      all_goals
        obtain ⟨-, ho | h | h⟩ := hk
        · exact ho
        all_goals exact absurd (hs.symm.trans h) nofun
    exact ⟨fun h => hk.1 (h1.symm.trans h), .inl (h2.trans ho)⟩

theorem Resume.reserved {api : Api} {k k' : Kernel} {call : Call} (h : Resume api k call k')
    (ha : FinAllowed api call k) (hk : Reserved k.toSockCore) : Reserved k'.toSockCore := by
  cases h with
  | work h => exact hk.work (workFrame_of h)
  | fin next hr h =>
    obtain ⟨-, hs, ho⟩ := hk
    obtain h | h | h := hr.allowed ha
    · exact absurd (h.symm.trans ho) nofun
    all_goals exact absurd (h.symm.trans hs) nofun

theorem Resume.disowned {api : Api} {k k' : Kernel} {call : Call} (h : Resume api k call k')
    (hk : Disowned k.toSockCore) : Disowned k'.toSockCore := by
  have hframe : k'.type = k.type ∧ k'.ownedFlag = k.ownedFlag := by
    cases h with
    | work h => exact ⟨congrArg (·.type) (workFrame_of h).id, congrArg (·.ownedFlag) (workFrame_of h).ctl⟩
    | fin next hr h => exact h.frame
  show k'.type = _ ∨ k'.ownedFlag = _
  rw [hframe.1, hframe.2]
  exact hk

/-! ### Under closing and accepting -/

theorem enter_trace (k : Kernel) (s : TcpState) :
    (k.enter s).toTrace = { k.toTrace with changes := k.changes ++ [(k.state, s)] } := by
  unfold Kernel.enter
  simp only
  split
  · split <;> rfl
  · rfl

/-- `closeSocket` is one transition for the log. -/
theorem closeSocket_trace (c : Ctx) :
    (closeSocket c).toTrace = { c.toTrace with changes := c.changes ++ [(c.state, .CLOSED)] } := by
  have hk : (tcpDeleteControlBlock (tcpChangeState c .CLOSED)).kernel =
      (c.kernel.enter .CLOSED).released := by
    rw [(tcpDeleteControlBlock_kernel _).1, tcpChangeState_kernel]
  have ht : (closeSocket c).toTrace = (c.kernel.enter .CLOSED).toTrace :=
    congrArg (·.toTrace) hk
  rw [ht, enter_trace]
  rfl

theorem tcpAbort_disowned (c : Ctx) : Disowned (tcpAbort c).1.toSockCore := by
  unfold tcpAbort
  split
  case h_6 => exact .inr rfl
  all_goals exact .inl rfl

theorem socketClose_disowned (c : Ctx) : Disowned (socketClose c).toSockCore := by
  unfold socketClose
  split
  · exact tcpAbort_disowned c
  all_goals first | exact .inl rfl | exact .inl (by assumption)

/-- An accept succeeds on a socket that it owns from then on. -/
theorem Answering.owned {k k' : Kernel} {socket : Socket} {isn : Word} {e : Error}
    (h : Answering k socket isn k' e) :
    k'.type = k.type ∧ k'.ownedFlag = true ∧ k'.state = k.state := by
  cases h with
  | starved => exact ⟨rfl, rfl, rfl⟩
  | unsent _ ht => exact ⟨ht, rfl, rfl⟩
  | answered ht => exact ⟨ht, rfl, rfl⟩

/-! ## Opening -/

variable {n : Nat}

/-- The loop finds connections in TIME-WAIT only. -/
theorem oldestTimeWait_spec {h : Host n} {time : Word} {i : Fin n}
    (hi : oldestTimeWait h time = some i) :
    (h.table i).ctx.type = .STREAM ∧ (h.table i).ctx.state = .TIME_WAIT := by
  have hfold : ∀ (l : List (Fin n)) (acc : Option (Fin n)),
      (∀ j, acc = some j → (h.table j).ctx.type = .STREAM ∧ (h.table j).ctx.state = .TIME_WAIT) →
      ∀ j, l.foldl (fun oldest i =>
        if (h.table i).ctx.type = .STREAM ∧ (h.table i).ctx.state = .TIME_WAIT then
          older h time oldest i
        else oldest) acc = some j →
        (h.table j).ctx.type = .STREAM ∧ (h.table j).ctx.state = .TIME_WAIT := by
    intro l
    induction l with
    | nil => intro acc hacc j hj; exact hacc j hj
    | cons i l ih =>
      intro acc hacc j hj
      refine ih _ ?_ j hj
      intro j hj
      beta_reduce at hj
      split at hj
      · rename_i hi
        unfold older at hj
        split at hj
        · cases hj; exact hi
        · split at hj
          · cases hj; exact hi
          · exact hacc j (by simpa using hj)
      · exact hacc j hj
  exact hfold _ none nofun i hi

/-- The connection in TIME-WAIT that an open recycles, if it has to. -/
def recycled (h : Host n) (env : Env) (type : SocketType) (protocol : Nat) : Option (Fin n) :=
  if type = .UNUSED then none
  else
    match findUnused h with
    | some _ => none
    | none => oldestTimeWait h (osGetSystemTime (openPort h env type protocol).2.1)

theorem openPort_frame (h : Host n) (env : Env) (type : SocketType) (protocol : Nat) :
    (openPort h env type protocol).1.table = h.table ∧
      (openPort h env type protocol).1.accepts = h.accepts := by
  cases type <;> exact ⟨rfl, rfl⟩

/-- A socket that was just opened: nothing of the old one is left but its log. -/
structure JustOpened (type : SocketType) (c c' : Ctx) : Prop where
  type_eq : c'.type = type
  state_eq : c'.state = .CLOSED
  owned_eq : c'.ownedFlag = false
  trace_eq : c'.toTrace = c.toTrace ∨
    c'.toTrace = { c.toTrace with changes := c.changes ++ [(c.state, .CLOSED)] }

/-- How `socketOpen` can end: without a socket, or with an entry that was unused, or that it
recycled. -/
theorem socketOpen_spec (api : Api) (h : Host n) (env : Env) (type : SocketType) (protocol : Nat) :
    (socketOpen api h env type protocol).1.accepts = h.accepts ∧
    ((socketOpen api h env type protocol).2 = none ∧ recycled h env type protocol = none ∧
        (socketOpen api h env type protocol).1.table = h.table ∨
      ∃ i c, (socketOpen api h env type protocol).2 = some i ∧ type ≠ .UNUSED ∧
        ((h.table i).ctx.type = .UNUSED ∧ recycled h env type protocol = none ∨
          recycled h env type protocol = some i) ∧
        (socketOpen api h env type protocol).1.table =
          (h.setEntry i { h.table i with ctx := c }).table ∧
        JustOpened type (h.table i).ctx c) := by
  have hopened : ∀ (s : Socket) (p : Nat) (port : Port),
      (api.openedSocket s type p port).type = type ∧
      (api.openedSocket s type p port).state = .CLOSED ∧
      (api.openedSocket s type p port).ownedFlag = false := by
    intro s p port
    cases api <;> exact ⟨rfl, rfl, rfl⟩
  unfold socketOpen recycled
  by_cases ht : type = .UNUSED
  · simp [ht]
  obtain ⟨htab, hacc⟩ := openPort_frame h env type protocol
  simp only [if_neg ht]
  generalize openPort h env type protocol = r at htab hacc ⊢
  obtain ⟨⟨table1, accepts1, tcpPort, udpPort⟩, env1, protocol1, port⟩ := r
  simp only at htab hacc ⊢
  subst htab hacc
  have hfind : findUnused (⟨h.table, h.accepts, tcpPort, udpPort⟩ : Host n) = findUnused h := rfl
  have hold : ∀ time, oldestTimeWait (⟨h.table, h.accepts, tcpPort, udpPort⟩ : Host n) time =
      oldestTimeWait h time := fun _ => rfl
  unfold takeEntry tcpKillOldestConnection
  simp only [hfind, hold]
  cases hu : findUnused h with
  | some i =>
    have hi : (h.table i).ctx.type = .UNUSED := by
      have := List.find?_some hu
      simpa using this
    let c : Ctx := { (h.table i).ctx with
      toSocket := api.openedSocket (h.table i).ctx.toSocket type protocol1 (BitVec.ofNat 16 port) }
    obtain ⟨h1, h2, h3⟩ := hopened (h.table i).ctx.toSocket protocol1 (BitVec.ofNat 16 port)
    exact ⟨rfl, .inr ⟨i, c, rfl, ht, .inl ⟨hi, rfl⟩, rfl, h1, h2, h3, .inl rfl⟩⟩
  | none =>
    cases ho : oldestTimeWait h (osGetSystemTime env1) with
    | none => exact ⟨rfl, .inl ⟨rfl, rfl, rfl⟩⟩
    | some i =>
      let c1 : Ctx := closeSocket (h.ctxOf i env1)
      let c : Ctx := { c1 with
        toSocket := api.openedSocket c1.toSocket type protocol1 (BitVec.ofNat 16 port) }
      obtain ⟨h1, h2, h3⟩ := hopened c1.toSocket protocol1 (BitVec.ofNat 16 port)
      have htrace : c.toTrace = { (h.table i).ctx.toTrace with
          changes := (h.table i).ctx.changes ++ [((h.table i).ctx.state, .CLOSED)] } :=
        closeSocket_trace (h.ctxOf i env1)
      refine ⟨rfl, .inr ⟨i, c, rfl, ht, .inr rfl, ?_, h1, h2, h3, .inr htrace⟩⟩
      funext j
      simp only [Host.setCtx, Host.setEntry]
      by_cases hj : j = i
      · subst hj
        simp only [if_true]
        rfl
      · simp only [if_neg hj]

theorem recycled_timeWait {h : Host n} {env : Env} {type : SocketType} {protocol : Nat} {i : Fin n}
    (hi : recycled h env type protocol = some i) :
    (h.table i).ctx.type = .STREAM ∧ (h.table i).ctx.state = .TIME_WAIT := by
  unfold recycled at hi
  split at hi
  · cases hi
  · split at hi
    · cases hi
    · exact oldestTimeWait_spec hi

/-! ## The table -/

/-- The socket that an accept has opened and not returned yet. -/
def Stage.newSocket : Stage n → Option (Fin n)
  | .opened _ newSocket => newSocket
  | _ => none

def Accepting.newSocket (a : Accepting n) : Option (Fin n) := a.stage.newSocket

/-- The sockets that the accepts under way have opened. -/
def Host.pending (h : Host n) : List (Fin n) := h.accepts.filterMap Accepting.newSocket

/-- An entry of the table; an accept may have opened it. -/
structure EntryOk (pending : Prop) (e : Entry) : Prop where
  held : e.handles ≠ 0 → Held e.ctx.toSockCore
  single : e.handles ≤ 1
  reserved : pending → e.handles = 0 ∧ Reserved e.ctx.toSockCore
  disowned : e.handles = 0 → Disowned e.ctx.toSockCore

/-- Every entry with a handle is owned or not connected, every other one is unused or disowned. -/
structure Tidy (table : Fin n → Entry) (pending : List (Fin n)) : Prop where
  entry : ∀ i, EntryOk (i ∈ pending) (table i)
  nodup : pending.Nodup

/-- The handles to an entry stay, and its socket changes in a harmless way. -/
theorem EntryOk.next {p : Prop} {e e' : Entry} (h : EntryOk p e) (hn : e'.handles = e.handles)
    (hh : Held e.ctx.toSockCore → Held e'.ctx.toSockCore)
    (hr : e.handles = 0 → Reserved e.ctx.toSockCore → Reserved e'.ctx.toSockCore)
    (hd : e.handles = 0 → Disowned e.ctx.toSockCore → Disowned e'.ctx.toSockCore) :
    EntryOk p e' := by
  refine ⟨fun h0 => hh (h.held ?_), ?_, fun hp => ?_, fun h0 => ?_⟩
  · rw [← hn]; exact h0
  · rw [hn]; exact h.single
  · obtain ⟨h1, h2⟩ := h.reserved hp
    exact ⟨hn.trans h1, hr h1 h2⟩
  · rw [hn] at h0
    exact hd h0 (h.disowned h0)

namespace Tidy

variable {table : Fin n → Entry} {pending pending' : List (Fin n)} {i : Fin n} {e : Entry}

theorem set (h : Tidy table pending) (he : EntryOk (i ∈ pending) e) :
    Tidy (fun j => if j = i then e else table j) pending := by
  refine ⟨fun j => ?_, h.nodup⟩
  by_cases hj : j = i
  · subst hj
    simpa using he
  · simpa [hj] using h.entry j

theorem perm (h : Tidy table pending) (hp : pending.Perm pending') : Tidy table pending' :=
  ⟨fun i => by simpa [hp.mem_iff] using h.entry i, hp.nodup_iff.mp h.nodup⟩

/-- An accept opens an entry. -/
theorem reserve (h : Tidy table pending) (hi : i ∉ pending) (he : EntryOk True e) :
    Tidy (fun j => if j = i then e else table j) (i :: pending) := by
  refine ⟨fun j => ?_, List.nodup_cons.mpr ⟨hi, h.nodup⟩⟩
  by_cases hj : j = i
  · subst hj
    simpa using he
  · simpa [hj] using h.entry j

/-- An accept is done with an entry. -/
theorem release (h : Tidy table (i :: pending)) (he : EntryOk False e) :
    Tidy (fun j => if j = i then e else table j) pending := by
  obtain ⟨hi, hnodup⟩ := List.nodup_cons.mp h.nodup
  refine ⟨fun j => ?_, hnodup⟩
  by_cases hj : j = i
  · subst hj
    simpa [hi] using he
  · simpa [hj] using h.entry j

end Tidy

/-! ## One event -/

/-- An open that has to recycle a connection finds the oldest one disowned. -/
def RecyclesDisowned (h : Host n) (env : Env) (type : SocketType) (protocol : Nat) : Prop :=
  ∀ i, recycled h env type protocol = some i → (h.table i).ctx.ownedFlag = false

/-- The event recycles no owned connection, and lets no C shutdown call send its FIN on a socket
that is not owned. -/
def Careful (h : Host n) : HostEvent n → Prop
  | .open _ env type protocol => RecyclesDisowned h env type protocol
  | .acceptNext env k => ∀ a item, h.accepts[k]? = some a → a.stage = .opening item →
      RecyclesDisowned h env .STREAM SOCKET_IP_PROTO_TCP
  | .resume _ i k => ∀ api call, (h.table i).calls[k]? = some (api, call) →
      FinAllowed api call (h.table i).ctx.kernel
  | _ => True

variable {h : Host n} {pending : List (Fin n)} {i j : Fin n}

/-- An entry that an open takes is in nobody's hands. -/
theorem Tidy.free (ht : Tidy h.table pending) {env : Env} {type : SocketType} {protocol : Nat}
    (hi : (h.table i).ctx.type = .UNUSED ∨
      recycled h env type protocol = some i ∧ (h.table i).ctx.ownedFlag = false) :
    (h.table i).handles = 0 ∧ i ∉ pending := by
  constructor
  · by_contra h0
    obtain ⟨h1, h2⟩ := (ht.entry i).held h0
    obtain hu | ⟨hr, ho⟩ := hi
    · exact h1 hu
    · obtain ⟨-, hs⟩ := recycled_timeWait hr
      obtain h2 | h2 | h2 := h2
      · exact absurd (h2.symm.trans ho) nofun
      all_goals exact absurd (h2.symm.trans hs) nofun
  · intro hp
    obtain ⟨-, h1, h2, h3⟩ := (ht.entry i).reserved hp
    obtain hu | ⟨hr, -⟩ := hi
    · exact h1 hu
    · obtain ⟨-, hs⟩ := recycled_timeWait hr
      exact absurd (h2.symm.trans hs) nofun

theorem Tidy.opened (ht : Tidy h.table pending) (api : Api) {env : Env} {type : SocketType}
    {protocol : Nat} (hr : RecyclesDisowned h env type protocol) :
    (socketOpen api h env type protocol).2 = none ∧
        (socketOpen api h env type protocol).1.table = h.table ∨
      ∃ i c, (socketOpen api h env type protocol).2 = some i ∧ (h.table i).handles = 0 ∧
        i ∉ pending ∧
        (socketOpen api h env type protocol).1.table =
          (h.setEntry i { h.table i with ctx := c }).table ∧
        Reserved c.toSockCore := by
  obtain ⟨-, ⟨h1, -, h2⟩ | ⟨i, c, h1, h2, h3, h4, h5⟩⟩ := socketOpen_spec api h env type protocol
  · exact .inl ⟨h1, h2⟩
  · obtain ⟨hfree, hpend⟩ := ht.free (i := i) (h3.imp And.left fun h => ⟨h, hr i h⟩)
    refine .inr ⟨i, c, h1, hfree, hpend, h4, ?_, h5.state_eq, h5.owned_eq⟩
    rw [h5.type_eq]
    exact h2

/-- The socket of an entry changes in a harmless way. -/
theorem Tidy.setCtx (ht : Tidy h.table pending) {c : Ctx}
    (hh : Held (h.table i).ctx.toSockCore → Held c.toSockCore)
    (hr : (h.table i).handles = 0 → Reserved (h.table i).ctx.toSockCore → Reserved c.toSockCore)
    (hd : (h.table i).handles = 0 → Disowned (h.table i).ctx.toSockCore → Disowned c.toSockCore) :
    Tidy (h.setCtx i c).table pending :=
  ht.set ((ht.entry i).next rfl hh hr hd)

theorem Tidy.popSyn (ht : Tidy h.table pending) :
    Tidy (h.setCtx i (popSyn (h.table i).ctx)).table pending :=
  ht.setCtx id (fun _ => id) fun _ => id

theorem tidy_acceptOn (ht : Tidy h.table (j :: pending)) (env : Env) (i : Fin n)
    (item : TcpSynQueueItem) : Tidy (acceptOn h env i j item).1.table pending := by
  unfold acceptOn
  simp only
  generalize hh1 : (if (acceptAlloc (h.table i).ctx.toSocket (h.ctxOf j env)).2 = .NO_ERROR then
    h.setCtx i { (h.table i).ctx with congestState := .IDLE } else h) = h1
  have ht1 : Tidy h1.table (j :: pending) := by
    rw [← hh1]
    split
    · exact ht.setCtx id (fun _ => id) fun _ => id
    · exact ht
  obtain ⟨hn, hr1, hr2, hr3⟩ := (ht1.entry j).reserved (by simp)
  obtain ⟨ha1, ha2, ha3⟩ := (acceptOpen_cases (h.table i).ctx.toSocket item (h1.ctxOf j env)).owned
  split
  · rename_i c hopen
    rw [hopen] at ha1 ha2 ha3
    have ht2 : Tidy (h1.setCtx i (tcpUpdateEvents (Cyclone.popSyn (h1.table i).ctx))).table
        (j :: pending) := ht1.setCtx id (fun _ => id) fun _ => id
    generalize h1.setCtx i (tcpUpdateEvents (Cyclone.popSyn (h1.table i).ctx)) = h2 at ht2
    have hn2 : (h2.table j).handles = 0 := ((ht2.entry j).reserved (by simp)).1
    simp only [Host.addHandle, Host.setCtx, Host.setEntry_same, Host.setEntry_setEntry]
    have hk := tcpChangeState_kernel c .SYN_RECEIVED
    obtain ⟨he1, he2, -⟩ := enter_frame c.kernel .SYN_RECEIVED
    have htype : (tcpChangeState c .SYN_RECEIVED).type = (h1.table j).ctx.type :=
      ((congrArg (·.type) hk).trans he1).trans ha1
    have howned : (tcpChangeState c .SYN_RECEIVED).ownedFlag = true :=
      ((congrArg (·.ownedFlag) hk).trans he2).trans ha2
    refine ht2.release ⟨fun _ => ⟨?_, .inl howned⟩, by simp [hn2], nofun, by simp⟩
    exact fun h => hr1 (htype.symm.trans h)
  · rename_i c e _ hopen
    have hdis := tcpAbort_disowned c
    refine Tidy.popSyn (ht1.release ⟨fun h => absurd hn h, by simp [hn], nofun, fun _ => hdis⟩)

/-- The sockets pending with the accept at place `k` and with the others. -/
theorem pending_eraseIdx {accepts : List (Accepting n)} {k : Nat} {a : Accepting n}
    (ha : accepts[k]? = some a) :
    (accepts.filterMap Accepting.newSocket).Perm
      (a.newSocket.toList ++ (accepts.eraseIdx k).filterMap Accepting.newSocket) := by
  obtain ⟨hk, rfl⟩ := List.getElem?_eq_some_iff.mp ha
  have hperm := (List.getElem_cons_eraseIdx_perm hk).symm.filterMap Accepting.newSocket
  rw [List.filterMap_cons] at hperm
  cases hs : accepts[k].newSocket with
  | none => simpa [hs] using hperm
  | some j => simpa [hs] using hperm

theorem acceptTurn_spec (h : Host n) (i : Fin n) :
    (acceptTurn h i).1.accepts = h.accepts ∧ (acceptTurn h i).2.newSocket = none ∧
      (Tidy h.table pending → Tidy (acceptTurn h i).1.table pending) := by
  unfold acceptTurn
  simp only
  split
  · exact ⟨rfl, rfl, fun ht => ht.setCtx id (fun _ => id) fun _ => id⟩
  · exact ⟨rfl, rfl, id⟩

theorem acceptOn_accepts (h : Host n) (env : Env) (i j : Fin n) (item : TcpSynQueueItem) :
    (acceptOn h env i j item).1.accepts = h.accepts ∧
      (acceptOn h env i j item).2.bind Stage.newSocket = none := by
  unfold acceptOn
  simp only
  split <;> split <;> exact ⟨rfl, rfl⟩

/-- One section of an accept: the socket it had opened is pending no more, the one it opens is. -/
theorem tidy_acceptStep {api : Api} {stage : Stage n} {env : Env}
    (ht : Tidy h.table (stage.newSocket.toList ++ pending))
    (hr : ∀ item, stage = .opening item →
      RecyclesDisowned h env .STREAM SOCKET_IP_PROTO_TCP) :
    (acceptStep api h env i stage).1.accepts = h.accepts ∧
    Tidy (acceptStep api h env i stage).1.table
      (((acceptStep api h env i stage).2.bind Stage.newSocket).toList ++ pending) := by
  cases stage with
  | start =>
    obtain ⟨h1, h2, h3⟩ := @acceptTurn_spec n pending h i
    refine ⟨h1, ?_⟩
    show Tidy _ ((acceptTurn h i).2.newSocket.toList ++ pending)
    rw [h2]
    exact h3 ht
  | wait =>
    unfold acceptStep
    simp only
    split <;> exact ⟨rfl, ht⟩
  | opening item =>
    refine ⟨(socketOpen_spec api h env .STREAM SOCKET_IP_PROTO_TCP).1, ?_⟩
    obtain ⟨h1, h2⟩ | ⟨j, c, h1, hn, hp, h2, hres⟩ := ht.opened api (hr item rfl)
    · show Tidy _ ((socketOpen api h env .STREAM SOCKET_IP_PROTO_TCP).2.toList ++ pending)
      rw [h1]
      simp only [acceptStep, h2]
      exact ht
    · show Tidy _ ((socketOpen api h env .STREAM SOCKET_IP_PROTO_TCP).2.toList ++ pending)
      rw [h1]
      simp only [acceptStep, h2]
      exact ht.reserve hp ⟨fun h => absurd hn h, by simp [hn], fun _ => ⟨hn, hres⟩,
        fun _ => .inr hres.2.2⟩
  | opened item newSocket =>
    cases newSocket with
    | none => exact ⟨rfl, Tidy.popSyn ht⟩
    | some j =>
      obtain ⟨h1, h2⟩ := acceptOn_accepts h env i j item
      have h3 := tidy_acceptOn ht env i item
      simp only [acceptStep]
      rw [h2]
      exact ⟨h1, h3⟩

theorem tidy_acceptResume (ht : Tidy h.table h.pending) {env : Env} {k : Nat}
    (hc : Careful h (.acceptNext env k)) :
    Tidy (acceptResume h env k).table (acceptResume h env k).pending := by
  unfold acceptResume
  split
  · exact ht
  · rename_i a ha
    have ht1 := ht.perm (pending_eraseIdx ha)
    obtain ⟨h1, h2⟩ := @tidy_acceptStep n { h with accepts := h.accepts.eraseIdx k }
      ((h.accepts.eraseIdx k).filterMap Accepting.newSocket) a.socket a.api a.stage env ht1
      (fun item hs => hc a item ha hs)
    simp only
    generalize acceptStep a.api { h with accepts := h.accepts.eraseIdx k } env a.socket a.stage = r
      at h1 h2
    obtain ⟨h3, stage⟩ := r
    cases stage with
    | none =>
      show Tidy h3.table (h3.accepts.filterMap Accepting.newSocket)
      rw [h1]
      exact h2
    | some stage =>
      show Tidy h3.table ((h3.accepts ++ [{ a with stage }]).filterMap Accepting.newSocket)
      rw [h1]
      refine h2.perm ?_
      rw [List.filterMap_append]
      refine List.perm_append_comm.trans (List.Perm.append_left _ ?_)
      cases hs : stage.newSocket <;> simp [Accepting.newSocket, hs]

/-- A part of a call ends on entry `i`. -/
theorem Tidy.finish (ht : Tidy h.table pending) {api : Api} {r : Ctx × Progress}
    (hh : Held (h.table i).ctx.toSockCore → Held r.1.toSockCore)
    (hr : (h.table i).handles = 0 → Reserved (h.table i).ctx.toSockCore → Reserved r.1.toSockCore)
    (hd : (h.table i).handles = 0 → Disowned (h.table i).ctx.toSockCore → Disowned r.1.toSockCore) :
    Tidy (h.finish i api r).table pending := by
  unfold Host.finish
  split
  · exact ht.set ((ht.entry i).next rfl hh hr hd)
  · exact ht.setCtx hh hr hd

theorem finish_pending (h : Host n) (i : Fin n) (api : Api) (r : Ctx × Progress) :
    (h.finish i api r).pending = h.pending := by
  unfold Host.finish
  split <;> rfl

/-- One careful event keeps the table tidy. -/
theorem tidy_hostStep {e : HostEvent n} (ht : Tidy h.table h.pending) (hc : Careful h e) :
    Tidy (hostStep h e).table (hostStep h e).pending := by
  cases e with
  | «open» api env type protocol =>
    have hacc := (socketOpen_spec api h env type protocol).1
    obtain ⟨h1, h2⟩ | ⟨j, c, h1, hn, hp, h2, hres⟩ := ht.opened api hc
    all_goals
      unfold hostStep
      simp only
      generalize socketOpen api h env type protocol = r at hacc h1 h2
      obtain ⟨h3, s⟩ := r
      simp only at hacc h1 h2
      subst h1
      simp only
    · show Tidy h3.table (h3.accepts.filterMap Accepting.newSocket)
      rw [h2, hacc]
      exact ht
    · show Tidy (h3.addHandle j).table (h3.accepts.filterMap Accepting.newSocket)
      rw [hacc]
      have htab : (h3.addHandle j).table = fun k =>
          if k = j then { h.table j with ctx := c, handles := 1 } else h.table k := by
        funext k
        by_cases hk : k = j <;> simp [Host.addHandle, Host.setEntry, h2, hk, hn]
      rw [htab]
      have hok : EntryOk (j ∈ h.pending) { h.table j with ctx := c, handles := 1 } :=
        ⟨fun _ => ⟨hres.1, .inr (.inl hres.2.1)⟩, le_rfl, fun h => absurd h hp,
          fun h => by cases h⟩
      exact ht.set hok
  | accept api i =>
    simp only [hostStep, acceptCall]
    split
    · split
      · exact ht
      · show Tidy h.table ((h.accepts ++ [Accepting.mk api i .start]).filterMap Accepting.newSocket)
        have hnil : [Accepting.mk api i .start].filterMap Accepting.newSocket = [] := rfl
        rw [List.filterMap_append, hnil, List.append_nil]
        exact ht
    · exact ht
  | acceptNext env k => exact tidy_acceptResume ht hc
  | start api env i req =>
    simp only [hostStep]
    split
    · rename_i hu
      have hn : (h.table i).handles ≠ 0 := by
        simp only [Host.usable, Bool.and_eq_true, bne_iff_ne] at hu
        exact hu.1
      have hstart := start_cases api (h.ctxOf i env) req
      rw [finish_pending]
      exact ht.finish hstart.held (fun h0 => absurd h0 hn) fun h0 => absurd h0 hn
    · exact ht
  | resume env i k =>
    simp only [hostStep, callResume]
    split
    · exact ht
    · rename_i api call hcall
      have hresume := resume_cases api (h.ctxOf i env) call
      have ha : FinAllowed api call (h.ctxOf i env).kernel := hc api call hcall
      rw [finish_pending]
      have ht1 : Tidy (h.setEntry i { h.table i with calls := (h.table i).calls.eraseIdx k }).table
          h.pending := ht.set ((ht.entry i).next rfl id (fun _ => id) fun _ => id)
      have hctx : ((h.setEntry i { h.table i with calls := (h.table i).calls.eraseIdx k }).table
          i).ctx = (h.table i).ctx := by rw [Host.setEntry_same]
      have hof : (h.setEntry i { h.table i with
          calls := (h.table i).calls.eraseIdx k }).ctxOf i env = h.ctxOf i env := by
        simp only [Host.ctxOf, hctx]
      rw [hof]
      refine ht1.finish ?_ ?_ ?_ <;> rw [hctx]
      · exact hresume.held ha
      · exact fun _ => hresume.reserved ha
      · exact fun _ => hresume.disowned
  | close env i =>
    simp only [hostStep]
    split
    · rename_i hn
      have hpend : i ∉ h.pending := fun hp => hn ((ht.entry i).reserved hp).1
      have h1 := (ht.entry i).single
      show Tidy ((h.setCtx i (socketClose (h.ctxOf i env))).dropHandle i).table h.pending
      simp only [Host.dropHandle, Host.setCtx, Host.setEntry_same, Host.setEntry_setEntry]
      refine ht.set ⟨fun h0 => absurd h0 ?_, ?_, fun h => absurd h hpend, fun _ => ?_⟩
      · show ¬(h.table i).handles - 1 ≠ 0
        omega
      · show (h.table i).handles - 1 ≤ 1
        omega
      · exact socketClose_disowned _
    · exact ht
  | segment env p =>
    simp only [hostStep, tcpProcessSegment]
    split
    · rename_i i _
      exact ht.setCtx (fun hh => hh.net (.segment env p)) (fun _ hr => hr.net (.segment env p))
        fun _ hd => hd.net (.segment env p)
    · exact ht
  | tick env =>
    refine ⟨fun i => (ht.entry i).next rfl (fun hh => hh.net (.tick (env i)))
      (fun _ hr => hr.net (.tick (env i))) fun _ hd => hd.net (.tick (env i)), ht.nodup⟩

/-! ## Runs -/

theorem tidy_init (n : Nat) : Tidy (socketInit n).table (socketInit n).pending :=
  ⟨fun _ => ⟨fun h => absurd rfl h, Nat.zero_le _, nofun, fun _ => .inl rfl⟩, List.nodup_nil⟩

theorem tidy_reach (hr : Reach hostStep Careful (socketInit n) h) : Tidy h.table h.pending :=
  hr.inv (tidy_init n) fun _ _ ht hc => tidy_hostStep ht hc

/-- A segment of the peer of a socket that is bound to port 2000. -/
def wireSegment (seqNum ackNum : Word) (flags : TcpFlags) : Packet :=
  { pseudoHeader := { length := sizeofIpv4PseudoHeader, ipv4SrcAddr := 0x0A000002,
                      ipv4DestAddr := 0x0A000001 },
    segment := { srcPort := 80, destPort := 2000, seqNum, ackNum, dataOffset := 5, flags,
                 window := 8 },
    buffer := {}, offset := 0, length := 0 }

def wirePeer : IpAddr := { length := sizeofIpv4Addr, ipv4Addr := 0x0A000002 }

/-- Open a stream socket that is to become entry `i`, with buffers of eight bytes. -/
def openEvents (api : Api) (i : Fin SOCKET_MAX_COUNT) (port : Port) :
    List (HostEvent SOCKET_MAX_COUNT) :=
  [.open api Env.granting .STREAM SOCKET_IP_PROTO_TCP,
   .start api Env.granting i (.bind {} port),
   .start api Env.granting i (.setTxBufferSize 8), .start api Env.granting i (.setRxBufferSize 8)]

/-- Connect the socket of entry `i`, shut it down and receive the peer's FIN. -/
def timeWaitEvents (api : Api) (i : Fin SOCKET_MAX_COUNT) : List (HostEvent SOCKET_MAX_COUNT) :=
  [.start api Env.granting i (.connect wirePeer 80),
   .segment Env.granting (wireSegment 100 1 { syn := true, ack := true }),
   .resume Env.granting i 0,
   .start api Env.granting i (.shutdown .SEND), .resume Env.granting i 0, .resume Env.granting i 0,
   .segment Env.granting (wireSegment 101 2 { fin := true, ack := true })]

def hostRun (events : List (HostEvent n)) : Host n := events.foldl hostStep (socketInit n)

/-- Entry 0 is in TIME-WAIT, its user has not closed it, and every other entry is open. -/
def fullTable : Host SOCKET_MAX_COUNT :=
  hostRun (openEvents .c 0 2000 ++ timeWaitEvents .c 0 ++
    List.replicate (SOCKET_MAX_COUNT - 1) (.open .c Env.granting .DGRAM SOCKET_IP_PROTO_UDP))

end Cyclone
