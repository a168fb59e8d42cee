import Cyclone.Sections
import Cyclone.Handles

/-!
# Cyclone.Entries

The host seen from one entry of its table. An event of the host is a run of sections on every
entry, so what all sections keep holds of every socket of every reachable host.

* `host_sections`: the sections of an event, with the circumstances each of them happens in.
* `entry_inv`: an invariant of the sections is one of the entries.
-/

namespace Cyclone

open Serial Relation Run

variable {n : Nat} {h : Host n} {i j : Fin n} {c c' : Ctx}

/-! ## Suspended calls -/

def Progress.sound : Progress → Bool
  | .blocked call => call.sound
  | .done _ => true

theorem receiveMore_sound (c : Ctx) (data : List UInt8) (received : Nat) (flags : SocketFlags) :
    (receiveMore c data received flags).2.sound := by
  unfold receiveMore
  split <;> rfl

theorem shutdownReceive_sound (c : Ctx) (how : SocketShutdownFlags) :
    (shutdownReceive c how).2.sound := by
  unfold shutdownReceive
  split
  · split <;> rfl
  · rfl

theorem shutdownSent_sound (c : Ctx) (how : SocketShutdownFlags) (next : TcpState) :
    (shutdownSent c how next).2.sound := by
  unfold shutdownSent
  split <;> rfl

theorem shutdownSend_sound (c : Ctx) (how : SocketShutdownFlags) :
    (Spark.shutdownSend c how).2.sound := by
  unfold Spark.shutdownSend
  split <;> first | rfl | exact shutdownSent_sound _ _ _ | exact shutdownReceive_sound _ _

theorem start_sound (api : Api) (c : Ctx) (req : Request) : (start api c req).2.sound := by
  cases req with
  | connect a p =>
    simp only [start, tcpConnect]
    split
    · split <;> rfl
    · rfl
  | listen backlog => cases api <;> rfl
  | send data flags =>
    simp only [start, tcpSend]
    split <;> rfl
  | receive data flags =>
    cases api with
    | c =>
      simp only [start, tcpReceiveStart]
      split
      · rfl
      · exact receiveMore_sound _ _ _ _
    | spark first => exact receiveMore_sound _ _ _ _
  | shutdown how =>
    cases api with
    | c =>
      simp only [start, tcpShutdown]
      split
      · split <;> first | rfl | exact shutdownReceive_sound _ _
      · exact shutdownReceive_sound _ _
    | spark first =>
      simp only [start, Spark.tcpShutdown]
      split
      · split
        · rfl
        · exact shutdownSend_sound _ _
      · exact shutdownReceive_sound _ _
  | setTxBufferSize size => rfl
  | setRxBufferSize size => rfl
  | bind a p => rfl

theorem resume_sound (api : Api) (c : Ctx) (call : Call) (hc : call.sound) :
    (resumeCall api c call).2.sound := by
  have hreceive : ∀ cut data received flags,
      (receiveTurn cut c data received flags).2.sound := by
    intro cut data received flags
    unfold receiveTurn
    split
    · rfl
    · exact receiveMore_sound _ _ _ _
  cases call with
  | connect =>
    cases api <;> simp only [resumeCall, resume, Spark.resume, resumeConnect] <;>
      (repeat' split) <;> rfl
  | send data flags =>
    cases api <;> simp only [resumeCall, resume, Spark.resume, resumeSend] <;>
      (repeat' split) <;> rfl
  | sendAck =>
    cases api <;> simp only [resumeCall, resume, Spark.resume, resumeSendAck] <;>
      (repeat' split) <;> rfl
  | receive data received flags => cases api <;> exact hreceive _ _ _ _
  | shutdownFlush how next =>
    have hflush : (resumeShutdownFlush c how next).2.sound := by
      unfold resumeShutdownFlush
      split
      · rfl
      · exact hc
    cases api <;> exact hflush
  | shutdownDone how next =>
    cases api with
    | c =>
      simp only [resumeCall, resume, resumeShutdownDone]
      split
      · rfl
      · exact shutdownSent_sound _ _ _
    | spark first =>
      simp only [resumeCall, Spark.resume, Spark.resumeShutdownDone]
      split
      · rfl
      · exact shutdownSend_sound _ _
  | shutdownTx how =>
    cases api <;> simp only [resumeCall, resume, Spark.resume, resumeShutdownTx] <;> split <;>
      first | rfl | exact shutdownReceive_sound _ _
  | shutdownRx => cases api <;> rfl

/-- All suspended calls of the table are ones the code can have suspended. -/
def SoundCalls (h : Host n) : Prop := ∀ i, ∀ cl ∈ (h.table i).calls, cl.2.sound

/-! ## Sections of an event -/

/-- The circumstances in which a section of event `e` happens to entry `i`, in state `c`. -/
def Allowed (h : Host n) (e : HostEvent n) (i : Fin n) (c : Ctx) : Section → Prop
  | .env _ | .close | .popSyn _ | .resetCongestion => True
  | .net (.segment env p) =>
    e = .segment env p ∧ findSocket h p = some i ∧ c = (h.table i).ctx
  | .net (.tick _) => c = (h.table i).ctx
  | .start api req => ∃ env, e = .start api env i req ∧ c = h.ctxOf i env
  | .resume api call =>
    (api, call) ∈ (h.table i).calls ∧ call.sound ∧ ∃ env, c = h.ctxOf i env
  | .kill => c.state = .TIME_WAIT
  | .opened _ _ _ _ => c.type = .UNUSED
  | .acceptWait => ∃ env k a, e = .acceptNext env k ∧ h.accepts[k]? = some a ∧ a.socket = i ∧
      a.stage = .start ∧ c = (h.table i).ctx ∧ c.synQueue = []
  | .answer socket item => ∃ a ∈ h.accepts, a.stage = .opened item (some i) ∧
      socket = (h.table a.socket).ctx.toSocket

theorem setCtx_table (h : Host n) (i j : Fin n) (c : Ctx) :
    ((h.setCtx i c).table j).ctx = if j = i then c else (h.table j).ctx := by
  simp only [Host.setCtx, Host.setEntry]
  split <;> rfl

theorem addHandle_ctx (h : Host n) (i j : Fin n) :
    ((h.addHandle i).table j).ctx = (h.table j).ctx := by
  simp only [Host.addHandle, Host.setEntry]
  split
  · rename_i hj; rw [hj]
  · rfl

theorem dropHandle_ctx (h : Host n) (i j : Fin n) :
    ((h.dropHandle i).table j).ctx = (h.table j).ctx := by
  simp only [Host.dropHandle, Host.setEntry]
  split
  · rename_i hj; rw [hj]
  · rfl

theorem finish_ctx (h : Host n) (i j : Fin n) (api : Api) (r : Ctx × Progress) :
    ((h.finish i api r).table j).ctx = if j = i then r.1 else (h.table j).ctx := by
  unfold Host.finish
  split
  · simp only [Host.setEntry]
    split <;> rfl
  · exact setCtx_table h i j r.1

/-- What an open does to an entry, whatever the event it is part of. -/
def OpenSection (c : Ctx) : Section → Prop
  | .env _ => True
  | .kill => c.state = .TIME_WAIT
  | .opened _ _ _ _ => c.type = .UNUSED
  | _ => False

theorem socketOpen_sections (api : Api) (h : Host n) (env : Env) (type : SocketType)
    (protocol : Nat) (j : Fin n) :
    Reach sectionRun OpenSection (h.table j).ctx
        (((socketOpen api h env type protocol).1.table j).ctx) ∧
      ((socketOpen api h env type protocol).1.table j).calls = (h.table j).calls := by
  unfold socketOpen
  by_cases ht : type = .UNUSED
  · rw [if_pos ht]
    exact ⟨.init, rfl⟩
  rw [if_neg ht]
  obtain ⟨htab, hacc⟩ := openPort_frame h env type protocol
  generalize openPort h env type protocol = r at htab hacc ⊢
  obtain ⟨⟨table1, accepts1, tcpPort, udpPort⟩, env1, protocol1, port⟩ := r
  simp only at htab hacc ⊢
  subst htab hacc
  have hfind : findUnused (⟨h.table, h.accepts, tcpPort, udpPort⟩ : Host n) = findUnused h := rfl
  have hold : ∀ time, oldestTimeWait (⟨h.table, h.accepts, tcpPort, udpPort⟩ : Host n) time =
      oldestTimeWait h time := fun _ => rfl
  unfold takeEntry tcpKillOldestConnection
  simp only [hfind, hold]
  cases hu : findUnused h with
  | some i =>
    have hi : (h.table i).ctx.type = .UNUSED := by
      have := List.find?_some hu
      simpa using this
    simp only [Host.setCtx, Host.setEntry]
    by_cases hj : j = i
    · subst hj
      simp only [if_true]
      exact ⟨.step (e := Section.opened api type protocol1 (BitVec.ofNat 16 port)) .init hi, trivial⟩
    · simp only [if_neg hj]
      exact ⟨.init, trivial⟩
  | none =>
    cases ho : oldestTimeWait h (osGetSystemTime env1) with
    | none => exact ⟨.init, rfl⟩
    | some i =>
      obtain ⟨-, hs⟩ := oldestTimeWait_spec ho
      simp only [Host.setCtx, Host.setEntry]
      by_cases hj : j = i
      · subst hj
        simp only [if_true]
        have h1 : Reach sectionRun OpenSection (h.table j).ctx (h.ctxOf j env1) :=
          .step (e := Section.env env1) .init trivial
        have h2 : Reach sectionRun OpenSection (h.table j).ctx (closeSocket (h.ctxOf j env1)) :=
          .step (e := Section.kill) h1 hs
        exact ⟨.step (e := Section.opened api type protocol1 (BitVec.ofNat 16 port)) h2 rfl, trivial⟩
      · simp only [if_neg hj]
        exact ⟨.init, trivial⟩

theorem answerSection_ok {socket : Socket} {item : TcpSynQueueItem}
    (h : acceptOpen socket item c = (c', .NO_ERROR)) :
    answerSection socket item c = tcpChangeState c' .SYN_RECEIVED := by
  unfold answerSection
  rw [h]

theorem answerSection_error {socket : Socket} {item : TcpSynQueueItem} {e : Error}
    (h : acceptOpen socket item c = (c', e)) (he : e ≠ .NO_ERROR) :
    answerSection socket item c = (tcpAbort c').1 := by
  unfold answerSection
  rw [h]
  cases e <;> first | rfl | exact absurd rfl he

/-- What an accept does to the sockets it is about. -/
def AnswerSection (socket : Socket) (item : TcpSynQueueItem) (m j : Fin n) : Section → Prop
  | .env _ | .popSyn _ | .resetCongestion => True
  | .answer socket' item' => socket' = socket ∧ item' = item ∧ j = m
  | _ => False

theorem acceptOn_sections (h : Host n) (env : Env) (i m : Fin n) (item : TcpSynQueueItem)
    (j : Fin n) :
    Reach sectionRun (fun _ => AnswerSection (h.table i).ctx.toSocket item m j) (h.table j).ctx
        (((acceptOn h env i m item).1.table j).ctx) := by
  unfold acceptOn
  simp only
  generalize hh1 : (if (acceptAlloc (h.table i).ctx.toSocket (h.ctxOf m env)).2 = .NO_ERROR then
    h.setCtx i { (h.table i).ctx with congestState := .IDLE } else h) = h1
  have h0 : Reach sectionRun (fun _ => AnswerSection (h.table i).ctx.toSocket item m j)
      (h.table j).ctx (h1.table j).ctx := by
    rw [← hh1]
    split
    · rw [setCtx_table]
      split
      · rename_i hj
        subst hj
        exact .step (e := Section.resetCongestion) .init trivial
      · exact .init
    · exact .init
  clear hh1
  generalize (h.table i).ctx.toSocket = socket at h0 ⊢
  have hanswer : j = m → Reach sectionRun (fun _ => AnswerSection socket item m j) (h.table j).ctx
      (answerSection socket item (h1.ctxOf m env)) := by
    intro hj
    subst hj
    have h2 : Reach sectionRun (fun _ => AnswerSection socket item j j) (h.table j).ctx
        (h1.ctxOf j env) := .step (e := Section.env env) h0 trivial
    exact .step (e := Section.answer socket item) h2 ⟨rfl, rfl, rfl⟩
  split
  · rename_i c hopen
    rw [answerSection_ok hopen] at hanswer
    rw [addHandle_ctx, setCtx_table]
    split
    · rename_i hj
      exact hanswer hj
    · rw [setCtx_table]
      split
      · rename_i hj
        subst hj
        exact .step (e := Section.popSyn true) h0 trivial
      · exact h0
  · rename_i c e hne hopen
    rw [answerSection_error hopen hne] at hanswer
    have h3 : Reach sectionRun (fun _ => AnswerSection socket item m j) (h.table j).ctx
        (((h1.setCtx m (tcpAbort c).1).table j).ctx) := by
      rw [setCtx_table]
      split
      · rename_i hj
        exact hanswer hj
      · exact h0
    rw [setCtx_table]
    split
    · rename_i hj
      subst hj
      exact .step (e := Section.popSyn false) h3 trivial
    · exact h3

/-- The sections of an event of the host. -/
theorem host_sections (hc : SoundCalls h) (e : HostEvent n) (j : Fin n) :
    Reach sectionRun (Allowed h e j) (h.table j).ctx ((hostStep h e).table j).ctx := by
  have hopen : ∀ (e : HostEvent n) (c c' : Ctx), Reach sectionRun OpenSection c c' →
      Reach sectionRun (Allowed h e j) c c' := by
    intro e c c' h1
    refine h1.mono fun c s hs => ?_
    cases s <;> first | exact hs | exact hs.elim
  cases e with
  | «open» api env type protocol =>
    have h1 := (socketOpen_sections api h env type protocol j).1
    simp only [hostStep]
    split
    · rename_i h2 i ho
      rw [ho] at h1
      rw [addHandle_ctx]
      exact hopen _ _ _ h1
    · rename_i h2 ho
      rw [ho] at h1
      exact hopen _ _ _ h1
  | accept api i =>
    simp only [hostStep, acceptCall]
    split
    · split <;> exact .init
    · exact .init
  | acceptNext env k =>
    simp only [hostStep, acceptResume]
    split
    · exact .init
    rename_i a ha
    have hstep : Reach sectionRun (Allowed h (.acceptNext env k) j) (h.table j).ctx
        ((acceptStep a.api { h with accepts := h.accepts.eraseIdx k } env a.socket
          a.stage).1.table j).ctx := by
      cases hstage : a.stage with
      | start =>
        simp only [acceptStep, acceptTurn]
        split
        · rename_i hq
          rw [setCtx_table]
          split
          · rename_i hj
            subst hj
            exact .step (e := Section.acceptWait) .init
              ⟨env, k, a, rfl, ha, rfl, hstage, rfl, hq⟩
          · exact .init
        · exact .init
      | wait =>
        simp only [acceptStep]
        split <;> exact .init
      | opening item =>
        exact hopen _ _ _ (socketOpen_sections a.api { h with accepts := h.accepts.eraseIdx k } env
          .STREAM SOCKET_IP_PROTO_TCP j).1
      | opened item newSocket =>
        cases newSocket with
        | none =>
          simp only [acceptStep]
          rw [setCtx_table]
          split
          · rename_i hj
            subst hj
            exact .step (e := Section.popSyn false) .init trivial
          · exact .init
        | some m =>
          simp only [acceptStep]
          have h1 := acceptOn_sections { h with accepts := h.accepts.eraseIdx k } env a.socket m
            item j
          refine h1.mono fun c s hs => ?_
          cases s <;> try exact hs.elim
          case answer socket item' =>
            obtain ⟨rfl, rfl, rfl⟩ := hs
            exact ⟨a, List.mem_of_getElem? ha, hstage, rfl⟩
          all_goals trivial
    split
    · rename_i h2 stage ho
      rw [ho] at hstep
      exact hstep
    · rename_i h2 ho
      rw [ho] at hstep
      exact hstep
  | start api env i req =>
    simp only [hostStep]
    split
    · rw [finish_ctx]
      split
      · rename_i hj
        subst hj
        have h1 : Reach sectionRun (Allowed h (.start api env j req) j) (h.table j).ctx
            (h.ctxOf j env) := .step (e := Section.env env) .init trivial
        exact .step (e := Section.start api req) h1 ⟨env, rfl, rfl⟩
      · exact .init
    · exact .init
  | resume env i k =>
    simp only [hostStep, callResume]
    split
    · exact .init
    · rename_i api call hcall
      have hof : (h.setEntry i { h.table i with
          calls := (h.table i).calls.eraseIdx k }).ctxOf i env = h.ctxOf i env := by
        simp only [Host.ctxOf, Host.setEntry_same]
      rw [finish_ctx, hof]
      split
      · rename_i hj
        subst hj
        have h1 : Reach sectionRun (Allowed h (.resume env j k) j) (h.table j).ctx
            (h.ctxOf j env) := .step (e := Section.env env) .init trivial
        exact .step (e := Section.resume api call) h1 
          ⟨List.mem_of_getElem? hcall, hc j _ (List.mem_of_getElem? hcall), env, rfl⟩
      · rename_i hj
        simp only [Host.setEntry, if_neg hj]
        exact .init
  | close env i =>
    simp only [hostStep]
    split
    · rw [dropHandle_ctx, setCtx_table]
      split
      · rename_i hj
        subst hj
        have h1 : Reach sectionRun (Allowed h (.close env j) j) (h.table j).ctx
            (h.ctxOf j env) := .step (e := Section.env env) .init trivial
        exact .step (e := Section.close) h1 trivial
      · exact .init
    · exact .init
  | segment env p =>
    simp only [hostStep, tcpProcessSegment]
    split
    · rename_i i hf
      rw [setCtx_table]
      split
      · rename_i hj
        subst hj
        exact .step (e := Section.net (.segment env p)) .init ⟨rfl, hf, rfl⟩
      · exact .init
    · exact .init
  | tick env => exact .step (e := Section.net (.tick (env j))) .init rfl

/-! ## Suspended calls of the host -/

theorem setCtx_calls (h : Host n) (i j : Fin n) (c : Ctx) :
    ((h.setCtx i c).table j).calls = (h.table j).calls := by
  simp only [Host.setCtx, Host.setEntry]
  split
  · rename_i hj; rw [hj]
  · rfl

theorem addHandle_calls (h : Host n) (i j : Fin n) :
    ((h.addHandle i).table j).calls = (h.table j).calls := by
  simp only [Host.addHandle, Host.setEntry]
  split
  · rename_i hj; rw [hj]
  · rfl

theorem dropHandle_calls (h : Host n) (i j : Fin n) :
    ((h.dropHandle i).table j).calls = (h.table j).calls := by
  simp only [Host.dropHandle, Host.setEntry]
  split
  · rename_i hj; rw [hj]
  · rfl

theorem acceptStep_calls (api : Api) (h : Host n) (env : Env) (i : Fin n) (stage : Stage n)
    (j : Fin n) : ((acceptStep api h env i stage).1.table j).calls = (h.table j).calls := by
  cases stage with
  | start =>
    simp only [acceptStep, acceptTurn]
    split
    · exact setCtx_calls _ _ _ _
    · rfl
  | wait =>
    simp only [acceptStep]
    split <;> rfl
  | opening item =>
    exact (socketOpen_sections api h env .STREAM SOCKET_IP_PROTO_TCP j).2
  | opened item newSocket =>
    cases newSocket with
    | none => exact setCtx_calls _ _ _ _
    | some m =>
      simp only [acceptStep, acceptOn]
      split
      · rw [addHandle_calls, setCtx_calls, setCtx_calls]
        split
        · exact setCtx_calls _ _ _ _
        · rfl
      · rw [setCtx_calls, setCtx_calls]
        split
        · exact setCtx_calls _ _ _ _
        · rfl

theorem SoundCalls.same {h' : Host n} (hc : SoundCalls h)
    (heq : ∀ j, (h'.table j).calls = (h.table j).calls) : SoundCalls h' :=
  fun j cl hcl => hc j cl (heq j ▸ hcl)

theorem SoundCalls.finish (hc : SoundCalls h) {api : Api} {r : Ctx × Progress}
    (hr : r.2.sound) : SoundCalls (h.finish i api r) := by
  unfold Host.finish
  split
  · rename_i call hcall
    intro j cl hcl
    simp only [Host.setEntry] at hcl
    split at hcl
    · rw [List.mem_append, List.mem_singleton] at hcl
      obtain hcl | rfl := hcl
      · exact hc i cl hcl
      · rw [hcall] at hr
        exact hr
    · exact hc j cl hcl
  · exact hc.same fun j => setCtx_calls _ _ _ _

theorem soundCalls_hostStep (hc : SoundCalls h) (e : HostEvent n) : SoundCalls (hostStep h e) := by
  cases e with
  | «open» api env type protocol =>
    have h1 := fun j => (socketOpen_sections api h env type protocol j).2
    simp only [hostStep]
    split
    · rename_i h2 i ho
      rw [ho] at h1
      exact hc.same fun j => (addHandle_calls _ _ _).trans (h1 j)
    · rename_i h2 ho
      rw [ho] at h1
      exact hc.same h1
  | accept api i =>
    simp only [hostStep, acceptCall]
    split
    · split <;> exact hc
    · exact hc
  | acceptNext env k =>
    simp only [hostStep, acceptResume]
    split
    · exact hc
    rename_i a _
    have h1 := acceptStep_calls a.api { h with accepts := h.accepts.eraseIdx k } env a.socket a.stage
    split
    · rename_i h2 stage ho
      rw [ho] at h1
      exact hc.same h1
    · rename_i h2 ho
      rw [ho] at h1
      exact hc.same h1
  | start api env i req =>
    simp only [hostStep]
    split
    · exact hc.finish (start_sound _ _ _)
    · exact hc
  | resume env i k =>
    simp only [hostStep, callResume]
    split
    · exact hc
    · rename_i api call hcall
      have h1 : SoundCalls (h.setEntry i { h.table i with
          calls := (h.table i).calls.eraseIdx k }) := by
        intro j cl hcl
        simp only [Host.setEntry] at hcl
        split at hcl
        · exact hc i cl (List.mem_of_mem_eraseIdx hcl)
        · exact hc j cl hcl
      exact h1.finish (resume_sound _ _ _ (hc i _ (List.mem_of_getElem? hcall)))
  | close env i =>
    simp only [hostStep]
    split
    · exact hc.same fun j => (dropHandle_calls _ _ _).trans (setCtx_calls _ _ _ _)
    · exact hc
  | segment env p =>
    simp only [hostStep, tcpProcessSegment]
    split
    · exact hc.same fun j => setCtx_calls _ _ _ _
    · exact hc
  | tick env => exact hc

variable {ok : Host n → HostEvent n → Prop}

theorem soundCalls_reach (hr : Reach hostStep ok (socketInit n) h) : SoundCalls h :=
  hr.inv (P := SoundCalls) (fun _ _ => nofun) fun _ e hc _ => soundCalls_hostStep hc e

/-- What holds of a cleared socket and is kept by every section that the events of a run bring
holds of every entry of every host the run reaches. -/
theorem entry_inv {P : Ctx → Prop} (hr : Reach hostStep ok (socketInit n) h)
    (h0 : ∀ c : Ctx, c.toSocket = { descriptor := c.descriptor } → c.toTrace = {} → P c)
    (hs : ∀ h e i c s, (∀ j, P (h.table j).ctx) → ok h e → Allowed h e i c s → P c →
      P (sectionRun c s)) (i : Fin n) : P (h.table i).ctx := by
  induction hr generalizing i with
  | init => exact h0 _ rfl rfl
  | @step h e hr hok ih =>
    exact (host_sections (soundCalls_reach hr) e i).inv (ih i)
      fun c s hc hal => hs h e i c s ih hok hal hc

end Cyclone
