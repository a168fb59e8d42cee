import Mathlib.Data.List.Basic
import Mathlib.Tactic.ByContra
import Cyclone.Arp
import Cyclone.Lib.Tables

/-!
# Cyclone.ArpQueues

The packets that wait in the ARP cache for an address.

* `ArpOk`: every buffer accepted is in one queue, or has been freed.
* `arp_conserves`: so it is after every sequence of calls, whatever the times.
-/

namespace Cyclone

open Serial Tables

/-- The buffer an event is about. -/
def ArpEvent.number : ArpEvent → Option Nat
  | .accepted item => some item.number
  | .sent _ item => some item.number
  | .freed item => some item.number
  | _ => none

/-- What has happened to one buffer. -/
def trace (n : Nat) (events : List ArpEvent) : List ArpEvent :=
  events.filter fun e => e.number = some n

/-- The buffers of the packets sent to one next hop, in the order in which they were sent. -/
def sentTo (ipAddr : Ipv4Addr) (events : List ArpEvent) : List Nat :=
  events.filterMap fun
    | .sent _ item => if item.nextHop = ipAddr then some item.number else none
    | _ => none

/-- The buffers accepted, in the order of acceptance. -/
def acceptedNumbers (events : List ArpEvent) : List Nat :=
  events.filterMap fun
    | .accepted item => some item.number
    | _ => none

/-- A buffer that is done with: freed once, and sent before that at most once. -/
def Done (item : ArpQueueItem) (events : List ArpEvent) : Prop :=
  trace item.number events = [.accepted item, .freed item] ∨
    ∃ macAddr, trace item.number events =
      [.accepted item, .sent macAddr item, .freed item]

/-- Every packet sent has gone to the hardware address of a reply from its next hop. -/
def Told (events : List ArpEvent) : Prop :=
  ∀ (k : Nat) (macAddr : MacAddr) (item : ArpQueueItem), events[k]? = some (.sent macAddr item) →
    ∃ j < k, ∃ arpReply : ArpPacket, events[j]? = some (.reply arpReply) ∧ arpReply.op = ARP_OPCODE_ARP_REPLY ∧
      arpReply.spa = item.nextHop ∧ arpReply.sha = macAddr

structure ArpOk (s : ArpInterface) : Prop where
  size : s.arpCache.length = ARP_CACHE_SIZE
  /-- At most one entry in use for an address. -/
  unique : ∀ i j, (s.entry i).state ≠ .NONE → (s.entry j).state ≠ .NONE →
    (s.entry i).ipAddr = (s.entry j).ipAddr → i = j
  short : ∀ i, (s.entry i).queue.length ≤ ARP_MAX_PENDING_PACKETS
  waiting : ∀ i, (s.entry i).queue ≠ [] → (s.entry i).state = .INCOMPLETE
  hop : ∀ i, ∀ x ∈ (s.entry i).queue, x.nextHop = (s.entry i).ipAddr
  sorted : ∀ i, ((s.entry i).queue.map ArpQueueItem.number).Pairwise (· < ·)
  accepted : acceptedNumbers s.events = List.range s.buffers
  /-- A buffer in a queue has been accepted, and that is all. -/
  stored : ∀ i, ∀ x ∈ (s.entry i).queue, trace x.number s.events = [.accepted x]
  fresh : ∀ n, s.buffers ≤ n → trace n s.events = []
  ended : ∀ n < s.buffers, ∃ x, x.number = n ∧ ((∃ i, x ∈ (s.entry i).queue) ∨ Done x s.events)
  told : Told s.events
  ordered : ∀ ipAddr, (sentTo ipAddr s.events).Pairwise (· < ·)
  later : ∀ i, ∀ x ∈ (s.entry i).queue, ∀ n ∈ sentTo x.nextHop s.events, n < x.number

/-! ## Entries -/

section Entries

variable {s : ArpInterface} {i j : Nat} {f g : ArpCacheEntry → ArpCacheEntry}

@[simp] theorem entry_log (events : List ArpEvent) : (s.log events).entry i = s.entry i := rfl

@[simp] theorem events_log (events : List ArpEvent) :
    (s.log events).events = s.events ++ events := rfl

@[simp] theorem events_update : (s.update i f).events = s.events := rfl

@[simp] theorem buffers_update : (s.update i f).buffers = s.buffers := rfl

@[simp] theorem buffers_log (events : List ArpEvent) : (s.log events).buffers = s.buffers := rfl

@[simp] theorem size_update : (s.update i f).arpCache.length = s.arpCache.length := by
  simp [ArpInterface.update]

@[simp] theorem size_log (events : List ArpEvent) :
    (s.log events).arpCache.length = s.arpCache.length := rfl

theorem entry_update (hi : i < s.arpCache.length) :
    (s.update i f).entry j = if j = i then f (s.entry i) else s.entry j := getD_modify hi

theorem entry_update_self (hi : i < s.arpCache.length) :
    (s.update i f).entry i = f (s.entry i) := by
  rw [entry_update hi, if_pos rfl]

theorem entry_update_ne (hi : i < s.arpCache.length) (h : j ≠ i) :
    (s.update i f).entry j = s.entry j := by
  rw [entry_update hi, if_neg h]

theorem entry_eq (hi : i < s.arpCache.length) : s.entry i = s.arpCache[i] := by
  rw [ArpInterface.entry, List.getD, List.getElem?_eq_getElem hi, Option.getD_some]

theorem update_congr (hi : i < s.arpCache.length) (h : f (s.entry i) = g (s.entry i)) :
    s.update i f = s.update i g := by
  have hcache : s.arpCache.modify i f = s.arpCache.modify i g := by
    apply List.ext_getElem (by simp)
    intro j hj hj'
    rw [List.getElem_modify, List.getElem_modify]
    split
    · rename_i hij
      subst hij
      rw [← entry_eq hi, h]
    · rfl
  rw [ArpInterface.update, hcache, ArpInterface.update]

theorem update_update : (s.update i f).update i g = s.update i (g ∘ f) := by
  simp [ArpInterface.update, List.modify_modify_eq]

theorem update_log (events : List ArpEvent) :
    (s.log events).update i f = (s.update i f).log events := rfl

theorem log_log (events events' : List ArpEvent) :
    (s.log events).log events' = s.log (events ++ events') := by
  simp [ArpInterface.log]

/-- An entry outside the table is unused. -/
theorem entry_outside (hi : ¬ i < s.arpCache.length) : s.entry i = {} := by
  rw [ArpInterface.entry, List.getD, List.getElem?_eq_none (by omega)]
  rfl

end Entries

/-! ## Events -/

section Events

variable {events : List ArpEvent} {n : Nat} {item : ArpQueueItem}

theorem trace_append (n : Nat) (events events' : List ArpEvent) :
    trace n (events ++ events') = trace n events ++ trace n events' := List.filter_append ..

theorem sentTo_append (ipAddr : Ipv4Addr) (events events' : List ArpEvent) :
    sentTo ipAddr (events ++ events') = sentTo ipAddr events ++ sentTo ipAddr events' :=
  List.filterMap_append ..

theorem acceptedNumbers_append (events events' : List ArpEvent) :
    acceptedNumbers (events ++ events') = acceptedNumbers events ++ acceptedNumbers events' :=
  List.filterMap_append ..

theorem mem_sentTo {ipAddr : Ipv4Addr} (h : n ∈ sentTo ipAddr events) :
    ∃ macAddr item, .sent macAddr item ∈ events ∧ item.nextHop = ipAddr ∧ item.number = n := by
  obtain ⟨e, he, hn⟩ := List.mem_filterMap.mp h
  cases e with
  | sent macAddr item =>
    simp only [Option.ite_none_right_eq_some, Option.some.injEq] at hn
    exact ⟨macAddr, item, he, hn⟩
  | _ => cases hn

theorem Told.append {events' : List ArpEvent} (h : Told events)
    (h' : ∀ macAddr item, .sent macAddr item ∈ events' → ∃ arpReply, .reply arpReply ∈ events ∧
      arpReply.op = ARP_OPCODE_ARP_REPLY ∧ arpReply.spa = item.nextHop ∧
        arpReply.sha = macAddr) : Told (events ++ events') := by
  intro k macAddr item hk
  by_cases hlt : k < events.length
  · rw [List.getElem?_append_left hlt] at hk
    obtain ⟨j, hj, arpReply, hreply, hrest⟩ := h k macAddr item hk
    exact ⟨j, hj, arpReply, by rwa [List.getElem?_append_left (by omega)], hrest⟩
  · rw [List.getElem?_append_right (by omega)] at hk
    obtain ⟨arpReply, hreply, hrest⟩ := h' macAddr item (List.mem_of_getElem? hk)
    obtain ⟨j, hj, hget⟩ := List.getElem_of_mem hreply
    refine ⟨j, by omega, arpReply, ?_, hrest⟩
    rw [List.getElem?_append_left hj, List.getElem?_eq_getElem hj, hget]

/-- An event that is about no buffer. -/
theorem trace_other {events' : List ArpEvent} (h : ∀ e ∈ events', e.number = none) (n : Nat) :
    trace n (events ++ events') = trace n events := by
  have : trace n events' = [] := by
    rw [trace, List.filter_eq_nil_iff]
    intro e he
    simp [h e he]
  rw [trace_append, this, List.append_nil]

end Events

/-! ## What the steps keep -/

namespace ArpOk

variable {s : ArpInterface} {i : Nat}

/-- An entry is changed but for its queue. -/
theorem set (h : ArpOk s) (hi : i < s.arpCache.length) (f : ArpCacheEntry → ArpCacheEntry)
    (hq : (f (s.entry i)).queue = (s.entry i).queue)
    (hw : (s.entry i).queue ≠ [] → (f (s.entry i)).state = .INCOMPLETE ∧
      (f (s.entry i)).ipAddr = (s.entry i).ipAddr)
    (alone : (f (s.entry i)).state ≠ .NONE → ∀ j ≠ i, (s.entry j).state ≠ .NONE →
      (s.entry j).ipAddr ≠ (f (s.entry i)).ipAddr) : ArpOk (s.update i f) := by
  have hself := @entry_update_self s i f hi
  have hne (j : Nat) (hj : j ≠ i) := @entry_update_ne s i j f hi hj
  have hqueue (j : Nat) : ((s.update i f).entry j).queue = (s.entry j).queue := by
    by_cases hj : j = i
    · rw [hj, hself, hq]
    · rw [hne j hj]
  have hstate (j : Nat) (hj : (s.entry j).queue ≠ []) :
      ((s.update i f).entry j).state = .INCOMPLETE ∧
        ((s.update i f).entry j).ipAddr = (s.entry j).ipAddr := by
    by_cases hji : j = i
    · subst hji
      rw [hself]
      exact hw hj
    · rw [hne j hji]
      exact ⟨h.waiting j hj, rfl⟩
  constructor
  case size => rw [size_update, h.size]
  case unique =>
    intro j k hj hk hjk
    by_cases hji : j = i
    · by_cases hki : k = i
      · rw [hji, hki]
      · subst hji
        rw [hself] at hj hjk
        rw [hne k hki] at hk hjk
        exact (alone hj k hki hk hjk.symm).elim
    · by_cases hki : k = i
      · subst hki
        rw [hself] at hk hjk
        rw [hne j hji] at hj hjk
        exact (alone hk j hji hj hjk).elim
      · rw [hne j hji] at hj hjk
        rw [hne k hki] at hk hjk
        exact h.unique j k hj hk hjk
  case short => exact fun j => hqueue j ▸ h.short j
  case waiting => exact fun j hj => (hstate j (hqueue j ▸ hj)).1
  case hop =>
    intro j x hx
    rw [hqueue j] at hx
    rw [(hstate j (List.ne_nil_of_mem hx)).2]
    exact h.hop j x hx
  case sorted => exact fun j => hqueue j ▸ h.sorted j
  case accepted => exact h.accepted
  case stored => exact fun j x hx => h.stored j x (hqueue j ▸ hx)
  case fresh => exact h.fresh
  case ended =>
    intro n hn
    obtain ⟨x, hx, ⟨j, hj⟩ | hdone⟩ := h.ended n hn
    · exact ⟨x, hx, .inl ⟨j, by rwa [hqueue j]⟩⟩
    · exact ⟨x, hx, .inr hdone⟩
  case told => exact h.told
  case ordered => exact h.ordered
  case later => exact fun j x hx => h.later j x (hqueue j ▸ hx)

/-- What is about no buffer is recorded. -/
theorem other (h : ArpOk s) {events : List ArpEvent} (hnone : ∀ e ∈ events, e.number = none) :
    ArpOk (s.log events) := by
  have hsent (ipAddr : Ipv4Addr) : sentTo ipAddr (s.log events).events = sentTo ipAddr s.events := by
    have : sentTo ipAddr events = [] := by
      rw [sentTo, List.filterMap_eq_nil_iff]
      intro e he
      have := hnone e he
      cases e <;> first | rfl | cases this
    rw [events_log, sentTo_append, this, List.append_nil]
  have haccepted : acceptedNumbers events = [] := by
    rw [acceptedNumbers, List.filterMap_eq_nil_iff]
    intro e he
    have := hnone e he
    cases e <;> first | rfl | cases this
  have htrace (n : Nat) : trace n (s.log events).events = trace n s.events := trace_other hnone n
  exact {
    size := h.size
    unique := h.unique
    short := h.short
    waiting := h.waiting
    hop := h.hop
    sorted := h.sorted
    accepted := by
      rw [events_log, acceptedNumbers_append, haccepted, List.append_nil]
      exact h.accepted
    stored := fun j x hx => by
      rw [htrace]
      exact h.stored j x hx
    fresh := fun n hn => by
      rw [htrace]
      exact h.fresh n hn
    ended := fun n hn => by
      obtain ⟨x, hx, hend⟩ := h.ended n hn
      refine ⟨x, hx, hend.imp_right fun hdone => ?_⟩
      unfold Done at hdone ⊢
      rwa [htrace]
    told := h.told.append fun macAddr item hmem => by cases hnone _ hmem
    ordered := fun ipAddr => by
      rw [hsent]
      exact h.ordered ipAddr
    later := fun j x hx => by
      rw [hsent]
      exact h.later j x hx }

theorem number_lt (h : ArpOk s) {j : Nat} {y : ArpQueueItem} (hy : y ∈ (s.entry j).queue) :
    y.number < s.buffers := by
  by_contra hge
  have := h.stored j y hy
  rw [h.fresh y.number (by omega)] at this
  cases this

/-- The buffers stored differ in their numbers. -/
theorem number_ne (h : ArpOk s) {x y : ArpQueueItem} {q : List ArpQueueItem} {j : Nat}
    (hq : (s.entry i).queue = x :: q) (hy : y ∈ if j = i then q else (s.entry j).queue) :
    y ∈ (s.entry j).queue ∧ y.number ≠ x.number := by
  have hx : x ∈ (s.entry i).queue := by simp [hq]
  by_cases hj : j = i
  · rw [if_pos hj] at hy
    have hsorted := h.sorted i
    rw [hq, List.map_cons, List.pairwise_cons] at hsorted
    have := hsorted.1 y.number (List.mem_map_of_mem hy)
    exact ⟨by simp [hj, hq, hy], by omega⟩
  · rw [if_neg hj] at hy
    refine ⟨hy, fun heq => hj ?_⟩
    -- one number is one item, and one item is in one queue
    have hitem : y = x := by
      have := h.stored j y hy
      rw [heq, h.stored i x hx] at this
      simpa using this.symm
    subst hitem
    apply h.unique j i
    · rw [h.waiting j (List.ne_nil_of_mem hy)]
      simp
    · rw [h.waiting i (List.ne_nil_of_mem hx)]
      simp
    · rw [← h.hop j y hy, ← h.hop i y hx]

/-- The first packet leaves its queue: it is freed, and may be sent before that. -/
theorem pop (h : ArpOk s) (hi : i < s.arpCache.length) {x : ArpQueueItem} {q : List ArpQueueItem}
    (hq : (s.entry i).queue = x :: q) {events : List ArpEvent}
    (hevents : events = [.freed x] ∨ ∃ macAddr, events = [.sent macAddr x, .freed x] ∧
      ∃ arpReply, .reply arpReply ∈ s.events ∧ arpReply.op = ARP_OPCODE_ARP_REPLY ∧
        arpReply.spa = x.nextHop ∧ arpReply.sha = macAddr) :
    ArpOk ((s.update i ({ · with queue := q })).log events) := by
  have hself := @entry_update_self s i ({ · with queue := q }) hi
  have hne (j : Nat) (hj : j ≠ i) := @entry_update_ne s i j ({ · with queue := q }) hi hj
  have hx : x ∈ (s.entry i).queue := by simp [hq]
  have hsame (j : Nat) : ((s.update i ({ · with queue := q })).entry j).state = (s.entry j).state ∧
      ((s.update i ({ · with queue := q })).entry j).ipAddr = (s.entry j).ipAddr := by
    by_cases hj : j = i
    · rw [hj, hself]
      exact ⟨rfl, rfl⟩
    · rw [hne j hj]
      exact ⟨rfl, rfl⟩
  have hqueue (j : Nat) : ((s.update i ({ · with queue := q })).entry j).queue =
      if j = i then q else (s.entry j).queue := by
    by_cases hj : j = i
    · rw [hj, hself, if_pos rfl]
    · rw [hne j hj, if_neg hj]
  have htail (j : Nat) : (if j = i then q else (s.entry j).queue).Sublist (s.entry j).queue := by
    by_cases hj : j = i
    · rw [if_pos hj, hj, hq]
      exact List.sublist_cons_self ..
    · rw [if_neg hj]
  have htrace (n : Nat) (hn : n ≠ x.number) : trace n (s.events ++ events) = trace n s.events := by
    have : trace n events = [] := by
      rcases hevents with rfl | ⟨macAddr, rfl, -⟩ <;>
        simp [trace, ArpEvent.number, Ne.symm hn]
    rw [trace_append, this, List.append_nil]
  have hsent (ipAddr : Ipv4Addr) : sentTo ipAddr (s.events ++ events) = sentTo ipAddr s.events ∨
      x.nextHop = ipAddr ∧
        sentTo ipAddr (s.events ++ events) = sentTo ipAddr s.events ++ [x.number] := by
    rw [sentTo_append]
    rcases hevents with rfl | ⟨macAddr, rfl, -⟩
    · exact .inl (List.append_nil _)
    · by_cases hhop : x.nextHop = ipAddr
      · exact .inr ⟨hhop, by simp [sentTo, hhop]⟩
      · exact .inl (by simp [sentTo, hhop])
  have hdone : Done x (s.events ++ events) := by
    unfold Done
    rw [trace_append, h.stored i x hx]
    rcases hevents with rfl | ⟨macAddr, rfl, -⟩
    · exact .inl (by simp [trace, ArpEvent.number])
    · exact .inr ⟨macAddr, by simp [trace, ArpEvent.number]⟩
  constructor
  case size => rw [size_log, size_update, h.size]
  case unique =>
    intro j k hj hk hjk
    simp only [entry_log, (hsame j).1, (hsame k).1, (hsame j).2, (hsame k).2] at hj hk hjk
    exact h.unique j k hj hk hjk
  case short =>
    intro j
    rw [entry_log, hqueue]
    exact Nat.le_trans (htail j).length_le (h.short j)
  case waiting =>
    intro j hj
    rw [entry_log, hqueue] at hj
    rw [entry_log, (hsame j).1]
    exact h.waiting j fun hnil => hj (List.eq_nil_of_sublist_nil (hnil ▸ htail j))
  case hop =>
    intro j y hy
    rw [entry_log, hqueue] at hy
    rw [entry_log, (hsame j).2]
    exact h.hop j y ((htail j).subset hy)
  case sorted =>
    intro j
    rw [entry_log, hqueue]
    exact (h.sorted j).sublist ((htail j).map _)
  case accepted =>
    have : acceptedNumbers events = [] := by
      rcases hevents with rfl | ⟨macAddr, rfl, -⟩ <;> rfl
    rw [events_log, acceptedNumbers_append, events_update, this, List.append_nil]
    exact h.accepted
  case stored =>
    intro j y hy
    rw [entry_log, hqueue] at hy
    obtain ⟨hy', hnum⟩ := h.number_ne hq hy
    rw [events_log, events_update, htrace _ hnum]
    exact h.stored j y hy'
  case fresh =>
    intro n hn
    rw [buffers_log, buffers_update] at hn
    have := h.number_lt hx
    rw [events_log, events_update, htrace n (by omega)]
    exact h.fresh n hn
  case ended =>
    intro n hn
    rw [events_log, events_update]
    by_cases hnum : n = x.number
    · exact ⟨x, hnum.symm, .inr hdone⟩
    obtain ⟨y, hy, ⟨j, hj⟩ | hend⟩ := h.ended n hn
    · refine ⟨y, hy, .inl ⟨j, ?_⟩⟩
      rw [entry_log, hqueue]
      by_cases hji : j = i
      · rw [if_pos hji]
        rw [hji, hq] at hj
        rcases List.mem_cons.mp hj with rfl | hj
        · exact absurd hy.symm hnum
        · exact hj
      · rwa [if_neg hji]
    · refine ⟨y, hy, .inr ?_⟩
      unfold Done at hend ⊢
      rwa [htrace _ (by omega)]
  case told =>
    refine h.told.append fun macAddr item hmem => ?_
    rcases hevents with rfl | ⟨macAddr', rfl, hreply⟩
    · simp at hmem
    · simp only [List.mem_cons, ArpEvent.sent.injEq, List.not_mem_nil, or_false, reduceCtorEq]
        at hmem
      obtain ⟨rfl, rfl⟩ := hmem
      exact hreply
  case ordered =>
    intro ipAddr
    rw [events_log, events_update]
    rcases hsent ipAddr with heq | ⟨rfl, heq⟩
    · rw [heq]
      exact h.ordered ipAddr
    · rw [heq, List.pairwise_append]
      refine ⟨h.ordered _, by simp, fun n hn m hm => ?_⟩
      rw [List.mem_singleton.mp hm]
      exact h.later i x hx n hn
  case later =>
    intro j y hy n hn
    rw [entry_log, hqueue] at hy
    obtain ⟨hy', hnum⟩ := h.number_ne hq hy
    rw [events_log, events_update] at hn
    rcases hsent y.nextHop with heq | ⟨hhop, heq⟩
    · rw [heq] at hn
      exact h.later j y hy' n hn
    · rw [heq, List.mem_append, List.mem_singleton] at hn
      rcases hn with hn | rfl
      · exact h.later j y hy' n hn
      · -- a packet for the same next hop is in the same queue, behind this one
        have hji : j = i := by
          apply h.unique j i
          · rw [h.waiting j (List.ne_nil_of_mem hy')]
            simp
          · rw [h.waiting i (List.ne_nil_of_mem hx)]
            simp
          · rw [← h.hop j y hy', ← h.hop i x hx, hhop]
        rw [if_pos hji] at hy
        have hsorted := h.sorted i
        rw [hq, List.map_cons, List.pairwise_cons] at hsorted
        exact hsorted.1 y.number (List.mem_map_of_mem hy)

/-- A packet joins the queue of an entry that waits for its address. -/
theorem accept (h : ArpOk s) (hi : i < s.arpCache.length) {x : ArpQueueItem}
    (hstate : (s.entry i).state = .INCOMPLETE)
    (hroom : (s.entry i).queue.length < ARP_MAX_PENDING_PACKETS) (hnumber : x.number = s.buffers)
    (hhop : x.nextHop = (s.entry i).ipAddr) :
    ArpOk { (s.update i fun e => { e with queue := e.queue ++ [x] }).log [.accepted x] with
      buffers := s.buffers + 1 } := by
  generalize hs' : { (s.update i fun e => { e with queue := e.queue ++ [x] }).log [.accepted x] with
    buffers := s.buffers + 1 } = s'
  have hself : s'.entry i = { s.entry i with queue := (s.entry i).queue ++ [x] } := by
    rw [← hs']
    exact entry_update_self hi
  have hne (j : Nat) (hj : j ≠ i) : s'.entry j = s.entry j := by
    rw [← hs']
    exact entry_update_ne hi hj
  have hevents : s'.events = s.events ++ [.accepted x] := by rw [← hs']; rfl
  have hbuffers : s'.buffers = s.buffers + 1 := by rw [← hs']
  have hsame (j : Nat) : (s'.entry j).state = (s.entry j).state ∧
      (s'.entry j).ipAddr = (s.entry j).ipAddr := by
    by_cases hj : j = i
    · rw [hj, hself]
      exact ⟨rfl, rfl⟩
    · rw [hne j hj]
      exact ⟨rfl, rfl⟩
  have hmem (j : Nat) (y : ArpQueueItem) (hy : y ∈ (s'.entry j).queue) :
      y ∈ (s.entry j).queue ∧ y.number < s.buffers ∨ j = i ∧ y = x := by
    by_cases hj : j = i
    · rw [hj, hself] at hy
      rcases List.mem_append.mp hy with hy | hy
      · exact .inl (hj ▸ ⟨hy, h.number_lt hy⟩)
      · exact .inr ⟨hj, List.mem_singleton.mp hy⟩
    · rw [hne j hj] at hy
      exact .inl ⟨hy, h.number_lt hy⟩
  have htrace (n : Nat) (hn : n ≠ s.buffers) : trace n s'.events = trace n s.events := by
    have : trace n [.accepted x] = [] := by
      simp [trace, ArpEvent.number, hnumber, Ne.symm hn]
    rw [hevents, trace_append, this, List.append_nil]
  have hnew : trace s.buffers s'.events = [.accepted x] := by
    rw [hevents, trace_append, h.fresh _ le_rfl]
    simp [trace, ArpEvent.number, hnumber]
  have hsent (ipAddr : Ipv4Addr) : sentTo ipAddr s'.events = sentTo ipAddr s.events := by
    rw [hevents, sentTo_append]
    exact List.append_nil _
  constructor
  case size => rw [← hs']; exact size_update.trans h.size
  case unique =>
    intro j k hj hk hjk
    simp only [(hsame j).1, (hsame k).1, (hsame j).2, (hsame k).2] at hj hk hjk
    exact h.unique j k hj hk hjk
  case short =>
    intro j
    by_cases hj : j = i
    · rw [hj, hself]
      simp only [List.length_append, List.length_singleton]
      omega
    · rw [hne j hj]
      exact h.short j
  case waiting =>
    intro j hj
    rw [(hsame j).1]
    by_cases hji : j = i
    · rw [hji, hstate]
    · rw [hne j hji] at hj
      exact h.waiting j hj
  case hop =>
    intro j y hy
    rw [(hsame j).2]
    rcases hmem j y hy with ⟨hy, -⟩ | ⟨rfl, rfl⟩
    · exact h.hop j y hy
    · exact hhop
  case sorted =>
    intro j
    by_cases hj : j = i
    · rw [hj, hself]
      simp only [List.map_append, List.map_cons, List.map_nil, List.pairwise_append]
      refine ⟨h.sorted i, by simp, fun n hn m hm => ?_⟩
      obtain ⟨y, hy, rfl⟩ := List.mem_map.mp hn
      rw [List.mem_singleton.mp hm, hnumber]
      exact h.number_lt hy
    · rw [hne j hj]
      exact h.sorted j
  case accepted =>
    rw [hevents, hbuffers, acceptedNumbers_append, h.accepted, List.range_succ]
    simp [acceptedNumbers, hnumber]
  case stored =>
    intro j y hy
    rcases hmem j y hy with ⟨hy, hlt⟩ | ⟨rfl, rfl⟩
    · rw [htrace _ (by omega)]
      exact h.stored j y hy
    · rw [hnumber, hnew]
  case fresh =>
    intro n hn
    rw [hbuffers] at hn
    rw [htrace n (by omega)]
    exact h.fresh n (by omega)
  case ended =>
    intro n hn
    rw [hbuffers] at hn
    by_cases hlast : n = s.buffers
    · exact ⟨x, by rw [hnumber, hlast], .inl ⟨i, by simp [hself]⟩⟩
    obtain ⟨y, hy, ⟨j, hj⟩ | hend⟩ := h.ended n (by omega)
    · refine ⟨y, hy, .inl ⟨j, ?_⟩⟩
      by_cases hji : j = i
      · rw [hji] at hj
        rw [hji, hself]
        exact List.mem_append_left _ hj
      · rwa [hne j hji]
    · refine ⟨y, hy, .inr ?_⟩
      unfold Done at hend ⊢
      rwa [htrace _ (by omega)]
  case told =>
    rw [hevents]
    exact h.told.append fun macAddr item hm => by simp at hm
  case ordered =>
    intro ipAddr
    rw [hsent]
    exact h.ordered ipAddr
  case later =>
    intro j y hy n hn
    rw [hsent] at hn
    rcases hmem j y hy with ⟨hy, -⟩ | ⟨rfl, rfl⟩
    · exact h.later j y hy n hn
    · -- what has been sent has been accepted before
      obtain ⟨macAddr, item, hitem, -, rfl⟩ := mem_sentTo hn
      rw [hnumber]
      by_contra hge
      have := h.fresh item.number (by omega)
      rw [trace, List.filter_eq_nil_iff] at this
      exact this _ hitem (by simp [ArpEvent.number])

/-- Induction on the queue: all its packets leave. -/
theorem drain (h : ArpOk s) (hi : i < s.arpCache.length) (leave : ArpQueueItem → List ArpEvent)
    (hleave : ∀ x ∈ (s.entry i).queue, leave x = [.freed x] ∨
      ∃ macAddr, leave x = [.sent macAddr x, .freed x] ∧ ∃ arpReply, .reply arpReply ∈ s.events ∧
        arpReply.op = ARP_OPCODE_ARP_REPLY ∧ arpReply.spa = x.nextHop ∧ arpReply.sha = macAddr) :
    ArpOk ((s.update i ({ · with queue := [] })).log ((s.entry i).queue.flatMap leave)) := by
  generalize hq : (s.entry i).queue = q at hleave
  induction q generalizing s with
  | nil => exact (h.set hi _ hq.symm (fun hne => absurd hq hne)
      fun hused j hj hjused heq => hj (h.unique j i hjused hused heq)).other (by simp)
  | cons x q ih =>
    have hpop := h.pop hi hq (hleave x (by simp))
    have := ih hpop (by simpa using hi) (by rw [entry_log, entry_update_self hi]) fun y hy =>
      (hleave y (by simp [hy])).imp_right fun ⟨macAddr, heq, arpReply, hmem, hrest⟩ =>
        ⟨macAddr, heq, arpReply, by simp [hmem], hrest⟩
    rw [update_log, update_update, log_log] at this
    exact this

theorem flushQueued (h : ArpOk s) (hi : i < s.arpCache.length) :
    ArpOk (arpFlushQueuedPackets s i) := by
  unfold arpFlushQueuedPackets
  by_cases hstate : (s.entry i).state = .INCOMPLETE
  · simp only [if_pos hstate, update_log, List.map_eq_flatMap]
    exact h.drain hi (fun x => [.freed x]) fun x _ => .inl rfl
  · -- nothing waits in another state
    have hq : (s.entry i).queue = [] := by
      by_contra hne
      exact hstate (h.waiting i hne)
    simp only [if_neg hstate]
    exact h.set hi _ hq.symm (fun hne => absurd hq hne)
      fun hused j hj hjused heq => hj (h.unique j i hjused hused heq)

/-- An entry without packets is given up. -/
theorem unuse (h : ArpOk s) (hi : i < s.arpCache.length) (f : ArpCacheEntry → ArpCacheEntry)
    (hq : (s.entry i).queue = []) (hf : (f (s.entry i)).queue = [])
    (hstate : (f (s.entry i)).state = .NONE) : ArpOk (s.update i f) :=
  h.set hi f (by rw [hf, hq]) (fun hne => absurd hq hne) fun hused => absurd hstate hused

/-- An entry without packets stays with its address. -/
theorem restate (h : ArpOk s) (hi : i < s.arpCache.length) (f : ArpCacheEntry → ArpCacheEntry)
    (hf : (f (s.entry i)).queue = (s.entry i).queue)
    (haddr : (f (s.entry i)).ipAddr = (s.entry i).ipAddr)
    (hwait : (s.entry i).queue ≠ [] → (f (s.entry i)).state = .INCOMPLETE)
    (hused : (s.entry i).state ≠ .NONE) : ArpOk (s.update i f) := by
  refine h.set hi f hf (fun hne => ⟨hwait hne, haddr⟩) fun _ j hj hjused heq => ?_
  exact hj (h.unique j i hjused hused (by rw [heq, haddr]))

theorem loop (h : ArpOk s) (f : ArpInterface → Nat → ArpInterface)
    (hf : ∀ s i, ArpOk s → i < s.arpCache.length → ArpOk (f s i)) (n : Nat)
    (hn : n ≤ ARP_CACHE_SIZE) : ArpOk ((List.range n).foldl f s) := by
  induction n with
  | zero => exact h
  | succ n ih =>
    have hprev := ih (by omega)
    rw [List.range_succ, List.foldl_append]
    exact hf _ n hprev (by rw [hprev.size]; omega)

end ArpOk

theorem entry_flushQueued {s : ArpInterface} {i j : Nat} (hi : i < s.arpCache.length) :
    (arpFlushQueuedPackets s i).entry j =
      if j = i then { s.entry i with queue := [] } else s.entry j := by
  by_cases hstate : (s.entry i).state = .INCOMPLETE
  · simp only [arpFlushQueuedPackets, if_pos hstate]
    rw [update_log, entry_log, entry_update hi]
  · simp only [arpFlushQueuedPackets, if_neg hstate]
    rw [entry_update hi]

theorem size_flushQueued {s : ArpInterface} {i : Nat} :
    (arpFlushQueuedPackets s i).arpCache.length = s.arpCache.length := by
  by_cases hstate : (s.entry i).state = .INCOMPLETE
  · simp only [arpFlushQueuedPackets, if_pos hstate, size_update, size_log]
  · simp only [arpFlushQueuedPackets, if_neg hstate, size_update]

/-! ## The operations -/

section Operations

variable {s : ArpInterface} {w : ArpWorld} {i : Nat}

theorem ok_flushEntry (h : ArpOk s) (hi : i < s.arpCache.length) : ArpOk (arpFlushEntry s i) := by
  have hq : ((arpFlushQueuedPackets s i).entry i).queue = [] := by
    rw [entry_flushQueued hi, if_pos rfl]
  exact (h.flushQueued hi).unuse (by rwa [size_flushQueued]) _ hq hq rfl

theorem ok_flushCache (h : ArpOk s) : ArpOk (arpFlushCache s) :=
  h.loop arpFlushEntry (fun _ _ hs hi => ok_flushEntry hs hi) _ le_rfl

theorem oldestEntry_lt (time : Word) (s : ArpInterface) : oldestEntry time s < ARP_CACHE_SIZE := by
  refine List.foldlRecOn (motive := (· < ARP_CACHE_SIZE)) _ _ (by decide) ?_
  intro oldest hold i hi
  split
  · exact List.mem_range.mp hi
  · exact hold

theorem createEntry_spec (w : ArpWorld) (h : ArpOk s) :
    ArpOk (arpCreateEntry w s).1 ∧ (arpCreateEntry w s).2 < ARP_CACHE_SIZE ∧
      ∀ j, (arpCreateEntry w s).1.entry j =
        if j = (arpCreateEntry w s).2 then {} else s.entry j := by
  unfold arpCreateEntry
  cases hfind : s.arpCache.findIdx? (·.state = .NONE) with
  | some i =>
    obtain ⟨hi, hstate, -⟩ := List.findIdx?_eq_some_iff_getElem.mp hfind
    have hnone : (s.entry i).state = .NONE := by
      rw [entry_eq hi]
      exact of_decide_eq_true hstate
    have hq : (s.entry i).queue = [] := by
      by_contra hne
      rw [h.waiting i hne] at hnone
      cases hnone
    exact ⟨h.unuse hi _ hq rfl rfl, h.size ▸ hi, fun j => entry_update hi⟩
  | none =>
    have hi : oldestEntry w.time s < s.arpCache.length := h.size ▸ oldestEntry_lt w.time s
    have hi' : oldestEntry w.time s <
        (arpFlushQueuedPackets s (oldestEntry w.time s)).arpCache.length := by
      rwa [size_flushQueued]
    refine ⟨(h.flushQueued hi).unuse hi' _ (by rw [entry_flushQueued hi, if_pos rfl]) rfl rfl,
      oldestEntry_lt w.time s, fun j => ?_⟩
    simp only
    rw [entry_update hi']
    by_cases hj : j = oldestEntry w.time s
    · rw [if_pos hj, if_pos hj]
    · rw [if_neg hj, if_neg hj, entry_flushQueued hi, if_neg hj]

theorem arpFindEntry_some {ipAddr : Ipv4Addr} (h : arpFindEntry s ipAddr = some i) :
    i < s.arpCache.length ∧ (s.entry i).Holds ipAddr := by
  obtain ⟨hi, hholds, -⟩ := List.findIdx?_eq_some_iff_getElem.mp h
  exact ⟨hi, entry_eq hi ▸ of_decide_eq_true hholds⟩

theorem arpFindEntry_none {ipAddr : Ipv4Addr} (h : arpFindEntry s ipAddr = none) (j : Nat) :
    ¬ (s.entry j).Holds ipAddr := by
  by_cases hj : j < s.arpCache.length
  · have hentry : s.entry j = s.arpCache[j] := by
      rw [ArpInterface.entry, List.getD, List.getElem?_eq_getElem hj, Option.getD_some]
    rw [entry_eq hj]
    simpa using List.findIdx?_eq_none_iff.mp h _ (List.getElem_mem hj)
  · rw [entry_outside hj]
    exact fun hholds => hholds.1 rfl

theorem ok_sendRequest (h : ArpOk s) (destMacAddr : MacAddr) :
    ArpOk (arpSendRequest w s i destMacAddr) := by
  unfold arpSendRequest
  split
  · exact h.other (by simp [ArpEvent.number])
  · exact h

theorem entry_sendRequest (destMacAddr : MacAddr) (j : Nat) :
    (arpSendRequest w s i destMacAddr).entry j = s.entry j := by
  unfold arpSendRequest
  split <;> rfl

theorem size_sendRequest (destMacAddr : MacAddr) :
    (arpSendRequest w s i destMacAddr).arpCache = s.arpCache := by
  unfold arpSendRequest
  split <;> rfl

theorem ok_resolve (h : ArpOk s) (ipAddr : Ipv4Addr) : ArpOk (arpResolve w s ipAddr).1 := by
  unfold arpResolve
  cases hfind : arpFindEntry s ipAddr with
  | some i =>
    obtain ⟨hi, hused, -⟩ := arpFindEntry_some hfind
    simp only
    split
    · exact h
    rename_i hincomplete
    split
    · exact h.restate hi _ rfl rfl (fun hne => absurd (h.waiting i hne) hincomplete) hused
    · exact h
  | none =>
    obtain ⟨hok, hi, hentry⟩ := createEntry_spec w h
    simp only
    generalize arpCreateEntry w s = r at *
    obtain ⟨s₁, i⟩ := r
    simp only at hok hi hentry ⊢
    have hi₁ : i < s₁.arpCache.length := hok.size ▸ hi
    have hempty : s₁.entry i = {} := by rw [hentry, if_pos rfl]
    -- the entry is set up, and put into use once its request is out
    generalize hs₂ : (s₁.update i fun e => { e with ipAddr, retransmitCount := 0, queue := [] }) = s₂
    have hok₂ : ArpOk s₂ := by
      rw [← hs₂]
      exact hok.unuse hi₁ _ (by rw [hempty]) rfl (by rw [hempty])
    have hself : s₂.entry i = { ({} : ArpCacheEntry) with ipAddr } := by
      rw [← hs₂, entry_update_self hi₁, hempty]
    have hother (j : Nat) (hj : j ≠ i) : s₂.entry j = s.entry j := by
      rw [← hs₂, entry_update_ne hi₁ hj, hentry, if_neg hj]
    have hi₂ : i < (arpSendRequest w s₂ i MAC_BROADCAST_ADDR).arpCache.length := by
      rw [size_sendRequest, hok₂.size]
      exact hi
    refine (ok_sendRequest hok₂ MAC_BROADCAST_ADDR).set hi₂ _ rfl (fun hne => ?_)
      fun _ j hj hused heq => ?_
    · rw [entry_sendRequest, hself] at hne
      exact absurd rfl hne
    · simp only [entry_sendRequest, hself] at heq hused
      rw [hother j hj] at heq hused
      exact arpFindEntry_none hfind j ⟨hused, heq⟩

theorem ok_enqueuePacket (h : ArpOk s) (alloc : Bool) (ipAddr : Ipv4Addr) (buffer : List UInt8)
    (offset : Nat) (ancillary : NetAncillaryData) :
    ArpOk (arpEnqueuePacket alloc s ipAddr buffer offset ancillary).1 := by
  unfold arpEnqueuePacket
  cases hfind : arpFindEntry s ipAddr with
  | none => exact h
  | some i =>
    obtain ⟨hi, hused, haddr⟩ := arpFindEntry_some hfind
    simp only
    split
    case isFalse => exact h
    rename_i hstate
    generalize hs₁ : (if (s.entry i).queue.length ≥ ARP_MAX_PENDING_PACKETS then _ else s) = s₁
    -- there is room once the oldest packet has gone
    have hroom : ArpOk s₁ ∧ (s₁.entry i).state = .INCOMPLETE ∧ (s₁.entry i).ipAddr = ipAddr ∧
        (s₁.entry i).queue.length < ARP_MAX_PENDING_PACKETS := by
      by_cases hfull : (s.entry i).queue.length ≥ ARP_MAX_PENDING_PACKETS
      · rw [if_pos hfull] at hs₁
        cases hq : (s.entry i).queue with
        | nil =>
          rw [hq] at hfull
          cases hfull
        | cons x q =>
          have hpop := h.pop hi hq (.inl rfl)
          have hlen := h.short i
          have heq : s₁ = (s.update i ({ · with queue := q })).log [.freed x] := by
            rw [← hs₁, hq, update_log, update_congr hi (g := ({ · with queue := q })) (by rw [hq]; rfl)]
            rfl
          rw [hq, List.length_cons] at hlen
          rw [heq, entry_log, entry_update_self hi]
          exact ⟨hpop, hstate, haddr, by simp only; omega⟩
      · rw [if_neg hfull] at hs₁
        rw [← hs₁]
        exact ⟨h, hstate, haddr, by omega⟩
    obtain ⟨hok, hstate₁, haddr₁, hlen⟩ := hroom
    have hi₁ : i < s₁.arpCache.length := by rw [hok.size, ← h.size]; exact hi
    split
    · exact hok.accept hi₁ hstate₁ hlen rfl haddr₁.symm
    · exact hok

theorem ok_tickEntry (h : ArpOk s) (hi : i < s.arpCache.length) : ArpOk (arpTickEntry w s i) := by
  have hidle (hstate : (s.entry i).state ≠ .INCOMPLETE) : (s.entry i).queue = [] := by
    by_contra hne
    exact hstate (h.waiting i hne)
  unfold arpTickEntry
  simp only
  split
  · rename_i hstate
    have hused : (s.entry i).state ≠ .NONE := by simp [hstate]
    have hcounted := h.restate hi (fun e => { e with retransmitCount := e.retransmitCount + 1 })
      rfl rfl (fun _ => hstate) hused
    split
    case isFalse => exact h
    split
    · refine (ok_sendRequest hcounted MAC_BROADCAST_ADDR).restate ?_ _ rfl rfl ?_ ?_
      · rw [size_sendRequest, hcounted.size, ← h.size]
        exact hi
      · rw [entry_sendRequest, entry_update_self hi]
        exact fun _ => hstate
      · rw [entry_sendRequest, entry_update_self hi]
        exact hused
    · have hi' : i < (s.update i
          fun e => { e with retransmitCount := e.retransmitCount + 1 }).arpCache.length := by
        rwa [size_update]
      have hq := congrArg ArpCacheEntry.queue (@entry_flushQueued _ i i hi')
      rw [if_pos rfl] at hq
      exact (hcounted.flushQueued hi').unuse (by rwa [size_flushQueued]) _ hq hq rfl
  · rename_i hwaits
    have hq := hidle hwaits
    split
    · rename_i hstate
      split
      · exact h.restate hi _ rfl rfl (fun hne => absurd hq hne) (by simp [hstate])
      · exact h
    split
    · rename_i hstate
      split
      · refine (ok_sendRequest h (s.entry i).macAddr).restate ?_ _ rfl rfl ?_ ?_
        · rwa [size_sendRequest]
        · rw [entry_sendRequest]
          exact fun hne => absurd hq hne
        · rw [entry_sendRequest, hstate]
          simp
      · exact h
    split
    · rename_i hstate
      have hused : (s.entry i).state ≠ .NONE := by simp [hstate]
      have hcounted := h.restate hi (fun e => { e with retransmitCount := e.retransmitCount + 1 })
        rfl rfl (fun hne => absurd hq hne) hused
      have hself := @entry_update_self s i (fun e => { e with retransmitCount := e.retransmitCount + 1 })
        hi
      split
      case isFalse => exact h
      split
      · refine (ok_sendRequest hcounted (s.entry i).macAddr).restate ?_ _ rfl rfl ?_ ?_
        · rw [size_sendRequest, hcounted.size, ← h.size]
          exact hi
        · rw [entry_sendRequest, hself]
          exact fun hne => absurd hq hne
        · rw [entry_sendRequest, hself]
          exact hused
      · exact hcounted.unuse (by rwa [size_update]) _ (by rw [hself]; exact hq)
          (by rw [hself]; exact hq) rfl
    · exact h

theorem ok_tick (h : ArpOk s) : ArpOk (arpTick w s) :=
  h.loop (arpTickEntry w) (fun _ _ hs hi => ok_tickEntry hs hi) _ le_rfl

theorem ok_sendQueued (h : ArpOk s) (hi : i < s.arpCache.length) {arpReply : ArpPacket}
    (hmem : .reply arpReply ∈ s.events) (hop : arpReply.op = ARP_OPCODE_ARP_REPLY)
    (hspa : arpReply.spa = (s.entry i).ipAddr) (hsha : arpReply.sha = (s.entry i).macAddr)
    (hstate : (s.entry i).state = .INCOMPLETE) :
    ArpOk (arpSendQueuedPackets s i) ∧ (arpSendQueuedPackets s i).entry i =
      { s.entry i with queue := [] } := by
  simp only [arpSendQueuedPackets, if_pos hstate, update_log]
  refine ⟨h.drain hi _ fun x hx => .inr ⟨_, rfl, arpReply, hmem, hop, ?_, hsha⟩, ?_⟩
  · rw [h.hop i x hx, hspa]
  · rw [entry_log, entry_update_self hi]

theorem ok_processReply (h : ArpOk s) {arpReply : ArpPacket}
    (hop : arpReply.op = ARP_OPCODE_ARP_REPLY) : ArpOk (arpProcessReply w s arpReply) := by
  have hlog : ArpOk (s.log [.reply arpReply]) := h.other (by simp [ArpEvent.number])
  have hmem : .reply arpReply ∈ (s.log [.reply arpReply]).events := by simp
  unfold arpProcessReply
  generalize s.log [.reply arpReply] = s at hlog hmem
  simp only
  split
  · exact hlog
  cases hfind : arpFindEntry s arpReply.spa with
  | none => exact hlog
  | some i =>
    obtain ⟨hi, hused, haddr⟩ := arpFindEntry_some hfind
    have hidle (hstate : (s.entry i).state ≠ .INCOMPLETE) : (s.entry i).queue = [] := by
      by_contra hne
      exact hstate (hlog.waiting i hne)
    simp only
    split
    · rename_i hstate
      have hset := hlog.restate hi (fun e => { e with macAddr := arpReply.sha }) rfl rfl
        (fun _ => hstate) hused
      have hself := @entry_update_self s i (fun e => { e with macAddr := arpReply.sha }) hi
      have hi' : i < (s.update i fun e => { e with macAddr := arpReply.sha }).arpCache.length := by
        rwa [size_update]
      obtain ⟨hsent, hentry⟩ := ok_sendQueued hset hi' hmem hop (by rw [hself, haddr])
        (by rw [hself]) (by rw [hself, hstate])
      refine hsent.restate ?_ _ rfl rfl ?_ ?_
      · rw [hsent.size, ← hlog.size]
        exact hi
      · rw [hentry]
        exact fun hne => absurd rfl hne
      · rw [hentry, hself]
        exact hused
    · rename_i hwaits
      have hq := hidle hwaits
      split
      · split
        · exact hlog.restate hi _ rfl rfl (fun hne => absurd hq hne) hused
        · exact hlog
      split
      · exact hlog.restate hi _ rfl haddr.symm (fun hne => absurd hq hne) hused
      · exact hlog

/-- The cache does not depend on the addresses of the interface. -/
theorem ok_configure (h : ArpOk s) (macAddr : MacAddr) (addrList : List Ipv4AddrEntry) :
    ArpOk { s with macAddr, addrList } :=
  ⟨h.size, h.unique, h.short, h.waiting, h.hop, h.sorted, h.accepted, h.stored, h.fresh, h.ended,
    h.told, h.ordered, h.later⟩

theorem ok_processPacket (h : ArpOk s) (arpPacket : ArpPacket) (length : Nat) :
    ArpOk (arpProcessPacket w s arpPacket length) := by
  unfold arpProcessPacket
  split
  · exact h
  split
  · exact ok_configure h _ _
  split
  case isFalse => exact h
  split
  · unfold arpProcessRequest
    split
    · exact h
    simp only
    split
    · exact (ok_configure h _ _).other (by simp [ArpEvent.number])
    · exact ok_configure h _ _
  split
  · rename_i hop
    exact ok_processReply h hop
  · exact h

theorem ok_call (h : ArpOk s) (call : ArpWorld × ArpCall) : ArpOk (arpCall s call) := by
  obtain ⟨w, call⟩ := call
  cases call with
  | resolve ipAddr => exact ok_resolve h ipAddr
  | enqueue alloc ipAddr buffer offset ancillary => exact ok_enqueuePacket h ..
  | tick => exact ok_tick h
  | processPacket arpPacket length => exact ok_processPacket h arpPacket length
  | flush => exact ok_flushCache h
  | configure macAddr addrList => exact ok_configure h macAddr addrList

end Operations

/-! ## One entry at a time -/

/-- What `arpTick` makes of entry `i`. -/
def tickedEntry (w : ArpWorld) (i : Nat) (e : ArpCacheEntry) : ArpCacheEntry :=
  if !e.timedOut w.time then e
  else match e.state with
    | .INCOMPLETE =>
      if e.retransmitCount + 1 < ARP_MAX_REQUESTS then
        { e with retransmitCount := e.retransmitCount + 1, timestamp := w.time,
                 timeout := ARP_REQUEST_TIMEOUT }
      else { e with retransmitCount := e.retransmitCount + 1, queue := [], state := .NONE }
    | .REACHABLE => { e with timestamp := w.stamp i, state := .STALE }
    | .DELAY =>
      { e with timestamp := w.time, timeout := ARP_PROBE_TIMEOUT, state := .PROBE,
               probes := w.probe i }
    | .PROBE =>
      if e.retransmitCount + 1 < ARP_MAX_PROBES then
        { e with retransmitCount := e.retransmitCount + 1, timestamp := w.time,
                 timeout := ARP_PROBE_TIMEOUT, probes := e.probes ++ w.probe i }
      else { e with retransmitCount := e.retransmitCount + 1, state := .NONE }
    | _ => e

/-- The body `f` of a loop over the cache turns entry `i` into `g i` of it, and no other. -/
structure Local (f : ArpInterface → Nat → ArpInterface) (g : Nat → ArpCacheEntry → ArpCacheEntry) :
    Prop where
  size : ∀ s i, (f s i).arpCache.length = s.arpCache.length
  buffers : ∀ s i, (f s i).buffers = s.buffers
  entry : ∀ s i j, i < s.arpCache.length →
    (f s i).entry j = if j = i then g i (s.entry i) else s.entry j

theorem Local.loop {f : ArpInterface → Nat → ArpInterface}
    {g : Nat → ArpCacheEntry → ArpCacheEntry} (h : Local f g) {s : ArpInterface}
    (hs : s.arpCache.length = ARP_CACHE_SIZE) :
    (((List.range ARP_CACHE_SIZE).foldl f s).arpCache.length = ARP_CACHE_SIZE ∧
        ((List.range ARP_CACHE_SIZE).foldl f s).buffers = s.buffers) ∧
      ∀ j, ((List.range ARP_CACHE_SIZE).foldl f s).entry j =
        if j < ARP_CACHE_SIZE then g j (s.entry j) else s.entry j := by
  refine loop_entries ArpInterface.entry
    (fun t => t.arpCache.length = ARP_CACHE_SIZE ∧ t.buffers = s.buffers) g (fun t i ht _ => ?_) (fun t i j ht hi => ?_) ⟨hs, rfl⟩
  · exact ⟨(h.size t i).trans ht.1, (h.buffers t i).trans ht.2⟩
  · exact h.entry t i j (by rw [ht.1]; exact hi)

theorem local_flush : Local arpFlushEntry fun _ e => { e with queue := [], state := .NONE } := by
  constructor
  · intro s i
    rw [arpFlushEntry, size_update, size_flushQueued]
  · intro s i
    by_cases hstate : (s.entry i).state = .INCOMPLETE
    · simp only [arpFlushEntry, arpFlushQueuedPackets, if_pos hstate]
      rfl
    · simp only [arpFlushEntry, arpFlushQueuedPackets, if_neg hstate]
      rfl
  · intro s i j hi
    rw [arpFlushEntry, entry_update (by rwa [size_flushQueued]), entry_flushQueued hi,
      entry_flushQueued hi, if_pos rfl]
    by_cases hj : j = i
    · rw [if_pos hj, if_pos hj]
    · rw [if_neg hj, if_neg hj, if_neg hj]

theorem size_tickEntry (w : ArpWorld) (s : ArpInterface) (i : Nat) :
    (arpTickEntry w s i).arpCache.length = s.arpCache.length := by
  unfold arpTickEntry
  simp only
  repeat' split
  all_goals simp [size_sendRequest, size_flushQueued]

theorem buffers_sendRequest (w : ArpWorld) (s : ArpInterface) (i : Nat) (destMacAddr : MacAddr) :
    (arpSendRequest w s i destMacAddr).buffers = s.buffers := by
  unfold arpSendRequest
  split <;> rfl

theorem buffers_flushQueued (s : ArpInterface) (i : Nat) :
    (arpFlushQueuedPackets s i).buffers = s.buffers := by
  by_cases hstate : (s.entry i).state = .INCOMPLETE
  · simp only [arpFlushQueuedPackets, if_pos hstate]
    rfl
  · simp only [arpFlushQueuedPackets, if_neg hstate]
    rfl

theorem buffers_tickEntry (w : ArpWorld) (s : ArpInterface) (i : Nat) :
    (arpTickEntry w s i).buffers = s.buffers := by
  unfold arpTickEntry
  simp only
  repeat' split
  all_goals simp [buffers_sendRequest, buffers_flushQueued]

section Entry

variable {w : ArpWorld} {s : ArpInterface} {i j : Nat} {destMacAddr : MacAddr}
  {f g : ArpCacheEntry → ArpCacheEntry}

theorem entry_requested (hi : i < s.arpCache.length) :
    ((arpSendRequest w s i destMacAddr).update i f).entry j =
      if j = i then f (s.entry i) else s.entry j := by
  rw [entry_update (by rwa [size_sendRequest]), entry_sendRequest, entry_sendRequest]

theorem entry_again (hi : i < s.arpCache.length) :
    ((s.update i f).update i g).entry j = if j = i then g (f (s.entry i)) else s.entry j := by
  rw [update_update, entry_update hi]
  rfl

theorem entry_requested_again (hi : i < s.arpCache.length) :
    ((arpSendRequest w (s.update i f) i destMacAddr).update i g).entry j =
      if j = i then g (f (s.entry i)) else s.entry j := by
  rw [entry_requested (by rwa [size_update]), entry_update hi, entry_update hi, if_pos rfl]
  by_cases hj : j = i
  · rw [if_pos hj, if_pos hj]
  · rw [if_neg hj, if_neg hj, if_neg hj]

theorem entry_flushed_again (hi : i < s.arpCache.length) :
    ((arpFlushQueuedPackets (s.update i f) i).update i g).entry j =
      if j = i then g { f (s.entry i) with queue := [] } else s.entry j := by
  have hi' : i < (s.update i f).arpCache.length := by rwa [size_update]
  rw [entry_update (by rwa [size_flushQueued]), entry_flushQueued hi', entry_flushQueued hi',
    if_pos rfl, entry_update hi, entry_update hi, if_pos rfl]
  by_cases hj : j = i
  · rw [if_pos hj, if_pos hj]
  · rw [if_neg hj, if_neg hj, if_neg hj, if_neg hj]

theorem entry_tickEntry (hi : i < s.arpCache.length) : (arpTickEntry w s i).entry j =
    if j = i then tickedEntry w i (s.entry i) else s.entry j := by
  by_cases hlate : (s.entry i).timedOut w.time = true
  · cases hstate : (s.entry i).state <;>
      simp only [arpTickEntry, tickedEntry, hstate, hlate, if_true, if_false, reduceCtorEq,
        Bool.not_true, Bool.false_eq_true]
    case INCOMPLETE =>
      split
      · rw [entry_requested_again hi, hstate]
      · exact entry_flushed_again hi
    case REACHABLE => exact entry_update hi
    case DELAY => exact entry_requested hi
    case PROBE =>
      split
      · rw [entry_requested_again hi, hstate]
      · exact entry_again hi
    all_goals
      split
      · rename_i hj
        rw [hj]
      · rfl
  · have hidle : arpTickEntry w s i = s := by simp [arpTickEntry, hlate]
    have hsame : tickedEntry w i (s.entry i) = s.entry i := by simp [tickedEntry, hlate]
    rw [hidle, hsame]
    split
    · rename_i hj
      rw [hj]
    · rfl

end Entry

theorem local_tick (w : ArpWorld) : Local (arpTickEntry w) (tickedEntry w) :=
  ⟨size_tickEntry w, buffers_tickEntry w, fun _ _ _ hi => entry_tickEntry hi⟩

/-! ## Runs -/

/-- The requests of all entries that wait for their address have timed out. -/
def Overdue (w : ArpWorld) (s : ArpInterface) : Prop :=
  ∀ i, (s.entry i).state = .INCOMPLETE → (s.entry i).timedOut w.time

theorem entry_tick {w : ArpWorld} {s : ArpInterface} (h : ArpOk s) (i : Nat) :
    (arpTick w s).entry i = if i < ARP_CACHE_SIZE then tickedEntry w i (s.entry i) else {} := by
  rw [arpTick, ((local_tick w).loop h.size).2]
  split
  · rfl
  · rw [entry_outside (by rwa [h.size])]

theorem ticked_incomplete {w : ArpWorld} {i : Nat} {e : ArpCacheEntry}
    (h : (tickedEntry w i e).state = .INCOMPLETE) : e.state = .INCOMPLETE ∧
      (e.timedOut w.time → (tickedEntry w i e).retransmitCount = e.retransmitCount + 1 ∧
        (tickedEntry w i e).retransmitCount < ARP_MAX_REQUESTS) := by
  unfold tickedEntry at h ⊢
  by_cases hlate : e.timedOut w.time
  case neg =>
    rw [if_pos (by simpa using hlate)] at h
    exact ⟨h, fun hl => absurd hl hlate⟩
  rw [if_neg (by simpa using hlate)] at h ⊢
  cases hstate : e.state <;> simp only [hstate] at h ⊢
  case INCOMPLETE =>
    refine ⟨trivial, fun _ => ?_⟩
    split at h
    · rename_i hcount
      rw [if_pos hcount]
      exact ⟨rfl, hcount⟩
    · cases h
  case PROBE => split at h <;> cases h
  all_goals cases h

/-- An entry that still waits after the timeout of its request has counted one more request. -/
theorem tick_overdue {w : ArpWorld} {s : ArpInterface} (h : ArpOk s) (hlate : Overdue w s) {i : Nat}
    (hstate : ((arpTick w s).entry i).state = .INCOMPLETE) :
    (s.entry i).state = .INCOMPLETE ∧
      ((arpTick w s).entry i).retransmitCount = (s.entry i).retransmitCount + 1 ∧
      ((arpTick w s).entry i).retransmitCount < ARP_MAX_REQUESTS := by
  rw [entry_tick h] at hstate ⊢
  split at hstate
  case isFalse => cases hstate
  rename_i hi
  rw [if_pos hi]
  obtain ⟨hold, hcount⟩ := ticked_incomplete hstate
  exact ⟨hold, hcount (hlate i hold)⟩

/-- After its last request an entry waits no longer. -/
theorem tick_third {w w' w'' : ArpWorld} {s : ArpInterface} (h : ArpOk s) (hlate : Overdue w s)
    (hlate' : Overdue w' (arpTick w s)) (hlate'' : Overdue w'' (arpTick w' (arpTick w s))) (i : Nat) :
    ((arpTick w'' (arpTick w' (arpTick w s))).entry i).queue = [] := by
  have h' : ArpOk (arpTick w s) := ok_tick h
  have h'' : ArpOk (arpTick w' (arpTick w s)) := ok_tick h'
  by_contra hne
  have hstate := (ok_tick h'' : ArpOk (arpTick w'' _)).waiting i hne
  obtain ⟨hstate₂, hcount₂, hmost⟩ := tick_overdue h'' hlate'' hstate
  obtain ⟨hstate₁, hcount₁, -⟩ := tick_overdue h' hlate' hstate₂
  obtain ⟨-, hcount, -⟩ := tick_overdue h hlate hstate₁
  simp only [ARP_MAX_REQUESTS] at hmost
  omega

theorem entry_start (macAddr : MacAddr) (addrList : List Ipv4AddrEntry) (i : Nat) :
    ({ macAddr, addrList } : ArpInterface).entry i = {} := by
  by_cases hi : i < ARP_CACHE_SIZE
  · simp [ArpInterface.entry, List.getD, hi]
  · exact entry_outside (by simpa using hi)

theorem ok_start (macAddr : MacAddr) (addrList : List Ipv4AddrEntry) :
    ArpOk { macAddr, addrList } := by
  have hentry := entry_start macAddr addrList
  constructor
  case size => exact List.length_replicate
  case unique => exact fun i j hi => absurd (by rw [hentry]) hi
  case short => exact fun i => by rw [hentry]; exact Nat.zero_le _
  case waiting => exact fun i hi => absurd (by rw [hentry]) hi
  case hop => exact fun i x hx => by rw [hentry] at hx; cases hx
  case sorted => exact fun i => by rw [hentry]; exact .nil
  case accepted => rfl
  case stored => exact fun i x hx => by rw [hentry] at hx; cases hx
  case fresh => exact fun _ _ => rfl
  case ended => exact fun n hn => absurd hn (Nat.not_lt_zero n)
  case told => exact fun k _ _ hk => by cases hk
  case ordered => exact fun _ => .nil
  case later => exact fun i x hx => by rw [hentry] at hx; cases hx

theorem ok_calls {s : ArpInterface} (h : ArpOk s) (calls : List (ArpWorld × ArpCall)) :
    ArpOk (calls.foldl arpCall s) := by
  induction calls generalizing s with
  | nil => exact h
  | cons call calls ih => exact ih (ok_call h call)

/-- Where nothing waits, every buffer accepted is done with. -/
theorem ArpOk.released {s : ArpInterface} (h : ArpOk s) (hempty : ∀ i, (s.entry i).queue = [])
    (n : Nat) (hn : n < s.buffers) : ∃ x, x.number = n ∧ Done x s.events := by
  obtain ⟨x, hx, ⟨i, hi⟩ | hdone⟩ := h.ended n hn
  · rw [hempty] at hi
    cases hi
  · exact ⟨x, hx, hdone⟩

/-- The cache after `arpInit` and the calls. -/
def arpRun (macAddr : MacAddr) (addrList : List Ipv4AddrEntry)
    (calls : List (ArpWorld × ArpCall)) : ArpInterface :=
  calls.foldl arpCall { macAddr, addrList }

/-- **ARP queues.** After any calls, at any times, every buffer accepted is in one queue or has been
freed, once. None is left behind by a flush, or once all requests have timed out. -/
theorem arp_conserves (macAddr : MacAddr) (addrList : List Ipv4AddrEntry)
    (calls : List (ArpWorld × ArpCall)) :
    ArpOk (arpRun macAddr addrList calls) ∧
      (∀ n < (arpRun macAddr addrList calls).buffers, ∃ x, x.number = n ∧
        Done x (arpFlushCache (arpRun macAddr addrList calls)).events) ∧
      ∀ w w' w'', Overdue w (arpRun macAddr addrList calls) →
        Overdue w' (arpTick w (arpRun macAddr addrList calls)) →
        Overdue w'' (arpTick w' (arpTick w (arpRun macAddr addrList calls))) →
        ∀ n < (arpRun macAddr addrList calls).buffers, ∃ x, x.number = n ∧
          Done x (arpTick w'' (arpTick w' (arpTick w (arpRun macAddr addrList calls)))).events := by
  have h : ArpOk (arpRun macAddr addrList calls) := ok_calls (ok_start macAddr addrList) calls
  generalize arpRun macAddr addrList calls = s at h
  have hbuffers (w : ArpWorld) (s : ArpInterface) (h : ArpOk s) : (arpTick w s).buffers = s.buffers :=
    ((local_tick w).loop h.size).1.2
  refine ⟨h, fun n hn => ?_, fun w w' w'' hlate hlate' hlate'' n hn => ?_⟩
  · obtain ⟨⟨-, hb⟩, hentry⟩ := local_flush.loop h.size
    refine (ok_flushCache h).released (fun i => ?_) n (by rw [arpFlushCache, hb]; exact hn)
    rw [arpFlushCache, hentry]
    split
    · rfl
    · rw [entry_outside (by rwa [h.size])]
  · have h' : ArpOk (arpTick w s) := ok_tick h
    have h'' : ArpOk (arpTick w' (arpTick w s)) := ok_tick h'
    refine (ok_tick h'').released (tick_third h hlate hlate' hlate'') n ?_
    rw [hbuffers w'' _ h'', hbuffers w' _ h', hbuffers w _ h]
    exact hn

end Cyclone
