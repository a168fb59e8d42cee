import Cyclone.DnsNames
import Cyclone.Ipv6Addrs

/-!
# Cyclone.DnsClient

The DNS client (`dns_client.c`, `dns_cache.c`) with the table of UDP callbacks (`udp.c`). The calls
are those of the DNS client, so its entries are the only ones in the cache.

* `dnsResolve`, `dnsTick`, `udpInvokeRxCallback`, `dnsFlushCache`: the calls.
* `Sent`: the queries of an entry, against its counters.
* `Balanced`: every entry in progress has its callback, and every callback of the client its entry.
-/

namespace Cyclone
namespace DnsClient

open Serial

def DNS_CLIENT_MAX_RETRIES : Nat := 3
def DNS_CLIENT_INIT_TIMEOUT : Word := 1000
def DNS_CLIENT_MAX_TIMEOUT : Word := 5000
def DNS_MIN_LIFETIME : Word := 1000
def DNS_MAX_LIFETIME : Word := 3600000
def DNS_MESSAGE_MAX_SIZE : Nat := 512
def DNS_RR_TYPE_A : Nat := 1
def DNS_RR_TYPE_AAAA : Nat := 28
def DNS_RR_CLASS_IN : Nat := 1

inductive HostType
  | ANY | IPV4 | IPV6
  deriving DecidableEq, Repr

inductive DnsState
  | NONE | IN_PROGRESS | RESOLVED | PERMANENT
  deriving DecidableEq, Repr

/-- An entry, with a record of the queries it has sent. -/
structure DnsCacheEntry where
  state : DnsState := .NONE
  type : HostType := .ANY
  interface : Nat := 0
  name : List UInt8 := []
  ipAddr : List UInt8 := []
  port : Nat := 0
  id : Nat := 0
  dnsServerNum : Nat := 0
  retransmitCount : Nat := 0
  timestamp : Word := 0
  timeout : Word := 0
  maxTimeout : Word := 0
  /-- The servers of the queries, by their place in the list, the last query first. -/
  queries : List Nat := []
  deriving DecidableEq, Repr

/-- An entry of `udpCallbackTable`, and whether its callback is `dnsProcessResponse`. -/
structure UdpRxCallbackDesc where
  interface : Option Nat
  port : Nat
  dns : Bool
  deriving DecidableEq, Repr

/-- The cache has `DNS_CACHE_SIZE = n + 1` entries. An entry of the table of callbacks is `none` if
it is free. A server is its address, zero if it is not specified. -/
structure DnsContext (n : Nat) where
  cache : Fin (n + 1) → DnsCacheEntry
  callbacks : List (Option UdpRxCallbackDesc)
  dynamicPort : Nat
  servers : Nat → HostType → List Nat

/-- What a call gets: the time, random numbers, and whether the query of an entry can be sent. -/
structure DnsWorld (n : Nat) where
  time : Word
  rand : Word
  id : Nat
  sends : Fin (n + 1) → Bool

/-! ## Callbacks -/

/-- `udpGetDynamicPort`: the port, and the next value of the counter. -/
def udpGetDynamicPort (udpDynamicPort : Nat) (rand : Word) : Nat × Nat :=
  let port :=
    if udpDynamicPort < SOCKET_EPHEMERAL_PORT_MIN ∨ udpDynamicPort > SOCKET_EPHEMERAL_PORT_MAX then
      SOCKET_EPHEMERAL_PORT_MIN +
        rand.toNat % (SOCKET_EPHEMERAL_PORT_MAX - SOCKET_EPHEMERAL_PORT_MIN + 1)
    else udpDynamicPort
  (port, if port < SOCKET_EPHEMERAL_PORT_MAX then port + 1 else SOCKET_EPHEMERAL_PORT_MIN)

def udpAttachRxCallback (cb : UdpRxCallbackDesc) :
    List (Option UdpRxCallbackDesc) → Option (List (Option UdpRxCallbackDesc))
  | [] => none
  | none :: table => some (some cb :: table)
  | some c :: table => (udpAttachRxCallback cb table).map (some c :: ·)

/-- Every callback of the port on the interface is removed. -/
def udpDetachRxCallback (interface port : Nat) (table : List (Option UdpRxCallbackDesc)) :
    List (Option UdpRxCallbackDesc) :=
  table.map fun slot => slot.filter fun cb => ¬(cb.port = port ∧ cb.interface = some interface)

/-! ## The cache -/

section Cache

variable {n : Nat}

def DnsContext.setEntry (s : DnsContext n) (i : Fin (n + 1)) (e : DnsCacheEntry) : DnsContext n :=
  { s with cache := Function.update s.cache i e }

def dnsDeleteEntry (i : Fin (n + 1)) (s : DnsContext n) : DnsContext n :=
  let e := s.cache i
  let s := s.setEntry i { e with state := .NONE }
  if e.state = .IN_PROGRESS then
    { s with callbacks := udpDetachRxCallback e.interface e.port s.callbacks }
  else s

/-- The loop of `dnsCreateEntry` over entries that are all in use. -/
def oldestEntry (time : Word) (s : DnsContext n) : Fin (n + 1) :=
  (List.finRange (n + 1)).foldl (fun oldest i =>
    if time - (s.cache i).timestamp > time - (s.cache oldest).timestamp then i else oldest) 0

/-- The entry, with its contents erased. -/
def dnsCreateEntry (time : Word) (s : DnsContext n) : Fin (n + 1) × DnsContext n :=
  match (List.finRange (n + 1)).find? fun i => (s.cache i).state = .NONE with
  | some i => (i, s.setEntry i {})
  | none =>
    let i := oldestEntry time s
    (i, (dnsDeleteEntry i s).setEntry i {})

def dnsFindEntry (interface : Nat) (name : List UInt8) (type : HostType) (s : DnsContext n) :
    Option (Fin (n + 1)) :=
  (List.finRange (n + 1)).find? fun i =>
    (s.cache i).state ≠ .NONE ∧ (s.cache i).interface = interface ∧
      ((s.cache i).type = type ∨ type = .ANY) ∧ lower (s.cache i).name = lower name

def dnsFlushCache (interface : Nat) (s : DnsContext n) : DnsContext n :=
  (List.finRange (n + 1)).foldl (fun s i =>
    if (s.cache i).state ≠ .NONE ∧ (s.cache i).interface = interface then dnsDeleteEntry i s
    else s) s

/-! ## Queries -/

/-- The entry after a query to the server it has selected; `none` is an error. -/
def dnsSendQuery (sends : Bool) (servers : Nat → HostType → List Nat) (e : DnsCacheEntry) :
    Option DnsCacheEntry :=
  if e.type = .ANY then none
  else
    match (servers e.interface e.type)[e.dnsServerNum]? with
    | none => none
    | some addr =>
      if addr = 0 then none
      else if sends then some { e with queries := e.dnsServerNum :: e.queries }
      else none

/-- `dnsResolve` up to its first release of the mutex. -/
def dnsResolve (w : DnsWorld n) (interface : Nat) (name : List UInt8) (type : HostType)
    (s : DnsContext n) : DnsContext n :=
  match dnsFindEntry interface name type s with
  | some _ => s
  | none =>
    let (i, s) := dnsCreateEntry w.time s
    let (port, dynamicPort) := udpGetDynamicPort s.dynamicPort w.rand
    let s := { s with dynamicPort }
    let e : DnsCacheEntry := { name, type, interface, port, id := w.id }
    match udpAttachRxCallback ⟨some interface, port, true⟩ s.callbacks with
    | none => s.setEntry i e
    | some callbacks =>
      let e := { e with retransmitCount := DNS_CLIENT_MAX_RETRIES }
      match dnsSendQuery (w.sends i) s.servers e with
      | some e =>
        { s with callbacks }.setEntry i
          { e with
            timestamp := w.time
            timeout := DNS_CLIENT_INIT_TIMEOUT
            maxTimeout := DNS_CLIENT_MAX_TIMEOUT
            retransmitCount := e.retransmitCount - 1
            state := .IN_PROGRESS }
      | none => { s with callbacks := udpDetachRxCallback interface port callbacks }.setEntry i e

/-- One turn of `dnsTick`. -/
def tickEntry (w : DnsWorld n) (s : DnsContext n) (i : Fin (n + 1)) : DnsContext n :=
  let e := s.cache i
  if e.state = .IN_PROGRESS then
    if timeReached w.time (e.timestamp + e.timeout) then
      if e.retransmitCount > 0 then
        match dnsSendQuery (w.sends i) s.servers e with
        | some e =>
          s.setEntry i
            { e with
              timestamp := w.time
              timeout := if e.timeout * 2 < e.maxTimeout then e.timeout * 2 else e.maxTimeout
              retransmitCount := e.retransmitCount - 1 }
        | none => dnsDeleteEntry i s
      else
        -- the next DNS server
        let e := { e with
          dnsServerNum := e.dnsServerNum + 1, retransmitCount := DNS_CLIENT_MAX_RETRIES }
        match dnsSendQuery (w.sends i) s.servers e with
        | some e =>
          s.setEntry i
            { e with
              timestamp := w.time
              timeout := DNS_CLIENT_INIT_TIMEOUT
              retransmitCount := e.retransmitCount - 1 }
        | none => dnsDeleteEntry i (s.setEntry i e)
    else s
  else if e.state = .RESOLVED then
    if timeReached w.time (e.timestamp + e.timeout) then dnsDeleteEntry i s else s
  else s

def dnsTick (w : DnsWorld n) (s : DnsContext n) : DnsContext n :=
  (List.finRange (n + 1)).foldl (tickEntry w) s

/-! ## Responses -/

def field16 (message : List UInt8) (pos : Nat) : Nat :=
  (message.getD pos 0).toNat * 256 + (message.getD (pos + 1) 0).toNat

def field32 (message : List UInt8) (pos : Nat) : Nat :=
  field16 message pos * 65536 + field16 message (pos + 2)

/-- The lifetime of a record, computed in 32 bits and limited. -/
def dnsLifetime (ttl : Nat) : Word :=
  let timeout := w32 (ttl * 1000)
  let timeout := if timeout ≥ DNS_MAX_LIFETIME then DNS_MAX_LIFETIME else timeout
  if timeout ≤ DNS_MIN_LIFETIME then DNS_MIN_LIFETIME else timeout

/-- The type of the records that answer a question, and the size of their data. -/
def HostType.record : HostType → Nat × Nat
  | .IPV6 => (DNS_RR_TYPE_AAAA, 16)
  | _ => (DNS_RR_TYPE_A, 4)

/-- The loop over the answers: the data and the TTL of the first record that answers. -/
def parseAnswers (type : HostType) (message : List UInt8) : Nat → Nat → Option (List UInt8 × Nat)
  | 0, _ => none
  | count + 1, pos =>
    match dnsParseName message pos 0 with
    | none => none
    | some (pos, _) =>
      let rdlength := field16 message (pos + 8)
      if pos + 10 > message.length then none
      else if pos + 10 + rdlength > message.length then none
      else if type ≠ .ANY ∧ field16 message pos = type.record.1 ∧ rdlength = type.record.2 then
        some ((message.drop (pos + 10)).take rdlength, field32 message (pos + 4))
      else parseAnswers type message count (pos + 10 + rdlength)

inductive Response
  | ignored
  | failed
  | resolved (ipAddr : List UInt8) (ttl : Nat)
  deriving DecidableEq, Repr

/-- What a response means to the entry whose port it is for. -/
def examine (e : DnsCacheEntry) (message : List UInt8) : Response :=
  if field16 message 0 ≠ e.id then .ignored
  else
    match dnsParseName message 12 0 with
    | none => .ignored
    | some (pos, _) =>
      if pos + 4 > message.length then .ignored
      -- a comparison that reads behind the name may end in a match
      else if (dnsCompareName message 12 e.name 0).any (· ≠ 0) then .ignored
      else if field16 message (pos + 2) ≠ DNS_RR_CLASS_IN then .ignored
      else if e.type ≠ .ANY ∧ field16 message pos ≠ e.type.record.1 then .ignored
      else if (message.getD 3 0).toNat % 16 ≠ 0 then .failed
      else
        match parseAnswers e.type message (field16 message 6) (pos + 4) with
        | some (ipAddr, ttl) => .resolved ipAddr ttl
        | none => .ignored

/-- The first entry in progress with the port. -/
def entryOf (destPort : Nat) (s : DnsContext n) : Option (Fin (n + 1)) :=
  (List.finRange (n + 1)).find? fun i =>
    (s.cache i).state = .IN_PROGRESS ∧ (s.cache i).port = destPort

def dnsProcessResponse (w : DnsWorld n) (interface destPort : Nat) (message : List UInt8)
    (s : DnsContext n) : DnsContext n :=
  if message.length < 12 ∨ message.length > DNS_MESSAGE_MAX_SIZE then s
  else if (message.getD 2 0).toNat < 128 ∨ field16 message 4 ≠ 1 then s
  else
    match entryOf destPort s with
    | none => s
    | some i =>
      match examine (s.cache i) message with
      | .ignored => s
      | .failed => dnsDeleteEntry i s
      | .resolved ipAddr ttl =>
        { s with
          callbacks := udpDetachRxCallback interface (s.cache i).port s.callbacks }.setEntry i
          { s.cache i with
            ipAddr, timestamp := w.time, timeout := dnsLifetime ttl, state := .RESOLVED }

/-- A datagram, given to every callback of its port. -/
def udpInvokeRxCallback (w : DnsWorld n) (interface destPort : Nat) (message : List UInt8)
    (s : DnsContext n) : DnsContext n :=
  (List.range s.callbacks.length).foldl (fun s k =>
    match (s.callbacks[k]?).join with
    | some cb =>
      if (cb.interface = none ∨ cb.interface = some interface) ∧ cb.port = destPort ∧
          cb.dns = true then
        dnsProcessResponse w interface destPort message s
      else s
    | none => s) s

inductive DnsEvent (n : Nat)
  | resolve (w : DnsWorld n) (interface : Nat) (name : List UInt8) (type : HostType)
  | tick (w : DnsWorld n)
  | datagram (w : DnsWorld n) (interface destPort : Nat) (message : List UInt8)
  | setServers (servers : Nat → HostType → List Nat)
  | flush (interface : Nat)

def step (s : DnsContext n) : DnsEvent n → DnsContext n
  | .resolve w interface name type => dnsResolve w interface name type s
  | .tick w => dnsTick w s
  | .datagram w interface destPort message => udpInvokeRxCallback w interface destPort message s
  | .setServers servers => { s with servers }
  | .flush interface => dnsFlushCache interface s

end Cache

/-! ## The table of callbacks -/

/-- The callback of an entry in progress. -/
def callbackOf (e : DnsCacheEntry) : Option UdpRxCallbackDesc :=
  some ⟨some e.interface, e.port, true⟩

section Callbacks

variable {table table' : List (Option UdpRxCallbackDesc)} {cb c : UdpRxCallbackDesc}
  {interface port : Nat}

theorem attach_eq_none : udpAttachRxCallback cb table = none ↔ none ∉ table := by
  induction table with
  | nil => simp [udpAttachRxCallback]
  | cons slot table ih =>
    cases slot with
    | none => simp [udpAttachRxCallback]
    | some c => simp [udpAttachRxCallback, ih]

theorem attach_count (h : udpAttachRxCallback cb table = some table') (c : UdpRxCallbackDesc) :
    table'.count (some c) = table.count (some c) + if c = cb then 1 else 0 := by
  induction table generalizing table' with
  | nil => cases h
  | cons slot table ih =>
    cases slot with
    | none =>
      cases h
      rw [List.count_cons, List.count_cons]
      by_cases hc : c = cb
      · simp [hc]
      · simp [hc, Ne.symm hc]
    | some d =>
      rw [udpAttachRxCallback, Option.map_eq_some_iff] at h
      obtain ⟨t, ht, rfl⟩ := h
      rw [List.count_cons, List.count_cons, ih ht]
      omega

theorem mem_attach (h : udpAttachRxCallback cb table = some table') :
    some c ∈ table' ↔ c = cb ∨ some c ∈ table := by
  rw [← List.count_pos_iff, ← List.count_pos_iff, attach_count h]
  by_cases hc : c = cb
  · simp [hc]
  · simp [hc]

theorem mem_detach : some c ∈ udpDetachRxCallback interface port table ↔
    some c ∈ table ∧ ¬(c.port = port ∧ c.interface = some interface) := by
  unfold udpDetachRxCallback
  rw [List.mem_map]
  constructor
  · rintro ⟨slot, hs, he⟩
    rw [Option.filter_eq_some_iff] at he
    rw [he.1] at hs
    exact ⟨hs, of_decide_eq_true he.2⟩
  · rintro ⟨hs, hc⟩
    exact ⟨some c, hs, Option.filter_eq_some_iff.mpr ⟨rfl, decide_eq_true hc⟩⟩

theorem detach_count (hc : ¬(c.port = port ∧ c.interface = some interface)) :
    (udpDetachRxCallback interface port table).count (some c) = table.count (some c) := by
  unfold udpDetachRxCallback
  induction table with
  | nil => rfl
  | cons slot table ih =>
    rw [List.map_cons, List.count_cons, List.count_cons, ih]
    congr 1
    cases slot with
    | none => rfl
    | some d =>
      by_cases hd : d.port = port ∧ d.interface = some interface
      · have hne : d ≠ c := fun he => hc (he ▸ hd)
        simp [Option.filter, hd, hne]
      · simp [Option.filter, hd]

end Callbacks

/-! ## The balance of queries and callbacks -/

/-- The queries of an entry in progress, in the order of the servers, and no more to each server
than the counter allows. -/
structure Sent (e : DnsCacheEntry) : Prop where
  order : e.queries.Pairwise (· ≥ ·)
  current : ∀ q ∈ e.queries, q ≤ e.dnsServerNum
  count : e.queries.count e.dnsServerNum + e.retransmitCount = DNS_CLIENT_MAX_RETRIES
  bound : ∀ q, e.queries.count q ≤ DNS_CLIENT_MAX_RETRIES

/-- Every entry in progress has one callback, the only one on its interface and port, and a port of
its own; there are no other callbacks of the client. -/
structure Balanced {n : Nat} (cache : Fin (n + 1) → DnsCacheEntry)
    (callbacks : List (Option UdpRxCallbackDesc)) : Prop where
  one : ∀ k, (cache k).state = .IN_PROGRESS → callbacks.count (callbackOf (cache k)) = 1
  sole : ∀ k, (cache k).state = .IN_PROGRESS → ∀ cb, some cb ∈ callbacks →
    cb.port = (cache k).port → cb.interface = some (cache k).interface → cb.dns = true
  other : ∀ cb, some cb ∈ callbacks → cb.dns = true →
    ∃ k, (cache k).state = .IN_PROGRESS ∧ some cb = callbackOf (cache k)
  ports : ∀ k l, (cache k).state = .IN_PROGRESS → (cache l).state = .IN_PROGRESS →
    (cache k).port = (cache l).port → k = l
  sent : ∀ k, (cache k).state = .IN_PROGRESS → Sent (cache k)

section Balance

variable {n : Nat} {cache : Fin (n + 1) → DnsCacheEntry}
  {callbacks callbacks' : List (Option UdpRxCallbackDesc)} {k : Fin (n + 1)} {e : DnsCacheEntry}

/-- An entry that is not in progress becomes another one that is not. -/
theorem Balanced.idle (hb : Balanced cache callbacks) (hk : (cache k).state ≠ .IN_PROGRESS)
    (he : e.state ≠ .IN_PROGRESS) : Balanced (Function.update cache k e) callbacks := by
  have hsame : ∀ j, (Function.update cache k e j).state = .IN_PROGRESS →
      (cache j).state = .IN_PROGRESS ∧ Function.update cache k e j = cache j := by
    intro j hj
    by_cases hjk : j = k
    · subst hjk
      rw [Function.update_self] at hj
      exact absurd hj he
    · rw [Function.update_of_ne hjk] at hj ⊢
      exact ⟨hj, rfl⟩
  refine ⟨fun j hj => ?_, fun j hj => ?_, fun cb hcb hd => ?_, fun j l hj hl hp => ?_,
    fun j hj => ?_⟩
  · rw [(hsame j hj).2]
    exact hb.one j (hsame j hj).1
  · rw [(hsame j hj).2]
    exact hb.sole j (hsame j hj).1
  · obtain ⟨j, hj, hcb'⟩ := hb.other cb hcb hd
    have hjk : j ≠ k := fun hc => hk (hc ▸ hj)
    exact ⟨j, by rw [Function.update_of_ne hjk]; exact hj, by
      rw [Function.update_of_ne hjk]; exact hcb'⟩
  · rw [(hsame j hj).2, (hsame l hl).2] at hp
    exact hb.ports j l (hsame j hj).1 (hsame l hl).1 hp
  · rw [(hsame j hj).2]
    exact hb.sent j (hsame j hj).1

/-- An entry in progress leaves that state, and its callback is removed. -/
theorem Balanced.release (hb : Balanced cache callbacks) (hk : (cache k).state = .IN_PROGRESS)
    (he : e.state ≠ .IN_PROGRESS) : Balanced (Function.update cache k e)
      (udpDetachRxCallback (cache k).interface (cache k).port callbacks) := by
  have hsame : ∀ j, (Function.update cache k e j).state = .IN_PROGRESS →
      j ≠ k ∧ (cache j).state = .IN_PROGRESS ∧ Function.update cache k e j = cache j := by
    intro j hj
    by_cases hjk : j = k
    · subst hjk
      rw [Function.update_self] at hj
      exact absurd hj he
    · rw [Function.update_of_ne hjk] at hj ⊢
      exact ⟨hjk, hj, rfl⟩
  refine ⟨fun j hj => ?_, fun j hj cb hcb => ?_, fun cb hcb hd => ?_, fun j l hj hl hp => ?_,
    fun j hj => ?_⟩
  · obtain ⟨hjk, hj', heq⟩ := hsame j hj
    rw [heq, callbackOf, detach_count fun hc => hjk (hb.ports j k hj' hk hc.1)]
    exact hb.one j hj'
  · obtain ⟨-, hj', heq⟩ := hsame j hj
    rw [heq]
    exact hb.sole j hj' cb (mem_detach.mp hcb).1
  · obtain ⟨hin, hnot⟩ := mem_detach.mp hcb
    obtain ⟨j, hj, hcb'⟩ := hb.other cb hin hd
    have hjk : j ≠ k := by
      rintro rfl
      obtain rfl := Option.some.inj hcb'
      exact hnot ⟨rfl, rfl⟩
    exact ⟨j, by rw [Function.update_of_ne hjk]; exact hj, by
      rw [Function.update_of_ne hjk]; exact hcb'⟩
  · obtain ⟨-, hj', heqj⟩ := hsame j hj
    obtain ⟨-, hl', heql⟩ := hsame l hl
    rw [heqj, heql] at hp
    exact hb.ports j l hj' hl' hp
  · obtain ⟨-, hj', heq⟩ := hsame j hj
    rw [heq]
    exact hb.sent j hj'

/-- An entry in progress goes on with its port. -/
theorem Balanced.advance (hb : Balanced cache callbacks) (hk : (cache k).state = .IN_PROGRESS)
    (hi : e.interface = (cache k).interface) (hp : e.port = (cache k).port)
    (hin : e.state = .IN_PROGRESS) (hs : Sent e) :
    Balanced (Function.update cache k e) callbacks := by
  have hsame : ∀ j, (Function.update cache k e j).state = .IN_PROGRESS →
      (cache j).state = .IN_PROGRESS ∧
        (Function.update cache k e j).interface = (cache j).interface ∧
        (Function.update cache k e j).port = (cache j).port := by
    intro j hj
    by_cases hjk : j = k
    · subst hjk
      rw [Function.update_self]
      exact ⟨hk, hi, hp⟩
    · rw [Function.update_of_ne hjk] at hj ⊢
      exact ⟨hj, rfl, rfl⟩
  refine ⟨fun j hj => ?_, fun j hj => ?_, fun cb hcb hd => ?_, fun j l hj hl hp => ?_,
    fun j hj => ?_⟩
  · obtain ⟨hj', hij, hpj⟩ := hsame j hj
    rw [callbackOf, hij, hpj]
    exact hb.one j hj'
  · obtain ⟨hj', hij, hpj⟩ := hsame j hj
    rw [hij, hpj]
    exact hb.sole j hj'
  · obtain ⟨j, hj, hcb'⟩ := hb.other cb hcb hd
    have hj' : (Function.update cache k e j).state = .IN_PROGRESS := by
      by_cases hjk : j = k
      · subst hjk
        rw [Function.update_self]
        exact hin
      · rw [Function.update_of_ne hjk]
        exact hj
    obtain ⟨-, hij, hpj⟩ := hsame j hj'
    exact ⟨j, hj', by rw [callbackOf, hij, hpj]; exact hcb'⟩
  · obtain ⟨hj', -, hpj⟩ := hsame j hj
    obtain ⟨hl', -, hpl⟩ := hsame l hl
    rw [hpj, hpl] at hp
    exact hb.ports j l hj' hl' hp
  · by_cases hjk : j = k
    · subst hjk
      rw [Function.update_self]
      exact hs
    · rw [Function.update_of_ne hjk]
      exact hb.sent j (hsame j hj).1


/-- An entry gets a port that no other entry has, and its callback. -/
theorem Balanced.attach (hb : Balanced cache callbacks) (hk : (cache k).state ≠ .IN_PROGRESS)
    (hfree : ∀ l, (cache l).state = .IN_PROGRESS → (cache l).port ≠ e.port)
    (hsole : ∀ cb, some cb ∈ callbacks → cb.port = e.port → cb.interface ≠ some e.interface)
    (ha : udpAttachRxCallback ⟨some e.interface, e.port, true⟩ callbacks = some callbacks')
    (hin : e.state = .IN_PROGRESS) (hs : Sent e) :
    Balanced (Function.update cache k e) callbacks' := by
  have hne : ∀ l, (cache l).state = .IN_PROGRESS → l ≠ k := fun l hl hc => hk (hc ▸ hl)
  have hnew : callbacks.count (callbackOf e) = 0 := by
    rw [List.count_eq_zero]
    intro hmem
    obtain ⟨l, hl, hcb⟩ := hb.other _ hmem rfl
    exact hfree l hl (congrArg UdpRxCallbackDesc.port (Option.some.inj hcb)).symm
  have hold : ∀ j, j ≠ k → (Function.update cache k e j).state = .IN_PROGRESS →
      (cache j).state = .IN_PROGRESS := by
    intro j hjk hj
    rwa [Function.update_of_ne hjk] at hj
  refine ⟨fun j hj => ?_, fun j hj cb hcb hpcb hicb => ?_, fun cb hcb hd => ?_,
    fun j l hj hl hp => ?_, fun j hj => ?_⟩
  · rw [callbackOf, attach_count ha]
    by_cases hjk : j = k
    · subst hjk
      rw [Function.update_self, if_pos rfl]
      exact congrArg (· + 1) hnew
    · have hj' := hold j hjk hj
      rw [Function.update_of_ne hjk, if_neg fun hc =>
        hfree j hj' (congrArg UdpRxCallbackDesc.port hc)]
      exact hb.one j hj'
  · rcases (mem_attach ha).mp hcb with rfl | hmem
    · rfl
    · by_cases hjk : j = k
      · subst hjk
        rw [Function.update_self] at hpcb hicb
        exact absurd hicb (hsole cb hmem hpcb)
      · rw [Function.update_of_ne hjk] at hpcb hicb
        exact hb.sole j (hold j hjk hj) cb hmem hpcb hicb
  · rcases (mem_attach ha).mp hcb with rfl | hmem
    · exact ⟨k, by rw [Function.update_self]; exact hin, by rw [Function.update_self]; rfl⟩
    · obtain ⟨l, hl, hcb'⟩ := hb.other cb hmem hd
      exact ⟨l, by rw [Function.update_of_ne (hne l hl)]; exact hl, by
        rw [Function.update_of_ne (hne l hl)]; exact hcb'⟩
  · by_cases hjk : j = k
    · by_cases hlk : l = k
      · rw [hjk, hlk]
      · rw [hjk, Function.update_self, Function.update_of_ne hlk] at hp
        exact absurd hp.symm (hfree l (hold l hlk hl))
    · by_cases hlk : l = k
      · rw [hlk, Function.update_self, Function.update_of_ne hjk] at hp
        exact absurd hp (hfree j (hold j hjk hj))
      · rw [Function.update_of_ne hjk, Function.update_of_ne hlk] at hp
        exact hb.ports j l (hold j hjk hj) (hold l hlk hl) hp
  · by_cases hjk : j = k
    · subst hjk
      rw [Function.update_self]
      exact hs
    · rw [Function.update_of_ne hjk]
      exact hb.sent j (hold j hjk hj)

/-- A callback is registered and removed again. -/
theorem Balanced.refuse {interface port : Nat} (hb : Balanced cache callbacks)
    (hfree : ∀ l, (cache l).state = .IN_PROGRESS →
      ¬((cache l).port = port ∧ (cache l).interface = interface))
    (ha : udpAttachRxCallback ⟨some interface, port, true⟩ callbacks = some callbacks') :
    Balanced cache (udpDetachRxCallback interface port callbacks') := by
  refine ⟨fun j hj => ?_, fun j hj cb hcb => ?_, fun cb hcb hd => ?_, hb.ports, hb.sent⟩
  · have hne : ¬((cache j).port = port ∧ some (cache j).interface = some interface) :=
      fun hc => hfree j hj ⟨hc.1, Option.some.inj hc.2⟩
    rw [callbackOf, detach_count hne, attach_count ha, if_neg fun hc =>
      hne ⟨congrArg UdpRxCallbackDesc.port hc, congrArg UdpRxCallbackDesc.interface hc⟩]
    exact hb.one j hj
  · obtain ⟨hin, hnot⟩ := mem_detach.mp hcb
    rcases (mem_attach ha).mp hin with rfl | hmem
    · exact absurd ⟨rfl, rfl⟩ hnot
    · exact hb.sole j hj cb hmem
  · obtain ⟨hin, hnot⟩ := mem_detach.mp hcb
    rcases (mem_attach ha).mp hin with rfl | hmem
    · exact absurd ⟨rfl, rfl⟩ hnot
    · exact hb.other cb hmem hd

end Balance

end DnsClient
end Cyclone
