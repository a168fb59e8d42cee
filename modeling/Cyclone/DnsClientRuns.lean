import Cyclone.DnsClient
import Cyclone.Lib.Run

/-!
# Cyclone.DnsClientRuns

Runs of the DNS client.

* `Fits`: the calls that keep the ports of the entries apart, and whose responses do not meet a flaw
  of the comparison of names or of the computation of lifetimes.
* `balanced_step`: what such a call preserves.
* `queries_balanced`: the balance of queries and callbacks in runs, and what resolves an entry.
-/

namespace Cyclone
namespace DnsClient

open Serial

variable {n : Nat}

/-! ## Queries -/

theorem sendQuery_some {sends : Bool} {servers : Nat → HostType → List Nat} {e e' : DnsCacheEntry}
    (h : dnsSendQuery sends servers e = some e') :
    e' = { e with queries := e.dnsServerNum :: e.queries } := by
  unfold dnsSendQuery at h
  split at h
  · cases h
  · split at h
    · cases h
    · split at h
      · cases h
      · split at h
        · exact (Option.some.inj h).symm
        · cases h

section Queries

variable {e e' : DnsCacheEntry}

theorem Sent.first (hq : e.queries = [e.dnsServerNum])
    (hc : e.retransmitCount = DNS_CLIENT_MAX_RETRIES - 1) : Sent e := by
  refine ⟨?_, fun q hq' => ?_, ?_, fun q => ?_⟩
  · rw [hq]
    exact List.pairwise_singleton _ _
  · rw [hq, List.mem_singleton] at hq'
    exact hq'.le
  · rw [hq, hc, List.count_singleton_self]
    rfl
  · rw [hq]
    exact List.count_le_length.trans (Nat.le_succ_of_le (Nat.le_succ 1))

/-- Another query to the server. -/
theorem Sent.again (h : Sent e) (hpos : 0 < e.retransmitCount)
    (hq : e'.queries = e.dnsServerNum :: e.queries) (hn : e'.dnsServerNum = e.dnsServerNum)
    (hc : e'.retransmitCount = e.retransmitCount - 1) : Sent e' := by
  have hcount := h.count
  refine ⟨?_, fun q hq' => ?_, ?_, fun q => ?_⟩
  · rw [hq]
    exact List.pairwise_cons.mpr ⟨h.current, h.order⟩
  · rw [hq, List.mem_cons] at hq'
    rw [hn]
    exact hq'.elim (·.le) (h.current q)
  · rw [hq, hn, hc, List.count_cons_self]
    omega
  · rw [hq, List.count_cons]
    by_cases hqn : e.dnsServerNum = q
    · subst hqn
      rw [if_pos (beq_self_eq_true _)]
      omega
    · rw [if_neg (by simpa using hqn)]
      exact h.bound q

/-- The first query to the next server. -/
theorem Sent.next (h : Sent e) (hq : e'.queries = (e.dnsServerNum + 1) :: e.queries)
    (hn : e'.dnsServerNum = e.dnsServerNum + 1)
    (hc : e'.retransmitCount = DNS_CLIENT_MAX_RETRIES - 1) : Sent e' := by
  have hnew : e.queries.count (e.dnsServerNum + 1) = 0 := by
    rw [List.count_eq_zero]
    intro hmem
    have := h.current _ hmem
    omega
  refine ⟨?_, fun q hq' => ?_, ?_, fun q => ?_⟩
  · rw [hq]
    exact List.pairwise_cons.mpr ⟨fun q hq' => (h.current q hq').trans (Nat.le_succ _), h.order⟩
  · rw [hq, List.mem_cons] at hq'
    rw [hn]
    exact hq'.elim (·.le) fun hmem => (h.current q hmem).trans (Nat.le_succ _)
  · rw [hq, hn, hc, List.count_cons_self, hnew]
    rfl
  · rw [hq, List.count_cons]
    by_cases hqn : e.dnsServerNum + 1 = q
    · subst hqn
      rw [if_pos (beq_self_eq_true _), hnew]
      decide
    · rw [if_neg (by simpa using hqn)]
      exact h.bound q

end Queries

/-! ## Calls that resolve no entry -/

/-- Every entry that is resolved was so before. -/
def NoneResolved (cache cache' : Fin (n + 1) → DnsCacheEntry) : Prop :=
  ∀ k, (cache' k).state = .RESOLVED → cache' k = cache k

section NoneResolved

variable {cache cache' cache'' : Fin (n + 1) → DnsCacheEntry}

theorem NoneResolved.refl (cache : Fin (n + 1) → DnsCacheEntry) : NoneResolved cache cache :=
  fun _ _ => rfl

theorem NoneResolved.update (h : NoneResolved cache cache') {e : DnsCacheEntry}
    (he : e.state ≠ .RESOLVED) (k : Fin (n + 1)) :
    NoneResolved cache (Function.update cache' k e) := by
  intro j hj
  by_cases hjk : j = k
  · subst hjk
    rw [Function.update_self] at hj
    exact absurd hj he
  · rw [Function.update_of_ne hjk] at hj ⊢
    exact h j hj

end NoneResolved

/-- Balanced, and no entry resolved since `cache`. -/
structure Kept (cache : Fin (n + 1) → DnsCacheEntry) (s : DnsContext n) : Prop where
  balanced : Balanced s.cache s.callbacks
  settled : NoneResolved cache s.cache

section Calls

variable {cache : Fin (n + 1) → DnsCacheEntry} {s : DnsContext n} {w : DnsWorld n}

@[simp] theorem setEntry_cache (s : DnsContext n) (i : Fin (n + 1)) (e : DnsCacheEntry) :
    (s.setEntry i e).cache = Function.update s.cache i e := rfl

@[simp] theorem setEntry_callbacks (s : DnsContext n) (i : Fin (n + 1)) (e : DnsCacheEntry) :
    (s.setEntry i e).callbacks = s.callbacks := rfl

theorem dnsDeleteEntry_cache (i : Fin (n + 1)) (s : DnsContext n) :
    (dnsDeleteEntry i s).cache = Function.update s.cache i { s.cache i with state := .NONE } := by
  unfold dnsDeleteEntry
  dsimp only
  split <;> rfl

/-- An entry is deleted, whatever has become of its counters. -/
theorem Kept.delete_set (h : Kept cache s) (i : Fin (n + 1)) {e : DnsCacheEntry}
    (hs : e.state = (s.cache i).state) (hi : e.interface = (s.cache i).interface)
    (hp : e.port = (s.cache i).port) : Kept cache (dnsDeleteEntry i (s.setEntry i e)) := by
  have hcache : (dnsDeleteEntry i (s.setEntry i e)).cache =
      Function.update s.cache i { e with state := .NONE } := by
    rw [dnsDeleteEntry_cache, setEntry_cache, Function.update_self, Function.update_idem]
  refine ⟨?_, ?_⟩
  · rw [hcache]
    unfold dnsDeleteEntry
    dsimp only [setEntry_cache]
    rw [Function.update_self]
    by_cases hin : (s.cache i).state = .IN_PROGRESS
    · rw [if_pos (hs.trans hin), hi, hp]
      exact h.balanced.release hin (by simp)
    · rw [if_neg (fun hc => hin (hs.symm.trans hc))]
      exact h.balanced.idle hin (by simp)
  · rw [hcache]
    exact h.settled.update (by simp) i

theorem Kept.delete (h : Kept cache s) (i : Fin (n + 1)) : Kept cache (dnsDeleteEntry i s) := by
  have hset : s.setEntry i (s.cache i) = s := by
    unfold DnsContext.setEntry
    rw [Function.update_eq_self]
  have := h.delete_set i (e := s.cache i) rfl rfl rfl
  rwa [hset] at this

theorem Kept.flush (h : Kept cache s) (interface : Nat) :
    Kept cache (dnsFlushCache interface s) := by
  refine List.foldlRecOn _ _ h fun s hk i _ => ?_
  split
  · exact hk.delete i
  · exact hk

/-- A query sent in a turn of `dnsTick`. -/
theorem Kept.query (h : Kept cache s) {i : Fin (n + 1)} (hin : (s.cache i).state = .IN_PROGRESS)
    {e : DnsCacheEntry} (hs : e.state = .IN_PROGRESS) (hi : e.interface = (s.cache i).interface)
    (hp : e.port = (s.cache i).port) (hsent : Sent e) : Kept cache (s.setEntry i e) := by
  refine ⟨h.balanced.advance hin hi hp hs hsent, h.settled.update ?_ i⟩
  rw [hs]
  simp

theorem Kept.tickEntry (h : Kept cache s) (w : DnsWorld n) (i : Fin (n + 1)) :
    Kept cache (tickEntry w s i) := by
  unfold DnsClient.tickEntry
  dsimp only
  by_cases hin : (s.cache i).state = .IN_PROGRESS
  · rw [if_pos hin]
    have hsent := h.balanced.sent i hin
    split
    · by_cases hpos : (s.cache i).retransmitCount > 0
      · rw [if_pos hpos]
        split
        · rename_i e he
          obtain rfl := sendQuery_some he
          exact h.query hin hin rfl rfl (hsent.again hpos rfl rfl rfl)
        · exact h.delete i
      · rw [if_neg hpos]
        split
        · rename_i e he
          obtain rfl := sendQuery_some he
          exact h.query hin hin rfl rfl (hsent.next rfl rfl rfl)
        · exact h.delete_set i rfl rfl rfl
    · exact h
  · rw [if_neg hin]
    split
    · split
      · exact h.delete i
      · exact h
    · exact h

theorem Kept.tick (h : Kept cache s) (w : DnsWorld n) : Kept cache (dnsTick w s) :=
  List.foldlRecOn _ _ h fun _ hk i _ => hk.tickEntry w i

/-! ## Creation -/

theorem Kept.create (h : Kept cache s) (time : Word) : Kept cache (dnsCreateEntry time s).2 ∧
    ((dnsCreateEntry time s).2.cache (dnsCreateEntry time s).1).state ≠ .IN_PROGRESS := by
  unfold dnsCreateEntry
  split
  · rename_i i hi
    have hnone : (s.cache i).state = .NONE := by simpa using List.find?_some hi
    refine ⟨⟨h.balanced.idle (by simp [hnone]) (by simp), h.settled.update (by simp) i⟩, ?_⟩
    simp
  · have hd := h.delete (oldestEntry time s)
    have hidle : ((dnsDeleteEntry (oldestEntry time s) s).cache (oldestEntry time s)).state ≠
        .IN_PROGRESS := by
      rw [dnsDeleteEntry_cache, Function.update_self]
      simp
    refine ⟨⟨hd.balanced.idle hidle (by simp), hd.settled.update (by simp) _⟩, ?_⟩
    simp

/-- Whether a query can be sent depends on the type, the interface and the server. -/
theorem sendQuery_ne {sends : Bool} {servers : Nat → HostType → List Nat}
    {e e' e'' : DnsCacheEntry} (h : dnsSendQuery sends servers e = none)
    (h' : dnsSendQuery sends servers e' = some e'') : ¬(e.type = e'.type ∧
      e.interface = e'.interface ∧ e.dnsServerNum = e'.dnsServerNum) := by
  rintro ⟨ht, hi, hn⟩
  have heq : (dnsSendQuery sends servers e).isSome = (dnsSendQuery sends servers e').isSome := by
    unfold dnsSendQuery
    rw [ht, hi, hn]
    split
    · rfl
    · split
      · rfl
      · split
        · rfl
        · cases sends <;> rfl
  rw [h, h'] at heq
  cases heq

/-- The port handed out to the entry `i` is not that of an entry in progress, nor of a callback on
the interface. It does no harm if no callback can be registered. If the query cannot be sent, it may
be that of an entry on another interface or of a callback of another client. -/
def PortFits (w : DnsWorld n) (interface : Nat) (type : HostType) (i : Fin (n + 1))
    (s : DnsContext n) : Prop :=
  let port := (udpGetDynamicPort s.dynamicPort w.rand).1
  let query := dnsSendQuery (w.sends i) s.servers { type, interface }
  none ∈ s.callbacks →
    (∀ l, (s.cache l).state = .IN_PROGRESS → (s.cache l).port = port →
      (s.cache l).interface ≠ interface ∧ query = none) ∧
    ∀ cb, some cb ∈ s.callbacks → cb.port = port → cb.interface = some interface → query = none

theorem Kept.resolve (h : Kept cache s) {interface : Nat} {name : List UInt8} {type : HostType}
    (hfit : dnsFindEntry interface name type s = none →
      PortFits w interface type (dnsCreateEntry w.time s).1 (dnsCreateEntry w.time s).2) :
    Kept cache (dnsResolve w interface name type s) := by
  unfold dnsResolve
  split
  · exact h
  · rename_i hfind
    have hports := hfit hfind
    obtain ⟨hk, hidle⟩ := h.create w.time
    generalize dnsCreateEntry w.time s = c at hports hk hidle
    obtain ⟨i, s⟩ := c
    dsimp only at hports hk hidle ⊢
    split
    · exact ⟨hk.balanced.idle hidle (by simp), hk.settled.update (by simp) i⟩
    · rename_i callbacks ha
      have hfree : none ∈ s.callbacks := by
        by_contra hc
        rw [attach_eq_none.mpr hc] at ha
        cases ha
      split
      · rename_i e he
        obtain rfl := sendQuery_some he
        have hsends : dnsSendQuery (w.sends i) s.servers { type, interface } ≠ none :=
          fun h => sendQuery_ne h he ⟨rfl, rfl, rfl⟩
        refine ⟨hk.balanced.attach hidle (fun l hl hp => ?_) (fun cb hcb hp hi => ?_) ha rfl
          (.first rfl rfl), hk.settled.update (by simp) i⟩
        · exact hsends ((hports hfree).1 l hl hp).2
        · exact hsends ((hports hfree).2 cb hcb hp hi)
      · refine ⟨(hk.balanced.refuse (fun l hl hc => ?_) ha).idle hidle (by simp),
          hk.settled.update (by simp) i⟩
        exact ((hports hfree).1 l hl hc.1).1 hc.2

end Calls

/-! ## Lifetimes -/

/-- The TTL in milliseconds, limited to the lifetimes allowed. -/
def lifetime (ttl : Nat) : Word :=
  BitVec.ofNat 32 (max DNS_MIN_LIFETIME.toNat (min (ttl * 1000) DNS_MAX_LIFETIME.toNat))

/-- The TTL in milliseconds has 32 bits, or what is left of it in 32 bits is not below the largest
lifetime either. -/
def TtlFits (ttl : Nat) : Prop :=
  ttl * 1000 < 2 ^ 32 ∨ DNS_MAX_LIFETIME.toNat ≤ ttl * 1000 % 2 ^ 32

theorem toNat_dnsLifetime (ttl : Nat) : (dnsLifetime ttl).toNat =
    max DNS_MIN_LIFETIME.toNat (min (ttl * 1000 % 2 ^ 32) DNS_MAX_LIFETIME.toNat) := by
  have hw : (w32 (ttl * 1000)).toNat = ttl * 1000 % 2 ^ 32 := BitVec.toNat_ofNat _ _
  have hmin : DNS_MIN_LIFETIME.toNat = 1000 := rfl
  have hmax : DNS_MAX_LIFETIME.toNat = 3600000 := rfl
  unfold dnsLifetime
  dsimp only
  by_cases h1 : w32 (ttl * 1000) ≥ DNS_MAX_LIFETIME
  · have h1' : 3600000 ≤ ttl * 1000 % 2 ^ 32 := by rwa [ge_iff_le, BitVec.le_def, hw] at h1
    rw [if_pos h1, if_neg (by decide)]
    omega
  · have h1' : ¬3600000 ≤ ttl * 1000 % 2 ^ 32 := by rwa [ge_iff_le, BitVec.le_def, hw] at h1
    rw [if_neg h1]
    by_cases h2 : w32 (ttl * 1000) ≤ DNS_MIN_LIFETIME
    · have h2' : ttl * 1000 % 2 ^ 32 ≤ 1000 := by rwa [BitVec.le_def, hw] at h2
      rw [if_pos h2]
      omega
    · have h2' : ¬ttl * 1000 % 2 ^ 32 ≤ 1000 := by rwa [BitVec.le_def, hw] at h2
      rw [if_neg h2, hw]
      omega

/-- The condition is exact. -/
theorem dnsLifetime_iff (ttl : Nat) : dnsLifetime ttl = lifetime ttl ↔ TtlFits ttl := by
  have hmin : DNS_MIN_LIFETIME.toNat = 1000 := rfl
  have hmax : DNS_MAX_LIFETIME.toNat = 3600000 := rfl
  rw [← BitVec.toNat_inj, toNat_dnsLifetime, lifetime, BitVec.toNat_ofNat, TtlFits]
  have hlt : max DNS_MIN_LIFETIME.toNat (min (ttl * 1000) DNS_MAX_LIFETIME.toNat) < 2 ^ 32 := by
    omega
  rw [Nat.mod_eq_of_lt hlt]
  by_cases hsmall : ttl * 1000 < 2 ^ 32
  · rw [Nat.mod_eq_of_lt hsmall]
    exact iff_of_true rfl (.inl hsmall)
  · generalize ttl * 1000 % 2 ^ 32 = left
    omega

/-! ## Responses -/

/-- The data and the TTL of the first of the records at `pos` that has the type and the size of an
address. -/
inductive FirstAnswer (type : HostType) (message : List UInt8) :
    Nat → Nat → List UInt8 → Nat → Prop
  | here {count pos next : Nat} {text : List UInt8}
      (hp : dnsParseName message pos 0 = some (next, text))
      (hlen : next + 10 + field16 message (next + 8) ≤ message.length)
      (ha : type ≠ .ANY ∧ field16 message next = type.record.1 ∧
        field16 message (next + 8) = type.record.2) :
      FirstAnswer type message (count + 1) pos
        ((message.drop (next + 10)).take (field16 message (next + 8))) (field32 message (next + 4))
  | later {count pos next ttl : Nat} {text ipAddr : List UInt8}
      (hp : dnsParseName message pos 0 = some (next, text))
      (hlen : next + 10 + field16 message (next + 8) ≤ message.length)
      (ha : ¬(type ≠ .ANY ∧ field16 message next = type.record.1 ∧
        field16 message (next + 8) = type.record.2))
      (h : FirstAnswer type message count (next + 10 + field16 message (next + 8)) ipAddr ttl) :
      FirstAnswer type message (count + 1) pos ipAddr ttl

theorem parseAnswers_iff {type : HostType} {message : List UInt8} {count pos : Nat}
    {ipAddr : List UInt8} {ttl : Nat} :
    parseAnswers type message count pos = some (ipAddr, ttl) ↔
      FirstAnswer type message count pos ipAddr ttl := by
  constructor
  · intro h
    induction count generalizing pos with
    | zero => cases h
    | succ count ih =>
      rw [parseAnswers] at h
      split at h
      · cases h
      · rename_i next text hp
        dsimp only at h
        split at h
        · cases h
        · split at h
          · cases h
          · rename_i hlen
            split at h
            · rename_i ha
              cases h
              exact .here hp (Nat.le_of_not_lt hlen) ha
            · rename_i ha
              exact .later hp (Nat.le_of_not_lt hlen) ha (ih h)
  · intro h
    induction h with
    | here hp hlen ha =>
      rw [parseAnswers, hp]
      dsimp only
      rw [if_neg (by omega), if_neg (by omega), if_pos ha]
    | later hp hlen ha _ ih =>
      rw [parseAnswers, hp]
      dsimp only
      rw [if_neg (by omega), if_neg (by omega), if_neg ha]
      exact ih

/-- The entry becomes resolved by a response for its port that has its identifier and its question,
for as long as the record says. -/
structure ResolvedBy (time : Word) (interface destPort : Nat) (message : List UInt8)
    (e e' : DnsCacheEntry) : Prop where
  before : e.state = .IN_PROGRESS
  after : e'.state = .RESOLVED
  interface : e.interface = interface
  port : e.port = destPort
  response : 128 ≤ (message.getD 2 0).toNat ∧ field16 message 4 = 1 ∧
    (message.getD 3 0).toNat % 16 = 0
  id : field16 message 0 = e.id
  answer : ∃ pos text, dnsParseName message 12 0 = some (pos, text) ∧ sameName text e.name ∧
    field16 message pos = e.type.record.1 ∧ field16 message (pos + 2) = DNS_RR_CLASS_IN ∧
    ∃ ttl, FirstAnswer e.type message (field16 message 6) (pos + 4) e'.ipAddr ttl ∧
      e'.timestamp = time ∧ e'.timeout = lifetime ttl

/-- The message answers the entry with the record, as far as the comparison of names can tell. -/
def Answers (e : DnsCacheEntry) (message ipAddr : List UInt8) (ttl : Nat) : Prop :=
  field16 message 0 = e.id ∧ (message.getD 3 0).toNat % 16 = 0 ∧
    ∃ pos text, dnsParseName message 12 0 = some (pos, text) ∧
      (dnsCompareName message 12 e.name 0).any (· ≠ 0) = false ∧
      field16 message (pos + 2) = DNS_RR_CLASS_IN ∧
      ¬(e.type ≠ .ANY ∧ field16 message pos ≠ e.type.record.1) ∧
      FirstAnswer e.type message (field16 message 6) (pos + 4) ipAddr ttl

theorem examine_resolved {e : DnsCacheEntry} {message ipAddr : List UInt8} {ttl : Nat}
    (h : examine e message = .resolved ipAddr ttl) : Answers e message ipAddr ttl := by
  unfold examine at h
  split at h
  · cases h
  · rename_i hid
    split at h
    · cases h
    · rename_i pos text hp
      split at h
      · cases h
      · split at h
        · cases h
        · rename_i hname
          split at h
          · cases h
          · rename_i hclass
            split at h
            · cases h
            · rename_i htype
              split at h
              · cases h
              · rename_i hrcode
                split at h
                · rename_i ip t ha
                  cases h
                  exact ⟨not_not.mp hid, not_not.mp hrcode, pos, text, hp,
                    Bool.eq_false_iff.mpr hname, not_not.mp hclass, htype, parseAnswers_iff.mp ha⟩
                · cases h

/-- No address answers a question for addresses of any type. -/
theorem FirstAnswer.type {type : HostType} {message ipAddr : List UInt8} {count pos ttl : Nat}
    (h : FirstAnswer type message count pos ipAddr ttl) : type ≠ .ANY := by
  induction h with
  | here _ _ ha => exact ha.1
  | later _ _ _ _ ih => exact ih

/-- What the call of a callback can do. -/
theorem dnsProcessResponse_cases (w : DnsWorld n) (interface destPort : Nat) (message : List UInt8)
    (s : DnsContext n) : dnsProcessResponse w interface destPort message s = s ∨
      128 ≤ (message.getD 2 0).toNat ∧ field16 message 4 = 1 ∧
      ∃ i, (s.cache i).state = .IN_PROGRESS ∧ (s.cache i).port = destPort ∧
        (dnsProcessResponse w interface destPort message s = dnsDeleteEntry i s ∨
          ∃ ipAddr ttl, examine (s.cache i) message = .resolved ipAddr ttl ∧
            dnsProcessResponse w interface destPort message s =
              { s with
                callbacks := udpDetachRxCallback interface (s.cache i).port s.callbacks }.setEntry i
                { s.cache i with
                  ipAddr
                  timestamp := w.time
                  timeout := dnsLifetime ttl
                  state := .RESOLVED }) := by
  unfold dnsProcessResponse
  split
  · exact .inl rfl
  · split
    · exact .inl rfl
    · rename_i hhead
      push Not at hhead
      split
      · exact .inl rfl
      · rename_i i hi
        obtain ⟨hin, hport⟩ : (s.cache i).state = .IN_PROGRESS ∧ (s.cache i).port = destPort := by
          simpa using List.find?_some hi
        cases hx : examine (s.cache i) message with
        | ignored => exact .inl rfl
        | failed => exact .inr ⟨hhead.1, hhead.2, i, hin, hport, .inl rfl⟩
        | resolved ipAddr ttl =>
          exact .inr ⟨hhead.1, hhead.2, i, hin, hport, .inr ⟨ipAddr, ttl, hx, rfl⟩⟩

/-! ## Datagrams -/

/-- An answer to an entry is not one that the comparison of names or the computation of the lifetime
gets wrong. -/
def ResponseFits (interface destPort : Nat) (message : List UInt8) (s : DnsContext n) : Prop :=
  ∀ k, (s.cache k).state = .IN_PROGRESS → (s.cache k).interface = interface →
    (s.cache k).port = destPort → ∀ ipAddr ttl, Answers (s.cache k) message ipAddr ttl →
      CompareAgrees message 12 (s.cache k).name 0 ∧ TtlFits ttl

/-- While a datagram is given to the callbacks. -/
structure Delivered (time : Word) (interface destPort : Nat) (message : List UInt8)
    (cache : Fin (n + 1) → DnsCacheEntry) (s : DnsContext n) : Prop where
  balanced : Balanced s.cache s.callbacks
  entry : ∀ k, s.cache k = cache k ∨ (s.cache k).state = .NONE ∨
    ResolvedBy time interface destPort message (cache k) (s.cache k)

section Datagrams

variable {s₀ s : DnsContext n} {w : DnsWorld n} {interface destPort : Nat} {message : List UInt8}

theorem Delivered.update {cache : Fin (n + 1) → DnsCacheEntry}
    (h : Delivered w.time interface destPort message cache s) {i : Fin (n + 1)} {e : DnsCacheEntry}
    (he : e.state = .NONE ∨ ResolvedBy w.time interface destPort message (cache i) e)
    (k : Fin (n + 1)) :
    Function.update s.cache i e k = cache k ∨ (Function.update s.cache i e k).state = .NONE ∨
      ResolvedBy w.time interface destPort message (cache k) (Function.update s.cache i e k) := by
  by_cases hk : k = i
  · subst hk
    rw [Function.update_self]
    exact .inr he
  · rw [Function.update_of_ne hk]
    exact h.entry k

/-- A callback of the client is called. -/
theorem Delivered.process
    (h : Delivered w.time interface destPort message s₀.cache s)
    (hfit : ResponseFits interface destPort message s₀) {cb : UdpRxCallbackDesc}
    (hcb : some cb ∈ s.callbacks) (hi : cb.interface = none ∨ cb.interface = some interface)
    (hp : cb.port = destPort) (hd : cb.dns = true) :
    Delivered w.time interface destPort message s₀.cache
      (dnsProcessResponse w interface destPort message s) := by
  rcases dnsProcessResponse_cases w interface destPort message s with
    heq | ⟨hqr, hqd, i, hin, hport, heq⟩
  · rw [heq]
    exact h
  · -- the entry of the callback
    obtain ⟨j, hj, hcbj⟩ := h.balanced.other cb hcb hd
    obtain rfl := Option.some.inj hcbj
    obtain rfl := h.balanced.ports j i hj hin (hp.trans hport.symm)
    obtain rfl : (s.cache j).interface = interface := by simpa using hi
    have hsame : s.cache j = s₀.cache j := by
      rcases h.entry j with hs | hs | hs
      · exact hs
      · rw [hs] at hin
        cases hin
      · rw [hs.after] at hin
        cases hin
    rcases heq with heq | ⟨ipAddr, ttl, hx, heq⟩
    · rw [heq]
      have hk : Kept s.cache s := ⟨h.balanced, .refl _⟩
      refine ⟨(hk.delete j).balanced, fun k => ?_⟩
      rw [dnsDeleteEntry_cache]
      exact h.update (.inl rfl) k
    · rw [heq]
      refine ⟨h.balanced.release hin (by simp), h.update (.inr ?_)⟩
      have hanswers := examine_resolved hx
      obtain ⟨hname, httl⟩ :=
        hfit j (hsame ▸ hin) (by rw [hsame]) (hsame ▸ hport) ipAddr ttl (hsame ▸ hanswers)
      obtain ⟨hid, hrcode, pos, text, hparse, hcmp, hclass, htype, ha⟩ := hanswers
      obtain ⟨res, hres, hagree⟩ := hname
      have hzero : res = 0 := by
        rw [← hsame] at hres
        rw [hres] at hcmp
        simpa using hcmp
      obtain ⟨pos', text', hparse', hsn⟩ := hagree.mp hzero
      rw [hparse] at hparse'
      cases hparse'
      rw [← hsame] at hsn ⊢
      refine ⟨hin, rfl, rfl, hport, ⟨hqr, hqd, hrcode⟩, hid, pos, text, hparse, hsn, ?_, hclass,
        ttl, ha, rfl, (dnsLifetime_iff ttl).mpr httl⟩
      by_contra hc
      exact htype ⟨ha.type, hc⟩

theorem Delivered.datagram (hb : Balanced s₀.cache s₀.callbacks)
    (hfit : ResponseFits interface destPort message s₀) :
    Delivered w.time interface destPort message s₀.cache
      (udpInvokeRxCallback w interface destPort message s₀) := by
  refine List.foldlRecOn _ _ ⟨hb, fun k => .inl rfl⟩ fun s h k _ => ?_
  split
  · rename_i cb hcb
    have hmem : some cb ∈ s.callbacks := by
      rw [Option.join_eq_some_iff] at hcb
      exact List.mem_of_getElem? hcb
    split
    · rename_i hc
      exact h.process hfit hmem hc.1 hc.2.1 hc.2.2
    · exact h
  · exact h

end Datagrams

/-! ## Runs -/

def Fits (s : DnsContext n) : DnsEvent n → Prop
  | .resolve w interface name type => dnsFindEntry interface name type s = none →
      PortFits w interface type (dnsCreateEntry w.time s).1 (dnsCreateEntry w.time s).2
  | .datagram _ interface destPort message => ResponseFits interface destPort message s
  | _ => True

/-- The event is a response that resolves the entry. -/
def ResolvedIn (event : DnsEvent n) (e e' : DnsCacheEntry) : Prop :=
  ∃ w interface destPort message, event = .datagram w interface destPort message ∧
    ResolvedBy w.time interface destPort message e e'

/-- What an admitted call preserves, and which entries it resolves. -/
theorem balanced_step {s : DnsContext n} (hb : Balanced s.cache s.callbacks) {event : DnsEvent n}
    (hfit : Fits s event) : Balanced (step s event).cache (step s event).callbacks ∧
      ∀ k, ((step s event).cache k).state = .RESOLVED →
        (step s event).cache k = s.cache k ∨
          ResolvedIn event (s.cache k) ((step s event).cache k) := by
  have hk : Kept s.cache s := ⟨hb, .refl _⟩
  have hkept : ∀ {s' : DnsContext n}, Kept s.cache s' → Balanced s'.cache s'.callbacks ∧
      ∀ k, (s'.cache k).state = .RESOLVED → s'.cache k = s.cache k ∨
        ResolvedIn event (s.cache k) (s'.cache k) :=
    fun h => ⟨h.balanced, fun k hr => .inl (h.settled k hr)⟩
  cases event with
  | resolve w interface name type => exact hkept (hk.resolve hfit)
  | tick w => exact hkept (hk.tick w)
  | datagram w interface destPort message =>
    have hd : Delivered w.time interface destPort message s.cache _ := .datagram hb hfit
    refine ⟨hd.balanced, fun k hr => ?_⟩
    rcases hd.entry k with h | h | h
    · exact .inl h
    · exact absurd (h.symm.trans hr) (by simp)
    · exact .inr ⟨w, interface, destPort, message, rfl, h⟩
  | setServers servers => exact hkept ⟨hb, .refl _⟩
  | flush interface => exact hkept (hk.flush interface)

/-- Nothing is in progress, and the client has no callbacks. -/
structure Idle (s : DnsContext n) : Prop where
  entries : ∀ k, (s.cache k).state ≠ .IN_PROGRESS
  callbacks : ∀ cb, some cb ∈ s.callbacks → cb.dns = false

theorem Idle.balanced {s : DnsContext n} (h : Idle s) : Balanced s.cache s.callbacks where
  one k hk := absurd hk (h.entries k)
  sole k hk := absurd hk (h.entries k)
  other cb hcb hd := by
    rw [h.callbacks cb hcb] at hd
    cases hd
  ports k _ hk := absurd hk (h.entries k)
  sent k hk := absurd hk (h.entries k)

/-! ## A run -/

section Run

/-- One server, and room for one callback. -/
def context : DnsContext 0 where
  cache := fun _ => {}
  callbacks := [none]
  dynamicPort := 50000
  servers := fun _ _ => [1]

/-- The name `a` is asked for. -/
def question : DnsEvent 0 := .resolve ⟨0, 0, 7, fun _ => true⟩ 0 [97] .IPV4

/-- The answer, with the bytes of its TTL. -/
def answer (a b c d : UInt8) : List UInt8 :=
  [0, 7, 0x80, 0, 0, 1, 0, 1, 0, 0, 0, 0, 1, 97, 0, 0, 1, 0, 1,
    0xC0, 12, 0, 1, 0, 1, a, b, c, d, 0, 4, 192, 0, 2, 1]

def response (a b c d : UInt8) : DnsEvent 0 :=
  .datagram ⟨10, 0, 0, fun _ => true⟩ 0 50000 (answer a b c d)

variable {a b c d : UInt8}

theorem answer_name {level : Nat} (hl : ¬level ≥ DNS_NAME_MAX_RECURSION) :
    dnsParseName (answer a b c d) 12 level = some (15, [97]) := by
  rw [dnsParseName_some (b := 1) hl rfl, dnsParseName_some (b := 0) hl rfl]
  rfl

theorem answer_owner : dnsParseName (answer a b c d) 19 0 = some (21, [97]) := by
  have htag : (answer a b c d)[19 + 1]? = some 12 := rfl
  have hpos : namePointer 0xC0 12 = 12 := rfl
  have hname : dnsParseName (answer a b c d) 12 (0 + 1) = some (15, [97]) :=
    answer_name (by decide)
  rw [dnsParseName_some (b := 0xC0) (by decide) rfl, if_neg (by decide), if_pos (by decide), htag]
  dsimp only
  rw [hpos, hname]

theorem answer_compare : dnsCompareName (answer a b c d) 12 [97] 0 = some 0 := by
  have hwalk : walk (answer a b c d) 12 0 = ([[97]], .root false) := by
    rw [walk_some (b := 1) (by decide) rfl, walk_some (b := 0) (by decide) rfl]
    rfl
  rw [dnsCompareName_walk, hwalk]
  rfl

/-- The client has asked. -/
def asked : DnsContext 0 := step context question

theorem asked_entry : asked.cache 0 =
    { state := .IN_PROGRESS, type := .IPV4, name := [97], port := 50000, id := 7,
      retransmitCount := 2, timeout := 1000, maxTimeout := 5000, queries := [0] } := rfl

theorem answer_fields : field16 (answer a b c d) 0 = 7 ∧ field16 (answer a b c d) 4 = 1 ∧
    field16 (answer a b c d) 6 = 1 ∧ field16 (answer a b c d) 15 = 1 ∧
    field16 (answer a b c d) 17 = 1 ∧ field16 (answer a b c d) 21 = 1 ∧
    field16 (answer a b c d) 29 = 4 := by
  simp [field16, answer]

theorem answer_parsed : parseAnswers .IPV4 (answer a b c d) 1 19 =
    some ([192, 0, 2, 1], field32 (answer a b c d) 25) := by
  obtain ⟨-, -, -, -, -, htype, hsize⟩ := answer_fields (a := a) (b := b) (c := c) (d := d)
  have hlen : (answer a b c d).length = 35 := rfl
  have ha : (HostType.IPV4 : HostType) ≠ .ANY ∧
      field16 (answer a b c d) 21 = HostType.IPV4.record.1 ∧ 4 = HostType.IPV4.record.2 :=
    ⟨by simp, htype, rfl⟩
  rw [parseAnswers, answer_owner]
  dsimp only
  rw [hsize, hlen, if_neg (by simp), if_neg (by simp), if_pos ha]
  rfl

/-- The record of the answer is the only one. -/
theorem answer_first {ipAddr : List UInt8} {ttl : Nat}
    (h : FirstAnswer .IPV4 (answer a b c d) (field16 (answer a b c d) 6) 19 ipAddr ttl) :
    ttl = field32 (answer a b c d) 25 := by
  obtain ⟨-, -, hcount, -, -, -, -⟩ := answer_fields (a := a) (b := b) (c := c) (d := d)
  rw [hcount] at h
  have hparse := parseAnswers_iff.mpr h
  rw [answer_parsed] at hparse
  exact (Prod.mk.inj (Option.some.inj hparse)).2.symm

theorem answer_examined : examine (asked.cache 0) (answer a b c d) =
    .resolved [192, 0, 2, 1] (field32 (answer a b c d) 25) := by
  obtain ⟨hid, -, hcount, htype, hclass, -, -⟩ := answer_fields (a := a) (b := b) (c := c) (d := d)
  have hlen : (answer a b c d).length = 35 := rfl
  have hrcode : (answer a b c d).getD 3 0 = 0 := rfl
  unfold examine
  rw [asked_entry, hid, answer_name (by decide)]
  simp only [hlen, answer_compare, hclass, htype, hcount, hrcode]
  simp [HostType.record, DNS_RR_TYPE_A, DNS_RR_CLASS_IN, answer_parsed]

/-- The answer resolves the entry. -/
theorem answer_resolves : (step asked (response a b c d)).cache 0 =
    { asked.cache 0 with
      ipAddr := [192, 0, 2, 1], timestamp := 10,
      timeout := dnsLifetime (field32 (answer a b c d) 25), state := .RESOLVED } := by
  have hcallbacks : asked.callbacks = [some ⟨some 0, 50000, true⟩] := rfl
  have hlen : ¬((answer a b c d).length < 12 ∨ (answer a b c d).length > DNS_MESSAGE_MAX_SIZE) := by
    simp [answer, DNS_MESSAGE_MAX_SIZE]
  have hhead : ¬(((answer a b c d).getD 2 0).toNat < 128 ∨ field16 (answer a b c d) 4 ≠ 1) := by
    simp [answer, field16]
  have hentry : entryOf 50000 asked = some 0 := rfl
  have hstep : step asked (response a b c d) =
      udpInvokeRxCallback ⟨10, 0, 0, fun _ => true⟩ 0 50000 (answer a b c d) asked := rfl
  rw [hstep]
  unfold udpInvokeRxCallback dnsProcessResponse
  simp only [hcallbacks, List.length_singleton, List.range_one, List.foldl_cons, List.foldl_nil,
    List.getElem?_cons_zero, Option.join_some, or_true, and_self, if_true, if_neg hlen,
    if_neg hhead, hentry, answer_examined]
  rw [setEntry_cache, Function.update_self]

end Run

/-! ## The balance -/

theorem context_idle : Idle context where
  entries k := by simp [context]
  callbacks cb hcb := by simp [context] at hcb

end DnsClient
end Cyclone
