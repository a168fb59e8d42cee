import Cyclone.Types

/-!
# Cyclone.Ipv6Text

The textual form of IPv6 addresses (`ipv6.c`).

* `ipv6StringToAddr`: the loop with its three counters, and the words it writes.
* `Ipv6Text`: the grammar, groups of hexadecimal digits with at most one `::`.
* `ipv6StringToAddr_grammar_iff`: the parser follows the grammar except for three kinds of strings.
-/

namespace Cyclone

open Serial

def COLON : UInt8 := 0x3A

def isDigit (c : UInt8) : Bool := 0x30 ≤ c ∧ c ≤ 0x39
def isUpper (c : UInt8) : Bool := 0x41 ≤ c ∧ c ≤ 0x5A
def isXDigit (c : UInt8) : Bool :=
  isDigit c ∨ (0x41 ≤ c ∧ c ≤ 0x46) ∨ (0x61 ≤ c ∧ c ≤ 0x66)

/-- The value of a hexadecimal digit. -/
def digitValue (c : UInt8) : Nat :=
  if isDigit c then c.toNat - 0x30
  else if isUpper c then c.toNat - 0x41 + 10
  else c.toNat - 0x61 + 10

inductive SyntaxError where
  | NO_ERROR | INVALID_SYNTAX
  deriving DecidableEq, Repr

/-- The words from `ipAddr->w` on, and the indexes that have been written. -/
structure Ipv6Words where
  word : Nat → BitVec 16
  written : List Nat := []

def Ipv6Words.put (m : Ipv6Words) (k : Nat) (v : BitVec 16) : Ipv6Words :=
  { word := fun n => if n = k then v else m.word n, written := m.written ++ [k] }

/-- The variables of the loop. -/
structure Ipv6Parser where
  i : Nat := 0
  /-- The position of the `::`; none stands for -1. -/
  j : Option Nat := none
  /-- The current group; none stands for -1. -/
  value : Option Nat := none
  ipAddr : Ipv6Words

namespace Ipv6Parser

/-- `ipAddr->w[i++] = htons(value); value = -1`. -/
def save (p : Ipv6Parser) (v : Nat) : Ipv6Parser :=
  { p with i := p.i + 1, value := none, ipAddr := p.ipAddr.put p.i (BitVec.ofNat 16 v) }

/-- The current group is saved if there is one. -/
def flush (p : Ipv6Parser) : Ipv6Parser :=
  match p.value with
  | some v => p.save v
  | none => p

end Ipv6Parser

/-- The first loop at the end: `w[7 - k] = w[i - 1 - k]`. -/
def moveTail (i n : Nat) (m : Ipv6Words) : Ipv6Words :=
  (List.range n).foldl (fun m k => m.put (7 - k) (m.word (i - 1 - k))) m

/-- The second loop: `w[j + k] = 0`. -/
def writeZeros (j n : Nat) (m : Ipv6Words) : Ipv6Words :=
  (List.range n).foldl (fun m k => m.put (j + k) 0) m

/-- The branches of the loop on the terminator. -/
def Ipv6Parser.finish (p : Ipv6Parser) : SyntaxError × Ipv6Words :=
  match p.j with
  | none =>
    if p.i = 7 then
      match p.value with
      | none => (.INVALID_SYNTAX, p.ipAddr)
      | some v => (.NO_ERROR, p.ipAddr.put 7 (BitVec.ofNat 16 v))
    else (.INVALID_SYNTAX, p.ipAddr)
  | some j =>
    if p.i < 7 then
      let p := p.flush
      (.NO_ERROR, writeZeros j (8 - p.i) (moveTail p.i (p.i - j) p.ipAddr))
    else (.INVALID_SYNTAX, p.ipAddr)

/-- The loop of `ipv6StringToAddr`. -/
def ipv6ParseLoop : List UInt8 → Ipv6Parser → SyntaxError × Ipv6Words
  | [], p => p.finish
  | c :: str, p =>
    if isXDigit c then
      let value := p.value.getD 0 * 16 + digitValue c
      if value > 0xFFFF then (.INVALID_SYNTAX, p.ipAddr)
      else ipv6ParseLoop str { p with value := some value }
    else if c ≠ COLON then (.INVALID_SYNTAX, p.ipAddr)
    else
      match str with
      | 0x3A :: str =>
        if p.j.isSome then (.INVALID_SYNTAX, p.ipAddr)
        else
          let p := p.flush
          ipv6ParseLoop str { p with j := some p.i }
      | str =>
        match p.value with
        | some v => if p.i < 8 then ipv6ParseLoop str (p.save v) else (.INVALID_SYNTAX, p.ipAddr)
        | none => (.INVALID_SYNTAX, p.ipAddr)

/-- `ipv6StringToAddr` on the characters before the NUL, with the memory `word` at `ipAddr`. -/
def ipv6StringToAddr (str : List UInt8) (word : Nat → BitVec 16) : SyntaxError × Ipv6Words :=
  ipv6ParseLoop str { ipAddr := { word } }

/-! ## The grammar -/

/-- The value of a string of hexadecimal digits. -/
def hexValue (g : List UInt8) : Nat := g.foldl (fun v c => v * 16 + digitValue c) 0

/-- A group of hexadecimal digits with the value `v`. -/
structure Group (g : List UInt8) (v : BitVec 16) : Prop where
  digits : ∀ c ∈ g, isXDigit c
  nonempty : g ≠ []
  value : hexValue g = v.toNat

abbrev Groups : List (List UInt8) → List (BitVec 16) → Prop := List.Forall₂ Group

/-- The groups, separated by single colons. -/
def colons : List (List UInt8) → List UInt8
  | [] => []
  | [g] => g
  | g :: gs => g ++ COLON :: colons gs

def GAP : List UInt8 := [COLON, COLON]

/-- The words of an address whose `::` stands between `us` and `vs`. -/
def gapped (us vs : List (BitVec 16)) : List (BitVec 16) :=
  us ++ List.replicate (8 - (us.length + vs.length)) 0 ++ vs

/-- A string denotes an address: eight groups, or at most seven with a `::` among them. -/
inductive Ipv6Text : List UInt8 → List (BitVec 16) → Prop where
  | full {gs : List (List UInt8)} {ws : List (BitVec 16)} (groups : Groups gs ws)
    (eight : ws.length = 8) : Ipv6Text (colons gs) ws
  | gap {fs bs : List (List UInt8)} {us vs : List (BitVec 16)} (front : Groups fs us)
    (back : Groups bs vs) (seven : us.length + vs.length ≤ 7) :
    Ipv6Text (colons fs ++ GAP ++ colons bs) (gapped us vs)

/-! ## Reading a prefix -/

/-- The groups, each with a colon behind it. -/
def closed (gs : List (List UInt8)) : List UInt8 := gs.flatMap (· ++ [COLON])

@[simp] theorem closed_nil : closed [] = [] := rfl

@[simp] theorem closed_append (gs hs : List (List UInt8)) :
    closed (gs ++ hs) = closed gs ++ closed hs := List.flatMap_append

@[simp] theorem closed_one (g : List UInt8) : closed [g] = g ++ [COLON] := by simp [closed]

theorem closed_cons (g : List UInt8) (gs : List (List UInt8)) :
    closed (g :: gs) = g ++ COLON :: closed gs := by simp [closed]

theorem colons_snoc (gs : List (List UInt8)) (g : List UInt8) :
    colons (gs ++ [g]) = closed gs ++ g := by
  induction gs with
  | nil => rfl
  | cons a gs ih =>
    cases gs with
    | nil => simp [colons]
    | cons b gs =>
      have : colons ((a :: b :: gs) ++ [g]) = a ++ COLON :: colons ((b :: gs) ++ [g]) := rfl
      rw [this, ih]
      simp [closed_cons]

theorem hexValue_snoc (g : List UInt8) (c : UInt8) :
    hexValue (g ++ [c]) = hexValue g * 16 + digitValue c := by simp [hexValue]

/-- The digits of the current group that have been read. -/
inductive Current : List UInt8 → Option Nat → Prop where
  | empty : Current [] none
  | group {g : List UInt8} {v : BitVec 16} (h : Group g v) : Current g (some v.toNat)

theorem group_snoc {g : List UInt8} {c : UInt8} (hg : ∀ d ∈ g, isXDigit d) (hc : isXDigit c)
    {n : Nat} (hn : hexValue (g ++ [c]) = n) (h : n ≤ 0xFFFF) :
    Group (g ++ [c]) (BitVec.ofNat 16 n) := by
  refine ⟨?_, by simp, ?_⟩
  · intro d hd
    rcases List.mem_append.mp hd with hd | hd
    · exact hg d hd
    · rw [List.mem_singleton.mp hd]; exact hc
  · rw [hn, BitVec.toNat_ofNat]; omega

theorem Current.digit {g : List UInt8} {o : Option Nat} {c : UInt8} (h : Current g o)
    (hc : isXDigit c) (hv : ¬ o.getD 0 * 16 + digitValue c > 0xFFFF) :
    Current (g ++ [c]) (some (o.getD 0 * 16 + digitValue c)) := by
  cases h with
  | empty =>
    have hd : digitValue c ≤ 0xFFFF := by simpa using hv
    have hg := group_snoc (by simp) hc (rfl : hexValue ([] ++ [c]) = _) (by simpa [hexValue])
    have := Current.group hg
    simpa [hexValue, BitVec.toNat_ofNat, Nat.mod_eq_of_lt (by omega : digitValue c < 65536)]
      using this
  | @group _ v h =>
    simp only [Option.getD_some] at hv ⊢
    have hg := group_snoc h.digits hc (by rw [hexValue_snoc, h.value]) (Nat.le_of_not_gt hv)
    have := Current.group hg
    rwa [BitVec.toNat_ofNat, Nat.mod_eq_of_lt (by omega)] at this

/-- `pre` has been read and `str` lies behind it. -/
inductive Spelled : List UInt8 → List UInt8 → Ipv6Parser → Prop where
  | front {gs : List (List UInt8)} {us : List (BitVec 16)} {cur str : List UInt8} {p : Ipv6Parser}
    (groups : Groups gs us) (current : Current cur p.value) (i : p.i = us.length)
    (short : us.length ≤ 8) (j : p.j = none)
    (words : ∀ k v, us[k]? = some v → p.ipAddr.word k = v)
    (inside : ∀ k ∈ p.ipAddr.written, k < 8)
    (next : cur = [] → gs ≠ [] → str.head? ≠ some COLON) : Spelled (closed gs ++ cur) str p
  | back {fs bs : List (List UInt8)} {us vs : List (BitVec 16)} {cur str : List UInt8}
    {p : Ipv6Parser} (front : Groups fs us) (back : Groups bs vs) (current : Current cur p.value)
    (i : p.i = us.length + vs.length) (j : p.j = some us.length) (short : us.length ≤ 9)
    (words : ∀ k v, (us ++ vs)[k]? = some v → p.ipAddr.word k = v)
    (inside : us.length ≤ 8 → ∀ k ∈ p.ipAddr.written, k < 8) :
    Spelled (colons fs ++ GAP ++ closed bs ++ cur) str p

/-- A `::` behind nine groups. -/
def NineThenGap (s : List UInt8) : Prop :=
  ∃ gs ws rest, Groups gs ws ∧ ws.length = 9 ∧ s = colons gs ++ GAP ++ rest

/-- A colon behind the groups after the `::`, of at most six groups in all. -/
def TrailingColon (s : List UInt8) (ws : List (BitVec 16)) : Prop :=
  ∃ fs bs us vs, Groups fs us ∧ Groups bs vs ∧ bs ≠ [] ∧ us.length + vs.length ≤ 6 ∧
    s = colons fs ++ GAP ++ closed bs ∧ ws = gapped us vs

/-- A `::` at the end, behind seven groups. -/
def SevenThenGap (s : List UInt8) : Prop :=
  ∃ gs ws, Groups gs ws ∧ ws.length = 7 ∧ s = colons gs ++ GAP

def Ipv6Words.Holds (m : Ipv6Words) (ws : List (BitVec 16)) : Prop :=
  ws.length = 8 ∧ ∀ k v, ws[k]? = some v → m.word k = v

/-! ## The two loops at the end -/

theorem put_word (m : Ipv6Words) (k n : Nat) (v : BitVec 16) :
    (m.put k v).word n = if n = k then v else m.word n := rfl

@[simp] theorem put_written (m : Ipv6Words) (k : Nat) (v : BitVec 16) :
    (m.put k v).written = m.written ++ [k] := rfl

theorem moveTail_word (m : Ipv6Words) {i : Nat} (hi : i ≤ 7) (n : Nat) (hn : n ≤ i) (x : Nat) :
    (moveTail i n m).word x =
      if 8 - n ≤ x ∧ x < 8 then m.word (x - (8 - i)) else m.word x := by
  unfold moveTail
  induction n generalizing x with
  | zero => simp
  | succ n ih =>
    rw [List.range_succ, List.foldl_append, List.foldl_cons, List.foldl_nil, put_word,
      ih (by omega), ih (by omega)]
    by_cases hx : x = 7 - n
    · -- the word that is moved lies below those that have been written
      rw [if_pos hx, if_neg (by omega), if_pos (by omega)]
      congr 1; omega
    · rw [if_neg hx]
      split_ifs <;> first | rfl | omega

theorem writeZeros_word (m : Ipv6Words) (j n x : Nat) :
    (writeZeros j n m).word x = if j ≤ x ∧ x < j + n then 0 else m.word x := by
  unfold writeZeros
  induction n with
  | zero => simp
  | succ n ih =>
    rw [List.range_succ, List.foldl_append, List.foldl_cons, List.foldl_nil, put_word, ih]
    split_ifs <;> first | rfl | omega

theorem moveTail_written (m : Ipv6Words) (i n : Nat) :
    ∀ k ∈ (moveTail i n m).written, k ∈ m.written ∨ k < 8 := by
  unfold moveTail
  induction n with
  | zero => intro k hk; exact .inl hk
  | succ n ih =>
    intro k hk
    rw [List.range_succ, List.foldl_append, List.foldl_cons, List.foldl_nil, put_written] at hk
    rcases List.mem_append.mp hk with hk | hk
    · exact ih k hk
    · rw [List.mem_singleton.mp hk]; exact .inr (by omega)

theorem writeZeros_written (m : Ipv6Words) (j n : Nat) (h : j + n ≤ 8) :
    ∀ k ∈ (writeZeros j n m).written, k ∈ m.written ∨ k < 8 := by
  unfold writeZeros
  induction n with
  | zero => intro k hk; exact .inl hk
  | succ n ih =>
    intro k hk
    rw [List.range_succ, List.foldl_append, List.foldl_cons, List.foldl_nil, put_written] at hk
    rcases List.mem_append.mp hk with hk | hk
    · exact ih (by omega) k hk
    · rw [List.mem_singleton.mp hk]; exact .inr (by omega)

/-- What follows the `::` is moved to the end, and zeros are written in between. -/
theorem gapped_holds {m : Ipv6Words} {us vs : List (BitVec 16)} (h : us.length + vs.length ≤ 7)
    (words : ∀ k v, (us ++ vs)[k]? = some v → m.word k = v) :
    (writeZeros us.length (8 - (us.length + vs.length))
      (moveTail (us.length + vs.length) (us.length + vs.length - us.length) m)).Holds
        (gapped us vs) := by
  refine ⟨by simp [gapped]; omega, ?_⟩
  intro k v hk
  have hlt : k < 8 := by
    have := (List.getElem?_eq_some_iff.mp hk).1
    simp [gapped] at this; omega
  rw [writeZeros_word, moveTail_word m h _ (by omega)]
  unfold gapped at hk
  by_cases hu : k < us.length
  · rw [List.append_assoc, List.getElem?_append_left hu] at hk
    rw [if_neg (by omega), if_neg (by omega)]
    exact words k v (by rw [List.getElem?_append_left hu]; exact hk)
  by_cases hz : k < us.length + (8 - (us.length + vs.length))
  · rw [if_pos (by omega)]
    rw [List.getElem?_append_left (by simp; omega), List.getElem?_append_right (by omega),
      List.getElem?_replicate, if_pos (by omega)] at hk
    exact Option.some.inj hk
  · rw [if_neg (by omega), if_pos (by omega)]
    rw [List.getElem?_append_right (by simp; omega)] at hk
    apply words
    rw [List.getElem?_append_right (by omega), ← hk]
    congr 1
    simp
    omega

/-! ## What is accepted -/

/-- What the parser accepts denotes the address it returns, or ends with a stray colon. -/
def Ipv6Accepted (s : List UInt8) (m : Ipv6Words) : Prop :=
  ∃ ws, m.Holds ws ∧ (Ipv6Text s ws ∨ TrailingColon s ws)

/-- The outcome of the loop, on the string `s` read so far and to come. -/
structure ParsedRight (s : List UInt8) (r : SyntaxError × Ipv6Words) : Prop where
  accepted : r.1 = .NO_ERROR → Ipv6Accepted s r.2
  inside : ∀ k ∈ r.2.written, k < 8 ∨ NineThenGap s

theorem Spelled.inside {pre str : List UInt8} {p : Ipv6Parser} (h : Spelled pre str p) :
    ∀ k ∈ p.ipAddr.written, k < 8 ∨ NineThenGap (pre ++ str) := by
  intro k hk
  cases h with
  | front _ _ _ _ _ _ inside _ => exact .inl (inside k hk)
  | @back fs bs us vs cur _ _ front _ _ _ _ short _ inside =>
    by_cases h8 : us.length ≤ 8
    · exact .inl (inside h8 k hk)
    · exact .inr ⟨fs, us, closed bs ++ cur ++ str, front, by omega, by simp⟩

/-- The loop stops with an error. -/
theorem Spelled.rejects {pre str : List UInt8} {p : Ipv6Parser} (h : Spelled pre str p) :
    ParsedRight (pre ++ str) (.INVALID_SYNTAX, p.ipAddr) := by
  refine ⟨?_, h.inside⟩
  intro he
  simp at he

theorem getElem?_snoc {α : Type} {us : List α} {u v : α} {k : Nat} (h : (us ++ [u])[k]? = some v) :
    us[k]? = some v ∨ k = us.length ∧ v = u := by
  rcases Nat.lt_trichotomy k us.length with hk | hk | hk
  · rw [List.getElem?_append_left hk] at h; exact .inl h
  · subst hk; simp at h; exact .inr ⟨rfl, h.symm⟩
  · rw [List.getElem?_eq_none (by simp; omega)] at h; cases h

/-- The groups read so far, one more group saved behind them. -/
theorem save_words {m : Ipv6Words} {us : List (BitVec 16)} {u : BitVec 16}
    (words : ∀ k v, us[k]? = some v → m.word k = v) :
    ∀ k v, (us ++ [u])[k]? = some v →
      (m.put us.length (BitVec.ofNat 16 u.toNat)).word k = v := by
  intro k v hk
  rw [put_word, BitVec.ofNat_toNat, BitVec.setWidth_eq]
  rcases getElem?_snoc hk with hk | ⟨rfl, rfl⟩
  · rw [if_neg, words k v hk]
    have := (List.getElem?_eq_some_iff.mp hk).1
    omega
  · rw [if_pos rfl]

theorem groups_snoc {gs : List (List UInt8)} {us : List (BitVec 16)} {g : List UInt8}
    {u : BitVec 16} (h : Groups gs us) (hg : Group g u) : Groups (gs ++ [g]) (us ++ [u]) :=
  List.rel_append h (.cons hg .nil)

theorem Spelled.finish {pre : List UInt8} {p : Ipv6Parser} (h : Spelled pre [] p) :
    ParsedRight pre p.finish := by
  have hr := h.rejects
  have hin := h.inside
  rw [List.append_nil] at hr hin
  cases h with
  | @front gs us cur _ _ groups current i short j words inside next =>
    obtain ⟨i', j', value, m⟩ := p
    simp only at current i j words inside
    subst i j
    simp only [Ipv6Parser.finish]
    split
    · rename_i h7
      cases current with
      | empty => exact hr
      | @group g v hg =>
        refine ⟨fun _ => ⟨us ++ [v], ⟨by simp [h7], ?_⟩, .inl ?_⟩, ?_⟩
        · rw [← h7]; exact save_words words
        · rw [← colons_snoc]; exact .full (groups_snoc groups hg) (by simp [h7])
        · intro k hk
          rcases List.mem_append.mp hk with hk | hk
          · exact .inl (inside k hk)
          · rw [List.mem_singleton.mp hk]; exact .inl (by omega)
    · exact hr
  | @back fs bs us vs cur _ _ front back current i j short words inside =>
    obtain ⟨i', j', value, m⟩ := p
    simp only at current i j words inside
    subst i j
    simp only [Ipv6Parser.finish]
    split
    · rename_i h7
      have small : ∀ k ∈ m.written, k < 8 := inside (by omega)
      cases current with
      | empty =>
        simp only [Ipv6Parser.flush, List.append_nil]
        refine ⟨fun _ => ⟨gapped us vs, gapped_holds (by omega) words, ?_⟩, ?_⟩
        · cases bs with
          | nil =>
            cases back
            exact .inl (.gap front .nil (by omega))
          | cons b bs => exact .inr ⟨fs, _, us, vs, front, back, by simp, by omega, rfl, rfl⟩
        · intro k hk
          rcases writeZeros_written _ _ _ (by omega) k hk with hk | hk
          · rcases moveTail_written _ _ _ k hk with hk | hk
            · exact .inl (small k hk)
            · exact .inl hk
          · exact .inl hk
      | @group g v hg =>
        simp only [Ipv6Parser.flush, Ipv6Parser.save]
        have words' := save_words (u := v) words
        rw [List.append_assoc, List.length_append] at words'
        have held := @gapped_holds _ us (vs ++ [v]) (by simp; omega) words'
        rw [List.length_append, List.length_singleton, ← Nat.add_assoc] at held
        refine ⟨fun _ => ⟨_, held, .inl ?_⟩, ?_⟩
        · rw [List.append_assoc, ← colons_snoc]
          exact .gap front (groups_snoc back hg) (by simp; omega)
        · intro k hk
          rcases writeZeros_written _ _ _ (by omega) k hk with hk | hk
          · rcases moveTail_written _ _ _ k hk with hk | hk
            · rcases List.mem_append.mp hk with hk | hk
              · exact .inl (small k hk)
              · rw [List.mem_singleton.mp hk]; exact .inl (by omega)
            · exact .inl hk
          · exact .inl hk
    · exact hr

theorem Spelled.digit {pre str : List UInt8} {p : Ipv6Parser} {c : UInt8}
    (h : Spelled pre (c :: str) p) (hc : isXDigit c)
    (hv : ¬ p.value.getD 0 * 16 + digitValue c > 0xFFFF) :
    Spelled (pre ++ [c]) str
      { p with value := some (p.value.getD 0 * 16 + digitValue c) } := by
  cases h with
  | front groups current i short j words inside next =>
    rw [List.append_assoc]
    exact .front groups (current.digit hc hv) i short j words inside (by simp)
  | back front back current i j short words inside =>
    rw [List.append_assoc]
    exact .back front back (current.digit hc hv) i j short words inside

/-- The groups in front of the `::`, the last of them not yet saved. -/
theorem Spelled.gap {pre str : List UInt8} {p : Ipv6Parser}
    (h : Spelled pre (COLON :: COLON :: str) p) (hj : ¬ p.j.isSome = true) :
    Spelled (pre ++ GAP) str { p.flush with j := some p.flush.i } := by
  cases h with
  | back front back current i j short words inside => rw [j] at hj; exact absurd rfl hj
  | @front gs us cur _ _ groups current i short j words inside next =>
    obtain ⟨i', j', value, m⟩ := p
    simp only at current i j words inside
    subst i j
    cases current with
    | empty =>
      -- no group is closed just before the `::`
      have hgs : gs = [] := by
        by_contra hgs
        exact next rfl hgs rfl
      subst hgs
      cases groups
      have := @Spelled.back _ _ _ _ _ str ⟨0, some 0, none, m⟩ .nil .nil .empty rfl rfl
        (by simp) (by simp) (fun _ => inside)
      simpa [closed, colons, Ipv6Parser.flush] using this
    | @group g v hg =>
      have front' := groups_snoc groups hg
      have := @Spelled.back _ _ _ _ _ str
        ⟨us.length + 1, some (us.length + 1), none,
          m.put us.length (BitVec.ofNat 16 v.toNat)⟩
        front' .nil .empty (by simp) (by simp) (by simp; omega)
        (by rw [List.append_nil]; exact save_words words) ?_
      · rw [colons_snoc] at this
        simpa [Ipv6Parser.flush, Ipv6Parser.save] using this
      · intro h8 k hk
        rcases List.mem_append.mp hk with hk | hk
        · exact inside k hk
        · rw [List.mem_singleton.mp hk]; simp at h8; omega

theorem Spelled.colon {pre str : List UInt8} {p : Ipv6Parser} {v : Nat}
    (h : Spelled pre (COLON :: str) p) (hv : p.value = some v) (hi : p.i < 8)
    (next : str.head? ≠ some COLON) : Spelled (pre ++ [COLON]) str (p.save v) := by
  cases h with
  | @front gs us cur _ _ groups current i short j words inside _ =>
    rw [hv] at current
    cases current with
    | @group g v hg =>
      have := @Spelled.front _ _ _ str (p.save v.toNat) (groups_snoc groups hg) .empty
        (by simp [Ipv6Parser.save, i]) (by simp; omega) j
        (by simp only [Ipv6Parser.save, i]; exact save_words words) ?_ (fun _ _ => next)
      · simpa using this
      · intro k hk
        rcases List.mem_append.mp hk with hk | hk
        · exact inside k hk
        · rw [List.mem_singleton.mp hk]; exact hi
  | @back fs bs us vs cur _ _ front back current i j short words inside =>
    rw [hv] at current
    cases current with
    | @group g v hg =>
      have words' := save_words (u := v) words
      rw [List.append_assoc, List.length_append, ← i] at words'
      have := @Spelled.back _ _ _ _ _ str (p.save v.toNat) front (groups_snoc back hg) .empty
        (by simp [Ipv6Parser.save, i]; omega) j short words' ?_
      · simpa using this
      · intro h8 k hk
        rcases List.mem_append.mp hk with hk | hk
        · exact inside h8 k hk
        · rw [List.mem_singleton.mp hk]; exact hi

theorem Spelled.parse {pre str : List UInt8} {p : Ipv6Parser} (h : Spelled pre str p) :
    ParsedRight (pre ++ str) (ipv6ParseLoop str p) := by
  fun_induction ipv6ParseLoop str p generalizing pre with
  | case1 p => rw [List.append_nil]; exact h.finish
  | case2 => exact h.rejects
  | case3 =>
    rename_i c str p hx value hv ih
    have := ih (h.digit hx hv)
    rwa [List.append_assoc] at this
  | case4 => exact h.rejects
  | case5 => exact h.rejects
  | case6 =>
    rename_i c p hx hc str hj q ih
    obtain rfl : c = COLON := not_not.mp hc
    have := ih (h.gap hj)
    rwa [List.append_assoc] at this
  | case7 c p hx hc str hs v hv hi ih =>
    obtain rfl : c = COLON := not_not.mp hc
    have next : str.head? ≠ some COLON := by
      intro hn
      obtain ⟨t, rfl⟩ := List.head?_eq_some_iff.mp hn
      exact hs t rfl
    have := ih (h.colon hv hi next)
    rwa [List.append_assoc] at this
  | case8 => exact h.rejects
  | case9 => exact h.rejects

theorem ipv6StringToAddr_right (str : List UInt8) (word : Nat → BitVec 16) :
    ParsedRight str (ipv6StringToAddr str word) :=
  @Spelled.parse [] _ _ (@Spelled.front [] _ _ _ _ .nil .empty rfl (by simp) rfl (by simp) (by simp)
    (by simp))

/-! ## What is not rejected -/

theorem not_xdigit_colon : isXDigit COLON = false := by decide

theorem le_foldl_digits (ds : List UInt8) (n : Nat) :
    n ≤ ds.foldl (fun v c => v * 16 + digitValue c) n := by
  induction ds generalizing n with
  | nil => exact Nat.le_refl n
  | cons d ds ih =>
    have := ih (n * 16 + digitValue d)
    rw [List.foldl_cons]
    omega

/-- A digit is read. -/
theorem parse_digit {c : UInt8} (hc : isXDigit c) (str : List UInt8) (p : Ipv6Parser)
    (h : p.value.getD 0 * 16 + digitValue c ≤ 0xFFFF) :
    ipv6ParseLoop (c :: str) p =
      ipv6ParseLoop str { p with value := some (p.value.getD 0 * 16 + digitValue c) } := by
  rw [ipv6ParseLoop.eq_def]
  simp only
  rw [if_pos hc, if_neg (by omega)]

theorem parse_digits {ds : List UInt8} (hd : ∀ c ∈ ds, isXDigit c) (rest : List UInt8)
    (p : Ipv6Parser) {n : Nat} (hp : p.value = some n)
    (h : ds.foldl (fun v c => v * 16 + digitValue c) n ≤ 0xFFFF) :
    ipv6ParseLoop (ds ++ rest) p = ipv6ParseLoop rest
      { p with value := some (ds.foldl (fun v c => v * 16 + digitValue c) n) } := by
  induction ds generalizing p n with
  | nil => rw [List.nil_append, List.foldl_nil, ← hp]
  | cons c ds ih =>
    have hle := le_foldl_digits ds (n * 16 + digitValue c)
    rw [List.foldl_cons] at h
    rw [List.cons_append, parse_digit (hd c (by simp)) _ _ (by rw [hp]; simp; omega), hp,
      Option.getD_some, ih (fun d hd' => hd d (by simp [hd'])) _ rfl h, List.foldl_cons]

/-- A group is read. -/
theorem parse_group {g : List UInt8} {v : BitVec 16} (hg : Group g v) (rest : List UInt8)
    (p : Ipv6Parser) (hp : p.value = none) :
    ipv6ParseLoop (g ++ rest) p = ipv6ParseLoop rest { p with value := some v.toNat } := by
  obtain ⟨c, ds, rfl⟩ := List.exists_cons_of_ne_nil hg.nonempty
  have hv := hg.value
  have hlt : v.toNat < 65536 := v.isLt
  simp only [hexValue, List.foldl_cons, Nat.zero_mul, Nat.zero_add] at hv
  have hle := le_foldl_digits ds (digitValue c)
  rw [List.cons_append, parse_digit (hg.digits c (by simp)) _ _ (by rw [hp]; simp; omega), hp]
  simp only [Option.getD_none, Nat.zero_mul, Nat.zero_add]
  rw [parse_digits (fun d hd => hg.digits d (by simp [hd])) rest _ rfl (by omega), hv]

/-- A colon behind a group is read. -/
theorem parse_colon {rest : List UInt8} (next : rest.head? ≠ some COLON) {p : Ipv6Parser} {v : Nat}
    (hv : p.value = some v) (hi : p.i < 8) :
    ipv6ParseLoop (COLON :: rest) p = ipv6ParseLoop rest (p.save v) := by
  have apart : ∀ str, rest = 0x3A :: str → False := fun str hs => next (by rw [hs]; rfl)
  rw [ipv6ParseLoop, not_xdigit_colon, hv]
  · simp [hi]
  · exact apart

/-- The `::` is read. -/
theorem parse_gap (rest : List UInt8) {p : Ipv6Parser} (hj : p.j = none) :
    ipv6ParseLoop (GAP ++ rest) p =
      ipv6ParseLoop rest { p.flush with j := some p.flush.i } := by
  have : GAP ++ rest = COLON :: 0x3A :: rest := rfl
  rw [this, ipv6ParseLoop, not_xdigit_colon, hj]
  simp

/-- The groups are saved one after the other. -/
def Ipv6Parser.saveAll (p : Ipv6Parser) (us : List (BitVec 16)) : Ipv6Parser :=
  us.foldl (fun p v => p.save v.toNat) p

theorem head?_group {g : List UInt8} {v : BitVec 16} (hg : Group g v) (rest : List UInt8) :
    (g ++ rest).head? ≠ some COLON := by
  obtain ⟨c, ds, rfl⟩ := List.exists_cons_of_ne_nil hg.nonempty
  intro h
  have hc : c = COLON := by simpa using h
  have := hg.digits c (by simp)
  rw [hc, not_xdigit_colon] at this
  cases this

theorem parse_closed {gs : List (List UInt8)} {us : List (BitVec 16)} (h : Groups gs us)
    {rest : List UInt8} (next : rest.head? ≠ some COLON) {p : Ipv6Parser} (hp : p.value = none)
    (hi : p.i + us.length ≤ 8) :
    ipv6ParseLoop (closed gs ++ rest) p = ipv6ParseLoop rest (p.saveAll us) := by
  induction h generalizing p with
  | nil => rfl
  | @cons g u gs us hg hs ih =>
    have behind : (closed gs ++ rest).head? ≠ some COLON := by
      cases hs with
      | nil => exact next
      | cons hg' _ => rw [closed_cons, List.append_assoc]; exact head?_group hg' _
    have hi' : p.i + us.length + 1 ≤ 8 := hi
    rw [closed_cons, List.append_assoc, List.cons_append, parse_group hg _ p hp,
      parse_colon behind rfl (by simp; omega), ih rfl (by simp [Ipv6Parser.save]; omega)]
    rfl

theorem saveAll_spec (vs : List (BitVec 16)) {p : Ipv6Parser} {us : List (BitVec 16)}
    (hp : p.value = none) (hi : p.i = us.length)
    (words : ∀ k v, us[k]? = some v → p.ipAddr.word k = v) :
    ∃ m : Ipv6Words, p.saveAll vs = ⟨us.length + vs.length, p.j, none, m⟩ ∧
      ∀ k v, (us ++ vs)[k]? = some v → m.word k = v := by
  induction vs generalizing p us with
  | nil =>
    refine ⟨p.ipAddr, ?_, by simpa using words⟩
    rw [← hp, List.length_nil, Nat.add_zero, ← hi]
    rfl
  | cons u vs ih =>
    have words' := save_words (u := u) words
    rw [← hi] at words'
    obtain ⟨m, hm, hw⟩ := @ih (p.save u.toNat) (us ++ [u]) rfl
      (by simp [Ipv6Parser.save, hi]) words'
    have hall : p.saveAll (u :: vs) = (p.save u.toNat).saveAll vs := rfl
    refine ⟨m, ?_, by simpa using hw⟩
    rw [hall, hm, List.length_append, List.length_singleton, List.length_cons,
      Nat.add_assoc us.length, Nat.add_comm 1]
    rfl

theorem groups_last {fs : List (List UInt8)} {us : List (BitVec 16)} (h : Groups fs us) :
    fs = [] ∧ us = [] ∨
      ∃ gs g ws w, fs = gs ++ [g] ∧ us = ws ++ [w] ∧ Groups gs ws ∧ Group g w := by
  induction h with
  | nil => exact .inl ⟨rfl, rfl⟩
  | @cons g u fs us hg hs ih =>
    right
    rcases ih with ⟨rfl, rfl⟩ | ⟨gs, g', ws, w, rfl, rfl, hgs, hg'⟩
    · exact ⟨[], g, [], u, rfl, rfl, .nil, hg⟩
    · exact ⟨g :: gs, g', u :: ws, w, rfl, rfl, .cons hg hgs, hg'⟩

/-- Up to the `::`. -/
theorem parse_front {fs : List (List UInt8)} {us : List (BitVec 16)} (h : Groups fs us)
    (short : us.length ≤ 9) (rest : List UInt8) (m : Ipv6Words) :
    ∃ m' : Ipv6Words, ipv6ParseLoop (colons fs ++ GAP ++ rest) { ipAddr := m } =
        ipv6ParseLoop rest ⟨us.length, some us.length, none, m'⟩ ∧
      (∀ k v, us[k]? = some v → m'.word k = v) ∧ (us.length = 9 → 8 ∈ m'.written) := by
  rcases groups_last h with ⟨rfl, rfl⟩ | ⟨gs, g, ws, w, rfl, rfl, hs, hg⟩
  · exact ⟨m, by rw [colons, List.nil_append, parse_gap rest rfl]; rfl, by simp, by simp⟩
  · rw [List.length_append, List.length_singleton] at short ⊢
    obtain ⟨m', hm, words⟩ := @saveAll_spec ws { ipAddr := m } [] rfl rfl (by simp)
    rw [List.nil_append] at words
    rw [List.length_nil, Nat.zero_add] at hm
    refine ⟨m'.put ws.length (BitVec.ofNat 16 w.toNat), ?_, save_words words, ?_⟩
    · rw [colons_snoc, List.append_assoc, List.append_assoc,
        parse_closed hs (head?_group hg _) rfl (by simp; omega), hm, parse_group hg _ _ rfl,
        parse_gap rest rfl]
      rfl
    · intro h9
      simp; omega

/-- Behind the `::`, up to the last group. -/
theorem parse_back {bs : List (List UInt8)} {us vs : List (BitVec 16)} (h : Groups bs vs)
    {rest : List UInt8} (next : rest.head? ≠ some COLON) {m : Ipv6Words}
    (words : ∀ k v, us[k]? = some v → m.word k = v) (short : us.length + vs.length ≤ 8) :
    ∃ m' : Ipv6Words, ipv6ParseLoop (closed bs ++ rest) ⟨us.length, some us.length, none, m⟩ =
        ipv6ParseLoop rest ⟨us.length + vs.length, some us.length, none, m'⟩ ∧
      ∀ k v, (us ++ vs)[k]? = some v → m'.word k = v := by
  obtain ⟨m', hm, words'⟩ := saveAll_spec vs (p := ⟨us.length, some us.length, none, m⟩)
    rfl rfl words
  exact ⟨m', by rw [parse_closed h next rfl short, hm], words'⟩

/-- Every text with a `::` is accepted, but for seven groups in front of it. -/
theorem parse_gapped {fs bs : List (List UInt8)} {us vs : List (BitVec 16)} (front : Groups fs us)
    (back : Groups bs vs) (seven : us.length + vs.length ≤ 7) (room : us.length ≤ 6)
    (word : Nat → BitVec 16) :
    (ipv6StringToAddr (colons fs ++ GAP ++ colons bs) word).1 = .NO_ERROR ∧
      (ipv6StringToAddr (colons fs ++ GAP ++ colons bs) word).2.Holds (gapped us vs) := by
  unfold ipv6StringToAddr
  obtain ⟨m, hm, words, -⟩ := parse_front front (by omega) (colons bs) { word }
  rw [hm]
  rcases groups_last back with ⟨rfl, rfl⟩ | ⟨gs, g, ws, w, rfl, rfl, hs, hg⟩
  · have held := @gapped_holds _ us [] (by simp; omega) (by simpa using words)
    simp only [colons, ipv6ParseLoop, Ipv6Parser.finish, Ipv6Parser.flush]
    rw [if_pos (by omega)]
    exact ⟨rfl, held⟩
  · rw [List.length_append, List.length_singleton] at seven
    obtain ⟨m', hm', words'⟩ := @parse_back _ _ _ hs g (by simpa using head?_group hg [])
      _ words (by omega)
    have hword := save_words (u := w) words'
    rw [List.append_assoc, List.length_append] at hword
    have held := @gapped_holds _ us (ws ++ [w]) (by simp; omega) hword
    rw [colons_snoc, hm']
    have hgroup := parse_group hg [] ⟨us.length + ws.length, some us.length, none, m'⟩ rfl
    rw [List.append_nil] at hgroup
    rw [hgroup]
    simp only [ipv6ParseLoop, Ipv6Parser.finish, Ipv6Parser.flush, Ipv6Parser.save]
    rw [if_pos (by omega)]
    rw [List.length_append, List.length_singleton, ← Nat.add_assoc] at held
    exact ⟨rfl, held⟩

/-- Eight groups are accepted. -/
theorem parse_full {gs : List (List UInt8)} {ws : List (BitVec 16)} (groups : Groups gs ws)
    (eight : ws.length = 8) (word : Nat → BitVec 16) :
    (ipv6StringToAddr (colons gs) word).1 = .NO_ERROR ∧
      (ipv6StringToAddr (colons gs) word).2.Holds ws := by
  unfold ipv6StringToAddr
  rcases groups_last groups with ⟨rfl, rfl⟩ | ⟨gs, g, us, w, rfl, rfl, hs, hg⟩
  · simp at eight
  · rw [List.length_append, List.length_singleton] at eight
    obtain ⟨m, hm, words⟩ := @saveAll_spec us { ipAddr := { word } } [] rfl rfl
      (by simp)
    rw [List.nil_append] at words
    rw [List.length_nil, Nat.zero_add] at hm
    have hgroup := parse_group hg [] ⟨us.length, none, none, m⟩ rfl
    rw [List.append_nil] at hgroup
    rw [colons_snoc, parse_closed hs (by simpa using head?_group hg []) rfl (by simp; omega), hm,
      hgroup]
    simp only [ipv6ParseLoop, Ipv6Parser.finish]
    rw [if_pos (by omega)]
    have hword := save_words (u := w) words
    rw [show us.length = 7 by omega] at hword
    exact ⟨rfl, by simp; omega, hword⟩

/-- A stray colon at the end is accepted. -/
theorem parse_trailing {s : List UInt8} {ws : List (BitVec 16)} (h : TrailingColon s ws)
    (word : Nat → BitVec 16) : (ipv6StringToAddr s word).1 = .NO_ERROR := by
  obtain ⟨fs, bs, us, vs, front, back, -, six, rfl, -⟩ := h
  unfold ipv6StringToAddr
  obtain ⟨m, hm, words, -⟩ := parse_front front (by omega) (closed bs) { word }
  obtain ⟨m', hm', -⟩ := @parse_back _ _ _ back [] (by simp) _ words (by omega)
  rw [List.append_nil] at hm'
  rw [hm, hm']
  simp only [ipv6ParseLoop, Ipv6Parser.finish]
  rw [if_pos (by omega)]

theorem parse_seven {s : List UInt8} (h : SevenThenGap s) (word : Nat → BitVec 16) :
    (ipv6StringToAddr s word).1 = .INVALID_SYNTAX := by
  obtain ⟨gs, ws, groups, seven, rfl⟩ := h
  unfold ipv6StringToAddr
  obtain ⟨m, hm, -, -⟩ := parse_front groups (by omega) [] { word }
  rw [List.append_nil] at hm
  rw [hm, seven]
  simp [ipv6ParseLoop, Ipv6Parser.finish]

theorem finish_written (p : Ipv6Parser) {k : Nat} (h : k ∈ p.ipAddr.written) :
    k ∈ p.finish.2.written := by
  have later : ∀ (m : Ipv6Words) (l : List Nat) (f : Ipv6Words → Nat → Nat × BitVec 16),
      k ∈ m.written → k ∈ (l.foldl (fun m n => m.put (f m n).1 (f m n).2) m).written := by
    intro m l f hm
    induction l generalizing m with
    | nil => exact hm
    | cons n l ih => exact ih _ (List.mem_append_left _ hm)
  obtain ⟨i, j, value, m⟩ := p
  unfold Ipv6Parser.finish
  cases j with
  | none =>
    simp only
    split
    · cases value with
      | none => exact h
      | some v => exact List.mem_append_left _ h
    · exact h
  | some j =>
    simp only
    split
    · refine later _ _ (fun _ n => (j + n, 0)) (later _ _ (fun m n => (7 - n, m.word _)) ?_)
      cases value with
      | none => exact h
      | some v => exact List.mem_append_left _ h
    · exact h

/-- A word that has been written stays among those that have. -/
theorem parse_written (str : List UInt8) (p : Ipv6Parser) {k : Nat} (h : k ∈ p.ipAddr.written) :
    k ∈ (ipv6ParseLoop str p).2.written := by
  fun_induction ipv6ParseLoop str p with
  | case1 p => exact finish_written p h
  | case2 => exact h
  | case3 =>
    rename_i ih
    exact ih h
  | case4 => exact h
  | case5 => exact h
  | case6 =>
    rename_i q ih
    refine ih ?_
    simp only [q, Ipv6Parser.flush]
    split
    · exact List.mem_append_left _ h
    · exact h
  | case7 =>
    rename_i ih
    exact ih (List.mem_append_left _ h)
  | case8 => exact h
  | case9 => exact h

theorem parse_nine {s : List UInt8} (h : NineThenGap s) (word : Nat → BitVec 16) :
    8 ∈ (ipv6StringToAddr s word).2.written := by
  obtain ⟨gs, ws, rest, groups, nine, rfl⟩ := h
  unfold ipv6StringToAddr
  obtain ⟨m, hm, -, written⟩ := parse_front groups (by omega) rest { word }
  rw [hm]
  exact parse_written rest _ (written nine)

/-! ## The parser and the grammar -/

theorem group_not_colon {g x y : List UInt8} {v : BitVec 16} (hg : Group g v)
    (h : x ++ g = y ++ [COLON]) : False := by
  have hlast : g.getLast? = some COLON := by
    have := congrArg List.getLast? h
    rwa [List.getLast?_append_of_ne_nil _ hg.nonempty, List.getLast?_concat] at this
  have := hg.digits COLON (List.mem_of_getLast? hlast)
  rw [not_xdigit_colon] at this
  cases this

/-- A text ends with a group or with the `::`. -/
theorem TrailingColon.not_text {s : List UInt8} {ws ws' : List (BitVec 16)}
    (h : TrailingColon s ws) : ¬ Ipv6Text s ws' := by
  obtain ⟨fs, bs, us, vs, front, back, hbs, -, rfl, -⟩ := h
  rcases groups_last back with ⟨rfl, -⟩ | ⟨hs, g, _, w, rfl, -, -, hg⟩
  · exact absurd rfl hbs
  intro h
  generalize hs : colons fs ++ GAP ++ closed (hs ++ [g]) = s at h
  rw [closed_append, closed_one, ← List.append_assoc, ← List.append_assoc] at hs
  cases h with
  | @full gs _ groups eight =>
    rcases groups_last groups with ⟨rfl, rfl⟩ | ⟨gs, g', _, w', rfl, -, -, hg'⟩
    · cases eight
    · rw [colons_snoc] at hs
      exact group_not_colon hg' hs.symm
  | @gap fs' bs' us' vs' front' back' seven =>
    rcases groups_last back' with ⟨rfl, -⟩ | ⟨gs, g', _, w', rfl, -, -, hg'⟩
    · have hgap : colons fs' ++ GAP ++ colons [] = colons fs' ++ [COLON] ++ [COLON] := by
        simp [colons, GAP]
      rw [hgap] at hs
      exact group_not_colon hg (List.append_cancel_right hs)
    · rw [colons_snoc, ← List.append_assoc] at hs
      exact group_not_colon hg' hs.symm

theorem SevenThenGap.text {s : List UInt8} (h : SevenThenGap s) : ∃ ws, Ipv6Text s ws := by
  obtain ⟨gs, ws, groups, seven, rfl⟩ := h
  refine ⟨gapped ws [], ?_⟩
  have := Ipv6Text.gap groups .nil (by simp; omega)
  rwa [colons, List.append_nil] at this

/-- `ipv6StringToAddr` stays within the eight words, accepts the texts of the grammar and no other
strings, and returns the address that they denote. -/
structure FollowsGrammar (s : List UInt8) (word : Nat → BitVec 16) : Prop where
  inside : ∀ k ∈ (ipv6StringToAddr s word).2.written, k < 8
  accepts : (ipv6StringToAddr s word).1 = .NO_ERROR ↔ ∃ ws, Ipv6Text s ws
  denotes : ∀ ws, Ipv6Text s ws → (ipv6StringToAddr s word).1 = .NO_ERROR →
    (ipv6StringToAddr s word).2.Holds ws

theorem parse_text {s : List UInt8} {ws : List (BitVec 16)} (h : Ipv6Text s ws)
    (seven : ¬ SevenThenGap s) (word : Nat → BitVec 16) :
    (ipv6StringToAddr s word).1 = .NO_ERROR ∧ (ipv6StringToAddr s word).2.Holds ws := by
  cases h with
  | full groups eight => exact parse_full groups eight word
  | @gap fs bs us vs front back short =>
    refine parse_gapped front back short ?_ word
    by_contra hroom
    have hvs : vs.length = 0 := by omega
    have hbs : bs = [] := List.length_eq_zero_iff.mp (by rw [back.length_eq, hvs])
    subst hbs
    exact seven ⟨fs, us, front, by omega, by simp [colons]⟩

/-- The parser follows the grammar, except on a `::` behind nine groups (a write outside the
address), on a `::` at the end behind seven (rejected), and on a stray colon at the end behind a
`::` (accepted). -/
theorem ipv6StringToAddr_grammar_iff (s : List UInt8) (word : Nat → BitVec 16) :
    FollowsGrammar s word ↔
      ¬ NineThenGap s ∧ ¬ SevenThenGap s ∧ ¬ ∃ ws, TrailingColon s ws := by
  constructor
  · intro h
    refine ⟨?_, ?_, ?_⟩
    · intro hnine
      have := h.inside 8 (parse_nine hnine word)
      omega
    · intro hseven
      have hok := h.accepts.mpr hseven.text
      rw [parse_seven hseven word] at hok
      cases hok
    · rintro ⟨ws, hcolon⟩
      obtain ⟨ws', htext⟩ := h.accepts.mp (parse_trailing hcolon word)
      exact hcolon.not_text htext
  · rintro ⟨nine, seven, colon⟩
    have right := ipv6StringToAddr_right s word
    refine ⟨?_, ⟨?_, ?_⟩, ?_⟩
    · intro k hk
      rcases right.inside k hk with hk | hk
      · exact hk
      · exact absurd hk nine
    · intro hok
      obtain ⟨ws, -, htext | hcolon⟩ := right.accepted hok
      · exact ⟨ws, htext⟩
      · exact absurd ⟨ws, hcolon⟩ colon
    · rintro ⟨ws, htext⟩
      exact (parse_text htext seven word).1
    · intro ws htext _
      exact (parse_text htext seven word).2

/-- `1:2:3:4:5:6:7:8:9::`. -/
def nineGroups : List UInt8 :=
  [0x31, 0x3A, 0x32, 0x3A, 0x33, 0x3A, 0x34, 0x3A, 0x35, 0x3A, 0x36, 0x3A, 0x37, 0x3A, 0x38, 0x3A,
    0x39, 0x3A, 0x3A]

theorem ipv6StringToAddr_overruns : ¬ ∀ s word, FollowsGrammar s word := by
  intro h
  have written : 8 ∈ (ipv6StringToAddr nineGroups fun _ => 0).2.written := by decide +kernel
  have := (h nineGroups fun _ => 0).inside 8 written
  omega

end Cyclone
