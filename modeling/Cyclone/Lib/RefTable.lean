import Mathlib.Data.List.Basic

/-!
# Cyclone.Lib.RefTable

Tables of a fixed number of slots, each with a key and a reference counter. A slot whose counter is
zero is free.

* `bump`, `fill`, `drop`: one more reference to a key of the table, the first reference to a new
  one, and one reference less.
* `refs`, `members`: the references to a key, and the keys of the table.
* `Grows`, `Adds`: what one more reference changes.
-/

namespace RefTable

structure Slot (α : Type) where
  addr : α
  refCount : Nat
  deriving DecidableEq, Repr

variable {α : Type} [DecidableEq α] {a b d : α} {t t' : List (Slot α)} {m : Nat}

/-- The counters count modulo `m`. -/
def bump (m : Nat) (a : α) : List (Slot α) → Option (List (Slot α))
  | [] => none
  | s :: t =>
    if 0 < s.refCount ∧ s.addr = a then some ({ s with refCount := (s.refCount + 1) % m } :: t)
    else (bump m a t).map (s :: ·)

omit [DecidableEq α] in
def Free (t : List (Slot α)) : Prop := ∃ s ∈ t, s.refCount = 0

instance (t : List (Slot α)) : Decidable (Free t) := inferInstanceAs (Decidable (∃ _ ∈ _, _))

/-- The first free slot is taken. -/
def fill (a : α) : List (Slot α) → List (Slot α)
  | [] => []
  | s :: t => if 0 < s.refCount then s :: fill a t else ⟨a, 1⟩ :: t

/-- Whether it was the last reference, and the table. A slot that becomes free holds the key
`d`. -/
def drop (d a : α) : List (Slot α) → Option (Bool × List (Slot α))
  | [] => none
  | s :: t =>
    if 0 < s.refCount ∧ s.addr = a then
      if s.refCount - 1 = 0 then some (true, ⟨d, 0⟩ :: t)
      else some (false, { s with refCount := s.refCount - 1 } :: t)
    else (drop d a t).map fun r => (r.1, s :: r.2)

def refs : List (Slot α) → α → Nat
  | [], _ => 0
  | s :: t, a => (if s.addr = a then s.refCount else 0) + refs t a

omit [DecidableEq α] in
def members (t : List (Slot α)) : List α := (t.filter fun s => 0 < s.refCount).map Slot.addr

/-- A free slot holds the key `d`. -/
def Clean (d : α) (t : List (Slot α)) : Prop := ∀ s ∈ t, s.refCount = 0 → s.addr = d

/-- One reference to `a` more, and `a` a key if it was none. -/
structure Grows (a : α) (count count' : α → Nat) (keys keys' : List α) : Prop where
  count : ∀ b, count' b = count b + if b = a then 1 else 0
  keys : a ∈ keys ∧ keys' = keys ∨ a ∉ keys ∧ keys'.Perm (a :: keys)

abbrev Adds (a : α) (t t' : List (Slot α)) : Prop :=
  Grows a (refs t) (refs t') (members t) (members t')

section Grows

variable {count count' : α → Nat} {keys keys' : List α}

theorem Grows.nodup_iff (h : Grows a count count' keys keys') : keys'.Nodup ↔ keys.Nodup := by
  rcases h.keys with ⟨-, h⟩ | ⟨hn, h⟩
  · rw [h]
  · rw [h.nodup_iff, List.nodup_cons]
    exact ⟨And.right, fun h => ⟨hn, h⟩⟩

theorem Grows.countP (h : Grows a count count' keys keys') (p : α → Bool) :
    keys'.countP p = keys.countP p + if a ∉ keys ∧ p a = true then 1 else 0 := by
  rcases h.keys with ⟨hm, h⟩ | ⟨hn, h⟩
  · rw [h, if_neg fun hc => hc.1 hm, Nat.add_zero]
  · rw [h.countP_eq, List.countP_cons]
    by_cases hp : p a = true
    · rw [if_pos hp, if_pos ⟨hn, hp⟩]
    · rw [if_neg hp, if_neg fun hc => hp hc.2]

end Grows

@[simp] theorem refs_nil : refs ([] : List (Slot α)) a = 0 := rfl

@[simp] theorem refs_cons (s : Slot α) :
    refs (s :: t) a = (if s.addr = a then s.refCount else 0) + refs t a := rfl

omit [DecidableEq α] in
@[simp] theorem members_nil : members ([] : List (Slot α)) = [] := rfl

omit [DecidableEq α] in
theorem members_cons (s : Slot α) :
    members (s :: t) = if 0 < s.refCount then s.addr :: members t else members t := by
  unfold members
  by_cases h : 0 < s.refCount <;> simp [h]

omit [DecidableEq α] in
theorem members_eq_nil (h : ∀ s ∈ t, s.refCount = 0) : members t = [] := by
  rw [members, List.map_eq_nil_iff, List.filter_eq_nil_iff]
  intro s hs
  simp [h s hs]

theorem mem_members_iff : a ∈ members t ↔ 0 < refs t a := by
  induction t with
  | nil => simp
  | cons s t ih =>
    rw [members_cons, refs_cons]
    by_cases h : 0 < s.refCount
    · rw [if_pos h, List.mem_cons, ih]
      by_cases ha : s.addr = a
      · rw [if_pos ha]
        exact ⟨fun _ => by omega, fun _ => .inl ha.symm⟩
      · rw [if_neg ha]
        constructor
        · rintro (h' | h')
          · exact absurd h'.symm ha
          · omega
        · intro h'
          exact .inr (by omega)
    · rw [if_neg h, ih]
      split_ifs <;> omega

/-- With every key in one slot, the counter of the slot is all the references. -/
theorem refCount_eq (hn : (members t).Nodup) {s : Slot α} (hs : s ∈ t) (h : 0 < s.refCount) :
    s.refCount = refs t s.addr := by
  induction t with
  | nil => cases hs
  | cons v t ih =>
    rw [members_cons] at hn
    rw [refs_cons]
    rcases List.mem_cons.mp hs with rfl | hs
    · rw [if_pos h, List.nodup_cons] at hn
      have hz := mt mem_members_iff.mpr hn.1
      rw [if_pos rfl]
      omega
    · have hmem : s.addr ∈ members t := by
        unfold members
        exact List.mem_map_of_mem (List.mem_filter.mpr ⟨hs, by simpa using h⟩)
      by_cases hv : 0 < v.refCount
      · rw [if_pos hv, List.nodup_cons] at hn
        rw [if_neg (fun he : v.addr = s.addr => hn.1 (by rw [he]; exact hmem)), Nat.zero_add]
        exact ih hn.2 hs
      · rw [if_neg hv] at hn
        have hz : v.refCount = 0 := by omega
        rw [hz, ite_self, Nat.zero_add]
        exact ih hn hs

/-! ## One reference more -/

theorem bump_eq_none : bump m a t = none ↔ a ∉ members t := by
  induction t with
  | nil => simp [bump]
  | cons s t ih =>
    rw [bump, members_cons]
    by_cases h : 0 < s.refCount
    · by_cases ha : s.addr = a
      · simp [h, ha]
      · simp [h, ha, ih, Ne.symm ha]
    · simp [h, ih]

/-- A counter that does not wrap. -/
theorem bump_some (h : bump m a t = some t') (hb : refs t a + 1 < m) :
    (∀ b, refs t' b = refs t b + if b = a then 1 else 0) ∧ members t' = members t ∧
      (∀ d, Clean d t → Clean d t') ∧ ∀ d, drop d a t' = some (false, t) := by
  induction t generalizing t' with
  | nil => cases h
  | cons s t ih =>
    rw [refs_cons] at hb
    rw [bump] at h
    by_cases hc : 0 < s.refCount ∧ s.addr = a
    · rw [if_pos hc] at h
      cases h
      obtain ⟨hpos, rfl⟩ := hc
      rw [if_pos rfl] at hb
      have hmod : (s.refCount + 1) % m = s.refCount + 1 := Nat.mod_eq_of_lt (by omega)
      rw [hmod]
      refine ⟨fun b => ?_, ?_, fun d hd => ?_, fun d => ?_⟩
      · rw [refs_cons, refs_cons]
        dsimp only
        by_cases h : s.addr = b
        · rw [if_pos h, if_pos h, if_pos h.symm]
          omega
        · rw [if_neg h, if_neg h, if_neg (Ne.symm h), Nat.add_zero]
      · rw [members_cons, members_cons, if_pos hpos, if_pos (Nat.succ_pos _)]
      · intro v hv hz
        rcases List.mem_cons.mp hv with rfl | hv
        · exact absurd hz (Nat.succ_ne_zero _)
        · exact hd v (List.mem_cons_of_mem _ hv) hz
      · have hlast : s.refCount + 1 - 1 ≠ 0 := by omega
        rw [drop, if_pos ⟨Nat.succ_pos _, rfl⟩, if_neg hlast]
        rfl
    · rw [if_neg hc, Option.map_eq_some_iff] at h
      obtain ⟨u, hu, rfl⟩ := h
      obtain ⟨h1, h2, h3, h4⟩ := ih hu (by omega)
      refine ⟨fun b => ?_, ?_, fun d hd => ?_, fun d => ?_⟩
      · rw [refs_cons, refs_cons, h1, Nat.add_assoc]
      · rw [members_cons, members_cons, h2]
      · intro v hv hz
        rcases List.mem_cons.mp hv with rfl | hv
        · exact hd v List.mem_cons_self hz
        · exact h3 d (fun w hw => hd w (List.mem_cons_of_mem _ hw)) v hv hz
      · rw [drop, if_neg hc, h4]
        rfl

theorem bump_adds (h : bump m a t = some t') (hb : refs t a + 1 < m) : Adds a t t' := by
  obtain ⟨h1, h2, -, -⟩ := bump_some h hb
  have hm : a ∈ members t := by
    by_contra hn
    rw [bump_eq_none.mpr hn] at h
    cases h
  exact ⟨h1, .inl ⟨hm, h2⟩⟩

theorem fill_spec (hf : Free t) (hn : a ∉ members t) :
    (∀ b, refs (fill a t) b = refs t b + if b = a then 1 else 0) ∧
      (members (fill a t)).Perm (a :: members t) ∧
      ∀ d, Clean d t → Clean d (fill a t) ∧ drop d a (fill a t) = some (true, t) := by
  induction t with
  | nil =>
    obtain ⟨s, hs, -⟩ := hf
    cases hs
  | cons s t ih =>
    rw [fill]
    by_cases hpos : 0 < s.refCount
    · have hf' : Free t := by
        obtain ⟨v, hv, hz⟩ := hf
        rcases List.mem_cons.mp hv with rfl | hv
        · omega
        · exact ⟨v, hv, hz⟩
      rw [members_cons, if_pos hpos, List.mem_cons, not_or] at hn
      obtain ⟨h1, h2, h3⟩ := ih hf' hn.2
      rw [if_pos hpos]
      refine ⟨fun b => ?_, ?_, fun d hd => ?_⟩
      · rw [refs_cons, refs_cons, h1, Nat.add_assoc]
      · rw [members_cons, members_cons, if_pos hpos, if_pos hpos]
        exact (h2.cons s.addr).trans (.swap a s.addr _)
      · obtain ⟨h4, h5⟩ := h3 d fun w hw => hd w (List.mem_cons_of_mem _ hw)
        constructor
        · intro v hv hz
          rcases List.mem_cons.mp hv with rfl | hv
          · exact hd v List.mem_cons_self hz
          · exact h4 v hv hz
        · rw [drop, if_neg (fun hc => hn.1 hc.2.symm), h5]
          rfl
    · have hz : s.refCount = 0 := by omega
      rw [if_neg hpos]
      refine ⟨fun b => ?_, ?_, fun d hd => ⟨?_, ?_⟩⟩
      · rw [refs_cons, refs_cons, hz, ite_self]
        dsimp only
        by_cases h : a = b
        · rw [if_pos h, if_pos h.symm]
          omega
        · rw [if_neg h, if_neg (Ne.symm h), Nat.add_zero]
      · rw [members_cons, members_cons, if_neg hpos, if_pos Nat.one_pos]
      · intro v hv hzero
        rcases List.mem_cons.mp hv with rfl | hv
        · cases hzero
        · exact hd v (List.mem_cons_of_mem _ hv) hzero
      · have haddr := hd s List.mem_cons_self hz
        rw [drop, if_pos ⟨Nat.one_pos, rfl⟩, if_pos (show 1 - 1 = 0 from rfl), ← haddr, ← hz]

theorem fill_adds (hf : Free t) (hn : a ∉ members t) : Adds a t (fill a t) :=
  ⟨(fill_spec hf hn).1, .inr ⟨hn, (fill_spec hf hn).2.1⟩⟩

/-! ## One reference less -/

theorem drop_eq_none : drop d a t = none ↔ a ∉ members t := by
  induction t with
  | nil => simp [drop]
  | cons s t ih =>
    rw [drop, members_cons]
    by_cases h : 0 < s.refCount
    · by_cases ha : s.addr = a
      · simp only [h, ha, and_self, if_true, List.mem_cons, true_or, not_true_eq_false]
        split_ifs <;> simp
      · simp [h, ha, ih, Ne.symm ha]
    · simp [h, ih]

theorem drop_some {gone : Bool} (h : drop d a t = some (gone, t')) :
    (∀ b, refs t b = refs t' b + if b = a then 1 else 0) ∧
      (gone = true → (members t).Perm (a :: members t')) ∧
      (gone = false → members t' = members t) ∧ (Clean d t → Clean d t') := by
  induction t generalizing t' with
  | nil => cases h
  | cons s t ih =>
    rw [drop] at h
    by_cases hc : 0 < s.refCount ∧ s.addr = a
    · rw [if_pos hc] at h
      obtain ⟨hpos, rfl⟩ := hc
      by_cases hlast : s.refCount - 1 = 0
      · rw [if_pos hlast] at h
        cases h
        have hone : s.refCount = 1 := by omega
        refine ⟨fun b => ?_, fun _ => ?_, fun h => (nomatch h), fun hd => ?_⟩
        · rw [refs_cons, refs_cons, hone]
          dsimp only
          rw [ite_self]
          by_cases h : s.addr = b
          · rw [if_pos h, if_pos h.symm]
            omega
          · rw [if_neg h, if_neg (Ne.symm h), Nat.add_zero]
        · rw [members_cons, members_cons, if_pos hpos, if_neg (Nat.lt_irrefl 0)]
        · intro v hv hz
          rcases List.mem_cons.mp hv with rfl | hv
          · rfl
          · exact hd v (List.mem_cons_of_mem _ hv) hz
      · rw [if_neg hlast] at h
        cases h
        refine ⟨fun b => ?_, fun h => (nomatch h), fun _ => ?_, fun hd => ?_⟩
        · rw [refs_cons, refs_cons]
          dsimp only
          by_cases h : s.addr = b
          · rw [if_pos h, if_pos h, if_pos h.symm]
            omega
          · rw [if_neg h, if_neg h, if_neg (Ne.symm h), Nat.add_zero]
        · rw [members_cons, members_cons, if_pos hpos, if_pos (Nat.pos_of_ne_zero hlast)]
        · intro v hv hz
          rcases List.mem_cons.mp hv with rfl | hv
          · exact absurd hz hlast
          · exact hd v (List.mem_cons_of_mem _ hv) hz
    · rw [if_neg hc, Option.map_eq_some_iff] at h
      obtain ⟨⟨g, u⟩, hu, he⟩ := h
      cases he
      obtain ⟨h1, h2, h3, h4⟩ := ih hu
      refine ⟨fun b => ?_, fun hg => ?_, fun hg => ?_, fun hd => ?_⟩
      · rw [refs_cons, refs_cons, h1, Nat.add_assoc]
      · rw [members_cons, members_cons]
        split_ifs
        · exact ((h2 hg).cons s.addr).trans (.swap a s.addr _)
        · exact h2 hg
      · rw [members_cons, members_cons, h3 hg]
      · intro v hv hz
        rcases List.mem_cons.mp hv with rfl | hv
        · exact hd v List.mem_cons_self hz
        · exact h4 (fun w hw => hd w (List.mem_cons_of_mem _ hw)) v hv hz

theorem mem_of_drop {gone : Bool} (h : drop d a t = some (gone, t')) : a ∈ members t := by
  by_contra hn
  rw [drop_eq_none.mpr hn] at h
  cases h

/-- The last reference is the one after which the key is no member. -/
theorem drop_gone {gone : Bool} (h : drop d a t = some (gone, t')) (hn : (members t).Nodup) :
    gone = true ↔ a ∉ members t' := by
  obtain ⟨-, h2, h3, -⟩ := drop_some h
  cases gone with
  | true =>
    rw [(h2 rfl).nodup_iff, List.nodup_cons] at hn
    exact ⟨fun _ => hn.1, fun _ => rfl⟩
  | false =>
    rw [h3 rfl]
    exact ⟨fun h => (nomatch h), fun hc => absurd (mem_of_drop h) hc⟩

theorem drop_adds {gone : Bool} (h : drop d a t = some (gone, t')) (hn : (members t).Nodup) :
    Adds a t' t := by
  obtain ⟨h1, h2, h3, -⟩ := drop_some h
  refine ⟨h1, ?_⟩
  by_cases hm : a ∈ members t'
  · have hg : gone = false := by
      by_contra hg
      exact (drop_gone h hn).mp (Bool.not_eq_false _ |>.mp hg) hm
    exact .inl ⟨hm, (h3 hg).symm⟩
  · exact .inr ⟨hm, h2 ((drop_gone h hn).mpr hm)⟩

end RefTable
