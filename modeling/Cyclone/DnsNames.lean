import Cyclone.DnsCommon

/-!
# Cyclone.DnsNames

Names in DNS messages, decoded, compared and encoded.

* `dnsCompareName_iff`: exactly when a comparison agrees with the decoder.
* `name_round_trip`: exactly when encoding and decoding are inverse to each other.
-/

namespace Cyclone

/-! ## Matching labels -/

def lower (xs : List UInt8) : List UInt8 := xs.map tolower

@[simp] theorem lower_nil : lower [] = [] := rfl

@[simp] theorem lower_cons (c : UInt8) (xs : List UInt8) :
    lower (c :: xs) = tolower c :: lower xs := rfl

@[simp] theorem lower_append (xs ys : List UInt8) : lower (xs ++ ys) = lower xs ++ lower ys :=
  List.map_append

@[simp] theorem length_lower (xs : List UInt8) : (lower xs).length = xs.length := List.length_map _

theorem tolower_eq_dot {c : UInt8} : tolower c = DOT ↔ c = DOT := by
  unfold tolower DOT
  grind

theorem tolower_eq_zero {c : UInt8} : tolower c = 0 ↔ c = 0 := by
  unfold tolower
  grind

theorem tolower_toNat_inj {c d : UInt8} (h : ((tolower c).toNat : Int) - (tolower d).toNat = 0) :
    tolower c = tolower d := UInt8.toNat_inj.mp (by omega)

/-- The name behind a label it begins with, and behind the separator. -/
def matchLabel (label name : List UInt8) : Option (List UInt8) :=
  if label.length ≤ name.length ∧ lower label = lower (name.take label.length) then
    match name.drop label.length with
    | [] => some []
    | c :: rest => if c = DOT then some rest else none
  else none

/-- The name behind all labels. -/
def spell : List (List UInt8) → List UInt8 → Option (List UInt8)
  | [], name => some name
  | label :: labels, name => (matchLabel label name).bind (spell labels)

/-- The label goes on behind the end of the name with a zero byte. -/
def passesEnd (label name : List UInt8) : Prop :=
  ∃ front back, label = front ++ 0 :: back ∧ lower front = lower name

theorem strncasecmp_end (c : UInt8) (s1 : List UInt8) : strncasecmp (c :: s1) [] =
    if tolower c ≠ tolower 0 then ((tolower c).toNat : Int) - (tolower 0).toNat
    else if c = 0 then 0 else strncasecmp s1 [] := by
  rw [strncasecmp]; rfl

theorem strncasecmp_cons (c d : UInt8) (s1 s2 : List UInt8) : strncasecmp (c :: s1) (d :: s2) =
    if tolower c ≠ tolower d then ((tolower c).toNat : Int) - (tolower d).toNat
    else if c = 0 then 0 else strncasecmp s1 s2 := by
  rw [strncasecmp]; rfl

theorem strncasecmp_eq_zero {label name : List UInt8} (h0 : 0 ∉ name) :
    strncasecmp label name = 0 ↔
      label.length ≤ name.length ∧ lower label = lower (name.take label.length) ∨
        passesEnd label name := by
  induction label generalizing name with
  | nil => simp [strncasecmp]
  | cons c label ih =>
    cases name with
    | nil =>
      rw [strncasecmp_end]
      by_cases hc : c = 0
      · rw [hc, if_neg (by simp), if_pos rfl]
        simp only [true_iff]
        exact .inr ⟨[], label, rfl, rfl⟩
      · have hne : tolower c ≠ tolower 0 := fun h => hc (tolower_eq_zero.mp h)
        rw [if_pos hne]
        constructor
        · intro h
          exact absurd (tolower_toNat_inj h) hne
        · rintro (h | ⟨front, back, h1, h2⟩)
          · simp at h
          · obtain rfl : front = [] := by simpa [lower] using h2
            simp at h1
            exact absurd h1.1 hc
    | cons d name =>
      have hd : d ≠ 0 := fun h => h0 (by simp [h])
      have h0' : 0 ∉ name := fun h => h0 (List.mem_cons_of_mem _ h)
      rw [strncasecmp_cons]
      by_cases hcd : tolower c = tolower d
      · have hc : c ≠ 0 := fun h => hd (tolower_eq_zero.mp (by rw [← hcd, h]; rfl))
        rw [if_neg (fun h => h hcd), if_neg hc, ih h0']
        constructor
        · rintro (⟨h1, h2⟩ | ⟨front, back, h1, h2⟩)
          · exact .inl ⟨by simpa using h1, by simp [hcd, h2]⟩
          · exact .inr ⟨c :: front, back, by simp [h1], by simp [hcd, h2]⟩
        · rintro (⟨h1, h2⟩ | ⟨front, back, h1, h2⟩)
          · exact .inl ⟨by simpa using h1, by simpa [hcd] using h2⟩
          · cases front with
            | nil => simp at h2
            | cons f front =>
              simp only [List.cons_append, List.cons.injEq, lower_cons] at h1 h2
              exact .inr ⟨front, back, h1.2, h2.2⟩
      · rw [if_pos hcd]
        constructor
        · intro h
          exact absurd (tolower_toNat_inj h) hcd
        · rintro (⟨h1, h2⟩ | ⟨front, back, h1, h2⟩)
          · simp at h2
            exact absurd h2.1 hcd
          · cases front with
            | nil => simp at h2
            | cons f front =>
              simp only [List.cons_append, List.cons.injEq, lower_cons] at h1 h2
              exact absurd (by rw [h1.1]; exact h2.1) hcd

theorem passesEnd_length {label name : List UInt8} (h : passesEnd label name) :
    name.length < label.length := by
  obtain ⟨front, back, rfl, h2⟩ := h
  have hlen := congrArg List.length h2
  simp only [length_lower] at hlen
  simp only [List.length_append, List.length_cons]
  omega

/-- The three ways one label of the comparison can go. -/
theorem compared_cons {label : List UInt8} {labels : List (List UInt8)} {e : NameEnd}
    {name : List UInt8} (h0 : 0 ∉ name) :
    passesEnd label name ∧ compared (label :: labels) e name = none ∨
    (∃ rest, matchLabel label name = some rest ∧
      compared (label :: labels) e name = compared labels e rest) ∨
    matchLabel label name = none ∧ ¬passesEnd label name ∧
      ∃ res, res ≠ 0 ∧ compared (label :: labels) e name = some res := by
  by_cases hp : passesEnd label name
  · have hlen := passesEnd_length hp
    refine .inl ⟨hp, ?_⟩
    rw [compared, if_neg (by simpa using (strncasecmp_eq_zero h0).mpr (.inr hp)), if_pos hlen]
  right
  by_cases hm : label.length ≤ name.length ∧ lower label = lower (name.take label.length)
  · have hcmp : ¬strncasecmp label name ≠ 0 := by
      simpa using (strncasecmp_eq_zero h0).mpr (.inl hm)
    rw [matchLabel, if_pos hm, compared, if_neg hcmp, if_neg (by omega)]
    cases name.drop label.length with
    | nil => exact .inl ⟨[], rfl, rfl⟩
    | cons c rest =>
      by_cases hc : c = DOT
      · simp only [if_pos hc]
        exact .inl ⟨rest, rfl, rfl⟩
      · simp only [if_neg hc]
        exact .inr ⟨trivial, hp, -1, by decide, rfl⟩
  · right
    have hcmp : strncasecmp label name ≠ 0 := fun h =>
      ((strncasecmp_eq_zero h0).mp h).elim hm hp
    rw [matchLabel, if_neg hm, compared, if_pos hcmp]
    exact ⟨rfl, hp, _, hcmp, rfl⟩

theorem matchLabel_mem {label name rest : List UInt8} (h : matchLabel label name = some rest) :
    ∀ c ∈ rest, c ∈ name := by
  unfold matchLabel at h
  split at h
  · intro c hc
    apply List.mem_of_mem_drop (i := label.length)
    cases hd : name.drop label.length with
    | nil => rw [hd] at h; cases h; exact absurd hc (by simp)
    | cons d tail =>
      rw [hd] at h
      simp only at h
      split at h
      · cases h; exact List.mem_cons_of_mem _ hc
      · cases h
  · cases h

theorem matchLabel_of_passesEnd {label name : List UInt8} (h : passesEnd label name) :
    matchLabel label name = none := by
  have hlen := passesEnd_length h
  rw [matchLabel, if_neg (by omega)]

/-- Some label goes on behind the end of the name, after all before it have been found. -/
def overruns (labels : List (List UInt8)) (name : List UInt8) : Prop :=
  ∃ before label after rest, labels = before ++ label :: after ∧ spell before name = some rest ∧
    passesEnd label rest

theorem overruns_nil (name : List UInt8) : ¬overruns [] name := by
  rintro ⟨before, label, after, rest, h, -⟩
  exact absurd h (by simp)

theorem overruns_cons {label : List UInt8} {labels : List (List UInt8)} {name : List UInt8} :
    overruns (label :: labels) name ↔
      passesEnd label name ∨ ∃ rest, matchLabel label name = some rest ∧ overruns labels rest := by
  constructor
  · rintro ⟨before, l, after, rest, h1, h2, h3⟩
    cases before with
    | nil =>
      simp only [List.nil_append, List.cons.injEq] at h1
      cases h2
      exact .inl (h1.1 ▸ h3)
    | cons b before =>
      simp only [List.cons_append, List.cons.injEq] at h1
      obtain ⟨rfl, rfl⟩ := h1
      obtain ⟨r, hr, h2⟩ := Option.bind_eq_some_iff.mp h2
      exact .inr ⟨r, hr, before, l, after, rest, rfl, h2, h3⟩
  · rintro (h | ⟨r, hr, before, l, after, rest, rfl, h2, h3⟩)
    · exact ⟨[], label, labels, name, rfl, rfl, h⟩
    · exact ⟨label :: before, l, after, rest, rfl, Option.bind_eq_some_iff.mpr ⟨r, hr, h2⟩, h3⟩

theorem compared_none {labels : List (List UInt8)} {e : NameEnd} {name : List UInt8}
    (h0 : 0 ∉ name) : compared labels e name = none ↔ overruns labels name := by
  induction labels generalizing name with
  | nil =>
    refine iff_of_false ?_ (overruns_nil name)
    cases e <;> simp only [compared]
    · split <;> simp
    · simp
    · simp
  | cons label labels ih =>
    rw [overruns_cons]
    rcases @compared_cons label labels e _ h0 with
      ⟨hp, hc⟩ | ⟨rest, hm, hc⟩ | ⟨hm, hp, res, -, hc⟩
    · exact iff_of_true hc (.inl hp)
    · have h0' : 0 ∉ rest := fun h => h0 (matchLabel_mem hm 0 h)
      rw [hc, ih h0', hm]
      constructor
      · exact fun h => .inr ⟨rest, rfl, h⟩
      · rintro (h | ⟨r, hr, h⟩)
        · rw [matchLabel_of_passesEnd h] at hm; cases hm
        · cases hr; exact h
    · refine iff_of_false (by rw [hc]; simp) ?_
      rintro (h | ⟨r, hr, -⟩)
      · exact hp h
      · rw [hm] at hr; cases hr

theorem compared_zero {labels : List (List UInt8)} {e : NameEnd} {name : List UInt8}
    (h0 : 0 ∉ name) : compared labels e name = some 0 ↔
      ∃ rest, spell labels name = some rest ∧ (e = .cut ∨ (∃ dot, e = .root dot) ∧ rest = []) := by
  induction labels generalizing name with
  | nil =>
    cases e with
    | root dot =>
      simp only [compared, spell]
      by_cases hn : name = [] <;> simp [hn]
    | cut => simp [compared, spell]
    | broken => simp [compared]
  | cons label labels ih =>
    rcases @compared_cons label labels e _ h0 with
      ⟨hp, hc⟩ | ⟨rest, hm, hc⟩ | ⟨hm, hp, res, hres, hc⟩
    · rw [hc, spell, matchLabel_of_passesEnd hp]; simp
    · have h0' : 0 ∉ rest := fun h => h0 (matchLabel_mem hm 0 h)
      rw [hc, ih h0', spell, hm]
      rfl
    · rw [hc, spell, hm]; simp [hres]

/-! ## Names as texts -/

theorem lower_split {xs ys zs : List UInt8} :
    lower xs = ys ++ DOT :: zs ↔
      ∃ front back, xs = front ++ DOT :: back ∧ lower front = ys ∧ lower back = zs := by
  constructor
  · intro h
    obtain ⟨front, tail, h1, h2, h3⟩ := List.map_eq_append_iff.mp h
    obtain ⟨d, back, h4, h5, h6⟩ := List.map_eq_cons_iff.mp h3
    rw [tolower_eq_dot.mp h5] at h4
    exact ⟨front, back, by rw [h1, h4], h2, h6⟩
  · rintro ⟨front, back, rfl, rfl, rfl⟩
    simp [tolower_eq_dot.mpr]

theorem matchLabel_some {label name rest : List UInt8} :
    matchLabel label name = some rest ↔
      rest = [] ∧ lower name = lower label ∨
        ∃ front, name = front ++ DOT :: rest ∧ lower front = lower label := by
  constructor
  · intro h
    unfold matchLabel at h
    split at h
    · rename_i hm
      have hname := List.take_append_drop label.length name
      cases hd : name.drop label.length with
      | nil =>
        rw [hd] at h hname
        cases h
        rw [List.append_nil] at hname
        exact .inl ⟨rfl, by rw [hm.2, hname]⟩
      | cons d tail =>
        rw [hd] at h hname
        simp only at h
        split at h
        · rename_i hdot
          cases h
          exact .inr ⟨name.take label.length, by rw [← hdot, hname], hm.2.symm⟩
        · cases h
    · cases h
  · rintro (⟨rfl, h⟩ | ⟨front, rfl, h⟩)
    · have hlen := congrArg List.length h
      simp only [length_lower] at hlen
      have htake : name.take label.length = name := List.take_of_length_le (by omega)
      have hdrop : name.drop label.length = [] := List.drop_eq_nil_of_le (by omega)
      rw [matchLabel, if_pos ⟨by omega, by rw [htake, h]⟩, hdrop]
    · have hlen := congrArg List.length h
      simp only [length_lower] at hlen
      have htake : (front ++ DOT :: rest).take label.length = front := by
        rw [← hlen]; exact List.take_left' rfl
      have hdrop : (front ++ DOT :: rest).drop label.length = DOT :: rest := by
        rw [← hlen]; exact List.drop_left' rfl
      rw [matchLabel, if_pos ⟨by rw [← hlen]; simp, by rw [htake, h]⟩, hdrop]
      simp

theorem joinLabels_ne_nil {labels : List (List UInt8)} (hne : labels ≠ [])
    (hl : ∀ l ∈ labels, l ≠ []) : joinLabels labels ≠ [] := by
  match labels, hne, hl with
  | [l], _, hl => exact hl l (by simp)
  | l :: k :: rest, _, _ => simp [joinLabels]

/-- A name that spells all labels is their text, with a dot behind it or not. -/
theorem spell_nil {labels : List (List UInt8)} (hl : ∀ l ∈ labels, l ≠ []) {name : List UInt8} :
    spell labels name = some [] ↔
      lower name = lower (joinLabels labels) ∨
        labels ≠ [] ∧ lower name = lower (joinLabels labels) ++ [DOT] := by
  induction labels generalizing name with
  | nil => simp [spell, joinLabels, lower]
  | cons label labels ih =>
    rw [spell, Option.bind_eq_some_iff]
    cases labels with
    | nil =>
      simp only [spell, Option.some.injEq, joinLabels, exists_eq_right, matchLabel_some, true_and,
        ne_eq, List.cons_ne_nil, not_false_eq_true]
      refine or_congr Iff.rfl ?_
      rw [lower_split]
      constructor
      · rintro ⟨front, h1, h2⟩
        exact ⟨front, [], h1, h2, rfl⟩
      · rintro ⟨front, back, h1, h2, h3⟩
        obtain rfl : back = [] := by simpa [lower] using h3
        exact ⟨front, h1, h2⟩
    | cons l labels =>
      have hne : joinLabels (l :: labels) ≠ [] :=
        joinLabels_ne_nil (by simp) fun x hx => hl x (List.mem_cons_of_mem _ hx)
      have hjoin : joinLabels (label :: l :: labels) = label ++ DOT :: joinLabels (l :: labels) :=
        rfl
      have hdot : tolower DOT = DOT := tolower_eq_dot.mpr rfl
      simp only [ih fun x hx => hl x (List.mem_cons_of_mem _ hx), hjoin, lower_append, lower_cons,
        hdot, List.append_assoc, List.cons_append, ne_eq, List.cons_ne_nil, not_false_eq_true,
        true_and, lower_split, matchLabel_some]
      constructor
      · rintro ⟨rest, (⟨rfl, -⟩ | ⟨front, h1, h2⟩), hrest⟩
        · rcases hrest with h | h
          · exact absurd (by simpa [lower] using h.symm) hne
          · simp at h
        · rcases hrest with h | h
          · exact .inl ⟨front, rest, h1, h2, h⟩
          · exact .inr ⟨front, rest, h1, h2, h⟩
      · rintro (⟨front, back, h1, h2, h3⟩ | ⟨front, back, h1, h2, h3⟩)
        · exact ⟨back, .inr ⟨front, h1, h2⟩, .inl h3⟩
        · exact ⟨back, .inr ⟨front, h1, h2⟩, .inr h3⟩

/-- A name with no label of length zero, except behind a final dot. -/
def NoEmptyLabel (name : List UInt8) : Prop :=
  name.head? ≠ some DOT ∧ ¬[DOT, DOT] <:+: name

/-- A name without its final dot. -/
def stripDot (name : List UInt8) : List UInt8 :=
  if name.getLast? = some DOT then name.dropLast else name

/-- Equal but for case and a final dot. -/
def sameName (a b : List UInt8) : Prop := stripDot (lower a) = stripDot (lower b)

theorem stripDot_eq {xs ys : List UInt8} :
    stripDot xs = ys ↔ xs = ys ++ [DOT] ∨ xs = ys ∧ xs.getLast? ≠ some DOT := by
  unfold stripDot
  split
  · rename_i h
    obtain ⟨front, rfl⟩ := List.getLast?_eq_some_iff.mp h
    simp
  · rename_i h
    constructor
    · exact fun he => .inr ⟨he, h⟩
    · rintro (rfl | ⟨rfl, -⟩)
      · simp at h
      · rfl

/-- The last label ends in a dot, and the final dot of the text is not the one the name lacks. -/
def DotSlip (labels : List (List UInt8)) (dot : Bool) (name : List UInt8) : Prop :=
  (lower (joinLabels labels)).getLast? = some DOT ∧
    if dot then lower name = lower (joinLabels labels)
    else lower name ++ [DOT] = lower (joinLabels labels) ∧ (lower name).getLast? ≠ some DOT

theorem lower_infix_dots {name : List UInt8} (h : [DOT, DOT] <:+: lower name) :
    [DOT, DOT] <:+: name := by
  obtain ⟨front, back, h⟩ := h
  have h1 : lower name = front ++ DOT :: (DOT :: back) := by rw [← h]; simp
  obtain ⟨f, b, rfl, rfl, h2⟩ := lower_split.mp h1
  obtain ⟨f', b', h3, h4, -⟩ := lower_split.mp (show lower b = [] ++ DOT :: back from h2)
  obtain rfl : f' = [] := by simpa [lower] using h4
  exact ⟨f, b', by rw [h3]; simp⟩

/-- The text of the labels is the name exactly when the name spells them, a dot at the end of the
last label aside. -/
theorem sameName_iff {labels : List (List UInt8)} (hl : ∀ l ∈ labels, l ≠ []) {name : List UInt8}
    (hv : NoEmptyLabel name) (dot : Bool) :
    (sameName (labelText labels dot) name ↔ spell labels name = some []) ↔
      ¬DotSlip labels dot name := by
  rw [spell_nil hl, sameName, eq_comm (a := stripDot _), stripDot_eq, DotSlip, labelText]
  have hdots : ∀ xs, lower name ≠ xs ++ [DOT] ++ [DOT] := fun xs h =>
    hv.2 (lower_infix_dots ⟨xs, [], by rw [h]; simp⟩)
  cases labels with
  | nil =>
    have hhead : lower name ≠ [DOT] := by
      intro h
      obtain ⟨f, b, h1, h2, -⟩ := lower_split.mp (show lower name = [] ++ DOT :: [] from h)
      obtain rfl : f = [] := by simpa [lower] using h2
      exact hv.1 (by rw [h1]; rfl)
    have hstrip : stripDot [] = [] := rfl
    simp [joinLabels, hstrip, hhead]
    intro h; simp [h]
  | cons label labels =>
    have hJ : lower (joinLabels (label :: labels)) ≠ [] := by
      intro h
      exact joinLabels_ne_nil (by simp) hl (by simpa [lower] using h)
    simp only [ne_eq, List.cons_ne_nil, not_false_eq_true, and_true, true_and, lower_append]
    generalize lower (joinLabels (label :: labels)) = J at hJ ⊢
    generalize lower name = N at hdots ⊢
    have hdot : lower [DOT] = [DOT] := rfl
    by_cases hend : J.getLast? = some DOT
    · obtain ⟨K, rfl⟩ := List.getLast?_eq_some_iff.mp hend
      cases dot with
      | true =>
        have hstrip : stripDot (K ++ [DOT] ++ [DOT]) = K ++ [DOT] := stripDot_eq.mpr (.inl rfl)
        simp only [if_true, hdot, hstrip]
        have := hdots K
        grind
      | false =>
        have hstrip : stripDot (K ++ [DOT]) = K := stripDot_eq.mpr (.inl rfl)
        simp only [Bool.false_eq_true, if_false, lower_nil, List.append_nil, hstrip,
          List.append_left_inj]
        have hlong : N = K → N ≠ K ++ [DOT] := fun h => by simp [h]
        have := hdots K
        tauto
    · cases dot with
      | true =>
        have hstrip : stripDot (J ++ [DOT]) = J := stripDot_eq.mpr (.inl rfl)
        simp only [if_true, hdot, hstrip]
        grind
      | false =>
        have hstrip : stripDot J = J := stripDot_eq.mpr (.inr ⟨rfl, hend⟩)
        simp only [Bool.false_eq_true, if_false, lower_nil, List.append_nil, hstrip]
        grind

/-! ## Comparing -/

theorem walk_labels_ne {src : List UInt8} {pos level : Nat} :
    ∀ l ∈ (walk src pos level).1, l ≠ [] := by
  fun_induction walk src pos level with
  | case1 => simp
  | case2 => simp
  | case3 => simp
  | case4 => simp
  | case5 pos level hl b hb h0 ht lo hlo ih => exact ih
  | case6 => simp
  | case7 pos level hl b hb h0 ht hlen ih =>
    intro l hmem
    have hmem' : l = (src.drop (pos + 1)).take b.toNat ∨ l ∈ (walk src (pos + 1 + b.toNat) level).1 := by
      revert hmem
      unfold withLabel
      split
      · intro h; exact .inl (by simpa using h)
      · rename_i labels e _ heq
        rw [heq]
        intro h; exact List.mem_cons.mp h
    rcases hmem' with rfl | hmem'
    · intro h
      have := length_label hlen
      rw [h] at this
      exact h0 (UInt8.toNat_inj.mp this.symm)
    · exact ih l hmem'

/-- The encoded names a comparison gets wrong. -/
inductive NameSlip (labels : List (List UInt8)) (e : NameEnd) (name : List UInt8) : Prop
  /-- A zero byte in a label meets the terminator of the name. -/
  | zero (h : overruns labels name)
  /-- All labels match, and a tag in the last byte of the message follows. -/
  | cut (he : e = .cut) {rest : List UInt8} (h : spell labels name = some rest)
  /-- All labels match, and one of them is longer than the decoder accepts. -/
  | long {dot : Bool} (he : e = .root dot) (h : spell labels name = some [])
      {l : List UInt8} (hl : l ∈ labels) (hlen : DNS_LABEL_MAX_SIZE ≤ l.length)
  /-- The last label ends in a dot. -/
  | dot {dot : Bool} (he : e = .root dot) (hs : ∀ l ∈ labels, l.length < DNS_LABEL_MAX_SIZE)
      (h : DotSlip labels dot name)

/-- The comparison reads inside the message and the name, and finds the name exactly when the
decoder does. -/
def CompareAgrees (src : List UInt8) (pos : Nat) (name : List UInt8) (level : Nat) : Prop :=
  ∃ res, dnsCompareName src pos name level = some res ∧
    (res = 0 ↔ ∃ next text, dnsParseName src pos level = some (next, text) ∧ sameName text name)

theorem dnsParseName_text (src : List UInt8) (pos level : Nat) (P : List UInt8 → Prop) :
    (∃ next text, dnsParseName src pos level = some (next, text) ∧ P text) ↔
      ∃ text, decoded (walk src pos level) = some text ∧ P text := by
  rw [← dnsParseName_walk]
  constructor
  · rintro ⟨next, text, h, hp⟩
    exact ⟨text, by rw [h]; rfl, hp⟩
  · rintro ⟨text, h, hp⟩
    obtain ⟨⟨next, t⟩, h1, h2⟩ := Option.map_eq_some_iff.mp h
    obtain rfl : t = text := h2
    exact ⟨next, t, h1, hp⟩

theorem dnsCompareName_iff (src : List UInt8) (pos level : Nat) (name : List UInt8)
    (h0 : 0 ∉ name) (hv : NoEmptyLabel name) :
    CompareAgrees src pos name level ↔
      ¬NameSlip (walk src pos level).1 (walk src pos level).2 name := by
  have hne := @walk_labels_ne src pos level
  rw [CompareAgrees, dnsParseName_text, dnsCompareName_walk]
  generalize walk src pos level = w at hne ⊢
  obtain ⟨labels, e⟩ := w
  have hnone := @compared_none labels e _ h0
  have hzero := @compared_zero labels e _ h0
  simp only at hne ⊢
  cases hc : compared labels e name with
  | none => exact iff_of_false (by simp) fun h => h (.zero (hnone.mp hc))
  | some res =>
    have hover : ¬overruns labels name := fun h => by rw [hnone.mpr h] at hc; cases hc
    rw [hc, Option.some.injEq] at hzero
    simp only [Option.some.injEq, exists_eq_left', hzero]
    cases e with
    | broken =>
      refine iff_of_true (by simp [decoded]) ?_
      rintro (h | ⟨he, -⟩ | ⟨he, -⟩ | ⟨he, -⟩)
      · exact hover h
      all_goals cases he
    | cut =>
      constructor
      · rintro h (hz | ⟨-, hs⟩ | ⟨he, -⟩ | ⟨he, -⟩)
        · exact hover hz
        · obtain ⟨text, ht, -⟩ := h.mp ⟨_, hs, .inl rfl⟩
          cases ht
        all_goals cases he
      · intro h
        refine iff_of_false ?_ (by simp [decoded])
        rintro ⟨rest, hs, -⟩
        exact h (.cut rfl hs)
    | root dot =>
      have hspell : (∃ rest, spell labels name = some rest ∧
          (NameEnd.root dot = .cut ∨ (∃ d, NameEnd.root dot = .root d) ∧ rest = [])) ↔
          spell labels name = some [] := by simp
      rw [hspell]
      by_cases hs : ∀ l ∈ labels, l.length < DNS_LABEL_MAX_SIZE
      · have htext : decoded (labels, .root dot) = some (labelText labels dot) := if_pos hs
        simp only [htext, Option.some.injEq, exists_eq_left']
        rw [iff_comm (a := spell labels name = some []), sameName_iff hne hv dot]
        refine not_congr ⟨fun h => .dot rfl hs h, ?_⟩
        rintro (h | ⟨he, -⟩ | ⟨-, -, hl, hlen⟩ | ⟨he, -, h⟩)
        · exact absurd h hover
        · cases he
        · exact absurd (hs _ hl) (by omega)
        · cases he; exact h
      · have htext : decoded (labels, .root dot) = none := if_neg hs
        simp only [htext, reduceCtorEq, false_and, exists_false, iff_false]
        refine not_congr ⟨fun h => ?_, ?_⟩
        · push Not at hs
          obtain ⟨l, hl, hlen⟩ := hs
          exact .long rfl h hl hlen
        · rintro (h | ⟨he, -⟩ | ⟨-, h, -⟩ | ⟨-, hshort, -⟩)
          · exact absurd h hover
          · cases he
          · exact h
          · exact absurd hshort hs

/-- A label compared in another case. -/
theorem dnsCompareName_iff_case : CompareAgrees [1, 97, 0] 0 [65] 0 := by
  refine (dnsCompareName_iff [1, 97, 0] 0 0 [65] (by decide) ⟨by decide, by decide⟩).mpr ?_
  have hwalk : walk [1, 97, 0] 0 0 = ([[97]], .root false) := by
    rw [walk_some (b := 1) (by decide) rfl, walk_some (b := 0) (by decide) rfl]
    rfl
  rw [hwalk]
  rintro (⟨before, label, after, rest, h1, h2, front, back, h3, -⟩ | ⟨he, -⟩ | ⟨-, -, hl, hlen⟩ | ⟨-, -, h, -⟩)
  · cases before with
    | nil => simp at h1; rw [← h1.1] at h3; cases front <;> simp at h3
    | cons b before => simp at h1
  · cases he
  · simp at hl; subst hl; simp [DNS_LABEL_MAX_SIZE] at hlen
  · exact absurd h (by decide)

/-- A compression tag in the last byte: the comparison reports a match, the decoder an error. -/
theorem dnsCompareName_cut : ¬CompareAgrees (List.replicate 12 0 ++ [0xC0]) 12 [97] 0 := by
  rintro ⟨res, h1, h2⟩
  have hcmp : dnsCompareName (List.replicate 12 0 ++ [0xC0]) 12 [97] 0 = some 0 := by
    rw [dnsCompareName]; rfl
  have hparse : dnsParseName (List.replicate 12 0 ++ [0xC0]) 12 0 = none := by
    rw [dnsParseName]; rfl
  rw [hcmp] at h1
  cases h1
  obtain ⟨next, text, h, -⟩ := h2.mp rfl
  rw [hparse] at h
  cases h

/-! ## Encoding and decoding -/

/-- The labels a name may have. -/
structure ValidLabel (label : List UInt8) : Prop where
  pos : 1 ≤ label.length
  le : label.length ≤ DNS_LABEL_MAX_SIZE
  dot : DOT ∉ label
  zero : 0 ∉ label

/-- The encoding of a name without pointers. -/
def encodeLabels : List (List UInt8) → List UInt8
  | [] => [0]
  | label :: labels => UInt8.ofNat label.length :: label ++ encodeLabels labels

theorem encodeLoop_append {label : List UInt8} (hd : DOT ∉ label) (front src : List UInt8) :
    encodeLoop front (label ++ src) = encodeLoop (front ++ label) src := by
  induction label generalizing front with
  | nil => simp
  | cons c label ih =>
    have hc : c ≠ DOT := fun h => hd (by simp [h])
    rw [List.cons_append, encodeLoop, if_neg hc, ih fun h => hd (List.mem_cons_of_mem _ h)]
    simp

theorem dnsEncodeName_join {labels : List (List UInt8)} (hne : labels ≠ [])
    (hv : ∀ l ∈ labels, ValidLabel l) :
    dnsEncodeName (joinLabels labels) = some (encodeLabels labels) := by
  induction labels with
  | nil => exact absurd rfl hne
  | cons label labels ih =>
    have hl := hv label List.mem_cons_self
    have hlen : ¬(label.length < 1 ∨ label.length > DNS_LABEL_MAX_SIZE) := by
      have := hl.pos
      have := hl.le
      omega
    cases labels with
    | nil =>
      have happ := encodeLoop_append hl.dot [] []
      rw [List.append_nil, List.nil_append] at happ
      rw [dnsEncodeName, joinLabels, happ, encodeLoop, if_neg hlen]
      rfl
    | cons l labels =>
      have hrest := ih (by simp) fun x hx => hv x (List.mem_cons_of_mem _ hx)
      rw [dnsEncodeName, joinLabels, encodeLoop_append hl.dot, List.nil_append, encodeLoop,
        if_pos rfl, if_neg hlen]
      rw [dnsEncodeName] at hrest
      rw [hrest]
      rfl
      · simp

theorem dnsEncodeName_nil : dnsEncodeName [] = none := rfl

theorem toNat_ofNat_label {label : List UInt8} (h : label.length ≤ DNS_LABEL_MAX_SIZE) :
    (UInt8.ofNat label.length).toNat = label.length := by
  rw [UInt8.toNat_ofNat']
  exact Nat.mod_eq_of_lt (by unfold DNS_LABEL_MAX_SIZE at h; omega)

/-- Decoding an encoding without pointers, from any position of any message. -/
theorem dnsParseName_encodeLabels {labels : List (List UInt8)} (hv : ∀ l ∈ labels, ValidLabel l)
    {level : Nat} (hlevel : ¬level ≥ DNS_NAME_MAX_RECURSION) (front back : List UInt8) :
    dnsParseName (front ++ encodeLabels labels ++ back) front.length level =
      if ∀ l ∈ labels, l.length < DNS_LABEL_MAX_SIZE then
        some (front.length + (encodeLabels labels).length, joinLabels labels)
      else none := by
  induction labels generalizing front with
  | nil =>
    have hbyte : (front ++ encodeLabels [] ++ back)[front.length]? = some 0 := by
      simp [encodeLabels]
    rw [dnsParseName_some hlevel hbyte]
    simp [encodeLabels, joinLabels]
  | cons label labels ih =>
    have hl := hv label List.mem_cons_self
    have hn := toNat_ofNat_label hl.le
    have hle := hl.le
    have hpos := hl.pos
    have hbyte : (front ++ encodeLabels (label :: labels) ++ back)[front.length]? =
        some (UInt8.ofNat label.length) := by simp [encodeLabels]
    have hmsg : front ++ encodeLabels (label :: labels) ++ back =
        (front ++ UInt8.ofNat label.length :: label) ++ encodeLabels labels ++ back := by
      simp [encodeLabels]
    have hnext : front.length + 1 + label.length =
        (front ++ UInt8.ofNat label.length :: label).length := by simp; omega
    have h0 : UInt8.ofNat label.length ≠ 0 := by
      intro h
      rw [h] at hn
      have : (0 : UInt8).toNat = 0 := rfl
      omega
    have htag : ¬UInt8.ofNat label.length ≥ DNS_COMPRESSION_TAG := by
      intro h
      have := UInt8.le_iff_toNat_le.mp h
      rw [hn] at this
      unfold DNS_LABEL_MAX_SIZE at hle
      have htag : DNS_COMPRESSION_TAG.toNat = 192 := rfl
      omega
    have hlabel : ((front ++ encodeLabels (label :: labels) ++ back).drop (front.length + 1)).take
        label.length = label := by
      rw [← List.drop_drop, List.append_assoc, List.drop_left' rfl, encodeLabels]
      simp
    rw [dnsParseName_some hlevel hbyte, if_neg h0, if_neg htag, hn]
    by_cases hshort : label.length < DNS_LABEL_MAX_SIZE
    case neg =>
      rw [if_neg hshort, if_neg fun h => hshort (h label List.mem_cons_self)]
    have hfits : ¬front.length + 1 + label.length >
        (front ++ encodeLabels (label :: labels) ++ back).length := by
      simp [encodeLabels]
      omega
    rw [if_pos hshort, if_neg hfits, hlabel, hnext, hmsg,
      ih (fun x hx => hv x (List.mem_cons_of_mem _ hx))]
    by_cases hall : ∀ l ∈ labels, l.length < DNS_LABEL_MAX_SIZE
    case neg =>
      have hall' : ¬∀ l ∈ label :: labels, l.length < DNS_LABEL_MAX_SIZE := fun h =>
        hall fun x hx => h x (List.mem_cons_of_mem _ hx)
      rw [if_neg hall, if_neg hall']
    have hall' : ∀ l ∈ label :: labels, l.length < DNS_LABEL_MAX_SIZE := by
      intro x hx
      rcases List.mem_cons.mp hx with rfl | hx
      · exact hshort
      · exact hall x hx
    rw [if_pos hall, if_pos hall']
    cases labels with
    | nil =>
      simp [encodeLabels, joinLabels]
      omega
    | cons l labels =>
      have hl' := hv l (by simp)
      have hnz : UInt8.ofNat l.length ≠ 0 := by
        intro h
        have := toNat_ofNat_label hl'.le
        rw [h] at this
        have := hl'.pos
        have : (0 : UInt8).toNat = 0 := rfl
        omega
      simp [encodeLabels, joinLabels, hnz]
      omega

/-- The three parts of the round trip: encoding and decoding at any place, decoding a compressed
encoding, and encoding what was decoded. -/
theorem name_round_trip (labels : List (List UInt8)) (hv : ∀ l ∈ labels, ValidLabel l) :
    (labels ≠ [] → ∃ dest, dnsEncodeName (joinLabels labels) = some dest ∧
      ∀ front back, dnsParseName (front ++ dest ++ back) front.length 0 =
          some (front.length + dest.length, joinLabels labels) ↔
        ∀ l ∈ labels, l.length ≠ DNS_LABEL_MAX_SIZE) ∧
    (∀ src pos level dot, walk src pos level = (labels, .root dot) →
      ((dnsParseName src pos level).map Prod.snd = some (joinLabels labels) ↔
        (∀ l ∈ labels, l.length ≠ DNS_LABEL_MAX_SIZE) ∧ (labels ≠ [] → dot = false))) ∧
    (∀ front back next text, dnsParseName (front ++ encodeLabels labels ++ back) front.length 0 =
        some (next, text) →
      (dnsEncodeName text = some (encodeLabels labels) ↔ labels ≠ [])) := by
  have hshort : (∀ l ∈ labels, l.length < DNS_LABEL_MAX_SIZE) ↔
      ∀ l ∈ labels, l.length ≠ DNS_LABEL_MAX_SIZE := by
    constructor
    · intro h l hl
      have := h l hl
      omega
    · intro h l hl
      have := h l hl
      have := (hv l hl).le
      omega
  refine ⟨fun hne => ⟨encodeLabels labels, dnsEncodeName_join hne hv, fun front back => ?_⟩,
    fun src pos level dot hw => ?_, fun front back next text h => ?_⟩
  · rw [dnsParseName_encodeLabels hv (by decide), ← hshort]
    split
    · rename_i hs; exact iff_of_true rfl hs
    · rename_i hs; exact iff_of_false (by simp) hs
  · rw [dnsParseName_walk, hw, decoded, ← hshort]
    split
    · rename_i hs
      rw [Option.some.injEq, labelText]
      by_cases hdot : dot = true ∧ labels ≠ []
      · refine iff_of_false (by simp [hdot]) fun h => ?_
        have := h.2 hdot.2
        rw [hdot.1] at this; cases this
      · refine iff_of_true (by simp [hdot]) ⟨hs, fun hne => ?_⟩
        simpa [hne] using hdot
    · rename_i hs
      simp only [reduceCtorEq, false_iff]
      exact fun h => hs h.1
  · rw [dnsParseName_encodeLabels hv (by decide)] at h
    split at h
    · cases h
      by_cases hne : labels = []
      · simp [hne, joinLabels, dnsEncodeName_nil]
      · simp [hne, dnsEncodeName_join hne hv]
    · cases h

/-- A name of one label. -/
theorem name_round_trip_one : (dnsParseName [1, 97, 0] 0 0).map Prod.snd = some [97] := by
  refine ((name_round_trip [[97]] ?_).2.1 [1, 97, 0] 0 0 false ?_).mpr ?_
  · intro l hl
    obtain rfl : l = [97] := by simpa using hl
    exact ⟨by decide, by decide, by decide, by decide⟩
  · rw [walk_some (b := 1) (by decide) rfl, walk_some (b := 0) (by decide) rfl]
    rfl
  · exact ⟨by decide, fun _ => rfl⟩

/-- A label of the largest size is encoded, and not decoded. -/
theorem name_no_round_trip :
    dnsEncodeName (List.replicate 63 97) = some (63 :: List.replicate 63 97 ++ [0]) ∧
      dnsParseName (63 :: List.replicate 63 97 ++ [0]) 0 0 = none := by
  have hv : ∀ l ∈ [List.replicate 63 97], ValidLabel l := by
    intro l hl
    obtain rfl : l = List.replicate 63 97 := by simpa using hl
    exact ⟨by simp, by simp [DNS_LABEL_MAX_SIZE], by simp [DOT], by simp⟩
  have henc := dnsEncodeName_join (by simp) hv
  have hparse := dnsParseName_encodeLabels hv (show ¬0 ≥ DNS_NAME_MAX_RECURSION by decide) [] []
  rw [if_neg (by simp [DNS_LABEL_MAX_SIZE])] at hparse
  have hlen : UInt8.ofNat (List.replicate 63 (97 : UInt8)).length = 63 := by
    rw [List.length_replicate]; rfl
  rw [encodeLabels, encodeLabels, hlen] at henc hparse
  exact ⟨henc, by simpa using hparse⟩

end Cyclone
