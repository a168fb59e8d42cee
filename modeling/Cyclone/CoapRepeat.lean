import Mathlib.Data.List.DropRight
import Cyclone.CoapGrammar

/-!
# Cyclone.CoapRepeat

`coapSplitRepeatableOption` and `coapJoinRepeatableOption` (`coap_option.c`): a path or a query as
one option for each segment.

* `coapSplit_segments`: the options that a string becomes.
* `coapJoin_walk`: the loop of the second function on the values that `coapGetOption` returns.
* `split_join_iff`: the two are inverse, and what the second one makes of a buffer that is too
  small.
-/

namespace Cyclone

def AMPERSAND : UInt8 := 38

/-! ## The loops -/

/-- One turn of the loop that splits: the error, the start of the segment, the index of the next
option, and the message. -/
def splitTurn (optionNum : BitVec 16) (optionValue : List UInt8) (separator : UInt8)
    (i j index : Nat) (message : CoapMessage) : CoapError × Nat × Nat × CoapMessage :=
  if optionValue.getD i 0 = separator ∨ optionValue.getD i 0 = 0 then
    if i - j > 0 then
      let (error, message) :=
        coapSetOption message optionNum index ((optionValue.drop j).take (i - j))
      if error ≠ .NO_ERROR then (error, j, index + 1, message)
      else (.NO_ERROR, i + 1, index + 1, message)
    else (.NO_ERROR, i + 1, index, message)
  else (.NO_ERROR, j, index, message)

/-- The first argument bounds the turns: `none` when they do not suffice. -/
def splitLoop (optionNum : BitVec 16) (optionValue : List UInt8) (separator : UInt8) :
    Nat → Nat → Nat → Nat → CoapMessage → Option (CoapError × CoapMessage)
  | 0, _, _, _, _ => none
  | fuel + 1, i, j, index, message =>
    let (error, j, index, message) :=
      splitTurn optionNum optionValue separator i j index message
    if error ≠ .NO_ERROR then some (error, message)
    else if optionValue.getD i 0 ≠ 0 then
      splitLoop optionNum optionValue separator fuel (i + 1) j index message
    else some (.NO_ERROR, message)

/-- The string is `optionValue`, and a NULL character behind it. -/
def coapSplitRepeatableOption (message : CoapMessage) (optionNum : BitVec 16)
    (optionValue : List UInt8) (separator : UInt8) : Option (CoapError × CoapMessage) :=
  splitLoop optionNum optionValue separator (optionValue.length + 1) 0 0 0 message

/-- The separator is left out where the buffer is full. -/
def joinSeparator (maxLen : Nat) (separator : UInt8) (written : List UInt8) : List UInt8 :=
  if (separator ≠ AMPERSAND ∨ written.length ≠ 0) ∧ written.length < maxLen then
    written ++ [separator]
  else written

/-- The characters written behind one more option, and whether its value did fit. -/
def joinTurn (maxLen : Nat) (separator : UInt8) (written value : List UInt8) :
    List UInt8 × Bool :=
  let written := joinSeparator maxLen separator written
  if written.length + value.length ≤ maxLen then (written ++ value, true) else (written, false)

def joinLoop (message : CoapMessage) (optionNum : BitVec 16) (maxLen : Nat) (separator : UInt8) :
    Nat → Nat → List UInt8 → Option (CoapError × List UInt8)
  | 0, _, _ => none
  | fuel + 1, index, written =>
    match coapGetOption message optionNum index with
    | .error e => some (e, written)
    | .ok (value, n) =>
      match joinTurn maxLen separator written (value.read message.buffer n) with
      | (written, true) => joinLoop message optionNum maxLen separator fuel (index + 1) written
      | (written, false) => some (.BUFFER_OVERFLOW, written)

/-- The error and the characters written. The NULL character goes behind them. -/
def coapJoinRepeatableOption (message : CoapMessage) (optionNum : BitVec 16) (maxLen : Nat)
    (separator : UInt8) : Option (CoapError × List UInt8) := do
  let (error, written) ←
    joinLoop message optionNum maxLen separator (message.length + 1) 0 []
  if error = .NOT_FOUND then pure (.NO_ERROR, written) else pure (error, written)

/-! ## Splitting -/

/-- The segments of a string, without the empty ones. -/
def segments (separator : UInt8) (s : List UInt8) : List (List UInt8) :=
  (s.splitOn separator).filter (· ≠ [])

/-- The segments of the rest of a string, where `front` of the first one is already read. -/
def segmentsFrom (separator : UInt8) (front rest : List UInt8) : List (List UInt8) :=
  ((rest.splitOn separator).modifyHead (front ++ ·)).filter (· ≠ [])

theorem segmentsFrom_nil (separator : UInt8) (rest : List UInt8) :
    segmentsFrom separator [] rest = segments separator rest := by
  unfold segmentsFrom segments
  congr 1
  cases rest.splitOn separator <;> rfl

theorem segmentsFrom_end (separator : UInt8) (front : List UInt8) :
    segmentsFrom separator front [] = if front = [] then [] else [front] := by
  unfold segmentsFrom
  rw [List.splitOn_nil]
  by_cases h : front = [] <;> simp [h]

theorem segmentsFrom_separator (separator : UInt8) (front rest : List UInt8) :
    segmentsFrom separator front (separator :: rest) =
      (if front = [] then [] else [front]) ++ segments separator rest := by
  unfold segmentsFrom segments
  rw [List.splitOn, List.splitOnP_cons_eq_if_modifyHead]
  by_cases h : front = [] <;> simp [h, List.splitOn]

theorem segmentsFrom_char {separator c : UInt8} (front rest : List UInt8) (hc : c ≠ separator) :
    segmentsFrom separator front (c :: rest) = segmentsFrom separator (front ++ [c]) rest := by
  unfold segmentsFrom
  rw [List.splitOn, List.splitOnP_cons_eq_if_modifyHead, if_neg (by simpa using hc),
    List.modifyHead_modifyHead]
  congr 2
  funext segment
  simp

theorem SetTo.append {num : Nat} {value : List UInt8} {opts opts' : List OptionPair}
    (h : SetTo num (occurrences num opts).length value opts opts') :
    occurrences num opts' = occurrences num opts ++ [value] := by
  generalize hidx : (occurrences num opts).length = idx at h
  cases h with
  | @replace before after w hocc =>
    rw [occurrences_append, occurrences_cons_self, List.length_append, List.length_cons] at hidx
    omega
  | @insert before after hocc hb ha =>
    rw [occurrences_append, occurrences_append, occurrences_cons_self, occurrences_eq_nil ha,
      List.append_nil]

section Split

variable {optionNum : BitVec 16} {optionValue header tail : List UInt8} {separator : UInt8}

/-- A segment ends: it becomes an option unless it is empty. -/
theorem splitTurn_close {i j index j' index' : Nat} {message message' : CoapMessage}
    {opts : List OptionPair} (h : WellFormed message header opts tail)
    (hidx : (occurrences optionNum.toNat opts).length = index) (hi : i ≤ optionValue.length)
    (hj : j ≤ i) (hc : optionValue.getD i 0 = separator ∨ optionValue.getD i 0 = 0)
    (hturn : splitTurn optionNum optionValue separator i j index message =
      (.NO_ERROR, j', index', message')) :
    j' = i + 1 ∧ ∃ opts', WellFormed message' header opts' tail ∧
      (occurrences optionNum.toNat opts').length = index' ∧
      occurrences optionNum.toNat opts' = occurrences optionNum.toNat opts ++
        if (optionValue.drop j).take (i - j) = [] then []
        else [(optionValue.drop j).take (i - j)] := by
  have hlen : ((optionValue.drop j).take (i - j)).length = i - j := by
    simp only [List.length_take, List.length_drop]
    omega
  unfold splitTurn at hturn
  rw [if_pos hc] at hturn
  by_cases hseg : i - j > 0
  · have hne : (optionValue.drop j).take (i - j) ≠ [] := by
      intro hnil
      rw [hnil, List.length_nil] at hlen
      omega
    rw [if_pos hseg] at hturn
    generalize hset : coapSetOption message optionNum index
      ((optionValue.drop j).take (i - j)) = result at hturn
    obtain ⟨error, message''⟩ := result
    dsimp only at hturn
    split_ifs at hturn with herror
    · cases hturn
      exact absurd rfl herror
    · cases hturn
      rw [not_not.mp herror] at hset
      obtain ⟨opts', hto, hw⟩ := coapSetOption_to h hset
      rw [← hidx] at hto
      have hocc := hto.append
      exact ⟨rfl, opts', hw, by rw [hocc, List.length_append, hidx]; rfl,
        by rw [hocc, if_neg hne]⟩
  · rw [if_neg hseg] at hturn
    cases hturn
    have hnil : (optionValue.drop j).take (i - j) = [] :=
      List.eq_nil_of_length_eq_zero (by omega)
    exact ⟨rfl, opts, h, hidx, by rw [hnil, if_pos rfl, List.append_nil]⟩

theorem splitLoop_segments {fuel i j index : Nat} {message message' : CoapMessage}
    {opts : List OptionPair} (h0 : 0 ∉ optionValue) (h : WellFormed message header opts tail)
    (hidx : (occurrences optionNum.toNat opts).length = index) (hi : i ≤ optionValue.length)
    (hj : j ≤ i)
    (hloop : splitLoop optionNum optionValue separator fuel i j index message =
      some (.NO_ERROR, message')) :
    ∃ opts', WellFormed message' header opts' tail ∧
      occurrences optionNum.toNat opts' = occurrences optionNum.toNat opts ++
        segmentsFrom separator ((optionValue.drop j).take (i - j)) (optionValue.drop i) := by
  induction fuel generalizing i j index message opts with
  | zero => cases hloop
  | succ fuel ih =>
    unfold splitLoop at hloop
    generalize hturn : splitTurn optionNum optionValue separator i j index message = result
      at hloop
    obtain ⟨error, j', index', message''⟩ := result
    dsimp only at hloop
    split_ifs at hloop with herror hgo
    · cases hloop
      exact absurd rfl herror
    · -- A character of the string: a separator, or one more of the segment.
      rw [not_not.mp herror] at hturn
      have hlt : i < optionValue.length := by
        by_contra hge
        exact hgo (List.getD_eq_default _ _ (by omega))
      have hget : optionValue.getD i 0 = optionValue[i] := List.getD_eq_getElem _ _ hlt
      rw [List.drop_eq_getElem_cons hlt]
      by_cases hc : optionValue[i] = separator
      · obtain ⟨rfl, opts', hw, hlen, hocc⟩ :=
          splitTurn_close h hidx hi hj (.inl (hget.trans hc)) hturn
        obtain ⟨opts'', hw', hocc'⟩ := ih hw hlen hlt le_rfl hloop
        rw [Nat.sub_self, List.take_zero, segmentsFrom_nil] at hocc'
        refine ⟨opts'', hw', ?_⟩
        rw [hocc', hocc, hc, segmentsFrom_separator, List.append_assoc]
      · have hkeep : splitTurn optionNum optionValue separator i j index message =
            (.NO_ERROR, j, index, message) := by
          unfold splitTurn
          rw [if_neg (by rw [hget]; exact not_or.mpr ⟨hc, hget ▸ hgo⟩)]
        rw [hkeep] at hturn
        cases hturn
        obtain ⟨opts', hw, hocc⟩ := ih h hidx hlt (by omega) hloop
        refine ⟨opts', hw, ?_⟩
        rw [hocc, segmentsFrom_char _ _ hc]
        have hfront : (optionValue.drop j).take (i + 1 - j) =
            (optionValue.drop j).take (i - j) ++ [optionValue[i]] := by
          rw [show i + 1 - j = i - j + 1 by omega, List.take_add_one, List.getElem?_drop,
            show j + (i - j) = i by omega, List.getElem?_eq_getElem hlt]
          rfl
        rw [hfront]
    · -- The NULL character: the last segment ends.
      rw [not_not.mp herror] at hturn
      cases hloop
      have hzero := not_not.mp hgo
      have hend : i = optionValue.length := by
        by_contra hne
        rw [List.getD_eq_getElem _ _ (by omega : i < optionValue.length)] at hzero
        exact h0 (hzero ▸ List.getElem_mem _)
      obtain ⟨-, opts', hw, -, hocc⟩ := splitTurn_close h hidx hi hj (.inr hzero) hturn
      refine ⟨opts', hw, ?_⟩
      rw [hocc, hend, List.drop_length, segmentsFrom_end]

/-- The non-empty segments become the options of the number. -/
theorem coapSplit_segments {message message' : CoapMessage} {opts : List OptionPair}
    (h0 : 0 ∉ optionValue) (h : WellFormed message header opts tail)
    (hocc : occurrences optionNum.toNat opts = [])
    (hsplit : coapSplitRepeatableOption message optionNum optionValue separator =
      some (.NO_ERROR, message')) :
    ∃ opts', WellFormed message' header opts' tail ∧
      occurrences optionNum.toNat opts' = segments separator optionValue := by
  obtain ⟨opts', hw, hocc'⟩ :=
    splitLoop_segments h0 h (by rw [hocc]; rfl) (Nat.zero_le _) le_rfl hsplit
  rw [hocc, List.nil_append, Nat.sub_self, List.take_zero, segmentsFrom_nil] at hocc'
  exact ⟨opts', hw, hocc'⟩

/-- The loop ends at the NULL character. -/
theorem splitLoop_isSome {fuel i j index : Nat} {message : CoapMessage}
    (hf : optionValue.length - i < fuel) :
    (splitLoop optionNum optionValue separator fuel i j index message).isSome := by
  induction fuel generalizing i j index message with
  | zero => omega
  | succ fuel ih =>
    unfold splitLoop
    dsimp only
    split_ifs with herror hgo
    · rfl
    · have hlt : i < optionValue.length := by
        by_contra hge
        exact hgo (List.getD_eq_default _ _ (by omega))
      exact ih (by omega)
    · rfl

theorem coapSplit_isSome (message : CoapMessage) :
    (coapSplitRepeatableOption message optionNum optionValue separator).isSome :=
  splitLoop_isSome (by omega)

end Split

/-! ## What is joined -/

/-- The values that `coapGetOption` returns for the indices from 0 on, and the error behind
them. -/
def Answers (message : CoapMessage) (optionNum : BitVec 16) (values : List (List UInt8))
    (e : CoapError) : Prop :=
  ∀ i, match values[i]? with
    | some w => ∃ value, coapGetOption message optionNum i = .ok (value, w.length) ∧
        value.read message.buffer w.length = w
    | none => coapGetOption message optionNum i = .error e

theorem Answers.some {message : CoapMessage} {optionNum : BitVec 16} {values : List (List UInt8)}
    {e : CoapError} {i : Nat} {w : List UInt8} (h : Answers message optionNum values e)
    (hi : values[i]? = some w) :
    ∃ value, coapGetOption message optionNum i = .ok (value, w.length) ∧
      value.read message.buffer w.length = w := by
  have hat := h i
  rw [hi] at hat
  exact hat

theorem Answers.none {message : CoapMessage} {optionNum : BitVec 16} {values : List (List UInt8)}
    {e : CoapError} {i : Nat} (h : Answers message optionNum values e) (hi : values[i]? = none) :
    coapGetOption message optionNum i = .error e := by
  have hat := h i
  rw [hi] at hat
  exact hat

theorem Answers.unique {message : CoapMessage} {optionNum : BitVec 16}
    {values values' : List (List UInt8)} {e e' : CoapError}
    (h : Answers message optionNum values e) (h' : Answers message optionNum values' e') :
    values = values' ∧ e = e' := by
  have hvalues : values = values' := by
    apply List.ext_getElem?
    intro i
    cases hi : values[i]? with
    | none =>
      have hget := h.none hi
      cases hi' : values'[i]? with
      | none => rfl
      | some w' =>
        obtain ⟨value, hget', -⟩ := h'.some hi'
        rw [hget] at hget'
        cases hget'
    | some w =>
      obtain ⟨value, hget, hread⟩ := h.some hi
      cases hi' : values'[i]? with
      | none =>
        rw [h'.none hi'] at hget
        cases hget
      | some w' =>
        obtain ⟨value', hget', hread'⟩ := h'.some hi'
        rw [hget, Except.ok.injEq, Prod.mk.injEq] at hget'
        obtain ⟨rfl, hlen⟩ := hget'
        rw [hlen] at hread
        rw [← hread, hread']
  subst hvalues
  have hend := List.getElem?_eq_none (le_refl values.length)
  have he := h.none hend
  rw [h'.none hend, Except.error.injEq] at he
  exact ⟨rfl, he.symm⟩

/-- The search finds one value for each index, up to an error that does not depend on the
index. -/
theorem getLoop_answers (buffer : List UInt8) (num : Nat) (fuel p length number : Nat) :
    ∃ (values : List (List UInt8)) (e : CoapError), values.length ≤ fuel ∧
      e ≠ .BUFFER_OVERFLOW ∧ ∀ idx index, index ≤ idx →
      match values[idx - index]? with
      | some w => ∃ value,
          getLoop buffer num idx fuel p length number index = .ok (value, w.length) ∧
          value.read buffer w.length = w
      | none => getLoop buffer num idx fuel p length number index = .error e := by
  induction fuel generalizing p length number with
  | zero =>
    refine ⟨[], .NOT_FOUND, le_rfl, by simp, fun idx index _ => ?_⟩
    rw [List.getElem?_nil]
    rfl
  | succ fuel ih =>
    by_cases hend : length = 0 ∨ buffer[p]? = some COAP_PAYLOAD_MARKER
    · refine ⟨[], .NOT_FOUND, Nat.zero_le _, by simp, fun idx index _ => ?_⟩
      exact if_pos hend
    rcases @coapParseOption_cut buffer p length number with ⟨e, hp, -⟩ |
      ⟨option, delta, value, bytes, rest, hp, -, -, hc⟩
    · refine ⟨[], e, Nat.zero_le _, ?_, fun idx index _ => ?_⟩
      · rcases coapParseOption_error hp with rfl | rfl <;> simp
      · change getLoop buffer num idx (fuel + 1) p length number index = .error e
        rw [getLoop, if_neg hend, hp]
        rfl
    obtain ⟨values, e, hlen, he, hall⟩ :=
      ih (p + bytes.length) (length - bytes.length) option.number
    have hlength : option.length = value.length := congrArg (fun c => c.2.1) hc
    have hread : option.value.read buffer option.length = value := congrArg (fun c => c.2.2) hc
    by_cases hnum : option.number = num
    · refine ⟨value :: values, e, Nat.succ_le_succ hlen, he, fun idx index hle => ?_⟩
      rw [getLoop, if_neg hend, hp]
      simp only [bind, Except.bind, if_pos hnum]
      by_cases hidx : index = idx
      · rw [hidx, Nat.sub_self, if_pos rfl]
        exact ⟨option.value, by rw [hlength], by rw [← hlength]; exact hread⟩
      · rw [show idx - index = idx - (index + 1) + 1 by omega, List.getElem?_cons_succ, if_neg hidx]
        exact hall idx (index + 1) (by omega)
    · refine ⟨values, e, by omega, he, fun idx index hle => ?_⟩
      rw [getLoop, if_neg hend, hp]
      simp only [bind, Except.bind, if_neg hnum]
      exact hall idx index hle

theorem answers_exist (message : CoapMessage) (optionNum : BitVec 16) :
    ∃ values e, Answers message optionNum values e ∧ values.length ≤ message.length ∧
      e ≠ .BUFFER_OVERFLOW := by
  cases hp : coapParseMessageHeader message.bytes with
  | error e =>
    refine ⟨[], e, fun i => ?_, Nat.zero_le _, ?_⟩
    · change coapGetOption message optionNum i = .error e
      rw [coapGetOption, hp]
      rfl
    · rintro rfl
      unfold coapParseMessageHeader at hp
      split_ifs at hp <;> cases hp
  | ok n =>
    obtain ⟨values, e, hlen, he, hall⟩ :=
      getLoop_answers message.buffer optionNum.toNat message.length n (message.length - n) 0
    refine ⟨values, e, fun i => ?_, hlen, he⟩
    have hget : ∀ i, coapGetOption message optionNum i =
        getLoop message.buffer optionNum.toNat i message.length n (message.length - n) 0 0 := by
      intro i
      rw [coapGetOption, hp]
      rfl
    rw [hget]
    exact hall i 0 (Nat.zero_le i)

theorem WellFormed.answers {message : CoapMessage} {header tail : List UInt8}
    {opts : List OptionPair} (h : WellFormed message header opts tail) (optionNum : BitVec 16) :
    Answers message optionNum (occurrences optionNum.toNat opts) .NOT_FOUND := by
  intro i
  obtain ⟨hnone, hsome⟩ := coapGetOption_eq optionNum i h
  cases hi : (occurrences optionNum.toNat opts)[i]? with
  | none => exact hnone hi
  | some w => exact hsome w hi

/-! ## Joining -/

/-- The loop on the values. -/
def joinWalk (maxLen : Nat) (separator : UInt8) (e : CoapError) :
    List (List UInt8) → List UInt8 → CoapError × List UInt8
  | [], written => (e, written)
  | w :: ws, written =>
    match joinTurn maxLen separator written w with
    | (written, true) => joinWalk maxLen separator e ws written
    | (written, false) => (.BUFFER_OVERFLOW, written)

theorem joinLoop_walk {message : CoapMessage} {optionNum : BitVec 16} {maxLen : Nat}
    {separator : UInt8} {values : List (List UInt8)} {e : CoapError}
    (h : Answers message optionNum values e) {fuel index : Nat} (written : List UInt8)
    (hf : values.length - index < fuel) :
    joinLoop message optionNum maxLen separator fuel index written =
      some (joinWalk maxLen separator e (values.drop index) written) := by
  induction fuel generalizing index written with
  | zero => omega
  | succ fuel ih =>
    unfold joinLoop
    cases hi : values[index]? with
    | none =>
      rw [h.none hi, List.drop_eq_nil_of_le (List.getElem?_eq_none_iff.mp hi)]
      rfl
    | some w =>
      obtain ⟨hlt, rfl⟩ := List.getElem?_eq_some_iff.mp hi
      obtain ⟨value, hget, hread⟩ := h.some hi
      rw [hget, List.drop_eq_getElem_cons hlt, joinWalk]
      dsimp only
      rw [hread]
      rcases hturn : joinTurn maxLen separator written values[index] with ⟨written', _ | _⟩
      · rfl
      · exact ih written' (by omega)

section Join

variable {maxLen : Nat} {separator : UInt8}

/-- A segment behind what is written, in a buffer without bound. -/
def addSegment (separator : UInt8) (written w : List UInt8) : List UInt8 :=
  if separator ≠ AMPERSAND ∨ written.length ≠ 0 then written ++ separator :: w else written ++ w

def addSegments (separator : UInt8) (ws : List (List UInt8)) (written : List UInt8) :
    List UInt8 :=
  ws.foldl (addSegment separator) written

theorem length_addSegment_le (written w : List UInt8) :
    written.length + w.length ≤ (addSegment separator written w).length := by
  unfold addSegment
  split_ifs
  · rw [List.length_append, List.length_cons]
    omega
  · rw [List.length_append]

theorem length_addSegments_le (ws : List (List UInt8)) (written : List UInt8) :
    written.length ≤ (addSegments separator ws written).length := by
  induction ws generalizing written with
  | nil => exact le_rfl
  | cons w ws ih =>
    have hone := @length_addSegment_le separator written w
    have hmore := ih (addSegment separator written w)
    change _ ≤ (addSegments separator ws (addSegment separator written w)).length
    omega

theorem length_addSegments_lt {ws : List (List UInt8)} {w : List UInt8} (written : List UInt8)
    (hw : w ∈ ws) (hne : w ≠ []) : written.length < (addSegments separator ws written).length := by
  induction ws generalizing written with
  | nil => cases hw
  | cons v ws ih =>
    change _ < (addSegments separator ws (addSegment separator written v)).length
    have hone := @length_addSegment_le separator written v
    rcases List.mem_cons.mp hw with rfl | hw
    · have hmore := @length_addSegments_le separator ws (addSegment separator written w)
      have hpos := List.length_pos_iff.mpr hne
      omega
    · have hmore := ih (addSegment separator written v) hw
      omega

/-- Where the separator counts, it is written as long as there is room. -/
theorem joinSeparator_eq (written : List UInt8) :
    (∀ w, (addSegment separator written w).length ≤ maxLen →
      joinSeparator maxLen separator written ++ w = addSegment separator written w) ∧
    ∀ w, maxLen < (addSegment separator written w).length → written.length ≤ maxLen →
      (joinSeparator maxLen separator written).length ≤ maxLen ∧
      (w = [] → joinSeparator maxLen separator written = written) ∧
      (w ≠ [] → maxLen < (joinSeparator maxLen separator written).length + w.length) := by
  unfold addSegment joinSeparator
  by_cases hsep : separator ≠ AMPERSAND ∨ written.length ≠ 0
  · simp only [if_pos hsep, List.length_append, List.length_cons]
    constructor
    · intro w h
      rw [if_pos ⟨hsep, by omega⟩, List.append_assoc]
      rfl
    · intro w h hw
      by_cases hroom : written.length < maxLen
      · rw [if_pos ⟨hsep, hroom⟩, List.length_append, List.length_singleton]
        refine ⟨hroom, ?_, fun _ => by omega⟩
        rintro rfl
        rw [List.length_nil] at h
        omega
      · rw [if_neg (fun hc => hroom hc.2)]
        refine ⟨hw, fun _ => rfl, fun hne => ?_⟩
        have hpos := List.length_pos_iff.mpr hne
        omega
  · simp only [if_neg hsep, List.length_append]
    rw [if_neg (fun hc => hsep hc.1)]
    exact ⟨fun w _ => rfl, fun w h hw => ⟨hw, fun _ => rfl, fun _ => h⟩⟩

theorem joinTurn_fits {written w : List UInt8}
    (h : (addSegment separator written w).length ≤ maxLen) :
    joinTurn maxLen separator written w = (addSegment separator written w, true) := by
  have heq := (@joinSeparator_eq maxLen separator written).1 w h
  unfold joinTurn
  dsimp only
  rw [← heq, List.length_append] at h
  rw [if_pos h, heq]

/-- Where a segment does not fit, an empty one is passed over without its separator. -/
theorem joinTurn_full {written w : List UInt8} (hw : written.length ≤ maxLen)
    (h : maxLen < (addSegment separator written w).length) :
    (w = [] → joinTurn maxLen separator written w = (written, true)) ∧
    (w ≠ [] → (joinTurn maxLen separator written w).2 = false) := by
  obtain ⟨-, hempty, hsome⟩ := (@joinSeparator_eq maxLen separator written).2 w h hw
  unfold joinTurn
  dsimp only
  constructor
  · intro hnil
    rw [hempty hnil, hnil, List.length_nil, Nat.add_zero, List.append_nil, if_pos hw]
  · intro hne
    have hlt := hsome hne
    rw [if_neg (by omega)]

theorem length_joinTurn {written : List UInt8} (w : List UInt8) (hw : written.length ≤ maxLen) :
    (joinTurn maxLen separator written w).1.length ≤ maxLen := by
  have hsep : (joinSeparator maxLen separator written).length ≤ maxLen := by
    unfold joinSeparator
    split_ifs with h
    · rw [List.length_append, List.length_singleton]
      exact h.2
    · exact hw
  unfold joinTurn
  dsimp only
  split_ifs with h
  · rw [List.length_append]
    exact h
  · exact hsep

theorem length_joinWalk {e : CoapError} {ws : List (List UInt8)} {written : List UInt8}
    (hw : written.length ≤ maxLen) :
    (joinWalk maxLen separator e ws written).2.length ≤ maxLen := by
  induction ws generalizing written with
  | nil => exact hw
  | cons w ws ih =>
    have hlen := @length_joinTurn maxLen separator written w hw
    unfold joinWalk
    rcases hturn : joinTurn maxLen separator written w with ⟨written', _ | _⟩
    · rw [hturn] at hlen
      exact hlen
    · rw [hturn] at hlen
      exact ih hlen

theorem joinWalk_fits {e : CoapError} {ws : List (List UInt8)} {written : List UInt8}
    (h : (addSegments separator ws written).length ≤ maxLen) :
    joinWalk maxLen separator e ws written = (e, addSegments separator ws written) := by
  induction ws generalizing written with
  | nil => rfl
  | cons w ws ih =>
    change (addSegments separator ws (addSegment separator written w)).length ≤ maxLen at h
    have hle := @length_addSegments_le separator ws (addSegment separator written w)
    unfold joinWalk
    rw [joinTurn_fits (by omega)]
    exact ih h

/-- The segments up to the last one that is not empty. -/
def upToLast (ws : List (List UInt8)) : List (List UInt8) := ws.rdropWhile List.isEmpty

theorem upToLast_cons (w : List UInt8) (ws : List (List UInt8)) :
    upToLast (w :: ws) = if upToLast ws = [] ∧ w = [] then [] else w :: upToLast ws := by
  unfold upToLast List.rdropWhile
  rw [List.reverse_cons, List.dropWhile_append]
  cases hd : ws.reverse.dropWhile List.isEmpty with
  | nil => cases w <;> simp
  | cons v vs => simp

/-- An overflow is reported when the segments up to the last one that is not empty do not fit. -/
theorem joinWalk_overflow {e : CoapError} (he : e ≠ .BUFFER_OVERFLOW) {ws : List (List UInt8)}
    {written : List UInt8} (hw : written.length ≤ maxLen) :
    (joinWalk maxLen separator e ws written).1 = .BUFFER_OVERFLOW ↔
      maxLen < (addSegments separator (upToLast ws) written).length := by
  induction ws generalizing written with
  | nil =>
    change e = .BUFFER_OVERFLOW ↔ maxLen < written.length
    exact ⟨fun h => absurd h he, fun h => absurd h (by omega)⟩
  | cons w ws ih =>
    rw [upToLast_cons]
    unfold joinWalk
    by_cases hfit : (addSegment separator written w).length ≤ maxLen
    · rw [joinTurn_fits hfit]
      dsimp only
      rw [ih hfit]
      by_cases hlast : upToLast ws = [] ∧ w = []
      · rw [if_pos hlast, hlast.1]
        change maxLen < (addSegment separator written w).length ↔ maxLen < written.length
        omega
      · rw [if_neg hlast]
        rfl
    · have hgt : maxLen < (addSegment separator written w).length := by omega
      obtain ⟨hempty, hsome⟩ := joinTurn_full hw hgt
      by_cases hnil : w = []
      · rw [hempty hnil]
        dsimp only
        rw [ih hw]
        by_cases hlast : upToLast ws = []
        · rw [if_pos ⟨hlast, hnil⟩, hlast]
        · -- A later segment is not empty, and there is no room for it with or without separator.
          rw [if_neg (fun hc => hlast hc.1)]
          have hne : (upToLast ws).getLast hlast ≠ [] := by
            have hlastNot := List.rdropWhile_last_not List.isEmpty ws hlast
            rw [List.isEmpty_iff] at hlastNot
            exact hlastNot
          have hlt := @length_addSegments_lt separator (upToLast ws) _ written
            (List.getLast_mem hlast) hne
          have hone := @length_addSegments_le separator (upToLast ws)
            (addSegment separator written w)
          have hlen : (addSegment separator written w).length ≤ written.length + 1 := by
            rw [hnil]
            unfold addSegment
            split_ifs <;> simp
          constructor
          · intro _
            change maxLen < (addSegments separator (upToLast ws)
              (addSegment separator written w)).length
            omega
          · intro _
            omega
      · have hfalse := hsome hnil
        rcases hturn : joinTurn maxLen separator written w with ⟨written', _ | _⟩
        · refine ⟨fun _ => ?_, fun _ => rfl⟩
          rw [if_neg (fun hc => hnil hc.2)]
          have hmore := @length_addSegments_le separator (upToLast ws)
            (addSegment separator written w)
          change maxLen < (addSegments separator (upToLast ws)
            (addSegment separator written w)).length
          omega
        · rw [hturn] at hfalse
          cases hfalse

/-! ## The joined string -/

/-- Each segment behind a separator; at the front no ampersand. -/
def joined (separator : UInt8) : List (List UInt8) → List UInt8
  | [] => []
  | w :: ws =>
    (if separator = AMPERSAND then w else separator :: w) ++ (ws.map (separator :: ·)).flatten

/-- The segments that get a separator in a buffer without bound: behind the ampersand not the
empty ones at the front. -/
def separated (separator : UInt8) (ws : List (List UInt8)) : List (List UInt8) :=
  if separator = AMPERSAND then ws.dropWhile List.isEmpty else ws

theorem addSegments_separator {ws : List (List UInt8)} {written : List UInt8}
    (h : separator ≠ AMPERSAND ∨ written.length ≠ 0) :
    addSegments separator ws written = written ++ (ws.map (separator :: ·)).flatten := by
  induction ws generalizing written with
  | nil => simp [addSegments]
  | cons w ws ih =>
    change addSegments separator ws (addSegment separator written w) = _
    rw [addSegment, if_pos h, ih (.inr (by simp))]
    simp

theorem addSegments_joined (ws : List (List UInt8)) :
    addSegments separator ws [] = joined separator (separated separator ws) := by
  unfold separated
  by_cases hsep : separator = AMPERSAND
  · rw [if_pos hsep]
    induction ws with
    | nil => rfl
    | cons w ws ih =>
      change addSegments separator ws (addSegment separator [] w) = _
      rw [addSegment, if_neg (by simp [hsep]), List.nil_append]
      cases w with
      | nil => exact ih
      | cons b w =>
        have hpos : (b :: w).length ≠ 0 := Nat.succ_ne_zero _
        rw [addSegments_separator (.inr hpos)]
        simp [joined, hsep]
  · rw [if_neg hsep, addSegments_separator (.inl hsep), List.nil_append]
    cases ws with
    | nil => rfl
    | cons w ws => simp [joined, hsep]

theorem segments_ne_nil {s w : List UInt8} (h : w ∈ segments separator s) : w ≠ [] := by
  simpa using (List.mem_filter.mp h).2

theorem separated_segments (s : List UInt8) :
    separated separator (segments separator s) = segments separator s := by
  unfold separated
  split_ifs
  · cases hs : segments separator s with
    | nil => rfl
    | cons w ws =>
      have hne : w ≠ [] := segments_ne_nil (hs ▸ List.mem_cons_self)
      rw [List.dropWhile_cons, if_neg (by simpa using hne)]
  · rfl

end Join

theorem coapJoin_walk {message : CoapMessage} {optionNum : BitVec 16}
    {values : List (List UInt8)} {e : CoapError} (h : Answers message optionNum values e)
    (maxLen : Nat) (separator : UInt8) :
    coapJoinRepeatableOption message optionNum maxLen separator =
      let (error, written) := joinWalk maxLen separator e values []
      some (if error = .NOT_FOUND then .NO_ERROR else error, written) := by
  obtain ⟨values', e', h', hlen, -⟩ := answers_exist message optionNum
  obtain ⟨rfl, rfl⟩ := h.unique h'
  unfold coapJoinRepeatableOption
  rw [joinLoop_walk h [] (by omega), List.drop_zero]
  simp only [Option.bind_eq_bind, Option.bind_some]
  split_ifs <;> rfl

/-- The second function comes to an end, keeps to its buffer, and reports a joined string that
does not fit. -/
def JoinSafe (message : CoapMessage) (optionNum : BitVec 16) (maxLen : Nat) (separator : UInt8) :
    Prop :=
  ∃ values e error written, Answers message optionNum values e ∧
    coapJoinRepeatableOption message optionNum maxLen separator = some (error, written) ∧
    written.length ≤ maxLen ∧
    (maxLen < (joined separator values).length → error = .BUFFER_OVERFLOW)

/-- The joined string fits, or it does not even fit without the empty values at its end and,
behind the ampersand, those at its front. -/
def JoinRoom (message : CoapMessage) (optionNum : BitVec 16) (maxLen : Nat) (separator : UInt8) :
    Prop :=
  ∀ values e, Answers message optionNum values e →
    (joined separator values).length ≤ maxLen ∨
      maxLen < (joined separator (separated separator (upToLast values))).length

theorem joinSafe_iff (message : CoapMessage) (optionNum : BitVec 16) (maxLen : Nat)
    (separator : UInt8) :
    JoinSafe message optionNum maxLen separator ↔ JoinRoom message optionNum maxLen separator := by
  obtain ⟨values, e, h, -, he⟩ := answers_exist message optionNum
  have hjoin := coapJoin_walk h maxLen separator
  have hover := @joinWalk_overflow maxLen separator e he values [] (Nat.zero_le _)
  have hlen := @length_joinWalk maxLen separator e values [] (Nat.zero_le _)
  rw [addSegments_joined] at hover
  generalize joinWalk maxLen separator e values [] = result at hjoin hover hlen
  obtain ⟨error, written⟩ := result
  dsimp only at hjoin hover hlen
  have herror : (if error = .NOT_FOUND then .NO_ERROR else error) = CoapError.BUFFER_OVERFLOW ↔
      maxLen < (joined separator (separated separator (upToLast values))).length := by
    rw [← hover]
    split_ifs with hnot
    · rw [hnot]
      simp
    · rfl
  constructor
  · rintro ⟨values', e', error', written', h', hjoin', -, hreport⟩ values'' e'' h''
    obtain ⟨rfl, rfl⟩ := h.unique h'
    obtain ⟨rfl, rfl⟩ := h.unique h''
    rw [hjoin, Option.some.injEq, Prod.mk.injEq] at hjoin'
    obtain ⟨rfl, rfl⟩ := hjoin'
    rw [herror] at hreport
    exact (Nat.lt_or_ge maxLen _).symm.imp_right hreport
  · intro hroom
    refine ⟨values, e, _, written, h, hjoin, hlen, fun hgt => ?_⟩
    rw [herror]
    rcases hroom values e h with hfit | hno
    · omega
    · exact hno

/-- A string split and joined again is its segments; and of any message the joined string is
reported when it does not fit, exactly where no empty value hides a separator. -/
theorem split_join_iff (optionNum : BitVec 16) (separator : UInt8) :
    (∀ message message' header opts tail optionValue,
      WellFormed message header opts tail → occurrences optionNum.toNat opts = [] →
      0 ∉ optionValue →
      coapSplitRepeatableOption message optionNum optionValue separator =
        some (.NO_ERROR, message') →
      ∀ maxLen, (joined separator (segments separator optionValue)).length ≤ maxLen →
        coapJoinRepeatableOption message' optionNum maxLen separator =
          some (.NO_ERROR, joined separator (segments separator optionValue))) ∧
    ∀ message maxLen, JoinSafe message optionNum maxLen separator ↔
      JoinRoom message optionNum maxLen separator := by
  refine ⟨?_, fun message maxLen => joinSafe_iff message optionNum maxLen separator⟩
  intro message message' header opts tail optionValue hw hocc h0 hsplit maxLen hfit
  obtain ⟨opts', hw', hocc'⟩ := coapSplit_segments h0 hw hocc hsplit
  have hanswers := hw'.answers optionNum
  rw [hocc'] at hanswers
  have hall := @addSegments_joined separator (segments separator optionValue)
  rw [separated_segments] at hall
  rw [coapJoin_walk hanswers, joinWalk_fits (by rw [hall]; exact hfit), hall]
  rfl

/-- A query is put behind the path, and the path does not fit in one character. -/
theorem split_join_iff_query :
    (∃ message', coapSplitRepeatableOption uriPathMessage 15 [97, 38, 38, 98] AMPERSAND =
        some (.NO_ERROR, message') ∧
      coapJoinRepeatableOption message' 15 3 AMPERSAND = some (.NO_ERROR, [97, 38, 98])) ∧
    (JoinSafe uriPathMessage 11 1 47 ↔ JoinRoom uriPathMessage 11 1 47) := by
  refine ⟨?_, (split_join_iff 11 47).2 uriPathMessage 1⟩
  have herror : (coapSplitRepeatableOption uriPathMessage 15 [97, 38, 38, 98] AMPERSAND).map
      Prod.fst = some .NO_ERROR := by decide +kernel
  obtain ⟨⟨_, message'⟩, hsplit, rfl⟩ := Option.map_eq_some_iff.mp herror
  exact ⟨message', hsplit, (split_join_iff 15 AMPERSAND).1 uriPathMessage message' _ _ _ _
    uriPathMessage_wellFormed rfl (by decide) hsplit 3 (by decide)⟩

/-- A path of the segment `a` and an empty one. -/
def emptySegmentMessage : CoapMessage where
  buffer := [0x40, 1, 0, 1, 0xB1, 97, 0] ++ List.replicate 1145 0
  length := 7

theorem emptySegmentMessage_wellFormed :
    WellFormed emptySegmentMessage [0x40, 1, 0, 1] [(11, [97]), (11, [])] [] where
  size := by
    rw [emptySegmentMessage, List.length_append, List.length_replicate]
    rfl
  fits := by decide
  parses := rfl
  start := rfl
  options := @decodes_encoded 0 [(11, [97]), (11, [])] []
    ⟨by decide, by decide, by decide, by decide, by decide, by decide, trivial⟩ (.inl rfl)

/-- The slash of the empty segment does not fit in two characters, and is left out. -/
theorem split_join_empty :
    coapJoinRepeatableOption emptySegmentMessage 11 2 47 = some (.NO_ERROR, [47, 97]) ∧
      ¬JoinSafe emptySegmentMessage 11 2 47 := by
  refine ⟨by decide +kernel, ?_⟩
  rw [joinSafe_iff]
  intro hroom
  exact absurd (hroom _ _ (emptySegmentMessage_wellFormed.answers 11)) (by decide)

end Cyclone
