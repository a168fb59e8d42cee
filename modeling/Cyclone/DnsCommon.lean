import Mathlib.Tactic

/-!
# Cyclone.DnsCommon

Domain names in DNS messages (`dns_common.c`): `dnsEncodeName`, `dnsParseName` and
`dnsCompareName`.

A message is the list of its bytes. A name is the list of its characters, without the terminator.
`dnsCompareName` answers `none` when it reads a byte that is not part of the message or a
character behind the terminator of the name.

`walk` is what both readers see of an encoded name: its labels and how it ends.

* `dnsParseName_walk`, `dnsCompareName_walk`: the readers as functions of the walk.
-/

namespace Cyclone

def DNS_NAME_MAX_RECURSION : Nat := 4
def DNS_LABEL_MAX_SIZE : Nat := 63
def DNS_COMPRESSION_TAG : UInt8 := 0xC0

/-- The separator character. -/
def DOT : UInt8 := 46

/-! ## Encoding -/

/-- The loop of `dnsEncodeName`, with the characters of the current label. -/
def encodeLoop (label : List UInt8) : List UInt8 → Option (List UInt8)
  | [] =>
    if label.length < 1 ∨ label.length > DNS_LABEL_MAX_SIZE then none
    else some (UInt8.ofNat label.length :: label ++ [0])
  | c :: src =>
    if c = DOT then
      if label.length < 1 ∨ label.length > DNS_LABEL_MAX_SIZE then none
      else (encodeLoop [] src).map fun dest => UInt8.ofNat label.length :: label ++ dest
    else encodeLoop (label ++ [c]) src

/-- The encoded name; its length is the value returned, and `none` stands for 0. -/
def dnsEncodeName (src : List UInt8) : Option (List UInt8) := encodeLoop [] src

/-! ## Decoding -/

/-- The offset in a compression pointer. -/
def namePointer (hi lo : UInt8) : Nat := ((hi &&& 0x3F).toNat <<< 8) ||| lo.toNat

/-- The position after the name and the decoded name; `none` stands for 0. -/
def dnsParseName (src : List UInt8) (pos level : Nat) : Option (Nat × List UInt8) :=
  if level ≥ DNS_NAME_MAX_RECURSION then none
  else
    match _h : src[pos]? with
    | none => none
    | some b =>
      if b = 0 then some (pos + 1, [])
      else if b ≥ DNS_COMPRESSION_TAG then
        match src[pos + 1]? with
        | none => none
        | some lo =>
          match dnsParseName src (namePointer b lo) (level + 1) with
          | none => none
          | some (_, dest) => some (pos + 2, dest)
      else if b.toNat < DNS_LABEL_MAX_SIZE then
        if pos + 1 + b.toNat > src.length then none
        else
          match dnsParseName src (pos + 1 + b.toNat) level with
          | none => none
          | some (next, dest) =>
            some (next, (src.drop (pos + 1)).take b.toNat ++
              (if (src[pos + 1 + b.toNat]?).getD 0 ≠ 0 then [DOT] else []) ++ dest)
      else none
termination_by (DNS_NAME_MAX_RECURSION - level, src.length - pos)
decreasing_by
  · exact Prod.Lex.left _ _ (by omega)
  · have := (List.getElem?_eq_some_iff.mp _h).1
    exact Prod.Lex.right _ (by omega)

/-! ## Comparison -/

def tolower (c : UInt8) : UInt8 := if 65 ≤ c ∧ c ≤ 90 then c + 32 else c

/-- `strncasecmp` over the characters of `s1` and a terminated string. -/
def strncasecmp : List UInt8 → List UInt8 → Int
  | [], _ => 0
  | c :: s1, s2 =>
    let d := s2.headD 0
    if tolower c ≠ tolower d then (tolower c).toNat - (tolower d).toNat
    else if c = 0 then 0
    else strncasecmp s1 s2.tail

/-- The value returned, or `none` if a byte outside of the message or behind the terminator of
the name is read. -/
def dnsCompareName (p : List UInt8) (pos : Nat) (name : List UInt8) (level : Nat) : Option Int :=
  if level ≥ DNS_NAME_MAX_RECURSION then some (-2)
  else if hpos : pos < p.length then
    match p[pos]? with
    | none => none
    | some b =>
      if b = 0 then if name ≠ [] then some (-1) else some 0
      else if b ≥ DNS_COMPRESSION_TAG then
        -- a tag in the last byte: FALSE
        if pos + 1 ≥ p.length then some 0
        else
          match p[pos + 1]? with
          | none => none
          | some lo => dnsCompareName p (namePointer b lo) name (level + 1)
      else if pos + 1 + b.toNat > p.length then some (-2)
      else
        let res := strncasecmp ((p.drop (pos + 1)).take b.toNat) name
        if res ≠ 0 then some res
        else if b.toNat > name.length then none
        else
          match name.drop b.toNat with
          | [] => dnsCompareName p (pos + 1 + b.toNat) [] level
          | c :: rest =>
            if c = DOT then dnsCompareName p (pos + 1 + b.toNat) rest level
            else some (-1)
  else some (-2)
termination_by (DNS_NAME_MAX_RECURSION - level, p.length - pos)
decreasing_by
  · exact Prod.Lex.left _ _ (by omega)
  · exact Prod.Lex.right _ (by omega)
  · exact Prod.Lex.right _ (by omega)

/-! ## What the readers see -/

/-- How an encoded name ends. `root dot`: with an end marker, which a pointer leads to directly
after the last label if `dot`; `cut`: with a compression tag in the last byte of the message;
`broken`: anything else. -/
inductive NameEnd
  | root (dot : Bool)
  | cut
  | broken
  deriving DecidableEq, Repr

/-- A label in front of a walk; `dot` is the one to take if the end marker follows. -/
def withLabel (label : List UInt8) (dot : Bool) :
    List (List UInt8) × NameEnd → List (List UInt8) × NameEnd
  | ([], .root _) => ([label], .root dot)
  | (labels, e) => (label :: labels, e)

/-- The labels of an encoded name, of any length below the compression tag, and its end. -/
def walk (src : List UInt8) (pos level : Nat) : List (List UInt8) × NameEnd :=
  if level ≥ DNS_NAME_MAX_RECURSION then ([], .broken)
  else
    match _h : src[pos]? with
    | none => ([], .broken)
    | some b =>
      if b = 0 then ([], .root false)
      else if b ≥ DNS_COMPRESSION_TAG then
        match src[pos + 1]? with
        | none => ([], .cut)
        | some lo => walk src (namePointer b lo) (level + 1)
      else if pos + 1 + b.toNat > src.length then ([], .broken)
      else
        withLabel ((src.drop (pos + 1)).take b.toNat) ((src[pos + 1 + b.toNat]?).getD 0 ≠ 0)
          (walk src (pos + 1 + b.toNat) level)
termination_by (DNS_NAME_MAX_RECURSION - level, src.length - pos)
decreasing_by
  · exact Prod.Lex.left _ _ (by omega)
  · have := (List.getElem?_eq_some_iff.mp _h).1
    exact Prod.Lex.right _ (by omega)

/-- The text of a list of labels, separated by dots. -/
def joinLabels : List (List UInt8) → List UInt8
  | [] => []
  | [label] => label
  | label :: rest => label ++ DOT :: joinLabels rest

/-- The text `dnsParseName` makes of labels that end with `root dot`. -/
def labelText (labels : List (List UInt8)) (dot : Bool) : List UInt8 :=
  joinLabels labels ++ if dot ∧ labels ≠ [] then [DOT] else []

/-- What `dnsParseName` decodes. -/
def decoded : List (List UInt8) × NameEnd → Option (List UInt8)
  | (labels, .root dot) =>
    if ∀ l ∈ labels, l.length < DNS_LABEL_MAX_SIZE then some (labelText labels dot) else none
  | _ => none

/-- What `dnsCompareName` returns. -/
def compared : List (List UInt8) → NameEnd → List UInt8 → Option Int
  | [], .root _, name => if name ≠ [] then some (-1) else some 0
  | [], .cut, _ => some 0
  | [], .broken, _ => some (-2)
  | l :: labels, e, name =>
    if strncasecmp l name ≠ 0 then some (strncasecmp l name)
    else if l.length > name.length then none
    else
      match name.drop l.length with
      | [] => compared labels e []
      | c :: rest => if c = DOT then compared labels e rest else some (-1)

theorem walk_stop (src : List UInt8) {pos level : Nat} (h : level ≥ DNS_NAME_MAX_RECURSION) :
    walk src pos level = ([], .broken) := by
  unfold walk
  rw [if_pos h]

theorem walk_none {src : List UInt8} {pos : Nat} (h : src[pos]? = none) (level : Nat) :
    walk src pos level = ([], .broken) := by
  unfold walk
  split
  · rfl
  · split
    · rfl
    · rename_i b hb
      rw [h] at hb; cases hb

/-- The walk at a byte `b` of the message, below the recursion limit. -/
theorem walk_some {src : List UInt8} {pos level : Nat} {b : UInt8}
    (hl : ¬level ≥ DNS_NAME_MAX_RECURSION) (h : src[pos]? = some b) :
    walk src pos level =
      if b = 0 then ([], .root false)
      else if b ≥ DNS_COMPRESSION_TAG then
        match src[pos + 1]? with
        | none => ([], .cut)
        | some lo => walk src (namePointer b lo) (level + 1)
      else if pos + 1 + b.toNat > src.length then ([], .broken)
      else
        withLabel ((src.drop (pos + 1)).take b.toNat) ((src[pos + 1 + b.toNat]?).getD 0 ≠ 0)
          (walk src (pos + 1 + b.toNat) level) := by
  rw [walk, if_neg hl]
  split
  · rename_i hn
    rw [h] at hn; cases hn
  · rename_i c hc
    obtain rfl : b = c := by rw [h] at hc; exact Option.some.inj hc
    rfl

/-! ## The readers over the walk -/

/-- The decoder at a byte `b` of the message, below the recursion limit. -/
theorem dnsParseName_some {src : List UInt8} {pos level : Nat} {b : UInt8}
    (hl : ¬level ≥ DNS_NAME_MAX_RECURSION) (h : src[pos]? = some b) :
    dnsParseName src pos level =
      if b = 0 then some (pos + 1, [])
      else if b ≥ DNS_COMPRESSION_TAG then
        match src[pos + 1]? with
        | none => none
        | some lo =>
          match dnsParseName src (namePointer b lo) (level + 1) with
          | none => none
          | some (_, dest) => some (pos + 2, dest)
      else if b.toNat < DNS_LABEL_MAX_SIZE then
        if pos + 1 + b.toNat > src.length then none
        else
          match dnsParseName src (pos + 1 + b.toNat) level with
          | none => none
          | some (next, dest) =>
            some (next, (src.drop (pos + 1)).take b.toNat ++
              (if (src[pos + 1 + b.toNat]?).getD 0 ≠ 0 then [DOT] else []) ++ dest)
      else none := by
  rw [dnsParseName, if_neg hl]
  split
  · rename_i hn
    rw [h] at hn; cases hn
  · rename_i c hc
    obtain rfl : b = c := by rw [h] at hc; exact Option.some.inj hc
    rfl

theorem decoded_long {label : List UInt8} (h : ¬label.length < DNS_LABEL_MAX_SIZE) (dot : Bool)
    (w : List (List UInt8) × NameEnd) : decoded (withLabel label dot w) = none := by
  obtain ⟨labels, e⟩ := w
  cases e with
  | root d => cases labels <;> simp [withLabel, decoded, h]
  | cut => cases labels <;> rfl
  | broken => cases labels <;> rfl

/-- A further label in front of what is decoded; `dot` says whether it gets a separator. -/
theorem decoded_withLabel {label : List UInt8} (h : label.length < DNS_LABEL_MAX_SIZE) (dot : Bool)
    {w : List (List UInt8) × NameEnd} (hw : dot = false → w.1 = []) :
    decoded (withLabel label dot w) =
      (decoded w).map fun dest => label ++ (if dot then [DOT] else []) ++ dest := by
  obtain ⟨labels, e⟩ := w
  cases e with
  | cut => cases labels <;> rfl
  | broken => cases labels <;> rfl
  | root d =>
    cases labels with
    | nil => cases dot <;> simp [withLabel, decoded, labelText, joinLabels, h]
    | cons l labels =>
      obtain rfl : dot = true := by
        cases dot with
        | true => rfl
        | false => exact absurd (hw rfl) (by simp)
      simp [withLabel, decoded, labelText, joinLabels, h]

/-- Behind the last label stands the end marker, or a byte that leads on. -/
theorem walk_labels_nil {src : List UInt8} {pos : Nat} (level : Nat)
    (h : decide ((src[pos]?).getD 0 ≠ 0) = false) : (walk src pos level).1 = [] := by
  by_cases hl : level ≥ DNS_NAME_MAX_RECURSION
  · rw [walk_stop src hl]
  cases hb : src[pos]? with
  | none => rw [walk_none hb]
  | some b =>
    have h0 : b = 0 := by simpa [hb] using h
    rw [walk_some hl hb, if_pos h0]

theorem length_label {src : List UInt8} {pos n : Nat} (h : ¬pos + 1 + n > src.length) :
    ((src.drop (pos + 1)).take n).length = n := by
  rw [List.length_take, List.length_drop]
  omega

theorem dnsParseName_walk (src : List UInt8) (pos level : Nat) :
    (dnsParseName src pos level).map Prod.snd = decoded (walk src pos level) := by
  fun_induction dnsParseName src pos level with
  | case1 pos level hl => rw [walk_stop src hl]; rfl
  | case2 pos level hl hb => rw [walk_none hb]; rfl
  | case3 pos level hl hb => rw [walk_some hl hb, if_pos rfl]; rfl
  | case4 pos level hl b hb h0 ht hlo => rw [walk_some hl hb, if_neg h0, if_pos ht, hlo]; rfl
  | case5 pos level hl b hb h0 ht lo hlo hrec ih =>
    rw [walk_some hl hb, if_neg h0, if_pos ht, hlo, ← ih, hrec]
  | case6 pos level hl b hb h0 ht lo hlo next dest hrec ih =>
    rw [walk_some hl hb, if_neg h0, if_pos ht, hlo, ← ih, hrec]
    rfl
  | case7 pos level hl b hb h0 ht hn hlen =>
    rw [walk_some hl hb, if_neg h0, if_neg ht, if_pos hlen]; rfl
  | case8 pos level hl b hb h0 ht hn hlen hrec ih =>
    rw [walk_some hl hb, if_neg h0, if_neg ht, if_neg hlen,
      decoded_withLabel (by rw [length_label hlen]; exact hn) _ (walk_labels_nil level), ← ih, hrec]
    rfl
  | case9 pos level hl b hb h0 ht hn hlen next dest hrec ih =>
    rw [walk_some hl hb, if_neg h0, if_neg ht, if_neg hlen,
      decoded_withLabel (by rw [length_label hlen]; exact hn) _ (walk_labels_nil level), ← ih, hrec]
    simp
  | case10 pos level hl b hb h0 ht hn =>
    rw [walk_some hl hb, if_neg h0, if_neg ht]
    split
    · rfl
    · rename_i hlen
      rw [decoded_long (by rw [length_label hlen]; exact hn)]
      rfl

/-- The comparison does not care how the end marker is reached. -/
theorem compared_withLabel (label : List UInt8) (dot : Bool) (w : List (List UInt8) × NameEnd)
    (name : List UInt8) :
    compared (withLabel label dot w).1 (withLabel label dot w).2 name =
      if strncasecmp label name ≠ 0 then some (strncasecmp label name)
      else if label.length > name.length then none
      else
        match name.drop label.length with
        | [] => compared w.1 w.2 []
        | c :: rest => if c = DOT then compared w.1 w.2 rest else some (-1) := by
  obtain ⟨labels, e⟩ := w
  cases labels with
  | nil => cases e <;> simp [withLabel, compared]
  | cons l labels => simp [withLabel, compared]

theorem dnsCompareName_walk (p : List UInt8) (pos : Nat) (name : List UInt8) (level : Nat) :
    dnsCompareName p pos name level = compared (walk p pos level).1 (walk p pos level).2 name := by
  fun_induction dnsCompareName p pos name level with
  | case1 pos name level hl => rw [walk_stop p hl]; rfl
  | case2 pos name level hl hpos hb =>
    rw [List.getElem?_eq_none_iff] at hb
    omega
  | case3 pos name level hl hpos hname hb =>
    rw [walk_some hl hb, if_pos rfl]
    simp [compared, hname]
  | case4 pos name level hl hpos hname hb =>
    rw [walk_some hl hb, if_pos rfl]
    simp [compared, hname]
  | case5 pos name level hl hpos b hb h0 ht hlo =>
    rw [walk_some hl hb, if_neg h0, if_pos ht, List.getElem?_eq_none hlo]
    rfl
  | case6 pos name level hl hpos b hb h0 ht hlo hnone =>
    rw [List.getElem?_eq_none_iff] at hnone
    omega
  | case7 pos name level hl hpos b hb h0 ht hlo lo hsome ih =>
    rw [walk_some hl hb, if_neg h0, if_pos ht, hsome, ← ih]
  | case8 pos name level hl hpos b hb h0 ht hlen =>
    rw [walk_some hl hb, if_neg h0, if_neg ht, if_pos hlen]
    rfl
  | case9 pos name level hl hpos b hb h0 ht hlen res hres =>
    rw [walk_some hl hb, if_neg h0, if_neg ht, if_neg hlen, compared_withLabel, if_pos hres]
  | case10 pos name level hl hpos b hb h0 ht hlen res hres hover =>
    rw [walk_some hl hb, if_neg h0, if_neg ht, if_neg hlen, compared_withLabel, if_neg hres,
      length_label hlen, if_pos hover]
  | case11 pos name level hl hpos b hb h0 ht hlen res hres hover hdrop ih =>
    rw [walk_some hl hb, if_neg h0, if_neg ht, if_neg hlen, compared_withLabel, if_neg hres,
      length_label hlen, if_neg hover, hdrop, ← ih]
  | case12 pos name level hl hpos b hb h0 ht hlen res hres hover rest hdrop ih =>
    rw [walk_some hl hb, if_neg h0, if_neg ht, if_neg hlen, compared_withLabel, if_neg hres,
      length_label hlen, if_neg hover, hdrop]
    simp [ih]
  | case13 pos name level hl hpos b hb h0 ht hlen res hres hover c rest hdrop hdot =>
    rw [walk_some hl hb, if_neg h0, if_neg ht, if_neg hlen, compared_withLabel, if_neg hres,
      length_label hlen, if_neg hover, hdrop]
    simp [hdot]
  | case14 pos name level hl hpos =>
    rw [walk_none (List.getElem?_eq_none (by omega))]
    rfl

end Cyclone
