import Mathlib

/-!
# DoWhile

Loops that test at their end and may be left from inside, over any type of variables.

* `doWhile body more`: the loop, with a bound on its turns.
* `doWhile_map`: two loops whose bodies agree along a map of their variables.
* `doWhile_isSome`: a measure that goes down in every turn that is not the last bounds the turns.
-/

namespace DoWhile

variable {σ τ ε δ : Type*}

/-- `do body while (more)`. Turn number `k` runs `body k`, which may leave the loop with a value.
The result is the number of turns, the variables and that value; `none` when the turns run out. -/
def doWhile (body : Nat → σ → σ × Option ε) (more : σ → Bool) :
    Nat → Nat → σ → Option (Nat × σ × Option ε)
  | 0, _, _ => none
  | fuel + 1, k, s =>
    match body k s with
    | (s', some e) => some (k + 1, s', some e)
    | (s', none) => if more s' then doWhile body more fuel (k + 1) s' else some (k + 1, s', none)

variable {body : Nat → σ → σ × Option ε} {more : σ → Bool}
  {body' : Nat → τ → τ × Option δ} {more' : τ → Bool}

/-- Two loops in step: `f` maps the variables of the second to those of the first, `g` the values
of the first to those of the second. -/
theorem doWhile_map {Inv : τ → Prop} {f : τ → σ} {g : ε → δ}
    (hbody : ∀ k t, Inv t → (body k (f t)).1 = f (body' k t).1 ∧
      (body' k t).2 = (body k (f t)).2.map g)
    (hmore : ∀ t, Inv t → more (f t) = more' t)
    (hinv : ∀ k t, Inv t → Inv (body' k t).1) (fuel : Nat) :
    ∀ k t, Inv t → doWhile body' more' fuel k t = none ∧ doWhile body more fuel k (f t) = none ∨
      ∃ n t' e, doWhile body' more' fuel k t = some (n, t', e.map g) ∧
        doWhile body more fuel k (f t) = some (n, f t', e) ∧ Inv t' := by
  induction fuel with
  | zero => intro k t _; exact .inl ⟨rfl, rfl⟩
  | succ fuel ih =>
    intro k t ht
    obtain ⟨hvars, hleft⟩ := hbody k t ht
    have ht' := hinv k t ht
    rcases hb : body k (f t) with ⟨s, _ | e⟩
    · rcases hb' : body' k t with ⟨t', x⟩
      rw [hb, hb'] at hvars hleft
      rw [hb'] at ht'
      obtain rfl : s = f t' := hvars
      obtain rfl : x = none := hleft
      simp only [doWhile, hb, hb', hmore t' ht']
      split
      · exact ih (k + 1) t' ht'
      · exact .inr ⟨k + 1, t', none, rfl, rfl, ht'⟩
    · rcases hb' : body' k t with ⟨t', x⟩
      rw [hb, hb'] at hvars hleft
      rw [hb'] at ht'
      obtain rfl : s = f t' := hvars
      obtain rfl : x = some (g e) := hleft
      simp only [doWhile, hb, hb']
      exact .inr ⟨k + 1, t', some e, rfl, rfl, ht'⟩

/-- The loop ends when every turn after which it goes on brings the measure down. -/
theorem doWhile_isSome {Inv : σ → Prop} (m : σ → Nat)
    (hbody : ∀ k s s', Inv s → body k s = (s', none) → more s' = true → Inv s' ∧ m s' < m s)
    (fuel : Nat) : ∀ k s, Inv s → m s < fuel → (doWhile body more fuel k s).isSome := by
  induction fuel with
  | zero => intro k s _ h; exact absurd h (Nat.not_lt_zero _)
  | succ fuel ih =>
    intro k s hs hm
    rcases hb : body k s with ⟨s', _ | e⟩
    · simp only [doWhile, hb]
      split
      · rename_i hmore
        obtain ⟨hs', hlt⟩ := hbody k s s' hs hb hmore
        exact ih (k + 1) s' hs' (by omega)
      · rfl
    · simp only [doWhile, hb]
      rfl

end DoWhile
