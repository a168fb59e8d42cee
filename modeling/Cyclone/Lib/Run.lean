import Mathlib

/-!
# Run

Transition systems that take events, and the rules that carry a property from one step to all the
states a run can reach.

* `Reach step ok s₀`: the states reached from `s₀` by events that `ok` admits where they happen.
* `Reach.inv`: an invariant of the admitted steps holds of every reachable state.
* `chain_inv`, `chain_mono`: the same for chains of a relation, and a change of relation.
-/

namespace Run

open Relation

variable {σ ε : Type*}

/-- States reached from `s₀` when every event `e` that happens in a state `s` satisfies `ok s e`. -/
inductive Reach (step : σ → ε → σ) (ok : σ → ε → Prop) (s₀ : σ) : σ → Prop where
  | init : Reach step ok s₀ s₀
  | step {s : σ} {e : ε} : Reach step ok s₀ s → ok s e → Reach step ok s₀ (step s e)

variable {step : σ → ε → σ} {ok ok' : σ → ε → Prop} {s₀ s : σ}

theorem Reach.inv {P : σ → Prop} (h : Reach step ok s₀ s) (h0 : P s₀)
    (hs : ∀ s e, P s → ok s e → P (step s e)) : P s := by
  induction h with
  | init => exact h0
  | step _ hok ih => exact hs _ _ ih hok

theorem Reach.mono (h : Reach step ok s₀ s) (hok : ∀ s e, ok s e → ok' s e) :
    Reach step ok' s₀ s := by
  induction h with
  | init => exact .init
  | step _ he ih => exact .step ih (hok _ _ he)

theorem Reach.trans {s₁ : σ} (h₁ : Reach step ok s₀ s₁) (h₂ : Reach step ok s₁ s) :
    Reach step ok s₀ s := by
  induction h₂ with
  | init => exact h₁
  | step _ he ih => exact .step ih he

/-- A list of events that are admitted everywhere. -/
theorem Reach.foldl (h : Reach step ok s₀ s) (es : List ε) (hes : ∀ e ∈ es, ∀ s, ok s e) :
    Reach step ok s₀ (es.foldl step s) := by
  induction es generalizing s with
  | nil => exact h
  | cons e es ih =>
    exact ih (h.step (hes e List.mem_cons_self s)) fun e he => hes e (List.mem_cons_of_mem _ he)

/-- An invariant of a relation holds along its chains. -/
theorem chain_inv {R : σ → σ → Prop} {P : σ → Prop} {s s' : σ} (h : ReflTransGen R s s')
    (h0 : P s) (hs : ∀ s s', R s s' → P s → P s') : P s' := by
  induction h with
  | refl => exact h0
  | tail _ hr ih => exact hs _ _ hr ih

/-- A relation that is reflexive and transitive contains the chains of what it contains. -/
theorem chain_mono {R S : σ → σ → Prop} {s s' : σ} (h : ReflTransGen R s s')
    (hR : ∀ s s', R s s' → S s s') (hrefl : ∀ s, S s s)
    (htrans : ∀ s t u, S s t → S t u → S s u) : S s s' := by
  induction h with
  | refl => exact hrefl _
  | tail _ hr ih => exact htrans _ _ _ ih (hR _ _ hr)

end Run
