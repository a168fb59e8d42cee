import Mathlib.Data.List.Basic
import Mathlib.Data.List.Chain

/-!
# Cyclone.Lib.Unreach

A peer is given up after a number of requests, each of which has waited for its answer.

* `Prober`: what is kept for one peer, and all its requests since probing began.
* `ProbeStep.inv`, `Prober.justified`: a peer given up has had its full number of requests.
-/

namespace Unreach

/-- `late r now`: the answer to the request `r` is overdue. `sentAt r`: when it was sent. -/
structure Timing (τ ρ : Type) where
  late : ρ → τ → Prop
  sentAt : ρ → τ

/-- A peer: whether it is being probed, the retransmissions counted, the request whose answer is
waited for, and all the requests since probing began. -/
structure Prober (ρ : Type) where
  probing : Bool
  count : Nat
  pending : ρ
  probes : List ρ

variable {τ ρ : Type} {T : Timing τ ρ} {now : τ} {p p' : Prober ρ}

/-- The steps of a peer, but for the one that gives it up. -/
inductive ProbeStep (T : Timing τ ρ) (now : τ) (p : Prober ρ) : Prober ρ → Prop
  | enter {r : ρ} (sent : T.sentAt r = now) : ProbeStep T now p ⟨true, 0, r, [r]⟩
  | resend {r : ρ} (probing : p.probing) (late : T.late p.pending now) (sent : T.sentAt r = now) :
    ProbeStep T now p ⟨true, p.count + 1, r, p.probes ++ [r]⟩
  | stay : ProbeStep T now p p
  | leave {p' : Prober ρ} (idle : p'.probing = false) : ProbeStep T now p p'

/-- The count is that of the requests behind the first, and each has waited for its answer. -/
structure Prober.Ok (T : Timing τ ρ) (p : Prober ρ) : Prop where
  count : p.probing → p.probes.length = p.count + 1
  last : p.probing → p.probes.getLast? = some p.pending
  waited : p.probing → p.probes.IsChain fun r r' => T.late r (T.sentAt r')

/-- As many requests as `most`, each of which has waited for its answer, the last one until now. -/
structure Prober.Justified (T : Timing τ ρ) (most : Nat) (now : τ) (p : Prober ρ) : Prop where
  enough : most ≤ p.probes.length
  waited : p.probes.IsChain fun r r' => T.late r (T.sentAt r')
  last : ∀ r ∈ p.probes.getLast?, T.late r now

theorem Prober.Ok.idle (h : p.probing = false) : p.Ok T := by
  have hidle : ¬ p.probing := by simp [h]
  exact ⟨fun h => absurd h hidle, fun h => absurd h hidle, fun h => absurd h hidle⟩

theorem ProbeStep.inv (h : ProbeStep T now p p') (hp : p.Ok T) : p'.Ok T := by
  cases h with
  | enter sent => exact ⟨fun _ => rfl, fun _ => rfl, fun _ => .singleton _⟩
  | resend probing late sent =>
    have hlast := hp.last probing
    refine ⟨fun _ => ?_, fun _ => by simp, fun _ => ?_⟩
    · simp [hp.count probing]
    · rw [List.isChain_append]
      refine ⟨hp.waited probing, .singleton _, fun r hr r' hr' => ?_⟩
      rw [hlast] at hr
      cases hr
      cases hr'
      rw [sent]
      exact late
  | stay => exact hp
  | leave idle => exact .idle idle

/-- A peer is given up when its last request has waited and the count has come to the limit. -/
theorem Prober.Ok.justified {most : Nat} (hp : p.Ok T) (probing : p.probing)
    (late : T.late p.pending now) (hcount : most ≤ p.count + 1) : p.Justified T most now := by
  refine ⟨by rw [hp.count probing]; exact hcount, hp.waited probing, fun r hr => ?_⟩
  rw [hp.last probing] at hr
  cases hr
  exact late

end Unreach
