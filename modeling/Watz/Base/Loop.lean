import Mathlib.Data.Nat.Basic

namespace Watz.Base.Loop

variable {σ : Type}

-- A `while` loop, cut off after `fuel` rounds.
def run (guard : σ → Bool) (body : σ → σ) : Nat → σ → σ
  | 0, s => s
  | fuel + 1, s => if guard s then run guard body fuel (body s) else s

variable {guard : σ → Bool} {body : σ → σ} {Inv : σ → Prop}

theorem run_invariant (hbody : ∀ s, guard s = true → Inv s → Inv (body s)) (fuel : Nat) {s : σ}
    (h : Inv s) : Inv (run guard body fuel s) := by
  induction fuel generalizing s with
  | zero => exact h
  | succ fuel ih =>
      simp only [run]
      split
      case isTrue hguard => exact ih (hbody s hguard h)
      case isFalse => exact h

-- The cut does not show when every round lowers a measure that the fuel covers.
theorem run_done (measure : σ → Nat) (hbody : ∀ s, guard s = true → Inv s → Inv (body s))
    (hlower : ∀ s, guard s = true → Inv s → measure (body s) < measure s) {fuel : Nat} {s : σ}
    (h : Inv s) (hfuel : measure s ≤ fuel) : guard (run guard body fuel s) = false := by
  induction fuel generalizing s with
  | zero =>
      by_contra hguard
      have hless := hlower s (by simpa [run] using hguard) h
      omega
  | succ fuel ih =>
      simp only [run]
      split
      case isTrue hguard =>
        have hless := hlower s hguard h
        exact ih (hbody s hguard h) (by omega)
      case isFalse hguard => simpa using hguard

end Watz.Base.Loop
