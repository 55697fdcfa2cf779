import Parley.Text.Span

/-!
# `Parley/Client/ReconnectPolicy.lean` — when to dial again

After an outage the client dials again a bounded number of times, and waits before each attempt.
The waits grow by a constant factor up to a ceiling. The factor saturates at the largest 32-bit
number, and a wait too long to be represented is the ceiling, so every policy has a schedule.
-/

set_option autoImplicit false

namespace Parley

/-- The schedule of the attempts after an outage. -/
structure ReconnectPolicy where
  initialDelay : Span := .ofMillis 250
  multiplier : UInt32 := 2
  maxDelay : Span := .ofSeconds 8
  /-- Attempts per outage before the client gives up. -/
  maxAttempts : UInt32 := 5
  deriving DecidableEq

namespace ReconnectPolicy

/-- The largest factor that a delay is multiplied by. -/
def maxFactor : Nat := 0xFFFFFFFF

/-- The power `base ^ n`, or the largest factor if that is less. No factor above one needs more than
its thirty-second power to reach the largest. -/
def saturatingPower (base n : Nat) : Nat := min (Nat.pow base (min n 32)) maxFactor

/-- The wait before the attempt of this number, counted from one; none once the attempts are spent. -/
def delayFor (p : ReconnectPolicy) (attempt : Nat) : Option Span :=
  if attempt = 0 ∨ p.maxAttempts.toNat < attempt then none
  else
    let factor := saturatingPower (max p.multiplier.toNat 1) (attempt - 1)
    let delay := p.initialDelay.nanos * factor
    some (if Span.limit ≤ delay then p.maxDelay else ⟨min delay p.maxDelay.nanos⟩)

/-- The power saturates at the largest factor, as if it had been computed in full. -/
theorem saturatingPower_eq (base n : Nat) (h : 1 ≤ base) :
    saturatingPower base n = min (Nat.pow base n) maxFactor := by
  unfold saturatingPower
  by_cases hn : n ≤ 32
  · rw [Nat.min_eq_left hn]
  · by_cases hb : base = 1
    · subst hb; simp
    · have h2 : 2 ≤ base := by omega
      have hbig : ∀ k, 32 ≤ k → maxFactor ≤ Nat.pow base k := by
        intro k hk
        calc maxFactor ≤ Nat.pow 2 32 := by decide
          _ ≤ Nat.pow 2 k := Nat.pow_le_pow_right (by omega) hk
          _ ≤ Nat.pow base k := Nat.pow_le_pow_left h2 k
      rw [Nat.min_eq_right (by omega : 32 ≤ n), Nat.min_eq_right (hbig 32 (by omega)),
        Nat.min_eq_right (hbig n (by omega))]

end ReconnectPolicy

end Parley
