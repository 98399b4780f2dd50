import Mathlib.Algebra.Ring.Nat
import SuiteSearch.Oracle.Retry

/-!
# Exponential schedules

The pause that an exponential schedule stands for is `initial · factor ^ (k - 1)`, up to `max`. The
power is told up to `2 ^ 32 - 1` only, and the product up to the longest duration. The second bound
never shows, since `max` is a duration too. The first one shows if the pause that it leaves is not
zero and falls short of `max`: the pauses then stop growing before they reach `max`.

    growth_eq                      the power, as far as it is told
    delayAfter_exponential_eq      the pause in exact arithmetic
    delayAfter_exponential         when it is the one that the schedule stands for
    delayAfter_fallsShort          a schedule whose pauses stop growing too early
-/

namespace SuiteSearch.Backoff

open Duration (longest)

/-- The first pause times a power of the factor, up to the greatest pause. -/
def wanted (initial : Duration) (factor : Nat) (max : Duration) (attempt : Nat) : Duration :=
  ⟨min (initial.nanos * factor ^ (attempt - 1)) max.nanos⟩

/-! ## The parts of a pause -/

theorem growth_eq (factor k : Nat) : growth factor k = min (factor ^ k) limit := by
  unfold growth
  split
  · next h =>
    have hpow : 2 ^ 32 ≤ factor ^ k := calc
      2 ^ 32 ≤ 2 ^ k := Nat.pow_le_pow_right (by decide) h.2
      _ ≤ factor ^ k := Nat.pow_le_pow_left h.1 k
    have hlimit : limit < 2 ^ 32 := by decide
    omega
  · rfl

theorem counted_eq {k : Nat} (hfirst : 1 ≤ k) (hlast : k ≤ limit) : counted k = k := by
  unfold counted
  omega

theorem least_nanos (a b : Duration) : (a.least b).nanos = min a.nanos b.nanos := by
  unfold Duration.least
  split <;> omega

/-- The product stops at the longest duration, which is no shorter than the greatest pause. -/
theorem delayAfter_exponential_eq (initial max : Duration) (factor k : Nat)
    (hmax : max.nanos ≤ longest.nanos) (hfirst : 1 ≤ k) (hlast : k ≤ limit) :
    (exponential initial factor max).delayAfter k =
      ⟨min (initial.nanos * min (factor ^ (k - 1)) limit) max.nanos⟩ := by
  have hnanos : ((exponential initial factor max).delayAfter k).nanos =
      min (initial.nanos * min (factor ^ (k - 1)) limit) max.nanos := by
    show ((initial.times (growth factor (counted k - 1))).least max).nanos = _
    rw [least_nanos, Duration.times_nanos, counted_eq hfirst hlast, growth_eq]
    omega
  rw [← hnanos]

/-- A product with a factor that stops at `l` is as good as the exact one, up to `m`, if the factor
does not get there, or if what it stops at does not matter. -/
theorem capped_eq_iff (i p l m : Nat) :
    min (i * min p l) m = min (i * p) m ↔ p ≤ l ∨ i = 0 ∨ m ≤ i * l := by
  by_cases hp : p ≤ l
  · simp only [Nat.min_eq_left hp, hp, true_or]
  · have hmore : i * l ≤ i * p := Nat.mul_le_mul_left i (by omega)
    have hstop : min p l = l := by omega
    rw [hstop]
    by_cases hi : i = 0
    · simp [hi]
    · have hstrict : i * l < i * p := Nat.mul_lt_mul_of_pos_left (by omega) (by omega)
      omega

/-! ## The schedule -/

/-- The pause is the one that the schedule stands for unless the power stops before the pause has
reached the greatest one. -/
theorem delayAfter_exponential (initial max : Duration) (factor k : Nat)
    (hmax : max.nanos ≤ longest.nanos) (hfirst : 1 ≤ k) (hlast : k ≤ limit) :
    (exponential initial factor max).delayAfter k =
        ⟨min (initial.nanos * min (factor ^ (k - 1)) limit) max.nanos⟩ ∧
      ((exponential initial factor max).delayAfter k = wanted initial factor max k ↔
        factor ^ (k - 1) ≤ limit ∨ initial.nanos = 0 ∨ max.nanos ≤ initial.nanos * limit) := by
  have hpause := delayAfter_exponential_eq initial max factor k hmax hfirst hlast
  refine ⟨hpause, ?_⟩
  rw [hpause, wanted, Duration.mk.injEq]
  exact capped_eq_iff initial.nanos (factor ^ (k - 1)) limit max.nanos

/-- Pauses that double from a twentieth of a second reach their greatest one, although the fortieth
power of two is not told. -/
theorem delayAfter_exponential_doubling :
    limit < 2 ^ 40 ∧ (exponential (Duration.ofMillis 50) 2 (Duration.ofMillis 150)).delayAfter 41 =
      wanted (Duration.ofMillis 50) 2 (Duration.ofMillis 150) 41 := by
  have hcap : (Duration.ofMillis 150).nanos ≤ (Duration.ofMillis 50).nanos * limit := by decide
  exact ⟨by decide, (delayAfter_exponential (Duration.ofMillis 50) (Duration.ofMillis 150) 2 41
    (by decide) (by decide) (by decide)).2.mpr (.inr (.inr hcap))⟩

/-- Pauses that double from a nanosecond stop before half of the greatest one. -/
theorem delayAfter_fallsShort :
    (exponential ⟨1⟩ 2 (Duration.ofSeconds 10)).delayAfter 35 = ⟨4294967295⟩ ∧
      wanted ⟨1⟩ 2 (Duration.ofSeconds 10) 35 = Duration.ofSeconds 10 ∧
      (exponential ⟨1⟩ 2 (Duration.ofSeconds 10)).delayAfter 35 ≠
        wanted ⟨1⟩ 2 (Duration.ofSeconds 10) 35 := by
  decide +kernel

end SuiteSearch.Backoff
