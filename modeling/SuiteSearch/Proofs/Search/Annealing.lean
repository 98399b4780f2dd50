import SuiteSearch.Proofs.Scalar.Exact
import SuiteSearch.Search.Annealing

/-!
# Annealing in exact arithmetic

With rational numbers both regimes of the annealing are one formula: the first values times the part
of the way to the onset that is still ahead.

    share onset u = max 0 (1 - max 0 u / onset)
    anneal p n onset u = (p · share onset u, max ⌈n · share onset u⌉ 1)        (anneal_eq)

The share falls from 1 to 0, so that probability and retention fall with it.

    exactPolicyAt_anneals     for all valid settings and any part of the budget
-/

namespace SuiteSearch

open Scalar (exactly)

namespace SamplingPolicy

/-! ## The way ahead -/

/-- The part of the way to the onset that is ahead once a part of the budget is used. -/
def share (onset progress : ℚ) : ℚ := max 0 (1 - max 0 progress / onset)

variable {onset : ℚ}

theorem share_nonneg (onset u : ℚ) : 0 ≤ share onset u := le_max_left _ _

theorem share_le_one (h : 0 < onset) (u : ℚ) : share onset u ≤ 1 := by
  have hused : 0 ≤ max 0 u / onset := by positivity
  unfold share
  exact max_le zero_le_one (by linarith)

theorem share_antitone (h : 0 < onset) : Antitone (share onset) := by
  intro u v huv
  unfold share
  gcongr

theorem share_zero (onset : ℚ) : share onset 0 = 1 := by
  simp [share]

theorem share_of_le (h : 0 < onset) {u : ℚ} (hu : onset ≤ u) : share onset u = 0 := by
  have hused : 1 ≤ max 0 u / onset := by
    rw [le_div_iff₀ h, one_mul]
    exact le_max_of_le_right hu
  unfold share
  exact max_eq_left (by linarith)

theorem share_of_lt (h : 0 < onset) {u : ℚ} (hu : u < onset) :
    share onset u = 1 - max 0 u / onset := by
  have hused : max 0 u / onset ≤ 1 := by
    rw [div_le_one h]
    exact max_le h.le hu.le
  unfold share
  exact max_eq_right (by linarith)

/-! ## The policy -/

section

variable {p : ℚ} (hp : 0 ≤ p) (h : 0 < onset) (hle : onset ≤ 1)

include hp h hle

/-- Before the onset the cut at 1 does nothing, and after it the share is 0. -/
theorem anneal_eq (n : Nat) (u : ℚ) :
    anneal p n onset u = ⟨p * share onset u, max ⌈n * share onset u⌉₊ 1⟩ := by
  simp only [anneal, Scalar.clampUnit_eq, Scalar.positive_eq, Scalar.le_rat, Scalar.ofNat_rat,
    Scalar.sub_rat, Scalar.mul_rat, Scalar.div_rat, Scalar.ceil_rat, Nat.cast_zero, Nat.cast_one]
  by_cases hu : onset ≤ u
  · have hreached : onset ≤ max 0 (min u 1) := le_max_of_le_right (le_min hu hle)
    rw [if_pos hreached, share_of_le h hu, mul_zero, mul_zero, Nat.ceil_zero]
    rfl
  · have hu : u < onset := not_le.mp hu
    have hcut : max 0 (min u 1) = max 0 u := by rw [min_eq_left (by linarith)]
    rw [hcut, if_neg (not_le.mpr (max_lt h hu)), ← share_of_lt h hu,
      max_eq_left (mul_nonneg hp (share_nonneg onset u))]

/-- Both values fall as more of the budget is used. -/
theorem anneal_falls (n : Nat) {u v : ℚ} (huv : u ≤ v) :
    (anneal p n onset v).probability ≤ (anneal p n onset u).probability ∧
      (anneal p n onset v).retention ≤ (anneal p n onset u).retention := by
  have hshare : share onset v ≤ share onset u := share_antitone h huv
  rw [anneal_eq hp h hle, anneal_eq hp h hle]
  constructor
  · show p * share onset v ≤ p * share onset u
    gcongr
  · show max ⌈n * share onset v⌉₊ 1 ≤ max ⌈n * share onset u⌉₊ 1
    gcongr

/-- The first values are the greatest ones, and those at the onset the least. -/
theorem anneal_bounded {n : Nat} (hn : 1 ≤ n) (u : ℚ) :
    (0 ≤ (anneal p n onset u).probability ∧ (anneal p n onset u).probability ≤ p) ∧
      1 ≤ (anneal p n onset u).retention ∧ (anneal p n onset u).retention ≤ n := by
  have hnonneg : 0 ≤ share onset u := share_nonneg onset u
  have hone : share onset u ≤ 1 := share_le_one h u
  rw [anneal_eq hp h hle]
  refine ⟨⟨mul_nonneg hp hnonneg, mul_le_of_le_one_right hp hone⟩, le_max_right _ _, ?_⟩
  refine max_le (Nat.ceil_le.mpr ?_) hn
  exact mul_le_of_le_one_right (Nat.cast_nonneg n) hone

theorem anneal_zero (n : Nat) : anneal p n onset 0 = initial p n := by
  rw [anneal_eq hp h hle, share_zero, mul_one, mul_one, Nat.ceil_natCast]
  rfl

theorem anneal_of_le (n : Nat) {u : ℚ} (hu : onset ≤ u) : anneal p n onset u = ⟨0, 1⟩ := by
  rw [anneal_eq hp h hle, share_of_le h hu, mul_zero, mul_zero, Nat.ceil_zero]
  rfl

end

end SamplingPolicy

/-! ## Valid settings -/

namespace SearchSettings

/-- The policy once a part of the budget is used, computed without rounding. -/
def exactPolicyAt (s : SearchSettings) (progress : ℚ) : SamplingPolicy ℚ :=
  .anneal (exactly s.generation) s.retention (exactly s.onset) progress

/-- The first policy, without rounding. -/
def exactInitialPolicy (s : SearchSettings) : SamplingPolicy ℚ :=
  .initial (exactly s.generation) s.retention

/-- What valid settings stand for is in range. -/
theorem exactly_of_validate {s : SearchSettings} (hvalid : s.validate = .ok ()) :
    (0 ≤ exactly s.generation ∧ exactly s.generation ≤ 1) ∧ 1 ≤ s.retention ∧
      0 < exactly s.onset ∧ exactly s.onset ≤ 1 := by
  unfold validate at hvalid
  split at hvalid
  · cases hvalid
  · next hgeneration =>
    split at hvalid
    · cases hvalid
    · next hretention =>
      split at hvalid
      · cases hvalid
      · next honset =>
        simp only [Bool.not_eq_true', Bool.not_eq_false, Bool.and_eq_true,
          decide_eq_true_eq] at hgeneration honset
        exact ⟨Scalar.exactly_mem_unit hgeneration.1 hgeneration.2, by omega,
          Scalar.exactly_mem_unit_of_pos honset.1 honset.2⟩

/-- For valid settings the policy falls over the whole budget, within the first values; it starts
with the first policy, and from the onset on only the archive is used. -/
theorem exactPolicyAt_anneals (s : SearchSettings) (hvalid : s.validate = .ok ()) :
    (∀ u v, u ≤ v → (s.exactPolicyAt v).probability ≤ (s.exactPolicyAt u).probability ∧
      (s.exactPolicyAt v).retention ≤ (s.exactPolicyAt u).retention) ∧
    (∀ u, (0 ≤ (s.exactPolicyAt u).probability ∧
        (s.exactPolicyAt u).probability ≤ exactly s.generation) ∧
      1 ≤ (s.exactPolicyAt u).retention ∧ (s.exactPolicyAt u).retention ≤ s.retention) ∧
    s.exactPolicyAt 0 = s.exactInitialPolicy ∧
    ∀ u, exactly s.onset ≤ u → s.exactPolicyAt u = ⟨0, 1⟩ := by
  obtain ⟨⟨hp, -⟩, hretention, hpos, hone⟩ := exactly_of_validate hvalid
  refine ⟨?_, ?_, ?_, ?_⟩
  · intro u v huv
    exact SamplingPolicy.anneal_falls hp hpos hone s.retention huv
  · intro u
    exact SamplingPolicy.anneal_bounded hp hpos hone hretention u
  · exact SamplingPolicy.anneal_zero hp hpos hone s.retention
  · intro u hu
    exact SamplingPolicy.anneal_of_le hp hpos hone s.retention hu

/-- By default the onset is at half of the budget. -/
theorem exactly_default_onset : exactly default.onset = 1 / 2 := by
  have hunpack : default.onset.toModel.unpack = .finite .positive (2 ^ 52) (-53) (by decide) := rfl
  rw [exactly, hunpack]
  show (((2 ^ 52 : Nat) : Int) : ℚ) * 2 ^ (-53 : Int) = 1 / 2
  norm_num

theorem exactPolicyAt_anneals_default :
    default.validate = .ok () ∧
      (default.exactPolicyAt (2 / 5)).probability ≤ (default.exactPolicyAt (1 / 4)).probability ∧
      (default.exactPolicyAt (2 / 5)).retention ≤ (default.exactPolicyAt (1 / 4)).retention ∧
      default.exactPolicyAt (1 / 2) = ⟨0, 1⟩ := by
  have hvalid : default.validate = .ok () := rfl
  obtain ⟨hfalls, -, -, honset⟩ := exactPolicyAt_anneals default hvalid
  have hreached : exactly default.onset ≤ 1 / 2 := exactly_default_onset.le
  obtain ⟨hprobability, hretention⟩ := hfalls (1 / 4) (2 / 5) (by norm_num)
  exact ⟨hvalid, hprobability, hretention, honset (1 / 2) hreached⟩

end SearchSettings

end SuiteSearch
