import Mathlib.Algebra.Order.Field.Rat
import Mathlib.Algebra.Order.Floor.Semiring
import Mathlib.Algebra.Order.Field.Power
import Mathlib.Data.Rat.Floor
import Mathlib.Tactic.GCongr
import Mathlib.Tactic.Linarith
import Mathlib.Tactic.Positivity
import SuiteSearch.Proofs.Scalar.Order
import SuiteSearch.Scalar

/-!
# Exact numbers

Fractions computed with rational numbers, and the rational number that a float stands for.

    clampUnit_eq, positive_eq     what is cut off
    exactly_mem_unit              what a float from 0 to 1 stands for is from 0 to 1
    exactly_mem_unit_of_pos       and it is not 0 if the float is not
-/

namespace SuiteSearch.Scalar

open Float.Model (UnpackedFloat)

/-! ## Rational numbers -/

instance : Scalar ℚ where
  ofNat n := n
  sub := (· - ·)
  mul := (· * ·)
  div := (· / ·)
  le x y := x ≤ y
  lt x y := x < y
  ceil x := ⌈x⌉₊

section

variable (x y : ℚ)

@[simp] theorem ofNat_rat (n : Nat) : (ofNat n : ℚ) = n := rfl

@[simp] theorem sub_rat : sub x y = x - y := rfl

@[simp] theorem mul_rat : mul x y = x * y := rfl

@[simp] theorem div_rat : div x y = x / y := rfl

@[simp] theorem le_rat : le x y = true ↔ x ≤ y := decide_eq_true_iff

@[simp] theorem lt_rat : lt x y = true ↔ x < y := decide_eq_true_iff

@[simp] theorem ceil_rat : ceil x = ⌈x⌉₊ := rfl

theorem clampUnit_eq : clampUnit x = max 0 (min x 1) := by
  simp only [clampUnit, lt_rat, ofNat_rat, Nat.cast_zero, Nat.cast_one]
  split
  · next h => rw [min_eq_left (by linarith), max_eq_left h.le]
  · next h =>
    split
    · next h' => rw [min_eq_right h'.le, max_eq_right zero_le_one]
    · next h' => rw [min_eq_left (not_lt.mp h'), max_eq_right (not_lt.mp h)]

theorem positive_eq : positive x = max x 0 := by
  simp only [positive, lt_rat, ofNat_rat, Nat.cast_zero]
  split
  · next h => exact (max_eq_left h.le).symm
  · next h => exact (max_eq_right (not_lt.mp h)).symm

end

/-! ## What floats stand for -/

/-- The number that is taken apart; infinities and NaNs stand for none, here 0. -/
def valueOf : UnpackedFloat → ℚ
  | .finite s m e _ => s.apply m * 2 ^ e
  | _ => 0

/-- The number that a float stands for. -/
def exactly (x : Float) : ℚ := valueOf x.toModel.unpack

/-- A mantissa has at most 53 bits. -/
theorem mantissa_lt {x : Float} {s : UnpackedFloat.Sign} {m : Nat} {e : Int} {hm : 0 < m}
    (h : x.toModel.unpack = .finite s m e hm) : m < 2 ^ 53 := by
  have h : UnpackedFloat.unpack .binary64 x.toModel.toBits.toBitVec = .finite s m e hm := h
  unfold UnpackedFloat.unpack at h
  dsimp only at h
  generalize x.toModel.toBits.toBitVec = b at h
  by_cases hgreatest : @UnpackedFloat.unpackExponent .binary64 b = -1#11
  · rw [if_pos hgreatest] at h
    by_cases hzero : @UnpackedFloat.unpackMantissa .binary64 b = 0#52
    · rw [if_pos hzero] at h
      cases h
    · rw [if_neg hzero] at h
      cases h
  · rw [if_neg hgreatest] at h
    by_cases hleast : @UnpackedFloat.unpackExponent .binary64 b = 0#11
    · rw [if_pos hleast] at h
      by_cases hzero : @UnpackedFloat.unpackMantissa .binary64 b = 0#52
      · rw [dif_pos hzero] at h
        cases h
      · rw [dif_neg hzero] at h
        obtain ⟨-, rfl, -⟩ := UnpackedFloat.finite.inj h
        exact Nat.lt_trans (BitVec.isLt _) (by decide)
    · rw [if_neg hleast] at h
      obtain ⟨-, rfl, -⟩ := UnpackedFloat.finite.inj h
      exact BitVec.isLt _

/-- A float from 0 to 1 is a zero, or its exponent and mantissa come no later than those of 1. -/
theorem unpack_unit {x : Float} (h : 0 ≤ x) (hle : x ≤ 1) :
    (∃ s, x.toModel.unpack = .zero s) ∨ ∃ m e hm, x.toModel.unpack = .finite .positive m e hm ∧
      (e < -52 ∨ e = -52 ∧ m ≤ 2 ^ 52) := by
  have hnan := (isNaN_of_le h).2
  have hnan' : x.toModel.unpack.isNaN = false := hnan
  have hzero : place 0 = toLex (0, toLex (0, 0)) := rfl
  have hone : place 1 = toLex (1, toLex (-52, 2 ^ 52)) := rfl
  rw [le_iff rfl hnan, hzero, place] at h
  rw [le_iff hnan rfl, hone, place] at hle
  cases hx : x.toModel.unpack with
  | notANumber =>
    rw [hx] at hnan'
    cases hnan'
  | zero s => exact .inl ⟨s, rfl⟩
  | infinity s =>
    rw [hx] at h hle
    cases s with
    | negative => exact absurd h (by decide)
    | positive => exact absurd hle (by decide)
  | finite s m e hm =>
    rw [hx] at h hle
    cases s with
    | negative =>
      dsimp only [placeOf] at h
      rw [Prod.Lex.toLex_le_toLex, Prod.Lex.toLex_le_toLex] at h
      omega
    | positive =>
      dsimp only [placeOf] at hle
      rw [Prod.Lex.toLex_le_toLex, Prod.Lex.toLex_le_toLex] at hle
      exact .inr ⟨m, e, hm, rfl, by omega⟩

theorem exactly_mem_unit {x : Float} (h : 0 ≤ x) (hle : x ≤ 1) :
    0 ≤ exactly x ∧ exactly x ≤ 1 := by
  unfold exactly
  rcases unpack_unit h hle with ⟨s, hx⟩ | ⟨m, e, hm, hx, hplace⟩
  · rw [hx]
    exact ⟨le_refl 0, zero_le_one⟩
  · have hbound := mantissa_lt hx
    rw [hx]
    show 0 ≤ (((m : Int) : ℚ) * 2 ^ e) ∧ (((m : Int) : ℚ) * 2 ^ e) ≤ 1
    refine ⟨by positivity, ?_⟩
    -- A greater mantissa than that of 1 comes with a smaller exponent.
    obtain ⟨k, hk, hmk⟩ : ∃ k : Nat, e ≤ -(k : Int) ∧ m ≤ 2 ^ k := by
      rcases hplace with h | ⟨rfl, h⟩
      · exact ⟨53, by omega, by omega⟩
      · exact ⟨52, by omega, h⟩
    calc ((m : Int) : ℚ) * 2 ^ e ≤ 2 ^ k * 2 ^ (-(k : Int)) := by
          gcongr
          · exact_mod_cast hmk
          · norm_num
      _ = 1 := by rw [zpow_neg, zpow_natCast, mul_inv_cancel₀ (by positivity)]

theorem exactly_mem_unit_of_pos {x : Float} (h : 0 < x) (hle : x ≤ 1) :
    0 < exactly x ∧ exactly x ≤ 1 := by
  have hnan := (isNaN_of_le hle).1
  have hplace : place 0 < place x := (lt_iff rfl hnan).mp h
  have hnonneg : 0 ≤ x := (le_iff rfl hnan).mpr hplace.le
  refine ⟨?_, (exactly_mem_unit hnonneg hle).2⟩
  unfold exactly
  rcases unpack_unit hnonneg hle with ⟨s, hx⟩ | ⟨m, e, hm, hx, -⟩
  · rw [place, place, hx] at hplace
    exact absurd hplace (lt_irrefl _)
  · rw [hx]
    show 0 < (((m : Int) : ℚ) * 2 ^ e)
    positivity

end SuiteSearch.Scalar
