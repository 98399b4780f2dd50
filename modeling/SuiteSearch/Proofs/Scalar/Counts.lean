import Mathlib
import SuiteSearch.Proofs.Scalar.Order
import SuiteSearch.Scalar

/-!
# Quotients of counts

Counts of at most 53 bits are floats without any loss.  Their quotient is rounded, but not as far as
to one: if it is one or more, then the first count is no smaller than the second.

    unpack_pack                 packing keeps a number whose mantissa has all its 53 bits
    roundWithAccuracy_bounds    the exponent of a quotient that is rounded
    unpack_count                the mantissa and the exponent of a count
    one_le_div_count            1 ≤ count a / count b ↔ b ≤ a
-/

namespace SuiteSearch.Scalar

open Float.Model (UnpackedFloat Format totalExponent)
open Float.Model.UnpackedFloat

/-! ## Packing -/

/-- A float whose exponent is that of neither the least nor the greatest ones. -/
theorem unpack_of_normal (b : BitVec 64) (hlow : (@unpackExponent .binary64 b).toNat ≠ 0)
    (hhigh : (@unpackExponent .binary64 b).toNat ≠ 2047) :
    ∃ h, UnpackedFloat.unpack .binary64 b = .finite (.ofBitVec (@unpackSign .binary64 b))
      (1#1 ++ @unpackMantissa .binary64 b).toNat
      ((@unpackExponent .binary64 b).toNat - 1075) h := by
  have hnot_greatest : @unpackExponent .binary64 b ≠ -1#11 := fun h => hhigh (by rw [h]; rfl)
  have hnot_least : @unpackExponent .binary64 b ≠ 0#11 := fun h => hlow (by rw [h]; rfl)
  have hpos : 0 < (1#1 ++ @unpackMantissa .binary64 b).toNat := by
    rw [BitVec.toNat_append]
    exact Nat.lt_of_lt_of_le (by decide) Nat.left_le_or
  have hbias : (Format.binary64.exponentBias : Int) + (52 : Nat) = 1075 := rfl
  unfold UnpackedFloat.unpack
  dsimp only
  rw [if_neg hnot_greatest, if_neg hnot_least]
  exact ⟨hpos, by rw [hbias]⟩

theorem toNat_significand (m : Nat) (hlow : 2 ^ 52 ≤ m) (hhigh : m < 2 ^ 53) :
    (1#1 ++ BitVec.ofNat 52 m).toNat = m := by
  rw [BitVec.toNat_append, BitVec.toNat_ofNat, BitVec.toNat_ofNat,
    ← Nat.shiftLeft_add_eq_or_of_lt (Nat.mod_lt _ (by decide))]
  omega

/-- Packing keeps numbers whose mantissa has all its bits. -/
theorem unpack_pack (m : Nat) (e : Int) (hm : 0 < m) (hlow : 2 ^ 52 ≤ m) (hhigh : m < 2 ^ 53)
    (helow : -1074 ≤ e) (hehigh : e ≤ 900) :
    (Float.Model.pack (.finite .positive m e hm)).unpack = .finite .positive m e hm := by
  have hlog : m.log2 = 52 := (Nat.log2_eq_iff (by omega)).mpr ⟨hlow, hhigh⟩
  obtain ⟨b, hb⟩ : ∃ b : Nat, (b : Int) = e + 1075 := ⟨(e + 1075).toNat, by omega⟩
  have hpack : UnpackedFloat.pack .binary64 (.finite .positive m e hm) =
      packComponents .binary64 .positive (BitVec.ofNat 11 b) (BitVec.ofNat 52 m) := by
    have hbiased : (e + (Format.binary64.exponentBias : Int) +
        (Format.binary64.mantissaBitsWithoutImplicit : Int)).toNat = b := by
      show (e + 1023 + 52).toNat = b
      omega
    unfold UnpackedFloat.pack
    rw [hbiased]
    dsimp only
    rw [if_neg (by show ¬ 2 ^ 11 ≤ b + 1; omega), if_pos (by rw [hlog]; rfl)]
  have hexponent : (@unpackExponent .binary64 (packComponents .binary64 .positive
      (BitVec.ofNat 11 b) (BitVec.ofNat 52 m))).toNat = b := by
    rw [unpackExponent_packComponents]
    show b % 2 ^ 11 = b
    omega
  show UnpackedFloat.unpack .binary64 (UnpackedFloat.pack .binary64 (.finite .positive m e hm)) = _
  rw [hpack]
  obtain ⟨h, hunpack⟩ := unpack_of_normal _ (by rw [hexponent]; omega) (by rw [hexponent]; omega)
  rw [hunpack, UnpackedFloat.finite.injEq, hexponent, unpackSign_packComponents,
    unpackMantissa_packComponents]
  exact ⟨rfl, toNat_significand m hlow hhigh, by omega⟩

/-! ## Rounding -/

theorem le_roundedMantissa (m : ExtendedMantissa) : m.mantissa ≤ m.roundedMantissa := by
  obtain ⟨mantissa, roundBit, stickyBit⟩ := m
  cases roundBit <;> cases stickyBit <;>
    simp [ExtendedMantissa.roundedMantissa, ExtendedMantissa.accuracy, Accuracy.roundToNearestEven]

theorem roundedMantissa_le (m : ExtendedMantissa) :
    m.roundedMantissa ≤ m.mantissa + m.roundBit.toNat := by
  obtain ⟨mantissa, roundBit, stickyBit⟩ := m
  cases roundBit <;> cases stickyBit <;>
    simp [ExtendedMantissa.roundedMantissa, ExtendedMantissa.accuracy, Accuracy.roundToNearestEven]
  omega

theorem mantissa_ofMantissaAndAccuracy (m : Nat) (a : Accuracy) :
    (ExtendedMantissa.ofMantissaAndAccuracy m a).mantissa = m := by
  rcases a with _ | _ | _ | _ <;> rfl

/-- A mantissa of 53 bits stays as it is, and one of 54 loses a bit. -/
theorem shiftToTargetExponent_eq (m k : Nat) (hk : k ≤ 1) (hlow : 2 ^ (52 + k) ≤ m)
    (hhigh : m < 2 ^ (53 + k)) (e : Int) (he : -1074 ≤ e) (a : Accuracy) :
    shiftToTargetExponent .binary64 m e a =
      (ExtendedMantissa.ofMantissaAndAccuracy m a >>> k, e + k) := by
  have hlog : m.log2 = 52 + k :=
    (Nat.log2_eq_iff (by have := Nat.two_pow_pos (52 + k); omega)).mpr ⟨hlow, by
      rw [show 52 + k + 1 = 53 + k by omega]; exact hhigh⟩
  have htarget : Format.binary64.targetExponent (totalExponent m e) = e + k := by
    unfold Format.targetExponent totalExponent
    rw [hlog]
    show max ((((52 + k : Nat) : Int) + 1 + e) - 53) (-1074) = e + k
    omega
  have hshift : (e + k - e).toNat = k := by omega
  unfold shiftToTargetExponent shiftToExponent
  rw [htarget]
  dsimp only
  rw [hshift]

/-- What is rounded to at most 53 bits keeps its exponent, unless it is rounded to the next power of
two. -/
theorem roundWithAccuracy_of_rounded (q k : Nat) (hk : k ≤ 1) (hlow : 2 ^ (52 + k) ≤ q)
    (hhigh : q < 2 ^ (53 + k)) (e : Int) (he : -1074 ≤ e) (a : Accuracy) (n : Nat)
    (hn : (ExtendedMantissa.ofMantissaAndAccuracy q a >>> k).roundedMantissa = n)
    (hnlow : 2 ^ 52 ≤ n) (hnhigh : n ≤ 2 ^ 53) :
    ∃ m j hm, roundWithAccuracy .binary64 .positive q e a = .finite .positive m (e + k + j) hm ∧
      2 ^ 52 ≤ m ∧ m < 2 ^ 53 ∧ 0 ≤ j ∧ j ≤ 1 ∧ (n < 2 ^ 53 → j = 0 ∧ m = n) := by
  obtain ⟨l, hl, hllow, hlhigh, hlzero⟩ : ∃ l : Nat, l ≤ 1 ∧ 2 ^ (52 + l) ≤ n ∧
      n < 2 ^ (53 + l) ∧ (n < 2 ^ 53 → l = 0) := by
    by_cases h : n < 2 ^ 53
    · exact ⟨0, by omega, hnlow, h, fun _ => rfl⟩
    · exact ⟨1, by omega, by omega, by omega, fun h' => absurd h' h⟩
  have hmantissa :
      (ExtendedMantissa.ofMantissaAndAccuracy n .exact >>> l).mantissa = n / 2 ^ l := by
    obtain rfl | rfl : l = 0 ∨ l = 1 := by omega
    · exact (Nat.div_one n).symm
    · rfl
  have hbounds : 2 ^ 52 ≤ n / 2 ^ l ∧ n / 2 ^ l < 2 ^ 53 := by
    obtain rfl | rfl : l = 0 ∨ l = 1 := by omega
    · rw [Nat.pow_zero, Nat.div_one]
      exact ⟨hllow, hlhigh⟩
    · omega
  have hpos : n / 2 ^ l ≠ 0 := by omega
  refine ⟨n / 2 ^ l, l, Nat.pos_of_ne_zero hpos, ?_, hbounds.1, hbounds.2, by omega, by omega,
    fun h => by rw [hlzero h]; exact ⟨rfl, Nat.div_one n⟩⟩
  unfold roundWithAccuracy
  rw [shiftToTargetExponent_eq q k hk hlow hhigh e he a]
  dsimp only
  rw [hn, shiftToTargetExponent_eq n l hl hllow hlhigh (e + k) (by omega) .exact]
  dsimp only
  rw [dif_neg (by rw [hmantissa]; exact hpos), UnpackedFloat.finite.injEq]
  exact ⟨rfl, hmantissa, rfl⟩

/-- A quotient of 53 or 54 bits, rounded. -/
theorem roundWithAccuracy_bounds (q : Nat) (hlow : 2 ^ 52 ≤ q) (hhigh : q + 2 ≤ 2 ^ 54) (e : Int)
    (he : -1074 ≤ e) (a : Accuracy) :
    ∃ m e' hm, roundWithAccuracy .binary64 .positive q e a = .finite .positive m e' hm ∧
      2 ^ 52 ≤ m ∧ m < 2 ^ 53 ∧ e ≤ e' ∧ e' ≤ e + 1 ∧ (q + 1 < 2 ^ 53 → e' = e) ∧
      (2 ^ 53 ≤ q → e' = e + 1) := by
  by_cases h : q < 2 ^ 53
  · have hle := le_roundedMantissa (ExtendedMantissa.ofMantissaAndAccuracy q a)
    have hge := roundedMantissa_le (ExtendedMantissa.ofMantissaAndAccuracy q a)
    have hbit := Bool.toNat_le (ExtendedMantissa.ofMantissaAndAccuracy q a).roundBit
    rw [mantissa_ofMantissaAndAccuracy] at hle hge
    obtain ⟨m, j, hm, hround, hmlow, hmhigh, hj, hj', hzero⟩ :=
      roundWithAccuracy_of_rounded q 0 (by omega) hlow h e he a _ rfl
        (Nat.le_trans hlow hle) (Nat.le_trans hge (by omega))
    refine ⟨m, _, hm, hround, hmlow, hmhigh, by omega, by omega, fun hq => ?_, by omega⟩
    have := (hzero (Nat.lt_of_le_of_lt hge (by omega))).1
    omega
  · have hle := le_roundedMantissa (ExtendedMantissa.ofMantissaAndAccuracy q a >>> 1)
    have hge := roundedMantissa_le (ExtendedMantissa.ofMantissaAndAccuracy q a >>> 1)
    have hmantissa : (ExtendedMantissa.ofMantissaAndAccuracy q a >>> 1).mantissa = q / 2 :=
      congrArg (· / 2) (mantissa_ofMantissaAndAccuracy q a)
    have hbit : (ExtendedMantissa.ofMantissaAndAccuracy q a >>> 1).roundBit.toNat = q % 2 := by
      show (((ExtendedMantissa.ofMantissaAndAccuracy q a).mantissa % 2) != 0).toNat = q % 2
      rw [mantissa_ofMantissaAndAccuracy]
      rcases Nat.mod_two_eq_zero_or_one q with h | h <;> rw [h] <;> rfl
    rw [hmantissa] at hle hge
    rw [hbit] at hge
    have hsmall : q / 2 + q % 2 < 2 ^ 53 := by omega
    obtain ⟨m, j, hm, hround, hmlow, hmhigh, hj, hj', hzero⟩ :=
      roundWithAccuracy_of_rounded q 1 (by omega) (by omega) (by omega) e he a _ rfl
        (Nat.le_trans (by omega) hle) (Nat.le_of_lt (Nat.lt_of_le_of_lt hge hsmall))
    have := (hzero (Nat.lt_of_le_of_lt hge hsmall)).1
    exact ⟨m, _, hm, hround, hmlow, hmhigh, by omega, by omega, by omega, by omega⟩

/-! ## Counts -/

/-- The mantissa of a count is filled up with zeros. -/
theorem ofNat_eq (n k : Nat) (hlow : 2 ^ k ≤ n) (hhigh : n < 2 ^ (k + 1)) (hk : k ≤ 52) :
    2 ^ 52 ≤ n * 2 ^ (52 - k) ∧ n * 2 ^ (52 - k) < 2 ^ 53 ∧ ∃ hm,
      UnpackedFloat.ofNat .binary64 n =
        .finite .positive (n * 2 ^ (52 - k)) ((k : Int) - 52) hm := by
  have hmlow : 2 ^ 52 ≤ n * 2 ^ (52 - k) := by
    calc 2 ^ 52 = 2 ^ k * 2 ^ (52 - k) := by rw [← Nat.pow_add]; congr 1; omega
      _ ≤ n * 2 ^ (52 - k) := Nat.mul_le_mul_right _ hlow
  have hmhigh : n * 2 ^ (52 - k) < 2 ^ 53 := by
    calc n * 2 ^ (52 - k) < 2 ^ (k + 1) * 2 ^ (52 - k) :=
          Nat.mul_lt_mul_of_pos_right hhigh (Nat.two_pow_pos _)
      _ = 2 ^ 53 := by rw [← Nat.pow_add]; congr 1; omega
  refine ⟨hmlow, hmhigh, ?_⟩
  have hpos : 0 < n := Nat.lt_of_lt_of_le (Nat.two_pow_pos k) hlow
  have htarget : Format.binary64.targetExponent (totalExponent n 0) = (k : Int) - 52 := by
    unfold Format.targetExponent totalExponent
    rw [(Nat.log2_eq_iff (Nat.ne_of_gt hpos)).mpr ⟨hlow, hhigh⟩]
    show max (((k : Int) + 1 + 0) - 53) (-1074) = (k : Int) - 52
    omega
  have hshift : decreaseExponent n 0 ((k : Int) - 52) = (n * 2 ^ (52 - k), (k : Int) - 52) := by
    have hamount : ((0 : Int) - ((k : Int) - 52)).toNat = 52 - k := by omega
    unfold decreaseExponent
    dsimp only
    rw [hamount, Nat.shiftLeft_eq]
    congr 1
    omega
  have hcompare : compare (n : Int) 0 = .gt := compare_gt_iff_gt.mpr (by omega)
  obtain ⟨m, j, hm, hround, -, -, -, -, hsame⟩ := roundWithAccuracy_of_rounded
    (n * 2 ^ (52 - k)) 0 (by omega) hmlow hmhigh ((k : Int) - 52) (by omega) .exact _ rfl hmlow
      (Nat.le_of_lt hmhigh)
  obtain ⟨rfl, rfl⟩ := hsame hmhigh
  have hround' : UnpackedFloat.ofNat .binary64 n = roundWithAccuracy .binary64 .positive
      (n * 2 ^ (52 - k)) ((k : Int) - 52) .exact := by
    unfold UnpackedFloat.ofNat UnpackedFloat.ofInt UnpackedFloat.normalize
    rw [hcompare]
    dsimp only
    unfold UnpackedFloat.round
    dsimp only
    rw [Int.toNat_natCast, htarget, hshift]
  refine ⟨hm, hround'.trans (hround.trans ?_)⟩
  congr 1
  omega

/-- A positive count of at most 53 bits is a number with a full mantissa. -/
theorem unpack_count (n : Nat) (hpos : 0 < n) (hle : n ≤ 2 ^ 53) :
    ∃ (m k : Nat) (hm : 0 < m), (count n).toModel.unpack = .finite .positive m ((k : Int) - 52) hm ∧
      2 ^ 52 ≤ m ∧ m < 2 ^ 53 ∧ k ≤ 53 ∧ n * 2 ^ 52 = m * 2 ^ k := by
  rcases Nat.lt_or_eq_of_le hle with hlt | rfl
  · have hbounds := (Nat.log2_eq_iff (Nat.ne_of_gt hpos)).mp rfl
    have hk : n.log2 ≤ 52 := Nat.lt_succ_iff.mp ((Nat.log2_lt (Nat.ne_of_gt hpos)).mpr hlt)
    obtain ⟨hlow, hhigh, hm, hof⟩ := ofNat_eq n n.log2 hbounds.1 hbounds.2 hk
    refine ⟨_, n.log2, hm, ?_, hlow, hhigh, by omega, ?_⟩
    · have htoNat : n.toUInt64.toNat = n := by
        rw [UInt64.toNat_ofNat']
        omega
      show (Float.Model.pack (UnpackedFloat.ofNat .binary64 n.toUInt64.toNat)).unpack = _
      rw [htoNat, hof]
      exact unpack_pack _ _ hm hlow hhigh (by omega) (by omega)
    · rw [Nat.mul_assoc, ← Nat.pow_add, Nat.sub_add_cancel hk]
  · exact ⟨2 ^ 52, 53, by decide, rfl, by decide, by decide, by decide, by decide⟩

/-! ## Quotients -/

/-- The quotient of two numbers with full mantissas, before it is rounded. -/
theorem divCore_eq (m n : Nat) (hm : 2 ^ 52 ≤ m ∧ m < 2 ^ 53) (hn : 2 ^ 52 ≤ n ∧ n < 2 ^ 53)
    (e f : Int) (hlow : -1000 ≤ e - f) :
    ∃ a, divCore .binary64 m e n f = (m * 2 ^ 53 / n, e - f - 53, a) := by
  have htotal : ∀ {m : Nat}, 2 ^ 52 ≤ m ∧ m < 2 ^ 53 → ∀ e, totalExponent m e = 53 + e := by
    intro m hm e
    unfold totalExponent
    rw [(Nat.log2_eq_iff (by omega)).mpr hm]
    rfl
  have htarget : min (e - f) (Format.binary64.targetExponent
      (totalExponent m e - totalExponent n f)) = e - f - 53 := by
    rw [htotal hm, htotal hn]
    show min (e - f) (max (53 + e - (53 + f) - 53) (-1074)) = e - f - 53
    omega
  have hshift : (e - f - (e - f - 53)).toNat = 53 := by omega
  unfold divCore
  dsimp only
  rw [htarget, hshift, Nat.shiftLeft_eq]
  exact ⟨_, rfl⟩

/-- A quotient of numbers with full mantissas by their exponents and mantissas: at least one if and
only if its exponent is. -/
theorem div_finite (m n : Nat) (hm : 2 ^ 52 ≤ m ∧ m < 2 ^ 53) (hn : 2 ^ 52 ≤ n ∧ n < 2 ^ 53)
    (e f : Int) (hlow : -100 ≤ e - f) (hhigh : e - f ≤ 100) (hmpos : 0 < m) (hnpos : 0 < n) :
    ∃ q j hq, UnpackedFloat.div .binary64 (.finite .positive m e hmpos)
        (.finite .positive n f hnpos) = .finite .positive q j hq ∧
      2 ^ 52 ≤ q ∧ q < 2 ^ 53 ∧ -200 ≤ j ∧ j ≤ 200 ∧
      (-52 ≤ j ↔ f < e ∨ e = f ∧ n ≤ m) := by
  obtain ⟨a, hcore⟩ := divCore_eq m n hm hn e f (by omega)
  have hqlow : 2 ^ 52 ≤ m * 2 ^ 53 / n := (Nat.le_div_iff_mul_le hnpos).mpr (by omega)
  have hqhigh : m * 2 ^ 53 / n < 2 ^ 54 - 1 := (Nat.div_lt_iff_lt_mul hnpos).mpr (by omega)
  have hless : m < n → m * 2 ^ 53 / n < 2 ^ 53 - 1 := fun h =>
    (Nat.div_lt_iff_lt_mul hnpos).mpr (by omega)
  have hmore : n ≤ m → 2 ^ 53 ≤ m * 2 ^ 53 / n := fun h =>
    (Nat.le_div_iff_mul_le hnpos).mpr (by omega)
  obtain ⟨q, j, hq, hround, hmlow, hmhigh, hjlow, hjhigh, hjless, hjmore⟩ :=
    roundWithAccuracy_bounds (m * 2 ^ 53 / n) hqlow (by omega) (e - f - 53) (by omega) a
  refine ⟨q, j, hq, ?_, hmlow, hmhigh, by omega, by omega, ?_⟩
  · show (match divCore .binary64 m e n f with
      | (m, e, acc) => roundWithAccuracy .binary64 (Sign.positive / Sign.positive) m e acc) = _
    rw [hcore]
    exact hround
  · rcases Nat.lt_or_ge m n with h | h
    · have := hjless (by have := hless h; omega)
      omega
    · have := hjmore (hmore h)
      omega

/-- Counts compare as their exponents and mantissas. -/
theorem le_iff_of_mul_eq {a b m n k l : Nat} (hm : 2 ^ 52 ≤ m ∧ m < 2 ^ 53)
    (hn : 2 ^ 52 ≤ n ∧ n < 2 ^ 53) (ha : a * 2 ^ 52 = m * 2 ^ k) (hb : b * 2 ^ 52 = n * 2 ^ l) :
    b ≤ a ↔ l < k ∨ k = l ∧ n ≤ m := by
  have hless : ∀ {a b m n k l : Nat}, m < 2 ^ 53 → 2 ^ 52 ≤ n → a * 2 ^ 52 = m * 2 ^ k →
      b * 2 ^ 52 = n * 2 ^ l → k < l → a < b := by
    intro a b m n k l hm hn ha hb hkl
    refine Nat.lt_of_mul_lt_mul_right (a := 2 ^ 52) ?_
    calc a * 2 ^ 52 = m * 2 ^ k := ha
      _ < 2 ^ 53 * 2 ^ k := Nat.mul_lt_mul_of_pos_right hm (Nat.two_pow_pos k)
      _ = 2 ^ 52 * 2 ^ (k + 1) := by rw [← Nat.pow_add, ← Nat.pow_add]; congr 1; omega
      _ ≤ n * 2 ^ l := Nat.mul_le_mul hn (Nat.pow_le_pow_right (by decide) hkl)
      _ = b * 2 ^ 52 := hb.symm
  rcases Nat.lt_trichotomy k l with h | rfl | h
  · have := hless hm.2 hn.1 ha hb h
    omega
  · have hscaled : b ≤ a ↔ n ≤ m := by
      rw [← Nat.mul_le_mul_right_iff (Nat.two_pow_pos 52), ha, hb,
        Nat.mul_le_mul_right_iff (Nat.two_pow_pos k)]
    rw [hscaled]
    omega
  · have := hless hn.2 hm.1 hb ha h
    omega

theorem unpack_div (x y : Float) : (x / y).toModel.unpack =
    (Float.Model.pack (UnpackedFloat.div .binary64 x.toModel.unpack y.toModel.unpack)).unpack :=
  rfl

theorem isNaN_eq (x : Float) : x.isNaN = x.toModel.unpack.isNaN := rfl

theorem unpack_zero_div (b : Nat) (hpos : 0 < b) (hb : b ≤ 2 ^ 53) :
    (count 0 / count b).toModel.unpack = .zero .positive := by
  obtain ⟨n, l, hn, hunpack, -⟩ := unpack_count b hpos hb
  have hcount : (count 0).toModel.unpack = .zero .positive := rfl
  have hdiv : UnpackedFloat.div .binary64 (.zero .positive)
      (.finite .positive n ((l : Int) - 52) hn) = .zero .positive := rfl
  rw [unpack_div, hunpack, hcount, hdiv]
  rfl

theorem unpack_div_count (a b : Nat) (hapos : 0 < a) (ha : a ≤ 2 ^ 53) (hbpos : 0 < b)
    (hb : b ≤ 2 ^ 53) :
    ∃ q j hq, (count a / count b).toModel.unpack = .finite .positive q j hq ∧ 2 ^ 52 ≤ q ∧
      (-52 ≤ j ↔ b ≤ a) := by
  obtain ⟨m, k, hmpos, hm, hmlow, hmhigh, hk, hmul⟩ := unpack_count a hapos ha
  obtain ⟨n, l, hnpos, hn, hnlow, hnhigh, hl, hnul⟩ := unpack_count b hbpos hb
  obtain ⟨q, j, hq, hdiv, hqlow, hqhigh, hjlow, hjhigh, hone⟩ := div_finite m n ⟨hmlow, hmhigh⟩
    ⟨hnlow, hnhigh⟩ ((k : Int) - 52) ((l : Int) - 52) (by omega) (by omega) hmpos hnpos
  refine ⟨q, j, hq, ?_, hqlow, ?_⟩
  · rw [unpack_div, hm, hn, hdiv]
    exact unpack_pack q j hq hqlow hqhigh (by omega) (by omega)
  · rw [le_iff_of_mul_eq ⟨hmlow, hmhigh⟩ ⟨hnlow, hnhigh⟩ hmul hnul]
    omega

/-- The quotient of two counts of at most 53 bits is at least one if and only if it should be. -/
theorem one_le_div_count (a b : Nat) (ha : a ≤ 2 ^ 53) (hpos : 0 < b) (hb : b ≤ 2 ^ 53) :
    (count a / count b).isNaN = false ∧ (1 ≤ count a / count b ↔ b ≤ a) := by
  have hplace : place 1 = toLex (1, toLex (-52, 2 ^ 52)) := rfl
  rcases Nat.eq_zero_or_pos a with rfl | hapos
  · have hunpack := unpack_zero_div b hpos hb
    have hnan : (count 0 / count b).isNaN = false := by
      rw [isNaN_eq, hunpack]
      rfl
    refine ⟨hnan, ?_⟩
    rw [le_iff rfl hnan, hplace, place, hunpack]
    have hnot : ¬ b ≤ 0 := by omega
    simp only [hnot, iff_false]
    decide
  · obtain ⟨q, j, hq, hunpack, hqlow, hj⟩ := unpack_div_count a b hapos ha hpos hb
    have hnan : (count a / count b).isNaN = false := by
      rw [isNaN_eq, hunpack]
      rfl
    refine ⟨hnan, ?_⟩
    rw [le_iff rfl hnan, hplace, place, hunpack, ← hj]
    show toLex ((1 : Int), toLex ((-52 : Int), (2 ^ 52 : Int))) ≤
      toLex (1, toLex (j, (q : Int))) ↔ _
    rw [Prod.Lex.toLex_le_toLex, Prod.Lex.toLex_le_toLex]
    omega

/-! ## Parts of a whole -/

/-- To cut off what is not from 0 to 1 does not hide that a number is at least one. -/
theorem one_le_clampUnit_larger {x : Float} (hx : x.isNaN = false) :
    1 ≤ clampUnit (larger x 0) ↔ 1 ≤ x := by
  have hzero : (0 : Float).isNaN = false := rfl
  have hone : (0 : Float) ≤ 1 := by decide
  have hself : x ≤ x := (le_iff hx hx).mpr (le_refl _)
  by_cases hneg : x < 0
  · have hnot : ¬ 1 ≤ x := fun h => (not_lt_iff hx hzero).mpr (le_of_le_of_le hone h) hneg
    have hlarger : larger x 0 = 0 := if_pos (by simp [lt, hneg])
    rw [hlarger]
    simp only [hnot, iff_false]
    decide
  · have hlarger : larger x 0 = x := if_neg (by simp [lt, le, hneg, hself])
    rw [hlarger]
    unfold clampUnit
    have hlt : ¬ lt x (ofNat 0) = true := fun h => hneg (of_decide_eq_true h)
    rw [if_neg hlt]
    split
    · next h =>
      have hmore : 1 < x := of_decide_eq_true h
      have hle : 1 ≤ x := (le_iff rfl hx).mpr (le_of_lt ((lt_iff rfl hx).mp hmore))
      simp only [hle, iff_true]
      decide
    · rfl

end SuiteSearch.Scalar
