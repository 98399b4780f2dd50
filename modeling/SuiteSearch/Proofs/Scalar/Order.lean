import Mathlib.Algebra.Order.Group.Int
import Mathlib.Data.Prod.Lex
import Mathlib.Order.Compare

/-!
# The order of floats

A float that is not a NaN has a place among the triples of integers in lexicographic order, and the
comparisons of floats are those of their places. What needs a linear order is proved there.

    x < y ↔ place x < place y         (lt_iff)
    x ≤ y ↔ place x ≤ place y         (le_iff)
    x == y ↔ place x = place y        (beq_iff)
-/

namespace SuiteSearch.Scalar

open Float.Model (UnpackedFloat)

/-! ## Numbers taken apart -/

/-- Sign, exponent and mantissa of a number; of a negative number the greater come first. -/
def placeOf : UnpackedFloat → Int ×ₗ Int ×ₗ Int
  | .infinity .negative => toLex (-2, toLex (0, 0))
  | .finite .negative m e _ => toLex (-1, toLex (-e, -m))
  | .zero _ | .notANumber => toLex (0, toLex (0, 0))
  | .finite .positive m e _ => toLex (1, toLex (e, m))
  | .infinity .positive => toLex (2, toLex (0, 0))

theorem compare_toLex {α β : Type} [LinearOrder α] [LinearOrder β] (a c : α) (b d : β) :
    compare (toLex (a, b)) (toLex (c, d)) = (compare a c).then (compare b d) := by
  rw [Prod.Lex.compare_def]
  rfl

theorem compare_neg (m n : Int) : compare (-m) (-n) = (compare m n).swap := by
  rw [Int.compare_swap, ← cmp_eq_compare, ← cmp_eq_compare]
  have hanti : StrictAnti fun k : Int => -k := fun _ _ h => Int.neg_lt_neg h
  exact hanti.cmp_map_eq m n

theorem compare_cast (m n : Nat) : compare (m : Int) n = compare m n := by
  rw [← cmp_eq_compare, ← cmp_eq_compare]
  have hmono : StrictMono fun k : Nat => (k : Int) := fun _ _ h => Int.ofNat_lt.mpr h
  exact hmono.cmp_map_eq m n

/-- Two numbers compare as their places do. -/
theorem compare_eq (a b : UnpackedFloat) (ha : a.isNaN = false) (hb : b.isNaN = false) :
    a.compare b = some (compare (placeOf a) (placeOf b)) := by
  cases a with
  | notANumber => cases ha
  | infinity s =>
    cases b with
    | notANumber => cases hb
    | infinity t => cases s <;> cases t <;> rfl
    | zero t => cases s <;> rfl
    | finite t m e h =>
      cases s <;> cases t <;> dsimp only [placeOf] <;> rw [compare_toLex] <;> rfl
  | zero s =>
    cases b with
    | notANumber => cases hb
    | infinity t => cases s <;> cases t <;> rfl
    | zero t => cases s <;> rfl
    | finite t m e h =>
      cases s <;> cases t <;> dsimp only [placeOf] <;> rw [compare_toLex] <;> rfl
  | finite s m e h =>
    cases b with
    | notANumber => cases hb
    | infinity t =>
      cases s <;> cases t <;> dsimp only [placeOf] <;> rw [compare_toLex] <;> rfl
    | zero t =>
      cases s <;> dsimp only [placeOf] <;> rw [compare_toLex] <;> rfl
    | finite t n f h' =>
      cases s <;> cases t
      -- Of two negative numbers the one with the greater exponent and mantissa is less.
      · dsimp only [UnpackedFloat.compare, placeOf]
        simp only [compare_toLex, compare_neg, compare_cast, Ordering.swap_then]
        rfl
      · dsimp only [placeOf]
        rw [compare_toLex]
        rfl
      · dsimp only [placeOf]
        rw [compare_toLex]
        rfl
      · dsimp only [UnpackedFloat.compare, placeOf]
        rw [compare_toLex, compare_toLex, compare_cast]
        rfl

/-! ## Floats -/

/-- The place of a float; that of a NaN means nothing. -/
def place (x : Float) : Int ×ₗ Int ×ₗ Int := placeOf x.toModel.unpack

variable {x y : Float}

theorem lt_iff (hx : x.isNaN = false) (hy : y.isNaN = false) : x < y ↔ place x < place y := by
  have hcompare := compare_eq x.toModel.unpack y.toModel.unpack hx hy
  have hmodel : x < y ↔ (x.toModel.unpack.compare y.toModel.unpack == some .lt) = true :=
    decide_eq_true_iff
  rw [hmodel, hcompare, beq_iff_eq, Option.some.injEq, compare_lt_iff_lt]
  rfl

theorem beq_iff (hx : x.isNaN = false) (hy : y.isNaN = false) :
    (x == y) = true ↔ place x = place y := by
  have hcompare := compare_eq x.toModel.unpack y.toModel.unpack hx hy
  show (x.toModel.unpack.compare y.toModel.unpack == some .eq) = true ↔ _
  rw [hcompare, beq_iff_eq, Option.some.injEq, compare_eq_iff_eq]
  rfl

theorem le_iff (hx : x.isNaN = false) (hy : y.isNaN = false) : x ≤ y ↔ place x ≤ place y := by
  have hcompare := compare_eq x.toModel.unpack y.toModel.unpack hx hy
  have hmodel : x ≤ y ↔
      (x.toModel.unpack.compare y.toModel.unpack).any Ordering.isLE = true :=
    decide_eq_true_iff
  rw [hmodel, hcompare, ← compare_le_iff_le, Option.any_some, Ordering.isLE_iff_ne_gt]
  rfl

theorem isNaN_of_le (h : x ≤ y) : x.isNaN = false ∧ y.isNaN = false := by
  have hmodel : (x.toModel.unpack.compare y.toModel.unpack).any Ordering.isLE = true :=
    of_decide_eq_true h
  constructor
  · show x.toModel.unpack.isNaN = false
    cases hx : x.toModel.unpack with
    | notANumber =>
      rw [hx] at hmodel
      cases hmodel
    | _ => rfl
  · show y.toModel.unpack.isNaN = false
    cases hy : y.toModel.unpack with
    | notANumber =>
      rw [hy] at hmodel
      cases hx : x.toModel.unpack <;> rw [hx] at hmodel <;> cases hmodel
    | _ => rfl

theorem le_of_le_of_le {z : Float} (hxy : x ≤ y) (hyz : y ≤ z) : x ≤ z := by
  obtain ⟨hx, hy⟩ := isNaN_of_le hxy
  have hz := (isNaN_of_le hyz).2
  rw [le_iff hx hz]
  exact le_trans ((le_iff hx hy).mp hxy) ((le_iff hy hz).mp hyz)

theorem not_lt_iff (hx : x.isNaN = false) (hy : y.isNaN = false) : ¬ x < y ↔ y ≤ x := by
  rw [lt_iff hx hy, le_iff hy hx, not_lt]

end SuiteSearch.Scalar
