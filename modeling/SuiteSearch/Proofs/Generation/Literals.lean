import Mathlib.Algebra.Ring.Int.Defs
import Mathlib.Algebra.Ring.Nat
import SuiteSearch.Generation.Literal
import SuiteSearch.Proofs.Random.Outcome

/-!
# Literals stay within their type

A random constant has the kind of its type, and a whole number its range. Small changes keep both,
whatever words are drawn, and so does any number of them.

    random?_fits       a first constant
    editText_oneEdit   a text is changed at one place
    perturb_nudged     one change: how far it goes, and when it may be none
    perturbed_fits     any number of changes
-/

namespace SuiteSearch

/-- The number of bits of a whole number. -/
def Primitive.bits? : Primitive → Option Nat
  | byte => some 8
  | short => some 16
  | int => some 32
  | long => some 64
  | boolean | char | float | double => none

namespace Literal

/-! ## Kinds, ranges and changes -/

/-- The literal is a value of the primitive type. -/
inductive IsOf : Primitive → Literal → Prop
  | bool (b : Bool) : IsOf .boolean (.bool b)
  | char (c : Char) : IsOf .char (.char c)
  | float (x : UInt64) : IsOf .float (.float x)
  | double (x : UInt64) : IsOf .double (.float x)
  | int {p : Primitive} {bits : Nat} {n : Int} (hbits : p.bits? = some bits)
      (hlow : -2 ^ (bits - 1) ≤ n) (hhigh : n ≤ 2 ^ (bits - 1) - 1) : IsOf p (.int n)

/-- The literal is a value of the primitive that the type holds, boxed or not, or a text if that is
what the type holds. -/
def Fits (t : Ty) (l : Literal) : Prop :=
  match t.underlying with
  | some p => IsOf p l
  | none => t.isString = true ∧ ∃ s, l = .text s

/-- One character is inserted, deleted, or replaced by another one. -/
inductive OneEdit : List Char → List Char → Prop
  | insertion (c : Char) (cs : List Char) : OneEdit cs (c :: cs)
  | deletion (c : Char) (cs : List Char) : OneEdit (c :: cs) cs
  | substitution {c d : Char} (hne : d ≠ c) (cs : List Char) : OneEdit (c :: cs) (d :: cs)
  | later (c : Char) {cs ds : List Char} (h : OneEdit cs ds) : OneEdit (c :: cs) (c :: ds)

/-- A small change: a boolean is flipped, a whole number moved by at most 20, and moved at all unless
it is the least or the greatest one of its type, and a text edited at one place. -/
inductive Nudged (t : Ty) : Literal → Literal → Prop
  | bool (b : Bool) : Nudged t (.bool b) (.bool !b)
  | char (c d : Char) : Nudged t (.char c) (.char d)
  | float (x y : UInt64) : Nudged t (.float x) (.float y)
  | int {p : Primitive} {bits : Nat} {n m : Int} (hp : t.underlying = some p)
      (hbits : p.bits? = some bits) (hnear : (m - n).natAbs ≤ 20)
      (hmoved : m ≠ n ∨ n = -2 ^ (bits - 1) ∨ n = 2 ^ (bits - 1) - 1) :
      Nudged t (.int n) (.int m)
  | text {s r : String} (hne : r ≠ s) (hedit : OneEdit s.toList r.toList) :
      Nudged t (.text s) (.text r)

/-- A random constant of a type, or what it is after some changes, with any words in between. -/
inductive Perturbed (ω : Type) [WordSource ω] (t : Ty) : Literal → Prop
  | first {l : Literal} (w : ω) (h : (random? t w).1 = some l) : Perturbed ω t l
  | next {l : Literal} (w : ω) (h : Perturbed ω t l) : Perturbed ω t (perturb t l w).1

/-! ## Texts -/

theorem OneEdit.ne {cs ds : List Char} (h : OneEdit cs ds) : ds ≠ cs := by
  induction h with
  | insertion c cs => exact List.cons_ne_self c cs
  | deletion c cs => exact (List.cons_ne_self c cs).symm
  | substitution hne cs => exact fun h => hne (List.cons.inj h).1
  | later c h ih => exact fun h => ih (List.cons.inj h).2

theorem oneEdit_eraseIdx {cs : List Char} {i : Nat} (hi : i < cs.length) :
    OneEdit cs (cs.eraseIdx i) := by
  induction cs generalizing i with
  | nil => cases hi
  | cons c cs ih =>
    cases i with
    | zero => exact .deletion c cs
    | succ i => exact .later c (ih (Nat.lt_of_succ_lt_succ hi))

theorem oneEdit_insertIdx {cs : List Char} {i : Nat} (hi : i ≤ cs.length) (d : Char) :
    OneEdit cs (cs.insertIdx i d) := by
  induction i generalizing cs with
  | zero => exact .insertion d cs
  | succ i ih =>
    cases cs with
    | nil => cases hi
    | cons c cs => exact .later c (ih (Nat.le_of_succ_le_succ hi))

theorem oneEdit_set {cs : List Char} {i : Nat} (hi : i < cs.length) {d e : Char}
    (hne : d ≠ cs.getD i e) : OneEdit cs (cs.set i d) := by
  induction cs generalizing i with
  | nil => cases hi
  | cons c cs ih =>
    cases i with
    | zero => exact .substitution hne cs
    | succ i => exact .later c (ih (Nat.lt_of_succ_lt_succ hi) hne)

variable {ω : Type} [WordSource ω]

/-- A letter is not followed by itself. -/
theorem next_letter_ne :
    ∀ x < 26, Char.ofNat ((Char.ofNat (97 + x)).toNat + 1) ≠ Char.ofNat (97 + x) := by
  decide

theorem otherLetter_ne (current : Char) :
    Draw.Gives (otherLetter current : Draw ω Char) fun c => c ≠ current := by
  refine Draw.Gives.letter.bind fun c hc => .pure ?_
  split
  · next h => exact h
  · next h =>
    have hcurrent : c = current := Decidable.not_not.mp h
    rw [← hcurrent]
    split
    · next hz =>
      rw [hz]
      decide
    · obtain ⟨x, hx, rfl⟩ := hc
      exact next_letter_ne x hx

theorem editText_oneEdit (cs : List Char) :
    Draw.Gives (editText cs : Draw ω (List Char)) (OneEdit cs) := by
  refine (Draw.Gives.any (Draw.belowSmall 3)).bind fun kind _ => ?_
  split
  · exact (Draw.Gives.below (Nat.zero_lt_succ _)).bind fun i hi => .pure (oneEdit_eraseIdx hi)
  · refine (Draw.Gives.below (Nat.zero_lt_succ _)).bind fun i hi => ?_
    exact (otherLetter_ne _).bind fun d hd => .pure (oneEdit_set hi hd)
  · refine (Draw.Gives.below (Nat.zero_lt_succ _)).bind fun i hi => ?_
    exact (Draw.Gives.any Draw.letter).bind fun c _ =>
      .pure (oneEdit_insertIdx (Nat.le_of_lt_succ hi) c)

/-! ## Whole numbers -/

/-- The table of least and greatest numbers, by the number of bits. -/
theorem range_eq {p : Primitive} {bits : Nat} (h : p.bits? = some bits) :
    range p = (-2 ^ (bits - 1), 2 ^ (bits - 1) - 1) := by
  cases p <;> cases h <;> rfl

/-- The ranges lie between those of the shortest and the longest whole numbers. -/
theorem half_bounds {p : Primitive} {bits : Nat} (h : p.bits? = some bits) :
    (128 : Int) ≤ 2 ^ (bits - 1) ∧ (2 : Int) ^ (bits - 1) ≤ 2 ^ 63 := by
  cases p <;> cases h <;> decide

theorem IsOf.small {p : Primitive} {bits : Nat} (h : p.bits? = some bits) {n : Int}
    (hlow : -100 ≤ n) (hhigh : n ≤ 100) : IsOf p (.int n) := by
  have hhalf := half_bounds h
  exact .int h (by omega) (by omega)

theorem isOf_boundary {p : Primitive} {bits : Nat} (h : p.bits? = some bits) {n : Int}
    (hn : n ∈ boundaries p) : IsOf p (.int n) := by
  have hhalf := half_bounds h
  unfold boundaries at hn
  rw [range_eq h] at hn
  simp only [List.mem_cons, List.not_mem_nil, or_false] at hn
  rcases hn with rfl | rfl | rfl | rfl | rfl
  · exact .small h (by decide) (by decide)
  · exact .small h (by decide) (by decide)
  · exact .small h (by decide) (by decide)
  · exact .int h (by omega) (by omega)
  · exact .int h (by omega) (by omega)

theorem randomInt_isOf {p : Primitive} {bits : Nat} (h : p.bits? = some bits) :
    Draw.Gives (randomInt p : Draw ω Literal) (IsOf p) := by
  refine (Draw.Gives.any (Draw.coin .tenth)).bind fun atBoundary _ => ?_
  split
  · refine (Draw.Gives.choose (boundaries p)).bind fun n hn => .pure ?_
    cases n with
    | none => exact .small h (by decide) (by decide)
    | some n => exact isOf_boundary h (hn n rfl)
  · exact (Draw.Gives.between (by decide)).bind fun n hn => .pure (.small h hn.1 hn.2)

theorem delta_gives :
    Draw.Gives (delta : Draw ω Int) fun d => d ≠ 0 ∧ -20 ≤ d ∧ d ≤ 20 := by
  refine (Draw.Gives.between (by decide)).bind fun d hd => .pure ?_
  unfold maxDelta at hd
  split <;> omega

/-- A number in range is moved by the change, as far as the range goes. The bounds of the longest
whole numbers, which the sum is cut at first, lie no closer. -/
theorem clamp_moved {half n d : Int} (hhalf : 128 ≤ half ∧ half ≤ 2 ^ 63)
    (hn : -half ≤ n ∧ n ≤ half - 1) (hd : d ≠ 0 ∧ -20 ≤ d ∧ d ≤ 20) :
    let m := clamp (-half, half - 1) (clamp (range .long) (n + d))
    (-half ≤ m ∧ m ≤ half - 1) ∧ (m - n).natAbs ≤ 20 ∧ (m ≠ n ∨ n = -half ∨ n = half - 1) := by
  simp only [clamp, range]
  omega

/-! ## Literals -/

theorem randomFloat_gives :
    Draw.Gives (randomFloat : Draw ω Literal) fun l => ∃ x, l = .float x := by
  refine (Draw.Gives.any (Draw.coin .tenth)).bind fun atBoundary _ => ?_
  split
  · exact (Draw.Gives.any (Draw.choose floatBoundaries)).bind fun x _ => .pure ⟨_, rfl⟩
  · exact (Draw.Gives.any (Draw.float (-100) 100)).bind fun x _ => .pure ⟨_, rfl⟩

theorem randomOf_isOf (p : Primitive) : Draw.Gives (randomOf p : Draw ω Literal) (IsOf p) := by
  cases p with
  | boolean => exact (Draw.Gives.any (Draw.coin .half)).bind fun b _ => .pure (.bool b)
  | char => exact (Draw.Gives.any Draw.letter).bind fun c _ => .pure (.char c)
  | float =>
    refine randomFloat_gives.mono ?_
    rintro _ ⟨x, rfl⟩
    exact .float x
  | double =>
    refine randomFloat_gives.mono ?_
    rintro _ ⟨x, rfl⟩
    exact .double x
  | byte => exact randomInt_isOf (p := .byte) rfl
  | short => exact randomInt_isOf (p := .short) rfl
  | int => exact randomInt_isOf (p := .int) rfl
  | long => exact randomInt_isOf (p := .long) rfl

/-- A type with literals gets one of its own, and no other type gets any. -/
theorem random?_fits (t : Ty) :
    Draw.Gives (random? t : Draw ω (Option Literal)) fun l =>
      l.isSome = hasLiteral t ∧ ∀ v, l = some v → Fits t v := by
  unfold random? Fits hasLiteral
  cases ht : t.underlying with
  | some p =>
    refine (randomOf_isOf p).bind fun l hl => .pure ⟨by simp, ?_⟩
    rintro _ ⟨⟩
    exact hl
  | none =>
    cases hstring : t.isString with
    | false =>
      refine .pure ⟨rfl, ?_⟩
      rintro _ ⟨⟩
    | true =>
      refine (Draw.Gives.any randomText).bind fun s _ => .pure ⟨rfl, ?_⟩
      rintro _ ⟨⟩
      exact ⟨rfl, s, rfl⟩

/-- One change keeps the kind and the range, and is a small one. -/
theorem perturb_nudged {t : Ty} {l : Literal} (h : Fits t l) :
    Draw.Gives (perturb t l : Draw ω Literal) fun m => Fits t m ∧ Nudged t l m := by
  unfold Fits at h
  cases ht : t.underlying with
  | none =>
    rw [ht] at h
    obtain ⟨hstring, s, rfl⟩ := h
    refine (editText_oneEdit s.toList).bind fun cs hcs => .pure ⟨?_, .text ?_ ?_⟩
    · unfold Fits
      rw [ht]
      exact ⟨hstring, String.ofList cs, rfl⟩
    · intro hsame
      exact hcs.ne (by rw [← hsame, String.toList_ofList])
    · rw [String.toList_ofList]
      exact hcs
  | some p =>
    rw [ht] at h
    have hfits : ∀ m, IsOf p m → Fits t m := by
      intro m hm
      unfold Fits
      rw [ht]
      exact hm
    cases h with
    | bool b => exact .pure ⟨hfits _ (.bool _), .bool b⟩
    | char c =>
      exact (Draw.Gives.any Draw.letter).bind fun d _ => .pure ⟨hfits _ (.char d), .char c d⟩
    | float x =>
      exact (Draw.Gives.any (Draw.float (-1) 1)).bind fun y _ =>
        .pure ⟨hfits _ (.float _), .float x _⟩
    | double x =>
      exact (Draw.Gives.any (Draw.float (-1) 1)).bind fun y _ =>
        .pure ⟨hfits _ (.double _), .float x _⟩
    | int hbits hlow hhigh =>
      refine delta_gives.bind fun d hd => .pure ?_
      obtain ⟨hrange, hnear, hmoved⟩ := clamp_moved (half_bounds hbits) ⟨hlow, hhigh⟩ hd
      rw [ht, Option.elim_some, range_eq hbits]
      exact ⟨hfits _ (.int hbits hrange.1 hrange.2), .int ht hbits hnear hmoved⟩

/-- The types with literals get one, whatever words are drawn. It keeps the kind and the range of its
type through any number of changes, and every change to such a literal is a small one. -/
theorem perturbed_fits (ω : Type) [WordSource ω] (t : Ty) :
    (∀ w : ω, (random? t w).1.isSome = hasLiteral t) ∧
    (∀ l, Perturbed ω t l → Fits t l) ∧
    ∀ l (w : ω), Fits t l → Fits t (perturb t l w).1 ∧ Nudged t l (perturb t l w).1 := by
  have hfirst : Draw.Gives (random? t : Draw ω (Option Literal)) fun l =>
      l.isSome = hasLiteral t ∧ ∀ v, l = some v → Fits t v := random?_fits t
  have hnext : ∀ l (w : ω), Fits t l →
      Fits t (perturb t l w).1 ∧ Nudged t l (perturb t l w).1 :=
    fun l w hl => perturb_nudged hl w
  refine ⟨fun w => (hfirst w).1, fun l hl => ?_, hnext⟩
  induction hl with
  | first w hw => exact (hfirst w).2 _ hw
  | next w _ ih => exact (hnext _ w ih).1

end Literal

end SuiteSearch
