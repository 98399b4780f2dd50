/-!
# Sorted lists without repetitions

A finite set is a list in the order that `precedes` gives, each element once.

    mem_insert    y ∈ insert precedes x l ↔ y = x ∨ y ∈ l      (a total order)
-/

namespace SuiteSearch.Sorted

variable {α : Type}

/-- Puts an element at its place unless it is there already. -/
def insert (precedes : α → α → Bool) (x : α) : List α → List α
  | [] => [x]
  | y :: rest =>
    if precedes x y then x :: y :: rest
    else if precedes y x then y :: insert precedes x rest
    else y :: rest

/-- Puts all elements of a list at their places. -/
def insertAll (precedes : α → α → Bool) (xs l : List α) : List α :=
  xs.foldl (fun l x => insert precedes x l) l

/-- The elements of a list in order, each once. -/
def ofList (precedes : α → α → Bool) (xs : List α) : List α := insertAll precedes xs []

/-- The order of the natural numbers. -/
def below (m n : Nat) : Bool := m < n

/-- The order of texts by code points. -/
def textBelow (s t : String) : Bool := s < t

/-! ## Lemmas -/

theorem mem_insert {precedes : α → α → Bool} (total : ∀ x y, precedes x y = false →
    precedes y x = false → x = y) {x y : α} {l : List α} :
    y ∈ insert precedes x l ↔ y = x ∨ y ∈ l := by
  induction l with
  | nil => simp [insert]
  | cons z rest ih =>
    unfold insert
    split
    · exact List.mem_cons
    · next hxz =>
      split
      · rw [List.mem_cons, ih, List.mem_cons]
        exact or_left_comm
      · next hzx =>
        have hz : x = z := total x z (Bool.eq_false_iff.mpr hxz) (Bool.eq_false_iff.mpr hzx)
        rw [List.mem_cons, hz]
        exact ⟨Or.inr, fun h => h.elim Or.inl id⟩

theorem mem_insertAll {precedes : α → α → Bool} (total : ∀ x y, precedes x y = false →
    precedes y x = false → x = y) {y : α} {xs l : List α} :
    y ∈ insertAll precedes xs l ↔ y ∈ xs ∨ y ∈ l := by
  induction xs generalizing l with
  | nil => simp [insertAll]
  | cons x xs ih =>
    unfold insertAll at ih ⊢
    rw [List.foldl_cons, ih, mem_insert total, List.mem_cons]
    exact or_left_comm.trans or_assoc.symm

theorem below_total (m n : Nat) (h : below m n = false) (h' : below n m = false) : m = n := by
  simp only [below, decide_eq_false_iff_not] at h h'
  omega

theorem textBelow_total (s t : String) (h : textBelow s t = false) (h' : textBelow t s = false) :
    s = t := by
  simp only [textBelow, decide_eq_false_iff_not] at h h'
  exact String.le_antisymm (String.not_lt.mp h') (String.not_lt.mp h)

end SuiteSearch.Sorted
