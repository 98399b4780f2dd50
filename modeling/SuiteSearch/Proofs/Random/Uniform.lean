import SuiteSearch.Random.Draw

/-!
# Bounds of uniform draws

For every world and however often words are drawn again.

    below n        is below n                    (below_lt)
    choose l       is an element of l, and there is one unless l is empty
    coin p         fails only if p is no probability
-/

namespace SuiteSearch

namespace Draw

variable {ω : Type}

theorem belowFrom_lt (word : Draw ω Nat) (bits zone n : Nat) (hn : 0 < n)
    (hword : ∀ w, (word w).1 < 1 <<< bits) (fuel : Nat) (w : ω) :
    (belowFrom word bits zone n fuel w).1 < n := by
  induction fuel generalizing w with
  | zero => exact reduced_lt hn (hword w)
  | succ fuel ih =>
    show ((if (word w).1 * n % (1 <<< bits) ≤ zone then pure (reduced bits n (word w).1)
      else belowFrom word bits zone n fuel : Draw ω Nat) (word w).2).1 < n
    split
    · exact reduced_lt hn (hword w)
    · exact ih _

variable [WordSource ω]

theorem below_lt (n : Nat) (hn : 0 < n) (w : ω) : (below n w).1 < n := by
  refine belowFrom_lt large 64 _ n hn (fun w => ?_) redraws w
  exact (WordSource.next64 w).1.toNat_lt

theorem belowSmall_lt (n : Nat) (hn : 0 < n) (w : ω) : (belowSmall n w).1 < n := by
  refine belowFrom_lt small 32 _ n hn (fun w => ?_) redraws w
  exact (WordSource.next32 w).1.toNat_lt

theorem mem_of_choose {α : Type} {x : α} (l : List α) (w : ω) (h : (choose l w).1 = some x) :
    x ∈ l := by
  unfold choose at h
  split at h
  · cases h
  · exact List.mem_of_getElem? h

/-- Nothing is drawn from the empty list only. -/
theorem choose_eq_none {α : Type} (l : List α) (w : ω) : (choose l w).1 = none ↔ l = [] := by
  unfold choose
  cases l with
  | nil => exact iff_of_true rfl rfl
  | cons x rest =>
    have hlt := belowSmall_lt (x :: rest).length (Nat.zero_lt_succ _) w
    have hget : (x :: rest)[(belowSmall (x :: rest).length w).1]? ≠ none := by
      rw [Ne, List.getElem?_eq_none_iff]
      omega
    simp only [List.isEmpty_cons, reduceCtorEq, iff_false]
    exact hget

end Draw

theorem Chance.eq_noProbability (p : Float) (f : Fault) (h : ofFloat? p = .error f) :
    f = .noProbability := by
  unfold ofFloat? at h
  split at h
  · cases h
  · split at h
    · cases h
    · exact (Except.error.inj h).symm

theorem Act.coin_error {ω : Type} [WordSource ω] (p : Float) (w : ω) (f : Fault)
    (h : coin p w = .error f) : Chance.ofFloat? p = .error f := by
  cases hp : Chance.ofFloat? p with
  | error f' =>
    have hcoin : coin p w = .error f' := by
      unfold coin
      rw [hp]
      rfl
    rw [Except.error.inj (hcoin.symm.trans h)]
  | ok chance =>
    have hcoin : coin p w = draw (Draw.coin chance) w := by
      unfold coin
      rw [hp]
      rfl
    rw [hcoin] at h
    cases h

end SuiteSearch
