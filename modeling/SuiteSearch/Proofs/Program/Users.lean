import SuiteSearch.Program.Slice

/-!
# Users of a value

A user of a value is a later statement that uses the value or the result of an earlier user.

    usersOf_sublist                           users are listed in order and once
    mem_usersOf_cases                         a user uses one of the values or an earlier user
    not_uses_of_not_mem_usersOf               what is no user uses neither
    referencePositions_cases                  the same for the users of a value in a program
    not_uses_of_not_mem_referencePositions
    mem_referencePositions_of_uses            what uses one of them is a user
-/

namespace SuiteSearch.Program

/-! ## Statements with their positions -/

theorem mem_zipIdx_drop (l : List Statement) (n i : Nat) (s : Statement) :
    (s, i) ∈ l.zipIdx.drop n ↔ n ≤ i ∧ l[i]? = some s := by
  rw [List.mem_iff_getElem?]
  constructor
  · rintro ⟨k, hk⟩
    rw [List.getElem?_drop, List.getElem?_zipIdx, Option.map_eq_some_iff] at hk
    obtain ⟨t, ht, heq⟩ := hk
    cases heq
    exact ⟨by omega, by simpa using ht⟩
  · rintro ⟨hn, hs⟩
    refine ⟨i - n, ?_⟩
    rw [List.getElem?_drop, List.getElem?_zipIdx, show n + (i - n) = i by omega, hs]
    simp

theorem mem_zipIdx_take (l : List Statement) (n i : Nat) (s : Statement) :
    (s, i) ∈ l.zipIdx.take n ↔ i < n ∧ l[i]? = some s := by
  rw [List.mem_iff_getElem?]
  constructor
  · rintro ⟨k, hk⟩
    rw [List.getElem?_take, Option.ite_none_right_eq_some, List.getElem?_zipIdx,
      Option.map_eq_some_iff] at hk
    obtain ⟨hlt, t, ht, heq⟩ := hk
    cases heq
    exact ⟨by omega, by simpa using ht⟩
  · rintro ⟨hlt, hs⟩
    refine ⟨i, ?_⟩
    rw [List.getElem?_take_of_lt hlt, List.getElem?_zipIdx, hs]
    simp

theorem zipIdx_sorted (l : List Statement) (k : Nat) :
    (l.zipIdx k).Pairwise fun a b => a.2 < b.2 := by
  induction l generalizing k with
  | nil => exact List.Pairwise.nil
  | cons s rest ih =>
    refine List.pairwise_cons.mpr ⟨fun a ha => ?_, ih (k + 1)⟩
    exact List.le_snd_of_mem_zipIdx ha

/-! ## One pass over the positions -/

theorem usersOf_sublist (values : List Ref) (l : List (Statement × Nat)) :
    (usersOf values l).Sublist (l.map (·.2)) := by
  induction l generalizing values with
  | nil => exact List.Sublist.refl _
  | cons a rest ih =>
    unfold usersOf
    split
    · exact (ih _).cons_cons a.2
    · exact (ih _).cons a.2

theorem mem_usersOf (values : List Ref) (l : List (Statement × Nat)) (i : Nat)
    (h : i ∈ usersOf values l) : ∃ s, (s, i) ∈ l := by
  obtain ⟨⟨s, _⟩, hs, rfl⟩ := List.mem_map.mp ((usersOf_sublist values l).subset h)
  exact ⟨s, hs⟩

/-- A user uses one of the values, or the result of an earlier user. -/
theorem mem_usersOf_cases (values : List Ref) (l : List (Statement × Nat))
    (hl : l.Pairwise fun a b => a.2 < b.2) (j : Nat) (h : j ∈ usersOf values l) :
    ∃ t, (t, j) ∈ l ∧ ((∃ v ∈ values, t.uses j v = true) ∨
      ∃ s i, (s, i) ∈ l ∧ i < j ∧ i ∈ usersOf values l ∧ t.uses j (s.output i) = true) := by
  induction l generalizing values with
  | nil => cases h
  | cons a rest ih =>
    obtain ⟨s, k⟩ := a
    obtain ⟨hk, hrest⟩ := List.pairwise_cons.mp hl
    unfold usersOf at h ⊢
    split at h
    · next huses =>
      rw [if_pos huses]
      rcases List.mem_cons.mp h with rfl | h
      · exact ⟨s, List.mem_cons_self, Or.inl (List.any_eq_true.mp huses)⟩
      · obtain ⟨t, ht, hcases⟩ := ih _ hrest h
        refine ⟨t, List.mem_cons_of_mem _ ht, ?_⟩
        rcases hcases with ⟨v, hv, hused⟩ | ⟨s', i, hs', hij, hi, hused⟩
        · rcases List.mem_append.mp hv with hv | hv
          · exact Or.inl ⟨v, hv, hused⟩
          · obtain rfl := List.mem_singleton.mp hv
            exact Or.inr ⟨s, k, List.mem_cons_self, hk (t, j) ht, List.mem_cons_self, hused⟩
        · exact Or.inr ⟨s', i, List.mem_cons_of_mem _ hs', hij, List.mem_cons_of_mem _ hi, hused⟩
    · next hnone =>
      rw [if_neg hnone]
      obtain ⟨t, ht, hcases⟩ := ih _ hrest h
      refine ⟨t, List.mem_cons_of_mem _ ht, ?_⟩
      rcases hcases with hvalue | ⟨s', i, hs', hused⟩
      · exact Or.inl hvalue
      · exact Or.inr ⟨s', i, List.mem_cons_of_mem _ hs', hused⟩

/-- What is no user uses neither the values nor the result of an earlier user. -/
theorem not_uses_of_not_mem_usersOf (values : List Ref) (l : List (Statement × Nat))
    (hl : l.Pairwise fun a b => a.2 < b.2) (t : Statement) (j : Nat) (ht : (t, j) ∈ l)
    (hj : j ∉ usersOf values l) :
    (∀ v ∈ values, t.uses j v = false) ∧
      ∀ s i, (s, i) ∈ l → i < j → i ∈ usersOf values l → t.uses j (s.output i) = false := by
  induction l generalizing values with
  | nil => cases ht
  | cons a rest ih =>
    obtain ⟨s, k⟩ := a
    obtain ⟨hk, hrest⟩ := List.pairwise_cons.mp hl
    have hne : ∀ s' i, (s', i) ∈ rest → i ≠ k := fun s' i hi => Nat.ne_of_gt (hk (s', i) hi)
    unfold usersOf at hj ⊢
    split at hj
    · next huses =>
      rw [List.mem_cons, not_or] at hj
      have ht : (t, j) ∈ rest := by
        rcases List.mem_cons.mp ht with h | h
        · exact absurd (congrArg Prod.snd h) hj.1
        · exact h
      obtain ⟨hvalues, husers⟩ := ih (values ++ [s.output k]) hrest ht hj.2
      refine ⟨fun v hv => hvalues v (List.mem_append_left _ hv), ?_⟩
      intro s' i hi hij hmem
      rw [if_pos huses] at hmem
      rcases List.mem_cons.mp hi with h | h
      · cases h
        exact hvalues _ (List.mem_append_right _ (List.mem_singleton.mpr rfl))
      · rcases List.mem_cons.mp hmem with hik | hmem
        · exact absurd hik (hne s' i h)
        · exact husers s' i h hij hmem
    · next hnone =>
      rw [if_neg hnone]
      rcases List.mem_cons.mp ht with h | ht
      · cases h
        refine ⟨?_, ?_⟩
        · intro v hv
          rw [Bool.not_eq_true, List.any_eq_false] at hnone
          simpa using hnone v hv
        · intro s' i hi hij
          rcases List.mem_cons.mp hi with h | h
          · cases h
            omega
          · have : j < i := hk (s', i) h
            omega
      · obtain ⟨hvalues, husers⟩ := ih values hrest ht hj
        refine ⟨hvalues, ?_⟩
        intro s' i hi hij hmem
        rcases List.mem_cons.mp hi with h | h
        · cases h
          obtain ⟨u, hu⟩ := mem_usersOf values rest k hmem
          exact absurd rfl (hne u k hu)
        · exact husers s' i h hij hmem

/-! ## Users in a program -/

variable {p : Program} {r : Ref} {start j : Nat}

theorem lt_of_mem_referencePositions (hr : r.position = some start)
    (h : j ∈ p.referencePositions r) : start < j := by
  rw [referencePositions, hr] at h
  obtain ⟨s, hs⟩ := mem_usersOf _ _ j h
  exact ((mem_zipIdx_drop _ _ _ _).mp hs).1

theorem referencePositions_cases (hr : r.position = some start)
    (h : j ∈ p.referencePositions r) :
    ∃ t, p.statements[j]? = some t ∧ (t.uses j r = true ∨
      ∃ s i, p.statements[i]? = some s ∧ i < j ∧ i ∈ p.referencePositions r ∧
        t.uses j (s.output i) = true) := by
  rw [referencePositions, hr] at h ⊢
  obtain ⟨t, ht, hcases⟩ := mem_usersOf_cases _ _ (zipIdx_sorted p.statements 0).drop j h
  refine ⟨t, ((mem_zipIdx_drop _ _ _ _).mp ht).2, ?_⟩
  rcases hcases with ⟨v, hv, hused⟩ | ⟨s, i, hs, hrest⟩
  · obtain rfl := List.mem_singleton.mp hv
    exact Or.inl hused
  · exact Or.inr ⟨s, i, ((mem_zipIdx_drop _ _ _ _).mp hs).2, hrest⟩

theorem not_uses_of_not_mem_referencePositions (hr : r.position = some start) {t : Statement}
    (ht : p.statements[j]? = some t) (hj : start < j) (hnot : j ∉ p.referencePositions r) :
    t.uses j r = false ∧ ∀ s i, p.statements[i]? = some s → i < j →
      i ∈ p.referencePositions r → t.uses j (s.output i) = false := by
  have hlater : ∀ i ∈ p.referencePositions r, start < i := fun i hi =>
    lt_of_mem_referencePositions hr hi
  rw [referencePositions, hr] at hnot hlater ⊢
  obtain ⟨hvalue, husers⟩ := not_uses_of_not_mem_usersOf [r] _
    (zipIdx_sorted p.statements 0).drop t j ((mem_zipIdx_drop _ _ _ _).mpr ⟨hj, ht⟩) hnot
  refine ⟨hvalue r (List.mem_singleton.mpr rfl), fun s i hs hij hi => ?_⟩
  exact husers s i ((mem_zipIdx_drop _ _ _ _).mpr ⟨hlater i hi, hs⟩) hij hi

/-- A later statement that uses the value, or the result of a user, is a user. -/
theorem mem_referencePositions_of_uses (hr : r.position = some start) {t : Statement}
    (ht : p.statements[j]? = some t) (hj : start < j)
    (h : t.uses j r = true ∨ ∃ s i, p.statements[i]? = some s ∧ i < j ∧
      i ∈ p.referencePositions r ∧ t.uses j (s.output i) = true) : j ∈ p.referencePositions r := by
  apply Classical.byContradiction
  intro hnot
  obtain ⟨hvalue, husers⟩ := not_uses_of_not_mem_referencePositions hr ht hj hnot
  rcases h with h | ⟨s, i, hs, hij, hi, h⟩
  · rw [hvalue] at h
    cases h
  · rw [husers s i hs hij hi] at h
    cases h

theorem referencePositions_sorted (p : Program) (r : Ref) :
    (p.referencePositions r).Pairwise (· < ·) := by
  unfold referencePositions
  split
  · exact List.Pairwise.nil
  · exact (List.pairwise_map.mpr (zipIdx_sorted p.statements 0).drop).sublist (usersOf_sublist _ _)

end SuiteSearch.Program
