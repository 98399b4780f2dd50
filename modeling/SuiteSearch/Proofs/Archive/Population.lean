import SuiteSearch.Archive.Population

/-!
# What an offer changes

An offer puts in the candidate that is offered and nothing else: as the covering one if it reaches
the goal, among the others if it does not.

    offer_covers            a candidate that reaches the goal covers it
    covering_offer          what covers the goal covered it before, or is that candidate
    mem_entries_offer       the same of what is kept for an open goal
-/

namespace SuiteSearch.Population

variable (p : Population) (ch : Chromosome) (x : Float) (capacity : Nat)

/-- A candidate that reaches the goal covers it. -/
theorem offer_covers (h : x ≤ 0) : (p.offer ch x capacity).1.covering.isSome = true := by
  unfold offer offerCovering
  rw [if_pos h]
  split
  · rfl
  · next hall =>
    cases hc : p.covering with
    | none =>
      rw [hc] at hall
      exact absurd rfl hall
    | some old => rfl

theorem offerPartial_covering : (p.offerPartial ch x capacity).1.covering = p.covering := by
  unfold offerPartial
  split
  · rfl
  · dsimp only
    split
    · split
      · rfl
      · split <;> rfl
    · split <;> rfl

/-- What covers the goal covered it before, or is the candidate, which reaches it. -/
theorem covering_offer (new : Chromosome) (h : (p.offer ch x capacity).1.covering = some new) :
    p.covering = some new ∨ (x ≤ 0 ∧ new = ch.copy) := by
  unfold offer at h
  split at h
  · next hx =>
    unfold offerCovering at h
    split at h
    · exact Or.inr ⟨hx, (Option.some.inj h).symm⟩
    · exact Or.inl h
  · rw [offerPartial_covering] at h
    exact Or.inl h

/-- A goal that is covered stays so. -/
theorem offer_stays (h : p.covering.isSome = true) :
    (p.offer ch x capacity).1.covering.isSome = true := by
  by_cases hx : x ≤ 0
  · exact p.offer_covers ch x capacity hx
  · unfold offer
    rw [if_neg hx, offerPartial_covering]
    exact h

theorem mem_insert (e f : Entry) (l : List Entry) (h : f ∈ e.insert l) : f = e ∨ f ∈ l := by
  induction l with
  | nil => exact Or.inl (List.mem_singleton.mp h)
  | cons g rest ih =>
    unfold Entry.insert at h
    split at h
    · exact List.mem_cons.mp h
    · rcases List.mem_cons.mp h with rfl | h
      · exact Or.inr List.mem_cons_self
      · exact (ih h).imp id (List.mem_cons_of_mem g)

theorem mem_enter (l entries : List Entry) (e f : Entry) (h : enter l e capacity = some entries)
    (hf : f ∈ entries) : f = e ∨ f ∈ l := by
  unfold enter at h
  split at h
  · obtain rfl := Option.some.inj h
    exact mem_insert e f l (List.mem_of_mem_take hf)
  · cases h

/-- What is kept for an open goal was kept before, or is the candidate, which does not reach it. -/
theorem mem_entries_offer (e : Entry) (h : e ∈ (p.offer ch x capacity).1.entries) :
    e ∈ p.entries ∨ (¬ x ≤ 0 ∧ e = ⟨x, ch.copy⟩) := by
  unfold offer at h
  split at h
  · unfold offerCovering at h
    split at h
    · cases h
    · exact Or.inl h
  · next hx =>
    unfold offerPartial at h
    split at h
    · exact Or.inl h
    · dsimp only at h
      split at h
      · split at h
        · exact Or.inl h
        · split at h
          · next entries henter =>
            rcases mem_enter capacity _ _ _ e henter h with rfl | h
            · exact Or.inr ⟨hx, rfl⟩
            · exact Or.inl (List.mem_of_mem_eraseP h)
          · exact Or.inl (List.mem_of_mem_eraseP h)
      · split at h
        · next entries henter =>
          rcases mem_enter capacity _ _ _ e henter h with rfl | h
          · exact Or.inr ⟨hx, rfl⟩
          · exact Or.inl h
        · exact Or.inl h

end SuiteSearch.Population
