import SuiteSearch.Goal.Mutant

/-!
# Limits on mutants

What is left of too many mutants is what is left without a prefix of the families: the shortest one
after which fewer than the limit are left, or all of them. No name of a family starts with another
one, so that a family is dropped as a whole.

    ShortestDrop.cons         a family after which too many are left
    dropFamilies_shortest     the prefix that is dropped
    isOf_unique               a mutant is of one listed family at most
    limited_limited           what is left is within its own limit
    addMutants_eq             the goals of what is left, numbered from the first free number
    addMutants_limited        all of it
-/

namespace SuiteSearch

namespace Mutant

/-- The mutants of none of some families. -/
def without (families : List String) (ms : List Mutant) : List Mutant :=
  ms.filter fun m => families.all fun family => !m.isOf family

/-- What is kept of some mutants when as few families as possible are dropped, one after the other,
until fewer than `limit` mutants are left: here the first `n`, and all of them if that is never
so. -/
structure ShortestDrop (limit : Nat) (families : List String) (ms kept : List Mutant) (n : Nat) :
    Prop where
  pos : 0 < n
  le_length : n ≤ families.length
  kept_eq : kept = without (families.take n) ms
  shortest : ∀ k, 0 < k → k < n → limit ≤ (without (families.take k) ms).length
  enough : kept.length < limit ∨ n = families.length

/-- Whether the mutant is of none of the families that can be dropped. -/
def isUnlisted (m : Mutant) : Bool := dropOrder.all fun family => !m.isOf family

/-! ## Dropping -/

theorem all_not_isOf_iff (families : List String) (m : Mutant) :
    (families.all fun family => !m.isOf family) = true ↔ ∀ f ∈ families, m.isOf f = false := by
  simp only [List.all_eq_true, Bool.not_eq_true']

theorem mem_without {families : List String} {ms : List Mutant} {m : Mutant} :
    m ∈ without families ms ↔ m ∈ ms ∧ ∀ f ∈ families, m.isOf f = false := by
  rw [← all_not_isOf_iff]
  exact List.mem_filter

theorem without_nil (ms : List Mutant) : without [] ms = ms :=
  List.filter_eq_self.mpr fun _ _ => rfl

theorem without_cons (family : String) (families : List String) (ms : List Mutant) :
    without (family :: families) ms =
      without families (ms.filter fun m => !m.isOf family) := by
  unfold without
  rw [List.filter_filter]
  refine List.filter_congr fun m _ => ?_
  rw [List.all_cons, Bool.and_comm]

/-- Of what is left without some families, all is left without any of them. -/
theorem without_of_subset {families dropped : List String} (hsub : ∀ f ∈ families, f ∈ dropped)
    (ms : List Mutant) : without families (without dropped ms) = without dropped ms := by
  refine List.filter_eq_self.mpr fun m hm => ?_
  rw [all_not_isOf_iff]
  intro f hf
  exact (mem_without.mp hm).2 f (hsub f hf)

/-- The first family alone does not do: one more is dropped than of what is left without it. -/
theorem ShortestDrop.cons {limit n : Nat} {family : String} {rest : List String}
    {ms kept : List Mutant} (hmany : limit ≤ (ms.filter fun m => !m.isOf family).length)
    (h : ShortestDrop limit rest (ms.filter fun m => !m.isOf family) kept n) :
    ShortestDrop limit (family :: rest) ms kept (n + 1) where
  pos := Nat.succ_pos n
  le_length := Nat.succ_le_succ h.le_length
  kept_eq := by
    rw [List.take_succ_cons, without_cons]
    exact h.kept_eq
  shortest := by
    intro k hk hkn
    cases k with
    | zero => omega
    | succ k =>
      rw [List.take_succ_cons, without_cons]
      rcases Nat.eq_zero_or_pos k with rfl | hk
      · rw [List.take_zero, without_nil]
        exact hmany
      · exact h.shortest k hk (by omega)
  enough := h.enough.imp_right (congrArg Nat.succ)

theorem dropFamilies_shortest (limit : Nat) (families : List String) (hne : families ≠ [])
    (ms : List Mutant) :
    ∃ n, ShortestDrop limit families ms (dropFamilies limit families ms) n := by
  induction families generalizing ms with
  | nil => exact absurd rfl hne
  | cons family rest ih =>
    unfold dropFamilies
    dsimp only
    have hone : without ((family :: rest).take 1) ms = ms.filter fun m => !m.isOf family := by
      rw [List.take_succ_cons, List.take_zero, without_cons, without_nil]
    by_cases hfew : (ms.filter fun m => !m.isOf family).length < limit
    · rw [if_pos hfew]
      exact ⟨1, by omega, by simp, hone.symm, by omega, .inl hfew⟩
    · rw [if_neg hfew]
      cases rest with
      | nil => exact ⟨1, by omega, by simp, hone.symm, by omega, .inr rfl⟩
      | cons next rest =>
        obtain ⟨n, hn⟩ := ih (List.cons_ne_nil next rest) (ms.filter fun m => !m.isOf family)
        exact ⟨n + 1, hn.cons (Nat.le_of_not_lt hfew)⟩

theorem limited_of_le {ms : List Mutant} {limit : Nat} (h : ms.length ≤ limit) :
    limited ms limit = ms := if_pos h

theorem limited_shortest {ms : List Mutant} {limit : Nat} (h : limit < ms.length) :
    ∃ n, ShortestDrop limit dropOrder ms (limited ms limit) n := by
  unfold limited
  rw [if_neg (by omega)]
  exact dropFamilies_shortest limit dropOrder (by decide) ms

/-- Three mutants are not fewer than three, so that a second family is dropped. -/
example : limited [⟨"ReplaceVariable - x", "m", 1⟩, ⟨"InsertUnaryOperator - x", "m", 1⟩,
      ⟨"ReplaceConstant - x", "m", 2⟩, ⟨"NegateCondition - x", "m", 3⟩] 3 =
    [⟨"ReplaceConstant - x", "m", 2⟩, ⟨"NegateCondition - x", "m", 3⟩] := by
  decide

/-- However many mutants there are, some prefix of the families is dropped. -/
theorem exists_limited_eq (ms : List Mutant) (limit : Nat) :
    ∃ n, limited ms limit = without (dropOrder.take n) ms := by
  by_cases h : ms.length ≤ limit
  · exact ⟨0, by rw [limited_of_le h, List.take_zero, without_nil]⟩
  · obtain ⟨n, hn⟩ := limited_shortest (Nat.lt_of_not_le h)
    exact ⟨n, hn.kept_eq⟩

theorem limited_limited (ms : List Mutant) (limit : Nat) :
    limited (limited ms limit) limit = limited ms limit := by
  by_cases hsmall : (limited ms limit).length ≤ limit
  · exact limited_of_le hsmall
  · have hlarge : limit < ms.length := by
      by_cases h : ms.length ≤ limit
      · rw [limited_of_le h] at hsmall
        exact absurd h hsmall
      · omega
    obtain ⟨n, hn⟩ := limited_shortest hlarge
    -- Too many are left, so all families were dropped, and none is left to be dropped again.
    have hall : n = dropOrder.length := hn.enough.resolve_left (by omega)
    have hkept : limited ms limit = without dropOrder ms := by
      rw [hn.kept_eq, hall, List.take_length]
    obtain ⟨k, hk⟩ := exists_limited_eq (limited ms limit) limit
    rw [hk, hkept]
    exact without_of_subset (fun f hf => List.mem_of_mem_take hf) ms

/-! ## Families -/

theorem isOf_iff (family : String) (m : Mutant) :
    m.isOf family = true ↔ family.toList <+: m.operator.toList := List.isPrefixOf_iff_prefix

/-- No name of a family starts with the name of another one. -/
theorem eq_of_startsWith : ∀ f ∈ dropOrder, ∀ g ∈ dropOrder, f.toList <+: g.toList → f = g := by
  decide

theorem isOf_unique {f g : String} (hf : f ∈ dropOrder) (hg : g ∈ dropOrder) {m : Mutant}
    (hmf : m.isOf f = true) (hmg : m.isOf g = true) : f = g := by
  rw [isOf_iff] at hmf hmg
  rcases List.prefix_or_prefix_of_prefix hmf hmg with h | h
  · exact eq_of_startsWith f hf g hg h
  · exact (eq_of_startsWith g hg f hf h).symm

/-- Mutants that are of no dropped family are all kept. -/
theorem filter_without {p : Mutant → Bool} {families : List String} (ms : List Mutant)
    (h : ∀ m, p m = true → ∀ f ∈ families, m.isOf f = false) :
    (without families ms).filter p = ms.filter p := by
  unfold without
  rw [List.filter_filter]
  refine List.filter_congr fun m _ => ?_
  cases hp : p m with
  | false => rfl
  | true =>
    rw [(all_not_isOf_iff families m).mpr (h m hp)]
    rfl

/-- A family is dropped as a whole, or not at all. -/
theorem filter_limited (ms : List Mutant) (limit : Nat) {family : String}
    (hfamily : family ∈ dropOrder) :
    (limited ms limit).filter (isOf family) = ms.filter (isOf family) ∨
      (limited ms limit).filter (isOf family) = [] := by
  obtain ⟨n, hn⟩ := exists_limited_eq ms limit
  rw [hn]
  by_cases hdropped : family ∈ dropOrder.take n
  · right
    refine List.filter_eq_nil_iff.mpr fun m hm => ?_
    rw [(mem_without.mp hm).2 family hdropped]
    exact Bool.false_ne_true
  · left
    refine filter_without ms fun m hm f hf => ?_
    cases hmf : m.isOf f with
    | false => rfl
    | true =>
      have hsame := isOf_unique hfamily (List.mem_of_mem_take hf) hm hmf
      rw [hsame] at hdropped
      exact absurd hf hdropped

theorem filter_isUnlisted_limited (ms : List Mutant) (limit : Nat) :
    (limited ms limit).filter isUnlisted = ms.filter isUnlisted := by
  obtain ⟨n, hn⟩ := exists_limited_eq ms limit
  rw [hn]
  refine filter_without ms fun m hm f hf => ?_
  exact (all_not_isOf_iff dropOrder m).mp hm f (List.mem_of_mem_take hf)

end Mutant

/-! ## Goals -/

namespace GoalSet

theorem pushMutants_eq (s : GoalSet) (c : Criterion) (ms : List Mutant) :
    s.pushMutants c ms =
      (⟨s.entries ++ ms.map fun m => (c, m.goalName)⟩, List.range' s.size ms.length) := by
  induction ms generalizing s with
  | nil => simp [pushMutants]
  | cons m rest ih =>
    have hsize : (s.push c m.goalName).1.size = s.size + 1 := by simp [push, size]
    unfold pushMutants
    dsimp only
    rw [ih, hsize]
    simp [push, List.range'_succ]

theorem goals_append (s : GoalSet) (added : List (Criterion × String)) :
    (GoalSet.mk (s.entries ++ added)).goals =
      s.goals ++ (added.zipIdx s.size).map fun x => ⟨x.2, x.1.1, x.1.2⟩ := by
  unfold goals
  rw [List.zipIdx_append, List.map_append, Nat.zero_add]
  rfl

theorem get?_eq_none {s : GoalSet} {g : GoalId} (h : s.size ≤ g) : s.get? g = none := by
  unfold get?
  rw [List.getElem?_eq_none h]
  rfl

theorem addMutants_eq (s : GoalSet) (ms : List Mutant) (strong : Bool) (limit : Nat) :
    s.addMutants ms strong limit =
      (⟨s.entries ++ (Mutant.limited ms limit).map fun m =>
          (if strong then .strongMutation else .weakMutation, m.goalName)⟩,
        List.range' s.size (Mutant.limited ms limit).length) :=
  pushMutants_eq s _ _

/-- Few mutants are all kept; of too many the shortest prefix of the families is dropped that leaves
fewer than the limit, or all families if none does. A family is kept or dropped as a whole, and what
is of none is kept. To limit what is left changes nothing. The goals of what is left come after those
that there are, in the order of the mutants, with the next free numbers. -/
theorem addMutants_limited (ms : List Mutant) (limit : Nat) :
    (ms.length ≤ limit → Mutant.limited ms limit = ms) ∧
    (limit < ms.length →
      ∃ n, Mutant.ShortestDrop limit Mutant.dropOrder ms (Mutant.limited ms limit) n) ∧
    (∀ family ∈ Mutant.dropOrder,
      (Mutant.limited ms limit).filter (Mutant.isOf family) = ms.filter (Mutant.isOf family) ∨
        (Mutant.limited ms limit).filter (Mutant.isOf family) = []) ∧
    (Mutant.limited ms limit).filter Mutant.isUnlisted = ms.filter Mutant.isUnlisted ∧
    Mutant.limited (Mutant.limited ms limit) limit = Mutant.limited ms limit ∧
    ∀ (s : GoalSet) (strong : Bool),
      (s.addMutants ms strong limit).2 = List.range' s.size (Mutant.limited ms limit).length ∧
      (∀ g ∈ (s.addMutants ms strong limit).2, s.get? g = none) ∧
      (s.addMutants ms strong limit).1.goals = s.goals ++
        ((Mutant.limited ms limit).zipIdx s.size).map fun x =>
          ⟨x.2, if strong then .strongMutation else .weakMutation, x.1.goalName⟩ := by
  refine ⟨Mutant.limited_of_le, Mutant.limited_shortest,
    fun family => Mutant.filter_limited ms limit, Mutant.filter_isUnlisted_limited ms limit,
    Mutant.limited_limited ms limit, fun s strong => ?_⟩
  rw [addMutants_eq]
  refine ⟨rfl, fun g hg => ?_, ?_⟩
  · obtain ⟨i, -, rfl⟩ := List.mem_range'.mp hg
    exact get?_eq_none (by omega)
  · rw [goals_append, List.zipIdx_map, List.map_map]
    rfl

end GoalSet

end SuiteSearch
