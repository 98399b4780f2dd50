import SuiteSearch.Proofs.Fitness.MethodCoverage
import SuiteSearch.Suite.Basic

/-!
# Scores for method coverage

All goals of a cluster belong to one criterion, so the score of a suite counts all of them.

    table c f               the values that f gives to the goals
    covered_scored          the number of goals reached is counted from the values
-/

namespace SuiteSearch

open MethodCoverage (targets)

theorem Score.covered_ofValues (xs : List Float) :
    (Score.ofValues xs).covered = (xs.filter (· ≤ 0)).length := by
  unfold Score.ofValues
  split
  · next h =>
    rw [List.isEmpty_iff.mp h]
    rfl
  · rfl

namespace MethodCoverage

variable (c : Cluster)

/-- Values for all goals of a cluster. -/
def table (f : GoalId → Float) : Heuristics := (goals c).ids.map fun g => (g, f g)

theorem value_table (f : GoalId → Float) (g : GoalId) (h : g ∈ (goals c).ids) :
    Heuristics.value (table c f) g = f g := by
  unfold Heuristics.value table
  rw [lookup_of_mem _ g (f g) ?_ (List.mem_map.mpr ⟨g, h, rfl⟩)]
  · rfl
  · rw [List.map_map, ids_goals]
    show ((List.range (targets c).length).map id).Nodup
    rw [List.map_id]
    exact List.nodup_range

/-- There is one criterion, if there is a goal. -/
theorem criteria_goals :
    (goals c).criteria = if (targets c).isEmpty then [] else [.method] := by
  unfold GoalSet.criteria goals
  cases targets c with
  | nil => rfl
  | cons t rest =>
    have hany : ∀ k : Criterion, (((t :: rest).map fun m => (Criterion.method, m.signature)).any
        fun x => x.1 == k) = (Criterion.method == k) := by
      intro k
      rw [List.map_cons, List.any_cons, List.any_map]
      cases hk : Criterion.method == k with
      | true => rfl
      | false =>
        rw [Bool.false_or, List.any_eq_false]
        intro m _
        simpa using hk
    simp only [hany]
    rfl

/-- All goals belong to it. -/
theorem ofCriterion_goals : ((goals c).ofCriterion .method).map (·.id) = (goals c).ids := by
  have hall : (goals c).ofCriterion .method = (goals c).goals := by
    refine List.filter_eq_self.mpr ?_
    intro g hg
    obtain ⟨⟨⟨k, name⟩, i⟩, hx, rfl⟩ := List.mem_map.mp hg
    obtain ⟨m, -, heq⟩ := List.mem_map.mp (List.fst_mem_of_mem_zipIdx hx)
    cases heq
    rfl
  rw [hall, GoalSet.goals, List.map_map, GoalSet.ids, GoalSet.size, List.range_eq_range']
  exact List.zipIdx_map_snd 0 _

/-- The number of goals reached is counted from the values. -/
theorem covered_scored (programs : List Program) (f : GoalId → Float) :
    (Suite.scored (goals c) programs (table c f)).covered =
      ((goals c).ids.filter fun g => f g ≤ 0).length := by
  have hvalues : ((goals c).ofCriterion .method).map
      (fun g => Heuristics.value (table c f) g.id) = (goals c).ids.map f := by
    rw [← ofCriterion_goals, List.map_map]
    refine List.map_congr_left ?_
    intro g hg
    refine value_table c f g.id ?_
    rw [← ofCriterion_goals]
    exact List.mem_map.mpr ⟨g, hg, rfl⟩
  unfold Suite.covered Suite.scored
  rw [criteria_goals]
  split
  · next hnone =>
    rw [ids_goals, List.isEmpty_iff.mp hnone]
    rfl
  · simp only [List.map_cons, List.map_nil, List.foldr_cons, List.foldr_nil, Nat.add_zero]
    rw [hvalues, Score.covered_ofValues, List.filter_map, List.length_map]
    rfl

/-- The programs of a suite that found nothing reach nothing. -/
theorem covered_empty : (Suite.empty (goals c)).covered = 0 := by
  unfold Suite.covered Suite.empty
  rw [criteria_goals]
  split
  · rfl
  · rfl

end MethodCoverage

end SuiteSearch
