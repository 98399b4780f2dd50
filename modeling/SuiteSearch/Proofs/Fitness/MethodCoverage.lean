import SuiteSearch.Fitness.MethodCoverage

/-!
# What method coverage measures

The value of a goal says exactly whether its target is invoked: it is zero then, and otherwise it is
not even reached by rounding.

    value_evaluate        the value of goal i is that of the i-th target
    reached_iff           a goal is reached if and only if its target is invoked
    smaller_zero          no measurement takes a goal that is reached back
-/

namespace SuiteSearch

/-- Where no key comes twice, what is listed is found. -/
theorem lookup_of_mem {α β : Type} [BEq α] [LawfulBEq α] (l : List (α × β)) (k : α) (v : β)
    (hkeys : (l.map (·.1)).Nodup) (h : (k, v) ∈ l) : l.lookup k = some v := by
  induction l with
  | nil => cases h
  | cons x rest ih =>
    obtain ⟨k', v'⟩ := x
    rw [List.map_cons, List.nodup_cons] at hkeys
    rcases List.mem_cons.mp h with heq | hrest
    · cases heq
      rw [List.lookup_cons, beq_self_eq_true]
    · have hne : (k == k') = false := by
        rw [beq_eq_false_iff_ne]
        intro heq
        exact hkeys.1 (List.mem_map.mpr ⟨(k, v), hrest, heq⟩)
      rw [List.lookup_cons, hne]
      exact ih hkeys.2 hrest

namespace Heuristics

theorem value_put (h : Heuristics) (g k : GoalId) (x : Float) :
    value (put g x h) k = if k = g then x else value h k := by
  unfold value
  induction h with
  | nil =>
    by_cases hk : k = g
    · subst hk
      simp [put]
    · have hne : (k == g) = false := by simpa using hk
      rw [put, List.lookup_cons, hne, if_neg hk]
  | cons a rest ih =>
    obtain ⟨j, y⟩ := a
    unfold put
    split
    · by_cases hk : k = g
      · subst hk
        simp
      · have hne : (k == g) = false := by simpa using hk
        rw [List.lookup_cons, hne, if_neg hk]
    · next hgj =>
      split
      · next hjg =>
        by_cases hkj : k = j
        · subst hkj
          have hne : ¬ k = g := Nat.ne_of_lt hjg
          rw [List.lookup_cons, List.lookup_cons, beq_self_eq_true, if_neg hne]
        · have hne : (k == j) = false := by simpa using hkj
          rw [List.lookup_cons, List.lookup_cons, hne]
          exact ih
      · next hjg =>
        obtain rfl : g = j := Nat.le_antisymm (Nat.not_lt.mp hjg) (Nat.not_lt.mp hgj)
        by_cases hk : k = g
        · subst hk
          simp
        · have hne : (k == g) = false := by simpa using hk
          rw [List.lookup_cons, List.lookup_cons, hne, if_neg hk]

end Heuristics

namespace MethodCoverage

/-- Whether a program invokes a target. -/
def Invokes (p : Program) (target : Member) : Prop :=
  p.statements.any (fun s => invokes target s.op) = true

variable (c : Cluster) (p : Program)

theorem ids_goals : (goals c).ids = List.range (targets c).length := by
  rw [GoalSet.ids, GoalSet.size, goals, List.length_map]

/-! ## The values of all goals -/

theorem value_record (e : Evaluation) (g k : Nat) (x : Float) :
    (e.record g x).value k = if k = g then Scalar.clampUnit x else e.value k :=
  Heuristics.value_put e.heuristics g k (Scalar.clampUnit x)

/-- Records from a number on leave the smaller goals alone. -/
theorem value_foldl_of_lt (l : List Member) (n : Nat) (e : Evaluation) (g : Nat) (h : g < n) :
    ((l.zipIdx n).foldl (fun e (target, g) => e.record g (heuristic c p target)) e).value g =
      e.value g := by
  induction l generalizing n e with
  | nil => rfl
  | cons t rest ih =>
    rw [List.zipIdx_cons, List.foldl_cons, ih (n + 1) _ (by omega), value_record, if_neg (by omega)]

theorem value_foldl (l : List Member) (n : Nat) (e : Evaluation) (i : Nat) (t : Member)
    (h : l[i]? = some t) :
    ((l.zipIdx n).foldl (fun e (target, g) => e.record g (heuristic c p target)) e).value (n + i) =
      Scalar.clampUnit (heuristic c p t) := by
  induction l generalizing n e i with
  | nil => cases h
  | cons t' rest ih =>
    rw [List.zipIdx_cons, List.foldl_cons]
    cases i with
    | zero =>
      obtain rfl := Option.some.inj h
      rw [value_foldl_of_lt c p rest (n + 1) _ _ (by omega), value_record, if_pos (by omega)]
    | succ i =>
      have hrest := ih (n + 1) (e.record n (heuristic c p t')) i h
      rwa [show n + 1 + i = n + (i + 1) by omega] at hrest

theorem value_evaluate (g : GoalId) (t : Member) (h : (targets c)[g]? = some t) :
    (evaluate c p).value g = Scalar.clampUnit (heuristic c p t) := by
  have hvalue := value_foldl c p (targets c) 0 .empty g t h
  rwa [Nat.zero_add] at hvalue

/-! ## Reached goals -/

theorem heuristic_of_invokes (t : Member) (h : Invokes p t) : heuristic c p t = 0 := by
  have hany : p.statements.any (fun s => invokes t s.op) = true := h
  unfold heuristic
  rw [if_pos hany]

theorem heuristic_of_not_invokes (t : Member) (h : ¬ Invokes p t) :
    heuristic c p t = 0.5 ∨ heuristic c p t = noProgress := by
  have hany : ¬ p.statements.any (fun s => invokes t s.op) = true := h
  unfold heuristic
  rw [if_neg hany]
  split
  · split
    · exact Or.inl rfl
    · exact Or.inr rfl
  · exact Or.inr rfl

/-- A goal is reached if and only if its target is invoked. -/
theorem reached_iff (g : GoalId) (t : Member) (h : (targets c)[g]? = some t) :
    (evaluate c p).value g ≤ 0 ↔ Invokes p t := by
  rw [value_evaluate c p g t h]
  by_cases hinvokes : Invokes p t
  · rw [heuristic_of_invokes c p t hinvokes]
    exact iff_of_true (by decide) hinvokes
  · refine iff_of_false ?_ hinvokes
    rcases heuristic_of_not_invokes c p t hinvokes with h | h
    · rw [h]
      decide
    · rw [h]
      decide

/-- No measurement takes a goal that is reached back. -/
theorem smaller_zero (g : GoalId) (t : Member) (h : (targets c)[g]? = some t) :
    Scalar.smaller 0 ((evaluate c p).value g) = 0 := by
  rw [value_evaluate c p g t h]
  by_cases hinvokes : Invokes p t
  · rw [heuristic_of_invokes c p t hinvokes]
    decide
  · rcases heuristic_of_not_invokes c p t hinvokes with h | h
    · rw [h]
      decide
    · rw [h]
      decide

end MethodCoverage

theorem Scalar.smaller_cases (x y : Float) : smaller x y = x ∨ smaller x y = y := by
  unfold smaller
  split
  · exact Or.inr rfl
  · exact Or.inl rfl

end SuiteSearch
