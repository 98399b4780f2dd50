import Mathlib.Data.List.Nodup
import SuiteSearch.Archive.Basic
import SuiteSearch.Proofs.Archive.Population
import SuiteSearch.Proofs.Fitness.MethodCoverage

/-!
# What the archive stands for

Between evaluations the archive keeps the truth about everything that was offered: a goal is covered
exactly if a candidate that was offered invokes its target, and what a retained candidate invokes is
covered, too.

    Faithful c P a         the goals, the open values, and both directions of that truth
    Faithful.update        an evaluated candidate is offered for every goal
    Faithful.shrink        fewer candidates are kept
    mem_solutions          the covering programs, each once, and none of them lost
-/

namespace SuiteSearch

open MethodCoverage (targets Invokes)

/-! ## Goals in order -/

namespace Sorted

/-- An element that comes after all others goes to the end. -/
theorem insert_last {α : Type} (precedes : α → α → Bool) (x : α) (l : List α)
    (h : ∀ y ∈ l, precedes x y = false ∧ precedes y x = true) :
    insert precedes x l = l ++ [x] := by
  induction l with
  | nil => rfl
  | cons y rest ih =>
    obtain ⟨hxy, hyx⟩ := h y List.mem_cons_self
    rw [insert, hxy, hyx, if_neg Bool.false_ne_true, if_pos rfl,
      ih fun z hz => h z (List.mem_cons_of_mem y hz), List.cons_append]

theorem ofList_range (n : Nat) : ofList below (List.range n) = List.range n := by
  induction n with
  | zero => rfl
  | succ n ih =>
    unfold ofList insertAll at ih ⊢
    rw [List.range_succ, List.foldl_append, ih]
    refine insert_last below n _ ?_
    intro m hm
    have hlt := List.mem_range.mp hm
    exact ⟨decide_eq_false (by omega), decide_eq_true hlt⟩

end Sorted

/-! ## The invariant -/

namespace Archive

/-- The truth about what was offered; the statements of all candidates have a property. -/
structure Faithful (c : Cluster) (P : List Statement → Prop) (a : Archive) : Prop where
  /-- There is one population for every goal. -/
  keys : a.populations.map (·.1) = List.range (targets c).length
  covering {g : GoalId} {p : Population} {ch : Chromosome} : (g, p) ∈ a.populations →
    p.covering = some ch → P ch.program.statements
  entry {g : GoalId} {p : Population} {e : Entry} : (g, p) ∈ a.populations → e ∈ p.entries →
    P e.chromosome.program.statements
  unreached {g : GoalId} {p : Population} {e : Entry} : (g, p) ∈ a.populations →
    e ∈ p.entries → ¬ e.heuristic ≤ 0
  invoked {g : GoalId} {p : Population} {ch : Chromosome} {t : Member} : (g, p) ∈ a.populations →
    p.covering = some ch → (targets c)[g]? = some t → Invokes ch.program t
  /-- What a retained candidate invokes is covered. -/
  complete {g k : GoalId} {p : Population} {ch : Chromosome} {t : Member} :
    (g, p) ∈ a.populations → p.covering = some ch → (targets c)[k]? = some t →
    Invokes ch.program t → k ∈ a.coveredGoals

variable {c : Cluster} {P : List Statement → Prop} {a a' : Archive}

theorem mem_coveredGoals (a : Archive) (g : GoalId) :
    g ∈ a.coveredGoals ↔ ∃ p, (g, p) ∈ a.populations ∧ p.covering.isSome = true := by
  unfold coveredGoals
  rw [List.mem_map]
  constructor
  · rintro ⟨⟨g', p⟩, hmem, rfl⟩
    obtain ⟨hp, hsome⟩ := List.mem_filter.mp hmem
    exact ⟨p, hp, hsome⟩
  · rintro ⟨p, hp, hsome⟩
    exact ⟨(g, p), List.mem_filter.mpr ⟨hp, hsome⟩, rfl⟩

theorem Faithful.mem_keys (h : a.Faithful c P) (g : Nat) :
    (∃ p, (g, p) ∈ a.populations) ↔ g < (targets c).length := by
  have hkeys : g ∈ a.populations.map (·.1) ↔ g < (targets c).length := by
    rw [h.keys, List.mem_range]
  rw [← hkeys, List.mem_map]
  constructor
  · rintro ⟨p, hp⟩
    exact ⟨(g, p), hp, rfl⟩
  · rintro ⟨⟨g', p⟩, hp, rfl⟩
    exact ⟨p, hp⟩

theorem Faithful.target (h : a.Faithful c P) {g : GoalId} {p : Population}
    (hp : (g, p) ∈ a.populations) : ∃ t, (targets c)[g]? = some t :=
  ⟨_, List.getElem?_eq_getElem ((h.mem_keys g).mp ⟨p, hp⟩)⟩

theorem Faithful.population (h : a.Faithful c P) {g : GoalId} {t : Member}
    (ht : (targets c)[g]? = some t) : ∃ p, (g, p) ∈ a.populations :=
  (h.mem_keys g).mpr (List.getElem?_eq_some_iff.mp ht).1

/-! ## Changes of the archive -/

/-- The populations of an archive that is changed one by one. -/
theorem mem_populations_map (f : GoalId × Population → Population)
    (h : a'.populations = a.populations.map fun x => (x.1, f x)) (g : GoalId) (p : Population) :
    (g, p) ∈ a'.populations ↔ ∃ q, (g, q) ∈ a.populations ∧ p = f (g, q) := by
  rw [h, List.mem_map]
  constructor
  · rintro ⟨⟨g', q⟩, hq, heq⟩
    cases heq
    exact ⟨q, hq, rfl⟩
  · rintro ⟨q, hq, rfl⟩
    exact ⟨(g, q), hq, rfl⟩

/-- A change that leaves the covering candidates alone and keeps nothing new. -/
theorem Faithful.of_map (h : a.Faithful c P) (f : GoalId × Population → Population)
    (hpopulations : a'.populations = a.populations.map fun x => (x.1, f x))
    (hcovering : ∀ x, (f x).covering = x.2.covering)
    (hentries : ∀ x, ∀ e ∈ (f x).entries, e ∈ x.2.entries) : a'.Faithful c P := by
  have hmem := mem_populations_map f hpopulations
  refine ⟨?_, ?_, ?_, ?_, ?_, ?_⟩
  · rw [hpopulations, List.map_map]
    exact h.keys
  · intro g p ch hp hch
    obtain ⟨q, hq, rfl⟩ := (hmem g p).mp hp
    exact h.covering hq ((hcovering _).symm.trans hch)
  · intro g p e hp he
    obtain ⟨q, hq, rfl⟩ := (hmem g p).mp hp
    exact h.entry hq (hentries _ e he)
  · intro g p e hp he
    obtain ⟨q, hq, rfl⟩ := (hmem g p).mp hp
    exact h.unreached hq (hentries _ e he)
  · intro g p ch t hp hch ht
    obtain ⟨q, hq, rfl⟩ := (hmem g p).mp hp
    exact h.invoked hq ((hcovering _).symm.trans hch) ht
  · intro g k p ch t hp hch ht hinvokes
    obtain ⟨q, hq, rfl⟩ := (hmem g p).mp hp
    have hk := h.complete hq ((hcovering _).symm.trans hch) ht hinvokes
    obtain ⟨q', hq', hsome⟩ := (mem_coveredGoals a k).mp hk
    rw [← hcovering (k, q')] at hsome
    exact (mem_coveredGoals a' k).mpr ⟨_, (hmem k _).mpr ⟨q', hq', rfl⟩, hsome⟩

theorem Faithful.shrink (h : a.Faithful c P) (n : Nat) : (a.shrink n).Faithful c P :=
  h.of_map (fun x => x.2.shrink (max n 1)) rfl (fun _ => rfl) fun _ _ he => List.mem_of_mem_take he

theorem Faithful.countDraw (h : a.Faithful c P) (g : GoalId) : (a.countDraw g).Faithful c P := by
  refine h.of_map (fun x => if x.1 = g then { x.2 with selections := x.2.selections + 1 } else x.2)
    rfl ?_ ?_
  · intro x
    dsimp only
    split <;> rfl
  · intro x e he
    dsimp only at he
    split at he <;> exact he

theorem Faithful.solutions (h : a.Faithful c P) : a.solutions.2.Faithful c P :=
  h.of_map (fun x => x.2) (List.map_id _).symm (fun _ => rfl) fun _ _ he => he

theorem populations_update (ch : Chromosome) (e : Evaluation) (h : ch.isEmpty = false) :
    (a.update ch e).1.populations =
      a.populations.map fun x => (x.1, (x.2.offer ch (e.value x.1) a.capacity).1) := by
  unfold update
  rw [h, if_neg (by simp)]
  simp only [List.map_map]
  rfl

/-- An evaluated candidate is offered for every goal, and the archive stays faithful. -/
theorem Faithful.update (h : a.Faithful c P) (ch : Chromosome) (e : Evaluation)
    (hP : P ch.program.statements)
    (hreached : ∀ g t, (targets c)[g]? = some t → (e.value g ≤ 0 ↔ Invokes ch.program t)) :
    (a.update ch e).1.Faithful c P := by
  cases hempty : ch.isEmpty with
  | true =>
    have hsame : (a.update ch e).1 = a := by
      unfold Archive.update
      rw [hempty, if_pos rfl]
    rwa [hsame]
  | false =>
    have hpopulations := populations_update (a := a) ch e hempty
    have hmem := mem_populations_map _ hpopulations
    refine ⟨?_, ?_, ?_, ?_, ?_, ?_⟩
    · rw [hpopulations, List.map_map]
      exact h.keys
    · intro g p new hp hnew
      obtain ⟨q, hq, rfl⟩ := (hmem g p).mp hp
      rcases q.covering_offer ch _ _ new hnew with hold | ⟨-, rfl⟩
      · exact h.covering hq hold
      · exact hP
    · intro g p f hp hf
      obtain ⟨q, hq, rfl⟩ := (hmem g p).mp hp
      rcases q.mem_entries_offer ch _ _ f hf with hold | ⟨-, rfl⟩
      · exact h.entry hq hold
      · exact hP
    · intro g p f hp hf
      obtain ⟨q, hq, rfl⟩ := (hmem g p).mp hp
      rcases q.mem_entries_offer ch _ _ f hf with hold | ⟨hx, rfl⟩
      · exact h.unreached hq hold
      · exact hx
    · intro g p new t hp hnew ht
      obtain ⟨q, hq, rfl⟩ := (hmem g p).mp hp
      rcases q.covering_offer ch _ _ new hnew with hold | ⟨hx, rfl⟩
      · exact h.invoked hq hold ht
      · exact (hreached g t ht).mp hx
    · intro g k p new t hp hnew ht hinvokes
      rw [mem_coveredGoals]
      obtain ⟨q, hq, rfl⟩ := (hmem g p).mp hp
      rcases q.covering_offer ch _ _ new hnew with hold | ⟨-, rfl⟩
      · obtain ⟨q', hq', hsome⟩ := (mem_coveredGoals a k).mp (h.complete hq hold ht hinvokes)
        exact ⟨_, (hmem k _).mpr ⟨q', hq', rfl⟩, q'.offer_stays ch _ _ hsome⟩
      · obtain ⟨q', hq'⟩ := h.population ht
        exact ⟨_, (hmem k _).mpr ⟨q', hq', rfl⟩,
          q'.offer_covers ch _ _ ((hreached k t ht).mpr hinvokes)⟩

/-! ## The archive that a search starts from -/

theorem populations_ofGoals (n capacity : Nat) :
    (ofGoals (List.range n) capacity).populations =
      (List.range n).map fun g => (g, Population.empty) := by
  unfold ofGoals
  rw [Sorted.ofList_range]

theorem Faithful.ofGoals (c : Cluster) (P : List Statement → Prop) (capacity : Nat) :
    (Archive.ofGoals (MethodCoverage.goals c).ids capacity).Faithful c P := by
  rw [MethodCoverage.ids_goals]
  have hempty : ∀ (g : GoalId) (p : Population),
      (g, p) ∈ (Archive.ofGoals (List.range (targets c).length) capacity).populations →
        p = .empty := by
    intro g p hp
    rw [populations_ofGoals] at hp
    obtain ⟨g', -, heq⟩ := List.mem_map.mp hp
    cases heq
    rfl
  refine ⟨?_, ?_, ?_, ?_, ?_, ?_⟩
  · rw [populations_ofGoals, List.map_map]
    exact List.map_id _
  · intro g p ch hp hch
    obtain rfl := hempty g p hp
    cases hch
  · intro g p e hp he
    obtain rfl := hempty g p hp
    cases he
  · intro g p e hp he
    obtain rfl := hempty g p hp
    cases he
  · intro g p ch t hp hch
    obtain rfl := hempty g p hp
    cases hch
  · intro g k p ch t hp hch
    obtain rfl := hempty g p hp
    cases hch

/-! ## The covering programs -/

theorem mem_covering (a : Archive) (ch : Chromosome) :
    ch ∈ a.covering ↔ ∃ g p, (g, p) ∈ a.populations ∧ p.covering = some ch := by
  unfold covering
  rw [List.mem_filterMap]
  constructor
  · rintro ⟨⟨g, p⟩, hp, hch⟩
    exact ⟨g, p, hp, hch⟩
  · rintro ⟨g, p, hp, hch⟩
    exact ⟨(g, p), hp, hch⟩

theorem pushDistinct_pairwise (l : List Chromosome) (programs : List Program)
    (h : programs.Pairwise fun p q => p.sameStatements q = false) :
    (l.foldl pushDistinct programs).Pairwise fun p q => p.sameStatements q = false := by
  induction l generalizing programs with
  | nil => exact h
  | cons ch rest ih =>
    refine ih _ ?_
    unfold pushDistinct
    split
    · exact h
    · next hnone =>
      refine List.pairwise_append.mpr ⟨h, List.pairwise_singleton _ _, ?_⟩
      intro p hp q hq
      obtain rfl := List.mem_singleton.mp hq
      rw [Bool.not_eq_true, List.any_eq_false] at hnone
      exact Bool.eq_false_iff.mpr (hnone p hp)

theorem mem_pushDistinct (l : List Chromosome) (programs : List Program) (p : Program)
    (h : p ∈ l.foldl pushDistinct programs) :
    p ∈ programs ∨ ∃ ch ∈ l, p = ch.program.copy := by
  induction l generalizing programs with
  | nil => exact Or.inl h
  | cons ch rest ih =>
    rcases ih _ h with h | ⟨ch', hch', rfl⟩
    · unfold pushDistinct at h
      split at h
      · exact Or.inl h
      · rcases List.mem_append.mp h with h | h
        · exact Or.inl h
        · exact Or.inr ⟨ch, List.mem_cons_self, List.mem_singleton.mp h⟩
    · exact Or.inr ⟨ch', List.mem_cons_of_mem ch hch', rfl⟩

theorem pushDistinct_keeps (l : List Chromosome) (programs : List Program) (p : Program)
    (h : p ∈ programs) : p ∈ l.foldl pushDistinct programs := by
  induction l generalizing programs with
  | nil => exact h
  | cons ch rest ih =>
    refine ih _ ?_
    unfold pushDistinct
    split
    · exact h
    · exact List.mem_append_left _ h

/-- No candidate is lost: a program with its statements is there. -/
theorem pushDistinct_finds (l : List Chromosome) (programs : List Program) (ch : Chromosome)
    (h : ch ∈ l) : ∃ p ∈ l.foldl pushDistinct programs, p.statements = ch.program.statements := by
  induction l generalizing programs with
  | nil => cases h
  | cons ch' rest ih =>
    rcases List.mem_cons.mp h with rfl | h
    · obtain ⟨p, hp, hsame⟩ : ∃ p ∈ pushDistinct programs ch,
          p.statements = ch.program.statements := by
        unfold pushDistinct
        split
        · next hany =>
          obtain ⟨p, hp, hsame⟩ := List.any_eq_true.mp hany
          exact ⟨p, hp, beq_iff_eq.mp hsame⟩
        · exact ⟨_, List.mem_append_right _ (List.mem_singleton.mpr rfl), rfl⟩
      exact ⟨p, pushDistinct_keeps rest _ p hp, hsame⟩
    · exact ih _ h

theorem solutions_pairwise (a : Archive) :
    a.solutions.1.Pairwise fun p q => p.sameStatements q = false :=
  pushDistinct_pairwise a.covering [] List.Pairwise.nil

/-- Every covering program is a copy of the candidate that covers some goal. -/
theorem mem_solutions (a : Archive) (p : Program) (h : p ∈ a.solutions.1) :
    ∃ g q ch, (g, q) ∈ a.populations ∧ q.covering = some ch ∧ p = ch.program.copy := by
  rcases mem_pushDistinct a.covering [] p h with h | ⟨ch, hch, rfl⟩
  · cases h
  · obtain ⟨g, q, hq, hcov⟩ := (mem_covering a ch).mp hch
    exact ⟨g, q, ch, hq, hcov, rfl⟩

/-- A goal is covered exactly if one of the covering programs invokes its target. -/
theorem Faithful.covered_iff (h : a.Faithful c P) {g : GoalId} {t : Member}
    (ht : (targets c)[g]? = some t) :
    g ∈ a.coveredGoals ↔ ∃ p ∈ a.solutions.1, Invokes p t := by
  rw [mem_coveredGoals]
  constructor
  · rintro ⟨q, hq, hsome⟩
    obtain ⟨ch, hch⟩ := Option.isSome_iff_exists.mp hsome
    have hmem := (mem_covering a ch).mpr ⟨g, q, hq, hch⟩
    obtain ⟨p, hp, hsame⟩ := pushDistinct_finds a.covering [] ch hmem
    refine ⟨p, hp, ?_⟩
    unfold MethodCoverage.Invokes
    rw [hsame]
    exact h.invoked hq hch ht
  · rintro ⟨p, hp, hinvokes⟩
    obtain ⟨k, q, ch, hq, hch, rfl⟩ := mem_solutions a p hp
    exact (mem_coveredGoals a g).mp (h.complete hq hch ht hinvokes)

/-! ## The best values -/

theorem Faithful.population?_of_mem (h : a.Faithful c P) {g : GoalId} {p : Population}
    (hp : (g, p) ∈ a.populations) : a.population? g = some p := by
  refine lookup_of_mem a.populations g p ?_ hp
  rw [h.keys]
  exact List.nodup_range

theorem Faithful.bestValue_covered (h : a.Faithful c P) {g : GoalId} (hg : g ∈ a.coveredGoals) :
    a.bestValue g = 0 := by
  obtain ⟨p, hp, hsome⟩ := (mem_coveredGoals a g).mp hg
  unfold bestValue
  rw [h.population?_of_mem hp]
  show p.best = 0
  rw [Population.best, if_pos hsome]

theorem Faithful.bestValue_open (h : a.Faithful c P) {g : GoalId} (hg : g ∉ a.coveredGoals) :
    ¬ a.bestValue g ≤ 0 := by
  unfold bestValue
  cases hp : a.population? g with
  | none =>
    show ¬ noProgress ≤ 0
    decide
  | some p =>
    have hmem : (g, p) ∈ a.populations := by
      obtain ⟨before, after, hsplit, -⟩ := List.lookup_eq_some_iff.mp hp
      rw [hsplit]
      exact List.mem_append_right before List.mem_cons_self
    have hnone : p.covering.isSome = false := by
      rw [← Bool.not_eq_true]
      exact fun hsome => hg ((mem_coveredGoals a g).mpr ⟨p, hmem, hsome⟩)
    show ¬ p.best ≤ 0
    rw [Population.best, hnone, if_neg (by simp)]
    cases hentries : p.entries with
    | nil =>
      show ¬ noProgress ≤ 0
      decide
    | cons e rest => exact h.unreached hmem (hentries ▸ List.mem_cons_self)

end Archive

end SuiteSearch
