import SuiteSearch.Proofs.Archive.TopOffers

/-!
# The best so far

Whatever an archive is asked for in between, it tells of every goal the best of all that was
offered: whether a candidate reached the goal, the first of the shortest ones that did, and the
least value.

    Formed.covering             the first of the shortest candidates that reach the goal
    Formed.best                 the least value, where none counts for more than 0
    remembersBest_performAll    what an archive tells of a goal, now and later
-/

namespace SuiteSearch

/-- The least of some values, up to the sign of a zero. -/
def IsMinimum (x : Float) (values : List Float) : Prop :=
  (∀ y ∈ values, x ≤ y) ∧ ∃ y ∈ values, (x == y) = true

theorem IsMinimum.le_of_subset {x y : Float} {values more : List Float} (hx : IsMinimum x values)
    (hy : IsMinimum y more) (h : ∀ z ∈ values, z ∈ more) : y ≤ x := by
  obtain ⟨z, hz, heq⟩ := hx.2
  have hyz := hy.1 z (h z hz)
  obtain ⟨-, hznumber⟩ := Scalar.isNaN_of_le hyz
  obtain ⟨hxnumber, -⟩ := Scalar.isNaN_of_le (hx.1 z hz)
  refine Scalar.le_of_le_of_le hyz ((Scalar.le_iff hznumber hxnumber).mpr ?_)
  exact ((Scalar.beq_iff hxnumber hznumber).mp heq).ge

namespace Entry

/-- The candidate reaches the goal. -/
def reaches (e : Entry) : Bool := e.heuristic ≤ 0

/-- What the candidate is worth to the goal: no value counts for more than reaching it. -/
def worth (e : Entry) : Float := if e.reaches then 0 else e.heuristic

/-- Values in range are what they count for. -/
theorem worth_beq {e : Entry} (h : 0 ≤ e.heuristic) : (e.worth == e.heuristic) = true := by
  obtain ⟨hzero, hnumber⟩ := Scalar.isNaN_of_le h
  unfold worth reaches
  split
  · next hreaches =>
    have hle := (Scalar.le_iff hnumber hzero).mp (of_decide_eq_true hreaches)
    exact (Scalar.beq_iff hzero hnumber).mpr (le_antisymm ((Scalar.le_iff hzero hnumber).mp h) hle)
  · exact (Scalar.beq_iff hnumber hnumber).mpr rfl

end Entry

theorem IsMinimum.of_worth {x : Float} {offers : List Entry}
    (h : IsMinimum x (noProgress :: offers.map Entry.worth))
    (hrange : ∀ e ∈ offers, 0 ≤ e.heuristic) :
    IsMinimum x (noProgress :: offers.map (·.heuristic)) := by
  have hx := (Scalar.isNaN_of_le (h.1 noProgress List.mem_cons_self)).1
  -- A value and what it counts for have the same place.
  have hplace : ∀ e ∈ offers, e.heuristic.isNaN = false ∧ e.worth.isNaN = false ∧
      Scalar.place e.worth = Scalar.place e.heuristic := by
    intro e he
    have hnumber := (Scalar.isNaN_of_le (hrange e he)).2
    have hworth := (Scalar.isNaN_of_le
      (h.1 e.worth (List.mem_cons_of_mem _ (List.mem_map.mpr ⟨e, he, rfl⟩)))).2
    exact ⟨hnumber, hworth, (Scalar.beq_iff hworth hnumber).mp (Entry.worth_beq (hrange e he))⟩
  refine ⟨?_, ?_⟩
  · intro y hy
    rcases List.mem_cons.mp hy with rfl | hy
    · exact h.1 noProgress List.mem_cons_self
    · obtain ⟨e, he, rfl⟩ := List.mem_map.mp hy
      obtain ⟨hnumber, hworth, heq⟩ := hplace e he
      have hle := h.1 e.worth (List.mem_cons_of_mem _ (List.mem_map.mpr ⟨e, he, rfl⟩))
      rw [Scalar.le_iff hx hworth, heq] at hle
      exact (Scalar.le_iff hx hnumber).mpr hle
  · obtain ⟨y, hy, hbeq⟩ := h.2
    rcases List.mem_cons.mp hy with rfl | hy
    · exact ⟨noProgress, List.mem_cons_self, hbeq⟩
    · obtain ⟨e, he, rfl⟩ := List.mem_map.mp hy
      obtain ⟨hnumber, hworth, heq⟩ := hplace e he
      rw [Scalar.beq_iff hx hworth, heq] at hbeq
      exact ⟨e.heuristic, List.mem_cons_of_mem _ (List.mem_map.mpr ⟨e, he, rfl⟩),
        (Scalar.beq_iff hx hnumber).mpr hbeq⟩

/-! ## The head of the ranking -/

section Offers

variable {l : List Entry} (hl : ∀ e ∈ l, e.IsNumber)

include hl

theorem mem_ranking (e : Entry) : e ∈ ranking l ↔ ∃ x ∈ bests l, x.1 = e := by
  obtain ⟨S, -, hmem, hranking⟩ := exists_sorted_bests hl
  rw [hranking, List.mem_map]
  simp only [hmem]

/-- An offer that made progress is no better than one in the ranking. -/
theorem exists_mem_ranking {e : Entry} (he : e ∈ l) (hprogress : e.heuristic < noProgress) :
    ∃ f ∈ ranking l, f.rank ≤ e.rank := by
  obtain ⟨i, hi⟩ := List.getElem?_of_mem he
  have htimed : (e, i) ∈ timed l := (mem_timed (e, i)).mpr ⟨hi, hprogress⟩
  obtain ⟨x, hx, -, hle⟩ := exists_best hl htimed
  have hrank : x.1.rank ≤ e.rank := TimedEntry.rank_le_of_key_le (y := (e, i)) hle
  exact ⟨x.1, (mem_ranking hl x.1).mpr ⟨x, hx, rfl⟩, hrank⟩

/-- The value of the first entry of the ranking is the least one below 1. -/
theorem isMinimum_ranking :
    IsMinimum (((ranking l).head?.map (·.heuristic)).getD noProgress)
      (noProgress :: l.map (·.heuristic)) := by
  have hone : noProgress.isNaN = false := by decide
  have hprogress : ∀ e ∈ l, ¬ e.heuristic < noProgress → noProgress ≤ e.heuristic := fun e he =>
    (Scalar.not_lt_iff (hl e he) hone).mp
  cases hhead : ranking l with
  | nil =>
    refine ⟨?_, noProgress, List.mem_cons_self, by decide⟩
    intro y hy
    rcases List.mem_cons.mp hy with rfl | hy
    · show noProgress ≤ noProgress
      decide
    · obtain ⟨e, he, rfl⟩ := List.mem_map.mp hy
      refine hprogress e he fun hlt => ?_
      obtain ⟨f, hf, -⟩ := exists_mem_ranking hl he hlt
      rw [hhead] at hf
      cases hf
  | cons f rest =>
    obtain ⟨x, hx, rfl⟩ := (mem_ranking hl f).mp (hhead ▸ List.mem_cons_self)
    have hmem := (mem_timed x).mp ((mem_bests hl x).mp hx).1
    have hfmem := List.mem_of_getElem? hmem.1
    have hfnumber := hl x.1 hfmem
    have hle : x.1.heuristic ≤ noProgress := by
      rw [Scalar.le_iff hfnumber hone]
      exact ((Scalar.lt_iff hfnumber hone).mp hmem.2).le
    refine ⟨?_, x.1.heuristic, List.mem_cons_of_mem _ (List.mem_map.mpr ⟨x.1, hfmem, rfl⟩), ?_⟩
    · intro y hy
      rcases List.mem_cons.mp hy with rfl | hy
      · exact hle
      · obtain ⟨e, he, rfl⟩ := List.mem_map.mp hy
        by_cases hlt : e.heuristic < noProgress
        · obtain ⟨g, hg, hrank⟩ := exists_mem_ranking hl he hlt
          have hsorted := (ranking_ordered hl).sorted
          rw [hhead] at hg hsorted
          refine Entry.le_of_rank_le hfnumber (hl e he) (le_trans ?_ hrank)
          rcases List.mem_cons.mp hg with rfl | hg
          · exact le_refl x.1.rank
          · exact (List.pairwise_cons.mp hsorted).1 g hg
        · exact Scalar.le_of_le_of_le hle (hprogress e he hlt)
    · exact (Scalar.beq_iff hfnumber hfnumber).mpr rfl

end Offers

/-! ## What a population tells -/

namespace Population

variable {m k : Nat} {l : List Entry} {p : Population}

/-- The first of the shortest candidates that reach the goal. -/
def firstShortest (l : List Entry) : Option Chromosome :=
  ((l.filter Entry.reaches).argmin fun e => e.chromosome.length).map (·.chromosome)

theorem Formed.covering (h : p.Formed m l k) : p.covering = firstShortest l := by
  induction h with
  | empty k _ => rfl
  | @offer l k p c x _ _ ih =>
    unfold firstShortest at ih ⊢
    unfold Population.offer
    rw [List.filter_append]
    split
    · next hx =>
      have hreaches : Entry.reaches ⟨x, c.copy⟩ = true := decide_eq_true hx
      rw [List.filter_cons_of_pos hreaches, List.filter_nil, List.argmin_concat]
      unfold offerCovering
      rw [ih]
      cases hold : (l.filter Entry.reaches).argmin fun e => e.chromosome.length with
      | none => rfl
      | some old =>
        rw [Option.map_some, Option.all_some]
        dsimp only
        split
        · next hlt =>
          have hshorter : c.copy.length < old.chromosome.length := of_decide_eq_true hlt
          rw [if_pos hshorter]
          rfl
        · next hge =>
          have hlonger : ¬ c.copy.length < old.chromosome.length :=
            fun hlt => hge (decide_eq_true hlt)
          rw [if_neg hlonger, ih, hold]
    · next hx =>
      have hnot : ¬ Entry.reaches ⟨x, c.copy⟩ = true := by
        unfold Entry.reaches
        simpa using hx
      rw [List.filter_cons_of_neg hnot, List.filter_nil, List.append_nil, offerPartial_covering]
      exact ih
  | draw n _ ih => exact ih
  | shrink n _ _ ih => exact ih

theorem Formed.covered_iff (h : p.Formed m l k) :
    p.covering.isSome = true ↔ ∃ e ∈ l, e.reaches = true := by
  rw [h.covering]
  unfold firstShortest
  rw [Option.isSome_map, ← Option.ne_none_iff_isSome, Ne, List.argmin_eq_none,
    List.filter_eq_nil_iff]
  simp

/-- The least value of all, whatever was forgotten on the way. -/
theorem Formed.best (h : p.Formed 1 l k) (hl : ∀ e ∈ l, e.IsNumber) :
    IsMinimum p.best (noProgress :: l.map Entry.worth) := by
  have hzero : (0 : Float).isNaN = false := by decide
  cases hcovering : p.covering.isSome with
  | true =>
    obtain ⟨e, he, hreaches⟩ := h.covered_iff.mp hcovering
    have hbest : p.best = 0 := by rw [Population.best, if_pos hcovering]
    rw [hbest]
    refine ⟨?_, 0, List.mem_cons_of_mem _ (List.mem_map.mpr ⟨e, he, if_pos hreaches⟩), by decide⟩
    intro y hy
    rcases List.mem_cons.mp hy with rfl | hy
    · show 0 ≤ noProgress
      decide
    · obtain ⟨f, hf, rfl⟩ := List.mem_map.mp hy
      unfold Entry.worth
      split
      · decide
      · next hnot =>
        have hgt : ¬ f.heuristic ≤ 0 := fun hle => hnot (decide_eq_true hle)
        rw [Scalar.le_iff hzero (hl f hf)]
        rw [Scalar.le_iff (hl f hf) hzero] at hgt
        exact (not_le.mp hgt).le
  | false =>
    have hnone : p.covering = none := by
      rw [← Option.not_isSome_iff_eq_none, hcovering]
      exact Bool.false_ne_true
    have hworth : l.map Entry.worth = l.map (·.heuristic) := by
      refine List.map_congr_left fun e he => if_neg fun hreaches => ?_
      rw [h.covered_iff.mpr ⟨e, he, hreaches⟩] at hcovering
      cases hcovering
    have hhead : p.entries.head? = (ranking l).head? := by
      have htake := congrArg List.head? ((h.ranked hl).best hnone)
      rwa [List.head?_take, List.head?_take, if_neg Nat.one_ne_zero,
        if_neg Nat.one_ne_zero] at htake
    rw [hworth, Population.best, hcovering, if_neg Bool.false_ne_true, hhead]
    exact isMinimum_ranking hl

end Population

/-! ## What an archive tells -/

namespace Archive

variable {ω : Type} [WordSource ω]

/-- What an archive tells of a goal is the best of all that was offered. -/
structure RemembersBest (a : Archive) (g : GoalId) (offers : List Entry) : Prop where
  covered : g ∈ a.coveredGoals ↔ ∃ e ∈ offers, e.heuristic ≤ 0
  covering : (a.population? g).map (·.covering) = some (Population.firstShortest offers)
  best : IsMinimum (a.bestValue g) (noProgress :: offers.map Entry.worth)
  /-- The same of the values as they are, if they are in range. -/
  bestInRange : (∀ e ∈ offers, 0 ≤ e.heuristic) →
    IsMinimum (a.bestValue g) (noProgress :: offers.map (·.heuristic))

theorem remembersBest (goals : List GoalId) (capacity : Nat) (calls : List (ArchiveCall ω))
    (g : GoalId) (hg : g ∈ goals) (hnumbers : ∀ e ∈ offered g calls, e.heuristic.isNaN = false) :
    ((ofGoals goals capacity).performAll calls).RemembersBest g (offered g calls) := by
  have hformed := formed_performAll goals capacity calls (roomFor_one goals capacity calls) g
  have hcovered_iff : ∀ p, (g, p) ∈ ((ofGoals goals capacity).performAll calls).populations →
      (p.covering.isSome = true ↔ ∃ e ∈ offered g calls, e.heuristic ≤ 0) := by
    intro p hp
    rw [(hformed p hp).covered_iff]
    simp only [Entry.reaches, decide_eq_true_iff]
  obtain ⟨p, hp⟩ := exists_population goals capacity calls hg
  have hlookup := population?_performAll goals capacity calls hp
  have hbest : IsMinimum (((ofGoals goals capacity).performAll calls).bestValue g)
      (noProgress :: (offered g calls).map Entry.worth) := by
    unfold bestValue
    rw [hlookup]
    exact (hformed p hp).best hnumbers
  refine ⟨?_, ?_, hbest, fun hrange => hbest.of_worth hrange⟩
  · rw [mem_coveredGoals]
    constructor
    · rintro ⟨q, hq, hsome⟩
      exact (hcovered_iff q hq).mp hsome
    · exact fun hreached => ⟨p, hp, (hcovered_iff p hp).mpr hreached⟩
  · rw [hlookup, Option.map_some, (hformed p hp).covering]

/-- An archive tells the best of all that was offered for a goal; later on it tells no less. -/
theorem remembersBest_performAll (goals : List GoalId) (capacity : Nat)
    (calls more : List (ArchiveCall ω)) (g : GoalId) (hg : g ∈ goals)
    (hnumbers : ∀ e ∈ offered g (calls ++ more), e.heuristic.isNaN = false) :
    ((ofGoals goals capacity).performAll calls).RemembersBest g (offered g calls) ∧
      (g ∈ ((ofGoals goals capacity).performAll calls).coveredGoals →
        g ∈ ((ofGoals goals capacity).performAll (calls ++ more)).coveredGoals) ∧
      ((ofGoals goals capacity).performAll (calls ++ more)).bestValue g ≤
        ((ofGoals goals capacity).performAll calls).bestValue g := by
  have hsubset : ∀ e ∈ offered g calls, e ∈ offered g (calls ++ more) := by
    intro e he
    rw [offered_append]
    exact List.mem_append_left _ he
  have hnow := remembersBest goals capacity calls g hg fun e he => hnumbers e (hsubset e he)
  have hlater := remembersBest goals capacity (calls ++ more) g hg hnumbers
  refine ⟨hnow, ?_, ?_⟩
  · rw [hnow.covered, hlater.covered]
    rintro ⟨e, he, hreaches⟩
    exact ⟨e, hsubset e he, hreaches⟩
  · refine hnow.best.le_of_subset hlater.best fun z hz => ?_
    rcases List.mem_cons.mp hz with rfl | hz
    · exact List.mem_cons_self
    · obtain ⟨e, he, rfl⟩ := List.mem_map.mp hz
      exact List.mem_cons_of_mem _ (List.mem_map.mpr ⟨e, hsubset e he, rfl⟩)

/-- A longer and a shorter candidate reach the goal after all. -/
def twoCovering : List (ArchiveCall Random.Scripted) :=
  [.update (allocations 3) { Evaluation.empty with heuristics := [(7, 0)] },
    .solutions,
    .update (allocations 1) { Evaluation.empty with heuristics := [(7, 0)] }]

theorem remembersBest_performAll_twoCovering :
    ((ofGoals [7] 2).performAll twoOffers).RemembersBest 7 (offered 7 twoOffers) ∧
      (7 ∈ ((ofGoals [7] 2).performAll twoOffers).coveredGoals →
        7 ∈ ((ofGoals [7] 2).performAll (twoOffers ++ twoCovering)).coveredGoals) ∧
      ((ofGoals [7] 2).performAll (twoOffers ++ twoCovering)).bestValue 7 ≤
        ((ofGoals [7] 2).performAll twoOffers).bestValue 7 :=
  remembersBest_performAll [7] 2 twoOffers twoCovering 7 (by decide) (by decide)

/-- A candidate with a value below the range. -/
def belowRange : List (ArchiveCall Random.Scripted) :=
  [.update (allocations 1) { Evaluation.empty with heuristics := [(7, -0.5)] }]

/-- A goal that is reached has the value 0, and not the least one that was offered. -/
theorem not_isMinimum_belowRange :
    (∀ e ∈ offered 7 belowRange, e.heuristic.isNaN = false) ∧
      ((ofGoals [7] 1).performAll belowRange).bestValue 7 = 0 ∧
      ¬ IsMinimum (((ofGoals [7] 1).performAll belowRange).bestValue 7)
        (noProgress :: (offered 7 belowRange).map (·.heuristic)) := by
  refine ⟨by decide, by decide, ?_⟩
  intro hleast
  have hle := hleast.1 (-0.5) (List.mem_cons_of_mem _ List.mem_cons_self)
  revert hle
  decide

end Archive

end SuiteSearch
