import SuiteSearch.Proofs.Archive.NonEmpty
import SuiteSearch.Proofs.Search.Invariant
import SuiteSearch.Random.Words

/-!
# The archive as a fallback

Once an archive holds something, a search is never without a candidate: what the generator fails to
give is drawn from the archive. So a search that gives up has an empty archive.

    HasHistory.sample      a candidate from an archive that holds something
    StopsBy.maintains      an archive with a history is an invariant of a search
    neverRunsDry           all of it, for any history
-/

namespace SuiteSearch

variable {ω : Type} [WordSource ω] {stop : Fault → Prop}

/-! ## Sampling -/

namespace Archive

variable {a : Archive}

/-- What sampling leaves behind, and that it gives a candidate if it can. -/
structure Supplied (ω : Type) [WordSource ω] (a : Archive) (x : Sampled × Archive) : Prop where
  history : x.2.HasHistory ω
  isEmpty : x.2.isEmpty = a.isEmpty
  sampled : a.isEmpty = false → ∃ y, x.1 = some y ∧ y.1.isEmpty = false

theorem Supplied.ne_none {x : Sampled × Archive} (h : Supplied ω a x)
    (hne : x.2.isEmpty = false) : x.1 ≠ none := by
  obtain ⟨y, hy, -⟩ := h.sampled (h.isEmpty.symm.trans hne)
  rw [hy]
  exact Option.some_ne_none y

theorem HasHistory.drawn (h : a.HasHistory ω) :
    Act.Yields (a.drawn : Act ω (Sampled × Archive)) stop (Supplied ω a) := by
  have hsolution : Draw.Gives (a.solution : Draw ω (Option Chromosome × Archive)) fun x =>
      x.2.HasHistory ω ∧ x.2.isEmpty = a.isEmpty ∧
        (a.isEmpty = false → ∃ c, x.1 = some c ∧ c.isEmpty = false) := by
    intro w
    refine ⟨h.perform (.solution w), a.isEmpty_solution w, fun hne => ?_⟩
    obtain ⟨c, hc, hdrawn⟩ := exists_solution hne w
    have hc : c.isEmpty = false := h.retained hc
    exact ⟨c.freshCopy, hdrawn, hc⟩
  refine .bind (.draw hsolution) fun x hx => .pure ⟨hx.1, hx.2.1, fun hne => ?_⟩
  obtain ⟨c, hdrawn, hc⟩ := hx.2.2 hne
  refine ⟨(c, .archive), ?_, hc⟩
  rw [hdrawn, Option.filter_some, hc]
  rfl

omit [WordSource ω] in
theorem generated_nonempty {generate : Act ω Chromosome}
    (hgenerate : generate.Yields stop fun _ => True) :
    (generated generate).Yields stop fun x => ∀ y, x = some y → y.1.isEmpty = false := by
  refine .bind hgenerate fun c _ => .pure ?_
  intro y hy
  split at hy
  · cases hy
  · next hne =>
    cases hy
    exact Bool.eq_false_iff.mpr hne

/-- Whatever the generator gives, and whichever source comes first. -/
theorem HasHistory.sample (h : a.HasHistory ω) {generate : Act ω Chromosome}
    (hgenerate : generate.Yields stop fun _ => True) (probability : Float) :
    (a.sample generate probability).Yields stop (Supplied ω a) := by
  refine .bind (.draw (.any _)) fun x _ => ?_
  split
  · refine .bind (generated_nonempty hgenerate) fun sampled hsampled => ?_
    split
    · next y => exact .pure ⟨h, rfl, fun _ => ⟨y, rfl, hsampled y rfl⟩⟩
    · exact h.drawn
  · refine .bind h.drawn fun x hx => ?_
    split
    · exact .pure hx
    · refine .bind (generated_nonempty hgenerate) fun sampled _ =>
        .pure ⟨hx.history, hx.isEmpty, ?_⟩
      intro hne
      obtain ⟨y, hy, -⟩ := hx.sampled hne
      cases hy

end Archive

/-! ## Searches -/

namespace SearchPlan

variable {plan : SearchPlan ω}

/-- Nothing but faults with a property stops the parts of a plan. -/
structure StopsBy (stop : Fault → Prop) (plan : SearchPlan ω) : Prop where
  seed : plan.seed.Yields stop fun _ => True
  generate : plan.generate.Yields stop fun _ => True
  mutate (p : Program) : (plan.mutate p).Yields stop fun _ => True

theorem StopsBy.maintains (h : plan.StopsBy stop) (hmalformed : stop .malformedProgram) :
    plan.Maintains (Archive.HasHistory ω) (fun _ => True) stop where
  seed := h.seed
  sample a probability ha := by
    refine (ha.sample h.generate probability).mono (fun _ hf => hf) fun x hx => ?_
    exact ⟨hx.history, fun _ _ => True.intro, fun hnone hne => (hx.ne_none hne hnone).elim⟩
  mutate c _ := by
    refine (h.mutate c.program).mono (fun _ hf => hf) fun x _ => ?_
    split
    · exact True.intro
    · exact hmalformed
  evaluate a c w e ha _ _ := ⟨True.intro, ha.perform (.update (c.recordEvaluation e) e)⟩
  shrink a n ha := ha.perform (.shrink n)

/-- A search with such an archive is stopped by its parts or for a malformed program only. -/
theorem StopsBy.evolve_stop (h : plan.StopsBy stop) (hmalformed : stop .malformedProgram)
    (s : Search ω) (hs : s.archive.HasHistory ω) (f : Fault) (hf : plan.evolve s = .error f) :
    stop f := by
  have hkept := (h.maintains hmalformed).evolve_keeps s ⟨hs, fun _ _ => True.intro⟩
  rwa [hf] at hkept

theorem StopsBy.run_stop (h : plan.StopsBy stop) (hmalformed : stop .malformedProgram)
    (s : Search ω) (hs : s.archive.HasHistory ω) (f : Fault) (hf : plan.run s = .error f) :
    stop f :=
  (h.maintains hmalformed).run_stop s ⟨hs, fun _ _ => True.intro⟩ f hf

/-- A candidate that is not empty is given unless some fault stops the step. -/
def GivesCandidate (stop : Fault → Prop) :
    Except Fault (Except Error (Chromosome × SampleSource) × Search ω) → Prop
  | .error f => stop f
  | .ok (r, _) => ∃ c source, r = .ok (c, source) ∧ c.isEmpty = false

theorem resample_gives (hgenerate : plan.generate.Yields stop fun _ => True) (s : Search ω)
    (hs : s.archive.HasHistory ω) (hne : s.archive.isEmpty = false) :
    GivesCandidate stop (plan.resample s) := by
  have hsample := hs.sample hgenerate s.policy.probability s.world
  unfold resample
  rw [Step.get_bind, step_bind]
  unfold SearchStep.act
  cases hx : s.archive.sample plan.generate s.policy.probability s.world with
  | error f =>
    rw [hx] at hsample
    exact hsample
  | ok x =>
    obtain ⟨⟨sampled, archive⟩, w⟩ := x
    rw [hx] at hsample
    obtain ⟨⟨c, source⟩, rfl, hc⟩ := hsample.sampled hne
    exact ⟨c, source, rfl, hc⟩

end SearchPlan

/-! ## Histories -/

namespace Archive

/-- An archive that has taken an offer, or that holds something, goes on holding something, and a
search that works on it goes on finding candidates. -/
structure NeverRunsDry (ω : Type) [WordSource ω] (a : Archive) : Prop where
  accepted (c : Chromosome) (e : Evaluation) (more : List (ArchiveCall ω)) :
    (a.update c e).2 = true → ((a.update c e).1.performAll more).isEmpty = false
  stays (more : List (ArchiveCall ω)) : a.isEmpty = false → (a.performAll more).isEmpty = false
  /-- What is drawn is new, and has the program of a candidate that is kept. -/
  solution (w : ω) : a.isEmpty = false → ∃ c old, (a.solution w).1.1 = some c ∧ a.Retains old ∧
    c.program.statements = old.program.statements ∧ c.isEmpty = false ∧ c.mutations = 0 ∧
    c.evaluations = 0
  sample (stop : Fault → Prop) (generate : Act ω Chromosome) (probability : Float) :
    a.isEmpty = false → generate.Yields stop (fun _ => True) →
      (a.sample generate probability).Yields stop fun x =>
        ∃ c source, x.1 = some (c, source) ∧ c.isEmpty = false
  resample (stop : Fault → Prop) (plan : SearchPlan ω) (s : Search ω) : s.archive = a →
    a.isEmpty = false → plan.generate.Yields stop (fun _ => True) →
      SearchPlan.GivesCandidate stop (plan.resample s)
  /-- The search never finds that it gave up in vain. -/
  evolve (plan : SearchPlan ω) (s : Search ω) : s.archive = a →
    plan.StopsBy (· ≠ .archiveNotEmpty) → plan.evolve s ≠ .error .archiveNotEmpty
  run (plan : SearchPlan ω) (s : Search ω) : s.archive = a →
    plan.StopsBy (· ≠ .archiveNotEmpty) → plan.run s ≠ .error .archiveNotEmpty

/-- No history lets an archive lose all that it has taken. -/
theorem neverRunsDry (goals : List GoalId) (capacity : Nat) (calls : List (ArchiveCall ω)) :
    ((ofGoals goals capacity).performAll calls).NeverRunsDry ω := by
  have h : ((ofGoals goals capacity).performAll calls).HasHistory ω := ⟨goals, capacity, calls, rfl⟩
  generalize (ofGoals goals capacity).performAll calls = a at h
  refine ⟨?_, ?_, ?_, ?_, ?_, ?_, ?_⟩
  · intro c e more htaken
    exact (h.perform (.update c e)).performAll_isEmpty more (h.update_isEmpty c e (Or.inr htaken))
  · exact h.performAll_isEmpty
  · intro w hne
    obtain ⟨old, hold, hdrawn⟩ := exists_solution hne w
    have hnonempty : old.isEmpty = false := h.retained hold
    exact ⟨old.freshCopy, old, hdrawn, hold, rfl, hnonempty, rfl, rfl⟩
  · intro stop generate probability hne hgenerate
    refine (h.sample hgenerate probability).mono (fun _ hf => hf) fun x hx => ?_
    obtain ⟨⟨c, source⟩, hsampled, hc⟩ := hx.sampled hne
    exact ⟨c, source, hsampled, hc⟩
  · rintro stop plan s rfl hne hgenerate
    exact SearchPlan.resample_gives hgenerate s h hne
  · rintro plan s rfl hparts hf
    exact hparts.evolve_stop nofun s h _ hf rfl
  · rintro plan s rfl hparts hf
    exact hparts.run_stop nofun s h _ hf rfl

/-- A program of one statement is offered and reaches nothing yet; then room is made. -/
def oneOffer : List (ArchiveCall Random.Scripted) :=
  [.update (.ofProgram { Program.empty with statements := [.allocate .int 0] })
      { Evaluation.empty with heuristics := [(7, 0.5)] },
    .shrink 0]

/-- A generator that gives empty programs only does no harm. -/
theorem neverRunsDry_oneOffer : ((ofGoals [7] 3).performAll oneOffer).isEmpty = false ∧
    ∀ probability, (((ofGoals [7] 3).performAll oneOffer).sample
      (pure (.ofProgram .empty) : Act Random.Scripted Chromosome) probability).Yields
        (fun _ => False) fun x => ∃ c source, x.1 = some (c, source) ∧ c.isEmpty = false := by
  have hne : ((ofGoals [7] 3).performAll oneOffer).isEmpty = false := by decide
  exact ⟨hne, fun probability =>
    (neverRunsDry [7] 3 oneOffer).sample _ _ probability hne (.pure True.intro)⟩

end Archive

end SuiteSearch
