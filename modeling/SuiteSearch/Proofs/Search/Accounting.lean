import SuiteSearch.Proofs.Scalar.Counts
import SuiteSearch.Proofs.Search.Coverage
import SuiteSearch.Proofs.Search.Fallback

/-!
# The account of a search

Where the oracle measures every program, the first candidate and every iteration take one evaluation
each, so a budget of evaluations ends the search.  A search that gives up does so for want of a
candidate, and its archive is empty.

    isFinished_iff       a budget of at most 53 bits is used up when it should be
    evolve_counted       one iteration takes one evaluation, or fails for want of a candidate
    iterate_counted      any number of them, as long as the budget lasts
    iterate_enough       no more iterations than the budget has evaluations are ever needed
    run_accounted        the account of a whole search, and what can stop it
-/

namespace SuiteSearch

/-! ## Budgets -/

namespace Budget

/-- A budget of evaluations, some of which are used. -/
def counted (n used : Nat) : Budget := ⟨some n, none, used⟩

theorem isFinished_iff {n used : Nat} (hn : n ≤ 2 ^ 53) (hused : used ≤ 2 ^ 53)
    (elapsed : Duration) : (counted n used).isFinished elapsed = true ↔ n ≤ used := by
  show decide (1 ≤ Scalar.clampUnit (Scalar.larger (counted n used).evaluationsUsed 0)) = true ↔ _
  rw [decide_eq_true_iff]
  cases n with
  | zero =>
    have hone : (counted 0 used).evaluationsUsed = 1 := rfl
    rw [hone, Scalar.one_le_clampUnit_larger rfl]
    simp only [Nat.zero_le, iff_true]
    decide
  | succ n =>
    obtain ⟨hnan, hone⟩ := Scalar.one_le_div_count used (n + 1) hused (Nat.succ_pos n) hn
    rw [← hone]
    exact Scalar.one_le_clampUnit_larger hnan

end Budget

/-- An archive with a history, and only programs with a property in it. -/
structure Archive.Stocked (ω : Type) [WordSource ω] (P : List Statement → Prop) (a : Archive) :
    Prop where
  history : a.HasHistory ω
  retained : ∀ c, a.Retains c → P c.program.statements

namespace SearchPlan

open Step (Ended)

variable {ω : Type} {plan : SearchPlan ω} {n : Nat}

/-! ## Steps -/

/-- The oracle measures every program. -/
def NeverFails (plan : SearchPlan ω) : Prop := ∀ p w, ∃ e, (plan.evaluate p w).1 = .ok e

/-- Iterations and budget are as before. -/
def Uncounted (s s' : Search ω) : Prop := s'.iteration = s.iteration ∧ s'.budget = s.budget

/-- Nothing was sampled, and there is nothing in the archive. -/
def Exhausted (e : Error) (s : Search ω) : Prop :=
  e = .resampleExhausted s.iteration ∧ s.archive.isEmpty = true

theorem act_uncounted {α : Type} (a : Act ω α) (s : Search ω) :
    Ended (fun _ => True) (fun _ _ => False) (fun _ s' => Uncounted s s')
      (SearchStep.act a s) := by
  unfold SearchStep.act
  cases a s.world with
  | error f => exact True.intro
  | ok x => exact ⟨rfl, rfl⟩

/-- A step that does not fail has nothing to hand over but its value. -/
theorem attempt_counted {α : Type} {b : SearchStep ω α} {s : Search ω}
    {fail : Error → Search ω → Prop} {done : α → Search ω → Prop}
    (h : Ended (fun _ => True) (fun _ _ => False) done (b s)) :
    Ended (fun _ => True) fail (fun r s' => ∃ a, r = .ok a ∧ done a s') (b.attempt s) :=
  h.attempt

theorem evaluateCandidate_counted (h : plan.NeverFails) (c : Chromosome) (s : Search ω) :
    Ended (fun _ => True) (fun _ _ => False)
      (fun _ s' => s'.iteration = s.iteration ∧ s'.budget = s.budget.countEvaluation)
      (plan.evaluateCandidate c s) := by
  obtain ⟨e, he⟩ := h c.program s.world
  unfold evaluateCandidate
  rw [Step.get_bind]
  cases hmeasured : plan.evaluate c.program s.world with
  | mk measured w =>
    rw [hmeasured] at he
    obtain rfl : measured = .ok e := he
    exact ⟨rfl, rfl⟩

variable [WordSource ω]

theorem resample_uncounted (s : Search ω) :
    Ended (fun _ => True) (fun e s' => Exhausted e s' ∧ Uncounted s s')
      (fun _ s' => Uncounted s s') (plan.resample s) := by
  unfold resample
  rw [Step.get_bind]
  refine (act_uncounted _ s).never.bind ?_
  rintro ⟨sampled, archive⟩ s' ⟨hiteration, hbudget⟩
  cases sampled with
  | some y => exact ⟨hiteration, hbudget⟩
  | none =>
    dsimp only
    cases hempty : archive.isEmpty with
    | false => exact True.intro
    | true =>
      have herror := congrArg Error.resampleExhausted hiteration.symm
      exact ⟨⟨herror, hempty⟩, hiteration, hbudget⟩

theorem candidate_uncounted (s : Search ω) :
    Ended (fun _ => True) (fun e s' => Exhausted e s' ∧ Uncounted s s')
      (fun _ s' => Uncounted s s') (plan.candidate s) := by
  have hresample : ∀ source : SampleSource → Option SampleSource,
      Ended (fun _ => True) (fun e s' => Exhausted e s' ∧ Uncounted s s')
        (fun _ s' => Uncounted s s')
        ((plan.resample >>= fun x => pure (x.1, source x.2) :
          SearchStep ω (Chromosome × Option SampleSource)) s) :=
    fun source => (resample_uncounted s).bind fun _ _ hs => hs
  unfold candidate
  rw [Step.get_bind]
  cases s.current with
  | none => exact hresample some
  | some c =>
    by_cases hspent : plan.isSpent c = true
    · simp only [hspent, if_true]
      exact hresample some
    · simp only [hspent]
      exact ⟨rfl, rfl⟩

omit [WordSource ω] in
theorem mutateCandidate_uncounted (c : Chromosome) (s : Search ω) :
    Ended (fun _ => True) (fun _ _ => False) (fun _ s' => Uncounted s s')
      (plan.mutateCandidate c s) := by
  refine (act_uncounted _ s).bind ?_
  rintro ⟨p, mutated⟩ s' hs'
  dsimp only
  cases p.isValid with
  | false => exact True.intro
  | true => exact hs'

theorem work_counted (h : plan.NeverFails) (s : Search ω) :
    Ended (fun _ => True) (fun e s' => Exhausted e s' ∧ Uncounted s s')
      (fun _ s' => s'.iteration = s.iteration ∧ s'.budget = s.budget.countEvaluation)
      (plan.work s) := by
  refine (candidate_uncounted s).bind fun x s₁ h₁ => ?_
  refine (mutateCandidate_uncounted x.1 s₁).never.bind fun y s₂ h₂ => ?_
  refine (attempt_counted (evaluateCandidate_counted h y.1 s₂)).bind ?_
  rintro _ s₃ ⟨c, rfl, hiteration, hbudget⟩
  refine ⟨?_, ?_⟩
  · show s₃.iteration = s.iteration
    rw [hiteration, h₂.1, h₁.1]
  · show s₃.budget = s.budget.countEvaluation
    rw [hbudget, h₂.2, h₁.2]

/-- One iteration takes one evaluation, or fails for want of a candidate. -/
theorem evolve_counted (h : plan.NeverFails) (s : Search ω) :
    Ended (fun _ => True) (fun e s' => Exhausted e s' ∧ Uncounted s s')
      (fun _ s' => s'.iteration = s.iteration + 1 ∧ s'.budget = s.budget.countEvaluation)
      (plan.evolve s) := by
  refine (work_counted h s).bind ?_
  rintro worked s' ⟨hiteration, hbudget⟩
  exact ⟨congrArg (· + 1) hiteration, hbudget⟩

/-! ## Runs -/

/-- There is nothing left to do when the clock is read before an iteration. -/
def Stops (plan : SearchPlan ω) (s : Search ω) : Prop :=
  plan.isDone (plan.clock.elapsed .checking s.budget.evaluations) s = true

/-- One evaluation more than iterations is taken from the budget, and no more than it has. -/
structure Counted (n : Nat) (s : Search ω) : Prop where
  budget : s.budget = .counted n (s.iteration + 1)
  bounded : s.iteration + 1 ≤ max n 1

omit [WordSource ω] in
theorem Counted.mono {s s' : Search ω} (h : Counted n s) (hs : Uncounted s s') : Counted n s' := by
  constructor
  · rw [hs.2, hs.1, h.budget]
  · rw [hs.1]
    exact h.bounded

omit [WordSource ω] in
/-- There is something left to do only as long as the budget lasts. -/
theorem Counted.lt_of_not_stops {s : Search ω} (h : Counted n s) (hn : n ≤ 2 ^ 53)
    (hstops : ¬ plan.Stops s) : s.iteration + 1 < n := by
  by_contra hlt
  have hused : s.iteration + 1 ≤ 2 ^ 53 := Nat.le_trans h.bounded (by omega)
  have hfinished := (Budget.isFinished_iff hn hused
    (plan.clock.elapsed .checking s.budget.evaluations)).mpr (by omega)
  rw [← h.budget] at hfinished
  exact hstops (by rw [Stops, isDone, hfinished, Bool.true_or])

omit [WordSource ω] in
theorem start_counted (h : plan.NeverFails) (archive : Archive) (world : ω) :
    Ended (fun _ => True) (fun _ _ => False) (fun _ s' => Counted n s')
      (plan.start (.ofSettings plan.settings archive world (.ofEvaluations n))) := by
  obtain ⟨s, hs⟩ : ∃ s, s = Search.ofSettings plan.settings archive world (.ofEvaluations n) :=
    ⟨_, rfl⟩
  rw [← hs]
  show Ended _ _ _ (plan.makeFirst (s.add (.started plan.goals.size)))
  refine (act_uncounted plan.seed _).bind fun c s₁ h₁ => ?_
  refine (evaluateCandidate_counted h c s₁).bind ?_
  rintro c s₂ ⟨hiteration, hbudget⟩
  have hzero : s₂.iteration = 0 := by rw [hiteration, h₁.1, hs]; rfl
  have hone : s₂.budget = .counted n 1 := by rw [hbudget, h₁.2, hs]; rfl
  refine ⟨?_, ?_⟩
  · show s₂.budget = .counted n (s₂.iteration + 1)
    rw [hone, hzero]
  · show s₂.iteration + 1 ≤ max n 1
    omega

/-- One more iteration, where there is something left to do. -/
theorem evolve_keeps_counted (h : plan.NeverFails) (hn : n ≤ 2 ^ 53) (s : Search ω)
    (hs : Counted n s) (hstops : ¬ plan.Stops s) :
    Ended (fun _ => True) (fun e s' => Exhausted e s' ∧ Counted n s')
      (fun _ s' => Counted n s' ∧ s'.iteration = s.iteration + 1) (plan.evolve s) := by
  have hlt := hs.lt_of_not_stops hn hstops
  refine (evolve_counted h s).mono (fun _ hf => hf) ?_ ?_
  · exact fun e s' hfail => ⟨hfail.1, hs.mono hfail.2⟩
  · rintro _ s' ⟨hiteration, hbudget⟩
    refine ⟨⟨?_, by omega⟩, hiteration⟩
    rw [hbudget, hs.budget, hiteration]
    rfl

theorem iterate_of_stops {s : Search ω} (hstops : plan.Stops s) (fuel : Nat) :
    plan.iterate fuel s = .ok (.ok (), s) := by
  cases fuel with
  | zero => rfl
  | succ fuel =>
    unfold Stops at hstops
    unfold iterate iterateBy
    rw [Clock.read_bind, Step.get_bind, if_pos hstops]
    rfl

theorem iterate_of_not_stops {s : Search ω} (hstops : ¬ plan.Stops s) (fuel : Nat) :
    plan.iterate (fuel + 1) s = (plan.evolve >>= fun stats =>
      modify (·.add (.iterated stats)) >>= fun _ => plan.iterate fuel) s := by
  unfold Stops at hstops
  unfold iterate
  rw [iterateBy, Clock.read_bind, Step.get_bind, if_neg hstops]
  rfl

omit [WordSource ω] in
theorem stops_of_enough {s : Search ω} (hs : Counted n s) (hn : n ≤ 2 ^ 53)
    (henough : n ≤ s.iteration + 1) : plan.Stops s := by
  by_contra hstops
  have := hs.lt_of_not_stops hn hstops
  omega

/-- As many iterations as the budget has evaluations left come to an end. -/
theorem iterate_counted (h : plan.NeverFails) (hn : n ≤ 2 ^ 53) (fuel : Nat) (s : Search ω)
    (hs : Counted n s) (henough : n ≤ s.iteration + 1 + fuel) :
    Ended (fun _ => True) (fun e s' => Exhausted e s' ∧ Counted n s')
      (fun _ s' => Counted n s' ∧ plan.Stops s') (plan.iterate fuel s) := by
  induction fuel generalizing s with
  | zero => exact ⟨hs, stops_of_enough hs hn henough⟩
  | succ fuel ih =>
    by_cases hstops : plan.Stops s
    · rw [iterate_of_stops hstops]
      exact ⟨hs, hstops⟩
    · rw [iterate_of_not_stops hstops]
      refine (evolve_keeps_counted h hn s hs hstops).bind ?_
      rintro stats s' ⟨hs', hiteration⟩
      refine ih (s'.add (.iterated stats)) ⟨hs'.budget, hs'.bounded⟩ ?_
      show n ≤ s'.iteration + 1 + fuel
      omega

/-- More iterations than the budget has evaluations left change nothing. -/
theorem iterate_enough (h : plan.NeverFails) (hn : n ≤ 2 ^ 53) (fuel fuel' : Nat) (s : Search ω)
    (hs : Counted n s) (henough : n ≤ s.iteration + 1 + fuel)
    (henough' : n ≤ s.iteration + 1 + fuel') : plan.iterate fuel s = plan.iterate fuel' s := by
  induction fuel generalizing fuel' s with
  | zero =>
    have hstops : plan.Stops s := stops_of_enough hs hn henough
    rw [iterate_of_stops hstops, iterate_of_stops hstops]
  | succ fuel ih =>
    by_cases hstops : plan.Stops s
    · rw [iterate_of_stops hstops, iterate_of_stops hstops]
    · have hlt := hs.lt_of_not_stops hn hstops
      obtain ⟨fuel', rfl⟩ : ∃ k, fuel' = k + 1 := ⟨fuel' - 1, by omega⟩
      rw [iterate_of_not_stops hstops, iterate_of_not_stops hstops]
      refine Step.bind_congr (evolve_keeps_counted h hn s hs hstops) ?_
      rintro stats s' ⟨hs', hiteration⟩
      refine ih fuel' (s'.add (.iterated stats)) ⟨hs'.budget, hs'.bounded⟩ ?_ ?_
      · show n ≤ s'.iteration + 1 + fuel
        omega
      · show n ≤ s'.iteration + 1 + fuel'
        omega

/-! ## The account -/

/-- A search with so many iterations at most. -/
def runWithin (plan : SearchPlan ω) (fuel : Nat) : SearchStep ω Suite := do
  plan.start
  plan.iterate fuel
  plan.finish

/-- The suite that a search gives, and the state that it leaves. -/
structure Account (plan : SearchPlan ω) (n : Nat) (suite : Suite) (s : Search ω) : Prop where
  evaluations : suite.evaluations = suite.iterations + 1
  bounded : suite.evaluations ≤ max n 1
  iterations : s.iteration = suite.iterations
  budget : s.budget = .counted n suite.evaluations
  /-- The budget is used up, or every goal is reached. -/
  reason : n ≤ suite.evaluations ∨
    plan.goals.size ≠ 0 ∧ plan.goals.size ≤ s.archive.coveredGoals.length

omit [WordSource ω] in
/-- There is nothing left to do for one of two reasons. -/
theorem Counted.reason {s : Search ω} (h : Counted n s) (hn : n ≤ 2 ^ 53)
    (hstops : plan.Stops s) : n ≤ s.iteration + 1 ∨
      plan.goals.size ≠ 0 ∧ plan.goals.size ≤ s.archive.coveredGoals.length := by
  rcases Bool.or_eq_true_iff.mp hstops with hfinished | hcovered
  · rw [h.budget] at hfinished
    have hused : s.iteration + 1 ≤ 2 ^ 53 := Nat.le_trans h.bounded (by omega)
    exact Or.inl ((Budget.isFinished_iff hn hused _).mp hfinished)
  · obtain ⟨hgoals, hcovered⟩ := Bool.and_eq_true_iff.mp hcovered
    exact Or.inr ⟨of_decide_eq_true hgoals, of_decide_eq_true hcovered⟩

omit [WordSource ω] in
/-- The final pass counts nothing and covers nothing. -/
theorem Finalized.state {Q : Heuristics → Prop} {s s' : Search ω} {suite : Suite}
    (h : plan.Finalized Q s suite s') :
    Uncounted s s' ∧ s'.archive.coveredGoals = s.archive.coveredGoals := by
  cases h with
  | empty _ _ hbeside =>
    obtain ⟨w, events, rfl⟩ := hbeside
    exact ⟨⟨rfl, rfl⟩, rfl⟩
  | scored _ best complete _ hbeside =>
    obtain ⟨w, events, rfl⟩ := hbeside
    exact ⟨⟨rfl, rfl⟩, rfl⟩

omit [WordSource ω] in
theorem finish_account (hn : n ≤ 2 ^ 53) (s : Search ω) (hs : Counted n s)
    (hstops : plan.Stops s) (fail : Error → Search ω → Prop) :
    Ended (fun _ => True) fail (plan.Account n) (plan.finish s) := by
  refine finish_ended s (fun _ _ => .any) True.intro ?_
  intro e suite s' elapsed hsuite
  obtain ⟨huncounted, hcovered⟩ := Finalized.state hsuite
  have hs' : Counted n s' := Counted.mono ⟨hs.budget, hs.bounded⟩ huncounted
  have hiteration : s'.iteration = s.iteration := huncounted.1
  have hevaluations : (s'.stamp elapsed suite).evaluations = s'.iteration + 1 :=
    congrArg Budget.evaluations hs'.budget
  refine ⟨hevaluations, ?_, rfl, ?_, ?_⟩
  · rw [hevaluations]
    exact hs'.bounded
  · rw [hevaluations]
    exact hs'.budget
  · rw [hevaluations, hiteration]
    show _ ∨ plan.goals.size ≠ 0 ∧ plan.goals.size ≤ s'.archive.coveredGoals.length
    rw [hcovered]
    exact hs.reason hn hstops

/-- More iterations than the budget has evaluations change nothing about a search. -/
theorem runWithin_enough (h : plan.NeverFails) (hn : n ≤ 2 ^ 53) (archive : Archive) (world : ω)
    {fuel fuel' : Nat} (henough : n ≤ fuel + 1) (henough' : n ≤ fuel' + 1) :
    plan.runWithin fuel (.ofSettings plan.settings archive world (.ofEvaluations n)) =
      plan.runWithin fuel' (.ofSettings plan.settings archive world (.ofEvaluations n)) := by
  refine Step.bind_congr (start_counted h archive world) fun _ s hs => ?_
  rw [step_bind, step_bind, iterate_enough h hn fuel fuel' s hs (by omega) (by omega)]

/-- What a search comes to if it is given as many iterations as the budget has evaluations. -/
theorem runWithin_ended (h : plan.NeverFails) (hn : n ≤ 2 ^ 53) (archive : Archive) (world : ω)
    {fuel : Nat} (henough : n ≤ fuel + 1) :
    Ended (fun _ => True) Exhausted (plan.Account n)
      (plan.runWithin fuel (.ofSettings plan.settings archive world (.ofEvaluations n))) := by
  refine (start_counted h archive world).never.bind fun _ s hs => ?_
  refine ((iterate_counted h hn fuel s hs (by omega)).mono (fun _ hf => hf)
    (fun _ _ hfail => hfail.1) fun _ _ hs => hs).bind fun _ s hs => ?_
  exact finish_account hn s hs.1 hs.2 Exhausted

/-! ## Faults -/

variable {P : List Statement → Prop} {stop : Fault → Prop}

/-- The mutator keeps programs with a property, which are all valid. -/
structure KeepsValid (P : List Statement → Prop) (stop : Fault → Prop) (plan : SearchPlan ω) :
    Prop where
  valid (p : Program) : P p.statements → p.isValid = true
  mutate (p : Program) : P p.statements → (plan.mutate p).Yields stop fun x => P x.1.statements

/-- Programs with the property are made, too. -/
structure MakesValid (P : List Statement → Prop) (stop : Fault → Prop) (plan : SearchPlan ω) :
    Prop where
  seed : plan.seed.Yields stop fun c => P c.program.statements
  generate : plan.generate.Yields stop fun c => P c.program.statements

theorem KeepsValid.maintains (h : plan.KeepsValid P stop) (hmakes : plan.MakesValid P stop) :
    plan.Maintains (Archive.Stocked ω P) (fun c => P c.program.statements) stop where
  seed := hmakes.seed
  sample a probability ha := by
    have hsupplied := ha.history.sample (hmakes.generate.mono (fun _ hf => hf)
      fun _ _ => True.intro) probability
    have hdrawn : Draw.Gives (a.solution : Draw ω (Option Chromosome × Archive)) fun x =>
        (∀ c, x.1 = some c → P c.program.statements) ∧
          ∀ c, x.2.Retains c → P c.program.statements := by
      intro w
      constructor
      · intro c hc
        obtain ⟨old, hold, rfl⟩ := Archive.retains_of_solution hc
        exact ha.retained old hold
      · intro c hc
        exact ha.retained c (Archive.retains_solution hc)
    have hsampled := Archive.sample_yields (I := fun a => ∀ c, a.Retains c → P c.program.statements)
      ha.retained hmakes.generate (Archive.drawn_yields hdrawn) probability
    refine (hsupplied.and hsampled).mono (fun _ hf => hf.1) ?_
    rintro x ⟨hx, hcandidate, hretained⟩
    exact ⟨⟨hx.history, hretained⟩, hcandidate, fun hnone hne => (hx.ne_none hne hnone).elim⟩
  mutate c hc := by
    refine (h.mutate c.program hc).mono (fun _ hf => hf) fun x hx => ?_
    rw [h.valid x.1 hx, if_pos rfl]
    exact hx
  evaluate a c w e ha hc _ := by
    refine ⟨hc, ha.history.perform (.update (c.recordEvaluation e) e), ?_⟩
    intro d hd
    rcases Archive.retains_update hd with hold | rfl
    · exact ha.retained d hold
    · exact hc
  shrink a n ha :=
    ⟨ha.history.perform (.shrink n), fun c hc => ha.retained c (Archive.retains_shrink hc)⟩

/-- The account of a search with a budget of evaluations. An oracle that measures every program and
a mutator that keeps programs valid are enough for it; that no fault stops the search takes parts
that no fault stops, and programs that are valid to begin with. -/
theorem run_accounted (h : plan.NeverFails) (hvalid : plan.KeepsValid P stop) {archive : Archive}
    (harchive : archive.HasHistory ω) (hn : n ≤ 2 ^ 53) (world : ω) :
    (∀ fuel, n ≤ fuel + 1 →
      plan.runWithin fuel (.ofSettings plan.settings archive world (.ofEvaluations n)) =
        plan.run (.ofSettings plan.settings archive world (.ofEvaluations n))) ∧
    Ended (fun f => plan.MakesValid P stop →
        (∀ c, archive.Retains c → P c.program.statements) → stop f)
      (fun e s => e = .resampleExhausted s.iteration ∧ s.archive.isEmpty = true)
      (plan.Account n)
      (plan.run (.ofSettings plan.settings archive world (.ofEvaluations n))) := by
  have hmax : n ≤ maxIterations + 1 := by
    have hsize : maxIterations = 2 ^ 64 := rfl
    omega
  refine ⟨fun fuel henough => runWithin_enough h hn archive world henough hmax, ?_⟩
  have hended : Ended (fun _ => True) Exhausted (plan.Account n)
      (plan.run (.ofSettings plan.settings archive world (.ofEvaluations n))) :=
    runWithin_ended h hn archive world hmax
  have hstop : plan.MakesValid P stop → (∀ c, archive.Retains c → P c.program.statements) →
      ∀ f, plan.run (.ofSettings plan.settings archive world (.ofEvaluations n)) = .error f →
        stop f :=
    fun hmakes hretained => (hvalid.maintains hmakes).run_stop _ ⟨⟨harchive, hretained⟩, nofun⟩
  generalize plan.run (.ofSettings plan.settings archive world (.ofEvaluations n)) = x
    at hended hstop ⊢
  rcases x with f | ⟨e | suite, s⟩
  · exact fun hmakes hretained => hstop hmakes hretained f rfl
  · exact hended
  · exact hended

/-! ## A search that reaches both of its goals -/

section Coverage

variable {c : Cluster} {D : Discipline c} {settings : SearchSettings} {seed guided : Growth ω}
  {m : Mutator ω} {clock : Clock}

theorem ofCoverage_neverFails : (ofCoverage c settings seed guided m clock).NeverFails :=
  fun p _ => ⟨MethodCoverage.evaluate c p, rfl⟩

theorem ofCoverage_keepsValid (hD : D.Mobile) (hm : m.Over c) :
    (ofCoverage c settings seed guided m clock).KeepsValid D.Holds (· ≠ .malformedProgram) where
  valid _ hp := (hp.sound hD).valid
  mutate p hp := hm.mutate_holds hD p hp

theorem ofCoverage_makesValid (hD : D.Mobile) (hseed : seed.Over c) (hguided : guided.Over c) :
    (ofCoverage c settings seed guided m clock).MakesValid D.Holds (· ≠ .malformedProgram) where
  seed := hseed.chromosome_holds hD
  generate := hguided.chromosome_holds hD

end Coverage

/-- A class that is made from nothing, or from a number. -/
def numbered : Cluster :=
  Cluster.ofList [{ ClassDecl.ofName "Numbered" with constructors := [[], [.int]] }]

/-- An inserter of things that are numbered, or not. -/
def numbering : Inserter Random.Scripted := ⟨numbered, .random numbered, 2, 1⟩

/-- Programs of two statements at most are made and mutated. -/
def numberedPlan : SearchPlan Random.Scripted :=
  .ofCoverage numbered .default ⟨numbering.insertAfter, 2, 1⟩ ⟨numbering.insertAfter, 2, 1⟩
    (numbering.mutator 2) .stopped

/-- One iteration is enough, though the budget has room for two. -/
theorem run_accounted_numbered : numberedPlan.NeverFails ∧
    numberedPlan.KeepsValid (Discipline.anchored numbered).Holds (· ≠ .malformedProgram) ∧
    numberedPlan.MakesValid (Discipline.anchored numbered).Holds (· ≠ .malformedProgram) ∧
    ∃ suite s, numberedPlan.run (.ofSettings numberedPlan.settings
        (.ofGoals numberedPlan.goals.ids 10) ⟨[0, 0, 0, 0, 0, 0], 0⟩ (.ofEvaluations 3)) =
          .ok (.ok suite, s) ∧
      suite.evaluations = 2 ∧ numberedPlan.Account 3 suite s := by
  have hoffers : (Selector.random numbered : Selector Random.Scripted).Offers numbered :=
    Selector.random_offers numbered
  have hmobile := Discipline.anchored_mobile numbered
  have hkeeps : numberedPlan.KeepsValid (Discipline.anchored numbered).Holds
      (· ≠ .malformedProgram) := ofCoverage_keepsValid hmobile ⟨numbering, rfl, rfl, hoffers⟩
  have hmakes : numberedPlan.MakesValid (Discipline.anchored numbered).Holds
      (· ≠ .malformedProgram) :=
    ofCoverage_makesValid hmobile ⟨numbering, rfl, rfl, hoffers⟩ ⟨numbering, rfl, rfl, hoffers⟩
  have hfails : numberedPlan.NeverFails := ofCoverage_neverFails
  refine ⟨hfails, hkeeps, hmakes, ?_⟩
  have hhistory : (Archive.ofGoals numberedPlan.goals.ids 10).HasHistory Random.Scripted :=
    ⟨_, 10, [], rfl⟩
  have hbound : 3 ≤ 2 ^ 53 := by decide
  have hrun := run_accounted hfails hkeeps hhistory hbound ⟨[0, 0, 0, 0, 0, 0], 0⟩
  have htwo : ((numberedPlan.run (.ofSettings numberedPlan.settings
      (.ofGoals numberedPlan.goals.ids 10) ⟨[0, 0, 0, 0, 0, 0], 0⟩
        (.ofEvaluations 3))).toOption.bind fun x =>
          x.1.toOption.map Suite.evaluations) = some 2 := by
    decide +kernel
  generalize numberedPlan.run _ = x at hrun htwo ⊢
  exact hrun.2.gave htwo

end SearchPlan

end SuiteSearch
