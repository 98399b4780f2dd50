import SuiteSearch.Proofs.Search.Plans
import SuiteSearch.Proofs.Suite.Score

/-!
# The coverage that a search reports

The final pass starts from the best values of a faithful archive.  What it measures again agrees
with them, however far it gets, so the suite reports exactly the goals whose targets its programs
invoke.

    Told                    values that tell the covered goals from the others
    Measures.lowers         what is measured again tells the same goals
    length_invoked          as many goals are covered as targets are invoked
    ofCoverage_run          what the suite of a run reports
-/

namespace SuiteSearch

open MethodCoverage (targets Invokes)
open Step (Ended)

/-! ## The final pass -/

/-- Values that tell the covered goals from the others. -/
structure Archive.Told (c : Cluster) (a : Archive) (f : GoalId → Float) : Prop where
  covered {g : GoalId} : g ∈ a.coveredGoals → f g = 0
  uncovered {g : GoalId} {t : Member} : (targets c)[g]? = some t → g ∉ a.coveredGoals → ¬ f g ≤ 0

variable {c : Cluster} {P : List Statement → Prop} {stop : Fault → Prop} {a : Archive}
  {f : GoalId → Float}

theorem Archive.Faithful.told (h : a.Faithful c P) : a.Told c a.bestValue :=
  ⟨fun hg => h.bestValue_covered hg, fun _ hg => h.bestValue_open hg⟩

/-- Measuring a covering program again changes nothing about it. -/
theorem Archive.Told.lower (h : a.Told c f) (ha : a.Faithful c P) {p : Program}
    (hp : p ∈ a.solutions.1) :
    a.Told c fun g => Scalar.smaller (f g) ((MethodCoverage.evaluate c p).value g) := by
  constructor
  · intro g hg
    obtain ⟨q, hq, -⟩ := (Archive.mem_coveredGoals a g).mp hg
    obtain ⟨t, ht⟩ := ha.target hq
    rw [h.covered hg]
    exact MethodCoverage.smaller_zero c p g t ht
  · intro g t ht hg
    rcases Scalar.smaller_cases (f g) ((MethodCoverage.evaluate c p).value g) with heq | heq
    · rw [heq]
      exact h.uncovered ht hg
    · rw [heq]
      intro hreached
      have hinvokes := (MethodCoverage.reached_iff c p g t ht).mp hreached
      exact hg ((ha.covered_iff ht).mpr ⟨p, hp, hinvokes⟩)

namespace SearchPlan

variable {ω : Type} {plan : SearchPlan ω}

theorem lower_table (f : GoalId → Float) (e : Evaluation) :
    lower (MethodCoverage.table c f) e =
      MethodCoverage.table c fun g => Scalar.smaller (f g) (e.value g) := by
  unfold lower MethodCoverage.table
  rw [List.map_map]
  rfl

/-- The values of a table tell the covered goals. -/
def TableTold (c : Cluster) (a : Archive) (best : Heuristics) : Prop :=
  ∃ f, a.Told c f ∧ best = MethodCoverage.table c f

/-- What is measured again tells the same goals. -/
theorem Measures.lowers (h : plan.Measures c P stop) (ha : a.Faithful c P) {p : Program}
    (hp : p ∈ a.solutions.1) : plan.Lowers (TableTold c a) p := by
  rintro _ w e he ⟨f, hf, rfl⟩
  rw [h.evaluate] at he
  obtain rfl : MethodCoverage.evaluate c p = e := Except.ok.inj he
  exact ⟨_, hf.lower ha hp, lower_table f _⟩

end SearchPlan

/-! ## Counting -/

/-- The elements with a property are as many as their positions. -/
theorem length_filter_positions {α : Type} (l : List α) (q : α → Bool) :
    (l.filter q).length = ((List.range l.length).filter fun i => l[i]?.any q).length := by
  induction l with
  | nil => rfl
  | cons x rest ih =>
    rw [List.length_cons, List.range_succ_eq_map, List.filter_cons, List.filter_cons,
      List.filter_map]
    have htail : ((List.range rest.length).filter
        ((fun i => (x :: rest)[i]?.any q) ∘ Nat.succ)).length = (rest.filter q).length := ih.symm
    have hhead : (x :: rest)[0]?.any q = q x := rfl
    rw [hhead]
    split
    · rw [List.length_cons, List.length_cons, List.length_map, htail]
    · rw [List.length_map, htail]

/-- The covered goals are as many as the goals with a property that says so. -/
theorem Archive.Faithful.length_coveredGoals (h : a.Faithful c P) (q : Nat → Bool)
    (hq : ∀ g, g < (targets c).length → (q g = true ↔ g ∈ a.coveredGoals)) :
    a.coveredGoals.length = ((List.range (targets c).length).filter q).length := by
  have hnodup : a.coveredGoals.Nodup := by
    have hsub : a.coveredGoals.Sublist (List.range (targets c).length) := by
      rw [← h.keys]
      exact List.filter_sublist.map _
    exact hsub.nodup List.nodup_range
  refine ((List.perm_ext_iff_of_nodup hnodup (List.nodup_range.filter q)).mpr ?_).length_eq
  intro g
  rw [List.mem_filter, List.mem_range]
  constructor
  · intro hg
    obtain ⟨p, hp, -⟩ := (mem_coveredGoals a g).mp hg
    have hlt := (h.mem_keys g).mp ⟨p, hp⟩
    exact ⟨hlt, (hq g hlt).mpr hg⟩
  · rintro ⟨hlt, hg⟩
    exact (hq g hlt).mp hg

/-- The covered goals are as many as the targets that the covering programs invoke. -/
theorem Archive.Faithful.length_invoked (h : a.Faithful c P) :
    a.coveredGoals.length = ((targets c).filter fun t => a.solutions.1.any fun p =>
      p.statements.any fun s => MethodCoverage.invokes t s.op).length := by
  rw [length_filter_positions]
  refine h.length_coveredGoals _ ?_
  intro g hg
  have ht := List.getElem?_eq_getElem hg
  rw [ht, Option.any_some, List.any_eq_true, h.covered_iff ht]
  rfl

/-! ## Top theorem -/

/-- What a suite reports for an archive. -/
structure Suite.Reports (c : Cluster) (suite : Suite) (a : Archive) : Prop where
  /-- No two programs have the same statements. -/
  distinct : suite.programs.Pairwise fun p q => p.sameStatements q = false
  valid : ∀ p ∈ suite.programs, p.isValid = true
  /-- Every program is the candidate that covers some goal. -/
  retained : ∀ p ∈ suite.programs, ∃ g q ch, a.population? g = some q ∧ q.covering = some ch ∧
    p = ch.program.copy
  covered : suite.covered = a.coveredGoals.length
  /-- The goals reported are those whose targets are invoked. -/
  invoked : suite.covered = ((targets c).filter fun t => suite.programs.any fun p =>
    p.statements.any fun s => MethodCoverage.invokes t s.op).length

namespace SearchPlan

variable {ω : Type} {plan : SearchPlan ω}

theorem Measures.reports_solutions (h : plan.Measures c P stop) (ha : a.Faithful c P)
    (hf : a.Told c f) (complete : Bool) :
    Suite.Reports c { Suite.scored (MethodCoverage.goals c) a.solutions.1
      (MethodCoverage.table c f) with complete := complete } a := by
  have hcovered : (Suite.scored (MethodCoverage.goals c) a.solutions.1
      (MethodCoverage.table c f)).covered = a.coveredGoals.length := by
    rw [MethodCoverage.covered_scored, MethodCoverage.ids_goals]
    refine (ha.length_coveredGoals _ ?_).symm
    intro g hg
    have ht := List.getElem?_eq_getElem hg
    rw [decide_eq_true_iff]
    by_cases hmem : g ∈ a.coveredGoals
    · rw [hf.covered hmem]
      exact iff_of_true (by decide) hmem
    · exact iff_of_false (hf.uncovered ht hmem) hmem
  refine ⟨a.solutions_pairwise, ?_, ?_, hcovered, hcovered.trans ha.length_invoked⟩
  · intro p hp
    obtain ⟨g, q, ch, hq, hch, rfl⟩ := a.mem_solutions p hp
    have hP := ha.covering hq hch
    exact h.valid ch.program.copy hP
  · intro p hp
    obtain ⟨g, q, ch, hq, hch, rfl⟩ := a.mem_solutions p hp
    exact ⟨g, q, ch, ha.population?_of_mem hq, hch, rfl⟩

/-- An archive without candidates covers nothing, as the empty suite says. -/
theorem reports_empty (hempty : a.isEmpty = true) :
    (Suite.empty (MethodCoverage.goals c)).Reports c a := by
  have hnone : a.coveredGoals = [] := by
    refine List.eq_nil_iff_forall_not_mem.mpr ?_
    intro g hg
    obtain ⟨p, hp, hsome⟩ := (Archive.mem_coveredGoals a g).mp hg
    have hpempty : p.isEmpty = true := List.all_eq_true.mp hempty (g, p) hp
    rw [Population.isEmpty, Bool.and_eq_true, Option.isNone_iff_eq_none] at hpempty
    rw [hpempty.1] at hsome
    cases hsome
  refine ⟨List.Pairwise.nil, nofun, nofun, ?_, ?_⟩
  · rw [MethodCoverage.covered_empty, hnone]
    rfl
  · rw [MethodCoverage.covered_empty, eq_comm, List.length_eq_zero_iff, List.filter_eq_nil_iff]
    intro t _
    exact Bool.false_ne_true

theorem Measures.finalized_reports (h : plan.Measures c P stop) {s s' : Search ω} {suite : Suite}
    (hs : s.archive.Faithful c P)
    (hsuite : plan.Finalized (TableTold c s.archive.solutions.2) s suite s') :
    suite.Reports c s'.archive := by
  cases hsuite with
  | empty _ hempty hbeside =>
    obtain ⟨w, events, rfl⟩ := hbeside
    rw [h.goals]
    exact reports_empty hempty
  | scored _ best complete hbest hbeside =>
    obtain ⟨f, hf, rfl⟩ := hbest
    obtain ⟨w, events, rfl⟩ := hbeside
    rw [h.goals]
    exact h.reports_solutions hs.solutions hf complete

/-- What a run comes to. -/
inductive Reported (c : Cluster) (stop : Fault → Prop) :
    Except Fault (Except Error Suite × Search ω) → Prop
  | stopped (f : Fault) : stop f → Reported c stop (.error f)
  | failed (e : Error) (s : Search ω) : Reported c stop (.ok (.error e, s))
  | gave (suite : Suite) (s : Search ω) : suite.Reports c s.archive →
      Reported c stop (.ok (.ok suite, s))

theorem Measures.finish_reported (h : plan.Measures c P stop) (s : Search ω)
    (hs : s.archive.Faithful c P) : Reported c stop (plan.finish s) := by
  have hlowers : ∀ p ∈ s.archive.solutions.1, plan.Lowers (TableTold c s.archive.solutions.2) p :=
    fun p hp => h.lowers hs.solutions hp
  have hbest : TableTold c s.archive.solutions.2 (plan.collected s) := by
    unfold collected
    rw [h.goals]
    exact ⟨_, hs.solutions.told, rfl⟩
  have hfinish : Ended stop (fun _ _ => True) (fun suite s' => suite.Reports c s'.archive)
      (plan.finish s) := by
    refine finish_ended s hlowers hbest ?_
    intro e suite s' elapsed hsuite
    have hreports := h.finalized_reports (s := s.add e) hs hsuite
    exact ⟨hreports.distinct, hreports.valid, hreports.retained, hreports.covered,
      hreports.invoked⟩
  generalize plan.finish s = x at hfinish ⊢
  rcases x with f | ⟨e | suite, s'⟩
  · exact .stopped f hfinish
  · exact .failed e s'
  · exact .gave suite s' hfinish

theorem Measures.run_reported [WordSource ω] (h : plan.Measures c P stop) (s : Search ω)
    (hs : s.Faithful c P) : Reported c stop (plan.run s) := by
  refine h.start_keeps.leads .stopped (fun e s _ => .failed e s) ?_ s hs
  intro _ s hs _
  refine (h.iterate_keeps maxIterations).leads .stopped (fun e s _ => .failed e s) ?_ s hs
  intro _ s hs _
  exact h.finish_reported s hs.archive

/-- What the suite of a run reports is real, however programs grow and are mutated, and wherever
the final pass is cut short.  Parts over the cluster never find a program malformed. -/
theorem ofCoverage_run [WordSource ω] (c : Cluster) (settings : SearchSettings)
    (seed guided : Growth ω) (m : Mutator ω) (clock : Clock) (capacity : Nat) (world : ω)
    (budget : Budget) :
    match (ofCoverage c settings seed guided m clock).run
      (.ofSettings settings (.ofGoals (MethodCoverage.goals c).ids capacity) world budget) with
    | .error f => seed.Over c → guided.Over c → m.Over c → f ≠ .malformedProgram
    | .ok (.error _, _) => True
    | .ok (.ok suite, s) => suite.Reports c s.archive := by
  have hstart : ∀ P : List Statement → Prop, Search.Faithful c P
      (Search.ofSettings settings (.ofGoals (MethodCoverage.goals c).ids capacity) world budget) :=
    fun P => ⟨.ofGoals c P capacity, nofun⟩
  have hrun := (ofCoverage_measures c settings seed guided m clock).run_reported _ (hstart _)
  have hover := fun (hseed : seed.Over c) (hguided : guided.Over c) (hm : m.Over c) =>
    (ofCoverage_measures_over (Discipline.anchored_mobile c) settings hseed hguided hm
      clock).run_reported _ (hstart _)
  generalize (ofCoverage c settings seed guided m clock).run _ = x at hrun hover ⊢
  cases hrun with
  | stopped f _ =>
    intro hseed hguided hm
    cases hover hseed hguided hm with
    | stopped _ hf => exact hf
  | failed e s => exact True.intro
  | gave suite s hreports => exact hreports

/-! ## A search that reaches its goal -/

/-- A class that is made from nothing. -/
def things : Cluster := Cluster.ofList [{ ClassDecl.ofName "Thing" with constructors := [[]] }]

/-- Growth of programs that make such things. -/
def making : Growth Random.Scripted :=
  ⟨(Inserter.mk things (.random things) 2 1).insertAfter, 2, 1⟩

def makingMutator : Mutator Random.Scripted :=
  (Inserter.mk things (.random things) 2 1).mutator 2

/-- One candidate is evaluated, and its suite reports the one goal. -/
theorem ofCoverage_run_things : making.Over things ∧ makingMutator.Over things ∧
    ∃ suite s, (ofCoverage things .default making making makingMutator .stopped).run
        (.ofSettings .default (.ofGoals (MethodCoverage.goals things).ids 10) ⟨[0, 0, 0], 0⟩
          (.ofEvaluations 1)) = .ok (.ok suite, s) ∧
      suite.covered = 1 ∧ suite.Reports things s.archive := by
  have hoffers : (Selector.random things : Selector Random.Scripted).Offers things :=
    Selector.random_offers things
  refine ⟨⟨_, rfl, rfl, hoffers⟩, ⟨_, rfl, rfl, hoffers⟩, ?_⟩
  have hrun := ofCoverage_run things .default making making makingMutator .stopped 10
    ⟨[0, 0, 0], 0⟩ (.ofEvaluations 1)
  have hone : (((ofCoverage things .default making making makingMutator .stopped).run
      (.ofSettings .default (.ofGoals (MethodCoverage.goals things).ids 10) ⟨[0, 0, 0], 0⟩
        (.ofEvaluations 1))).toOption.bind fun x => x.1.toOption.map Suite.covered) = some 1 := by
    decide
  generalize (ofCoverage things .default making making makingMutator .stopped).run _ = x
    at hrun hone ⊢
  cases x with
  | error f => cases hone
  | ok x =>
    obtain ⟨r, s⟩ := x
    cases r with
    | error e => cases hone
    | ok suite => exact ⟨suite, s, rfl, Option.some.inj hone, hrun⟩

end SearchPlan

end SuiteSearch
