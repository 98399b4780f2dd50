import SuiteSearch.Proofs.Archive.NonEmpty
import SuiteSearch.Proofs.Search.Invariant

/-!
# Searches for method coverage

A search that measures method coverage keeps its archive faithful in every step, whatever grows and
mutates its programs: only programs with the property are evaluated, and each is offered for every
goal.

    Measures c P stop      what the parts of a plan have to do
    Measures.maintains     faithfulness is an invariant of a search
-/

namespace SuiteSearch

open Step (Keeps)

variable {ω : Type} {c : Cluster} {P : List Statement → Prop} {stop : Fault → Prop}

/-! ## Sampled candidates -/

namespace Archive

variable {a : Archive}

variable [WordSource ω]

omit [WordSource ω] in
theorem Faithful.retains (h : a.Faithful c P) {ch : Chromosome} (hch : a.Retains ch) :
    P ch.program.statements := by
  obtain ⟨g, p, hp, hcovering | ⟨e, he, rfl⟩⟩ := hch
  · exact h.covering hp hcovering
  · exact h.entry hp he

theorem Faithful.solution (h : a.Faithful c P) :
    Draw.Gives (a.solution : Draw ω (Option Chromosome × Archive)) fun x =>
      (∀ ch, x.1 = some ch → P ch.program.statements) ∧ x.2.Faithful c P := by
  intro w
  constructor
  · intro ch hch
    obtain ⟨old, hold, rfl⟩ := retains_of_solution hch
    have hP := h.retains hold
    exact hP
  · rcases a.solution_archive w with heq | ⟨g, heq⟩
    · rwa [heq]
    · rw [heq]
      exact h.countDraw g

theorem Faithful.sample (h : a.Faithful c P) {generate : Act ω Chromosome}
    (hgenerate : generate.Yields stop fun ch => P ch.program.statements) (probability : Float) :
    (a.sample generate probability).Yields stop
      (Samples (fun a => a.Faithful c P) fun ch => P ch.program.statements) :=
  sample_yields h hgenerate (drawn_yields h.solution) probability

end Archive

/-! ## Steps -/

/-- The archive of a search is faithful, and its candidate has the property, too. -/
structure Search.Faithful (c : Cluster) (P : List Statement → Prop) (s : Search ω) : Prop where
  archive : s.archive.Faithful c P
  current : ∀ ch, s.current = some ch → P ch.program.statements

namespace SearchPlan

/-- What the parts of a plan have to do for its searches to be faithful. -/
structure Measures (c : Cluster) (P : List Statement → Prop) (stop : Fault → Prop)
    (plan : SearchPlan ω) : Prop where
  goals : plan.goals = MethodCoverage.goals c
  evaluate (p : Program) : plan.evaluate p = pure (.ok (MethodCoverage.evaluate c p))
  seed : plan.seed.Yields stop fun ch => P ch.program.statements
  generate : plan.generate.Yields stop fun ch => P ch.program.statements
  mutate (p : Program) : P p.statements → (plan.mutate p).Yields stop fun x => P x.1.statements
  valid (p : Program) : P p.statements → p.isValid = true
  /-- The search may give up although its archive has candidates. -/
  stuck : stop .archiveNotEmpty

variable [WordSource ω] {plan : SearchPlan ω}

theorem Measures.maintains (h : plan.Measures c P stop) :
    plan.Maintains (fun a => a.Faithful c P) (fun ch => P ch.program.statements) stop where
  seed := h.seed
  sample a probability ha :=
    (ha.sample h.generate probability).mono (fun _ hf => hf) fun _ hx =>
      ⟨hx.2, hx.1, fun _ _ => h.stuck⟩
  mutate ch hch := by
    refine (h.mutate ch.program hch).mono (fun _ hf => hf) fun x hx => ?_
    rw [h.valid x.1 hx, if_pos rfl]
    exact hx
  evaluate a ch w e ha hch he := by
    rw [h.evaluate] at he
    cases he
    exact ⟨hch, ha.update _ _ hch (MethodCoverage.reached_iff c ch.program)⟩
  shrink a n ha := ha.shrink n

omit [WordSource ω] in
theorem faithful_iff (s : Search ω) : s.Faithful c P ↔
    s.Holds (fun a => a.Faithful c P) fun ch => P ch.program.statements :=
  ⟨fun hs => ⟨hs.archive, hs.current⟩, fun hs => ⟨hs.archive, hs.current⟩⟩

theorem Measures.start_keeps (h : plan.Measures c P stop) :
    Keeps (Search.Faithful c P) stop plan.start fun _ => True :=
  h.maintains.start_keeps.congr faithful_iff

theorem Measures.iterate_keeps (h : plan.Measures c P stop) (n : Nat) :
    Keeps (Search.Faithful c P) stop (plan.iterate n) fun _ => True :=
  (h.maintains.iterate_keeps n).congr faithful_iff

end SearchPlan

end SuiteSearch
