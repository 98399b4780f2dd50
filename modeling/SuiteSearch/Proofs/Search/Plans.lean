import SuiteSearch.Proofs.Mutation.Validity
import SuiteSearch.Proofs.Search.Faithful
import SuiteSearch.Search.Standard

/-!
# Plans for method coverage

The parts of a plan look at the programs that they make, so what they give is valid.  Parts that
insert as an inserter does, with a selector that stays in scope, never find a program malformed.

    ofCoverage                  the plans
    ofCoverage_measures         they are faithful, whatever grows and mutates
    ofCoverage_measures_over    parts over the cluster are not stopped for a malformed program
-/

namespace SuiteSearch

variable {ω : Type} [WordSource ω]

/-- A search for method coverage; how programs grow and are mutated is left open. -/
def SearchPlan.ofCoverage (c : Cluster) (s : SearchSettings) (seed guided : Growth ω)
    (m : Mutator ω) (clock : Clock) : SearchPlan ω where
  settings := s
  goals := MethodCoverage.goals c
  evaluate p := return .ok (MethodCoverage.evaluate c p)
  seed := seed.chromosome
  generate := guided.chromosome
  mutate := m.mutate
  clock := clock

theorem SearchPlan.standard_eq (c : Cluster) (s : SearchSettings) (guided : Selector ω) :
    SearchPlan.standard c s guided =
      .ofCoverage c s (.standard s (.standard c (.random c))) (.standard s (.standard c guided))
        (.standard c s (.standard c (.random c))) .stopped :=
  rfl

/-! ## Parts of any kind -/

/-- Every statement is well formed at its place. -/
def StatementsValid (l : List Statement) : Prop :=
  l.zipIdx.all (fun x => x.1.isValid x.2) = true

theorem Growth.chromosome_valid (g : Growth ω) :
    g.chromosome.Yields (fun _ => True) fun ch => StatementsValid ch.program.statements := by
  refine .bind (.any _) fun target _ => .bind (.any _) fun p _ => ?_
  split
  · next h => exact .pure h
  · exact fun _ => True.intro

theorem Mutator.apply_valid (m : Mutator ω) (kind : MutationKind) (p : Program) :
    (m.apply kind p).Yields (fun _ => True) fun x => StatementsValid x.1.statements := by
  have hchecked : ∀ x : Program × Bool, True →
      Act.Yields (if x.1.isValid then return (x.1, x.2) else throw .malformedProgram : Act ω _)
        (fun _ => True) fun x => StatementsValid x.1.statements := by
    intro x _
    split
    · next h => exact .pure h
    · exact fun _ => True.intro
  cases kind with
  | delete => exact .bind (.any _) hchecked
  | change => exact .bind (.any _) hchecked
  | insert => exact .bind (.any _) hchecked

theorem SearchPlan.ofCoverage_measures (c : Cluster) (s : SearchSettings)
    (seed guided : Growth ω) (m : Mutator ω) (clock : Clock) :
    (ofCoverage c s seed guided m clock).Measures c StatementsValid fun _ => True where
  goals := rfl
  evaluate _ := rfl
  seed := seed.chromosome_valid
  generate := guided.chromosome_valid
  mutate p hp := Mutator.mutate_yields (P := fun p => StatementsValid p.statements)
    (fun kind p _ => m.apply_valid kind p) p hp
  valid _ hp := hp
  stuck := True.intro

/-! ## Parts over a cluster -/

/-- Growth by an inserter over a cluster whose selector stays in scope. -/
def Growth.Over (c : Cluster) (g : Growth ω) : Prop :=
  ∃ ins : Inserter ω, g.insert = ins.insertAfter ∧ ins.cluster = c ∧ ins.selector.Offers c

/-- Mutation by an inserter over a cluster whose selector stays in scope. -/
def Mutator.Over (c : Cluster) (m : Mutator ω) : Prop :=
  ∃ ins : Inserter ω, m = ins.mutator m.maxLength ∧ ins.cluster = c ∧ ins.selector.Offers c

theorem Inserter.growTo_holds {ins : Inserter ω} {D : Discipline ins.cluster} (hD : D.Mobile)
    (hselect : D.Admits ins.selector) (target attempts : Nat) (p : Program)
    (h : D.Holds p.statements) :
    (Growth.growTo ins.insertAfter target attempts p).Yields (· ≠ .malformedProgram) fun p =>
      D.Holds p.statements := by
  induction attempts generalizing p with
  | zero => exact .pure h
  | succ attempts ih =>
    unfold Growth.growTo
    split
    · exact .pure h
    · have hinsert := insertAfter_holds hD hselect p h (Growth.lastOf p)
      refine (hinsert.mono (fun _ hf => hf.not_malformed) fun _ hx => hx).bind fun x hx => ?_
      exact ih x.1 hx

theorem Growth.Over.chromosome_holds {c : Cluster} {D : Discipline c} {g : Growth ω}
    (h : g.Over c) (hD : D.Mobile) :
    g.chromosome.Yields (· ≠ .malformedProgram) fun ch => D.Holds ch.program.statements := by
  obtain ⟨ins, hinsert, rfl, hoffers⟩ := h
  unfold chromosome
  rw [hinsert]
  refine .bind (.draw (.any _)) fun target _ => ?_
  have hempty : D.Holds Program.empty.statements := by
    intro i s hs
    cases hs
  have hgrow := Inserter.growTo_holds hD hoffers.admits target g.maxAttempts .empty hempty
  refine hgrow.bind fun p hp => ?_
  rw [if_pos (hp.sound hD).valid]
  exact .pure hp

theorem Mutator.Over.mutate_holds {c : Cluster} {D : Discipline c} {m : Mutator ω}
    (h : m.Over c) (hD : D.Mobile) (p : Program) (hp : D.Holds p.statements) :
    (m.mutate p).Yields (· ≠ .malformedProgram) fun x => D.Holds x.1.statements := by
  obtain ⟨ins, hm, rfl, hoffers⟩ := h
  rw [hm]
  have hkeeps := Inserter.keeps_holds hD hoffers.admits
  refine (hkeeps.mutator_mutate m.maxLength p hp).mono ?_ fun _ hx => hx
  rintro _ hf rfl
  exact hf

theorem SearchPlan.ofCoverage_measures_over {c : Cluster} {D : Discipline c} (hD : D.Mobile)
    (s : SearchSettings) {seed guided : Growth ω} {m : Mutator ω} (hseed : seed.Over c)
    (hguided : guided.Over c) (hm : m.Over c) (clock : Clock) :
    (ofCoverage c s seed guided m clock).Measures c D.Holds (· ≠ .malformedProgram) where
  goals := rfl
  evaluate _ := rfl
  seed := hseed.chromosome_holds hD
  generate := hguided.chromosome_holds hD
  mutate p hp := hm.mutate_holds hD p hp
  valid _ hp := (hp.sound hD).valid
  stuck := nofun

end SuiteSearch
