import SuiteSearch.Chromosome

/-!
# What is on record about a candidate

A candidate is mutated, copied and evaluated, in any order.  Its goals, the resources it touched and
its failing are on record as the last evaluation showed them, whatever came before.  Broken
contracts are not: an evaluation adds those that it shows, and no step takes any back.

    Step                       what is done with a candidate
    mem_violations_performAll  the broken contracts after any history
    recordEvaluation_record    all that is on record after an evaluation
-/

namespace SuiteSearch

theorem Violation.precedes_total (v w : Violation) (h : v.precedes w = false)
    (h' : w.precedes v = false) : v = w := by
  simp only [precedes, Bool.or_eq_false_iff, Bool.and_eq_false_imp, beq_iff_eq,
    decide_eq_false_iff_not] at h h'
  have hcontract : v.contract = w.contract := Sorted.textBelow_total _ _
    (decide_eq_false h.1) (decide_eq_false h'.1)
  obtain ⟨hposition, hdetail⟩ := h.2 hcontract
  obtain ⟨hposition', hdetail'⟩ := h'.2 hcontract.symm
  have hposition : v.position = w.position := by omega
  have hdetail : v.detail = w.detail := Sorted.textBelow_total _ _
    (decide_eq_false (hdetail hposition)) (decide_eq_false (hdetail' hposition.symm))
  cases v
  cases w
  simp only at hcontract hposition hdetail
  rw [hcontract, hposition, hdetail]

namespace Chromosome

/-! ## Histories -/

/-- What is done with a candidate. -/
inductive Step
  /-- A mutation; it leaves these statements. -/
  | mutate (statements : List Statement)
  | copy
  | freshCopy
  | evaluate (e : Evaluation)

/-- The candidate after a step. -/
def perform (c : Chromosome) : Step → Chromosome
  | .mutate statements =>
    { c with program := { c.program with statements := statements } }.countMutation
  | .copy => c.copy
  | .freshCopy => c.freshCopy
  | .evaluate e => c.recordEvaluation e

def performAll (c : Chromosome) (history : List Step) : Chromosome := history.foldl perform c

/-! ## Lemmas -/

theorem mem_violations_recordEvaluation (c : Chromosome) (e : Evaluation) (v : Violation) :
    v ∈ (c.recordEvaluation e).program.violations ↔
      v ∈ e.violations ∨ v ∈ c.program.violations :=
  Sorted.mem_insertAll Violation.precedes_total

theorem mem_violations_perform (c : Chromosome) (step : Step) (v : Violation) :
    v ∈ (c.perform step).program.violations ↔
      v ∈ c.program.violations ∨ ∃ e, step = .evaluate e ∧ v ∈ e.violations := by
  cases step with
  | mutate _ | copy | freshCopy => exact (or_iff_left (by rintro ⟨e, ⟨⟩, -⟩)).symm
  | evaluate e =>
    show v ∈ (c.recordEvaluation e).program.violations ↔ _
    rw [mem_violations_recordEvaluation, or_comm]
    constructor
    · exact Or.imp id fun h => ⟨e, rfl, h⟩
    · rintro (h | ⟨_, ⟨⟩, h⟩)
      · exact Or.inl h
      · exact Or.inr h

/-- The broken contracts are those known at first and those of every evaluation since. -/
theorem mem_violations_performAll (c : Chromosome) (history : List Step) (v : Violation) :
    v ∈ (c.performAll history).program.violations ↔
      v ∈ c.program.violations ∨ ∃ e, .evaluate e ∈ history ∧ v ∈ e.violations := by
  induction history generalizing c with
  | nil => simp [performAll]
  | cons step rest ih =>
    show v ∈ ((c.perform step).performAll rest).program.violations ↔ _
    rw [ih, mem_violations_perform, or_assoc]
    refine or_congr_right ⟨?_, ?_⟩
    · rintro (⟨e, rfl, hv⟩ | ⟨e, he, hv⟩)
      · exact ⟨e, List.mem_cons_self, hv⟩
      · exact ⟨e, List.mem_cons_of_mem _ he, hv⟩
    · rintro ⟨e, he, hv⟩
      rcases List.mem_cons.mp he with he | he
      · exact Or.inl ⟨e, he.symm, hv⟩
      · exact Or.inr ⟨e, he, hv⟩

theorem mem_covered_recordEvaluation (c : Chromosome) (e : Evaluation) (g : GoalId) :
    g ∈ (c.recordEvaluation e).program.covered ↔ g ∈ e.covered := by
  refine (Sorted.mem_insertAll Sorted.below_total).trans ?_
  simp

/-! ## Top theorem -/

/-- After any history, an evaluation leaves on record its goals, its resources and its failing, and
nothing else of them; the broken contracts are its own and all those of the history. -/
theorem recordEvaluation_record (c : Chromosome) (history : List Step) (e : Evaluation) :
    let before := (c.performAll history).program
    let p := ((c.performAll history).recordEvaluation e).program
    (∀ g, g ∈ p.covered ↔ g ∈ e.covered) ∧ p.environment = e.environment ∧
      p.failing = e.failing ∧ p.statements = before.statements ∧
      ∀ v, v ∈ p.violations ↔ v ∈ e.violations ∨ v ∈ c.program.violations ∨
        ∃ e', .evaluate e' ∈ history ∧ v ∈ e'.violations := by
  refine ⟨mem_covered_recordEvaluation _ e, rfl, rfl, rfl, fun v => ?_⟩
  rw [mem_violations_recordEvaluation, mem_violations_performAll]

/-- What an earlier run showed of a contract. -/
def threw : Violation := ⟨"equals-null", 1, "threw"⟩

/-- A contract that only an earlier evaluation saw broken stays on record. -/
theorem recordEvaluation_keeps_violation :
    let c := (ofProgram .empty).performAll
      [.evaluate { Evaluation.empty with violations := [threw] }]
    (c.recordEvaluation .empty).program.violations = [threw] ∧ Evaluation.empty.violations = [] :=
  ⟨rfl, rfl⟩

end Chromosome

end SuiteSearch
