import SuiteSearch.Proofs.Random.Steps
import SuiteSearch.Search.Run

/-!
# Searches by other clocks

A search may look at the clock of a machine between its steps.  Its steps are those of the search
by the clock of its plan, so the two differ in their readings only: where the machine's clock tells
what the plan's clock tells, the searches come to the same.

    lift_bind       steps without effects of their own, one after the other
    evolveBy_told   one iteration by the readings of the plan's clock
    iterateBy_told  any number of them
    finishBy_told   the final pass
    runBy_told      the whole search
-/

namespace SuiteSearch

variable {ω α β : Type} {n : Type → Type} [Monad n]

/-! ## Steps without effects -/

/-- A step as one that could have effects of its own. -/
abbrev SearchStep.lift (b : SearchStep ω α) : SearchStepT ω n α := liftM b

/-- What the clock tells, where a look at it could have effects. -/
def Clock.told (clock : Clock) (moment : Moment) : SearchStepT ω n Duration :=
  (clock.read moment : SearchStep ω Duration).lift

variable [LawfulMonad n]

theorem SearchStep.lift_bind (b : SearchStep ω α) {k : α → SearchStep ω β}
    {k' : α → SearchStepT ω n β} (hk : ∀ a, k' a = (k a).lift) :
    b.lift >>= k' = (b >>= k).lift := by
  obtain rfl : k' = fun a => (k a).lift := funext hk
  funext s
  show (pure (b s) : n _) >>= _ = (pure ((b >>= k) s) : n _)
  rw [step_bind, pure_bind]
  rcases b s with f | ⟨e | a, s'⟩ <;> rfl

namespace SearchPlan

open SearchStep (lift_bind)

variable (plan : SearchPlan ω)

/-! ## The final pass -/

theorem reevaluateBy_told (deadline : Duration) (programs : List (Program × Nat))
    (best : Heuristics) :
    (plan.reevaluateBy plan.clock.told deadline programs best : SearchStepT ω n _) =
      (plan.reevaluateBy plan.clock.read deadline programs best : SearchStep ω _).lift := by
  induction programs generalizing best with
  | nil => rfl
  | cons x rest ih =>
    obtain ⟨p, i⟩ := x
    unfold reevaluateBy
    refine lift_bind (plan.clock.read (.remeasuring i)) fun now => ?_
    split
    · exact lift_bind (modify _) fun _ => rfl
    · exact lift_bind (modifyGet (plan.remeasure p best)) fun best => ih best

theorem finalizeBy_told : (plan.finalizeBy plan.clock.told : SearchStepT ω n Suite) =
    (plan.finalizeBy plan.clock.read : SearchStep ω Suite).lift := by
  unfold finalizeBy
  refine lift_bind get fun s => ?_
  split
  · exact lift_bind (modify _) fun _ => rfl
  · refine lift_bind (plan.clock.read .closing) fun began => ?_
    refine lift_bind (modifyGet collect) fun programs => lift_bind get fun s => ?_
    dsimp only
    rw [reevaluateBy_told]
    exact lift_bind (plan.reevaluateBy plan.clock.read _ _ _) fun _ => rfl

theorem finishBy_told : (plan.finishBy plan.clock.told : SearchStepT ω n Suite) =
    plan.finish.lift := by
  unfold finish finishBy
  rw [finalizeBy_told]
  refine lift_bind (modify _) fun _ => ?_
  refine lift_bind (plan.finalizeBy plan.clock.read) fun suite => ?_
  refine lift_bind (plan.clock.read .reporting) fun elapsed => lift_bind get fun s => ?_
  exact lift_bind (modify _) fun _ => rfl

/-! ## The loop -/

variable [WordSource ω]

theorem evolveBy_told : (plan.evolveBy plan.clock.told : SearchStepT ω n IterationStats) =
    plan.evolve.lift :=
  lift_bind plan.work fun _ => lift_bind (plan.clock.read .annealing) fun _ => rfl

theorem iterateBy_told (left : Nat) : (plan.iterateBy plan.clock.told left : SearchStepT ω n Unit) =
    (plan.iterate left).lift := by
  induction left with
  | zero => rfl
  | succ left ih =>
    unfold iterate iterateBy
    rw [evolveBy_told, ih]
    refine lift_bind (plan.clock.read .checking) fun elapsed => lift_bind get fun s => ?_
    split
    · rfl
    · exact lift_bind plan.evolve fun stats => lift_bind (modify _) fun _ => rfl

/-- A search with effects of its own that reads what the clock of its plan tells is the search by
that clock. -/
theorem runBy_told (s : Search ω) :
    (plan.runBy plan.clock.told : SearchStepT ω n Suite) s = ExceptT.mk (pure (plan.run s)) := by
  have hrun : (plan.runBy plan.clock.told : SearchStepT ω n Suite) = plan.run.lift := by
    unfold run runBy
    rw [iterateBy_told, finishBy_told]
    exact lift_bind plan.start fun _ => lift_bind (plan.iterate maxIterations) fun _ => rfl
  rw [hrun]
  rfl

end SearchPlan

end SuiteSearch
