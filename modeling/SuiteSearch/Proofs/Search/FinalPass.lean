import SuiteSearch.Proofs.Random.Steps
import SuiteSearch.Search.Run

/-!
# The final pass

A search that has stopped is always closed: the final pass neither fails nor is it stopped.  It
collects the programs of the archive and lowers the best values by what is measured again, as far as
the deadline allows; besides it takes words and leaves messages.

    Beside s s'          only the words and the messages differ
    Finalized            the suite of a final pass and the state that it leaves
    reevaluate_ended     what is measured again, wherever the pass is cut short
    finalize_ended       the final pass
    finish_ended         the suite with its counts
-/

namespace SuiteSearch

open Step (Ended)

variable {ω α : Type} {stop : Fault → Prop} {fail : Error → Search ω → Prop} {Q : Heuristics → Prop}

theorem Clock.read_bind (clock : Clock) (moment : Moment) (k : Duration → SearchStep ω α)
    (s : Search ω) :
    (clock.read moment >>= k) s = k (clock.elapsed moment s.budget.evaluations) s :=
  rfl

/-- Only the words and the messages differ. -/
def Search.Beside (s s' : Search ω) : Prop :=
  ∃ w events, s' = { s with world := w, events := events }

theorem Search.Beside.trans {s s₁ s₂ : Search ω} (h : s.Beside s₁) (h' : s₁.Beside s₂) :
    s.Beside s₂ := by
  obtain ⟨w, events, rfl⟩ := h
  obtain ⟨w', events', rfl⟩ := h'
  exact ⟨w', events', rfl⟩

namespace SearchPlan

variable {plan : SearchPlan ω}

/-- What is measured keeps a property of the best values. -/
def Lowers (plan : SearchPlan ω) (Q : Heuristics → Prop) (p : Program) : Prop :=
  ∀ best w e, (plan.evaluate p w).1 = .ok e → Q best → Q (lower best e)

/-- Where nothing is asked of the best values, any measuring keeps it. -/
theorem Lowers.any {p : Program} : plan.Lowers (fun _ => True) p :=
  fun _ _ _ _ _ => True.intro

theorem Lowers.remeasure {p : Program} (h : plan.Lowers Q p) {best : Heuristics} (hbest : Q best)
    (s : Search ω) :
    Q (plan.remeasure p best s).1 ∧ s.Beside (plan.remeasure p best s).2 := by
  have hmeasured := h best s.world
  unfold SearchPlan.remeasure
  cases heq : plan.evaluate p s.world with
  | mk measured w =>
    rw [heq] at hmeasured
    cases measured with
    | ok e => exact ⟨hmeasured e rfl hbest, _, _, rfl⟩
    | error e => exact ⟨hbest, _, _, rfl⟩

theorem reevaluate_ended (deadline : Duration) (programs : List (Program × Nat))
    (hprograms : ∀ x ∈ programs, plan.Lowers Q x.1) {best : Heuristics} (hbest : Q best)
    (s : Search ω) :
    Ended stop fail (fun x s' => Q x.1 ∧ s.Beside s')
      ((plan.reevaluateBy plan.clock.read deadline programs best :
        SearchStep ω (Heuristics × Bool)) s) := by
  induction programs generalizing best s with
  | nil => exact ⟨hbest, _, _, rfl⟩
  | cons x rest ih =>
    obtain ⟨p, i⟩ := x
    unfold reevaluateBy
    rw [Clock.read_bind]
    split
    · exact ⟨hbest, _, _, rfl⟩
    · obtain ⟨hbest', hbeside⟩ := (hprograms (p, i) List.mem_cons_self).remeasure hbest s
      have hrest := ih (fun y hy => hprograms y (List.mem_cons_of_mem _ hy)) hbest'
        (plan.remeasure p best s).2
      exact hrest.mono (fun _ hf => hf) (fun _ _ he => he)
        fun _ _ hx => ⟨hx.1, hbeside.trans hx.2⟩

/-- The best values that a final pass starts from. -/
def collected (plan : SearchPlan ω) (s : Search ω) : Heuristics :=
  plan.goals.ids.map fun g => (g, s.archive.solutions.2.bestValue g)

/-- The suite of a final pass and the state that it leaves. -/
inductive Finalized (plan : SearchPlan ω) (Q : Heuristics → Prop) (s : Search ω) :
    Suite → Search ω → Prop
  | empty (s' : Search ω) : s.archive.isEmpty = true → s.Beside s' →
      Finalized plan Q s (.empty plan.goals) s'
  | scored (s' : Search ω) (best : Heuristics) (complete : Bool) : Q best →
      Search.Beside { s with archive := s.archive.solutions.2 } s' →
      Finalized plan Q s
        { Suite.scored plan.goals s.archive.solutions.1 best with complete := complete } s'

theorem finalize_ended (s : Search ω) (hprograms : ∀ p ∈ s.archive.solutions.1, plan.Lowers Q p)
    (hbest : Q (plan.collected s)) :
    Ended stop fail (plan.Finalized Q s)
      ((plan.finalizeBy plan.clock.read : SearchStep ω Suite) s) := by
  unfold finalizeBy
  rw [Step.get_bind]
  split
  · next hempty => exact .empty _ hempty ⟨_, _, rfl⟩
  · rw [Clock.read_bind]
    have hzipped : ∀ x ∈ s.archive.solutions.1.zipIdx, plan.Lowers Q x.1 :=
      fun x hx => hprograms x.1 (List.fst_mem_of_mem_zipIdx hx)
    refine (reevaluate_ended _ _ hzipped hbest { s with archive := s.archive.solutions.2 }).bind ?_
    rintro ⟨best, complete⟩ s' ⟨hlowered, hbeside⟩
    exact .scored s' best complete hlowered hbeside

/-- A search that has stopped is closed, whatever the final pass makes of its suite. -/
theorem finish_ended {done : Suite → Search ω → Prop} (s : Search ω)
    (hprograms : ∀ p ∈ s.archive.solutions.1, plan.Lowers Q p) (hbest : Q (plan.collected s))
    (hdone : ∀ e suite s' elapsed, plan.Finalized Q (s.add e) suite s' →
      done (s'.stamp elapsed suite) (s'.add (.finished (s'.stamp elapsed suite)))) :
    Ended stop fail done (plan.finish s) := by
  unfold finish finishBy
  exact (finalize_ended (s.add _) hprograms hbest).bind fun suite s' hs' => hdone _ suite s' _ hs'

end SearchPlan

end SuiteSearch
