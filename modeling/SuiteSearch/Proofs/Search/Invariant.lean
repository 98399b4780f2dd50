import SuiteSearch.Proofs.Search.FinalPass

/-!
# Invariants of a search

A search changes its archive by offers, draws and the annealing, and its candidate by sampling,
mutation and evaluation. What each of these keeps, every iteration keeps, and so does any number of
them.

    Maintains I P stop      the parts of a plan keep I of the archive and P of the candidate
    sample_yields           sampling, from what the generator gives and what is drawn
    evolve_keeps            one iteration
    iterate_keeps           any number of them
    run_stop                a whole search is stopped by its parts only
-/

namespace SuiteSearch

open Step (Ended Keeps)

variable {ω : Type} {I : Archive → Prop} {P : Chromosome → Prop} {stop : Fault → Prop}

/-! ## Sampling -/

namespace Archive

variable {a : Archive} {generate : Act ω Chromosome}

/-- A sampled candidate and the archive that is left have some properties. -/
def Samples (I : Archive → Prop) (P : Chromosome → Prop) (x : Sampled × Archive) : Prop :=
  (∀ y, x.1 = some y → P y.1) ∧ I x.2

theorem generated_yields (h : generate.Yields stop P) :
    (generated generate).Yields stop fun x => ∀ y, x = some y → P y.1 := by
  refine .bind h fun c hc => .pure ?_
  intro y hy
  split at hy
  · cases hy
  · cases hy
    exact hc

variable [WordSource ω]

theorem drawn_yields (h : Draw.Gives (a.solution : Draw ω (Option Chromosome × Archive)) fun x =>
    (∀ c, x.1 = some c → P c) ∧ I x.2) :
    Act.Yields (a.drawn : Act ω (Sampled × Archive)) stop (Samples I P) := by
  refine .bind (.draw h) fun x hx => .pure ⟨?_, hx.2⟩
  intro y hy
  obtain ⟨c, hc, rfl⟩ := Option.map_eq_some_iff.mp hy
  exact hx.1 c (Option.eq_some_of_filter_eq_some hc)

/-- What the generator gives has the property, and so has what is drawn, whichever comes first. -/
theorem sample_yields (ha : I a) (hgenerate : generate.Yields stop P)
    (hdrawn : Act.Yields (a.drawn : Act ω (Sampled × Archive)) stop (Samples I P))
    (probability : Float) : (a.sample generate probability).Yields stop (Samples I P) := by
  refine .bind (.draw (.any _)) fun x _ => ?_
  split
  · refine .bind (generated_yields hgenerate) fun sampled hsampled => ?_
    split
    · exact .pure ⟨hsampled, ha⟩
    · exact hdrawn
  · refine .bind hdrawn fun x hx => ?_
    split
    · exact .pure hx
    · exact .bind (generated_yields hgenerate) fun sampled hsampled => .pure ⟨hsampled, hx.2⟩

end Archive

/-! ## Iterations -/

/-- The archive of a search and its candidate have some properties. -/
structure Search.Holds (I : Archive → Prop) (P : Chromosome → Prop) (s : Search ω) : Prop where
  archive : I s.archive
  current : ∀ c, s.current = some c → P c

/-- An act touches the world only. -/
theorem SearchStep.act_keeps {α : Type} {a : Act ω α} {Q : α → Prop} (h : a.Yields stop Q) :
    Keeps (Search.Holds I P) stop (SearchStep.act a) Q :=
  Keeps.act Search.world (fun s w => { s with world := w })
    (fun _ _ hs => ⟨hs.archive, hs.current⟩) h

theorem SearchStep.attempt_keeps {α : Type} {b : SearchStep ω α} {Q : α → Prop}
    (h : Keeps (Search.Holds I P) stop b Q) :
    Keeps (Search.Holds I P) stop b.attempt fun r => ∀ a, r = .ok a → Q a :=
  h.attempt

/-- To look at the clock changes nothing. -/
theorem Clock.read_keeps {J : Search ω → Prop} (clock : Clock) (moment : Moment) :
    Keeps J stop (clock.read moment) fun _ => True :=
  .get fun _ _ => .pure True.intro

namespace SearchPlan

/-- What the parts of a plan do with the archive and with candidates. -/
structure Maintains [WordSource ω] (I : Archive → Prop) (P : Chromosome → Prop)
    (stop : Fault → Prop) (plan : SearchPlan ω) : Prop where
  seed : plan.seed.Yields stop P
  /-- The search gives up if nothing is sampled; it may have to stop if the archive is not empty. -/
  sample (a : Archive) (probability : Float) : I a →
    (a.sample plan.generate probability).Yields stop fun x => I x.2 ∧
      (∀ y, x.1 = some y → P y.1) ∧ (x.1 = none → x.2.isEmpty = false → stop .archiveNotEmpty)
  mutate (c : Chromosome) : P c → (plan.mutate c.program).Yields stop fun x =>
    if x.1.isValid then P { c with program := x.1 }.countMutation else stop .malformedProgram
  evaluate (a : Archive) (c : Chromosome) (w : ω) (e : Evaluation) : I a → P c →
    (plan.evaluate c.program w).1 = .ok e →
      P (c.recordEvaluation e) ∧ I (a.update (c.recordEvaluation e) e).1
  shrink (a : Archive) (n : Nat) : I a → I (a.shrink n)

variable [WordSource ω] {plan : SearchPlan ω}

theorem Maintains.evaluateCandidate_keeps (h : plan.Maintains I P stop) (c : Chromosome)
    (hc : P c) : Keeps (Search.Holds I P) stop (plan.evaluateCandidate c) P := by
  refine .get fun s hs => ?_
  cases hmeasured : plan.evaluate c.program s.world with
  | mk measured w =>
    cases measured with
    | error e => exact .bind (.set ⟨hs.archive, hs.current⟩) fun _ _ => .fail
    | ok e =>
      obtain ⟨hrecorded, harchive⟩ :=
        h.evaluate s.archive c s.world e hs.archive hc (by rw [hmeasured])
      exact .bind (.set ⟨harchive, hs.current⟩) fun _ _ => .pure hrecorded

theorem Maintains.makeFirst_keeps (h : plan.Maintains I P stop) :
    Keeps (Search.Holds I P) stop plan.makeFirst fun _ => True := by
  refine .bind (SearchStep.act_keeps h.seed) fun c hc => ?_
  refine .bind (h.evaluateCandidate_keeps c hc) fun c hc => ?_
  refine .change fun s hs => ⟨hs.archive, ?_⟩
  rintro _ ⟨⟩
  exact hc

theorem Maintains.start_keeps (h : plan.Maintains I P stop) :
    Keeps (Search.Holds I P) stop plan.start fun _ => True :=
  .bind (.change fun _ hs => ⟨hs.archive, hs.current⟩) fun _ _ => h.makeFirst_keeps

theorem Maintains.resample_keeps (h : plan.Maintains I P stop) :
    Keeps (Search.Holds I P) stop plan.resample fun x => P x.1 := by
  refine .get fun s hs => ?_
  have hsample := h.sample s.archive s.policy.probability hs.archive
  refine .bind (SearchStep.act_keeps hsample) fun x hx => ?_
  obtain ⟨sampled, archive⟩ := x
  obtain ⟨harchive, hsampled, hnone⟩ := hx
  refine .bind (.change fun s hs => ⟨harchive, hs.current⟩) fun _ _ => ?_
  cases sampled with
  | some y => exact .pure (hsampled y rfl)
  | none =>
    dsimp only
    split
    · next hempty =>
      have hstop := hnone rfl (by simpa using hempty)
      exact .bind (P := fun _ => False) (.halt hstop) fun _ hfalse => hfalse.elim
    · exact .bind (.change fun _ hs => ⟨hs.archive, hs.current⟩) fun _ _ => .fail

theorem Maintains.candidate_keeps (h : plan.Maintains I P stop) :
    Keeps (Search.Holds I P) stop plan.candidate fun x => P x.1 := by
  refine .get fun s hs => ?_
  split
  · next c hc =>
    split
    · exact .bind h.resample_keeps fun _ hx => .pure hx
    · exact .pure (hs.current c hc)
  · exact .bind h.resample_keeps fun _ hx => .pure hx

theorem Maintains.mutateCandidate_keeps (h : plan.Maintains I P stop) (c : Chromosome)
    (hc : P c) : Keeps (Search.Holds I P) stop (plan.mutateCandidate c) fun x => P x.1 := by
  refine .bind (SearchStep.act_keeps (h.mutate c hc)) fun x hx => ?_
  obtain ⟨p, mutated⟩ := x
  dsimp only at hx ⊢
  cases hvalid : p.isValid with
  | false =>
    rw [hvalid, if_neg Bool.false_ne_true] at hx
    rw [Bool.not_false, if_pos rfl]
    exact .bind (P := fun _ => False) (.halt hx) fun _ hfalse => hfalse.elim
  | true =>
    rw [hvalid, if_pos rfl] at hx
    rw [Bool.not_true, if_neg Bool.false_ne_true]
    exact .pure hx

theorem Maintains.work_keeps (h : plan.Maintains I P stop) :
    Keeps (Search.Holds I P) stop plan.work fun _ => True := by
  refine .bind h.candidate_keeps fun x hx => ?_
  refine .bind (h.mutateCandidate_keeps x.1 hx) fun y hy => ?_
  refine .bind (SearchStep.attempt_keeps (h.evaluateCandidate_keeps y.1 hy))
    fun evaluated hevaluated => ?_
  have hcurrent : P (evaluated.toOption.getD y.1) := by
    cases evaluated with
    | error e => exact hy
    | ok c => exact hevaluated c rfl
  refine .bind (.change fun s hs => ⟨hs.archive, ?_⟩) fun _ _ => ?_
  · rintro _ ⟨⟩
    exact hcurrent
  · split
    · exact .bind (P := fun _ => False) .fail fun _ hfalse => hfalse.elim
    · exact .pure True.intro

theorem Maintains.settle_keeps (h : plan.Maintains I P stop) (elapsed : Duration)
    (worked : Worked) :
    Keeps (Search.Holds I P) stop (plan.settle elapsed worked) fun _ => True := by
  refine .get fun s hs => ?_
  exact .bind (.set ⟨h.shrink _ _ hs.archive, hs.current⟩) fun _ _ => .pure True.intro

theorem Maintains.evolve_keeps (h : plan.Maintains I P stop) :
    Keeps (Search.Holds I P) stop plan.evolve fun _ => True :=
  .bind h.work_keeps fun worked _ =>
    .bind (plan.clock.read_keeps .annealing) fun elapsed _ => h.settle_keeps elapsed worked

theorem Maintains.iterate_keeps (h : plan.Maintains I P stop) (n : Nat) :
    Keeps (Search.Holds I P) stop (plan.iterate n) fun _ => True := by
  induction n with
  | zero => exact .pure True.intro
  | succ n ih =>
    refine .bind (plan.clock.read_keeps .checking) fun elapsed _ => .get fun s _ => ?_
    split
    · exact .pure True.intro
    · refine .bind h.evolve_keeps fun stats _ => ?_
      exact .bind (.change fun _ hs => ⟨hs.archive, hs.current⟩) fun _ _ => ih

/-- Nothing but the faults of its parts stops a whole search. -/
theorem Maintains.run_stop (h : plan.Maintains I P stop) (s : Search ω) (hs : s.Holds I P)
    (f : Fault) (hf : plan.run s = .error f) : stop f := by
  have hrun : Ended stop (fun _ _ => True) (fun _ _ => True) (plan.run s) := by
    refine h.start_keeps.leads (fun _ hf => hf) (fun _ _ _ => True.intro) ?_ s hs
    intro _ s' hs' _
    refine (h.iterate_keeps maxIterations).leads (fun _ hf => hf) (fun _ _ _ => True.intro) ?_
      s' hs'
    intro _ s' _ _
    exact finish_ended s' (fun _ _ => .any) True.intro fun _ _ _ _ _ => True.intro
  rw [hf] at hrun
  exact hrun

end SearchPlan

end SuiteSearch
