import SuiteSearch.Generation.Growth
import SuiteSearch.Proofs.Mutation.History
import SuiteSearch.Proofs.Mutation.Validity

/-!
# How long programs get

A program that has its greatest length grows no further.  One that is shorter may grow past it: the
length is looked at before an insertion, and the insertion brings along whatever a member needs.  So
the greatest length is kept up to the values that one member takes, and exactly only where no member
takes any.

    overshoot c depth     the statements that one insertion puts in besides the use of a member
    Grown.length_le       mutation steps and new candidates
-/

namespace SuiteSearch

/-! ## Algorithm -/

/-- The greatest number of statements that one insertion puts in before the use of a member. -/
def Inserter.overshoot (c : Cluster) (depth : Nat) : Nat := width c * reach c depth

/-! ## Deletion and change -/

theorem Program.length_retain_le (p : Program) (keep : List Nat) :
    (p.retain keep).length ≤ p.length := by
  rw [retain_eq]
  show (List.map _ (p.statements.zipIdx.filter _)).length ≤ p.statements.length
  rw [List.length_map]
  calc _ ≤ p.statements.zipIdx.length := List.length_filter_le _ _
    _ = p.statements.length := List.length_zipIdx

namespace Mutation

variable {ω : Type} [WordSource ω]

theorem length_deleteWithReaders_le (p : Program) (position : Nat) :
    (deleteWithReaders p position).1.length ≤ p.length := by
  unfold deleteWithReaders
  split
  · exact Nat.le_refl _
  · exact p.length_retain_le _

theorem delete_length (p : Program) :
    Draw.Gives (delete p : Draw ω (Program × Bool)) fun x => x.1.length ≤ p.length :=
  delete_gives (P := fun p' => p'.length ≤ p.length)
    (fun p' i hp' => Nat.le_trans (length_deleteWithReaders_le p' i) hp') p (Nat.le_refl _)

theorem Changed.length {c : Cluster} {p p' : Program} {position : Nat}
    (h : Changed c p position p') : p'.length = p.length := by
  cases h with
  | same => rfl
  | literal _ _ _ => exact List.length_set
  | bound _ _ _ => exact List.length_set

theorem change_length (c : Cluster) (p : Program) :
    Draw.Gives (change c p : Draw ω (Program × Bool)) fun x => x.1.length = p.length :=
  change_gives (P := fun p' => p'.length = p.length)
    (fun _ _ _ hx hp' => hx.length.trans hp') p rfl

end Mutation

/-! ## Insertion -/

section
variable {ω : Type} [WordSource ω] (ins : Inserter ω)

/-- Whatever the selector does, one insertion adds no more than its growth. -/
theorem Inserter.insertAfter_length (p : Program) (hp : p.Sound) (after : Option Nat) :
    Act.Yields (ins.insertAfter p after) (ins.Stops p after)
      fun x => x.1.Sound ∧ x.1.length ≤ p.length + growth ins.cluster ins.maxDepth := by
  refine (ins.insertAfter_splices p hp after).mono (fun _ hf => hf) fun x hx => ?_
  rcases hx with rfl | ⟨new, s, hplace, hlen, rfl⟩
  · exact ⟨hp, Nat.le_add_right _ _⟩
  · have hstart := insertionPoint_le p after
    refine ⟨hp.splice _ _ hstart hplace, ?_⟩
    have hlength := Program.length_spliced p.statements _ (new ++ [s]) hstart
    rw [List.length_append, List.length_singleton] at hlength
    show (Program.spliced p.statements _ (new ++ [s])).length ≤ p.statements.length + _
    omega

variable (maxLength : Nat)

/-- Insertions that begin below the greatest length end at most by the overshoot above it. -/
theorem Mutation.insertFrom_length (left : Nat) (share : Float) (p : Program) (hp : p.Sound)
    (hlen : p.length ≤ maxLength + Inserter.overshoot ins.cluster ins.maxDepth) :
    Act.Yields (insertFrom (ins.mutator maxLength) left share p)
      (Stopped ins.reuse (maxLength + Inserter.growth ins.cluster ins.maxDepth))
      fun x => x.1.Sound ∧
        x.1.length ≤ maxLength + Inserter.overshoot ins.cluster ins.maxDepth := by
  refine insertFrom_relates
    (P := fun p => p.Sound ∧ p.length ≤ maxLength + Inserter.overshoot ins.cluster ins.maxDepth)
    (Q := fun _ q _ => q.Sound ∧
      q.length ≤ maxLength + Inserter.overshoot ins.cluster ins.maxDepth)
    ins.cluster ins maxLength left share (fun _ hp => hp) ?_ p ⟨hp, hlen⟩
  rintro p after ⟨hp, -⟩ hroom
  refine (ins.insertAfter_length p hp after).mono (fun _ hf => hf) fun x hx => ?_
  have hgrowth : x.1.length ≤ maxLength + Inserter.overshoot ins.cluster ins.maxDepth := by
    have h := hx.2
    simp only [Inserter.growth] at h
    simp only [Inserter.overshoot]
    omega
  exact ⟨⟨hx.1, hgrowth⟩, fun _ _ hq => hq⟩

/-- A growth that begins below its target ends at most by the overshoot above it. -/
theorem Growth.growTo_length (target attempts : Nat) (p : Program) (hp : p.Sound)
    (hlen : p.length ≤ target + Inserter.overshoot ins.cluster ins.maxDepth) :
    (growTo ins.insertAfter target attempts p).Yields
      (Stopped ins.reuse (target + Inserter.growth ins.cluster ins.maxDepth))
      fun p => p.Sound ∧ p.length ≤ target + Inserter.overshoot ins.cluster ins.maxDepth := by
  induction attempts generalizing p with
  | zero => exact .pure ⟨hp, hlen⟩
  | succ attempts ih =>
    unfold growTo
    split
    · exact .pure ⟨hp, hlen⟩
    · next hroom =>
      have hinsert := ins.insertAfter_length p hp (lastOf p)
      refine (hinsert.mono ?_ fun _ hx => hx).bind fun x hx => ?_
      · rintro f (⟨hlast, rfl⟩ | hf)
        · have hlast : p.length - 1 = Program.lastPosition := by
            unfold lastOf at hlast
            split at hlast
            · cases hlast
            · exact Option.some.inj hlast
          show Program.lastPosition < _
          omega
        · exact hf.mono (by omega)
      · refine ih x.1 hx.1 ?_
        have h := hx.2
        simp only [Inserter.growth] at h
        simp only [Inserter.overshoot]
        omega

/-! ## Mutation steps and new candidates -/

theorem Growth.targetLength_le (g : Growth ω) :
    g.targetLength.Gives fun n => n ≤ max 1 (g.maxLength - 1) := by
  unfold targetLength
  split
  · exact .pure (Nat.le_max_left _ _)
  · refine Draw.Gives.bind (P := fun n => n < g.maxLength - 1) ?_ fun n hn => ?_
    · exact Draw.below_lt _ (by omega)
    · exact .pure (Nat.le_trans hn (Nat.le_max_right _ _))

theorem Growth.chromosome_length (attempts : Nat) :
    (Growth.mk ins.insertAfter maxLength attempts).chromosome.Yields
      (Stopped ins.reuse (max 1 (maxLength - 1) + Inserter.growth ins.cluster ins.maxDepth))
      fun ch => ch.length ≤
        max 1 (maxLength - 1) + Inserter.overshoot ins.cluster ins.maxDepth := by
  unfold chromosome
  refine (Act.Yields.draw (targetLength_le _)).bind fun target htarget => ?_
  have htarget : target ≤ max 1 (maxLength - 1) := htarget
  have hempty : Program.empty.Sound := ⟨rfl, nofun⟩
  have hgrow := growTo_length ins target attempts .empty hempty (Nat.zero_le _)
  refine (hgrow.mono (fun f hf => hf.mono (by omega)) fun _ hp => hp).bind fun p hp => ?_
  rw [if_pos hp.1.valid]
  refine .pure ?_
  have hlength := hp.2
  show p.length ≤ _
  omega

/-- Programs in which every value is anchored stay so and get no longer by deletion and change. -/
theorem Inserter.mutator_apply_shrinks (kind : MutationKind) (hkind : kind ≠ .insert)
    (p : Program) (h : (Discipline.anchored ins.cluster).Holds p.statements) :
    Act.Yields ((ins.mutator maxLength).apply kind p) (fun _ => False)
      fun x => (Discipline.anchored ins.cluster).Holds x.1.statements ∧
        x.1.length ≤ p.length := by
  have hD := Discipline.anchored_mobile ins.cluster
  refine Mutator.apply_yields
    (P := fun p' => (Discipline.anchored ins.cluster).Holds p'.statements ∧ p'.length ≤ p.length)
    (fun p' hp' => (hp'.1.sound hD).valid) kind p (fun _ w => ?_) (fun _ w => ?_)
    fun h => absurd h hkind
  · exact ⟨Mutation.delete_holds hD p h w, Mutation.delete_length p w⟩
  · exact ⟨Mutation.change_holds hD p h w, Nat.le_of_eq (Mutation.change_length _ p w)⟩

theorem Inserter.mutator_insert_length (p : Program) (hp : p.Sound) (hlen : p.length ≤ maxLength) :
    Act.Yields ((ins.mutator maxLength).apply .insert p)
      (Stopped ins.reuse (maxLength + growth ins.cluster ins.maxDepth))
      fun x => x.1.length ≤ maxLength + overshoot ins.cluster ins.maxDepth := by
  have hinsert := Mutation.insertFrom_length ins maxLength Mutation.maxInsertions 1 p hp (by omega)
  refine (Mutator.apply_yields (P := fun p' => p'.Sound ∧
    p'.length ≤ maxLength + overshoot ins.cluster ins.maxDepth) (fun p' hp' => hp'.1.valid) .insert
    p nofun nofun fun _ => hinsert).mono (fun _ hf => hf) fun _ hx => hx.2

end

/-- What the first kinds of a step keep, the last one starts from. -/
theorem Mutator.applySome_last_yields {ω : Type} [WordSource ω] {m : Mutator ω}
    {stop : Fault → Prop} {P Q : Program → Prop} (hPQ : ∀ p, P p → Q p)
    (kinds : List MutationKind) (last : MutationKind)
    (happly : ∀ kind ∈ kinds, ∀ p, P p → (m.apply kind p).Yields stop fun x => P x.1)
    (hlast : ∀ p, P p → (m.apply last p).Yields stop fun x => Q x.1) (p : Program) (h : P p) :
    (m.applySome (kinds ++ [last]) p).Yields stop fun x => Q x.1 := by
  induction kinds generalizing p with
  | nil =>
    refine (Act.Yields.draw (.any _)).bind fun chosen _ => ?_
    split
    · refine (hlast p h).bind fun x hx => ?_
      exact (Act.Yields.pure (Q := fun y => Q y.1) hx).bind fun y hy => .pure hy
    · exact .pure (hPQ p h)
  | cons kind rest ih =>
    have ih := ih fun k hk => happly k (List.mem_cons_of_mem _ hk)
    refine (Act.Yields.draw (.any _)).bind fun chosen _ => ?_
    split
    · refine (happly kind List.mem_cons_self p h).bind fun x hx => ?_
      exact (ih x.1 hx).bind fun y hy => .pure hy
    · exact ih p h

/-! ## Top theorem -/

/-- Deletion and change make a grown program no longer.  Insertions, mutation steps and the growth
of new candidates exceed the greatest length by no more than what one member needs. -/
theorem Grown.length_le {c : Cluster} {p : Program} (h : Grown c p) (maxLength : Nat)
    (hmax : 1 ≤ maxLength) (hlen : p.length ≤ maxLength) {ω : Type} [WordSource ω]
    (ins : Inserter ω) (hc : ins.cluster = c) :
    let stop := Stopped ins.reuse (maxLength + Inserter.growth c ins.maxDepth)
    let bound := maxLength + Inserter.overshoot c ins.maxDepth
    (∀ kind, ((ins.mutator maxLength).apply kind p).Yields stop fun x =>
      x.1.length ≤ if kind = .insert then bound else p.length) ∧
    ((ins.mutator maxLength).mutate p).Yields stop (fun x => x.1.length ≤ bound) ∧
    ∀ attempts, (Growth.mk ins.insertAfter maxLength attempts).chromosome.Yields stop fun ch =>
      ch.length ≤ max 1 (maxLength - 1) + Inserter.overshoot c ins.maxDepth := by
  intro stop bound
  subst hc
  have hD := Discipline.anchored_mobile ins.cluster
  have hp : (Discipline.anchored ins.cluster).Holds p.statements := h.holds hD
  have hshrinks := ins.mutator_apply_shrinks maxLength
  have hinsert := ins.mutator_insert_length maxLength
  refine ⟨fun kind => ?_, ?_, fun attempts => ?_⟩
  · by_cases hkind : kind = .insert
    · simp only [if_pos hkind]
      rw [hkind]
      exact hinsert p (hp.sound hD) hlen
    · simp only [if_neg hkind]
      exact (hshrinks kind hkind p hp).mono (fun _ hf => hf.elim) fun _ hx => hx.2
  · unfold Mutator.mutate
    split
    · exact hinsert p (hp.sound hD) hlen
    · refine Mutator.applySome_last_yields (Q := fun p => p.length ≤ bound)
        (P := fun p => (Discipline.anchored ins.cluster).Holds p.statements ∧ p.length ≤ maxLength)
        (fun p hp => Nat.le_trans hp.2 (Nat.le_add_right _ _)) [.delete, .change] .insert ?_
        (fun p hp => hinsert p (hp.1.sound hD) hp.2) p ⟨hp, hlen⟩
      intro kind hkind p hp
      have hne : kind ≠ .insert := by
        rintro rfl
        simp at hkind
      exact (hshrinks kind hne p hp.1).mono (fun _ hf => hf.elim)
        fun _ hx => ⟨hx.1, Nat.le_trans hx.2 hp.2⟩
  · exact (Growth.chromosome_length ins maxLength attempts).mono
      (fun f hf => hf.mono (by omega)) fun _ hch => hch

/-- A mutation step on a program of two statements, which may have three. -/
theorem Grown.length_le_counterOfZero :
    Grown Inserter.counters counterOfZero ∧ 1 ≤ 3 ∧ counterOfZero.length ≤ 3 ∧
      ((reusing.mutator 3).mutate counterOfZero).Yields
        (Stopped 1 (3 + Inserter.growth Inserter.counters 2))
        fun x => x.1.length ≤ 3 + Inserter.overshoot Inserter.counters 2 := by
  have hlen : counterOfZero.length ≤ 3 := by decide
  have hbounds := grown_counterOfZero.length_le 3 (by decide) hlen reusing rfl
  exact ⟨grown_counterOfZero, by decide, hlen, hbounds.2.1⟩

/-- Where one statement is allowed, a counter and its number are put in. -/
theorem Growth.exceeds_maxLength :
    ((reusing.mutator 1).apply .insert .empty ⟨[0, 0, 0, 0], 0⟩).map (·.1.1) = .ok counterOfZero ∧
      ((Growth.mk reusing.insertAfter 1 1).chromosome ⟨[0, 0, 0], 0⟩).map (·.1.program) =
        .ok counterOfZero ∧ 1 < counterOfZero.length :=
  ⟨rfl, rfl, by decide⟩

end SuiteSearch
