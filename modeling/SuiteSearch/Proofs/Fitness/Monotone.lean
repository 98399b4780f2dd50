import SuiteSearch.Proofs.Fitness.MethodCoverage
import SuiteSearch.Proofs.Mutation.History
import SuiteSearch.Proofs.Program.Slicing

/-!
# More statements come closer to every goal

Method coverage looks at what is called and at the types of what there is, never at what is read.
What an edit renumbers does not matter then: a program that has all outlines of another one is as
close to every goal, or closer.

    s.outline               the statement without its inputs and its assertions
    p.outlines ⊆ q.outlines if p is a slice, a rest or a beginning of q, or q an insertion into p
    heuristic_le            p.outlines ⊆ q.outlines → q is no further from a target than p
    evaluate_monotone       what insertions, slices, deletions and chops do to the value of a goal
-/

namespace SuiteSearch

/-! ## Outlines -/

/-- The statement without what it reads and checks. -/
def Statement.outline (s : Statement) : Statement :=
  ⟨s.op.mapReads fun _ => .dangling, s.ty, []⟩

theorem Statement.outline_remap (f : Nat → Option Nat) (s : Statement) :
    (s.remap f).outline = s.outline := by
  unfold outline
  rw [op_remap, ty_remap, Operation.mapReads_mapReads]
  rfl

namespace Program

def outlines (p : Program) : List Statement := p.statements.map Statement.outline

variable {p q : Program}

theorem outlines_retain_subset (p : Program) (keep : List Nat) :
    (p.retain keep).outlines ⊆ p.outlines := by
  intro o ho
  obtain ⟨s, hs, rfl⟩ := List.mem_map.mp ho
  obtain ⟨n, hn⟩ := List.mem_iff_getElem?.mp hs
  obtain ⟨i, t, -, ht, -, rfl⟩ := getElem?_retain_cases hn
  have hsame : (dropStaleAssertions (t.remap (rankOf? keep p.length))).outline = t.outline :=
    t.outline_remap _
  rw [hsame]
  exact List.mem_map_of_mem (List.mem_of_getElem? ht)

theorem outlines_chop_subset (p : Program) (n : Nat) : (p.chop n).outlines ⊆ p.outlines :=
  List.map_subset _ (List.take_subset n p.statements)

theorem outlines_subset_of_slice {r : Ref} {n : Nat} (h : p.slice r = .ok (q, n)) :
    q.outlines ⊆ p.outlines := by
  obtain ⟨i, -, -, -, rfl, -⟩ := (slice_eq_ok_iff p r q n).mp h
  exact outlines_retain_subset p _

theorem outlines_subset_of_insert {s : Statement} {i : Nat} {r : Ref}
    (h : p.insert s i = .ok (q, r)) : p.outlines ⊆ q.outlines := by
  obtain ⟨rfl, -⟩ := of_insert_eq_ok h
  have hshift : ((p.statements.drop i).map (·.remap (shiftUp i))).map Statement.outline =
      (p.statements.drop i).map Statement.outline := by
    rw [List.map_map]
    exact List.map_congr_left fun t _ => t.outline_remap (shiftUp i)
  have hq : outlines { p with statements := inserted p.statements s i } =
      (p.statements.take i).map Statement.outline ++
        s.outline :: (p.statements.drop i).map Statement.outline := by
    rw [outlines, inserted, List.map_append, List.map_cons, hshift]
  have hp : p.outlines = (p.statements.take i).map Statement.outline ++
      (p.statements.drop i).map Statement.outline := by
    rw [← List.map_append, List.take_append_drop]
    rfl
  rw [hp, hq]
  intro o ho
  rcases List.mem_append.mp ho with ho | ho
  · exact List.mem_append_left _ ho
  · exact List.mem_append_right _ (List.mem_cons_of_mem _ ho)

end Program

theorem Mutation.outlines_deleteWithReaders_subset (p : Program) (position : Nat) :
    (deleteWithReaders p position).1.outlines ⊆ p.outlines := by
  unfold deleteWithReaders
  split
  · exact List.Subset.refl _
  · exact p.outlines_retain_subset _

theorem Mutator.outlines_subset_of_delete {ω : Type} [WordSource ω] {m : Mutator ω} {p q : Program}
    {changed : Bool} {w w' : ω} (h : m.apply .delete p w = .ok ((q, changed), w')) :
    q.outlines ⊆ p.outlines := by
  have hdelete : Draw.Gives (Mutation.delete p : Draw ω (Program × Bool))
      fun x => x.1.outlines ⊆ p.outlines :=
    Mutation.delete_gives (P := fun q => q.outlines ⊆ p.outlines)
      (fun q i hq => List.Subset.trans (Mutation.outlines_deleteWithReaders_subset q i) hq) p
      (List.Subset.refl _)
  have happly : (m.apply .delete p).Yields (fun _ => True) fun x => x.1.outlines ⊆ p.outlines := by
    refine (Act.Yields.draw hdelete).bind fun x hx => ?_
    show Act.Yields (if x.1.isValid then return x else throw .malformedProgram : Act ω _) _ _
    split
    · exact .pure hx
    · exact fun _ => True.intro
  exact happly.of_ok h

/-! ## Values of goals -/

namespace MethodCoverage

variable {p q : Program}

theorem invokes_mapReads (target : Member) (f : Ref → Ref) (op : Operation) :
    invokes target (op.mapReads f) = invokes target op := by
  cases op with
  | construct k args mock => cases mock <;> cases target <;> rfl
  | call m callee args => cases target <;> rfl
  | _ => cases target <;> rfl

/-- Whether a target is invoked shows in the outlines. -/
theorem invokes_iff_outlines (p : Program) (t : Member) :
    Invokes p t ↔ ∃ o ∈ p.outlines, invokes t o.op = true := by
  unfold Invokes
  rw [List.any_eq_true]
  constructor
  · rintro ⟨s, hs, hop⟩
    refine ⟨s.outline, List.mem_map_of_mem hs, ?_⟩
    exact (invokes_mapReads t _ s.op).trans hop
  · rintro ⟨o, ho, hop⟩
    obtain ⟨s, hs, rfl⟩ := List.mem_map.mp ho
    exact ⟨s, hs, (invokes_mapReads t _ s.op).symm.trans hop⟩

/-- Whether there is an object of a type shows in the outlines. -/
theorem hasObject_iff_outlines (c : Cluster) (p : Program) (ty : Ty) :
    p.hasObject c ty p.length = true ↔ ∃ o ∈ p.outlines, c.isAssignable o.ty ty = true := by
  unfold Program.hasObject Program.length
  rw [List.take_length, List.any_eq_true]
  constructor
  · rintro ⟨s, hs, hty⟩
    exact ⟨s.outline, List.mem_map_of_mem hs, hty⟩
  · rintro ⟨o, ho, hty⟩
    obtain ⟨s, hs, rfl⟩ := List.mem_map.mp ho
    exact ⟨s, hs, hty⟩

theorem Invokes.mono {t : Member} (h : p.outlines ⊆ q.outlines) (hp : Invokes p t) :
    Invokes q t := by
  obtain ⟨o, ho, hop⟩ := (invokes_iff_outlines p t).mp hp
  exact (invokes_iff_outlines q t).mpr ⟨o, h ho, hop⟩

theorem hasObject_mono (c : Cluster) (h : p.outlines ⊆ q.outlines) {ty : Ty}
    (hp : p.hasObject c ty p.length = true) : q.hasObject c ty q.length = true := by
  obtain ⟨o, ho, hty⟩ := (hasObject_iff_outlines c p ty).mp hp
  exact (hasObject_iff_outlines c q ty).mpr ⟨o, h ho, hty⟩

/-- Whether a target is a method that a program has an object for. -/
def HasReceiver (c : Cluster) (p : Program) : Member → Prop
  | .method m => m.isStatic = false ∧ p.hasObject c m.declaring p.length = true
  | _ => False

theorem HasReceiver.mono {c : Cluster} {t : Member} (h : p.outlines ⊆ q.outlines)
    (hp : HasReceiver c p t) : HasReceiver c q t := by
  cases t with
  | method m =>
    obtain ⟨hstatic, hobject⟩ := hp
    exact ⟨hstatic, hasObject_mono c h hobject⟩
  | _ => exact hp

section
variable (c : Cluster) {t : Member}

theorem heuristic_of_hasReceiver (hp : ¬ Invokes p t) (hreceiver : HasReceiver c p t) :
    heuristic c p t = 0.5 := by
  have hany : ¬ p.statements.any (fun s => invokes t s.op) = true := hp
  unfold heuristic
  rw [if_neg hany]
  cases t with
  | method m =>
    obtain ⟨hstatic, hobject⟩ := hreceiver
    simp only [hstatic, hobject]
    rfl
  | _ => exact hreceiver.elim

theorem heuristic_of_not_hasReceiver (hp : ¬ Invokes p t) (hreceiver : ¬ HasReceiver c p t) :
    heuristic c p t = noProgress := by
  have hany : ¬ p.statements.any (fun s => invokes t s.op) = true := hp
  unfold heuristic
  rw [if_neg hany]
  cases t with
  | method m =>
    refine if_neg fun h => hreceiver ?_
    rw [Bool.and_eq_true, Bool.not_eq_true'] at h
    exact h
  | _ => rfl

/-- A program with more outlines is no further from a target. -/
theorem heuristic_le (h : p.outlines ⊆ q.outlines) (t : Member) :
    Scalar.clampUnit (heuristic c q t) ≤ Scalar.clampUnit (heuristic c p t) := by
  -- By how far p is: what it has of the target, q has, too.
  by_cases hp : Invokes p t
  · rw [heuristic_of_invokes c p t hp, heuristic_of_invokes c q t (hp.mono h)]
    decide
  by_cases hreceiver : HasReceiver c p t
  · rw [heuristic_of_hasReceiver c hp hreceiver]
    by_cases hq : Invokes q t
    · rw [heuristic_of_invokes c q t hq]
      decide
    · rw [heuristic_of_hasReceiver c hq (hreceiver.mono h)]
      decide
  · rw [heuristic_of_not_hasReceiver c hp hreceiver]
    by_cases hq : Invokes q t
    · rw [heuristic_of_invokes c q t hq]
      decide
    · rcases heuristic_of_not_invokes c q t hq with hq | hq
      · rw [hq]
        decide
      · rw [hq]
        decide

/-- Where it holds before, the values of one evaluation stay below those of the other. -/
theorem value_foldl_le (hle : ∀ t, Scalar.clampUnit (heuristic c q t) ≤
      Scalar.clampUnit (heuristic c p t)) (l : List (Member × Nat)) (e e' : Evaluation)
    (h : ∀ g, e.value g ≤ e'.value g) (g : GoalId) :
    (l.foldl (fun e (target, g) => e.record g (heuristic c q target)) e).value g ≤
      (l.foldl (fun e (target, g) => e.record g (heuristic c p target)) e').value g := by
  induction l generalizing e e' with
  | nil => exact h g
  | cons x rest ih =>
    obtain ⟨t, k⟩ := x
    refine ih _ _ fun j => ?_
    rw [value_record, value_record]
    by_cases hj : j = k
    · rw [if_pos hj, if_pos hj]
      exact hle t
    · rw [if_neg hj, if_neg hj]
      exact h j

theorem value_evaluate_le (h : p.outlines ⊆ q.outlines) (g : GoalId) :
    (evaluate c q).value g ≤ (evaluate c p).value g := by
  have hempty : ∀ g, Evaluation.empty.value g ≤ Evaluation.empty.value g := by
    intro g
    show noProgress ≤ noProgress
    decide
  exact value_foldl_le c (heuristic_le c h) (targets c).zipIdx .empty .empty hempty g

end

/-! ## Top theorem -/

/-- An insertion moves a program away from no goal; a slice, a deletion and a chop move it towards
none. -/
theorem evaluate_monotone (c : Cluster) (p : Program) (g : GoalId) :
    (∀ s i q r, p.insert s i = .ok (q, r) → (evaluate c q).value g ≤ (evaluate c p).value g) ∧
    (∀ r q n, p.slice r = .ok (q, n) → (evaluate c p).value g ≤ (evaluate c q).value g) ∧
    (∀ (ω : Type) [WordSource ω] (m : Mutator ω) (w w' : ω) q changed,
      m.apply .delete p w = .ok ((q, changed), w') →
        (evaluate c p).value g ≤ (evaluate c q).value g) ∧
    ∀ n, (evaluate c p).value g ≤ (evaluate c (p.chop n)).value g := by
  refine ⟨?_, ?_, ?_, ?_⟩
  · intro s i q r h
    exact value_evaluate_le c (Program.outlines_subset_of_insert h) g
  · intro r q n h
    exact value_evaluate_le c (Program.outlines_subset_of_slice h) g
  · intro ω _ m w w' q changed h
    exact value_evaluate_le c (Mutator.outlines_subset_of_delete h) g
  · intro n
    exact value_evaluate_le c (p.outlines_chop_subset n) g

/-! ### Counters -/

/-- Adds the number to the counter. -/
def addZero : Statement :=
  .call ⟨.named "Counter", "add", [.int], .void, false⟩ (some (.value 1)) [.value 0]

def countedZero : Program :=
  { Program.empty with statements := counterOfZero.statements ++ [addZero] }

open Inserter in
/-- The second goal is to add something to a counter. -/
theorem evaluate_monotone_counterOfZero :
    (counterOfZero.insert addZero 2 = .ok (countedZero, .value 2) ∧
      (evaluate counters countedZero).value 1 ≤ (evaluate counters counterOfZero).value 1) ∧
    (counterOfZero.slice (.value 0) = .ok (counterOfZero, 0) ∧
      (evaluate counters counterOfZero).value 1 ≤ (evaluate counters counterOfZero).value 1) ∧
    ((reusing.mutator 3).apply .delete counterOfZero ⟨[0, 0], 0⟩ = .ok ((.empty, true), ⟨[], 0⟩) ∧
      (evaluate counters counterOfZero).value 1 ≤ (evaluate counters .empty).value 1) ∧
    (evaluate counters counterOfZero).value 1 ≤
      (evaluate counters (counterOfZero.chop 1)).value 1 := by
  obtain ⟨hinsert, hslice, hdelete, hchop⟩ := evaluate_monotone counters counterOfZero 1
  have hgone : (reusing.mutator 3).apply .delete counterOfZero ⟨[0, 0], 0⟩ =
      .ok ((.empty, true), ⟨[], 0⟩) := rfl
  refine ⟨⟨rfl, hinsert addZero 2 _ _ rfl⟩, ⟨rfl, hslice (.value 0) _ _ rfl⟩, ⟨hgone, ?_⟩, hchop 1⟩
  exact hdelete Random.Scripted (reusing.mutator 3) _ _ _ _ hgone

end MethodCoverage

end SuiteSearch
