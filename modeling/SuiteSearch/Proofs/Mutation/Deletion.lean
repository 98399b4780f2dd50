import SuiteSearch.Mutation.Deletion
import SuiteSearch.Proofs.Generation.Mobility
import SuiteSearch.Proofs.Program.Users
import SuiteSearch.Proofs.Random.Outcome

/-!
# Deletion keeps programs in order

A statement goes together with all that use its result, so that what stays reads only what stays.

    withReaders_closed       nothing that stays reads a statement that goes
    picks share n p          the statements that a deletion picks, in this order
    deleteFrom_eq_removeAll  a deletion is the removal of its picks with all that use them
    delete_holds             a program in order is left in order
-/

namespace SuiteSearch.Mutation

variable {c : Cluster} {D : Discipline c} {ω : Type}

theorem mem_withReaders (p : Program) (position : Nat) (s : Statement) (i : Nat)
    (h : i ∈ withReaders p position s) :
    i = position ∨ (s.op.isStore = false ∧ i ∈ p.referencePositions (s.output position)) := by
  unfold withReaders at h
  split at h
  · exact Or.inl (List.mem_singleton.mp h)
  · next hstore =>
    rcases List.mem_cons.mp h with h | h
    · exact Or.inl h
    · exact Or.inr ⟨Bool.eq_false_iff.mpr hstore, h⟩

/-- What stays uses no result that goes, unless a store goes alone. -/
theorem not_uses_of_not_mem_withReaders (p : Program) (position : Nat) (s : Statement)
    (hs : p.statements[position]? = some s) (hstore : s.op.isStore = false) (i j : Nat)
    (u t : Statement) (hu : p.statements[i]? = some u) (ht : p.statements[j]? = some t)
    (hij : i < j) (hi : i ∈ withReaders p position s) (hj : j ∉ withReaders p position s) :
    t.uses j (u.output i) = false := by
  have hout := s.output_resultOf position hstore
  unfold withReaders at hi hj
  rw [hstore, if_neg (by simp), List.mem_cons] at hi hj
  have hpi : position ≤ i := by
    rcases hi with rfl | hi
    · exact Nat.le_refl i
    · exact Nat.le_of_lt (Program.lt_of_mem_referencePositions hout.position hi)
  obtain ⟨hvalue, husers⟩ := Program.not_uses_of_not_mem_referencePositions hout.position ht
    (by omega) fun h => hj (Or.inr h)
  rcases hi with rfl | hi
  · obtain rfl := Option.some.inj (hu.symm.trans hs)
    exact hvalue
  · exact husers u i hu hij hi

/-- Where all reads are anchored, what stays reads nothing that goes. -/
theorem withReaders_closed (p : Program)
    (hanchored : ∀ (i : Nat) (t : Statement), p.statements[i]? = some t →
      ∀ r ∈ t.reads, r.Anchored (p.statements.take i))
    (position : Nat) (s : Statement) (hs : p.statements[position]? = some s)
    (j : Nat) (t : Statement) (ht : p.statements[j]? = some t) (hj : j ∉ withReaders p position s)
    (r : Ref) (hr : r ∈ t.reads) (b : Nat) (hb : r.position = some b) :
    b ∉ withReaders p position s := by
  intro hmem
  obtain ⟨i, u, hu, hustore, hpos, hroot⟩ := (hanchored j t ht r hr).position
  obtain rfl := Option.some.inj (hpos.symm.trans hb)
  obtain ⟨hij, hu⟩ := Program.getElem?_of_take hu
  -- The base of the reference goes, so it is no store and its readers are looked for.
  have hstore : s.op.isStore = false := by
    rcases mem_withReaders p position s i hmem with rfl | h
    · obtain rfl := Option.some.inj (hu.symm.trans hs)
      exact hustore
    · exact h.1
  have huses := t.uses_of_reads j i r _ hr hroot (u.root_output i hustore)
  rw [not_uses_of_not_mem_withReaders p position s hs hstore i j u t hu ht hij hmem hj] at huses
  cases huses

theorem contains_stays (p : Program) (position : Nat) (s : Statement) (i : Nat) :
    ((List.range p.length).filter
      fun i => !(withReaders p position s).contains i).contains i = true ↔
    i < p.length ∧ i ∉ withReaders p position s := by
  simp

theorem deleteWithReaders_holds (hD : D.Mobile) (p : Program) (h : D.Holds p.statements)
    (position : Nat) : D.Holds (deleteWithReaders p position).1.statements := by
  unfold deleteWithReaders
  split
  · exact h
  · next s hs =>
    have hkeep := contains_stays p position s
    dsimp only
    rw [Program.retain_eq]
    refine Discipline.Holds.kept hD h _ _ ?_ ?_
    · intro i t ht hi
      have hlt := ((hkeep i).mp hi).1
      rw [Program.rankOf?, hi, decide_eq_true hlt]
      rfl
    · intro i t ht hi r hr b hb
      have hclosed := withReaders_closed p (fun i t ht => (h i t ht).anchored hD) position s hs i t
        ht ((hkeep i).mp hi).2 r hr b hb
      have hlt := ((hkeep i).mp hi).1
      obtain ⟨b', hb', hpos⟩ := Program.base_of_isValid (h.sound hD).valid ht hr
      obtain rfl := Option.some.inj (hpos.symm.trans hb)
      exact (hkeep b').mpr ⟨by omega, hclosed⟩

/-! ## Deletions one after the other -/

/-- The program without the statements that are picked, each of them gone with its users. -/
def removeAll (p : Program) (picked : List Nat) : Program :=
  picked.foldl (fun p i => (deleteWithReaders p i).1) p

/-- What the deletion of one statement keeps, the deletion of some of them keeps. -/
theorem removeAll_keeps {P : Program → Prop} (hdelete : ∀ p i, P p → P (deleteWithReaders p i).1)
    (picked : List Nat) (p : Program) (h : P p) : P (removeAll p picked) := by
  induction picked generalizing p with
  | nil => exact h
  | cons i rest ih => exact ih _ (hdelete p i h)

variable [WordSource ω]

/-- The statements that a deletion picks, in this order. -/
def picks (share : Nat) : Nat → Program → Draw ω (List Nat)
  | 0, _ => pure []
  | position + 1, p => do
    if position < p.length then
      if ← oneIn share then
        let later ← picks share position (deleteWithReaders p position).1
        return position :: later
      else picks share position p
    else picks share position p

/-- A deletion removes what it picks, and nothing else. -/
theorem deleteFrom_eq_removeAll (share position : Nat) (p : Program) (w : ω) :
    (deleteFrom share position p w).1.1 = removeAll p (picks share position p w).1 := by
  induction position generalizing p w with
  | zero => rfl
  | succ position ih =>
    unfold deleteFrom picks
    by_cases hlt : position < p.length
    · rw [if_pos hlt, if_pos hlt, Draw.bind_apply, Draw.bind_apply]
      by_cases hchosen : (oneIn share w).1 = true
      · rw [if_pos hchosen, if_pos hchosen]
        exact ih _ _
      · rw [if_neg hchosen, if_neg hchosen]
        exact ih p _
    · rw [if_neg hlt, if_neg hlt]
      exact ih p w

theorem delete_gives {P : Program → Prop} (hdelete : ∀ p i, P p → P (deleteWithReaders p i).1)
    (p : Program) (h : P p) : Draw.Gives (delete p : Draw ω (Program × Bool)) fun x => P x.1 := by
  intro w
  rw [delete, deleteFrom_eq_removeAll]
  exact removeAll_keeps hdelete _ p h

theorem delete_holds (hD : D.Mobile) (p : Program) (h : D.Holds p.statements) :
    Draw.Gives (delete p : Draw ω (Program × Bool)) fun x => D.Holds x.1.statements :=
  delete_gives (P := fun p => D.Holds p.statements)
    (fun p i hp => deleteWithReaders_holds hD p hp i) p h

end SuiteSearch.Mutation
