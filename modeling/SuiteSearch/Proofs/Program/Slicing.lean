import SuiteSearch.Program.Slice
import SuiteSearch.Proofs.Program.Anchors
import SuiteSearch.Proofs.Program.Retention
import SuiteSearch.Proofs.Program.Users

/-!
# Slices of programs

A slice keeps its roots, the producer of a value and the users of that value, and adds, going
backwards, what a kept statement uses.  A kept statement that reads an anchored reference uses the
result that it hangs on, so that a slice is valid where all reads are anchored.  The producer at the
base of another path is not found, and the slice fails.

    slicePositions_cases          what is kept is a root, or used by a statement that is kept
    mem_slicePositions_of_uses    what a kept statement uses is kept
    slice_of_anchored             where all reads are anchored, a slice is valid
    slice_loses_producer          other paths hide their producer
-/

namespace SuiteSearch.Program

/-! ## The pass -/

/-- Statements of a program with their positions. -/
def Located (t : List Statement) (l : List (Statement × Nat)) : Prop :=
  ∀ s i, (s, i) ∈ l → t[i]? = some s

theorem Located.cons {t : List Statement} {l : List (Statement × Nat)} {s : Statement} {i : Nat}
    (hs : t[i]? = some s) (hl : Located t l) : Located t ((s, i) :: l) := by
  intro s' i' h
  rcases List.mem_cons.mp h with h | h
  · cases h
    exact hs
  · exact hl s' i' h

theorem closeBackward_cons (kept rest : List (Statement × Nat)) (s : Statement) (i : Nat) :
    closeBackward kept ((s, i) :: rest) =
      if kept.any fun d => d.1.uses d.2 (s.output i) then closeBackward ((s, i) :: kept) rest
      else closeBackward kept rest :=
  rfl

theorem mem_closeBackward (kept l : List (Statement × Nat)) (s : Statement) (i : Nat)
    (h : (s, i) ∈ kept) : i ∈ closeBackward kept l := by
  induction l generalizing kept with
  | nil => exact List.mem_map.mpr ⟨(s, i), h, rfl⟩
  | cons a rest ih =>
    obtain ⟨t, j⟩ := a
    rw [closeBackward_cons]
    split
    · exact ih _ (List.mem_cons_of_mem _ h)
    · exact ih _ h

/-- What is kept was kept from the start, or is used by a later statement that is kept, or by one
that was kept from the start. -/
theorem mem_closeBackward_cases (kept l : List (Statement × Nat))
    (hl : l.Pairwise fun a b => b.2 < a.2) (i : Nat) (h : i ∈ closeBackward kept l) :
    (∃ s, (s, i) ∈ kept) ∨ ∃ s, (s, i) ∈ l ∧ ∃ d k, ((d, k) ∈ kept ∨
      (d, k) ∈ l ∧ i < k ∧ k ∈ closeBackward kept l) ∧ d.uses k (s.output i) = true := by
  induction l generalizing kept with
  | nil =>
    obtain ⟨a, ha, rfl⟩ := List.mem_map.mp h
    exact Or.inl ⟨a.1, ha⟩
  | cons a rest ih =>
    obtain ⟨t, j⟩ := a
    obtain ⟨hj, hrest⟩ := List.pairwise_cons.mp hl
    rw [closeBackward_cons] at h ⊢
    split at h
    · next hused =>
      rw [if_pos hused]
      rcases ih _ hrest h with ⟨s, hs⟩ | ⟨s, hs, d, k, hd, huses⟩
      · rcases List.mem_cons.mp hs with hs | hs
        · cases hs
          obtain ⟨d, hd, huses⟩ := List.any_eq_true.mp hused
          exact Or.inr ⟨t, List.mem_cons_self, d.1, d.2, Or.inl hd, huses⟩
        · exact Or.inl ⟨s, hs⟩
      · refine Or.inr ⟨s, List.mem_cons_of_mem _ hs, d, k, ?_, huses⟩
        rcases hd with hd | ⟨hd, hik, hk⟩
        · rcases List.mem_cons.mp hd with hd | hd
          · cases hd
            have hkept := mem_closeBackward _ rest t j (List.mem_cons_self (l := kept))
            exact Or.inr ⟨List.mem_cons_self, hj (s, i) hs, hkept⟩
          · exact Or.inl hd
        · exact Or.inr ⟨List.mem_cons_of_mem _ hd, hik, hk⟩
    · next hnone =>
      rw [if_neg hnone]
      rcases ih _ hrest h with hs | ⟨s, hs, d, k, hd, huses⟩
      · exact Or.inl hs
      · refine Or.inr ⟨s, List.mem_cons_of_mem _ hs, d, k, ?_, huses⟩
        exact hd.imp_right fun ⟨hd, hik, hk⟩ => ⟨List.mem_cons_of_mem _ hd, hik, hk⟩

/-- What a kept statement uses is kept, if the pass still comes to it. -/
theorem mem_closeBackward_of_uses {t : List Statement} (kept l : List (Statement × Nat))
    (hl : l.Pairwise fun a b => b.2 < a.2) (hkept : Located t kept) (hlocated : Located t l)
    (s : Statement) (i : Nat) (hs : (s, i) ∈ l) (d : Statement) (k : Nat)
    (hd : (d, k) ∈ kept ∨ (d, k) ∈ l ∧ i < k ∧ k ∈ closeBackward kept l)
    (huses : d.uses k (s.output i) = true) : i ∈ closeBackward kept l := by
  induction l generalizing kept with
  | nil => cases hs
  | cons a rest ih =>
    obtain ⟨u, j⟩ := a
    obtain ⟨hj, hrest⟩ := List.pairwise_cons.mp hl
    have hu : t[j]? = some u := hlocated u j List.mem_cons_self
    have hlater : Located t rest := fun s i h => hlocated s i (List.mem_cons_of_mem _ h)
    rw [closeBackward_cons] at hd ⊢
    by_cases hused : (kept.any fun d => d.1.uses d.2 (u.output j)) = true
    · rw [if_pos hused] at hd ⊢
      rcases List.mem_cons.mp hs with hs | hs
      · cases hs
        exact mem_closeBackward _ rest s i List.mem_cons_self
      · refine ih _ hrest (hkept.cons hu) hlater hs ?_
        rcases hd with hd | ⟨hd, hik, hk⟩
        · exact Or.inl (List.mem_cons_of_mem _ hd)
        · rcases List.mem_cons.mp hd with hd | hd
          · cases hd
            exact Or.inl List.mem_cons_self
          · exact Or.inr ⟨hd, hik, hk⟩
    · rw [if_neg hused] at hd ⊢
      rcases List.mem_cons.mp hs with hs | hs
      · -- The statement is not used, so that its user comes neither before nor after it.
        cases hs
        rcases hd with hd | ⟨hd, hik, -⟩
        · exact absurd (List.any_eq_true.mpr ⟨(d, k), hd, huses⟩) hused
        · rcases List.mem_cons.mp hd with hd | hd
          · cases hd
            omega
          · have hki : k < i := hj (d, k) hd
            omega
      · refine ih _ hrest hkept hlater hs ?_
        rcases hd with hd | ⟨hd, hik, hk⟩
        · exact Or.inl hd
        · rcases List.mem_cons.mp hd with hd | hd
          · cases hd
            -- The user is passed over, but kept: then it was kept from the start.
            rcases mem_closeBackward_cases _ _ hrest k hk with ⟨d', hd'⟩ | ⟨d', hd', -⟩
            · obtain rfl := Option.some.inj ((hkept d' k hd').symm.trans hu)
              exact Or.inl hd'
            · have hlt : k < k := hj (d', k) hd'
              omega
          · exact Or.inr ⟨hd, hik, hk⟩

/-! ## The positions of a slice -/

/-- The positions that a slice starts from: the producer of the value and the users. -/
def sliceRoots (p : Program) (r : Ref) (position : Nat) : List Nat :=
  position :: p.referencePositions r

/-- The last position that a slice looks at. -/
def lastRoot (p : Program) (r : Ref) (position : Nat) : Nat :=
  (p.sliceRoots r position).foldl max position

theorem positionIn?_iff (p : Program) (r : Ref) (i : Nat) :
    p.positionIn? r = some i ↔ r.position = some i ∧ i < p.length := by
  rw [positionIn?, Option.filter_eq_some_iff, decide_eq_true_iff]

section
variable (p : Program) (r : Ref) (position : Nat)

theorem lastRoot_isMax : p.lastRoot r position ∈ p.sliceRoots r position ∧
    ∀ i ∈ p.sliceRoots r position, i ≤ p.lastRoot r position := by
  have hmax : (position :: p.sliceRoots r position).max? = some (p.lastRoot r position) :=
    List.max?_cons'
  obtain ⟨hmem, hle⟩ := List.max?_eq_some_iff.mp hmax
  refine ⟨?_, fun i hi => hle i (List.mem_cons_of_mem _ hi)⟩
  rcases List.mem_cons.mp hmem with h | h
  · rw [h]
    exact List.mem_cons_self
  · exact h

/-- The statements that a slice keeps from the start. -/
def rootStatements : List (Statement × Nat) :=
  p.statements.zipIdx.filter fun (_, i) => (p.sliceRoots r position).contains i

/-- The statements that a slice goes through. -/
def downFromLast : List (Statement × Nat) :=
  (p.statements.zipIdx.take (p.lastRoot r position + 1)).reverse

theorem slicePositions_eq : p.slicePositions r position =
    closeBackward (p.rootStatements r position) (p.downFromLast r position) := rfl

theorem mem_rootStatements (s : Statement) (i : Nat) :
    (s, i) ∈ p.rootStatements r position ↔
      p.statements[i]? = some s ∧ i ∈ p.sliceRoots r position := by
  rw [rootStatements, List.mem_filter, List.mk_mem_zipIdx_iff_getElem?, List.contains_iff_mem]

theorem mem_downFromLast (s : Statement) (i : Nat) :
    (s, i) ∈ p.downFromLast r position ↔
      p.statements[i]? = some s ∧ i ≤ p.lastRoot r position := by
  rw [downFromLast, List.mem_reverse, mem_zipIdx_take, Nat.lt_succ_iff, and_comm]

theorem downFromLast_sorted :
    (p.downFromLast r position).Pairwise fun a b => b.2 < a.2 :=
  List.pairwise_reverse.mpr (zipIdx_sorted p.statements 0).take

end

section
variable {p : Program} {r : Ref} {position i k : Nat} {s d : Statement}

theorem mem_slicePositions_of_root (hs : p.statements[i]? = some s)
    (hi : i ∈ p.sliceRoots r position) : i ∈ p.slicePositions r position := by
  rw [slicePositions_eq]
  exact mem_closeBackward _ _ s i ((mem_rootStatements p r position s i).mpr ⟨hs, hi⟩)

/-- What a slice keeps is a root, or used by a root or by a later statement that is kept. -/
theorem slicePositions_cases (h : i ∈ p.slicePositions r position) :
    ∃ s, p.statements[i]? = some s ∧ i ≤ p.lastRoot r position ∧
      (i ∈ p.sliceRoots r position ∨ ∃ d k, p.statements[k]? = some d ∧
        (k ∈ p.sliceRoots r position ∨ i < k) ∧ k ∈ p.slicePositions r position ∧
        d.uses k (s.output i) = true) := by
  rcases mem_closeBackward_cases _ _ (downFromLast_sorted p r position) i h with
    ⟨s, hs⟩ | ⟨s, hs, d, k, hd, huses⟩
  · obtain ⟨hs, hi⟩ := (mem_rootStatements p r position s i).mp hs
    exact ⟨s, hs, (lastRoot_isMax p r position).2 i hi, Or.inl hi⟩
  · obtain ⟨hs, hle⟩ := (mem_downFromLast p r position s i).mp hs
    refine ⟨s, hs, hle, Or.inr ⟨d, k, ?_⟩⟩
    rcases hd with hd | ⟨hd, hik, hk⟩
    · obtain ⟨hd, hk⟩ := (mem_rootStatements p r position d k).mp hd
      exact ⟨hd, Or.inl hk, mem_slicePositions_of_root hd hk, huses⟩
    · exact ⟨((mem_downFromLast p r position d k).mp hd).1, Or.inr hik, hk, huses⟩

/-- What a kept statement uses is kept, unless it comes after the last root. -/
theorem mem_slicePositions_of_uses (hs : p.statements[i]? = some s)
    (hi : i ≤ p.lastRoot r position) (hd : p.statements[k]? = some d)
    (hk : k ∈ p.sliceRoots r position ∨ i < k ∧ k ∈ p.slicePositions r position)
    (huses : d.uses k (s.output i) = true) : i ∈ p.slicePositions r position := by
  refine mem_closeBackward_of_uses (t := p.statements) _ _ (downFromLast_sorted p r position)
    (fun t j h => ((mem_rootStatements p r position t j).mp h).1)
    (fun t j h => ((mem_downFromLast p r position t j).mp h).1)
    s i ((mem_downFromLast p r position s i).mpr ⟨hs, hi⟩) d k ?_ huses
  rcases hk with hk | ⟨hik, hk⟩
  · exact Or.inl ((mem_rootStatements p r position d k).mpr ⟨hd, hk⟩)
  · obtain ⟨d', hd', hle, -⟩ := slicePositions_cases hk
    obtain rfl := Option.some.inj (hd'.symm.trans hd)
    exact Or.inr ⟨(mem_downFromLast p r position d' k).mpr ⟨hd, hle⟩, hik, hk⟩

end

/-! ## Where all reads are anchored -/

/-- Where all reads are anchored, a slice keeps the producer at the base of what it reads. -/
theorem base_mem_slicePositions {p : Program} {r : Ref} {position k : Nat} {d : Statement}
    (hvalid : p.isValid = true) (hk : k ∈ p.slicePositions r position)
    (hd : p.statements[k]? = some d) {x : Ref} (hx : x ∈ d.reads)
    (hanchored : x.Anchored p.statements) :
    ∃ b, b < k ∧ x.position = some b ∧ b ∈ p.slicePositions r position := by
  obtain ⟨b, hb, hpos⟩ := base_of_isValid hvalid hd hx
  obtain ⟨i, s, hs, hstore, hbase, hroot⟩ := hanchored.position
  obtain rfl := Option.some.inj (hbase.symm.trans hpos)
  obtain ⟨-, -, hle, -⟩ := slicePositions_cases hk
  have huses := d.uses_of_reads k i x _ hx hroot (s.root_output i hstore)
  exact ⟨i, hb, hpos, mem_slicePositions_of_uses hs (by omega) hd (Or.inr ⟨hb, hk⟩) huses⟩

/-- A slice is what its positions leave, if that is valid. -/
theorem slice_eq_ok_iff (p : Program) (r : Ref) (q : Program) (n : Nat) :
    p.slice r = .ok (q, n) ↔ ∃ i, r.position = some i ∧ i < p.length ∧
      (p.retain (p.slicePositions r i)).isValid = true ∧
      q = p.retain (p.slicePositions r i) ∧ n = rank (p.slicePositions r i) i := by
  constructor
  · intro h
    unfold slice checked at h
    split at h
    · cases h
    · next i hi =>
      obtain ⟨hr, hlt⟩ := (positionIn?_iff p r i).mp hi
      dsimp only at h
      split at h
      · next hvalid =>
        cases h
        exact ⟨i, hr, hlt, hvalid, rfl, rfl⟩
      · cases h
  · rintro ⟨i, hr, hlt, hvalid, rfl, rfl⟩
    rw [slice, (positionIn?_iff p r i).mpr ⟨hr, hlt⟩]
    exact if_pos hvalid

/-- Where all reads are anchored, a slice is valid and has the producer of the value, renumbered, at
the position that it gives. -/
theorem slice_of_anchored (p : Program) (hvalid : p.isValid = true)
    (hanchored : ∀ d ∈ p.statements, ∀ x ∈ d.reads, x.Anchored p.statements)
    (r : Ref) (i : Nat) (s : Statement) (hr : r.position = some i)
    (hs : p.statements[i]? = some s) :
    ∃ keep n, p.slice r = .ok (p.retain keep, n) ∧ (p.retain keep).isValid = true ∧
      rankOf? keep p.length i = some n ∧
      (p.retain keep).statements[n]? =
        some (dropStaleAssertions (s.remap (rankOf? keep p.length))) := by
  have hlt : i < p.length := (List.getElem?_eq_some_iff.mp hs).1
  have hkept : (p.retain (p.slicePositions r i)).isValid = true :=
    isValid_retain hvalid fun k d hd hk x hx =>
      base_mem_slicePositions hvalid hk hd hx (hanchored d (List.mem_of_getElem? hd) x hx)
  have hi : i ∈ p.slicePositions r i := mem_slicePositions_of_root hs List.mem_cons_self
  refine ⟨p.slicePositions r i, rank (p.slicePositions r i) i, ?_, hkept, rankOf?_of_mem hlt hi, ?_⟩
  · exact (slice_eq_ok_iff p r _ _).mpr ⟨i, hr, hlt, hkept, rfl, rfl⟩
  · exact getElem?_retain hs hi

/-! ### Boxes -/

namespace Boxes

def box : Ty := .named "Box"

def newBox : Statement := .construct ⟨box, []⟩ []

/-- The sizes of a box, an array. -/
def sizes : Field := ⟨box, "sizes", .array .int, false⟩

def weight : Field := ⟨box, "weight", .int, false⟩

def print : Method := ⟨box, "print", [.int], .void, true⟩

/-- Prints what a path leads to. -/
def printed (producers : List Statement) (path : Ref) : Program :=
  { Program.empty with statements := producers ++ [.call print none [path]] }

/-- Prints the weight of a box in an array, after a number that nothing reads. -/
def weightPrinted : Program :=
  printed [.allocate box 1, newBox, .store (.value 0) 0 (.value 1) box, .literal (.int 7) .int]
    (.field (.element (.value 0) 0) weight)

/-- Prints an element of the array in a field. -/
def sizePrinted : Program := printed [newBox] (.element (.field (.value 0) sizes) 0)

/-- Prints an element of an element. -/
def cellPrinted : Program :=
  printed [.allocate (.array .int) 1] (.element (.element (.value 0) 0) 0)

/-- Prints what a store is taken for that wrote an element. -/
def storePrinted : Program :=
  printed [.allocate .int 1, .literal (.int 7) .int, .store (.value 0) 0 (.value 1) .int] (.value 2)

end Boxes

open Boxes in
theorem slice_of_anchored_weightPrinted :
    weightPrinted.isValid = true ∧
    (∀ d ∈ weightPrinted.statements, ∀ x ∈ d.reads, x.Anchored weightPrinted.statements) ∧
    weightPrinted.statements[1]? = some newBox ∧
    ∃ keep n, weightPrinted.slice (.value 1) = .ok (weightPrinted.retain keep, n) ∧
      (weightPrinted.retain keep).isValid = true ∧
      rankOf? keep weightPrinted.length 1 = some n ∧
      (weightPrinted.retain keep).statements[n]? =
        some (dropStaleAssertions (newBox.remap (rankOf? keep weightPrinted.length))) := by
  have hanchored : ∀ d ∈ weightPrinted.statements, ∀ x ∈ d.reads,
      x.Anchored weightPrinted.statements := by decide
  exact ⟨rfl, hanchored, rfl, slice_of_anchored weightPrinted rfl hanchored (.value 1) 1 _ rfl rfl⟩

open Boxes in
/-- Programs that are valid can fail to be sliced for a value that they have: an element of an array
in a field or in an array hides its producer, and so does the position of a store. -/
theorem slice_loses_producer :
    (sizePrinted.isValid = true ∧
      sizePrinted.slice (.value 1) = .error (.fault .malformedProgram)) ∧
    (cellPrinted.isValid = true ∧
      cellPrinted.slice (.value 1) = .error (.fault .malformedProgram)) ∧
    (storePrinted.isValid = true ∧
      storePrinted.slice (.value 3) = .error (.fault .malformedProgram)) :=
  ⟨⟨rfl, rfl⟩, ⟨rfl, rfl⟩, rfl, rfl⟩

end SuiteSearch.Program
