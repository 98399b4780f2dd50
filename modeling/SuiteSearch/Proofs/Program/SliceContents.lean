import SuiteSearch.Program.Scope
import SuiteSearch.Proofs.Program.Dependence

/-!
# What a slice keeps

A store gives no value of its own.  It is found because it uses the array that it writes, and
because who reads the array, or any element of it, uses the array as well.  So a slice that keeps a
statement keeps all earlier stores into the arrays that the statement reads; and it keeps nothing
else than the value, its users, and what is used by something that it keeps.

    p.PlainReads                elements are taken on results, and no read names a store
    mem_slicePositions_store    the stores into what a kept statement reads are kept
    slicePositions_needed       what is kept is the value, a user, or used by what is kept
    slice_keeps                 both, where all reads are plain
-/

namespace SuiteSearch

/-! ## Algorithm -/

/-- Whether all elements on the way of a reference are taken on a result directly. -/
def Ref.elementsOnValues : Ref → Bool
  | field source _ => source.elementsOnValues
  | element (value _) _ => true
  | element _ _ => false
  | value _ | null _ | dangling => true

/-- Whether a statement reads a result: as a whole, by an element of it, or by fields of either. -/
def Statement.ReadsFrom (d : Statement) (a : Nat) : Prop :=
  ∃ x ∈ d.reads, x.position = some a

/-- Whether a statement stores into the array that was made at a position. -/
def Statement.StoresInto (t : Statement) (a : Nat) : Prop :=
  ∃ target value, t.op = .store target value ∧ target.position = some a

/-- Whether a statement has to do with the result of another one, or with the array that the other
one stores into. -/
def Statement.NeedsResult (d : Statement) (k : Nat) (s : Statement) (i : Nat) : Prop :=
  d.references k (s.output i) = true ∨
    ∃ target value, s.op = .store target value ∧ d.references k target.root = true

namespace Program

/-- Valid, with elements taken on results only, and without a read that names a store. -/
structure PlainReads (p : Program) : Prop where
  valid : p.isValid = true
  elements : ∀ d ∈ p.statements, ∀ x ∈ d.reads, x.elementsOnValues = true
  noStore : ∀ d ∈ p.statements, ∀ x ∈ d.reads,
    ∀ s ∈ CandidateFilter.baseStatement? p x, s.op.isStore = false

/-- What it means that positions are a slice for the value of a position. -/
structure SliceOf (p : Program) (r : Ref) (position : Nat) (keep : List Nat) : Prop where
  producer : position ∈ keep
  /-- A store placed before a kept statement, into an array that this one reads, is kept. -/
  stores : ∀ k ∈ keep, ∀ d, p.statements[k]? = some d → ∀ a, d.ReadsFrom a →
    ∀ c < k, ∀ t, p.statements[c]? = some t → t.StoresInto a → c ∈ keep
  /-- What is kept stands where the number of kept statements before it says, renumbered. -/
  placed : ∀ k ∈ keep, ∃ d, p.statements[k]? = some d ∧
    (p.retain keep).statements[rank keep k]? =
      some (dropStaleAssertions (d.remap (rankOf? keep p.length)))
  /-- That is the order in which the statements stood. -/
  ordered : ∀ c ∈ keep, ∀ k, c < k → rank keep c < rank keep k
  /-- What is kept makes the value, uses it, or is needed by another statement that is kept. -/
  needed : ∀ i ∈ keep, i = position ∨ i ∈ p.referencePositions r ∨
    ∃ s d k, p.statements[i]? = some s ∧ p.statements[k]? = some d ∧ k ∈ keep ∧ k ≠ i ∧
      d.NeedsResult k s i

end Program

/-! ## Lemmas -/

theorem Ref.root_of_elementsOnValues {r : Ref} {i : Nat} (h : r.elementsOnValues = true)
    (hr : r.position = some i) : r.root.ResultOf i := by
  induction r with
  | value p => exact Or.inl (congrArg value (Option.some.inj hr))
  | null p => exact Or.inr (congrArg null (Option.some.inj hr))
  | field source f ih => exact ih h hr
  | element array k _ =>
    cases array <;> simp only [elementsOnValues, Bool.false_eq_true] at h
    exact Or.inl (congrArg value (Option.some.inj hr))
  | dangling => cases hr

/-- What uses the result of a statement has to do with it, or with the array that it is in. -/
theorem Statement.needsResult_of_uses {d s : Statement} {k i : Nat}
    (h : d.uses k (s.output i) = true) : d.NeedsResult k s i := by
  cases hstore : s.op.isStore with
  | false => exact Or.inl (Program.references_of_uses_output d s k i hstore h)
  | true =>
    obtain ⟨op, ty, assertions⟩ := s
    cases op <;> simp only [Operation.isStore, Bool.false_eq_true] at hstore
    case store target value =>
      rcases Bool.or_eq_true_iff.mp h with h | h
      · exact Or.inl h
      · obtain ⟨x, hx, href⟩ := Option.any_eq_true _ _ |>.mp h
        have hroot : target.root = x := by
          have hx : target.additional = some x := hx
          rw [Ref.root, hx, Option.getD_some]
        exact Or.inr ⟨target, value, rfl, by rw [hroot]; exact href⟩

namespace Program

variable {p : Program} {r : Ref} {position i k a : Nat} {s d : Statement}

theorem PlainReads.anchored (h : p.PlainReads) (hd : p.statements[k]? = some d) {x : Ref}
    (hx : x ∈ d.reads) : x.Anchored p.statements := by
  obtain ⟨b, hb, hpos⟩ := base_of_isValid h.valid hd hx
  have hlt : b < p.statements.length := Nat.lt_trans hb (List.getElem?_eq_some_iff.mp hd).1
  have hs : p.statements[b]? = some p.statements[b] := List.getElem?_eq_getElem hlt
  have hmem := List.mem_of_getElem? hd
  refine ⟨b, p.statements[b], hs, h.noStore d hmem x hx _ ?_, ?_⟩
  · rw [CandidateFilter.baseStatement?, hpos]
    exact hs
  · exact Ref.root_of_elementsOnValues (h.elements d hmem x hx) hpos

/-- The stores into what a kept statement reads are kept: both hang on the same array. -/
theorem mem_slicePositions_store (h : p.PlainReads) (hk : k ∈ p.slicePositions r position)
    (hd : p.statements[k]? = some d) (hread : d.ReadsFrom a) (hi : i < k)
    (hs : p.statements[i]? = some s) (hstore : s.StoresInto a) :
    i ∈ p.slicePositions r position := by
  obtain ⟨x, hx, hxpos⟩ := hread
  obtain ⟨target, value, hop, htarget⟩ := hstore
  have houtput : s.output i = target := by rw [Statement.output, hop]; rfl
  have hwritten : target ∈ s.reads := by
    rw [Statement.reads, hop]
    exact List.mem_cons_self
  have hxroot := Ref.root_of_elementsOnValues (h.elements d (List.mem_of_getElem? hd) x hx) hxpos
  have htroot := Ref.root_of_elementsOnValues
    (h.elements s (List.mem_of_getElem? hs) target hwritten) htarget
  have huses : d.uses k (s.output i) = true := by
    rw [houtput]
    exact d.uses_of_reads k a x target hx hxroot htroot
  obtain ⟨-, -, hle, -⟩ := slicePositions_cases hk
  exact mem_slicePositions_of_uses hs (by omega) hd (Or.inr ⟨hi, hk⟩) huses

/-- What is kept makes the value, uses it, or is needed by another statement that is kept. -/
theorem slicePositions_needed (hi : i ∈ p.slicePositions r position) :
    i = position ∨ i ∈ p.referencePositions r ∨
      ∃ s d k, p.statements[i]? = some s ∧ p.statements[k]? = some d ∧
        k ∈ p.slicePositions r position ∧ k ≠ i ∧ d.NeedsResult k s i := by
  by_cases hroot : i ∈ p.sliceRoots r position
  · exact (List.mem_cons.mp hroot).imp_right Or.inl
  · obtain ⟨s, hs, -, hcases⟩ := slicePositions_cases hi
    obtain ⟨d, k, hd, hik, hk, huses⟩ := hcases.resolve_left hroot
    refine Or.inr (Or.inr ⟨s, d, k, hs, hd, hk, ?_, Statement.needsResult_of_uses huses⟩)
    rcases hik with hk | hik
    · rintro rfl
      exact hroot hk
    · exact Nat.ne_of_gt hik

/-- Where all reads are plain, a slice succeeds for every value of the program.  It keeps the stores
into all arrays that a kept statement reads, in order, and nothing that is not needed. -/
theorem slice_keeps (p : Program) (h : p.PlainReads) (r : Ref) (position : Nat)
    (hr : r.position = some position) (hposition : position < p.length) :
    ∃ keep, p.slice r = .ok (p.retain keep, rank keep position) ∧ p.SliceOf r position keep := by
  have hvalid : (p.retain (p.slicePositions r position)).isValid = true :=
    isValid_retain h.valid fun k d hd hk x hx =>
      base_mem_slicePositions h.valid hk hd hx (h.anchored hd hx)
  refine ⟨p.slicePositions r position, ?_, ?_, ?_, ?_, ?_, fun i hi => slicePositions_needed hi⟩
  · exact (slice_eq_ok_iff p r _ _).mpr ⟨position, hr, hposition, hvalid, rfl, rfl⟩
  · exact mem_slicePositions_of_root (List.getElem?_eq_getElem hposition) List.mem_cons_self
  · intro k hk d hd a hread c hc t ht hstore
    exact mem_slicePositions_store h hk hd hread hc ht hstore
  · intro k hk
    obtain ⟨d, hd, -⟩ := slicePositions_cases hk
    exact ⟨d, hd, getElem?_retain hd hk⟩
  · intro c hc k hck
    exact rank_lt _ hck (List.contains_iff_mem.mpr hc)

namespace Boxes

/-- Prints the weight of the first of two boxes in an array, with a number between the stores. -/
def firstPrinted : Program :=
  { Program.empty with
    statements := [
      .allocate box 2,
      newBox,
      newBox,
      .store (.value 0) 0 (.value 1) box,
      .literal (.int 7) .int,
      .store (.value 0) 1 (.value 2) box,
      .call print none [.field (.element (.value 0) 0) weight]] }

end Boxes

open Boxes in
theorem slice_keeps_firstPrinted :
    firstPrinted.PlainReads ∧ ∃ keep,
      firstPrinted.slice (.value 6) = .ok (firstPrinted.retain keep, rank keep 6) ∧
      firstPrinted.SliceOf (.value 6) 6 keep ∧ 3 ∈ keep ∧ 5 ∈ keep := by
  have hplain : firstPrinted.PlainReads := ⟨rfl, by decide, by decide⟩
  obtain ⟨keep, hslice, hkeep⟩ := slice_keeps firstPrinted hplain (.value 6) 6 rfl (by decide)
  have hread : (Statement.call print none [.field (.element (.value 0) 0) weight]).ReadsFrom 0 :=
    ⟨_, List.mem_cons_self, rfl⟩
  refine ⟨hplain, keep, hslice, hkeep, ?_, ?_⟩
  · exact hkeep.stores 6 hkeep.producer _ rfl 0 hread 3 (by decide) _ rfl ⟨_, _, rfl, rfl⟩
  · exact hkeep.stores 6 hkeep.producer _ rfl 0 hread 5 (by decide) _ rfl ⟨_, _, rfl, rfl⟩

end Program

end SuiteSearch
