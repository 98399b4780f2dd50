import SuiteSearch.Proofs.Program.Reslicing

/-!
# What is left when some statements are kept

Keeping statements moves references and takes assertions away.  A reference with a kept base moves
as a whole: the base goes to its rank, and the path from there stays.  A reference without one is
gone as a whole, so that an assertion goes exactly if its source has no kept base.

    r.rebase f           r with the base moved by f
    p.keepsBase keep r   whether the statement at the base of r is kept
    p.rebased keep s     s with all bases at their ranks, and the assertions whose bases are kept
    retain_rebased       p.retain keep has the kept statements in order, each of them rebased
-/

namespace SuiteSearch

/-! ## Algorithm -/

/-- Moves the base and leaves the path from there alone. -/
def Ref.rebase (f : Nat → Nat) : Ref → Ref
  | value p => value (f p)
  | null p => null (f p)
  | field source g => field (source.rebase f) g
  | element array i => element (array.rebase f) i
  | dangling => dangling

/-- Moves the bases of all that is read. -/
def Operation.rebase (f : Nat → Nat) : Operation → Operation
  | construct k args mock => construct k (args.map (Ref.rebase f)) mock
  | call m callee args => call m (callee.map (Ref.rebase f)) (args.map (Ref.rebase f))
  | read g source => read g (source.map (Ref.rebase f))
  | store target value => store (target.rebase f) (value.rebase f)
  | allocate n => allocate n
  | literal v => literal v

namespace Program

/-- Whether the statement at the base of a reference is kept. -/
def keepsBase (p : Program) (keep : List Nat) (r : Ref) : Bool :=
  r.position.any fun b => b < p.length && keep.contains b

/-- A statement with all bases at their ranks, and with the assertions whose bases are kept. -/
def rebased (p : Program) (keep : List Nat) (s : Statement) : Statement :=
  { op := s.op.rebase (rank keep)
    ty := s.ty
    assertions := (s.assertions.filter fun a => p.keepsBase keep a.source).map fun a =>
      ⟨a.source.rebase (rank keep), a.check⟩ }

end Program

/-! ## Lemmas -/

/-- Where the base has a new number, a renumbering moves the base and nothing else. -/
theorem Ref.remap_eq_rebase (f : Nat → Option Nat) (g : Nat → Nat) (r : Ref) (i : Nat)
    (hr : r.position = some i) (hf : f i = some (g i)) : r.remap f = r.rebase g := by
  induction r with
  | value p | null p =>
    obtain rfl := Option.some.inj hr
    simp only [remap, hf, Option.elim_some, rebase]
  | field source k ih =>
    have hs : source.position = some i := hr
    rw [remap_field f source k (g i) (by rw [hs]; exact hf), ih hs, rebase]
  | element array k ih =>
    have hs : array.position = some i := hr
    rw [remap_element f array k (g i) (by rw [hs]; exact hf), ih hs, rebase]
  | dangling => cases hr

theorem Operation.mapReads_eq_rebase (f : Ref → Ref) (g : Nat → Nat) (op : Operation)
    (h : ∀ r ∈ op.reads, f r = r.rebase g) : op.mapReads f = op.rebase g := by
  rw [mapReads_congr f (Ref.rebase g) op h]
  cases op <;> rfl

namespace Program

variable {p : Program} {keep : List Nat} {r : Ref} {k : Nat} {s : Statement}

theorem keepsBase_iff :
    p.keepsBase keep r = true ↔ ∃ b, b < p.length ∧ b ∈ keep ∧ r.position = some b := by
  unfold keepsBase
  cases r.position <;> simp

theorem remap_rankOf? (h : p.keepsBase keep r = true) :
    r.remap (rankOf? keep p.length) = r.rebase (rank keep) := by
  obtain ⟨b, hlt, hb, hr⟩ := keepsBase_iff.mp h
  exact r.remap_eq_rebase _ _ b hr (rankOf?_of_mem hlt hb)

/-- A reference is gone if its base is not kept, or if it had none. -/
theorem isDangling_remap_rankOf? (p : Program) (keep : List Nat) (r : Ref) :
    (r.remap (rankOf? keep p.length)).isDangling = !p.keepsBase keep r := by
  rw [Ref.isDangling_remap, keepsBase]
  cases r.position with
  | none => rfl
  | some b =>
    rw [Option.bind_some, Option.any_some, rankOf?]
    cases decide (b < p.length) && keep.contains b <;> rfl

/-- Exactly the assertions whose bases are kept are live after the renumbering. -/
theorem live_assertions_remap (p : Program) (keep : List Nat) (l : List Assertion) :
    (l.map (·.mapSource (·.remap (rankOf? keep p.length)))).filter
        (fun a => !a.source.isDangling) =
      (l.filter fun a => p.keepsBase keep a.source).map fun a =>
        ⟨a.source.rebase (rank keep), a.check⟩ := by
  have hlive : ∀ a ∈ l, (!(a.mapSource (·.remap (rankOf? keep p.length))).source.isDangling) =
      p.keepsBase keep a.source := by
    intro a _
    rw [Assertion.mapSource, isDangling_remap_rankOf?, Bool.not_not]
  calc _ = (l.filter fun a => p.keepsBase keep a.source).map
        (·.mapSource (·.remap (rankOf? keep p.length))) := by
        rw [List.filter_map]
        exact congrArg _ (List.filter_congr hlive)
    _ = _ := by
        refine List.map_congr_left fun a ha => ?_
        rw [Assertion.mapSource, remap_rankOf? (List.mem_filter.mp ha).2]

/-- A statement whose reads have kept bases is rebased. -/
theorem dropStaleAssertions_eq_rebased (h : ∀ r ∈ s.reads, p.keepsBase keep r = true) :
    dropStaleAssertions (s.remap (rankOf? keep p.length)) = p.rebased keep s := by
  have hop : s.op.mapReads (·.remap (rankOf? keep p.length)) = s.op.rebase (rank keep) :=
    Operation.mapReads_eq_rebase _ _ s.op fun r hr => remap_rankOf? (h r hr)
  rw [dropStaleAssertions, rebased, Statement.remap, Statement.mapReads, hop,
    live_assertions_remap]

/-- What a kept statement of a valid program reads has a kept base if its position is kept. -/
theorem keepsBase_of_isValid (hvalid : p.isValid = true) (hs : p.statements[k]? = some s)
    (hr : r ∈ s.reads) (hkeep : ∃ b ∈ keep, r.position = some b) :
    p.keepsBase keep r = true := by
  obtain ⟨b, hb, hpos⟩ := hkeep
  obtain ⟨b', hlt, hpos'⟩ := base_of_isValid hvalid hs hr
  obtain rfl := Option.some.inj (hpos'.symm.trans hpos)
  have hk : k < p.length := (List.getElem?_eq_some_iff.mp hs).1
  exact keepsBase_iff.mpr ⟨b', Nat.lt_trans hlt hk, hb, hpos⟩

/-- Where the kept statements read one another only, they are left in order, and nothing changes but
that each base moves to the number of kept positions before it and that the assertions without a
kept base are gone. -/
theorem retain_rebased (p : Program) (keep : List Nat) (hvalid : p.isValid = true)
    (hclosed : ∀ k ∈ keep, ∀ s ∈ p.statements[k]?, ∀ r ∈ s.reads,
      ∃ b ∈ keep, r.position = some b) :
    p.retain keep = { p with
      statements := (p.statements.zipIdx.filter fun (_, k) => k ∈ keep).map fun (s, _) =>
        p.rebased keep s } := by
  have hfilter : (p.statements.zipIdx.filter fun (_, k) => keep.contains k) =
      p.statements.zipIdx.filter fun (_, k) => k ∈ keep :=
    List.filter_congr fun (_, k) _ => List.contains_eq_mem k keep
  rw [retain_eq, kept, hfilter]
  congr 1
  refine List.map_congr_left fun (s, k) hmem => ?_
  obtain ⟨hs, hk⟩ := List.mem_filter.mp hmem
  rw [List.mk_mem_zipIdx_iff_getElem?] at hs
  exact dropStaleAssertions_eq_rebased fun r hr =>
    keepsBase_of_isValid hvalid hs hr (hclosed k (of_decide_eq_true hk) s hs r hr)

namespace Boxes

/-- Lifts the second of two boxes and prints the weight of the first, with checks of both. -/
def checkedBoxes : Program :=
  { Program.empty with
    statements := [
      newBox,
      .literal (.int 5) .int,
      newBox,
      { Statement.call lift (some (.value 2)) [.value 1] with
        assertions := [
          ⟨.value 0, .nullness false⟩,
          ⟨.field (.value 2) weight, .equals (.int 5)⟩] },
      { Statement.call print none [.field (.value 0) weight] with
        assertions := [⟨.value 2, .nullness false⟩] }] }

/-- Lifts the box, with a check of it. -/
def checkedBox : Program :=
  { Program.empty with
    statements := [
      .literal (.int 5) .int,
      newBox,
      { Statement.call lift (some (.value 1)) [.value 0] with
        assertions := [⟨.field (.value 1) weight, .equals (.int 5)⟩] }] }

end Boxes

open Boxes in
theorem retain_rebased_checkedBoxes :
    checkedBoxes.isValid = true ∧
    (∀ k ∈ [1, 2, 3], ∀ s ∈ checkedBoxes.statements[k]?, ∀ r ∈ s.reads,
      ∃ b ∈ [1, 2, 3], r.position = some b) ∧
    checkedBoxes.retain [1, 2, 3] = checkedBox := by
  have hclosed : ∀ k ∈ [1, 2, 3], ∀ s ∈ checkedBoxes.statements[k]?, ∀ r ∈ s.reads,
      ∃ b ∈ [1, 2, 3], r.position = some b := by decide
  exact ⟨rfl, hclosed, (retain_rebased checkedBoxes [1, 2, 3] rfl hclosed).trans rfl⟩

end Program

end SuiteSearch
