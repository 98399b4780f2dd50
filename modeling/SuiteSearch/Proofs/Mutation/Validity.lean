import SuiteSearch.Proofs.Mutation.History
import SuiteSearch.Proofs.Program.Offers

/-!
# Grown programs are valid

Validity alone is not kept by deletion: a reader is found only if what it reads hangs directly on
the result that goes.  All that insertions and changes put in does, which is the discipline that
carries the proof.

    anchored c         every value read is anchored in a statement that is no store
    Grown.valid        grown programs are valid, and no call finds one malformed
-/

namespace SuiteSearch

/-! ## Lemmas -/

namespace Ref

theorem Anchored.append {l : List Statement} {r : Ref} (h : r.Anchored l) (more : List Statement) :
    r.Anchored (l ++ more) := by
  obtain ⟨i, s, hs, hstore, hroot⟩ := h
  refine ⟨i, s, ?_, hstore, hroot⟩
  rwa [List.getElem?_append_left (List.getElem?_eq_some_iff.mp hs).1]

/-- The result of the last statement. -/
theorem anchored_output (l : List Statement) (s : Statement) (hstore : s.op.isStore = false) :
    (s.output l.length).Anchored (l ++ [s]) :=
  ⟨l.length, s, List.getElem?_concat_length, hstore, s.root_output l.length hstore⟩

end Ref

theorem Reached.root {c : Cluster} {s : Statement} {i : Nat} {r : Ref} {t : Ty}
    (h : Reached c s i r t) (hstore : s.op.isStore = false) : r.root.ResultOf i := by
  induction h with
  | output => exact s.root_output i hstore
  | field _ _ _ ih => exact ih

theorem Offer.anchored {c : Cluster} {ty : Ty} {before : List Statement} {r : Ref}
    (h : Offer c ty before r) : r.Anchored before := by
  cases h with
  | reached hs hstore hr _ => exact ⟨_, _, hs, hstore, hr.root hstore⟩
  | element hs hop _ _ => exact ⟨_, _, hs, by rw [hop]; rfl, Or.inl rfl⟩

/-! ## The discipline -/

namespace Discipline

/-- Every value is anchored in an earlier statement that is no store. -/
def anchored (c : Cluster) : Discipline c where
  asks _ := True
  fits l _ r := r.Anchored l
  asks_component _ := True.intro
  asks_need _ _ := True.intro
  fits_append h := h.append _
  fits_candidate h := (Program.mem_findCompatible _ _ _ _ _ _ h).anchored
  fits_literal _ := Ref.anchored_output _ _ rfl
  fits_allocate {l t n} _ := Ref.anchored_output l (.allocate t n) rfl
  fits_maker {l _ k args} _ := Ref.anchored_output l (.construct k args) rfl

theorem anchored_mobile (c : Cluster) : (anchored c).Mobile where
  anchored h := h
  moved h hr hf hs hs' halike := h.moved hr hf hs hs' halike

end Discipline

/-! ## Top theorem -/

/-- A grown program is valid, and every further call leaves a valid program unless it is stopped by
a limit; it never finds the program malformed. -/
theorem Grown.valid {c : Cluster} {p : Program} (h : Grown c p) :
    p.isValid = true ∧
      ∀ (ω : Type) [WordSource ω] (ins : Inserter ω) (call : Call) (w : ω), ins.cluster = c →
        ins.selector.Offers c →
        match call.run ins p w with
        | .error f => f ≠ .malformedProgram ∧ call.Halts ins p f
        | .ok (p', _) => p'.isValid = true := by
  have hD := Discipline.anchored_mobile c
  have hp : (Discipline.anchored c).Holds p.statements := h.holds hD
  refine ⟨(hp.sound hD).valid, ?_⟩
  intro ω _ ins call w hc hoffers
  subst hc
  have hcall := call.run_holds hD hoffers.admits p hp w
  generalize call.run ins p w = x at hcall ⊢
  cases x with
  | error f => exact ⟨hcall.not_malformed, hcall⟩
  | ok x => exact (Discipline.Holds.sound hD hcall).valid

theorem Grown.valid_counterOfZero :
    Grown Inserter.counters counterOfZero ∧ counterOfZero.isValid = true ∧
      match (Call.apply 4 .delete).run reusing counterOfZero ⟨[], 0⟩ with
      | .error f => f ≠ .malformedProgram ∧ (Call.apply 4 .delete).Halts reusing counterOfZero f
      | .ok (p', _) => p'.isValid = true := by
  obtain ⟨hvalid, hcalls⟩ := Grown.valid grown_counterOfZero
  have hoffers : reusing.selector.Offers Inserter.counters := Selector.random_offers _
  exact ⟨grown_counterOfZero, hvalid, hcalls _ reusing (.apply 4 .delete) ⟨[], 0⟩ rfl hoffers⟩

end SuiteSearch
