import SuiteSearch.Proofs.Program.Renumbering
import SuiteSearch.Program.Slice

/-!
# Anchored references

A reference is anchored if it hangs on the result of an earlier statement that is no store: it is
that result, an element of it, or reached from it through fields.  A valid reference need not be: an
element of an array in a field hangs on the field, and its readers are not found.

    root r                  what a reference hangs on, or the reference itself
    Anchored l r            the root is the result of a statement of l that is no store
    uses_of_reads           what reads an anchored reference uses the result that it hangs on
-/

namespace SuiteSearch

namespace Ref

/-! ## Algorithm -/

/-- What a reference hangs on, or the reference itself. -/
def root (r : Ref) : Ref := r.additional.getD r

/-- The result of the statement at a position, which may be a null. -/
def ResultOf (i : Nat) (r : Ref) : Prop := r = .value i ∨ r = .null i

/-- Whether a reference hangs on the result of one of the statements, which is no store. -/
def Anchored (l : List Statement) (r : Ref) : Prop :=
  ∃ i s, l[i]? = some s ∧ s.op.isStore = false ∧ r.root.ResultOf i

/-- Whether a reference is anchored, computed. -/
def isAnchored (l : List Statement) (r : Ref) : Bool :=
  match r.root with
  | .value i | .null i => l[i]?.any fun s => !s.op.isStore
  | _ => false

/-! ## Lemmas -/

theorem isAnchored_iff (l : List Statement) (r : Ref) : r.isAnchored l = true ↔ r.Anchored l := by
  unfold isAnchored Anchored ResultOf
  cases r.root with
  | value j | null j =>
    constructor
    · intro h
      obtain ⟨s, hs, hstore⟩ := Option.any_eq_true _ _ |>.mp h
      exact ⟨j, s, hs, by simpa using hstore, by simp⟩
    · rintro ⟨i, s, hs, hstore, hi⟩
      obtain rfl : j = i := by simpa using hi
      simp [hs, hstore]
  | _ => simp

instance (l : List Statement) (r : Ref) : Decidable (r.Anchored l) :=
  decidable_of_iff _ (isAnchored_iff l r)

theorem position_root (r : Ref) : r.root.position = r.position := by
  induction r with
  | field source f ih => exact ih
  | value p | null p | element array k | dangling => rfl

theorem position_additional {r x : Ref} (h : r.additional = some x) : x.position = r.position := by
  have hroot : r.root = x := by rw [root, h, Option.getD_some]
  rw [← hroot, position_root]

theorem additional_remap (f : Nat → Option Nat) (r : Ref) (j : Nat)
    (h : r.position.bind f = some j) :
    (r.remap f).additional = r.additional.map (·.remap f) := by
  induction r with
  | value p | null p =>
    have hp : f p = some j := h
    simp [remap, hp, additional]
  | field source g ih =>
    rw [remap_field f source g j h, additional, additional, ih h]
    cases source.additional <;> rfl
  | element array k =>
    rw [remap_element f array k j h]
    rfl
  | dangling => rfl

theorem root_remap (f : Nat → Option Nat) (r : Ref) (j : Nat) (h : r.position.bind f = some j) :
    (r.remap f).root = r.root.remap f := by
  rw [root, root, additional_remap f r j h]
  cases r.additional <;> rfl

theorem ResultOf.root {i : Nat} {r : Ref} (h : r.ResultOf i) : r.root = r := by
  rcases h with rfl | rfl <;> rfl

theorem ResultOf.position {i : Nat} {r : Ref} (h : r.ResultOf i) : r.position = some i := by
  rcases h with rfl | rfl <;> rfl

theorem ResultOf.remap {i j : Nat} {r : Ref} (h : r.ResultOf i) (f : Nat → Option Nat)
    (hf : f i = some j) : (r.remap f).ResultOf j := by
  rcases h with rfl | rfl
  · exact Or.inl (by simp [Ref.remap, hf])
  · exact Or.inr (by simp [Ref.remap, hf])

theorem ResultOf.sameValue {i : Nat} {r r' : Ref} (h : r.ResultOf i) (h' : r'.ResultOf i) :
    r.sameValue r' = true := by
  rcases h with rfl | rfl <;> rcases h' with rfl | rfl <;> simp [Ref.sameValue]

/-- What has a base denotes what it does. -/
theorem sameValue_self (r : Ref) (i : Nat) (h : r.position = some i) : r.sameValue r = true := by
  induction r with
  | value p | null p =>
    show (p == p) = true
    exact beq_self_eq_true p
  | field source f ih =>
    show (f == f && source.sameValue source) = true
    rw [ih h, beq_self_eq_true, Bool.and_self]
  | element array k ih =>
    show (k == k && array.sameValue array) = true
    rw [ih h, beq_self_eq_true, Bool.and_self]
  | dangling => cases h

theorem Anchored.position {l : List Statement} {r : Ref} (h : r.Anchored l) :
    ∃ i s, l[i]? = some s ∧ s.op.isStore = false ∧ r.position = some i ∧ r.root.ResultOf i := by
  obtain ⟨i, s, hs, hstore, hroot⟩ := h
  exact ⟨i, s, hs, hstore, by rw [← position_root, hroot.position], hroot⟩

theorem Anchored.plain {l : List Statement} {r : Ref} (h : r.Anchored l) : r.Plain := by
  obtain ⟨i, -, -, -, hpos, -⟩ := h.position
  exact Or.inr ⟨i, hpos⟩

end Ref

/-- Whether the operation is a null. -/
def Operation.isNullLiteral : Operation → Bool
  | .literal v => v.isNull
  | _ => false

theorem Operation.isNullLiteral_mapReads (f : Ref → Ref) (op : Operation) :
    (op.mapReads f).isNullLiteral = op.isNullLiteral := by
  cases op <;> rfl

namespace Statement

/-- Whether a statement can stand for another one: same type, a store only for a store, and a null
only for a null. -/
structure Alike (s t : Statement) : Prop where
  ty : s.ty = t.ty
  isStore : s.op.isStore = t.op.isStore
  isNullLiteral : s.op.isNullLiteral = t.op.isNullLiteral

theorem Alike.refl (s : Statement) : s.Alike s := ⟨rfl, rfl, rfl⟩

theorem Alike.remap (f : Nat → Option Nat) (s : Statement) : (s.remap f).Alike s :=
  ⟨rfl, s.op.isStore_mapReads _, s.op.isNullLiteral_mapReads _⟩

/-- The result of a statement that is no store tells whether it is a null. -/
theorem output_eq (s : Statement) (i : Nat) (h : s.op.isStore = false) :
    s.output i = if s.op.isNullLiteral then .null i else .value i := by
  obtain ⟨op, ty, assertions⟩ := s
  cases op with
  | literal v => cases v <;> rfl
  | store target value => cases h
  | _ => rfl

theorem output_resultOf (s : Statement) (i : Nat) (h : s.op.isStore = false) :
    (s.output i).ResultOf i := by
  rw [s.output_eq i h]
  split
  · exact Or.inr rfl
  · exact Or.inl rfl

theorem root_output (s : Statement) (i : Nat) (h : s.op.isStore = false) :
    (s.output i).root.ResultOf i := by
  have hout := s.output_resultOf i h
  rw [hout.root]
  exact hout

/-! ## Users -/

/-- A statement that reads an anchored reference has to do with the result that it hangs on. -/
theorem references_of_reads (s : Statement) (j i : Nat) (r v : Ref) (hr : r ∈ s.reads)
    (hroot : r.root.ResultOf i) (hv : v.ResultOf i) : s.references j v = true := by
  have hroots : r.root ∈ withAdditional r := by
    unfold Ref.root withAdditional
    cases r.additional with
    | none => exact List.mem_cons_self
    | some x => exact List.mem_cons_of_mem r (List.mem_singleton.mpr rfl)
  refine List.any_eq_true.mpr ⟨r.root, List.mem_flatMap.mpr ⟨r, ?_, hroots⟩, ?_⟩
  · exact List.mem_cons_of_mem _ hr
  · exact hroot.sameValue hv

/-- A statement that reads an anchored reference uses the result that it hangs on, and whatever
else hangs on it. -/
theorem uses_of_reads (s : Statement) (j i : Nat) (r v : Ref) (hr : r ∈ s.reads)
    (hroot : r.root.ResultOf i) (hv : v.root.ResultOf i) : s.uses j v = true := by
  have hreferences := s.references_of_reads j i r v.root hr hroot hv
  unfold Ref.root at hreferences
  unfold uses
  cases h : v.additional with
  | none =>
    rw [h] at hreferences
    have hv : s.references j v = true := hreferences
    rw [hv, Bool.true_or]
  | some x =>
    rw [h] at hreferences
    have hx : s.references j x = true := hreferences
    rw [Option.any_some, hx, Bool.or_true]

end Statement

theorem Ref.Anchored.moved {l l' : List Statement} {r : Ref} {f : Nat → Option Nat} {i j : Nat}
    {s s' : Statement} (h : r.Anchored l) (hr : r.position = some i) (hf : f i = some j)
    (hs : l[i]? = some s) (hs' : l'[j]? = some s') (halike : s'.Alike s) :
    (r.remap f).Anchored l' := by
  obtain ⟨i', t, ht, hstore, hpos, hroot⟩ := h.position
  obtain rfl := Option.some.inj (hpos.symm.trans hr)
  obtain rfl := Option.some.inj (ht.symm.trans hs)
  refine ⟨j, s', hs', halike.isStore.trans hstore, ?_⟩
  rw [root_remap f r j (by rw [hr]; exact hf)]
  exact hroot.remap f hf

end SuiteSearch
