import SuiteSearch.Proofs.Program.Insertion
import SuiteSearch.Proofs.Program.Reslicing

/-!
# Putting one value for another

A replacement puts a reference for every part of a path that denotes the old value.  Where the new
value is made before the old one, readers still read backwards, and the old value does not come back
through the new one: whatever is built on a value has the base of that value.

    BuiltOn old r              r denotes the old value or is a path from it
    Rebased old new r r'       r' is the same path from the new value
    replace_of_not_builtOn     what is not built on the old value stays as it is
    rebased_replace            what is built on it is rebased
    not_builtOn_replace        nothing is built on it afterwards
    replace_eliminates         the same for programs, which stay valid
-/

namespace SuiteSearch

/-! ## Algorithm -/

namespace Ref

/-- Whether a reference denotes a value or is a path from what does. -/
inductive BuiltOn (old : Ref) : Ref → Prop
  | same {r : Ref} : r.sameValue old = true → BuiltOn old r
  | field {source : Ref} {f : Field} : BuiltOn old source → BuiltOn old (.field source f)
  | element {array : Ref} {i : Nat} : BuiltOn old array → BuiltOn old (.element array i)

/-- The same path, from the new value in place of the old one. -/
inductive Rebased (old new : Ref) : Ref → Ref → Prop
  | same {r : Ref} : r.sameValue old = true → Rebased old new r new
  | field {source source' : Ref} {f : Field} : Rebased old new source source' →
      Rebased old new (.field source f) (.field source' f)
  | element {array array' : Ref} {i : Nat} : Rebased old new array array' →
      Rebased old new (.element array i) (.element array' i)

/-! ## References -/

variable {old new r r' : Ref}

/-- A path has the base of the value that it is built on. -/
theorem BuiltOn.position (h : BuiltOn old r) : r.position = old.position := by
  induction h with
  | same hsame => exact position_eq_of_sameValue hsame
  | field _ ih => exact ih
  | element _ ih => exact ih

theorem Rebased.position (h : Rebased old new r r') : r'.position = new.position := by
  induction h with
  | same _ => rfl
  | field _ ih => exact ih
  | element _ ih => exact ih

theorem replace_of_sameValue (h : r.sameValue old = true) : replace old new r = new := by
  cases r <;> simp [replace, h]

/-- What is not built on the old value stays as it is. -/
theorem replace_of_not_builtOn (h : ¬BuiltOn old r) : replace old new r = r := by
  have hsame : ¬r.sameValue old = true := fun hsame => h (.same hsame)
  induction r with
  | field source f ih =>
    have hsource : ¬BuiltOn old source := fun hsource => h (.field hsource)
    rw [replace, if_neg hsame, ih hsource fun hsame => hsource (.same hsame)]
  | element array i ih =>
    have harray : ¬BuiltOn old array := fun harray => h (.element harray)
    rw [replace, if_neg hsame, ih harray fun hsame => harray (.same hsame)]
  | value p | null p | dangling => simp [replace, hsame]

/-- What is built on the old value becomes the same path from the new one. -/
theorem rebased_replace (h : BuiltOn old r) : Rebased old new r (replace old new r) := by
  induction h with
  | same hsame =>
    rw [replace_of_sameValue hsame]
    exact .same hsame
  | @field source f _ ih =>
    by_cases hsame : (Ref.field source f).sameValue old = true
    · rw [replace_of_sameValue hsame]
      exact .same hsame
    · rw [replace, if_neg hsame]
      exact .field ih
  | @element array i _ ih =>
    by_cases hsame : (Ref.element array i).sameValue old = true
    · rw [replace_of_sameValue hsame]
      exact .same hsame
    · rw [replace, if_neg hsame]
      exact .element ih

/-- Where the bases differ, nothing is built on the old value afterwards, not even through the new
one. -/
theorem not_builtOn_replace (hne : new.position ≠ old.position) :
    ¬BuiltOn old (replace old new r) := by
  intro hold
  by_cases h : BuiltOn old r
  · have hrebased : Rebased old new r (replace old new r) := rebased_replace h
    have hposition := hrebased.position
    exact hne (hposition.symm.trans hold.position)
  · rw [replace_of_not_builtOn h] at hold
    exact h hold

/-- The base of a reference stays, or goes down to the base of the new value. -/
theorem position_replace_le {i j b : Nat} (hold : old.position = some i)
    (hnew : new.position = some j) (hlt : j < i) (hr : r.position = some b) :
    ∃ b', b' ≤ b ∧ (replace old new r).position = some b' := by
  by_cases h : BuiltOn old r
  · have hb : b = i := Option.some.inj (hr.symm.trans (h.position.trans hold))
    refine ⟨j, by omega, ?_⟩
    rw [(rebased_replace h).position, hnew]
  · rw [replace_of_not_builtOn h]
    exact ⟨b, Nat.le_refl b, hr⟩

end Ref

/-! ## Programs -/

namespace Statement

theorem reads_mapReads (f : Ref → Ref) (s : Statement) : (s.mapReads f).reads = s.reads.map f :=
  s.op.reads_mapReads f

/-- What a statement mentions once its references are changed was mentioned before. -/
theorem of_mentions_mapReads {f : Ref → Ref} {s : Statement} {r : Ref}
    (h : (s.mapReads f).Mentions r) : ∃ x, s.Mentions x ∧ f x = r := by
  rcases h with hr | ⟨a, ha, rfl⟩
  · rw [reads_mapReads, List.mem_map] at hr
    obtain ⟨x, hx, rfl⟩ := hr
    exact ⟨x, Or.inl hx, rfl⟩
  · obtain ⟨b, hb, rfl⟩ := List.mem_map.mp ha
    exact ⟨b.source, Or.inr ⟨b, hb, rfl⟩, rfl⟩

/-- A statement stays well formed where the bases of its references do not go up. -/
theorem isValid_mapReads {f : Ref → Ref} {s : Statement} {n : Nat} (h : s.isValid n = true)
    (hf : ∀ r b, r.position = some b → ∃ b', b' ≤ b ∧ (f r).position = some b') :
    (s.mapReads f).isValid n = true := by
  rw [isValid_iff] at h ⊢
  constructor
  · intro r hr
    rw [reads_mapReads, List.mem_map] at hr
    obtain ⟨x, hx, rfl⟩ := hr
    obtain ⟨b, hb, hposition⟩ := h.1 x hx
    obtain ⟨b', hle, hposition'⟩ := hf x b hposition
    exact ⟨b', by omega, hposition'⟩
  · show (s.op.mapReads f).isComplete = true
    rw [Operation.isComplete_mapReads]
    exact h.2

end Statement

namespace Program

theorem getElem?_replace {p : Program} {old new : Ref} {k : Nat} {t : Statement}
    (h : (p.replace old new).statements[k]? = some t) :
    ∃ s, p.statements[k]? = some s ∧ s.mapReads (Ref.replace old new) = t := by
  have h : (p.statements.map (·.replace old new))[k]? = some t := h
  rwa [List.getElem?_map, Option.map_eq_some_iff] at h

/-- With a value that is made before the old one in its place, the program stays valid.  No read, no
target of a store and no source of an assertion is built on the old value any more; what was built
on it is the same path from the new value, and everything else is as it was. -/
theorem replace_eliminates (p : Program) (hp : p.isValid = true) (old new : Ref) (i j : Nat)
    (hold : old.position = some i) (hnew : new.position = some j) (hlt : j < i) :
    (p.replace old new).isValid = true ∧
      (∀ t ∈ (p.replace old new).statements, ∀ r, t.Mentions r → ¬Ref.BuiltOn old r) ∧
      ∃ f : Ref → Ref, p.replace old new = p.mapStatements (·.mapReads f) ∧
        ∀ r, (¬Ref.BuiltOn old r → f r = r) ∧
          (Ref.BuiltOn old r → Ref.Rebased old new r (f r)) := by
  have hne : new.position ≠ old.position := by
    rw [hold, hnew, Ne, Option.some.injEq]
    omega
  refine ⟨?_, ?_, Ref.replace old new, rfl, fun r => ⟨?_, ?_⟩⟩
  · rw [isValid_iff]
    intro k t ht
    obtain ⟨s, hs, rfl⟩ := getElem?_replace ht
    refine Statement.isValid_mapReads ((isValid_iff p).mp hp k s hs) fun r b hr => ?_
    exact Ref.position_replace_le hold hnew hlt hr
  · intro t ht r hr
    obtain ⟨k, hk⟩ := List.mem_iff_getElem?.mp ht
    obtain ⟨s, -, rfl⟩ := getElem?_replace hk
    obtain ⟨x, -, rfl⟩ := Statement.of_mentions_mapReads hr
    exact Ref.not_builtOn_replace hne
  · exact Ref.replace_of_not_builtOn
  · exact Ref.rebased_replace

open Lamps in
/-- The lamp that was put into an array, read from there. -/
theorem replace_eliminates_dimmed :
    let inArray : Ref := .element (.value 0) 0
    dimmed.isValid = true ∧ (Ref.value 1).position = some 1 ∧ inArray.position = some 0 ∧
      (dimmed.replace (.value 1) inArray).isValid = true ∧
      (∀ t ∈ (dimmed.replace (.value 1) inArray).statements, ∀ r, t.Mentions r →
        ¬Ref.BuiltOn (.value 1) r) ∧
      (dimmed.replace (.value 1) inArray).statements[3]?.map (·.reads) =
        some [inArray, .field inArray level] := by
  intro inArray
  have hlt : 0 < 1 := by decide
  obtain ⟨hvalid, hgone, -⟩ := replace_eliminates dimmed rfl (.value 1) inArray 1 0 rfl rfl hlt
  exact ⟨rfl, rfl, rfl, hvalid, hgone, rfl⟩

end Program

end SuiteSearch
