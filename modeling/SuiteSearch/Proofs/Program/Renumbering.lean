import SuiteSearch.Program.Edit

/-!
# Renumbering references

Edits renumber what statements read.  A renumbering is a function on positions; it acts on the base
of a reference and leaves the path from there alone.

    (r.remap f).remap g = r.remap (f, then g)                              (remap_remap)
    a reference that is dangling or has a base is kept by the identity     (remap_some)
    where the bases agree, so do the references                            (remap_congr)
    s.isValid i → s's bases go below j → (s.remap f).isValid j             (isValid_remap)
-/

namespace SuiteSearch

namespace Ref

/-- Gone, or based on one of the first `n` statements. -/
def Inside (n : Nat) (r : Ref) : Prop := r = dangling ∨ ∃ i, i < n ∧ r.position = some i

/-- Gone, or based on some statement.  A path from a reference that is gone is neither. -/
def Plain (r : Ref) : Prop := r = dangling ∨ ∃ i, r.position = some i

theorem Inside.plain {n : Nat} {r : Ref} (h : r.Inside n) : r.Plain := by
  rcases h with h | ⟨i, -, h⟩
  · exact Or.inl h
  · exact Or.inr ⟨i, h⟩

theorem Inside.mono {m n : Nat} {r : Ref} (h : r.Inside m) (hmn : m ≤ n) : r.Inside n := by
  rcases h with h | ⟨i, hi, h⟩
  · exact Or.inl h
  · exact Or.inr ⟨i, by omega, h⟩

theorem isDangling_remap (f : Nat → Option Nat) (r : Ref) :
    (r.remap f).isDangling = (r.position.bind f).isNone := by
  rw [isDangling_iff, position_remap]

theorem remap_of_gone (f : Nat → Option Nat) (r : Ref) (h : r.position.bind f = none) :
    r.remap f = dangling := by
  cases r with
  | value p | null p =>
    have hp : f p = none := h
    simp [remap, hp]
  | field source g =>
    rw [remap, if_pos]
    rw [isDangling_remap]
    exact Option.isNone_iff_eq_none.mpr h
  | element array i =>
    rw [remap, if_pos]
    rw [isDangling_remap]
    exact Option.isNone_iff_eq_none.mpr h
  | dangling => rfl

theorem remap_field (f : Nat → Option Nat) (source : Ref) (g : Field) (j : Nat)
    (h : source.position.bind f = some j) :
    (field source g).remap f = field (source.remap f) g := by
  rw [remap, if_neg]
  rw [isDangling_remap, h]
  simp

theorem remap_element (f : Nat → Option Nat) (array : Ref) (k j : Nat)
    (h : array.position.bind f = some j) :
    (element array k).remap f = element (array.remap f) k := by
  rw [remap, if_neg]
  rw [isDangling_remap, h]
  simp

theorem remap_remap (f g : Nat → Option Nat) (r : Ref) :
    (r.remap f).remap g = r.remap fun i => (f i).bind g := by
  induction r with
  | value p | null p => cases h : f p <;> simp [remap, h]
  | field source k ih =>
    cases h : source.position.bind f with
    | none =>
      rw [remap_of_gone f (field source k) h, remap_of_gone _ (field source k)]
      · rfl
      · show source.position.bind _ = none
        rw [← Option.bind_assoc, h]
        rfl
    | some j =>
      rw [remap_field f source k j h]
      simp only [remap, ih]
  | element array k ih =>
    cases h : array.position.bind f with
    | none =>
      rw [remap_of_gone f (element array k) h, remap_of_gone _ (element array k)]
      · rfl
      · show array.position.bind _ = none
        rw [← Option.bind_assoc, h]
        rfl
    | some j =>
      rw [remap_element f array k j h]
      simp only [remap, ih]
  | dangling => rfl

theorem remap_congr (f g : Nat → Option Nat) (r : Ref)
    (h : r.position.bind f = r.position.bind g) : r.remap f = r.remap g := by
  induction r with
  | value p | null p =>
    have hp : f p = g p := h
    simp only [remap, hp]
  | field source k ih | element array k ih => simp only [remap, ih h]
  | dangling => rfl

theorem remap_some (r : Ref) (h : r.Plain) : r.remap some = r := by
  rcases h with rfl | ⟨i, h⟩
  · rfl
  · induction r with
    | value p | null p => rfl
    | field source k ih =>
      have hs : source.position = some i := h
      rw [remap_field some source k i (by rw [hs]; rfl), ih hs]
    | element array k ih =>
      have hs : array.position = some i := h
      rw [remap_element some array k i (by rw [hs]; rfl), ih hs]
    | dangling => cases h

theorem remap_fixed (f : Nat → Option Nat) (r : Ref) (i : Nat) (hr : r.position = some i)
    (hf : f i = some i) : r.remap f = r := by
  rw [remap_congr f some r (by rw [hr]; exact hf)]
  exact r.remap_some (Or.inr ⟨i, hr⟩)

theorem Inside.remap {m n : Nat} {r : Ref} (h : r.Inside m) (f : Nat → Option Nat)
    (hf : ∀ i j, i < m → f i = some j → j < n) : (r.remap f).Inside n := by
  rcases h with rfl | ⟨i, hi, h⟩
  · exact Or.inl rfl
  · cases hj : f i with
    | none => exact Or.inl (remap_of_gone f r (by rw [h, Option.bind_some, hj]))
    | some j => exact Or.inr ⟨j, hf i j hi hj, by rw [position_remap, h, Option.bind_some, hj]⟩

end Ref

/-! ## Statements -/

namespace Operation

@[simp] theorem reads_mapReads (f : Ref → Ref) (op : Operation) :
    (op.mapReads f).reads = op.reads.map f := by
  cases op with
  | call m callee args => cases callee <;> simp [reads, mapReads]
  | read g source => cases source <;> simp [reads, mapReads]
  | _ => simp [reads, mapReads]

theorem mapReads_mapReads (f g : Ref → Ref) (op : Operation) :
    (op.mapReads f).mapReads g = op.mapReads (g ∘ f) := by
  cases op <;> simp [mapReads]

theorem mapReads_congr (f g : Ref → Ref) (op : Operation) (h : ∀ r ∈ op.reads, f r = g r) :
    op.mapReads f = op.mapReads g := by
  cases op with
  | construct k args mock =>
    have ha : args.map f = args.map g := List.map_congr_left h
    simp only [mapReads, ha]
  | call m callee args =>
    have ha : args.map f = args.map g :=
      List.map_congr_left fun r hr => h r (List.mem_append_right _ hr)
    cases callee with
    | none => simp only [mapReads, ha, Option.map_none]
    | some c => simp only [mapReads, ha, Option.map_some, h c (by simp [reads])]
  | read k source =>
    cases source with
    | none => rfl
    | some c => simp only [mapReads, Option.map_some, h c (by simp [reads])]
  | store target value =>
    simp only [mapReads, h target (by simp [reads]), h value (by simp [reads])]
  | allocate n => rfl
  | literal v => rfl

theorem mapReads_id (f : Ref → Ref) (op : Operation) (h : ∀ r ∈ op.reads, f r = r) :
    op.mapReads f = op := by
  rw [mapReads_congr f id op h]
  cases op <;> simp [mapReads]

@[simp] theorem isComplete_mapReads (f : Ref → Ref) (op : Operation) :
    (op.mapReads f).isComplete = op.isComplete := by
  cases op <;> simp [mapReads, isComplete]

@[simp] theorem isStore_mapReads (f : Ref → Ref) (op : Operation) :
    (op.mapReads f).isStore = op.isStore := by
  cases op <;> rfl

end Operation

namespace Statement

@[simp] theorem op_remap (f : Nat → Option Nat) (s : Statement) :
    (s.remap f).op = s.op.mapReads (·.remap f) := rfl

@[simp] theorem ty_remap (f : Nat → Option Nat) (s : Statement) : (s.remap f).ty = s.ty := rfl

@[simp] theorem reads_remap (f : Nat → Option Nat) (s : Statement) :
    (s.remap f).reads = s.reads.map (·.remap f) := by
  simp [reads]

theorem remap_remap (f g : Nat → Option Nat) (s : Statement) :
    (s.remap f).remap g = s.remap fun i => (f i).bind g := by
  have hr : (Ref.remap g ∘ Ref.remap f) = Ref.remap fun i => (f i).bind g :=
    funext (Ref.remap_remap f g)
  have ha : (Assertion.mapSource (Ref.remap g) ∘ Assertion.mapSource (Ref.remap f)) =
      Assertion.mapSource (Ref.remap fun i => (f i).bind g) := by
    funext a
    simp only [Function.comp, Assertion.mapSource, Ref.remap_remap]
  simp only [remap, mapReads, Operation.mapReads_mapReads, List.map_map]
  rw [hr, ha]

/-- Whether a reference is read by the statement or checked by one of its assertions. -/
def Mentions (s : Statement) (r : Ref) : Prop := r ∈ s.reads ∨ ∃ a ∈ s.assertions, a.source = r

theorem remap_id (f : Nat → Option Nat) (s : Statement) (h : ∀ r, s.Mentions r → r.remap f = r) :
    s.remap f = s := by
  have hop := Operation.mapReads_id (·.remap f) s.op fun r hr => h r (Or.inl hr)
  have ha : s.assertions.map (·.mapSource (·.remap f)) = s.assertions := by
    refine (List.map_congr_left fun a ha => ?_).trans (List.map_id _)
    simp only [Assertion.mapSource, h a.source (Or.inr ⟨a, ha, rfl⟩)]
    rfl
  simp only [remap, mapReads, hop, ha]

/-! ## Validity -/

theorem resolves_iff (n : Nat) (r : Ref) :
    resolves n r = true ↔ ∃ i, i < n ∧ r.position = some i := by
  unfold resolves
  cases r.position with
  | none => simp
  | some i => simp

theorem isValid_iff (s : Statement) (n : Nat) :
    s.isValid n = true ↔
      (∀ r ∈ s.reads, ∃ i, i < n ∧ r.position = some i) ∧ s.op.isComplete = true := by
  simp only [isValid, Bool.and_eq_true, List.all_eq_true, resolves_iff]

theorem isValid_remap (f : Nat → Option Nat) (s : Statement) (i j : Nat) (h : s.isValid i = true)
    (hf : ∀ r ∈ s.reads, ∀ b, r.position = some b → ∃ b', b' < j ∧ f b = some b') :
    (s.remap f).isValid j = true := by
  rw [isValid_iff] at h ⊢
  refine ⟨fun r hr => ?_, by rw [op_remap, Operation.isComplete_mapReads]; exact h.2⟩
  rw [reads_remap, List.mem_map] at hr
  obtain ⟨r', hr', rfl⟩ := hr
  obtain ⟨b, -, hb⟩ := h.1 r' hr'
  obtain ⟨b', hlt, hb'⟩ := hf r' hr' b hb
  exact ⟨b', hlt, by rw [Ref.position_remap, hb, Option.bind_some, hb']⟩

end Statement

namespace Program

theorem isValid_iff (p : Program) :
    p.isValid = true ↔
      ∀ (i : Nat) (s : Statement), p.statements[i]? = some s → s.isValid i = true := by
  unfold isValid
  rw [List.all_eq_true]
  constructor
  · intro h i s hs
    exact h (s, i) (List.mk_mem_zipIdx_iff_getElem?.mpr hs)
  · rintro h ⟨s, i⟩ hsi
    exact h i s (List.mk_mem_zipIdx_iff_getElem?.mp hsi)

/-- What a statement of a valid program reads was produced before it. -/
theorem base_of_isValid {p : Program} (h : p.isValid = true) {i : Nat} {s : Statement}
    (hs : p.statements[i]? = some s) {r : Ref} (hr : r ∈ s.reads) :
    ∃ b, b < i ∧ r.position = some b :=
  ((s.isValid_iff i).mp ((isValid_iff p).mp h i s hs)).1 r hr

end Program

end SuiteSearch
