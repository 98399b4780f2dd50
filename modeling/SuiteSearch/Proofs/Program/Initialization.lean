import SuiteSearch.Proofs.Program.Anchors
import SuiteSearch.Proofs.Program.Offers
import SuiteSearch.Proofs.Program.Retention
import SuiteSearch.Proofs.Program.Splicing

/-!
# Elements are written before they are read

A new array is empty, and an element of it can be read from the first store into it on.  Edits that
move statements move their stores with them, and what an edit puts in reads nothing that is not
written by then.

    r.elements            the elements that a reference goes through
    op.values             what an operation reads, the target of a store aside
    StoresAt l j e        statement j of l is a store into e
    Initialized l         every element that is read is written before
    Initialized.splice    a block is put in
    Initialized.set       a statement is changed, which stores where it did
    Initialized.kept      some statements are kept, and what they read is still written
-/

namespace SuiteSearch

/-! ## Algorithm -/

/-- The elements that a reference goes through, outermost first. -/
def Ref.elements : Ref → List Ref
  | element array k => element array k :: array.elements
  | field source _ => source.elements
  | value _ | null _ | dangling => []

/-- Everything that is read for its value. A store only writes its target. -/
def Operation.values : Operation → List Ref
  | store _ value => [value]
  | op => op.reads

/-- Whether the statement at a position is a store into an element. -/
def StoresAt (l : List Statement) (j : Nat) (e : Ref) : Prop :=
  ∃ s value, l[j]? = some s ∧ s.op = .store e value

/-- Whether a statement reads no element that is not written before a position. -/
def Statement.Initialized (l : List Statement) (position : Nat) (s : Statement) : Prop :=
  ∀ r ∈ s.op.values, ∀ e ∈ r.elements, ∃ j, j < position ∧ StoresAt l j e

/-- Every element that a statement reads is written before. -/
def Initialized (l : List Statement) : Prop :=
  ∀ (i : Nat) (s : Statement), l[i]? = some s → s.Initialized l i

/-! ## References -/

namespace Ref

/-- The elements of a renumbered reference are renumbered ones. -/
theorem mem_elements_remap (f : Nat → Option Nat) (r e : Ref) (h : e ∈ (r.remap f).elements) :
    ∃ e' ∈ r.elements, e'.remap f = e := by
  induction r with
  | value p | null p => cases hp : f p <;> simp [remap, hp, elements] at h
  | field source g ih =>
    rw [remap] at h
    split at h
    · cases h
    · exact ih h
  | element array k ih =>
    cases hj : array.position.bind f with
    | none =>
      rw [remap_of_gone f (element array k) hj] at h
      cases h
    | some j =>
      have hremap := remap_element f array k j hj
      rw [hremap] at h
      rcases List.mem_cons.mp h with rfl | h
      · exact ⟨element array k, List.mem_cons_self, hremap⟩
      · obtain ⟨e', he', heq⟩ := ih h
        exact ⟨e', List.mem_cons_of_mem _ he', heq⟩
  | dangling => cases h

/-- An element on the way of an anchored reference is one of the array that it is anchored in. -/
theorem ResultOf.root_of_mem_elements {i : Nat} {r e : Ref} (h : r.root.ResultOf i)
    (he : e ∈ r.elements) : e.root.ResultOf i := by
  induction r with
  | value p | null p | dangling => cases he
  | field source g ih => exact ih h he
  | element array k _ =>
    have harray : array.ResultOf i := h
    rcases List.mem_cons.mp he with rfl | he
    · exact harray
    · rcases harray with rfl | rfl <;> cases he

end Ref

/-! ## Operations -/

namespace Operation

theorem mem_reads_of_mem_values (op : Operation) (r : Ref) (h : r ∈ op.values) : r ∈ op.reads := by
  cases op with
  | store target value => exact List.mem_cons_of_mem _ h
  | construct k args mock => exact h
  | call m callee args => exact h
  | read g source => exact h
  | allocate n => exact h
  | literal v => exact h

theorem values_mapReads (f : Ref → Ref) (op : Operation) :
    (op.mapReads f).values = op.values.map f := by
  cases op with
  | store target value => rfl
  | call m callee args => exact reads_mapReads f (.call m callee args)
  | read g source => exact reads_mapReads f (.read g source)
  | construct k args mock => rfl
  | allocate n => rfl
  | literal v => rfl

end Operation

/-! ## Edits -/

variable {l new : List Statement} {start : Nat}

/-- A store keeps writing its element, wherever both move to. -/
theorem StoresAt.splice {j : Nat} {e : Ref} (h : StoresAt l j e) (hstart : start ≤ l.length)
    (hreads : ∀ (i : Nat) (s : Statement), l[i]? = some s →
      ∀ r ∈ s.reads, ∃ b, b < i ∧ r.position = some b) :
    StoresAt (Program.spliced l start new) (if start ≤ j then j + new.length else j)
      (e.remap (Program.shiftBy start new.length)) := by
  obtain ⟨s, value, hs, hop⟩ := h
  split
  · next hj =>
    let f := Program.shiftBy start new.length
    refine ⟨s.remap f, value.remap f, ?_, ?_⟩
    · rw [Program.getElem?_spliced_ge l start new hstart j hj, hs]
      rfl
    · rw [Statement.op_remap, hop]
      rfl
  · next hj =>
    have htarget : e ∈ s.reads := by
      rw [Statement.reads, hop]
      exact List.mem_cons_self
    obtain ⟨b, hb, hpos⟩ := hreads j s hs e htarget
    rw [Ref.remap_fixed _ e b hpos (Program.shiftBy_lt start new.length b (by omega))]
    exact ⟨s, value, by rwa [Program.getElem?_spliced_lt l start new hstart j (by omega)], hop⟩

/-- A block is put in. -/
theorem Initialized.splice (h : Initialized l) (hstart : start ≤ l.length)
    (hreads : ∀ (i : Nat) (s : Statement), l[i]? = some s →
      ∀ r ∈ s.reads, ∃ b, b < i ∧ r.position = some b)
    (hnew : ∀ (i : Nat) (s : Statement), new[i]? = some s →
      s.Initialized (Program.spliced l start new) (start + i)) :
    Initialized (Program.spliced l start new) := by
  intro j s hs
  rcases Program.getElem?_spliced_cases l start new hstart j s hs with
    ⟨hj, hs⟩ | ⟨i, rfl, -, hs⟩ | ⟨i, t, hi, rfl, ht, rfl⟩
  · intro r hr e he
    obtain ⟨k, hk, t, value, ht, hop⟩ := h j s hs r hr e he
    refine ⟨k, hk, t, value, ?_, hop⟩
    rwa [Program.getElem?_spliced_lt l start new hstart k (by omega)]
  · exact hnew i s hs
  · intro r hr e he
    rw [Statement.op_remap, Operation.values_mapReads] at hr
    obtain ⟨r', hr', rfl⟩ := List.mem_map.mp hr
    obtain ⟨e', he', rfl⟩ := Ref.mem_elements_remap _ r' e he
    obtain ⟨k, hk, hstores⟩ := h i t ht r' hr' e' he'
    exact ⟨_, by split <;> omega, hstores.splice hstart hreads⟩

/-- A statement is changed, which stores where it did. -/
theorem Initialized.set (h : Initialized l) (position : Nat) (s s₀ : Statement)
    (hs₀ : l[position]? = some s₀)
    (hstore : ∀ e value, s₀.op = .store e value → ∃ value', s.op = .store e value')
    (hs : s.Initialized l position) : Initialized (l.set position s) := by
  have hlen := (List.getElem?_eq_some_iff.mp hs₀).1
  have hstores : ∀ k e, StoresAt l k e → StoresAt (l.set position s) k e := by
    rintro k e ⟨t, value, ht, hop⟩
    by_cases hk : k = position
    · subst hk
      obtain rfl := Option.some.inj (hs₀.symm.trans ht)
      obtain ⟨value', hop'⟩ := hstore e value hop
      exact ⟨s, value', List.getElem?_set_self hlen, hop'⟩
    · exact ⟨t, value, by rwa [List.getElem?_set_ne (Ne.symm hk)], hop⟩
  have hold : ∀ (i : Nat) (t : Statement), t.Initialized l i →
      t.Initialized (l.set position s) i := by
    intro i t ht r hr e he
    obtain ⟨k, hk, hstored⟩ := ht r hr e he
    exact ⟨k, hk, hstores k e hstored⟩
  intro i t ht
  by_cases hi : i = position
  · subst hi
    rw [List.getElem?_set_self hlen] at ht
    obtain rfl := Option.some.inj ht
    exact hold i s hs
  · rw [List.getElem?_set_ne (Ne.symm hi)] at ht
    exact hold i t (h i t ht)

/-- Some statements are kept, and what they read is still written. -/
theorem Initialized.kept (keep : List Nat) (f : Nat → Option Nat)
    (hkeep : ∀ (i : Nat) (s : Statement), l[i]? = some s → keep.contains i = true →
      ∀ r ∈ s.op.values, ∀ e ∈ r.elements,
        ∃ j, j < i ∧ keep.contains j = true ∧ StoresAt l j e) :
    Initialized (Program.kept keep f l) := by
  intro n s hs r hr e he
  obtain ⟨i, t, hi, ht, rfl, rfl⟩ := Program.getElem?_kept_cases keep f l n s hs
  have hr : r ∈ (t.op.mapReads (·.remap f)).values := hr
  rw [Operation.values_mapReads] at hr
  obtain ⟨r', hr', rfl⟩ := List.mem_map.mp hr
  obtain ⟨e', he', rfl⟩ := Ref.mem_elements_remap f r' e he
  obtain ⟨j, hji, hj, u, value, hu, hop⟩ := hkeep i t ht hi r' hr' e' he'
  refine ⟨Program.rank keep j, Program.rank_lt keep hji hj, _, value.remap f,
    Program.getElem?_kept keep f l j u hu hj, ?_⟩
  show u.op.mapReads (·.remap f) = _
  rw [hop]
  rfl

end SuiteSearch
