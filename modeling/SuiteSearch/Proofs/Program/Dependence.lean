import Mathlib.Logic.Relation
import SuiteSearch.Proofs.Program.Reslicing

/-!
# Sources and users

The sources of a value are found going backwards from its producer, the users of a value going
forwards.  Both follow the same direct uses: a source reaches the producer through them, and what
is reached through them is a user.  A user need not be reached that way.  A store gives an element
for its result, and who reads the array of the element counts as a user of the store.

    p.DirectUse i k                     the statement at k has to do with the result of the one at i
    mem_dependencyPositions_iff         the sources of q are what reaches q
    mem_referencePositions_of_reaches   what i reaches uses the result of i
    reaches_of_mem_referencePositions   without stores, nothing else does
    dependencies_agree                  a value is a source where the other is a user
-/

namespace SuiteSearch.Program

open Relation

/-- Whether a statement has to do with the result of an earlier one. -/
def DirectUse (p : Program) (i k : Nat) : Prop :=
  i < k ∧ ∃ s d, p.statements[i]? = some s ∧ p.statements[k]? = some d ∧
    d.references k (s.output i) = true

/-! ## The pass backwards -/

theorem sourcesOf_cons (users rest : List (Statement × Nat)) (s : Statement) (i : Nat) :
    sourcesOf users ((s, i) :: rest) =
      if users.any fun d => d.1.references d.2 (s.output i) then
        i :: sourcesOf ((s, i) :: users) rest
      else sourcesOf users rest :=
  rfl

theorem sourcesOf_sublist (users l : List (Statement × Nat)) :
    (sourcesOf users l).Sublist (l.map (·.2)) := by
  induction l generalizing users with
  | nil => exact List.Sublist.refl _
  | cons a rest ih =>
    unfold sourcesOf
    split
    · exact (ih _).cons_cons a.2
    · exact (ih _).cons a.2

/-- The result of a source is used by one of the users, or by a later source. -/
theorem mem_sourcesOf_cases (users l : List (Statement × Nat))
    (hl : l.Pairwise fun a b => b.2 < a.2) (i : Nat) (h : i ∈ sourcesOf users l) :
    ∃ s, (s, i) ∈ l ∧ ∃ d k, ((d, k) ∈ users ∨ (d, k) ∈ l ∧ i < k ∧ k ∈ sourcesOf users l) ∧
      d.references k (s.output i) = true := by
  induction l generalizing users with
  | nil => cases h
  | cons a rest ih =>
    obtain ⟨t, j⟩ := a
    obtain ⟨hj, hrest⟩ := List.pairwise_cons.mp hl
    rw [sourcesOf_cons] at h ⊢
    split at h
    · next hused =>
      rw [if_pos hused]
      rcases List.mem_cons.mp h with rfl | h
      · obtain ⟨d, hd, href⟩ := List.any_eq_true.mp hused
        exact ⟨t, List.mem_cons_self, d.1, d.2, Or.inl hd, href⟩
      · obtain ⟨s, hs, d, k, hd, href⟩ := ih _ hrest h
        refine ⟨s, List.mem_cons_of_mem _ hs, d, k, ?_, href⟩
        rcases hd with hd | ⟨hd, hik, hk⟩
        · rcases List.mem_cons.mp hd with hd | hd
          · cases hd
            exact Or.inr ⟨List.mem_cons_self, hj (s, i) hs, List.mem_cons_self⟩
          · exact Or.inl hd
        · exact Or.inr ⟨List.mem_cons_of_mem _ hd, hik, List.mem_cons_of_mem _ hk⟩
    · next hnone =>
      rw [if_neg hnone]
      obtain ⟨s, hs, d, k, hd, href⟩ := ih _ hrest h
      refine ⟨s, List.mem_cons_of_mem _ hs, d, k, ?_, href⟩
      exact hd.imp_right fun ⟨hd, hrest⟩ => ⟨List.mem_cons_of_mem _ hd, hrest⟩

/-- What is used by one of the users, or by a later source, is a source. -/
theorem mem_sourcesOf_of_references (users l : List (Statement × Nat))
    (hl : l.Pairwise fun a b => b.2 < a.2) (s : Statement) (i : Nat) (hs : (s, i) ∈ l)
    (d : Statement) (k : Nat)
    (hd : (d, k) ∈ users ∨ (d, k) ∈ l ∧ i < k ∧ k ∈ sourcesOf users l)
    (href : d.references k (s.output i) = true) : i ∈ sourcesOf users l := by
  induction l generalizing users with
  | nil => cases hs
  | cons a rest ih =>
    obtain ⟨t, j⟩ := a
    obtain ⟨hj, hrest⟩ := List.pairwise_cons.mp hl
    rw [sourcesOf_cons] at hd ⊢
    have hlater : ∀ u, (u, k) ∈ (t, j) :: rest → i < k → (s, i) = (t, j) → False := by
      intro u hu hik heq
      cases heq
      rcases List.mem_cons.mp hu with hu | hu
      · cases hu
        omega
      · have hki : k < i := hj (u, k) hu
        omega
    split
    · next hused =>
      rw [if_pos hused] at hd
      rcases List.mem_cons.mp hs with heq | hs
      · cases heq
        exact List.mem_cons_self
      · refine List.mem_cons_of_mem _ (ih _ hrest hs ?_)
        rcases hd with hd | ⟨hd, hik, hk⟩
        · exact Or.inl (List.mem_cons_of_mem _ hd)
        · rcases List.mem_cons.mp hd with hd | hd
          · cases hd
            exact Or.inl List.mem_cons_self
          · refine Or.inr ⟨hd, hik, (List.mem_cons.mp hk).resolve_left ?_⟩
            exact Nat.ne_of_lt (hj (d, k) hd)
    · next hnone =>
      rw [if_neg hnone] at hd
      rcases List.mem_cons.mp hs with heq | hs
      · rcases hd with hd | ⟨hd, hik, -⟩
        · cases heq
          exact absurd (List.any_eq_true.mpr ⟨(d, k), hd, href⟩) hnone
        · exact (hlater d hd hik heq).elim
      · refine ih _ hrest hs (hd.imp_right fun ⟨hd, hik, hk⟩ => ⟨?_, hik, hk⟩)
        rcases List.mem_cons.mp hd with hd | hd
        · -- The user is passed over, so that it is no source.
          cases hd
          obtain ⟨u, hu⟩ := List.mem_map.mp ((sourcesOf_sublist _ _).subset hk)
          exact absurd (hj u hu.1) (by omega)
        · exact hd

/-! ## Sources in a program -/

section
variable {p : Program} {r : Ref} {i q : Nat} {d : Statement}

/-- The statements up to a position, last first. -/
def downFrom (p : Program) (q : Nat) : List (Statement × Nat) :=
  (p.statements.zipIdx.take (q + 1)).reverse

theorem mem_downFrom (p : Program) (q i : Nat) (s : Statement) :
    (s, i) ∈ p.downFrom q ↔ i ≤ q ∧ p.statements[i]? = some s := by
  rw [downFrom, List.mem_reverse, mem_zipIdx_take, Nat.lt_succ_iff]

theorem downFrom_sorted (p : Program) (q : Nat) :
    (p.downFrom q).Pairwise fun a b => b.2 < a.2 :=
  List.pairwise_reverse.mpr (zipIdx_sorted p.statements 0).take

theorem take_downFrom (p : Program) (hd : p.statements[q]? = some d) :
    (p.downFrom q).take 1 = [(d, q)] := by
  have hlast : p.statements.zipIdx[q]? = some (d, q) := by
    rw [List.getElem?_zipIdx, hd, Option.map_some, Nat.zero_add]
  rw [downFrom, List.take_add_one (i := q), hlast, Option.toList_some, List.reverse_append]
  rfl

theorem dependencyPositions_eq (hr : r.position = some q) (hd : p.statements[q]? = some d) :
    p.dependencyPositions r = sourcesOf [(d, q)] (p.downFrom q) := by
  have hq : q < p.length := (List.getElem?_eq_some_iff.mp hd).1
  rw [dependencyPositions, (positionIn?_iff p r q).mpr ⟨hr, hq⟩, ← take_downFrom p hd]
  rfl

/-- A value with sources is made by the program. -/
theorem producer_of_mem_dependencyPositions (hr : r.position = some q)
    (h : i ∈ p.dependencyPositions r) : ∃ d, p.statements[q]? = some d := by
  unfold dependencyPositions at h
  split at h
  · cases h
  · next start hstart =>
    obtain ⟨hpos, hlt⟩ := (positionIn?_iff p r start).mp hstart
    obtain rfl := Option.some.inj (hpos.symm.trans hr)
    exact ⟨_, List.getElem?_eq_getElem hlt⟩

theorem dependencyPositions_sorted (p : Program) (r : Ref) :
    (p.dependencyPositions r).Pairwise (· > ·) := by
  unfold dependencyPositions
  split
  · exact List.Pairwise.nil
  · exact (List.pairwise_map.mpr (downFrom_sorted p _)).sublist (sourcesOf_sublist _ _)

theorem lt_of_reaches (h : TransGen p.DirectUse i q) : i < q := by
  induction h with
  | single h => exact h.1
  | tail _ h ih => exact Nat.lt_trans ih h.1

theorem producer_of_reaches (h : TransGen p.DirectUse i q) : ∃ d, p.statements[q]? = some d := by
  obtain ⟨k, -, -, s, d, -, hd, -⟩ := TransGen.tail'_iff.mp h
  exact ⟨d, hd⟩

/-- A source of a value reaches its producer, from the last source down. -/
theorem reaches_of_mem_dependencyPositions (hr : r.position = some q) (hi : i < q)
    (h : i ∈ p.dependencyPositions r) : TransGen p.DirectUse i q := by
  obtain ⟨d, hd⟩ := producer_of_mem_dependencyPositions hr h
  rw [dependencyPositions_eq hr hd] at h
  obtain ⟨n, hn⟩ : ∃ n, n = q - i := ⟨_, rfl⟩
  induction n using Nat.strongRecOn generalizing i with
  | ind n ih =>
    obtain ⟨s, hs, t, k, ht, href⟩ := mem_sourcesOf_cases _ _ (downFrom_sorted p q) i h
    have hs := ((mem_downFrom p q i s).mp hs).2
    rcases ht with ht | ⟨ht, hik, hk⟩
    · cases List.mem_singleton.mp ht
      exact TransGen.single ⟨hi, s, d, hs, hd, href⟩
    · obtain ⟨hkq, ht⟩ := (mem_downFrom p q k t).mp ht
      have hstep : p.DirectUse i k := ⟨hik, s, t, hs, ht, href⟩
      rcases Nat.lt_or_eq_of_le hkq with hlt | rfl
      · exact TransGen.head hstep (ih (q - k) (by omega) hlt hk rfl)
      · exact TransGen.single hstep

/-- What reaches the producer of a value is a source, from the last one down. -/
theorem mem_dependencyPositions_of_reaches (hr : r.position = some q)
    (h : TransGen p.DirectUse i q) : i ∈ p.dependencyPositions r := by
  obtain ⟨d, hd⟩ := producer_of_reaches h
  rw [dependencyPositions_eq hr hd]
  induction h using TransGen.head_induction_on with
  | single h =>
    obtain ⟨hlt, s, d', hs, hd', href⟩ := h
    obtain rfl := Option.some.inj (hd'.symm.trans hd)
    exact mem_sourcesOf_of_references _ _ (downFrom_sorted p q) s _
      ((mem_downFrom p q _ s).mpr ⟨Nat.le_of_lt hlt, hs⟩) d' q
      (Or.inl (List.mem_singleton.mpr rfl)) href
  | head h htail ih =>
    obtain ⟨hlt, s, t, hs, ht, href⟩ := h
    have hle := Nat.le_of_lt (lt_of_reaches htail)
    exact mem_sourcesOf_of_references _ _ (downFrom_sorted p q) s _
      ((mem_downFrom p q _ s).mpr ⟨by omega, hs⟩) t _
      (Or.inr ⟨(mem_downFrom p q _ t).mpr ⟨hle, ht⟩, hlt, ih⟩) href

/-- The sources of a value, its producer aside, are the statements that reach the producer. -/
theorem mem_dependencyPositions_iff (hr : r.position = some q) (hi : i < q) :
    i ∈ p.dependencyPositions r ↔ TransGen p.DirectUse i q :=
  ⟨reaches_of_mem_dependencyPositions hr hi, mem_dependencyPositions_of_reaches hr⟩

end

/-! ## Users in a program -/

section
variable {p : Program} {i q : Nat} {s : Statement}

/-- The result of a statement is based on it, or on an earlier one. -/
theorem position_output (hvalid : p.isValid = true) (hs : p.statements[i]? = some s) :
    ∃ b, b ≤ i ∧ (s.output i).position = some b := by
  cases hstore : s.op.isStore with
  | false => exact ⟨i, Nat.le_refl i, (s.output_resultOf i hstore).position⟩
  | true =>
    have hread : s.output i ∈ s.reads := by
      obtain ⟨op, ty, assertions⟩ := s
      cases op <;> simp only [Operation.isStore, Bool.false_eq_true] at hstore
      exact List.mem_cons_self
    obtain ⟨b, hb, hpos⟩ := base_of_isValid hvalid hs hread
    exact ⟨b, Nat.le_of_lt hb, hpos⟩

/-- What is reached from a statement uses its result, step by step from the first use on. -/
theorem mem_referencePositions_of_reaches (hvalid : p.isValid = true)
    (hs : p.statements[i]? = some s) (h : TransGen p.DirectUse i q) :
    q ∈ p.referencePositions (s.output i) := by
  obtain ⟨b, hb, hpos⟩ := position_output hvalid hs
  have huses : ∀ (d : Statement) (k : Nat) (v : Ref), d.references k v = true →
      d.uses k v = true := by
    intro d k v h
    rw [Statement.uses, h, Bool.true_or]
  induction h with
  | single h =>
    obtain ⟨hlt, s', d, hs', hd, href⟩ := h
    obtain rfl := Option.some.inj (hs'.symm.trans hs)
    exact mem_referencePositions_of_uses hpos hd (by omega) (Or.inl (huses d _ _ href))
  | tail hreach h ih =>
    obtain ⟨hlt, t, d, ht, hd, href⟩ := h
    have hle := lt_of_reaches hreach
    exact mem_referencePositions_of_uses hpos hd (by omega)
      (Or.inr ⟨t, _, ht, hlt, ih, huses d _ _ href⟩)

/-- A result that hangs on nothing is used by what has to do with it. -/
theorem references_of_uses_output (d s : Statement) (k i : Nat) (hstore : s.op.isStore = false)
    (h : d.uses k (s.output i) = true) : d.references k (s.output i) = true := by
  rcases s.output_resultOf i hstore with heq | heq <;>
  · rw [heq] at h ⊢
    exact (Bool.or_false _).symm.trans h

/-- Without stores, a user of a result is reached from it. -/
theorem reaches_of_mem_referencePositions (hstores : ∀ s ∈ p.statements, s.op.isStore = false)
    (hs : p.statements[i]? = some s) (h : q ∈ p.referencePositions (s.output i)) :
    TransGen p.DirectUse i q := by
  have hpos : (s.output i).position = some i :=
    (s.output_resultOf i (hstores s (List.mem_of_getElem? hs))).position
  induction q using Nat.strongRecOn with
  | ind q ih =>
    obtain ⟨d, hd, hcases⟩ := referencePositions_cases hpos h
    rcases hcases with huses | ⟨t, k, ht, hk, hmem, huses⟩
    · have href := references_of_uses_output d s q i (hstores s (List.mem_of_getElem? hs)) huses
      exact TransGen.single ⟨lt_of_mem_referencePositions hpos h, s, d, hs, hd, href⟩
    · have href := references_of_uses_output d t q k (hstores t (List.mem_of_getElem? ht)) huses
      exact TransGen.tail (ih k hk hmem) ⟨hk, t, d, ht, hd, href⟩

end

/-! ## Both -/

/-- If one statement is a source of another one, the other one is a user of its result; without
stores, the converse holds.  Both are listed in order and once, sources from the last one down. -/
theorem dependencies_agree (p : Program) (hvalid : p.isValid = true) :
    (∀ i q s, i < q → p.statements[i]? = some s →
      i ∈ p.dependencyPositions (.value q) → q ∈ p.referencePositions (s.output i)) ∧
    ((∀ s ∈ p.statements, s.op.isStore = false) → ∀ i q s, i < q → p.statements[i]? = some s →
      q ∈ p.referencePositions (s.output i) → i ∈ p.dependencyPositions (.value q)) ∧
    ∀ r, (p.referencePositions r).Pairwise (· < ·) ∧ (p.dependencyPositions r).Pairwise (· > ·) := by
  refine ⟨fun i q s hi hs h => ?_, fun hstores i q s hi hs h => ?_, fun r => ?_⟩
  · have hreaches := (mem_dependencyPositions_iff rfl hi).mp h
    exact mem_referencePositions_of_reaches hvalid hs hreaches
  · have hreaches := reaches_of_mem_referencePositions hstores hs h
    exact (mem_dependencyPositions_iff rfl hi).mpr hreaches
  · exact ⟨referencePositions_sorted p r, dependencyPositions_sorted p r⟩

/-- Who reads a field of an element is a user of the store into the element, which is no source. -/
example : 4 ∈ Boxes.weightPrinted.referencePositions (.element (.value 0) 0) ∧
    2 ∉ Boxes.weightPrinted.dependencyPositions (.value 4) := by decide

namespace Boxes

/-- Lifts a box by the weight of another one. -/
def liftedByWeight : Program :=
  { Program.empty with
    statements := [
      newBox,
      .read weight (some (.value 0)),
      newBox,
      .call lift (some (.value 2)) [.value 1],
      .call print none [.field (.value 2) weight]] }

end Boxes

open Boxes in
theorem dependencies_agree_liftedByWeight :
    liftedByWeight.isValid = true ∧ (∀ s ∈ liftedByWeight.statements, s.op.isStore = false) ∧
    0 ∈ liftedByWeight.dependencyPositions (.value 3) ∧
    3 ∈ liftedByWeight.referencePositions (newBox.output 0) ∧
    (liftedByWeight.referencePositions (.value 0)).Pairwise (· < ·) ∧
    (liftedByWeight.dependencyPositions (.value 3)).Pairwise (· > ·) := by
  have hstores : ∀ s ∈ liftedByWeight.statements, s.op.isStore = false := by decide
  obtain ⟨husers, hsources, hsorted⟩ := dependencies_agree liftedByWeight rfl
  have huser : 3 ∈ liftedByWeight.referencePositions (newBox.output 0) :=
    husers 0 3 newBox (by decide) rfl (by decide)
  have hsource : 0 ∈ liftedByWeight.dependencyPositions (.value 3) :=
    hsources hstores 0 3 newBox (by decide) rfl (by decide)
  exact ⟨rfl, hstores, hsource, huser, (hsorted (.value 0)).1, (hsorted (.value 3)).2⟩

end SuiteSearch.Program
