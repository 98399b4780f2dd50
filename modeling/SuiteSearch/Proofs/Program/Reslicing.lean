import SuiteSearch.Proofs.Program.Slicing

/-!
# Slicing twice

A slice is its own slice.  Renumbering takes a kept statement that uses a value to a statement that
uses the renumbered value, so that the users of the value are found again and so is all that they
are made from: the second slice keeps every position, and that changes nothing.

    uses_remap            what uses a value uses it after the renumbering
    retain_all            to keep every position changes nothing
    rank_mem_roots        the roots of a slice are roots of the second one
    rank_mem_positions    what a slice keeps is kept by the second one
    slice_slice           to slice twice is to slice once
-/

namespace SuiteSearch

/-! ## Uses under renumbering -/

namespace Ref

/-- Whether a renumbering keeps the base of a reference. -/
def Mapped (f : Nat → Option Nat) (r : Ref) : Prop := ∃ j, r.position.bind f = some j

variable {f : Nat → Option Nat} {r x : Ref}

theorem Mapped.of_position (h : r.Mapped f) (hx : x.position = r.position) : x.Mapped f := by
  obtain ⟨j, hj⟩ := h
  exact ⟨j, by rw [hx, hj]⟩

theorem position_eq_of_sameValue (h : r.sameValue x = true) : r.position = x.position := by
  induction r generalizing x with
  | value p | null p => cases x <;> simp_all [sameValue, position]
  | field source g ih | element array k ih =>
    cases x <;> simp only [sameValue, Bool.and_eq_true, Bool.false_eq_true] at h
    have hsource := ih h.2
    exact hsource
  | dangling => cases x <;> cases h

theorem sameValue_remap (h : r.sameValue x = true) (hr : r.Mapped f) :
    (r.remap f).sameValue (x.remap f) = true := by
  induction r generalizing x with
  | value p | null p =>
    obtain ⟨j, hj⟩ := hr
    have hp : f p = some j := hj
    cases x <;> simp_all [sameValue, remap]
  | field source g ih =>
    cases x <;> simp only [sameValue, Bool.and_eq_true, Bool.false_eq_true] at h
    obtain ⟨j, hj⟩ := hr
    have hx := position_eq_of_sameValue h.2
    rw [remap_field f source g j hj, remap_field f _ _ j (by rw [← hx]; exact hj)]
    simp only [sameValue, Bool.and_eq_true]
    exact ⟨h.1, ih h.2 ⟨j, hj⟩⟩
  | element array k ih =>
    cases x <;> simp only [sameValue, Bool.and_eq_true, Bool.false_eq_true] at h
    obtain ⟨j, hj⟩ := hr
    have hx := position_eq_of_sameValue h.2
    rw [remap_element f array k j hj, remap_element f _ _ j (by rw [← hx]; exact hj)]
    simp only [sameValue, Bool.and_eq_true]
    exact ⟨h.1, ih h.2 ⟨j, hj⟩⟩
  | dangling => cases x <;> cases h

end Ref

namespace Statement

variable {f : Nat → Option Nat} {s : Statement} {i j : Nat} {v : Ref}

theorem output_remap (hf : f i = some j) : (s.remap f).output j = (s.output i).remap f := by
  obtain ⟨op, ty, assertions⟩ := s
  cases op with
  | literal v => cases v <;> simp [output, Operation.output, Operation.mapReads, Ref.remap, hf]
  | store target value => rfl
  | _ => simp [output, Operation.output, Operation.mapReads, Ref.remap, hf]

theorem output_mapped (hf : f i = some j) (hreads : ∀ x ∈ s.reads, x.Mapped f) :
    (s.output i).Mapped f := by
  cases hstore : s.op.isStore with
  | false => exact ⟨j, by rw [(s.output_resultOf i hstore).position]; exact hf⟩
  | true =>
    obtain ⟨op, ty, assertions⟩ := s
    cases op <;> simp only [Operation.isStore, Bool.false_eq_true] at hstore
    exact hreads _ List.mem_cons_self

theorem references_remap (hf : f i = some j) (hreads : ∀ x ∈ s.reads, x.Mapped f)
    (h : s.references i v = true) : (s.remap f).references j (v.remap f) = true := by
  obtain ⟨y, hy, hsame⟩ := List.any_eq_true.mp h
  obtain ⟨x, hx, hy⟩ := List.mem_flatMap.mp hy
  have hmapped : x.Mapped f := by
    rcases List.mem_cons.mp hx with rfl | hx
    · exact output_mapped hf hreads
    · exact hreads x hx
  have hx' : x.remap f ∈ (s.remap f).output j :: (s.remap f).reads := by
    rw [output_remap hf, reads_remap, ← List.map_cons]
    exact List.mem_map_of_mem hx
  have hy' : y.remap f ∈ withAdditional (x.remap f) ∧ y.position = x.position := by
    obtain ⟨k, hk⟩ := hmapped
    rw [withAdditional, Ref.additional_remap f x k hk]
    rcases List.mem_cons.mp hy with rfl | hy
    · exact ⟨List.mem_cons_self, rfl⟩
    · rw [Option.mem_toList] at hy
      rw [hy]
      exact ⟨List.mem_cons_of_mem _ (List.mem_singleton.mpr rfl), Ref.position_additional hy⟩
  refine List.any_eq_true.mpr ⟨y.remap f, List.mem_flatMap.mpr ⟨_, hx', hy'.1⟩, ?_⟩
  exact Ref.sameValue_remap hsame (hmapped.of_position hy'.2)

/-- What uses a value uses it after a renumbering that keeps the bases of both. -/
theorem uses_remap (hf : f i = some j) (hreads : ∀ x ∈ s.reads, x.Mapped f) (hv : v.Mapped f)
    (h : s.uses i v = true) : (s.remap f).uses j (v.remap f) = true := by
  obtain ⟨k, hk⟩ := hv
  unfold uses at h ⊢
  rw [Ref.additional_remap f v k hk]
  rcases Bool.or_eq_true_iff.mp h with h | h
  · rw [references_remap hf hreads h, Bool.true_or]
  · obtain ⟨x, hx, hrefs⟩ := Option.any_eq_true _ _ |>.mp h
    rw [hx, Option.map_some, Option.any_some, references_remap hf hreads hrefs, Bool.or_true]

end Statement

namespace Program

/-! ## What is kept, renumbered -/

section
variable {p : Program} {keep : List Nat} {i k n : Nat} {s d : Statement} {v : Ref}

/-- What a kept statement reads is kept if the statements that are kept are valid. -/
theorem mapped_of_isValid (hvalid : (p.retain keep).isValid = true)
    (hs : p.statements[i]? = some s) (hi : i ∈ keep) :
    ∀ x ∈ s.reads, x.Mapped (rankOf? keep p.length) := by
  intro x hx
  have hread : x.remap (rankOf? keep p.length) ∈ (s.remap (rankOf? keep p.length)).reads := by
    rw [Statement.reads_remap]
    exact List.mem_map_of_mem hx
  obtain ⟨j, -, hj⟩ := base_of_isValid hvalid (getElem?_retain hs hi) hread
  exact ⟨j, by rw [← Ref.position_remap]; exact hj⟩

theorem rankOf?_of_getElem? (hs : p.statements[i]? = some s) (hi : i ∈ keep) :
    rankOf? keep p.length i = some (rank keep i) :=
  rankOf?_of_mem (List.getElem?_eq_some_iff.mp hs).1 hi

theorem uses_retain (hvalid : (p.retain keep).isValid = true) (hd : p.statements[k]? = some d)
    (hk : k ∈ keep) (hv : v.Mapped (rankOf? keep p.length)) (h : d.uses k v = true) :
    (dropStaleAssertions (d.remap (rankOf? keep p.length))).uses (rank keep k)
      (v.remap (rankOf? keep p.length)) = true :=
  Statement.uses_remap (rankOf?_of_getElem? hd hk) (mapped_of_isValid hvalid hd hk) hv h

/-- What uses the result of a kept statement uses it after the renumbering. -/
theorem uses_output_retain (hvalid : (p.retain keep).isValid = true)
    (hs : p.statements[i]? = some s) (hi : i ∈ keep) (hd : p.statements[k]? = some d)
    (hk : k ∈ keep) (h : d.uses k (s.output i) = true) :
    (dropStaleAssertions (d.remap (rankOf? keep p.length))).uses (rank keep k)
      ((dropStaleAssertions (s.remap (rankOf? keep p.length))).output (rank keep i)) = true := by
  have hf := rankOf?_of_getElem? hs hi
  have hout := s.output_mapped hf (mapped_of_isValid hvalid hs hi)
  have huses := uses_retain hvalid hd hk hout h
  rwa [← Statement.output_remap hf] at huses

/-- What is kept mentions only what is kept, and has no stale assertions. -/
theorem mentions_retain (hvalid : (p.retain keep).isValid = true)
    (hs : s ∈ (p.retain keep).statements) (hv : s.Mentions v) :
    ∃ b, b < (p.retain keep).length ∧ v.position = some b := by
  obtain ⟨n, hn⟩ := List.getElem?_of_mem hs
  have hlt : n < (p.retain keep).length := (List.getElem?_eq_some_iff.mp hn).1
  rcases hv with hv | ⟨a, ha, rfl⟩
  · obtain ⟨b, hb, hpos⟩ := base_of_isValid hvalid hn hv
    exact ⟨b, Nat.lt_trans hb hlt, hpos⟩
  · obtain ⟨i, t, -, -, -, rfl⟩ := getElem?_retain_cases hn
    obtain ⟨ha, hlive⟩ := List.mem_filter.mp ha
    obtain ⟨a', -, rfl⟩ := List.mem_map.mp ha
    have hlive : (a'.source.remap (rankOf? keep p.length)).isDangling = false :=
      (Bool.not_eq_true' _).mp hlive
    rw [Ref.isDangling_iff, Option.isNone_eq_false_iff, Option.isSome_iff_exists] at hlive
    obtain ⟨b, hb⟩ := hlive
    refine ⟨b, ?_, hb⟩
    rw [Ref.position_remap, Option.bind_eq_some_iff] at hb
    obtain ⟨c, -, hb⟩ := hb
    obtain ⟨hlt, hc, rfl⟩ := rankOf?_eq_some hb
    rw [length_retain]
    exact rank_lt keep hlt (List.contains_iff_mem.mpr hc)

end

/-! ## To keep everything -/

section
variable {p : Program} {keep : List Nat} (hall : ∀ i, i < p.length → i ∈ keep)
include hall

theorem rank_all {i : Nat} (hi : i ≤ p.length) : rank keep i = i := by
  rw [rank, List.filter_eq_self.mpr, List.length_range]
  intro k hk
  rw [List.mem_range] at hk
  exact List.contains_iff_mem.mpr (hall k (by omega))

theorem remap_all {r : Ref} {b : Nat} (hb : b < p.length) (hr : r.position = some b) :
    r.remap (rankOf? keep p.length) = r := by
  refine r.remap_fixed _ b hr ?_
  rw [rankOf?_of_mem hb (hall b hb), rank_all hall (Nat.le_of_lt hb)]

theorem dropStaleAssertions_all {s : Statement}
    (hmentions : ∀ r, s.Mentions r → ∃ b, b < p.length ∧ r.position = some b) :
    dropStaleAssertions (s.remap (rankOf? keep p.length)) = s := by
  have hfixed : s.remap (rankOf? keep p.length) = s := by
    refine s.remap_id _ fun r hr => ?_
    obtain ⟨b, hb, hpos⟩ := hmentions r hr
    exact remap_all hall hb hpos
  have hlive : s.assertions.filter (fun a => !a.source.isDangling) = s.assertions := by
    refine List.filter_eq_self.mpr fun a ha => ?_
    obtain ⟨b, -, hpos⟩ := hmentions a.source (Or.inr ⟨a, ha, rfl⟩)
    rw [Ref.isDangling_iff, hpos]
    rfl
  rw [hfixed, dropStaleAssertions, hlive]

/-- To keep every position changes nothing where everything that is mentioned is there. -/
theorem retain_all (hmentions : ∀ s ∈ p.statements, ∀ r, s.Mentions r →
      ∃ b, b < p.length ∧ r.position = some b) : p.retain keep = p := by
  have hstatements : (p.retain keep).statements = p.statements := by
    refine List.ext_getElem? fun i => ?_
    by_cases hi : i < p.length
    · have hs : p.statements[i]? = some p.statements[i] := List.getElem?_eq_getElem hi
      have hkept := getElem?_retain hs (hall i hi)
      rw [rank_all hall (Nat.le_of_lt hi),
        dropStaleAssertions_all hall (hmentions _ (List.mem_of_getElem? hs))] at hkept
      rw [hkept, hs]
    · have hlength : (p.retain keep).statements.length = p.length := by
        rw [← rank_all hall (Nat.le_refl _), ← length_retain]
        rfl
      rw [List.getElem?_eq_none (Nat.le_of_not_lt hi), List.getElem?_eq_none]
      omega
  rw [retain_eq] at hstatements ⊢
  exact congrArg (fun l => { p with statements := l }) hstatements

end

/-! ## The second slice -/

/-- The positions `keep` of a slice that is valid. -/
structure Sliced (p : Program) (r : Ref) (position : Nat) (keep : List Nat) : Prop where
  position_eq : r.position = some position
  lt : position < p.length
  keep_eq : keep = p.slicePositions r position
  valid : (p.retain keep).isValid = true

namespace Sliced

variable {p : Program} {r : Ref} {position i k : Nat} {keep : List Nat}

theorem mem_of_root (h : Sliced p r position keep) (hi : i ∈ p.sliceRoots r position) :
    i ∈ keep := by
  have hs : ∃ s, p.statements[i]? = some s := by
    rcases List.mem_cons.mp hi with rfl | hi
    · exact ⟨_, List.getElem?_eq_getElem h.lt⟩
    · obtain ⟨t, ht, -⟩ := referencePositions_cases h.position_eq hi
      exact ⟨t, ht⟩
  obtain ⟨s, hs⟩ := hs
  rw [h.keep_eq]
  exact mem_slicePositions_of_root hs hi

theorem rankOf?_position (h : Sliced p r position keep) :
    rankOf? keep p.length position = some (rank keep position) :=
  rankOf?_of_mem h.lt (h.mem_of_root List.mem_cons_self)

theorem position_remap (h : Sliced p r position keep) :
    (r.remap (rankOf? keep p.length)).position = some (rank keep position) := by
  rw [Ref.position_remap, h.position_eq]
  exact h.rankOf?_position

theorem mapped (h : Sliced p r position keep) : r.Mapped (rankOf? keep p.length) :=
  ⟨rank keep position, by rw [← Ref.position_remap]; exact h.position_remap⟩

theorem rank_lt_rank (_ : Sliced p r position keep) (hik : i < k) (hi : i ∈ keep) :
    rank keep i < rank keep k :=
  rank_lt keep hik (List.contains_iff_mem.mpr hi)

/-- The users of the value are users after the slice. -/
theorem rank_mem_users (h : Sliced p r position keep) (hk : k ∈ p.referencePositions r) :
    rank keep k ∈ (p.retain keep).referencePositions (r.remap (rankOf? keep p.length)) := by
  induction k using Nat.strongRecOn with
  | ind k ih =>
    obtain ⟨d, hd, hcases⟩ := referencePositions_cases h.position_eq hk
    have hkeep : ∀ i, i ∈ p.referencePositions r → i ∈ keep := fun i hi =>
      h.mem_of_root (List.mem_cons_of_mem _ hi)
    have hlater := h.rank_lt_rank (lt_of_mem_referencePositions h.position_eq hk)
      (h.mem_of_root List.mem_cons_self)
    refine mem_referencePositions_of_uses h.position_remap (getElem?_retain hd (hkeep k hk)) hlater ?_
    rcases hcases with huses | ⟨s, i, hs, hik, hi, huses⟩
    · exact Or.inl (uses_retain h.valid hd (hkeep k hk) h.mapped huses)
    · have hmoved := uses_output_retain h.valid hs (hkeep i hi) hd (hkeep k hk) huses
      exact Or.inr ⟨_, rank keep i, getElem?_retain hs (hkeep i hi),
        h.rank_lt_rank hik (hkeep i hi), ih i hik hi, hmoved⟩

theorem rank_mem_roots (h : Sliced p r position keep) (hi : i ∈ p.sliceRoots r position) :
    rank keep i ∈
      (p.retain keep).sliceRoots (r.remap (rankOf? keep p.length)) (rank keep position) := by
  rcases List.mem_cons.mp hi with rfl | hi
  · exact List.mem_cons_self
  · exact List.mem_cons_of_mem _ (h.rank_mem_users hi)

/-- What is kept does not come after the last root of the second slice. -/
theorem rank_le_lastRoot (h : Sliced p r position keep) (hi : i ∈ keep) :
    rank keep i ≤
      (p.retain keep).lastRoot (r.remap (rankOf? keep p.length)) (rank keep position) := by
  have hlast := (lastRoot_isMax (p.retain keep) _ _).2 _
    (h.rank_mem_roots (lastRoot_isMax p r position).1)
  rw [h.keep_eq] at hi
  obtain ⟨-, -, hle, -⟩ := slicePositions_cases hi
  rw [← h.keep_eq] at hi
  rcases Nat.lt_or_eq_of_le hle with hlt | heq
  · exact Nat.le_trans (Nat.le_of_lt (h.rank_lt_rank hlt hi)) hlast
  · rw [heq]
    exact hlast

/-- What a slice keeps is kept by the second one, from the last position down. -/
theorem rank_mem_positions (h : Sliced p r position keep) (hi : i ∈ keep) :
    rank keep i ∈
      (p.retain keep).slicePositions (r.remap (rankOf? keep p.length)) (rank keep position) := by
  obtain ⟨n, hn⟩ : ∃ n, n = p.lastRoot r position - i := ⟨_, rfl⟩
  induction n using Nat.strongRecOn generalizing i with
  | ind n ih =>
    have hmem := hi
    rw [h.keep_eq] at hmem
    obtain ⟨s, hs, -, hcases⟩ := slicePositions_cases hmem
    rcases hcases with hroot | ⟨d, k, hd, hik, hk, huses⟩
    · exact mem_slicePositions_of_root (getElem?_retain hs hi) (h.rank_mem_roots hroot)
    · obtain ⟨-, -, hle, -⟩ := slicePositions_cases hk
      rw [← h.keep_eq] at hk
      refine mem_slicePositions_of_uses (getElem?_retain hs hi) (h.rank_le_lastRoot hi)
        (getElem?_retain hd hk) ?_ (uses_output_retain h.valid hs hi hd hk huses)
      rcases hik with hroot | hik
      · exact Or.inl (h.rank_mem_roots hroot)
      · exact Or.inr ⟨h.rank_lt_rank hik hi, ih _ (by omega) hk rfl⟩

theorem slice_eq (h : Sliced p r position keep) :
    (p.retain keep).slice (r.remap (rankOf? keep p.length)) =
      .ok (p.retain keep, rank keep position) := by
  have hlt : rank keep position < (p.retain keep).length := by
    rw [length_retain]
    exact h.rank_lt_rank h.lt (h.mem_of_root List.mem_cons_self)
  have hall : ∀ n, n < (p.retain keep).length → n ∈
      (p.retain keep).slicePositions (r.remap (rankOf? keep p.length)) (rank keep position) := by
    intro n hn
    obtain ⟨i, t, hi, -, rfl, -⟩ := getElem?_retain_cases (List.getElem?_eq_getElem hn)
    exact h.rank_mem_positions hi
  have hretain := retain_all hall fun s hs v hv => mentions_retain h.valid hs hv
  refine (slice_eq_ok_iff _ _ _ _).mpr ⟨rank keep position, h.position_remap, hlt, ?_, ?_, ?_⟩
  · rw [hretain]
    exact h.valid
  · exact hretain.symm
  · exact (rank_all hall (Nat.le_of_lt hlt)).symm

end Sliced

/-- To slice a slice for the same value changes nothing. -/
theorem slice_slice (p : Program) (r : Ref) (q : Program) (n : Nat)
    (h : p.slice r = .ok (q, n)) : q.slice (r.remap fun _ => some n) = .ok (q, n) := by
  obtain ⟨i, hr, hlt, hvalid, rfl, rfl⟩ := (slice_eq_ok_iff p r q n).mp h
  have hsliced : Sliced p r i (p.slicePositions r i) := ⟨hr, hlt, rfl, hvalid⟩
  rw [Ref.remap_congr _ (rankOf? (p.slicePositions r i) p.length) r]
  · exact hsliced.slice_eq
  · rw [hr, Option.bind_some, Option.bind_some, hsliced.rankOf?_position]

namespace Boxes

def lift : Method := ⟨box, "lift", [.int], .void, false⟩

/-- Lifts the second of two boxes, and checks the first one. -/
def twoBoxes : Program :=
  { Program.empty with
    statements := [
      newBox,
      .literal (.int 5) .int,
      newBox,
      (Statement.call lift (some (.value 2)) [.value 1]).addAssertion
        ⟨.value 0, .nullness false⟩ |>.1,
      .call print none [.field (.value 0) weight]] }

/-- Lifts the box. -/
def oneBox : Program :=
  { Program.empty with
    statements := [
      .literal (.int 5) .int,
      newBox,
      .call lift (some (.value 1)) [.value 0]] }

end Boxes

open Boxes in
theorem slice_slice_twoBoxes :
    twoBoxes.slice (.value 2) = .ok (oneBox, 1) ∧
    oneBox.slice ((Ref.value 2).remap fun _ => some 1) = .ok (oneBox, 1) :=
  have hslice : twoBoxes.slice (.value 2) = .ok (oneBox, 1) := rfl
  ⟨hslice, slice_slice twoBoxes (.value 2) oneBox 1 hslice⟩

end Program

end SuiteSearch
