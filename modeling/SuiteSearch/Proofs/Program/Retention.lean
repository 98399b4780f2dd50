import Mathlib.Data.List.Induction
import SuiteSearch.Proofs.Program.Anchors

/-!
# Keeping some statements

`retain` keeps the statements at given positions and renumbers them by rank.  The ranks come from
one pass over the positions, and stale assertions are removed from the whole program, one by one.
What it leaves is said for each statement alone: renumbered by rank, without its stale assertions.

    kept keep f l                        the statements that are kept, renumbered by f
    retain_eq                            p.retain keep has the statements that are kept, by rank
    kept keep f (l ++ [s])               kept keep f l, and s if its position is kept
    (kept keep f l)[rank keep i]?        the statement of l at a kept position i, and nothing else
-/

namespace SuiteSearch.Program

/-! ## Algorithm -/

/-- Where a kept position moves to when all others are removed. -/
def rankOf? (keep : List Nat) (length position : Nat) : Option Nat :=
  if position < length && keep.contains position then some (rank keep position) else none

/-- Removes the assertions about values that are gone. -/
def dropStaleAssertions (s : Statement) : Statement :=
  { s with assertions := s.assertions.filter fun a => !a.source.isDangling }

/-- A statement without some assertions. -/
def withoutAssertions (stale : List Assertion) (s : Statement) : Statement :=
  { s with assertions := s.assertions.filter fun a => !stale.contains a }

/-- The statements at the positions to keep, renumbered. -/
def kept (keep : List Nat) (f : Nat → Option Nat) (l : List Statement) : List Statement :=
  (l.zipIdx.filter fun (_, i) => keep.contains i).map fun (s, _) => dropStaleAssertions (s.remap f)

/-! ## Ranks -/

/-- A pass gives a kept position the number of those that it has met before. -/
theorem getElem?_ranksFrom (keep : List Nat) (next : Nat) (l : List Nat) (n : Nat) :
    (ranksFrom keep next l)[n]? = l[n]?.map fun i =>
      if keep.contains i then some (next + ((l.take n).filter keep.contains).length) else none := by
  induction l generalizing next n with
  | nil => rfl
  | cons i rest ih =>
    unfold ranksFrom
    cases n with
    | zero => split <;> simp_all
    | succ n =>
      rw [List.getElem?_cons_succ, List.take_succ_cons]
      split
      · next h =>
        rw [List.getElem?_cons_succ, ih, List.filter_cons_of_pos h, List.length_cons,
          Nat.add_right_comm, Nat.add_assoc]
      · next h => rw [List.getElem?_cons_succ, ih, List.filter_cons_of_neg h]

theorem join_getElem?_ranks (p : Program) (keep : List Nat) (i : Nat) :
    (p.ranks keep)[i]?.join = rankOf? keep p.length i := by
  unfold ranks rankOf?
  rw [getElem?_ranksFrom]
  by_cases hi : i < p.length
  · rw [List.getElem?_range hi, List.take_range, Nat.min_eq_left (Nat.le_of_lt hi),
      decide_eq_true hi, Bool.true_and]
    simp only [Option.map_some, Option.join_some, Nat.zero_add]
    rfl
  · rw [List.getElem?_eq_none (by rw [List.length_range]; omega), decide_eq_false hi]
    rfl

/-! ## Stale assertions -/

theorem any_reads_isDangling (a : Assertion) :
    a.reads.any Ref.isDangling = a.source.isDangling := by
  unfold Assertion.reads
  cases h : a.source.additional with
  | none => simp
  | some x => simp [Ref.isDangling_iff, Ref.position_additional h]

theorem withoutAssertions_nil (s : Statement) : withoutAssertions [] s = s := by
  have hall : s.assertions.filter (fun a => !([] : List Assertion).contains a) = s.assertions :=
    List.filter_eq_self.mpr fun _ _ => rfl
  rw [withoutAssertions, hall]

theorem withoutAssertions_cons (a : Assertion) (stale : List Assertion) (s : Statement) :
    withoutAssertions stale (s.removeAssertion a).1 = withoutAssertions (a :: stale) s := by
  unfold withoutAssertions Statement.removeAssertion
  rw [List.filter_filter]
  congr 1
  refine List.filter_congr fun b _ => ?_
  rw [List.contains_cons, Bool.not_or, Bool.and_comm]
  rfl

/-- To remove assertions one after the other is to remove them all from each statement. -/
theorem foldl_removeAssertion (stale : List Assertion) (p : Program) :
    stale.foldl removeAssertion p = p.mapStatements (withoutAssertions stale) := by
  induction stale generalizing p with
  | nil =>
    rw [List.foldl_nil, mapStatements, List.map_congr_left fun s _ => withoutAssertions_nil s,
      List.map_id']
  | cons a rest ih =>
    rw [List.foldl_cons, ih, removeAssertion, mapStatements, mapStatements, List.map_map]
    congr 1
    exact List.map_congr_left fun s _ => withoutAssertions_cons a rest s

/-- No statement loses an assertion for another one that is stale. -/
theorem removeStaleAssertions_eq (p : Program) :
    p.removeStaleAssertions = p.mapStatements dropStaleAssertions := by
  unfold removeStaleAssertions
  rw [foldl_removeAssertion, mapStatements, mapStatements]
  congr 1
  refine List.map_congr_left fun s hs => ?_
  unfold withoutAssertions dropStaleAssertions
  congr 1
  refine List.filter_congr fun a ha => ?_
  -- An assertion that is the same as a stale one is stale itself.
  have hmem : a ∈ p.assertions := List.mem_flatMap.mpr ⟨s, hs, ha⟩
  rw [← any_reads_isDangling a]
  congr 1
  rw [Bool.eq_iff_iff, List.contains_iff_mem, List.mem_filter]
  exact and_iff_right hmem

/-- What is kept is renumbered by rank, and each statement loses its own stale assertions. -/
theorem retain_eq (p : Program) (keep : List Nat) :
    p.retain keep = { p with statements := kept keep (rankOf? keep p.length) p.statements } := by
  have hranks : (fun i => (p.ranks keep)[i]?.join) = rankOf? keep p.length :=
    funext (join_getElem?_ranks p keep)
  unfold retain kept
  dsimp only
  rw [hranks, removeStaleAssertions_eq, mapStatements, List.map_map]
  rfl

/-! ## What is kept -/

theorem dropStaleAssertions_remap (f : Nat → Option Nat) (s : Statement) (h : s.assertions = []) :
    dropStaleAssertions (s.remap f) = s.remap f := by
  simp only [dropStaleAssertions, Statement.remap, Statement.mapReads, h, List.map_nil,
    List.filter_nil]

theorem rank_succ (keep : List Nat) (n : Nat) :
    rank keep (n + 1) = rank keep n + if keep.contains n then 1 else 0 := by
  unfold rank
  rw [List.range_succ, List.filter_append, List.length_append]
  cases h : keep.contains n <;> simp only [List.filter, h] <;> rfl

/-- A kept position moves to a place before the later ones. -/
theorem rank_lt (keep : List Nat) {i j : Nat} (hij : i < j) (hi : keep.contains i = true) :
    rank keep i < rank keep j := by
  induction hij with
  | refl =>
    rw [Nat.succ_eq_add_one, rank_succ, if_pos hi]
    exact Nat.lt_succ_self _
  | step _ ih =>
    rw [Nat.succ_eq_add_one, rank_succ]
    exact Nat.lt_add_right _ ih

/-- Where a position is not kept, those that are take fewer places. -/
theorem rank_lt_of_not_mem {keep : List Nat} {i n : Nat} (hi : i < n) (hkeep : i ∉ keep) :
    rank keep n < n := by
  have hmissing : ¬ keep.contains i = true := by
    rw [List.contains_iff_mem]
    exact hkeep
  calc rank keep n < (List.range n).length :=
        List.length_filter_lt_length_iff_exists.mpr ⟨i, List.mem_range.mpr hi, hmissing⟩
    _ = n := List.length_range

theorem kept_concat (keep : List Nat) (f : Nat → Option Nat) (l : List Statement) (s : Statement) :
    kept keep f (l ++ [s]) =
      kept keep f l ++
        if keep.contains l.length then [dropStaleAssertions (s.remap f)] else [] := by
  unfold kept
  rw [List.zipIdx_append, List.filter_append, List.map_append, List.zipIdx_singleton, Nat.zero_add]
  cases h : keep.contains l.length <;> simp only [List.filter, h] <;> rfl

theorem length_kept (keep : List Nat) (f : Nat → Option Nat) (l : List Statement) :
    (kept keep f l).length = rank keep l.length := by
  induction l using List.reverseRecOn with
  | nil => rfl
  | append_singleton l s ih =>
    rw [kept_concat, List.length_append, ih, List.length_append, List.length_singleton, rank_succ]
    split <;> rfl

theorem getElem?_kept (keep : List Nat) (f : Nat → Option Nat) (l : List Statement) (i : Nat)
    (s : Statement) (hs : l[i]? = some s) (hi : keep.contains i = true) :
    (kept keep f l)[rank keep i]? = some (dropStaleAssertions (s.remap f)) := by
  induction l using List.reverseRecOn with
  | nil => cases hs
  | append_singleton l t ih =>
    rw [kept_concat]
    by_cases hlt : i < l.length
    · rw [List.getElem?_append_left hlt] at hs
      have hget := ih hs
      rw [List.getElem?_append_left (List.getElem?_eq_some_iff.mp hget).1]
      exact hget
    · have hlen := (List.getElem?_eq_some_iff.mp hs).1
      rw [List.length_append, List.length_singleton] at hlen
      obtain rfl : i = l.length := by omega
      rw [List.getElem?_concat_length] at hs
      obtain rfl := Option.some.inj hs
      rw [if_pos hi, ← length_kept keep f l, List.getElem?_concat_length]

/-- What is kept stood at a position to keep, and comes to stand at its rank. -/
theorem getElem?_kept_cases (keep : List Nat) (f : Nat → Option Nat) (l : List Statement) (n : Nat)
    (s : Statement) (h : (kept keep f l)[n]? = some s) :
    ∃ i t, keep.contains i = true ∧ l[i]? = some t ∧ n = rank keep i ∧
      s = dropStaleAssertions (t.remap f) := by
  induction l using List.reverseRecOn with
  | nil => cases h
  | append_singleton l t ih =>
    rw [kept_concat] at h
    by_cases hn : n < (kept keep f l).length
    · rw [List.getElem?_append_left hn] at h
      obtain ⟨i, u, hi, hu, hrank⟩ := ih h
      refine ⟨i, u, hi, ?_, hrank⟩
      rwa [List.getElem?_append_left (List.getElem?_eq_some_iff.mp hu).1]
    · rw [List.getElem?_append_right (by omega)] at h
      split at h
      · next hkeep =>
        have hlen := (List.getElem?_eq_some_iff.mp h).1
        rw [List.length_singleton] at hlen
        obtain rfl : n = (kept keep f l).length := by omega
        rw [Nat.sub_self] at h
        refine ⟨l.length, t, hkeep, List.getElem?_concat_length, length_kept keep f l, ?_⟩
        exact (Option.some.inj h).symm
      · cases h

/-! ## Programs -/

theorem rankOf?_of_mem {keep : List Nat} {length i : Nat} (hlt : i < length) (hi : i ∈ keep) :
    rankOf? keep length i = some (rank keep i) := by
  rw [rankOf?, if_pos]
  rw [Bool.and_eq_true, decide_eq_true_iff, List.contains_iff_mem]
  exact ⟨hlt, hi⟩

theorem rankOf?_eq_some {keep : List Nat} {length i j : Nat}
    (h : rankOf? keep length i = some j) : i < length ∧ i ∈ keep ∧ j = rank keep i := by
  unfold rankOf? at h
  split at h
  · next hi =>
    rw [Bool.and_eq_true, decide_eq_true_iff, List.contains_iff_mem] at hi
    exact ⟨hi.1, hi.2, (Option.some.inj h).symm⟩
  · cases h

section
variable {p : Program} {keep : List Nat} {i n : Nat} {s : Statement}

theorem length_retain : (p.retain keep).length = rank keep p.length := by
  rw [retain_eq]
  exact length_kept keep _ p.statements

theorem getElem?_retain (hs : p.statements[i]? = some s) (hi : i ∈ keep) :
    (p.retain keep).statements[rank keep i]? =
      some (dropStaleAssertions (s.remap (rankOf? keep p.length))) := by
  rw [retain_eq]
  exact getElem?_kept keep _ p.statements i s hs (List.contains_iff_mem.mpr hi)

theorem getElem?_retain_cases (h : (p.retain keep).statements[n]? = some s) :
    ∃ i t, i ∈ keep ∧ p.statements[i]? = some t ∧ n = rank keep i ∧
      s = dropStaleAssertions (t.remap (rankOf? keep p.length)) := by
  rw [retain_eq] at h
  obtain ⟨i, t, hi, hrest⟩ := getElem?_kept_cases keep _ p.statements n s h
  exact ⟨i, t, List.contains_iff_mem.mp hi, hrest⟩

theorem isValid_dropStaleAssertions (s : Statement) (i : Nat) :
    (dropStaleAssertions s).isValid i = s.isValid i := rfl

/-- What is kept is valid if the base of everything that a kept statement reads is kept. -/
theorem isValid_retain (hvalid : p.isValid = true)
    (hbase : ∀ k d, p.statements[k]? = some d → k ∈ keep → ∀ x ∈ d.reads,
      ∃ b, b < k ∧ x.position = some b ∧ b ∈ keep) : (p.retain keep).isValid = true := by
  refine (isValid_iff _).mpr fun n s hs => ?_
  obtain ⟨k, d, hk, hd, rfl, rfl⟩ := getElem?_retain_cases hs
  have hlt := (List.getElem?_eq_some_iff.mp hd).1
  rw [isValid_dropStaleAssertions]
  refine Statement.isValid_remap _ d k _ ((isValid_iff p).mp hvalid k d hd) fun x hx b hb => ?_
  obtain ⟨b', hlt', hb', hmem⟩ := hbase k d hd hk x hx
  obtain rfl := Option.some.inj (hb'.symm.trans hb)
  refine ⟨rank keep b', rank_lt keep hlt' (List.contains_iff_mem.mpr hmem), ?_⟩
  exact rankOf?_of_mem (Nat.lt_trans hlt' hlt) hmem

end

end SuiteSearch.Program
