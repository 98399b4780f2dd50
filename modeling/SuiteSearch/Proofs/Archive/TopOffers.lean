import Mathlib.Data.List.MinMax
import SuiteSearch.Proofs.Archive.History
import SuiteSearch.Proofs.Archive.Ranking
import SuiteSearch.Random.Words

/-!
# What an open goal keeps

Looked at afterwards, the offers for a goal that made some progress can be ranked: each program by
the best value it was offered with, and among equals by the time of that offer. As long as the goal
is open, the archive keeps the first candidates of this ranking, although it sees one offer at a
time and forgets what it has no room for.

    ranking l                   the offers, ranked afterwards
    ranking_concat              one more offer advances the ranking
    Formed.ranked               the first entries of a population are those of the ranking
    entries_eq_take_ranking     if the capacity never goes up, there are no others
-/

namespace SuiteSearch

/-! ## The ranking of offers -/

/-- An offer with its time. -/
abbrev TimedEntry := Entry × Nat

namespace TimedEntry

/-- Smaller values first, then shorter programs, then earlier offers. -/
def precedes (x y : TimedEntry) : Bool :=
  x.1.heuristic < y.1.heuristic ||
    (x.1.heuristic == y.1.heuristic &&
      (x.1.chromosome.length < y.1.chromosome.length ||
        (x.1.chromosome.length == y.1.chromosome.length && x.2 < y.2)))

/-- The place in the ranking. -/
def key (x : TimedEntry) : ((Int ×ₗ Int ×ₗ Int) ×ₗ Nat) ×ₗ Nat := toLex (x.1.rank, x.2)

theorem precedes_iff {x y : TimedEntry} (hx : x.1.IsNumber) (hy : y.1.IsNumber) :
    x.precedes y = true ↔ x.key < y.key := by
  have hrank : x.1.rank = y.1.rank ↔ Scalar.place x.1.heuristic = Scalar.place y.1.heuristic ∧
      x.1.chromosome.length = y.1.chromosome.length := by
    unfold Entry.rank
    rw [toLex_inj, Prod.mk.injEq]
  unfold precedes key
  simp only [Bool.or_eq_true, Bool.and_eq_true, decide_eq_true_iff, beq_iff_eq]
  rw [Scalar.lt_iff hx hy, Scalar.beq_iff hx hy, Prod.Lex.toLex_lt_toLex, hrank]
  unfold Entry.rank
  rw [Prod.Lex.toLex_lt_toLex]
  dsimp only
  constructor
  · rintro (hlt | ⟨heq, hlt | ⟨hlength, htime⟩⟩)
    · exact Or.inl (Or.inl hlt)
    · exact Or.inl (Or.inr ⟨heq, hlt⟩)
    · exact Or.inr ⟨⟨heq, hlength⟩, htime⟩
  · rintro ((hlt | ⟨heq, hlt⟩) | ⟨⟨heq, hlength⟩, htime⟩)
    · exact Or.inl hlt
    · exact Or.inr ⟨heq, Or.inl hlt⟩
    · exact Or.inr ⟨heq, Or.inr ⟨hlength, htime⟩⟩

theorem key_lt_of_rank_lt {x y : TimedEntry} (h : x.1.rank < y.1.rank) : x.key < y.key :=
  Prod.Lex.toLex_lt_toLex.mpr (Or.inl h)

theorem key_lt_of_time_lt {x y : TimedEntry} (hrank : x.1.rank ≤ y.1.rank) (htime : x.2 < y.2) :
    x.key < y.key := by
  rcases hrank.lt_or_eq with hlt | heq
  · exact key_lt_of_rank_lt hlt
  · exact Prod.Lex.toLex_lt_toLex.mpr (Or.inr ⟨heq, htime⟩)

theorem rank_le_of_key_le {x y : TimedEntry} (h : x.key ≤ y.key) : x.1.rank ≤ y.1.rank := by
  rcases Prod.Lex.toLex_le_toLex.mp h with hlt | ⟨heq, -⟩
  · exact hlt.le
  · exact heq.le

end TimedEntry

open TimedEntry (precedes key)

/-- The offers that made some progress, with their times. -/
def timed (offers : List Entry) : List TimedEntry :=
  offers.zipIdx.filter fun x => x.1.heuristic < noProgress

/-- Of every program the first offer with the best value. -/
def bests (offers : List Entry) : List TimedEntry :=
  (timed offers).filter fun x =>
    (timed offers).all fun y => !(x.1.sameProgram y.1 && precedes y x)

/-- The best offers in order. -/
def ranking (offers : List Entry) : List Entry :=
  ((bests offers).mergeSort fun x y => !precedes y x).map (·.1)

/-! ## Properties of the best offers -/

theorem Entry.sameProgram_iff (e f : Entry) : e.sameProgram f = true ↔
    f.chromosome.program.statements = e.chromosome.program.statements := by
  unfold sameProgram Program.sameStatements
  rw [beq_iff_eq]

section Offers

variable {l : List Entry}

theorem mem_timed (x : TimedEntry) :
    x ∈ timed l ↔ l[x.2]? = some x.1 ∧ x.1.heuristic < noProgress := by
  unfold timed
  rw [List.mem_filter, List.mem_zipIdx_iff_getElem?, decide_eq_true_iff]

theorem time_lt {x : TimedEntry} (h : x ∈ timed l) : x.2 < l.length :=
  (List.getElem?_eq_some_iff.mp ((mem_timed x).mp h).1).1

variable (hl : ∀ e ∈ l, e.IsNumber)

include hl

theorem timed_number {x : TimedEntry} (h : x ∈ timed l) : x.1.IsNumber :=
  hl x.1 (List.mem_of_getElem? ((mem_timed x).mp h).1)

theorem mem_bests (x : TimedEntry) :
    x ∈ bests l ↔ x ∈ timed l ∧ ∀ y ∈ timed l,
      y.1.chromosome.program.statements = x.1.chromosome.program.statements → x.key ≤ y.key := by
  unfold bests
  rw [List.mem_filter, List.all_eq_true]
  refine and_congr_right fun hx => forall₂_congr fun y hy => ?_
  rw [← not_lt, ← TimedEntry.precedes_iff (timed_number hl hy) (timed_number hl hx),
    ← Entry.sameProgram_iff]
  cases x.1.sameProgram y.1 <;> simp

theorem bests_number {x : TimedEntry} (h : x ∈ bests l) : x.1.IsNumber :=
  timed_number hl ((mem_bests hl x).mp h).1

/-- Every offer that made some progress is no better than the best one of its program. -/
theorem exists_best {y : TimedEntry} (hy : y ∈ timed l) :
    ∃ x ∈ bests l, x.1.chromosome.program.statements = y.1.chromosome.program.statements ∧
      x.key ≤ y.key := by
  have hmem : ∀ z, z ∈ (timed l).filter (fun z => y.1.sameProgram z.1) ↔ z ∈ timed l ∧
      z.1.chromosome.program.statements = y.1.chromosome.program.statements := by
    intro z
    rw [List.mem_filter, Entry.sameProgram_iff]
  have hself := (hmem y).mpr ⟨hy, rfl⟩
  cases hbest : ((timed l).filter fun z => y.1.sameProgram z.1).argmin key with
  | none =>
    rw [List.argmin_eq_none.mp hbest] at hself
    cases hself
  | some x =>
    obtain ⟨hx, hsame⟩ := (hmem x).mp (List.argmin_mem hbest)
    refine ⟨x, (mem_bests hl x).mpr ⟨hx, ?_⟩, hsame, List.le_of_mem_argmin hself hbest⟩
    intro z hz hzx
    exact List.le_of_mem_argmin ((hmem z).mpr ⟨hz, hzx.trans hsame⟩) hbest

omit hl in
/-- No two offers are made at the same time. -/
theorem eq_of_key_eq {x y : TimedEntry} (hx : x ∈ timed l) (hy : y ∈ timed l)
    (h : x.key = y.key) : x = y := by
  have htime : x.2 = y.2 := congrArg (fun k => (ofLex k).2) h
  have hxget := ((mem_timed x).mp hx).1
  have hyget := ((mem_timed y).mp hy).1
  rw [htime, hyget] at hxget
  exact Prod.ext (Option.some.inj hxget).symm htime

/-- A program has one best offer. -/
theorem best_unique {x y : TimedEntry} (hx : x ∈ bests l) (hy : y ∈ bests l)
    (h : x.1.chromosome.program.statements = y.1.chromosome.program.statements) : x = y := by
  obtain ⟨hxmem, hxleast⟩ := (mem_bests hl x).mp hx
  obtain ⟨hymem, hyleast⟩ := (mem_bests hl y).mp hy
  exact eq_of_key_eq hxmem hymem (le_antisymm (hxleast y hymem h.symm) (hyleast x hxmem h))

omit hl in
theorem nodup_bests : (bests l).Nodup := by
  have htimes : (l.zipIdx.map (·.2)).Nodup := by
    rw [List.zipIdx_map_snd]
    exact List.nodup_range'
  exact ((List.Nodup.of_map _ htimes).filter _).filter _

/-- The best offers in order, with their times. -/
theorem exists_sorted_bests : ∃ S : List TimedEntry, S.Pairwise (fun x y => x.key < y.key) ∧
    (∀ x, x ∈ S ↔ x ∈ bests l) ∧ ranking l = S.map (·.1) := by
  have hsort : (bests l).mergeSort (fun x y => !precedes y x) =
      (bests l).mergeSort fun x y => decide (x.key ≤ y.key) := by
    have hmap := List.map_mergeSort (f := id) (l := bests l)
      (r := fun x y : TimedEntry => !precedes y x) (s := fun x y => decide (x.key ≤ y.key)) ?_
    · rwa [List.map_id, List.map_id] at hmap
    · intro x hx y hy
      rw [Bool.eq_iff_iff, Bool.not_eq_true', decide_eq_true_iff, id, id, ← Bool.not_eq_true,
        TimedEntry.precedes_iff (bests_number hl hy) (bests_number hl hx), not_lt]
  refine ⟨(bests l).mergeSort fun x y => decide (x.key ≤ y.key), ?_, ?_, ?_⟩
  · have hperm := List.mergeSort_perm (bests l) fun x y => decide (x.key ≤ y.key)
    have hle : ((bests l).mergeSort fun x y => decide (x.key ≤ y.key)).Pairwise
        fun x y => decide (x.key ≤ y.key) = true := by
      refine List.pairwise_mergeSort ?_ ?_ _
      · intro x y z hxy hyz
        exact decide_eq_true ((of_decide_eq_true hxy).trans (of_decide_eq_true hyz))
      · intro x y
        simpa using le_total x.key y.key
    refine (hle.and (hperm.nodup_iff.mpr nodup_bests)).imp_of_mem ?_
    intro x y hx hy hxy
    have hmem : ∀ z, z ∈ (bests l).mergeSort (fun x y => decide (x.key ≤ y.key)) → z ∈ timed l :=
      fun z hz => ((mem_bests hl z).mp (hperm.mem_iff.mp hz)).1
    exact (of_decide_eq_true hxy.1).lt_of_ne fun hkey =>
      hxy.2 (eq_of_key_eq (hmem x hx) (hmem y hy) hkey)
  · intro x
    exact (List.mergeSort_perm _ _).mem_iff
  · unfold ranking
    rw [hsort]

/-- What is in order and holds the best offers is their ranking. -/
theorem ranking_eq (S : List TimedEntry) (hS : S.Pairwise fun x y => x.key < y.key)
    (hmem : ∀ x, x ∈ S ↔ x ∈ bests l) : ranking l = S.map (·.1) := by
  obtain ⟨S', hS', hmem', hranking⟩ := exists_sorted_bests hl
  have hnodup : ∀ T : List TimedEntry, T.Pairwise (fun x y => x.key < y.key) → T.Nodup :=
    fun T hT => hT.imp fun hlt heq => hlt.ne (congrArg key heq)
  have hperm : S'.Perm S := (List.perm_ext_iff_of_nodup (hnodup S' hS') (hnodup S hS)).mpr
    fun x => (hmem' x).trans (hmem x).symm
  rw [hranking, hperm.eq_of_pairwise (fun _ _ _ _ hxy hyx => (lt_asymm hxy hyx).elim) hS' hS]

theorem ranking_ordered : Entry.Ordered (ranking l) := by
  obtain ⟨S, hS, hmem, hranking⟩ := exists_sorted_bests hl
  rw [hranking]
  refine ⟨?_, List.pairwise_map.mpr (hS.imp fun hlt => ?_)⟩
  · intro e he
    obtain ⟨x, hx, rfl⟩ := List.mem_map.mp he
    exact bests_number hl ((hmem x).mp hx)
  · exact TimedEntry.rank_le_of_key_le hlt.le

end Offers

/-! ## One more offer -/

section Concat

variable {l : List Entry} {e : Entry}

theorem timed_concat (l : List Entry) (e : Entry) :
    timed (l ++ [e]) = timed l ++ if e.heuristic < noProgress then [(e, l.length)] else [] := by
  unfold timed
  rw [List.zipIdx_append, List.filter_append, Nat.zero_add, List.zipIdx_singleton,
    List.filter_singleton, Bool.cond_decide]

/-- An offer without progress does not count. -/
theorem ranking_concat_of_not (h : ¬ e.heuristic < noProgress) :
    ranking (l ++ [e]) = ranking l := by
  have htimed : timed (l ++ [e]) = timed l := by
    rw [timed_concat, if_neg h, List.append_nil]
  unfold ranking bests
  rw [htimed]

variable (hl : ∀ f ∈ l, f.IsNumber) (he : e.IsNumber) (hprogress : e.heuristic < noProgress)

include hl he in
theorem number_concat : ∀ f ∈ l ++ [e], f.IsNumber := by
  intro f hf
  rcases List.mem_append.mp hf with hf | hf
  · exact hl f hf
  · rwa [List.mem_singleton.mp hf]

include hprogress in
theorem mem_timed_concat (x : TimedEntry) :
    x ∈ timed (l ++ [e]) ↔ x ∈ timed l ∨ x = (e, l.length) := by
  rw [timed_concat, if_pos hprogress, List.mem_append, List.mem_singleton]

include hl he hprogress

/-- Nothing changes if the program has been offered with a value that is as good. -/
theorem mem_bests_concat_of_not {x : TimedEntry} (hx : x ∈ bests l)
    (hsame : x.1.chromosome.program.statements = e.chromosome.program.statements)
    (hrank : x.1.rank ≤ e.rank) (y : TimedEntry) : y ∈ bests (l ++ [e]) ↔ y ∈ bests l := by
  have hxmem := ((mem_bests hl x).mp hx).1
  have hkey : x.key < key (e, l.length) := TimedEntry.key_lt_of_time_lt hrank (time_lt hxmem)
  rw [mem_bests (number_concat hl he), mem_bests hl]
  simp only [mem_timed_concat hprogress]
  constructor
  · rintro ⟨hy | rfl, hleast⟩
    · exact ⟨hy, fun z hz => hleast z (Or.inl hz)⟩
    · exact absurd (hleast x (Or.inl hxmem) hsame) (not_le.mpr hkey)
  · rintro ⟨hy, hleast⟩
    refine ⟨Or.inl hy, ?_⟩
    rintro z (hz | rfl) hzy
    · exact hleast z hz hzy
    · exact (hleast x hxmem (hsame.trans hzy)).trans hkey.le

/-- An offer that is better than all of the same program takes their place. -/
theorem mem_bests_concat (hbetter : ∀ x ∈ bests l,
      x.1.chromosome.program.statements = e.chromosome.program.statements → e.rank < x.1.rank)
    (y : TimedEntry) : y ∈ bests (l ++ [e]) ↔ y = (e, l.length) ∨ (y ∈ bests l ∧
      y.1.chromosome.program.statements ≠ e.chromosome.program.statements) := by
  rw [mem_bests (number_concat hl he)]
  simp only [mem_timed_concat hprogress]
  constructor
  · rintro ⟨hy | rfl, hleast⟩
    · have hbest := (mem_bests hl y).mpr ⟨hy, fun z hz => hleast z (Or.inl hz)⟩
      refine Or.inr ⟨hbest, fun hsame => ?_⟩
      have hlt : key (e, l.length) < y.key := TimedEntry.key_lt_of_rank_lt (hbetter y hbest hsame)
      exact absurd (hleast _ (Or.inr rfl) hsame.symm) (not_le.mpr hlt)
    · exact Or.inl rfl
  · rintro (rfl | ⟨hy, hne⟩)
    · refine ⟨Or.inr rfl, ?_⟩
      rintro z (hz | rfl) hsame
      · obtain ⟨x, hx, hxz, hle⟩ := exists_best hl hz
        have hlt : key (e, l.length) < x.key :=
          TimedEntry.key_lt_of_rank_lt (hbetter x hx (hxz.trans hsame))
        exact hlt.le.trans hle
      · exact le_refl (key (e, l.length))
    · obtain ⟨hmem, hleast⟩ := (mem_bests hl y).mp hy
      refine ⟨Or.inl hmem, ?_⟩
      rintro z (hz | rfl) hsame
      · exact hleast z hz hsame
      · exact absurd hsame.symm hne

omit hl he hprogress in
/-- Where the property singles out one element, that one is erased. -/
theorem mem_eraseP_iff {α : Type} {p : α → Bool} {S : List α} (hnodup : S.Nodup)
    (hunique : ∀ x ∈ S, ∀ y ∈ S, p x = true → p y = true → x = y) (x : α) :
    x ∈ S.eraseP p ↔ x ∈ S ∧ ¬ p x = true := by
  constructor
  · intro hx
    have hmem := List.mem_of_mem_eraseP hx
    refine ⟨hmem, fun hp => ?_⟩
    obtain ⟨y, A, B, hA, hy, rfl, herase⟩ := List.exists_of_eraseP hmem hp
    obtain rfl := hunique x hmem y (by simp) hp hy
    rw [herase] at hx
    rw [List.nodup_append, List.nodup_cons] at hnodup
    rcases List.mem_append.mp hx with hx | hx
    · exact hA x hx hp
    · exact hnodup.2.1.1 hx
  · rintro ⟨hmem, hp⟩
    exact (List.mem_eraseP_of_neg hp).mpr hmem

omit hl hprogress in
/-- Insertion into offers that are in order and earlier puts the new one at its place. -/
theorem exists_insert (n : Nat) (F : List TimedEntry) (hF : F.Pairwise fun x y => x.key < y.key)
    (hearlier : ∀ x ∈ F, x.1.IsNumber ∧ x.2 < n) :
    ∃ S : List TimedEntry, S.Pairwise (fun x y => x.key < y.key) ∧
      (∀ x, x ∈ S ↔ x = (e, n) ∨ x ∈ F) ∧ S.map (·.1) = e.insert (F.map (·.1)) := by
  induction F with
  | nil => exact ⟨[(e, n)], List.pairwise_singleton _ _, fun x => by simp, rfl⟩
  | cons f rest ih =>
    obtain ⟨hfirst, hrest⟩ := List.pairwise_cons.mp hF
    obtain ⟨hnumber, htime⟩ := hearlier f List.mem_cons_self
    cases hbefore : e.ranksBefore f.1 with
    | true =>
      have hlt : key (e, n) < f.key :=
        TimedEntry.key_lt_of_rank_lt ((Entry.ranksBefore_iff he hnumber).mp hbefore)
      refine ⟨(e, n) :: f :: rest, List.pairwise_cons.mpr ⟨?_, hF⟩, fun x => List.mem_cons, ?_⟩
      · intro x hx
        rcases List.mem_cons.mp hx with rfl | hx
        · exact hlt
        · exact hlt.trans (hfirst x hx)
      · exact (if_pos hbefore).symm
    | false =>
      have hlt : f.key < key (e, n) :=
        TimedEntry.key_lt_of_time_lt ((Entry.not_ranksBefore_iff he hnumber).mp hbefore) htime
      obtain ⟨S, hS, hmem, hmap⟩ := ih hrest fun x hx => hearlier x (List.mem_cons_of_mem f hx)
      refine ⟨f :: S, List.pairwise_cons.mpr ⟨?_, hS⟩, ?_, ?_⟩
      · intro x hx
        rcases (hmem x).mp hx with rfl | hx
        · exact hlt
        · exact hfirst x hx
      · intro x
        rw [List.mem_cons, hmem, List.mem_cons]
        exact or_left_comm
      · rw [List.map_cons, hmap, List.map_cons, Entry.insert, hbefore, if_neg Bool.false_ne_true]

/-- One more offer advances the ranking. -/
theorem ranking_concat : ranking (l ++ [e]) = e.advance (ranking l) := by
  have hnumber := number_concat hl he
  obtain ⟨S, hS, hmem, hranking⟩ := exists_sorted_bests hl
  have hearlier : ∀ x ∈ S, x.1.IsNumber ∧ x.2 < l.length := fun x hx =>
    ⟨bests_number hl ((hmem x).mp hx), time_lt ((mem_bests hl x).mp ((hmem x).mp hx)).1⟩
  rw [hranking, Entry.advance, List.find?_map]
  cases hfind : S.find? (e.sameProgram ∘ (·.1)) with
  | none =>
    have hother : ∀ x ∈ S,
        x.1.chromosome.program.statements ≠ e.chromosome.program.statements := by
      intro x hx hsame
      have hnot := List.find?_eq_none.mp hfind x hx
      exact hnot ((Entry.sameProgram_iff e x.1).mpr hsame)
    obtain ⟨S', hS', hmem', hmap⟩ := exists_insert he l.length S hS hearlier
    rw [ranking_eq hnumber S' hS', hmap]
    · rfl
    · intro x
      rw [hmem', mem_bests_concat hl he hprogress, hmem]
      · refine or_congr_right ⟨fun hx => ⟨hx, hother x ((hmem x).mpr hx)⟩, fun hx => hx.1⟩
      · intro y hy hsame
        exact absurd hsame (hother y ((hmem y).mpr hy))
  | some old =>
    have holdmem := (hmem old).mp (List.mem_of_find?_eq_some hfind)
    have hsame : e.sameProgram old.1 = true := by simpa using List.find?_some hfind
    have holdsame := (Entry.sameProgram_iff e old.1).mp hsame
    have holdnumber := bests_number hl holdmem
    rw [Option.map_some]
    dsimp only
    cases hbefore : e.ranksBefore old.1 with
    | false =>
      have hrank := (Entry.not_ranksBefore_iff he holdnumber).mp hbefore
      rw [if_neg Bool.false_ne_true]
      refine ranking_eq hnumber S hS fun x => ?_
      rw [hmem, mem_bests_concat_of_not hl he hprogress holdmem holdsame hrank]
    | true =>
      have hrank := (Entry.ranksBefore_iff he holdnumber).mp hbefore
      have hbetter : ∀ x ∈ bests l,
          x.1.chromosome.program.statements = e.chromosome.program.statements →
            e.rank < x.1.rank := by
        intro x hx hxsame
        rwa [best_unique hl hx holdmem (hxsame.trans holdsame.symm)]
      have hrest : ∀ x, x ∈ S.eraseP (e.sameProgram ∘ (·.1)) ↔ x ∈ bests l ∧
          x.1.chromosome.program.statements ≠ e.chromosome.program.statements := by
        intro x
        rw [mem_eraseP_iff (hS.imp fun hlt heq => hlt.ne (congrArg key heq)), hmem,
          Function.comp_apply, Entry.sameProgram_iff]
        intro y hy z hz hysame hzsame
        have hysame := (Entry.sameProgram_iff e y.1).mp hysame
        have hzsame := (Entry.sameProgram_iff e z.1).mp hzsame
        exact best_unique hl ((hmem y).mp hy) ((hmem z).mp hz) (hysame.trans hzsame.symm)
      obtain ⟨S', hS', hmem', hmap⟩ := exists_insert he l.length _ (hS.sublist List.eraseP_sublist)
        fun x hx => hearlier x (List.mem_of_mem_eraseP hx)
      rw [if_pos rfl, List.eraseP_map, ranking_eq hnumber S' hS', hmap]
      intro x
      rw [hmem', mem_bests_concat hl he hprogress hbetter, hrest]

end Concat

/-! ## What a population keeps -/

namespace Population

/-- The first `m` entries are the first ones of the ranking as long as the goal is open. -/
structure Ranked (m : Nat) (l : List Entry) (k : Nat) (p : Population) : Prop where
  room : p.entries.length ≤ k
  ordered : Entry.Ordered p.entries
  best : p.covering = none → p.entries.take m = (ranking l).take m

variable {m k : Nat} {l : List Entry} {p : Population}

/-- Both sides of what is kept advance alike. -/
theorem Ranked.take_advance (h : p.Ranked m l k) (hl : ∀ f ∈ l, f.IsNumber) (hm : m ≤ k)
    (hopen : p.covering = none) {e : Entry} (he : e.IsNumber)
    (hprogress : e.heuristic < noProgress) :
    ((e.advance p.entries).take k).take m = (ranking (l ++ [e])).take m :=
  calc ((e.advance p.entries).take k).take m
      = (e.advance p.entries).take m := by rw [List.take_take, Nat.min_eq_left hm]
    _ = (e.advance (p.entries.take m)).take m := Entry.take_advance he h.ordered m
    _ = (e.advance ((ranking l).take m)).take m := by rw [h.best hopen]
    _ = (e.advance (ranking l)).take m := (Entry.take_advance he (ranking_ordered hl) m).symm
    _ = (ranking (l ++ [e])).take m := by rw [ranking_concat hl he hprogress]

theorem Ranked.offer (h : p.Ranked m l k) (hl : ∀ e ∈ l, e.IsNumber) (hm : m ≤ k) (c : Chromosome)
    (x : Float) (hx : x.isNaN = false) : (p.offer c x k).1.Ranked m (l ++ [⟨x, c.copy⟩]) k := by
  have he : Entry.IsNumber ⟨x, c.copy⟩ := hx
  have hcovered : p.covering.isSome = true → p.Ranked m (l ++ [⟨x, c.copy⟩]) k := by
    intro hsome
    refine ⟨h.room, h.ordered, fun hnone => ?_⟩
    rw [hnone] at hsome
    cases hsome
  unfold Population.offer
  split
  · unfold offerCovering
    split
    · exact ⟨Nat.zero_le k, .nil, nofun⟩
    · next hlonger =>
      refine hcovered ?_
      cases hc : p.covering with
      | none => exact absurd (hc ▸ rfl) hlonger
      | some old => rfl
  · cases hc : p.covering with
    | some old =>
      unfold offerPartial
      rw [hc, Option.isSome_some, Bool.true_or, if_pos rfl]
      exact hcovered (hc ▸ rfl)
    | none =>
      by_cases hprogress : noProgress ≤ x
      · have hnot : ¬ Entry.heuristic ⟨x, c.copy⟩ < noProgress :=
          (Scalar.not_lt_iff hx (by decide)).mpr hprogress
        unfold offerPartial
        rw [hc, decide_eq_true hprogress, Bool.or_true, if_pos rfl]
        refine ⟨h.room, h.ordered, fun _ => ?_⟩
        rw [ranking_concat_of_not hnot]
        exact h.best hc
      · have hlt : Entry.heuristic ⟨x, c.copy⟩ < noProgress :=
          not_not.mp fun hnot => hprogress ((Scalar.not_lt_iff hx (by decide)).mp hnot)
        have hentries := p.offerPartial_entries c x hx hc hprogress h.ordered h.room
        refine ⟨?_, ?_, fun _ => ?_⟩
        · rw [hentries]
          exact List.length_take_le k _
        · rw [hentries]
          exact (Entry.advance_ordered he h.ordered).sublist (List.take_sublist k _)
        · rw [hentries]
          exact h.take_advance hl hm hc he hlt

/-- The first entries of a population are those of the ranking of all that was offered. -/
theorem Formed.ranked (h : p.Formed m l k) (hl : ∀ e ∈ l, e.IsNumber) : p.Ranked m l k := by
  induction h with
  | empty k hk =>
    refine ⟨Nat.zero_le k, .nil, fun _ => ?_⟩
    rw [ranking_eq hl [] List.Pairwise.nil fun _ => Iff.rfl]
    rfl
  | offer c x hformed _ ih =>
    have hbefore := fun e he => hl e (List.mem_append_left _ he)
    exact (ih hbefore).offer hbefore hformed.le_capacity c x
      (hl ⟨x, c.copy⟩ (List.mem_append_right _ (List.mem_singleton.mpr rfl)))
  | draw n _ ih =>
    have hranked := ih hl
    exact ⟨hranked.room, hranked.ordered, hranked.best⟩
  | shrink n _ hn ih =>
    have hranked := ih hl
    refine ⟨List.length_take_le n _, hranked.ordered.sublist (List.take_sublist n _), ?_⟩
    intro hopen
    show (List.take n _).take m = _
    rw [List.take_take, Nat.min_eq_left hn]
    exact hranked.best hopen

end Population

/-! ## What an archive keeps -/

namespace Archive

variable {ω : Type} [WordSource ω]

/-- As long as a goal is open and the capacity never goes up, what is kept for the goal are the
first candidates of the ranking of all that was offered, as many as there is room for. -/
theorem entries_eq_take_ranking (goals : List GoalId) (capacity : Nat)
    (calls : List (ArchiveCall ω)) (g : GoalId) (hg : g ∈ goals)
    (hcapacity : (ofGoals goals capacity).NeverRaised calls)
    (hnumbers : ∀ e ∈ offered g calls, e.heuristic.isNaN = false)
    (hopen : g ∉ ((ofGoals goals capacity).performAll calls).coveredGoals) :
    ∃ p, ((ofGoals goals capacity).performAll calls).population? g = some p ∧
      p.entries =
        (ranking (offered g calls)).take ((ofGoals goals capacity).performAll calls).capacity := by
  obtain ⟨p, hp⟩ := exists_population goals capacity calls hg
  have hranked := (formed_performAll goals capacity calls hcapacity.roomFor g p hp).ranked hnumbers
  have hnone : p.covering = none := by
    rw [← Option.not_isSome_iff_eq_none]
    exact fun hsome => hopen ((mem_coveredGoals _ g).mpr ⟨p, hp, hsome⟩)
  refine ⟨p, population?_performAll goals capacity calls hp, ?_⟩
  rw [← hranked.best hnone, List.take_of_length_le hranked.room]

/-- A candidate of so many allocations. -/
def allocations (n : Nat) : Chromosome :=
  .ofProgram { Program.empty with statements := List.replicate n (.allocate .int 0) }

/-- Two programs are offered, the longer one again with a better value, and one has to go. -/
def twoOffers : List (ArchiveCall Random.Scripted) :=
  [.update (allocations 2) { Evaluation.empty with heuristics := [(7, 0.5)] },
    .update (allocations 1) { Evaluation.empty with heuristics := [(7, 0.5)] },
    .solution ⟨[], 0⟩,
    .update (allocations 2) { Evaluation.empty with heuristics := [(7, 0.25)] },
    .shrink 0]

theorem entries_eq_take_ranking_twoOffers :
    7 ∉ ((ofGoals [7] 2).performAll twoOffers).coveredGoals ∧
      ∃ p, ((ofGoals [7] 2).performAll twoOffers).population? 7 = some p ∧
        p.entries = (ranking (offered 7 twoOffers)).take 1 := by
  have hcapacity : (ofGoals [7] 2).NeverRaised twoOffers := by
    simp only [twoOffers, NeverRaised]
    decide
  have hnumbers : ∀ e ∈ offered 7 twoOffers, e.heuristic.isNaN = false := by decide
  have hopen : 7 ∉ ((ofGoals [7] 2).performAll twoOffers).coveredGoals := by decide
  exact ⟨hopen, entries_eq_take_ranking [7] 2 twoOffers 7 (by decide) hcapacity hnumbers hopen⟩

end Archive

end SuiteSearch
