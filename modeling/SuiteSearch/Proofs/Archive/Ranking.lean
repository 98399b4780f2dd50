import SuiteSearch.Proofs.Archive.Population
import SuiteSearch.Proofs.Scalar.Order

/-!
# The order in which candidates are kept

Entries with numbers for values are ordered by their ranks. An offer to a list that is in order and
not bounded is an `advance`; what is offered to a population advances its list and cuts it off at
the capacity. Cutting off more does not change what an offer makes of the entries that remain.

    ranksBefore_iff        a.ranksBefore b ↔ a.rank < b.rank
    offerPartial_entries   an offer advances the list up to the capacity
    take_advance           (advance e l).take m = (advance e (l.take m)).take m
-/

namespace SuiteSearch

namespace Entry

/-! ## Ranks -/

/-- The value is a number. -/
def IsNumber (e : Entry) : Prop := e.heuristic.isNaN = false

/-- The place of the value, then the length. -/
def rank (e : Entry) : (Int ×ₗ Int ×ₗ Int) ×ₗ Nat :=
  toLex (Scalar.place e.heuristic, e.chromosome.length)

theorem ranksBefore_iff {e f : Entry} (he : e.IsNumber) (hf : f.IsNumber) :
    e.ranksBefore f = true ↔ e.rank < f.rank := by
  unfold ranksBefore rank
  rw [Bool.or_eq_true, Bool.and_eq_true, Prod.Lex.toLex_lt_toLex, decide_eq_true_iff,
    decide_eq_true_iff, Scalar.lt_iff he hf, Scalar.beq_iff he hf]

theorem not_ranksBefore_iff {e f : Entry} (he : e.IsNumber) (hf : f.IsNumber) :
    e.ranksBefore f = false ↔ f.rank ≤ e.rank := by
  rw [← Bool.not_eq_true, ranksBefore_iff he hf, not_lt]

/-- What has a rank that is no greater has a value that is no greater. -/
theorem le_of_rank_le {e f : Entry} (he : e.IsNumber) (hf : f.IsNumber) (h : e.rank ≤ f.rank) :
    e.heuristic ≤ f.heuristic := by
  rw [Scalar.le_iff he hf]
  rcases Prod.Lex.toLex_le_toLex.mp h with hlt | ⟨heq, -⟩
  · exact hlt.le
  · exact heq.le

/-- Numbers in order. -/
structure Ordered (l : List Entry) : Prop where
  numbers : ∀ e ∈ l, e.IsNumber
  sorted : l.Pairwise fun e f => e.rank ≤ f.rank

theorem Ordered.nil : Ordered [] := ⟨nofun, List.Pairwise.nil⟩

theorem Ordered.sublist {l l' : List Entry} (h : Ordered l) (hsub : l'.Sublist l) : Ordered l' :=
  ⟨fun e he => h.numbers e (hsub.subset he), h.sorted.sublist hsub⟩

/-- What comes before is ranked no later. -/
theorem Ordered.le_of_append {l r : List Entry} (h : Ordered (l ++ r)) {e f : Entry} (he : e ∈ l)
    (hf : f ∈ r) : e.rank ≤ f.rank :=
  (List.pairwise_append.mp h.sorted).2.2 e he f hf

/-! ## Insertion -/

variable {e : Entry} {l r : List Entry}

theorem insert_ordered (he : e.IsNumber) (h : Ordered l) : Ordered (e.insert l) := by
  have hnumbers : ∀ f ∈ e.insert l, f.IsNumber := by
    intro f hf
    rcases Population.mem_insert e f l hf with rfl | hf
    · exact he
    · exact h.numbers f hf
  refine ⟨hnumbers, ?_⟩
  clear hnumbers
  induction l with
  | nil => exact List.pairwise_singleton _ _
  | cons f rest ih =>
    obtain ⟨hf, hrest⟩ := List.pairwise_cons.mp h.sorted
    have hnumber := h.numbers f List.mem_cons_self
    unfold insert
    split
    · next hbefore =>
      have hlt := (ranksBefore_iff he hnumber).mp hbefore
      refine List.pairwise_cons.mpr ⟨?_, h.sorted⟩
      intro g hg
      rcases List.mem_cons.mp hg with rfl | hg
      · exact hlt.le
      · exact hlt.le.trans (hf g hg)
    · next hbefore =>
      have hle := (not_ranksBefore_iff he hnumber).mp (Bool.eq_false_iff.mpr hbefore)
      refine List.pairwise_cons.mpr ⟨?_, ih (h.sublist (List.sublist_cons_self f rest))⟩
      intro g hg
      rcases Population.mem_insert e g rest hg with rfl | hg
      · exact hle
      · exact hf g hg

theorem length_insert (e : Entry) (l : List Entry) : (e.insert l).length = l.length + 1 := by
  induction l with
  | nil => rfl
  | cons f rest ih =>
    unfold insert
    split
    · rfl
    · rw [List.length_cons, ih, List.length_cons]

/-- An entry that ranks before all that follows does not touch it. -/
theorem insert_append_of_before (h : ∀ f ∈ r, e.ranksBefore f = true) :
    e.insert (l ++ r) = e.insert l ++ r := by
  induction l with
  | nil =>
    cases r with
    | nil => rfl
    | cons f rest => exact if_pos (h f List.mem_cons_self)
  | cons f rest ih =>
    rw [List.cons_append]
    unfold insert
    split
    · rfl
    · rw [ih, List.cons_append]

/-- An entry that ranks before none of the first ones goes behind them. -/
theorem insert_append_of_not (h : ∀ f ∈ l, e.ranksBefore f = false) :
    e.insert (l ++ r) = l ++ e.insert r := by
  induction l with
  | nil => rfl
  | cons f rest ih =>
    rw [List.cons_append, insert, h f List.mem_cons_self, if_neg Bool.false_ne_true,
      ih fun g hg => h g (List.mem_cons_of_mem f hg), List.cons_append]

/-- What lies behind the first entries does not matter to them. -/
theorem take_insert_append (e : Entry) (l r : List Entry) :
    (e.insert (l ++ r)).take l.length = (e.insert l).take l.length := by
  induction l with
  | nil => rfl
  | cons f rest ih =>
    rw [List.cons_append]
    unfold insert
    split
    · rw [List.length_cons, List.take_succ_cons, List.take_succ_cons, ← List.cons_append]
      rw [List.take_append_of_le_length (by rw [List.length_cons]; omega)]
    · rw [List.length_cons, List.take_succ_cons, List.take_succ_cons, ih]

/-- The first entries stay if the one that is put in ranks before none of them. -/
theorem take_insert_of_not (h : ∀ f ∈ l, e.ranksBefore f = false) :
    (e.insert (l ++ r)).take l.length = l := by
  rw [insert_append_of_not h, List.take_left]

/-! ## Offers to a list that is not bounded -/

/-- Whether two candidates have the same program. -/
def sameProgram (e f : Entry) : Bool := f.chromosome.program.sameStatements e.chromosome.program

/-- The list after an offer: an entry of the same program makes way for a better one. -/
def advance (e : Entry) (l : List Entry) : List Entry :=
  match l.find? e.sameProgram with
  | some old => if e.ranksBefore old then e.insert (l.eraseP e.sameProgram) else l
  | none => e.insert l

theorem advance_ordered (he : e.IsNumber) (h : Ordered l) : Ordered (advance e l) := by
  unfold advance
  split
  · split
    · exact insert_ordered he (h.sublist List.eraseP_sublist)
    · exact h
  · exact insert_ordered he h

/-- Of the list up to any length an offer makes what it makes of the whole list. -/
theorem take_advance (he : e.IsNumber) (h : Ordered l) (m : Nat) :
    (advance e l).take m = (advance e (l.take m)).take m := by
  obtain ⟨P, D, hP, hl, hD⟩ : ∃ P D, l.take m = P ∧ l = P ++ D ∧ (D = [] ∨ P.length = m) := by
    refine ⟨l.take m, l.drop m, rfl, (List.take_append_drop m l).symm, ?_⟩
    rw [List.drop_eq_nil_iff, List.length_take]
    omega
  rw [hP]
  subst hl
  clear hP
  -- Without a remainder there is nothing to show.
  rcases hD with rfl | rfl
  · rw [List.append_nil]
  have hPnumber : ∀ f ∈ P, f.IsNumber := fun f hf => h.numbers f (List.mem_append_left D hf)
  have hDnumber : ∀ f ∈ D, f.IsNumber := fun f hf => h.numbers f (List.mem_append_right P hf)
  unfold advance
  rw [List.find?_append]
  cases hfirst : P.find? e.sameProgram with
  | some old =>
    have hmem := List.mem_of_find?_eq_some hfirst
    have hsame := List.find?_some hfirst
    rw [Option.some_or]
    dsimp only
    split
    · next hbefore =>
      -- The new entry comes before the old one, and so before the remainder.
      have hlt := (ranksBefore_iff he (hPnumber old hmem)).mp hbefore
      have hrest : ∀ f ∈ D, e.ranksBefore f = true := fun f hf =>
        (ranksBefore_iff he (hDnumber f hf)).mpr (hlt.trans_le (h.le_of_append hmem hf))
      have hlength : (e.insert (P.eraseP e.sameProgram)).length = P.length := by
        have hpos := List.length_pos_of_mem hmem
        rw [length_insert, List.length_eraseP_of_mem hmem hsame]
        omega
      rw [List.eraseP_append_left hsame D hmem, insert_append_of_before hrest, ← hlength,
        List.take_left, List.take_length]
    · rw [List.take_left, List.take_length]
  | none =>
    rw [Option.none_or]
    cases hlast : D.find? e.sameProgram with
    | none =>
      dsimp only
      exact take_insert_append e P D
    | some old =>
      have hmem := List.mem_of_find?_eq_some hlast
      dsimp only
      split
      · rw [List.eraseP_append_right D (by simpa using hfirst)]
        exact take_insert_append e P _
      · next hbefore =>
        -- The old entry stays behind the first ones, and the new one would come after it.
        have hle := (not_ranksBefore_iff he (hDnumber old hmem)).mp (Bool.eq_false_iff.mpr hbefore)
        have hnot : ∀ f ∈ P, e.ranksBefore f = false := fun f hf =>
          (not_ranksBefore_iff he (hPnumber f hf)).mpr ((h.le_of_append hf hmem).trans hle)
        have hstays := take_insert_of_not (r := []) hnot
        rw [List.append_nil] at hstays
        rw [List.take_left, hstays]

end Entry

/-! ## Offers to a population -/

namespace Population

variable {e : Entry} {l : List Entry} {k : Nat}

/-- Only an entry that would be cut off is not put in. -/
theorem enter_eq (he : e.IsNumber) (h : Entry.Ordered l) (hlength : l.length ≤ k) :
    (enter l e k).getD l = (e.insert l).take k := by
  unfold enter
  split
  · rfl
  · next hfull =>
    rw [Bool.or_eq_true, not_or, decide_eq_true_iff] at hfull
    obtain ⟨hroom, hlast⟩ := hfull
    have hk : k = l.length := by omega
    have hnot : ∀ f ∈ l, e.ranksBefore f = false := by
      intro f hf
      rcases List.eq_nil_or_concat l with rfl | ⟨front, last, rfl⟩
      · cases hf
      · have hnumber := h.numbers last (by simp)
        have hnext : e.ranksBefore last = false := by simpa using hlast
        have hle := (Entry.not_ranksBefore_iff he hnumber).mp hnext
        rw [List.concat_eq_append] at hf h
        refine (Entry.not_ranksBefore_iff he (h.numbers f hf)).mpr (le_trans ?_ hle)
        rcases List.mem_append.mp hf with hf | hf
        · exact h.le_of_append hf (List.mem_singleton.mpr rfl)
        · rw [List.mem_singleton.mp hf]
    have hstays := Entry.take_insert_of_not (r := []) hnot
    rw [List.append_nil] at hstays
    rw [hk, hstays]
    rfl

/-- A candidate that makes progress advances the list, which is cut off at the capacity. -/
theorem offerPartial_entries (p : Population) (c : Chromosome) (x : Float)
    (hx : x.isNaN = false) (hopen : p.covering = none) (hprogress : ¬ noProgress ≤ x)
    (h : Entry.Ordered p.entries) (hlength : p.entries.length ≤ k) :
    (p.offerPartial c x k).1.entries = (Entry.advance ⟨x, c.copy⟩ p.entries).take k := by
  have hnot : ¬ (p.covering.isSome || noProgress ≤ x) = true := by
    rw [hopen]
    simpa using hprogress
  have he : Entry.IsNumber ⟨x, c.copy⟩ := hx
  have hsame : (fun f : Entry => f.chromosome.program.sameStatements c.program) =
      Entry.sameProgram ⟨x, c.copy⟩ := rfl
  unfold offerPartial Entry.advance
  rw [if_neg hnot]
  dsimp only
  rw [hsame]
  cases hfind : p.entries.find? (Entry.sameProgram ⟨x, c.copy⟩) with
  | none =>
    dsimp only
    rw [← enter_eq he h hlength]
    cases enter p.entries ⟨x, c.copy⟩ k <;> rfl
  | some old =>
    dsimp only
    cases Entry.ranksBefore ⟨x, c.copy⟩ old with
    | false =>
      rw [Bool.not_false, if_pos rfl, if_neg Bool.false_ne_true, List.take_of_length_le hlength]
    | true =>
      rw [Bool.not_true, if_neg Bool.false_ne_true, if_pos rfl]
      have hothers := h.sublist (List.eraseP_sublist (p := Entry.sameProgram ⟨x, c.copy⟩))
      have hshorter := List.length_eraseP_le (p := Entry.sameProgram ⟨x, c.copy⟩) (l := p.entries)
      rw [← enter_eq he hothers (hshorter.trans hlength)]
      cases enter (p.entries.eraseP (Entry.sameProgram ⟨x, c.copy⟩)) ⟨x, c.copy⟩ k <;> rfl

end Population

end SuiteSearch
