import SuiteSearch.Proofs.Program.Renumbering

/-!
# Splicing statements in

Insertions one after the other put a block of statements in at one place.  `splice` says at once
what they come to: the statements before the place are untouched, those after it are renumbered by
the length of the block.

    p.Sound                          valid, and no assertion is about a position past the end
    insert s i                       is a splice of one statement, or a fault of counting
    splice i new, then splice more   is one splice of both blocks
    splice i (s :: new), remove i    is a splice of the rest
-/

namespace SuiteSearch.Program

/-! ## Algorithm -/

/-- Where a position moves to when `count` statements are put in. -/
def shiftBy (start count i : Nat) : Option Nat := some (if start ≤ i then i + count else i)

/-- The statements with a block put in. -/
def spliced (l : List Statement) (start : Nat) (new : List Statement) : List Statement :=
  l.take start ++ new ++ (l.drop start).map (·.remap (shiftBy start new.length))

/-- The program with a block of statements put in. -/
def splice (p : Program) (start : Nat) (new : List Statement) : Program :=
  { p with statements := spliced p.statements start new }

/-- Valid, and every assertion is about a value that is gone or lies inside the program. -/
structure Sound (p : Program) : Prop where
  valid : p.isValid = true
  inside : ∀ s ∈ p.statements, ∀ a ∈ s.assertions, a.source.Inside p.length

/-- Statements that can be put in: well formed where they come to stand, without assertions. -/
def Placeable (start : Nat) (new : List Statement) : Prop :=
  ∀ (i : Nat) (s : Statement), new[i]? = some s →
    s.isValid (start + i) = true ∧ s.assertions = []

/-! ## Lemmas -/

theorem Sound.inside_of_mentions {p : Program} (hp : p.Sound) (i : Nat) (s : Statement)
    (hs : p.statements[i]? = some s) (r : Ref) (hr : s.Mentions r) : r.Inside p.length := by
  rcases hr with hr | ⟨a, ha, rfl⟩
  · obtain ⟨b, hb, hbr⟩ := base_of_isValid hp.valid hs hr
    have hi := (List.getElem?_eq_some_iff.mp hs).1
    exact Or.inr ⟨b, Nat.lt_trans hb hi, hbr⟩
  · exact hp.inside s (List.mem_of_getElem? hs) a ha

/-- A statement among the first ones of a list stands where it stands in the list. -/
theorem getElem?_of_take {l : List Statement} {n i : Nat} {s : Statement}
    (h : (l.take n)[i]? = some s) : i < n ∧ l[i]? = some s := by
  have hlt := (List.getElem?_eq_some_iff.mp h).1
  rw [List.length_take] at hlt
  refine ⟨by omega, ?_⟩
  rwa [List.getElem?_take_of_lt (by omega)] at h

theorem shiftBy_lt (start count i : Nat) (h : i < start) : shiftBy start count i = some i := by
  rw [shiftBy, if_neg (by omega)]

theorem shiftBy_ge (start count i : Nat) (h : start ≤ i) :
    shiftBy start count i = some (i + count) := by
  rw [shiftBy, if_pos h]

theorem shiftBy_zero (start : Nat) : shiftBy start 0 = some := by
  funext i
  simp [shiftBy]

theorem shiftBy_shiftBy (start m n : Nat) :
    (fun i => (shiftBy start m i).bind (shiftBy (start + m) n)) = shiftBy start (m + n) := by
  funext i
  by_cases h : start ≤ i
  · rw [shiftBy_ge _ _ _ h, shiftBy_ge _ _ _ h, Option.bind_some, shiftBy_ge _ _ _ (by omega),
      Nat.add_assoc]
  · rw [shiftBy_lt _ _ _ (by omega), shiftBy_lt _ _ _ (by omega), Option.bind_some,
      shiftBy_lt _ _ _ (by omega)]

theorem shiftBy_shiftDown (start n : Nat) :
    (fun i => (shiftBy start (n + 1) i).bind (shiftDown start)) = shiftBy start n := by
  funext i
  by_cases h : start ≤ i
  · rw [shiftBy_ge _ _ _ h, shiftBy_ge _ _ _ h, Option.bind_some, shiftDown, if_neg (by omega),
      if_neg (by omega)]
    rfl
  · rw [shiftBy_lt _ _ _ (by omega), shiftBy_lt _ _ _ (by omega), Option.bind_some, shiftDown,
      if_pos (by omega)]

section
variable (l : List Statement) (start : Nat) (new : List Statement) (hstart : start ≤ l.length)
include hstart

theorem length_take : (l.take start).length = start := by
  rw [List.length_take, Nat.min_eq_left hstart]

theorem length_spliced : (spliced l start new).length = l.length + new.length := by
  simp only [spliced, List.length_append, List.length_map, List.length_drop,
    length_take l start hstart]
  omega

theorem take_spliced (i : Nat) (hi : i ≤ new.length) :
    (spliced l start new).take (start + i) = l.take start ++ new.take i := by
  rw [spliced, List.append_assoc, List.take_append, length_take l start hstart,
    Nat.add_sub_cancel_left, List.take_append_of_le_length hi, List.take_take,
    Nat.min_eq_right (by omega)]

theorem drop_spliced :
    (spliced l start new).drop (start + new.length) =
      (l.drop start).map (·.remap (shiftBy start new.length)) := by
  have hlen : (l.take start ++ new).length = start + new.length := by
    rw [List.length_append, length_take l start hstart]
  rw [spliced, ← hlen, List.drop_left]

theorem getElem?_spliced_lt (i : Nat) (hi : i < start) : (spliced l start new)[i]? = l[i]? := by
  have h := congrArg (·[i]?) (take_spliced l start new hstart 0 (Nat.zero_le _))
  simpa [List.getElem?_take, hi] using h

theorem getElem?_spliced_new (i : Nat) (hi : i < new.length) :
    (spliced l start new)[start + i]? = new[i]? := by
  have hlen := length_take l start hstart
  rw [spliced, List.append_assoc, List.getElem?_append_right (by omega), hlen,
    Nat.add_sub_cancel_left, List.getElem?_append_left hi]

theorem getElem?_spliced_ge (i : Nat) (hi : start ≤ i) :
    (spliced l start new)[i + new.length]? =
      l[i]?.map (·.remap (shiftBy start new.length)) := by
  have h := congrArg (·[i - start]?) (drop_spliced l start new hstart)
  simp only [List.getElem?_drop, List.getElem?_map] at h
  rw [show start + new.length + (i - start) = i + new.length by omega,
    show start + (i - start) = i by omega] at h
  exact h

/-- A statement after a splice stood before it, is new, or stood after it. -/
theorem getElem?_spliced_cases (j : Nat) (s : Statement) (h : (spliced l start new)[j]? = some s) :
    (j < start ∧ l[j]? = some s) ∨
      (∃ i, j = start + i ∧ i < new.length ∧ new[i]? = some s) ∨
      ∃ i t, start ≤ i ∧ j = i + new.length ∧ l[i]? = some t ∧
        s = t.remap (shiftBy start new.length) := by
  by_cases hj : j < start
  · rw [getElem?_spliced_lt l start new hstart j hj] at h
    exact Or.inl ⟨hj, h⟩
  · by_cases hk : j - start < new.length
    · obtain ⟨i, rfl⟩ : ∃ i, j = start + i := ⟨j - start, by omega⟩
      have hi : i < new.length := by omega
      rw [getElem?_spliced_new l start new hstart i hi] at h
      exact Or.inr (Or.inl ⟨i, rfl, hi, h⟩)
    · obtain ⟨i, rfl⟩ : ∃ i, j = i + new.length := ⟨j - new.length, by omega⟩
      have hi : start ≤ i := by omega
      rw [getElem?_spliced_ge l start new hstart i hi, Option.map_eq_some_iff] at h
      obtain ⟨t, ht, rfl⟩ := h
      exact Or.inr (Or.inr ⟨i, t, hi, rfl, ht, rfl⟩)

theorem spliced_spliced (more : List Statement) :
    spliced (spliced l start new) (start + new.length) more = spliced l start (new ++ more) := by
  have htake := take_spliced l start new hstart new.length (Nat.le_refl _)
  have hdrop := drop_spliced l start new hstart
  have hshift : (Statement.remap (shiftBy (start + new.length) more.length) ∘
      Statement.remap (shiftBy start new.length)) =
      Statement.remap (shiftBy start (new.length + more.length)) := by
    funext s
    rw [Function.comp, Statement.remap_remap, shiftBy_shiftBy]
  rw [spliced, htake, hdrop, List.take_length, List.map_map, hshift, spliced, List.length_append]
  simp only [List.append_assoc]

/-- Removing the first statement of a block leaves the rest of it, renumbered. -/
theorem removed_spliced_cons (s : Statement) :
    removed (spliced l start (s :: new)) start =
      spliced l start (new.map (·.remap (shiftDown start))) := by
  have htake := take_spliced l start (s :: new) hstart 0 (Nat.zero_le _)
  have hdrop : (spliced l start (s :: new)).drop (start + 1) =
      new ++ (l.drop start).map (·.remap (shiftBy start (new.length + 1))) := by
    rw [spliced, List.append_assoc, List.drop_append, length_take l start hstart,
      Nat.add_sub_cancel_left, List.drop_eq_nil_of_le (by rw [length_take l start hstart]; omega)]
    rfl
  have hshift : (Statement.remap (shiftDown start) ∘
      Statement.remap (shiftBy start (new.length + 1))) =
      Statement.remap (shiftBy start new.length) := by
    funext t
    rw [Function.comp, Statement.remap_remap, shiftBy_shiftDown]
  rw [Nat.add_zero, List.take_zero, List.append_nil] at htake
  rw [removed, htake, hdrop, List.map_append, List.map_map, hshift, spliced, List.length_map,
    List.append_assoc]

end

theorem spliced_nil (l : List Statement) (start : Nat)
    (h : ∀ s ∈ l.drop start, ∀ r, s.Mentions r → r.Plain) : spliced l start [] = l := by
  have hmap : (l.drop start).map (·.remap (shiftBy start 0)) = l.drop start := by
    refine (List.map_congr_left fun s hs => ?_).trans (List.map_id _)
    rw [shiftBy_zero]
    exact Statement.remap_id some s fun r hr => Ref.remap_some r (h s hs r hr)
  rw [spliced, List.length_nil, hmap, List.append_nil, List.take_append_drop]

/-- Removing the first statement of a block gives it back, and leaves the rest of the block. -/
theorem remove_splice_cons (p : Program) (start : Nat) (hstart : start ≤ p.length) (s : Statement)
    (rest : List Statement) : (p.splice start (s :: rest)).remove start =
      (p.splice start (rest.map (·.remap (shiftDown start))), some s) := by
  have hget : (spliced p.statements start (s :: rest))[start]? = some s :=
    getElem?_spliced_new p.statements start (s :: rest) hstart 0 (Nat.zero_lt_succ _)
  simp only [remove, splice, hget, removed_spliced_cons p.statements start rest hstart s]

theorem splice_nil (p : Program) (start : Nat)
    (h : ∀ s ∈ p.statements.drop start, ∀ r, s.Mentions r → r.Plain) : p.splice start [] = p := by
  simp only [splice, spliced_nil p.statements start h]

/-! ## Sound programs -/

theorem Sound.plain {p : Program} (hp : p.Sound) (start : Nat) :
    ∀ s ∈ p.statements.drop start, ∀ r, s.Mentions r → r.Plain := by
  intro s hs r hr
  obtain ⟨i, hi⟩ := List.mem_iff_getElem?.mp (List.mem_of_mem_drop hs)
  exact (hp.inside_of_mentions i s hi r hr).plain

/-- Statements that are well formed where they come to stand can be put into a valid program. -/
theorem isValid_splice {p : Program} (hp : p.isValid = true) (start : Nat) (new : List Statement)
    (hstart : start ≤ p.length)
    (hnew : ∀ (i : Nat) (s : Statement), new[i]? = some s → s.isValid (start + i) = true) :
    (p.splice start new).isValid = true := by
  rw [isValid_iff]
  intro j s hs
  rcases getElem?_spliced_cases p.statements start new hstart j s hs with
    ⟨-, hs⟩ | ⟨i, rfl, -, hs⟩ | ⟨i, t, hi, rfl, ht, rfl⟩
  · exact (isValid_iff p).mp hp j s hs
  · exact hnew i s hs
  · have hv := (isValid_iff p).mp hp i t ht
    refine Statement.isValid_remap _ t i _ hv fun r hr b hb => ?_
    obtain ⟨b', hlt, hb'⟩ := ((Statement.isValid_iff t i).mp hv).1 r hr
    have hbb : b = b' := Option.some.inj (hb.symm.trans hb')
    subst hbb
    refine ⟨_, ?_, rfl⟩
    split <;> omega

theorem Sound.splice {p : Program} (hp : p.Sound) (start : Nat) (new : List Statement)
    (hstart : start ≤ p.length) (hnew : Placeable start new) : (p.splice start new).Sound := by
  have hlen : (p.splice start new).length = p.length + new.length :=
    length_spliced p.statements start new hstart
  constructor
  · exact isValid_splice hp.valid start new hstart fun i s hs => (hnew i s hs).1
  · intro s hs a ha
    rw [hlen]
    obtain ⟨j, hj⟩ := List.mem_iff_getElem?.mp hs
    rcases getElem?_spliced_cases p.statements start new hstart j s hj with
      ⟨-, hs⟩ | ⟨i, rfl, -, hs⟩ | ⟨i, t, hi, rfl, ht, rfl⟩
    · exact (hp.inside s (List.mem_of_getElem? hs) a ha).mono (by omega)
    · rw [(hnew i s hs).2] at ha
      cases ha
    · simp only [Statement.remap, Statement.mapReads, List.mem_map] at ha
      obtain ⟨b, hb, rfl⟩ := ha
      refine (hp.inside t (List.mem_of_getElem? ht) b hb).remap _ fun k l hk hl => ?_
      have := Option.some.inj hl
      split at this <;> omega

/-! ## Insertion -/

theorem Sound.not_reachesLast {p : Program} (hp : p.Sound) (hlen : p.length ≤ lastPosition)
    (start : Nat) : (p.statements.drop start).any reachesLast = false := by
  rw [List.any_eq_false]
  intro s hs
  rw [Bool.not_eq_true, reachesLast, List.any_eq_false]
  intro r hr
  obtain ⟨i, hi⟩ := List.mem_iff_getElem?.mp (List.mem_of_mem_drop hs)
  have hm : s.Mentions r := by
    rcases List.mem_append.mp hr with hr | hr
    · exact Or.inl hr
    · obtain ⟨a, ha, rfl⟩ := List.mem_map.mp hr
      exact Or.inr ⟨a, ha, rfl⟩
  rcases hp.inside_of_mentions i s hi r hm with rfl | ⟨b, hb, hr⟩
  · simp [Ref.position]
  · rw [hr, beq_iff_eq, Option.some.injEq]
    omega

/-- To insert a statement is to splice it in. -/
theorem inserted_eq (p : Program) (s : Statement) (start : Nat) :
    ({ p with statements := inserted p.statements s start } : Program) = p.splice start [s] := by
  rw [inserted, Program.splice, spliced, List.append_assoc]
  rfl

/-- Into a sound program, a statement that is well formed at the position goes in, unless there are
more statements than positions can be told. -/
theorem Sound.insert {p : Program} (hp : p.Sound) (s : Statement) (start : Nat)
    (hstart : start ≤ p.length) (hs : s.isValid start = true) (ha : s.assertions = []) :
    p.insert s start = .ok (p.splice start [s], s.output start) ∨
      (p.insert s start = .error (.fault .positionOverflow) ∧ lastPosition < p.length) := by
  have hplace : Placeable start [s] := by
    intro i t ht
    cases i with
    | zero =>
      cases ht
      exact ⟨hs, ha⟩
    | succ i => cases ht
  unfold Program.insert
  rw [if_neg (by omega), if_neg (by simp [hs])]
  split
  · next h =>
    refine Or.inr ⟨rfl, ?_⟩
    apply Classical.byContradiction
    intro hle
    rw [hp.not_reachesLast (by omega)] at h
    cases h
  · rw [inserted_eq, checked, if_pos (hp.splice start [s] hstart hplace).valid]
    exact Or.inl rfl

theorem insert_misplaced (p : Program) (s : Statement) (start : Nat) (hstart : start ≤ p.length)
    (hs : s.isValid start = false) :
    p.insert s start = .error (.error (.invalidProgram (.misplaced (s.code start) start))) := by
  unfold insert
  rw [if_neg (by omega), if_pos (by simp [hs])]

theorem of_insert_eq_ok {p p' : Program} {s : Statement} {start : Nat} {r : Ref}
    (h : p.insert s start = .ok (p', r)) :
    p' = { p with statements := inserted p.statements s start } ∧ r = s.output start := by
  unfold Program.insert checked at h
  split at h
  · cases h
  · split at h
    · cases h
    · split at h
      · cases h
      · split at h
        · cases h
          exact ⟨rfl, rfl⟩
        · cases h

end SuiteSearch.Program
