import SuiteSearch.Proofs.Mutation.Validity
import SuiteSearch.Proofs.Program.Insertion

/-!
# Mutations tell whether they changed the program

A mutation goes through a program place by place and puts the answers of the places together.  What
it does at the places adds up: deletions only make a program shorter and insertions only longer, and
no place is changed twice.  So the answer is yes exactly if the statements differ in the end.

    Reported R p q flag       no and q is p, or yes and the way from p to q is as in R
    deleteFrom_reported       statements are missing
    changeAll_reported        some of the places differ
    insertFrom_reported       statements are new
    Mutator.tells_changes     kinds of mutation, and whole steps
-/

namespace SuiteSearch

/-! ## What is told -/

/-- A program with a yes or no: no if it is the program from before, yes if it is one as in `R`. -/
inductive Reported (R : Program → Program → Prop) (p : Program) : Program → Bool → Prop
  | same : Reported R p p false
  | done {q : Program} : R p q → Reported R p q true

namespace Reported

variable {R R' S : Program → Program → Prop} {p q r : Program} {flag flag' : Bool}

theorem mono (h : Reported R p q flag) (hR : ∀ p q, R p q → R' p q) : Reported R' p q flag := by
  cases h with
  | same => exact .same
  | done hpq => exact .done (hR p q hpq)

/-- One after the other: yes if either of them says so. -/
theorem append (h : Reported R p q flag) (h' : Reported R' q r flag') (hR : ∀ p q, R p q → S p q)
    (hR' : ∀ p q, R' p q → S p q) (hboth : ∀ p q r, R p q → R' q r → S p r) :
    Reported S p r (flag || flag') := by
  cases h with
  | same => exact h'.mono hR'
  | done hpq =>
    cases h' with
    | same => exact .done (hR p q hpq)
    | done hqr => exact .done (hboth p q r hpq hqr)

theorem trans (h : Reported R p q flag) (h' : Reported R q r flag')
    (htrans : ∀ p q r, R p q → R q r → R p r) : Reported R p r (flag || flag') :=
  h.append h' (fun _ _ h => h) (fun _ _ h => h) htrans

end Reported

namespace Program

/-- Whether two programs are the same but for their statements. -/
def SameFrame (p q : Program) : Prop := q = { p with statements := q.statements }

/-- Whether the statements, and nothing else, are different ones. -/
structure Altered (p q : Program) : Prop where
  frame : p.SameFrame q
  differ : q.statements ≠ p.statements

/-- Whether there are more statements, and nothing else is different. -/
structure Longer (p q : Program) : Prop where
  frame : p.SameFrame q
  length : p.length < q.length

/-- Whether the statements differ at one of some positions, and at no other. -/
structure Differ (positions : List Nat) (p q : Program) : Prop where
  frame : p.SameFrame q
  somewhere : ∃ i ∈ positions, q.statements[i]? ≠ p.statements[i]?
  nowhereElse : ∀ i, i ∉ positions → q.statements[i]? = p.statements[i]?

variable {p q r : Program}

theorem SameFrame.trans (h : p.SameFrame q) (h' : q.SameFrame r) : p.SameFrame r := by
  unfold SameFrame at h h' ⊢
  calc r = { q with statements := r.statements } := h'
    _ = { p with statements := r.statements } := by rw [h]

theorem SameFrame.symm (h : p.SameFrame q) : q.SameFrame p := by
  unfold SameFrame at h ⊢
  rw [h]

theorem Altered.symm (h : p.Altered q) : q.Altered p := ⟨h.frame.symm, h.differ.symm⟩

theorem Longer.trans (h : p.Longer q) (h' : q.Longer r) : p.Longer r :=
  ⟨h.frame.trans h'.frame, Nat.lt_trans h.length h'.length⟩

theorem Longer.altered (h : p.Longer q) : p.Altered q := by
  refine ⟨h.frame, fun heq => ?_⟩
  exact Nat.ne_of_gt h.length (congrArg List.length heq)

theorem Differ.altered {positions : List Nat} (h : Differ positions p q) : p.Altered q := by
  obtain ⟨i, -, hi⟩ := h.somewhere
  refine ⟨h.frame, fun heq => hi ?_⟩
  rw [heq]

theorem Differ.mono {positions more : List Nat} (h : Differ positions p q)
    (hsub : positions ⊆ more) : Differ more p q := by
  obtain ⟨i, hmem, hi⟩ := h.somewhere
  exact ⟨h.frame, ⟨i, hsub hmem, hi⟩, fun j hj => h.nowhereElse j fun hmem => hj (hsub hmem)⟩

/-- What differs at a position still does after changes elsewhere. -/
theorem Differ.cons {i : Nat} {rest : List Nat} (hi : i ∉ rest) (h : Differ [i] p q)
    (h' : Differ rest q r) : Differ (i :: rest) p r := by
  obtain ⟨j, hj, hdiffer⟩ := h.somewhere
  obtain rfl := List.mem_singleton.mp hj
  refine ⟨h.frame.trans h'.frame, ⟨j, List.mem_cons_self, ?_⟩, fun k hk => ?_⟩
  · rw [h'.nowhereElse j hi]
    exact hdiffer
  · rw [List.mem_cons, not_or] at hk
    rw [h'.nowhereElse k hk.2, h.nowhereElse k (by simpa using hk.1)]

/-- Putting a statement in place of another one is a change if it is another one. -/
theorem reported_set {i : Nat} {s t : Statement} {flag : Bool} (hs : p.statements[i]? = some s)
    (hflag : flag = true ↔ t ≠ s) :
    Reported (Differ [i]) p { p with statements := p.statements.set i t } flag := by
  cases flag with
  | true =>
    refine .done ⟨rfl, ⟨i, List.mem_singleton_self i, ?_⟩, fun j hj => ?_⟩
    · show (p.statements.set i t)[i]? ≠ _
      rw [List.getElem?_set_self (List.getElem?_eq_some_iff.mp hs).1, hs, Ne, Option.some.injEq]
      exact hflag.mp rfl
    · have hne : i ≠ j := fun h => hj (List.mem_singleton.mpr h.symm)
      exact List.getElem?_set_ne hne
  | false =>
    obtain rfl : t = s := by
      apply Classical.byContradiction
      intro hne
      cases hflag.mpr hne
    have hsame : p.statements.set i t = p.statements := by
      obtain ⟨hi, rfl⟩ := List.getElem?_eq_some_iff.mp hs
      exact List.set_getElem_self hi
    rw [hsame]
    exact .same

end Program

namespace Mutation

open Program

variable {ω : Type} [WordSource ω]

/-! ## Deletion -/

/-- Where a position is not kept, the program was longer. -/
theorem longer_retain (p : Program) (keep : List Nat) (i : Nat) (hi : i < p.length)
    (hkeep : i ∉ keep) : (p.retain keep).Longer p := by
  constructor
  · rw [retain_eq]
    rfl
  · rw [length_retain]
    exact rank_lt_of_not_mem hi hkeep

theorem longer_deleteWithReaders (p : Program) (position : Nat) (h : position < p.length) :
    (deleteWithReaders p position).1.Longer p := by
  unfold deleteWithReaders
  split
  · next hnone =>
    rw [List.getElem?_eq_none_iff] at hnone
    exact absurd h (Nat.not_lt.mpr hnone)
  · next s hs =>
    refine longer_retain p _ position h ?_
    intro hmem
    have hstays := (contains_stays p position s position).mp (List.contains_iff_mem.mpr hmem)
    refine hstays.2 ?_
    unfold withReaders
    split
    · exact List.mem_singleton_self position
    · exact List.mem_cons_self

theorem deleteFrom_reported (share position : Nat) (p : Program) :
    Draw.Gives (deleteFrom share position p : Draw ω (Program × Bool))
      fun x => Reported (fun p q => q.Longer p) p x.1 x.2 := by
  induction position generalizing p with
  | zero => exact .pure .same
  | succ position ih =>
    unfold deleteFrom
    by_cases hlt : position < p.length
    · rw [if_pos hlt]
      refine (Draw.Gives.any (oneIn share)).bind fun chosen _ => ?_
      split
      · refine (ih (deleteWithReaders p position).1).bind fun x hx => .pure ?_
        have hfirst : Reported (fun p q => q.Longer p) p (deleteWithReaders p position).1 true :=
          .done (longer_deleteWithReaders p position hlt)
        exact hfirst.trans hx fun _ _ _ hpq hqr => hqr.trans hpq
      · exact ih p
    · rw [if_neg hlt]
      exact ih p

/-! ## Change -/

theorem set_ne_self {α : Type} {l : List α} {i : Nat} {x y : α} (hx : l[i]? = some x)
    (hne : y ≠ x) : l.set i y ≠ l := by
  intro heq
  have hget : (l.set i y)[i]? = some y := List.getElem?_set_self (List.getElem?_eq_some_iff.mp hx).1
  rw [heq, hx] at hget
  exact hne (Option.some.inj hget).symm

/-- Another value in an input makes another operation. -/
theorem fill_ne (p : Program) (op : Operation) (slot : Slot) (ty : Ty) (current r : Ref)
    (hinput : (slot, ty, current) ∈ inputs p op) (hne : r ≠ current) : slot.fill r op ≠ op := by
  cases op with
  | construct k args mock =>
    cases mock with
    | some kind => cases hinput
    | none =>
      obtain ⟨i, rfl, -, hi⟩ := mem_argInputs _ _ _ _ _ hinput
      intro heq
      injection heq with _ hargs _
      exact set_ne_self hi hne hargs
  | call m callee args =>
    rcases List.mem_append.mp hinput with h | h
    · obtain ⟨x, hx, heq⟩ := List.mem_map.mp h
      cases heq
      obtain rfl := Option.mem_toList.mp hx
      intro heq
      injection heq with _ hcallee _
      exact hne (Option.some.inj hcallee)
    · obtain ⟨i, rfl, -, hi⟩ := mem_argInputs _ _ _ _ _ h
      intro heq
      injection heq with _ _ hargs
      exact set_ne_self hi hne hargs
  | read f source =>
    cases source with
    | none => cases hinput
    | some x =>
      cases List.mem_singleton.mp hinput
      intro heq
      injection heq with _ hsource
      exact hne (Option.some.inj hsource)
  | store target value =>
    obtain ⟨t, -, heq⟩ := Option.map_eq_some_iff.mp (Option.mem_toList.mp hinput)
    cases heq
    intro heq
    injection heq with _ hvalue
    exact hne hvalue
  | allocate n => cases hinput
  | literal v => cases hinput

/-- A value in scope that does not denote the current one is another reference. -/
theorem ne_of_not_sameValue {c : Cluster} {p : Program} {ty : Ty} {position : Nat}
    {f : CandidateFilter} {r current : Ref} (hr : r ∈ p.findCompatible c ty position f)
    (hsame : ¬ r.sameValue current = true) : r ≠ current := by
  rintro rfl
  obtain ⟨i, -, -, -, hpos, -⟩ := (mem_findCompatible _ _ _ _ _ _ hr).anchored.position
  exact hsame (r.sameValue_self i hpos)

variable (c : Cluster)

theorem changeAt_reported (p : Program) (position : Nat) :
    Draw.Gives (changeAt c p position : Draw ω (Program × Bool))
      fun x => Reported (Differ [position]) p x.1 x.2 := by
  unfold changeAt
  split
  · exact .pure .same
  · next s hs =>
    split
    · next v hop =>
      refine (Draw.Gives.any _).bind fun v' _ => .pure (reported_set hs ?_)
      have hsame : { s with op := .literal v' } = s ↔ v' = v := by
        constructor
        · intro heq
          have hv : Operation.literal v' = .literal v := (congrArg Statement.op heq).trans hop
          injection hv
        · rintro rfl
          rw [← hop]
      rw [bne_iff_ne]
      exact (not_congr hsame).symm
    · unfold rebind
      refine (Draw.Gives.choose (inputs p s.op)).bind fun input? hinput => ?_
      cases input? with
      | none => exact .pure .same
      | some input =>
        obtain ⟨slot, ty, current⟩ := input
        refine (Draw.Gives.choose _).bind fun r? hr => ?_
        cases r? with
        | none => exact .pure .same
        | some r =>
          obtain ⟨hscope, hother⟩ := List.mem_filter.mp (hr r rfl)
          have hne : r ≠ current := ne_of_not_sameValue hscope (by simpa using hother)
          refine .pure (reported_set hs (iff_of_true rfl fun heq => ?_))
          exact fill_ne p s.op slot ty current r (hinput _ rfl) hne (congrArg Statement.op heq)

/-- Changes at different positions do not undo each other. -/
theorem changeAll_reported (share : Nat) (positions : List Nat) (hnodup : positions.Nodup)
    (p : Program) : Draw.Gives (changeAll c share positions p : Draw ω (Program × Bool))
      fun x => Reported (Differ positions) p x.1 x.2 := by
  induction positions generalizing p with
  | nil => exact .pure .same
  | cons position rest ih =>
    obtain ⟨hposition, hrest⟩ := List.nodup_cons.mp hnodup
    unfold changeAll
    refine (Draw.Gives.any (oneIn share)).bind fun chosen _ => ?_
    split
    · refine (changeAt_reported c p position).bind fun x hx => ?_
      refine (ih hrest x.1).bind fun y hy => .pure ?_
      -- Two changes of one statement could cancel; the position is not among the later ones.
      refine hx.append hy (fun _ _ h => h.mono ?_) (fun _ _ h => h.mono ?_)
        fun _ _ _ => Differ.cons hposition
      · exact List.cons_subset_cons _ (List.nil_subset rest)
      · exact List.subset_cons_self position rest
    · refine (ih hrest p).mono fun x hx => hx.mono fun _ _ h => h.mono ?_
      exact List.subset_cons_self position rest

/-! ## Insertion -/

/-- Whatever the selector does, an insertion that is declined leaves no trace. -/
theorem insertAfter_reported (ins : Inserter ω) (p : Program) (hp : p.Sound) (after : Option Nat) :
    Act.Yields (ins.insertAfter p after) (ins.Stops p after)
      fun x => x.1.Sound ∧ Reported Longer p x.1 x.2.isSome := by
  refine (ins.insertAfter_splices p hp after).mono (fun _ hf => hf) fun x hx => ?_
  rcases hx with rfl | ⟨new, s, hplace, -, rfl⟩
  · exact ⟨hp, .same⟩
  · have hstart := Inserter.insertionPoint_le p after
    refine ⟨hp.splice _ _ hstart hplace, .done ⟨rfl, ?_⟩⟩
    have hlength := length_spliced p.statements _ (new ++ [s]) hstart
    rw [List.length_append, List.length_singleton] at hlength
    show p.statements.length < (spliced p.statements _ (new ++ [s])).length
    omega

theorem insertFrom_reported (ins : Inserter ω) (maxLength left : Nat) (share : Float) (p : Program)
    (hp : p.Sound) :
    Act.Yields (insertFrom ⟨c, ins.insertAfter, maxLength⟩ left share p)
      (Stopped ins.reuse (maxLength + Inserter.growth ins.cluster ins.maxDepth))
      fun x => x.1.Sound ∧ Reported Longer p x.1 x.2 := by
  refine insertFrom_relates (P := Sound) (Q := fun p q flag => q.Sound ∧ Reported Longer p q flag)
    c ins maxLength left share (fun p hp => ⟨hp, .same⟩) ?_ p hp
  intro p after hp _
  refine (insertAfter_reported ins p hp after).mono (fun _ hf => hf) fun x hx => ?_
  refine ⟨hx.1, fun q later hq => ⟨hq.1, ?_⟩⟩
  exact hx.2.trans hq.2 fun _ _ _ => Longer.trans

end Mutation

/-! ## Assertions inside the program -/

namespace Program

/-- Whether every assertion is about a value that is gone or lies inside the program. -/
def AssertsInside (p : Program) : Prop :=
  ∀ s ∈ p.statements, ∀ a ∈ s.assertions, a.source.Inside p.length

theorem AssertsInside.retain {p : Program} (h : p.AssertsInside) (keep : List Nat) :
    (p.retain keep).AssertsInside := by
  intro s hs a ha
  obtain ⟨n, hn⟩ := List.mem_iff_getElem?.mp hs
  obtain ⟨i, t, -, ht, -, rfl⟩ := getElem?_retain_cases hn
  have hmem : a ∈ t.assertions.map (·.mapSource (·.remap (rankOf? keep p.length))) :=
    List.mem_of_mem_filter ha
  obtain ⟨b, hb, rfl⟩ := List.mem_map.mp hmem
  refine (h t (List.mem_of_getElem? ht) b hb).remap _ fun k l _ hl => ?_
  obtain ⟨hk, hkeep, rfl⟩ := rankOf?_eq_some hl
  rw [length_retain]
  exact rank_lt keep hk (List.contains_iff_mem.mpr hkeep)

end Program

namespace Mutation

theorem assertsInside_deleteWithReaders (p : Program) (position : Nat) (h : p.AssertsInside) :
    (deleteWithReaders p position).1.AssertsInside := by
  unfold deleteWithReaders
  split
  · exact h
  · exact h.retain _

/-- Changes leave assertions alone. -/
theorem Changed.assertsInside {c : Cluster} {p p' : Program} {position : Nat}
    (h : Changed c p position p') (hp : p.AssertsInside) : p'.AssertsInside := by
  have hset : ∀ s op, p.statements[position]? = some s →
      Program.AssertsInside
        { p with statements := p.statements.set position { s with op := op } } := by
    intro s op hs t ht a ha
    have hlength : (p.statements.set position { s with op := op }).length = p.statements.length :=
      List.length_set
    show a.source.Inside (p.statements.set position { s with op := op }).length
    rw [hlength]
    rcases List.mem_or_eq_of_mem_set ht with ht | rfl
    · exact hp t ht a ha
    · exact hp s (List.mem_of_getElem? hs) a ha
  cases h with
  | same => exact hp
  | literal hs _ _ => exact hset _ _ hs
  | bound hs _ _ => exact hset _ _ hs

end Mutation

/-! ## Steps -/

namespace Mutator

open Program

variable {ω : Type} [WordSource ω] (c : Cluster) (ins : Inserter ω) (maxLength : Nat)

/-- What may stop a mutation: it finds the program malformed, or an insertion is stopped. -/
def Halts (f : Fault) : Prop :=
  f = .malformedProgram ∨
    Stopped ins.reuse (maxLength + Inserter.growth ins.cluster ins.maxDepth) f

theorem apply_reported (kind : MutationKind) (p : Program) (hp : p.Sound) :
    Act.Yields (apply ⟨c, ins.insertAfter, maxLength⟩ kind p) (Halts ins maxLength)
      fun x => x.1.Sound ∧ Reported Altered p x.1 x.2 := by
  -- A deletion may leave a reader of what is gone, so validity comes from the check alone.
  have hcheck : ∀ x : Program × Bool, x.1.AssertsInside → Reported Altered p x.1 x.2 →
      Act.Yields (if x.1.isValid then return (x.1, x.2) else throw .malformedProgram : Act ω _)
        (Halts ins maxLength) fun x => x.1.Sound ∧ Reported Altered p x.1 x.2 := by
    intro x hinside hreported
    by_cases hvalid : x.1.isValid = true
    · rw [if_pos hvalid]
      exact .pure ⟨⟨hvalid, hinside⟩, hreported⟩
    · rw [if_neg hvalid]
      exact fun _ => Or.inl rfl
  cases kind with
  | delete =>
    have hinside : Draw.Gives (Mutation.delete p : Draw ω (Program × Bool))
        fun x => x.1.AssertsInside :=
      Mutation.delete_gives (fun p i => Mutation.assertsInside_deleteWithReaders p i) p hp.inside
    have hreported : Draw.Gives (Mutation.delete p : Draw ω (Program × Bool))
        fun x => Reported (fun p q => q.Longer p) p x.1 x.2 :=
      Mutation.deleteFrom_reported p.length p.length p
    refine (Act.Yields.draw (hinside.and hreported)).bind fun x hx => ?_
    exact hcheck x hx.1 (hx.2.mono fun _ _ h => h.altered.symm)
  | change =>
    have hinside : Draw.Gives (Mutation.change c p : Draw ω (Program × Bool))
        fun x => x.1.AssertsInside :=
      Mutation.change_gives (fun _ _ _ hx hp => hx.assertsInside hp) p hp.inside
    have hreported : Draw.Gives (Mutation.change c p : Draw ω (Program × Bool))
        fun x => Reported (Differ (List.range p.length)) p x.1 x.2 :=
      Mutation.changeAll_reported c p.length _ List.nodup_range p
    refine (Act.Yields.draw (hinside.and hreported)).bind fun x hx => ?_
    exact hcheck x hx.1 (hx.2.mono fun _ _ h => h.altered)
  | insert =>
    have hinsert := Mutation.insertFrom_reported c ins maxLength Mutation.maxInsertions 1 p hp
    refine (hinsert.mono (fun _ hf => Or.inr hf) fun _ hx => hx).bind fun x hx => ?_
    exact hcheck x hx.1.inside (hx.2.mono fun _ _ h => h.altered)

/-- A later kind may undo what an earlier one did, so a yes says nothing here. -/
theorem mutate_reported (p : Program) (hp : p.Sound) :
    Act.Yields (mutate ⟨c, ins.insertAfter, maxLength⟩ p) (Halts ins maxLength)
      fun x => Reported (fun _ _ => True) p x.1 x.2 := by
  have happly : ∀ kind p, p.Sound →
      Act.Yields (apply ⟨c, ins.insertAfter, maxLength⟩ kind p) (Halts ins maxLength)
        fun x => x.1.Sound ∧ Reported (fun _ _ => True) p x.1 x.2 := by
    intro kind p hp
    refine (apply_reported c ins maxLength kind p hp).mono (fun _ hf => hf) fun x hx => ?_
    exact ⟨hx.1, hx.2.mono fun _ _ _ => True.intro⟩
  unfold mutate
  split
  · exact (happly .insert p hp).mono (fun _ hf => hf) fun x hx => hx.2
  · refine applySome_relates (P := Sound) (Q := Reported fun _ _ => True) MutationKind.all
      (fun _ _ => .same) (fun kind _ p hp => ?_) p hp
    refine (happly kind p hp).mono (fun _ hf => hf) fun x hx => ⟨hx.1, fun q later hq => ?_⟩
    exact hx.2.trans hq fun _ _ _ _ _ => True.intro

/-! ## Top theorem -/

/-- A kind of mutation says yes exactly if the statements are others than before, and it changes
nothing else.  A step that says no leaves the program as it was. -/
theorem tells_changes (p : Program) (hp : p.Sound) :
    let m : Mutator ω := ⟨c, ins.insertAfter, maxLength⟩
    (∀ kind, (m.apply kind p).Yields (Halts ins maxLength) fun x =>
      (x.2 = true ↔ x.1.statements ≠ p.statements) ∧
        x.1 = { p with statements := x.1.statements }) ∧
    (m.mutate p).Yields (Halts ins maxLength) fun x => x.2 = false → x.1 = p := by
  intro m
  constructor
  · intro kind
    refine (apply_reported c ins maxLength kind p hp).mono (fun _ hf => hf) fun x hx => ?_
    obtain ⟨q, flag⟩ := x
    obtain ⟨-, hreported⟩ := hx
    cases hreported with
    | same => exact ⟨iff_of_false Bool.false_ne_true fun h => h rfl, rfl⟩
    | done haltered => exact ⟨iff_of_true rfl haltered.differ, haltered.frame⟩
  · refine (mutate_reported c ins maxLength p hp).mono (fun _ hf => hf) fun x hx hno => ?_
    obtain ⟨q, flag⟩ := x
    cases hx with
    | same => rfl
    | done _ => cases hno

open Lamps in
/-- Mutations with an inserter whose selector gives what is not there. -/
theorem tells_changes_dimmed :
    let m : Mutator Random.Scripted := ⟨Inserter.counters, Inserter.misled.insertAfter, 5⟩
    dimmed.Sound ∧
      (m.apply .change dimmed).Yields (Halts Inserter.misled 5) (fun x =>
        (x.2 = true ↔ x.1.statements ≠ dimmed.statements) ∧
          x.1 = { dimmed with statements := x.1.statements }) ∧
      (m.mutate dimmed).Yields (Halts Inserter.misled 5) fun x => x.2 = false → x.1 = dimmed := by
  have hbase : ∀ s ∈ dimmed.statements, ∀ a ∈ s.assertions, a.source.position = some 0 := by decide
  have hsound : dimmed.Sound :=
    ⟨rfl, fun s hs a ha => Or.inr ⟨0, by decide, hbase s hs a ha⟩⟩
  obtain ⟨happly, hmutate⟩ := tells_changes Inserter.counters Inserter.misled 5 dimmed hsound
  exact ⟨hsound, happly .change, hmutate⟩

end Mutator

end SuiteSearch
