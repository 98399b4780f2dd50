import SuiteSearch.Proofs.Mutation.Validity
import SuiteSearch.Proofs.Program.Initialization

/-!
# Mutation and the elements that are read

Insertions and changes read an element only after a store into it, and deletion takes whatever uses
an array along with the array.  A store that is picked goes alone, whoever reads the element.  So
elements are written before they are read as long as no store is picked that a later reader needs.

    written c               a value goes only through elements that are written
    Supplied c l            anchored, and every element is written before it is read
    Dispensable l i         no reader needs statement i for the element that it writes
    Spares p picked         every statement that is picked is dispensable when it goes
    reads_written           where calls pick only dispensable statements
-/

namespace SuiteSearch

/-! ## Algorithm -/

/-- Whether every reader of the element that a store at a position writes finds another store. -/
def Dispensable (l : List Statement) (i : Nat) : Prop :=
  ∀ e, StoresAt l i e → ∀ (q : Nat) (s : Statement), l[q]? = some s → i < q →
    ∀ r ∈ s.op.values, e ∈ r.elements → ∃ j, j < q ∧ j ≠ i ∧ StoresAt l j e

namespace Mutation

variable {ω : Type} [WordSource ω]

/-- The statements that the deletion in a mutation step picks, if there is one. -/
def stepPicks (p : Program) : Draw ω (List Nat) := do
  if p.isEmpty then return []
  if ← Draw.coin .third then picks p.length p.length p else return []

/-- Whether every statement that is picked is dispensable when it goes. -/
def Spares (p : Program) : List Nat → Prop
  | [] => True
  | i :: rest => Dispensable p.statements i ∧ Spares (deleteWithReaders p i).1 rest

end Mutation

/-- The statements that the deletion in a call picks. -/
def Call.picks {ω : Type} [WordSource ω] : Call → Program → Draw ω (List Nat)
  | .apply _ .delete, p => Mutation.picks p.length p.length p
  | .mutate _, p => Mutation.stepPicks p
  | _, _ => pure []

/-- Programs that grow by calls whose deletions spare every store that is needed. -/
inductive GrownSparing (c : Cluster) : Program → Prop
  | empty : GrownSparing c .empty
  | call {ω : Type} [WordSource ω] {p p' : Program} {w w' : ω} (ins : Inserter ω) (call : Call) :
      GrownSparing c p → ins.cluster = c → ins.selector.Offers c →
      Mutation.Spares p (call.picks p w).1 → call.run ins p w = .ok (p', w') → GrownSparing c p'

/-- Every value is anchored, and every element that is read is written before. -/
structure Supplied (c : Cluster) (l : List Statement) : Prop where
  anchored : (Discipline.anchored c).Holds l
  initialized : Initialized l

/-! ## What is put in -/

theorem Ref.ResultOf.elements {i : Nat} {r : Ref} (h : r.ResultOf i) : r.elements = [] := by
  rcases h with rfl | rfl <;> rfl

theorem Reached.elements {c : Cluster} {s : Statement} {i : Nat} {r : Ref} {t : Ty}
    (h : Reached c s i r t) (hstore : s.op.isStore = false) : r.elements = [] := by
  induction h with
  | output => exact (s.output_resultOf i hstore).elements
  | field _ _ _ ih => exact ih

namespace Discipline

variable {c : Cluster}

/-- Every element that a value goes through is one of a result, and written before. -/
def written (c : Cluster) : Discipline c where
  asks _ := True
  fits l _ r := ∀ e ∈ r.elements,
    ∃ a k, e = .element (.value a) k ∧ Program.isInitialized l (.value a) k = true
  asks_component _ := True.intro
  asks_need _ _ := True.intro
  fits_append h := fun e he => by
    obtain ⟨a, k, rfl, hk⟩ := h e he
    refine ⟨a, k, rfl, ?_⟩
    rw [Program.isInitialized] at hk ⊢
    rw [List.any_append, hk, Bool.true_or]
  fits_candidate h := fun e he => by
    cases Program.mem_findCompatible _ _ _ _ _ _ h with
    | reached hs hstore hr _ =>
      rw [hr.elements hstore] at he
      cases he
    | @element i k n s component hs hop hty hassign hwritten =>
      obtain rfl := List.mem_singleton.mp he
      exact ⟨i, k, rfl, hwritten⟩
  fits_literal {l t v} _ := fun e he => by
    rw [((Statement.literal v t).output_resultOf l.length rfl).elements] at he
    cases he
  fits_allocate _ := nofun
  fits_maker _ := nofun

theorem Good.target {D : Discipline c} {l : List Statement} {s : Statement} (h : D.Good l s)
    (e value : Ref) (hop : s.op = .store e value) : ∃ a k, e = .element (.value a) k := by
  cases h with
  | literal v t => cases hop
  | allocate t n => cases hop
  | store _ _ _ _ _ =>
    cases hop
    exact ⟨_, _, rfl⟩
  | member _ happlied => cases happlied <;> cases hop

/-- A value that fits goes only through elements that are stored into. -/
theorem written_storesAt {D : Discipline c} {l : List Statement} {n : Nat} {t : Ty} {r : Ref}
    (hl : D.Holds l) (h : (written c).fits (l.take n) t r) :
    ∀ e ∈ r.elements, ∃ j, j < n ∧ StoresAt l j e := by
  intro e he
  obtain ⟨a, k, rfl, hwritten⟩ := h e he
  obtain ⟨s, hs, hstores⟩ := List.any_eq_true.mp hwritten
  obtain ⟨j, hj⟩ := List.mem_iff_getElem?.mp hs
  obtain ⟨hlt, hj⟩ := Program.getElem?_of_take hj
  split at hstores
  · next target value hop =>
    obtain ⟨a', k', rfl⟩ := (hl j s hj).target target value hop
    have hsame : k' = k ∧ a' = a := by simpa [Ref.sameValue] using hstores
    obtain ⟨rfl, rfl⟩ := hsame
    exact ⟨j, hlt, s, value, hj, hop⟩
  · cases hstores

theorem Good.initialized {D : Discipline c} {l : List Statement} {n : Nat} {s : Statement}
    (hl : D.Holds l) (h : (written c).Good (l.take n) s) : s.Initialized l n := by
  intro r hr
  cases h with
  | literal v t => cases hr
  | allocate t k => cases hr
  | store _ _ _ _ hvalue =>
    obtain rfl := List.mem_singleton.mp hr
    exact written_storesAt hl hvalue
  | member _ happlied =>
    obtain ⟨t, ht⟩ := happlied.fits r (s.op.mem_reads_of_mem_values r hr)
    exact written_storesAt hl ht

end Discipline

namespace Supplied

variable {c : Cluster} {l : List Statement} {p : Program}

theorem nil : Supplied c [] := ⟨Discipline.holds_nil, nofun⟩

theorem sound (h : Supplied c p.statements) : p.Sound :=
  h.anchored.sound (Discipline.anchored_mobile c)

theorem reads_before (h : Supplied c p.statements) (i : Nat) (s : Statement)
    (hs : p.statements[i]? = some s) : ∀ r ∈ s.reads, ∃ b, b < i ∧ r.position = some b :=
  fun _ hr => Program.base_of_isValid h.sound.valid hs hr

/-! ## Insertion -/

variable {ω : Type} [WordSource ω] {ins : Inserter ω}

theorem insertAfter (hselect : ins.selector.Offers ins.cluster) (p : Program) (after : Option Nat)
    (h : Supplied ins.cluster p.statements) :
    Act.Yields (ins.insertAfter p after) (ins.Stops p after)
      fun x => Supplied ins.cluster x.1.statements := by
  intro w
  have hanchored := ins.insertAfter_holds (Discipline.anchored_mobile _) hselect.admits p
    h.anchored after w
  have hrun := Inserter.insertAfter_run (D := Discipline.written ins.cluster) hselect.admits p
    h.sound after w
  have hstart := Inserter.insertionPoint_le p after
  generalize ins.insertAfter p after w = x at hanchored hrun ⊢
  cases hrun with
  | stopped f hf => exact hf
  | declined w' => exact h
  | inserted new s m w' hnew _ _ _ =>
    refine ⟨hanchored, h.initialized.splice hstart h.reads_before fun i t ht => ?_⟩
    have hlt := (List.getElem?_eq_some_iff.mp ht).1
    have hgood := (hnew i t ht).2
    rw [← Program.take_spliced p.statements _ _ hstart i (Nat.le_of_lt hlt)] at hgood
    exact Discipline.Good.initialized hanchored hgood

end Supplied

/-! ## Change -/

namespace Mutation

variable {c : Cluster}

theorem mem_values_fill (slot : Slot) (r : Ref) (op : Operation) (x : Ref)
    (h : x ∈ (slot.fill r op).values) : x = r ∨ x ∈ op.values := by
  cases slot with
  | callee =>
    cases op with
    | call m callee args =>
      rcases List.mem_cons.mp h with h | h
      · exact Or.inl h
      · exact Or.inr (List.mem_append_right _ h)
    | _ => exact Or.inr h
  | arg i =>
    cases op with
    | call m callee args =>
      rcases List.mem_append.mp h with h | h
      · exact Or.inr (List.mem_append_left _ h)
      · rcases List.mem_or_eq_of_mem_set h with h | h
        · exact Or.inr (List.mem_append_right _ h)
        · exact Or.inl h
    | construct k args mock =>
      rcases List.mem_or_eq_of_mem_set h with h | h
      · exact Or.inr h
      · exact Or.inl h
    | _ => exact Or.inr h
  | source =>
    cases op with
    | read f source => exact Or.inl (List.mem_singleton.mp h)
    | _ => exact Or.inr h
  | storedValue =>
    cases op with
    | store target value => exact Or.inl (List.mem_singleton.mp h)
    | _ => exact Or.inr h

/-- No input is the target of a store. -/
theorem fill_store (slot : Slot) (r e value : Ref) :
    ∃ value', slot.fill r (.store e value) = .store e value' := by
  cases slot <;> exact ⟨_, rfl⟩

theorem Changed.initialized {p p' : Program} {position : Nat} (h : Changed c p position p')
    (hp : Supplied c p.statements) : Initialized p'.statements := by
  cases h with
  | same => exact hp.initialized
  | @literal s v v' hs hop _ =>
    refine hp.initialized.set position _ s hs ?_ nofun
    intro e value hstore
    rw [hop] at hstore
    cases hstore
  | @bound s slot ty current r hs hinput hr =>
    refine hp.initialized.set position _ s hs ?_ ?_
    · intro e value hop
      rw [hop]
      exact fill_store slot r e value
    · intro x hx e he
      rcases mem_values_fill slot r s.op x hx with rfl | hx
      · have hfits := (Discipline.written c).fits_candidate hr
        exact Discipline.written_storesAt hp.anchored hfits e he
      · exact hp.initialized position s hs x hx e he

theorem Changed.supplied {p p' : Program} {position : Nat} (h : Changed c p position p')
    (hp : Supplied c p.statements) : Supplied c p'.statements :=
  ⟨h.holds (Discipline.anchored_mobile c) hp.anchored, h.initialized hp⟩

/-! ## Deletion -/

theorem deleteWithReaders_initialized (p : Program) (h : Supplied c p.statements) (position : Nat)
    (hspare : Dispensable p.statements position) :
    Initialized (deleteWithReaders p position).1.statements := by
  unfold deleteWithReaders
  split
  · exact h.initialized
  · next s hs =>
    have hkeep := contains_stays p position s
    dsimp only
    rw [Program.retain_eq]
    refine Initialized.kept _ _ fun i t ht hi r hr e he => ?_
    have hi := (hkeep i).mp hi
    obtain ⟨j, hji, hj⟩ := h.initialized i t ht r hr e he
    by_cases hgoes : j ∈ withReaders p position s
    · cases hstore : s.op.isStore with
      | true =>
        -- The store goes alone, and there is another one.
        have halone : withReaders p position s = [position] := if_pos hstore
        rw [halone, List.mem_singleton] at hgoes
        subst hgoes
        obtain ⟨k, hk, hne, hstores⟩ := hspare e hj i t ht hji r hr he
        refine ⟨k, hk, (hkeep k).mpr ⟨by omega, ?_⟩, hstores⟩
        rwa [halone, List.mem_singleton]
      | false =>
        -- The store goes as a user, and the reader uses the same array.
        obtain ⟨u, value, hu, hop⟩ := hj
        have hread := t.op.mem_reads_of_mem_values r hr
        obtain ⟨b, v, -, -, hroot⟩ := (h.anchored i t ht).anchored
          (Discipline.anchored_mobile c) r hread
        have hout : u.output j = e := by rw [Statement.output, hop]; rfl
        have huses := t.uses_of_reads i b r e hread hroot (hroot.root_of_mem_elements he)
        rw [← hout, not_uses_of_not_mem_withReaders p position s hs hstore j i u t hu ht hji hgoes
          hi.2] at huses
        cases huses
    · exact ⟨j, hji, (hkeep j).mpr ⟨by omega, hgoes⟩, hj⟩

theorem deleteWithReaders_supplied (p : Program) (h : Supplied c p.statements) (position : Nat)
    (hspare : Dispensable p.statements position) :
    Supplied c (deleteWithReaders p position).1.statements :=
  ⟨deleteWithReaders_holds (Discipline.anchored_mobile c) p h.anchored position,
    deleteWithReaders_initialized p h position hspare⟩

theorem removeAll_supplied (picked : List Nat) (p : Program) (h : Supplied c p.statements)
    (hspares : Spares p picked) : Supplied c (removeAll p picked).statements := by
  induction picked generalizing p with
  | nil => exact h
  | cons i rest ih => exact ih _ (deleteWithReaders_supplied p h i hspares.1) hspares.2

theorem delete_supplied {ω : Type} [WordSource ω] (p : Program) (h : Supplied c p.statements)
    (w : ω) (hspares : Spares p (picks p.length p.length p w).1) :
    Supplied c (delete p w).1.1.statements := by
  rw [delete, deleteFrom_eq_removeAll]
  exact removeAll_supplied _ p h hspares

end Mutation

/-! ## Calls -/

section
variable {ω : Type} [WordSource ω] {ins : Inserter ω} (maxLength : Nat)

theorem Mutator.of_apply_delete {m : Mutator ω} {p : Program} {w w' : ω} {x : Program × Bool}
    (h : m.apply .delete p w = .ok (x, w')) : x = (Mutation.delete p w).1 := by
  obtain ⟨y, w₁, hdraw, hcheck⟩ := Act.of_bind h
  obtain ⟨rfl, -⟩ := Act.of_draw hdraw
  dsimp only at hcheck
  split at hcheck
  · cases hcheck
    rfl
  · cases hcheck

theorem Supplied.mutator_apply (hselect : ins.selector.Offers ins.cluster) (kind : MutationKind)
    (hkind : kind ≠ .delete) (p : Program) (h : Supplied ins.cluster p.statements) :
    Act.Yields ((ins.mutator maxLength).apply kind p)
      (Stopped ins.reuse (maxLength + Inserter.growth ins.cluster ins.maxDepth))
      fun x => Supplied ins.cluster x.1.statements := by
  refine Mutator.apply_yields (P := fun p => Supplied ins.cluster p.statements)
    (fun p hp => hp.sound.valid) kind p (fun h => absurd h hkind) (fun _ => ?_) fun _ => ?_
  · exact Mutation.change_gives (P := fun p => Supplied ins.cluster p.statements)
      (fun _ _ _ hx => hx.supplied) p h
  · exact Mutation.insertFrom_yields (P := fun p => Supplied ins.cluster p.statements) ins
      (fun p after hp => hp.insertAfter hselect p after) maxLength _ 1 p h

theorem Supplied.mutator_mutate (hselect : ins.selector.Offers ins.cluster) {p : Program}
    (h : Supplied ins.cluster p.statements) {w w' : ω} {x : Program × Bool}
    (hspares : Mutation.Spares p (Mutation.stepPicks p w).1)
    (hrun : (ins.mutator maxLength).mutate p w = .ok (x, w')) :
    Supplied ins.cluster x.1.statements := by
  have happly := Supplied.mutator_apply maxLength hselect
  have hrest := Mutator.applySome_yields (P := fun p => Supplied ins.cluster p.statements)
    [.change, .insert] fun kind hkind => happly kind (by rintro rfl; simp at hkind)
  unfold Mutation.stepPicks at hspares
  unfold Mutator.mutate at hrun
  split at hrun
  · exact (happly .insert nofun p h).of_ok hrun
  · next hempty =>
    rw [if_neg hempty, Draw.bind_apply] at hspares
    -- Deletion comes first; what follows keeps whatever it leaves.
    obtain ⟨chosen, w₁, hcoin, hrun⟩ := Act.of_bind hrun
    obtain ⟨rfl, rfl⟩ := Act.of_draw hcoin
    split at hrun
    · next hchosen =>
      rw [if_pos hchosen] at hspares
      obtain ⟨y, w₂, hdelete, hrun⟩ := Act.of_bind hrun
      obtain rfl := Mutator.of_apply_delete hdelete
      have hsupplied := Mutation.delete_supplied p h _ hspares
      obtain ⟨z, w₃, hlater, hpure⟩ := Act.of_bind hrun
      cases hpure
      have hkept := (hrest _ hsupplied).of_ok hlater
      exact hkept
    · exact (hrest p h).of_ok hrun

/-- A call that spares what is needed leaves every element written before it is read. -/
theorem Call.run_supplied (hselect : ins.selector.Offers ins.cluster) (call : Call)
    {p p' : Program} (h : Supplied ins.cluster p.statements) {w w' : ω}
    (hspares : Mutation.Spares p (call.picks p w).1) (hrun : call.run ins p w = .ok (p', w')) :
    Supplied ins.cluster p'.statements := by
  cases call with
  | insert after =>
    obtain ⟨x, w₁, hinsert, hpure⟩ := Act.of_bind hrun
    cases hpure
    exact (h.insertAfter hselect p after).of_ok hinsert
  | apply maxLength kind =>
    obtain ⟨x, w₁, happly, hpure⟩ := Act.of_bind hrun
    cases hpure
    by_cases hkind : kind = .delete
    · subst hkind
      obtain rfl := Mutator.of_apply_delete happly
      exact Mutation.delete_supplied p h _ hspares
    · exact (h.mutator_apply maxLength hselect kind hkind p).of_ok happly
  | mutate maxLength =>
    obtain ⟨x, w₁, hmutate, hpure⟩ := Act.of_bind hrun
    cases hpure
    exact h.mutator_mutate maxLength hselect hspares hmutate

end

/-! ## Top theorem -/

/-- Where no deletion picks a store that a later reader needs, every element is written before it
is read. -/
theorem GrownSparing.reads_written {c : Cluster} {p : Program} (h : GrownSparing c p) :
    Initialized p.statements := by
  suffices hsupplied : Supplied c p.statements from hsupplied.initialized
  induction h with
  | empty => exact .nil
  | call ins call _ hc hoffers hspares hrun ih =>
    subst hc
    exact call.run_supplied hoffers ih hspares hrun

/-- A class with a method for an array of numbers and one for a number. -/
def sums : Cluster :=
  Cluster.ofList [{ ClassDecl.ofName "Sums" with
    methods := [⟨"all", [.array .int], .void, true⟩, ⟨"one", [.int], .void, true⟩] }]

/-- An inserter that reuses values whenever there are any. -/
def summing : Inserter Random.Scripted := ⟨sums, .random sums, 2, 1⟩

/-- A service that always names the first value. -/
def firstNamed : TextService Random.Scripted where
  query _ := return .ok "#0"
  hooks := ⟨fun _ => return (), fun _ => return ()⟩

/-- The same inserter, with values that the service names. -/
def consulting : Inserter Random.Scripted := ⟨sums, .guided sums firstNamed .default, 2, 1⟩

def useArray : Statement :=
  .call ⟨.named "Sums", "all", [.array .int], .void, true⟩ none [.value 0]

def useElement : Statement :=
  .call ⟨.named "Sums", "one", [.int], .void, true⟩ none [.element (.value 0) 0]

/-- An array of one number, with or without the store into it, and uses of both. -/
def arrayProgram (stored : Bool) (uses : List Statement) : Program :=
  { Program.empty with statements := [.allocate .int 1, .literal (.int 0) .int] ++
      (if stored then [.store (.value 0) 0 (.value 1) .int] else []) ++ uses }

/-- An array with one number and a use of the array, then a use of its element. -/
theorem runs_arrayProgram :
    ((Call.insert none).run summing .empty ⟨[0, 0x4000000000000000, 0, 0], 0⟩).map (·.1) =
        .ok (arrayProgram true [useArray]) ∧
      ((Call.insert none).run summing (arrayProgram true [useArray]) ⟨[0x80000000, 0], 0⟩).map
        (·.1) = .ok (arrayProgram true [useArray, useElement]) := by
  decide +kernel

/-- The service names the element of the array rather than the number. -/
theorem runs_consulting :
    ((Call.insert none).run consulting (arrayProgram true [useArray]) ⟨[0x80000000], 0⟩).map
      (·.1) = .ok (arrayProgram true [useArray, useElement]) := by
  decide +kernel

/-- The use of the array is deleted, and the use of its element, which a service named, stays. -/
theorem GrownSparing.reads_written_useElement :
    GrownSparing sums (arrayProgram true [useElement]) ∧
      Initialized (arrayProgram true [useElement]).statements := by
  have hoffers : summing.selector.Offers sums := Selector.random_offers sums
  obtain ⟨w₁, hone⟩ := Act.of_map_fst runs_arrayProgram.1
  obtain ⟨w₂, htwo⟩ := Act.of_map_fst runs_consulting
  have hone : GrownSparing sums (arrayProgram true [useArray]) :=
    .call summing (.insert none) .empty rfl hoffers True.intro hone
  have htwo : GrownSparing sums (arrayProgram true [useArray, useElement]) :=
    .call consulting (.insert none) hone rfl (Selector.guided_offers sums firstNamed .default)
      True.intro htwo
  let w : Random.Scripted := ⟨[0xFFFFFFFFFFFFFFFF, 0, 0xFFFFFFFFFFFFFFFF, 0xFFFFFFFFFFFFFFFF,
    0xFFFFFFFFFFFFFFFF], 0⟩
  have hpicks : ((Call.apply 40 .delete).picks (arrayProgram true [useArray, useElement]) w).1 =
    [3] := by decide +kernel
  have hspares : Mutation.Spares (arrayProgram true [useArray, useElement])
      ((Call.apply 40 .delete).picks (arrayProgram true [useArray, useElement]) w).1 := by
    rw [hpicks]
    refine ⟨?_, True.intro⟩
    rintro e ⟨s, value, hs, hop⟩
    cases hs
    cases hop
  have hdelete : ((Call.apply 40 .delete).run summing (arrayProgram true [useArray, useElement])
      w).map (·.1) = .ok (arrayProgram true [useElement]) := by decide +kernel
  obtain ⟨w₃, hdelete⟩ := Act.of_map_fst hdelete
  have hgrown : GrownSparing sums (arrayProgram true [useElement]) :=
    .call summing _ htwo rfl hoffers hspares hdelete
  exact ⟨hgrown, hgrown.reads_written⟩

/-- The store into the array is deleted, and the use of its element stays. -/
theorem Grown.reads_unwritten :
    Grown sums (arrayProgram false [useArray, useElement]) ∧
      ¬ Initialized (arrayProgram false [useArray, useElement]).statements := by
  have hoffers : summing.selector.Offers sums := Selector.random_offers sums
  obtain ⟨w₁, hone⟩ := Act.of_map_fst runs_arrayProgram.1
  obtain ⟨w₂, htwo⟩ := Act.of_map_fst runs_arrayProgram.2
  have hone : Grown sums (arrayProgram true [useArray]) :=
    .call summing (.insert none) .empty rfl hoffers hone
  have htwo : Grown sums (arrayProgram true [useArray, useElement]) :=
    .call summing (.insert none) hone rfl hoffers htwo
  have hdelete : ((Call.apply 40 .delete).run summing (arrayProgram true [useArray, useElement])
      ⟨[0xFFFFFFFFFFFFFFFF, 0xFFFFFFFFFFFFFFFF, 0, 0xFFFFFFFFFFFFFFFF, 0xFFFFFFFFFFFFFFFF],
        0⟩).map (·.1) = .ok (arrayProgram false [useArray, useElement]) := by decide +kernel
  obtain ⟨w₃, hdelete⟩ := Act.of_map_fst hdelete
  refine ⟨.call summing _ htwo rfl hoffers hdelete, fun h => ?_⟩
  have hread := h 3 useElement rfl (.element (.value 0) 0) List.mem_cons_self
    (.element (.value 0) 0) List.mem_cons_self
  obtain ⟨j, hj, s, value, hs, hop⟩ := hread
  have hlt : j = 0 ∨ j = 1 ∨ j = 2 := by omega
  rcases hlt with rfl | rfl | rfl <;> cases hs <;> cases hop

end SuiteSearch
