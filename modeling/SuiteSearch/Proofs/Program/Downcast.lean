import SuiteSearch.Program.Downcast
import SuiteSearch.Proofs.Mutation.Deletion
import SuiteSearch.Proofs.Program.Retyping

/-!
# Giving up downcasts keeps programs type checked

A narrower type goes only if no reader is found that relies on it.  Some readers are not looked for:
what is reached through an element of an array, a value that is stored, and an assertion that stands
with a statement that does not read the value.  Where a narrowed call has no such readers, the
program type checks afterwards as it did before.

    ReadersSeen c p              no narrowed call has a reader that is not looked for
    widenAt_widenable             one position keeps what the pass relies on
    removeDowncasts_typeChecks   the whole pass keeps a program type checked
    removeDowncasts_illTyped     an element of an array in a field of the result is a reader, too
-/

namespace SuiteSearch

namespace Program

/-! ## Algorithm -/

/-- Whether a statement is a call with a declared type below the one that its method returns. -/
def Narrowed (c : Cluster) (p : Program) (i : Nat) (natural : Ty) : Prop :=
  ∃ s m callee args, p.statements[i]? = some s ∧ s.op = .call m callee args ∧
    m.returns = natural ∧ s.ty ≠ natural ∧ c.isAssignable s.ty natural = true

/-- All readers of narrowed calls that could rely on the narrower type are looked for. -/
structure ReadersSeen (c : Cluster) (p : Program) : Prop where
  /-- Nothing reads an element on the way from the result. -/
  element : ∀ i natural, p.Narrowed c i natural → ∀ t ∈ p.statements, ∀ r ∈ t.reads,
    r.position = some i → r.hasElement = false
  /-- The result is stored only where its natural type could be stored. -/
  stored : ∀ i natural, p.Narrowed c i natural → ∀ t ∈ p.statements, ∀ array index value component,
    t.op = .store (.element array index) value → value.ResultOf i →
    p.typeOf? array = some (.array component) → c.isAssignable natural component = true
  /-- Only the result itself is asserted on, along with its call or with a statement that reads it.
  -/
  asserted : ∀ i natural, p.Narrowed c i natural → ∀ j t, p.statements[j]? = some t →
    ∀ a ∈ t.assertions, a.source.position = some i →
    a.source.ResultOf i ∧ (j = i ∨ j ∈ p.referencePositions (.value i))

/-- What the pass relies on. -/
structure Widenable (c : Cluster) (p : Program) : Prop where
  valid : p.isValid = true
  typed : p.TypeChecks c
  seen : p.ReadersSeen c

/-! ## Readers -/

theorem usersOf_erase (values : List Ref) (l : List (Statement × Nat)) (ty : Ty) :
    usersOf values (l.map fun x => (x.1.withTy ty, x.2)) = usersOf values l := by
  induction l generalizing values with
  | nil => rfl
  | cons x rest ih =>
    obtain ⟨s, i⟩ := x
    simp only [List.map_cons, usersOf, ih]
    rfl

/-- Who uses a value does not depend on declared types. -/
theorem referencePositions_congr {p q : Program} (h : p.untyped = q.untyped) (r : Ref) :
    p.referencePositions r = q.referencePositions r := by
  have herase : ∀ (l : List Statement) (k : Nat), (l.zipIdx.drop k).map
      (fun x : Statement × Nat => (x.1.withTy .void, x.2)) =
        ((l.map (·.withTy .void)).zipIdx.drop k) := by
    intro l k
    rw [List.map_drop, List.zipIdx_map]
    rfl
  unfold referencePositions
  split
  · rfl
  · next start _ =>
    rw [← usersOf_erase _ _ .void, ← usersOf_erase _ (q.statements.zipIdx.drop _) .void, herase,
      herase]
    exact congrArg (fun l => usersOf [r] (l.zipIdx.drop (start + 1))) h

/-- A statement that reads a result, or fields from it, is found. -/
theorem mem_referencePositions {p : Program} (hvalid : p.isValid = true) {i j : Nat}
    {t : Statement} (ht : p.statements[j]? = some t) {r : Ref} (hr : r ∈ t.reads)
    (hpos : r.position = some i) (hplain : r.hasElement = false) :
    j ∈ p.referencePositions (.value i) := by
  have hij : i < j := by
    obtain ⟨b, hb, hb'⟩ := base_of_isValid hvalid ht hr
    obtain rfl := Option.some.inj (hb'.symm.trans hpos)
    exact hb
  have huses := t.uses_of_reads j i r (.value i) hr (Ref.root_resultOf hpos hplain) (Or.inl rfl)
  exact mem_referencePositions_of_uses rfl ht hij (Or.inl huses)

/-! ## What is not needed -/

section
variable {c : Cluster} {p : Program} {i : Nat} {s : Statement} {ty : Ty}

theorem of_argumentNeeds {params : List Ty} {args : List Ref}
    (h : argumentNeeds c ty (.value i) params args = false) :
    ∀ x ∈ params.zip args, x.2.ResultOf i → c.isAssignable ty x.1 = true := by
  intro x hx hr
  have hneeds := List.any_eq_false.mp h x hx
  simpa [(Ref.sameValue_value_iff x.2 i).mpr hr] using hneeds

theorem of_receiverNeeds {m : Method} (h : receiverNeeds c ty m = false) :
    ∃ found, c.findMethod ty m.name m.params = some found ∧ found.returns = m.returns := by
  unfold receiverNeeds at h
  cases hfind : c.findMethod ty m.name m.params with
  | none => simp [hfind] at h
  | some found => exact ⟨found, rfl, by simpa [hfind] using h⟩

theorem of_needsDowncast (h : p.needsDowncast c ty s i = false) (hout : s.output i = .value i) :
    (∀ a ∈ s.assertions, assertionNeeds c ty (.value i) a = false) ∧
      ∀ j ∈ p.referencePositions (.value i), ∀ t, p.statements[j]? = some t →
        statementNeeds c ty (.value i) t = false := by
  unfold needsDowncast at h
  rw [hout, Bool.or_eq_false_iff, List.any_eq_false, List.any_eq_false] at h
  refine ⟨fun a ha => by simpa using h.1 a ha, fun j hj t ht => ?_⟩
  simpa [ht] using h.2 j hj

theorem of_statementNeeds {t : Statement} (h : statementNeeds c ty (.value i) t = false) :
    (∀ a ∈ t.assertions, assertionNeeds c ty (.value i) a = false) ∧
      operationNeeds c ty (.value i) t.op = false ∧
        ∀ r ∈ t.reads, fieldNeeds c ty (.value i) r = false := by
  unfold statementNeeds at h
  simp only [Bool.or_eq_false_iff, List.any_eq_false, Bool.not_eq_true] at h
  exact ⟨h.1.1, h.1.2, h.2⟩

/-! ## What goes on type checking -/

variable (hs : p.statements[i]? = some s)

include hs

theorem fieldsFit_retyped {r : Ref} (h : p.FieldsFit c r)
    (hread : r.position = some i →
      r.hasElement = false ∧ fieldNeeds c ty (.value i) r = false) :
    (p.retyped i s ty).FieldsFit c r := by
  induction r with
  | field source f ih =>
    obtain ⟨hstands, hsource⟩ := h
    refine ⟨stands_retyped hs hstands (fun hpos => (hread hpos).1) fun hr => ?_, ?_⟩
    · have hneeds := (hread hr.position).2
      simpa [fieldNeeds, (Ref.sameValue_value_iff source i).mpr hr] using hneeds
    · refine ih hsource fun hpos => ⟨(hread hpos).1, ?_⟩
      have hneeds := (hread hpos).2
      by_cases hr : source.ResultOf i
      · rcases hr with rfl | rfl <;> rfl
      · rwa [fieldNeeds, if_neg ((Ref.sameValue_value_iff source i).not.mpr hr)] at hneeds
  | element array k ih =>
    refine ih h fun hpos => ?_
    cases (hread hpos).1
  | value k | null k | dangling => exact True.intro

theorem accepts_retyped {params : List Ty} {args : List Ref} (h : p.Accepts c params args)
    (hread : ∀ r ∈ args, r.position = some i →
      r.hasElement = false ∧ argumentNeeds c ty (.value i) params args = false) :
    (p.retyped i s ty).Accepts c params args := by
  intro x hx
  have hmem : x.2 ∈ args := (List.of_mem_zip hx).2
  refine stands_retyped hs (h x hx) (fun hpos => (hread x.2 hmem hpos).1) fun hr => ?_
  exact of_argumentNeeds (hread x.2 hmem hr.position).2 x hx hr

theorem operationFits_retyped {op : Operation} (h : p.OperationFits c op)
    (hread : ∀ r ∈ op.reads, r.position = some i →
      r.hasElement = false ∧ operationNeeds c ty (.value i) op = false)
    (hstored : ∀ array index value component, op = .store (.element array index) value →
      value.ResultOf i → p.typeOf? array = some (.array component) →
      c.isAssignable ty component = true) :
    (p.retyped i s ty).OperationFits c op := by
  cases op with
  | construct k args mock => exact accepts_retyped hs h hread
  | call m callee args =>
    obtain ⟨hreceiver, hargs⟩ := h
    refine ⟨?_, accepts_retyped hs hargs fun r hr hpos => ?_⟩
    · rintro hinstance r rfl
      have hmem : r ∈ (Operation.call m (some r) args).reads := List.mem_cons_self
      refine hasMethod_retyped hs (hreceiver hinstance r rfl) (fun hpos => (hread r hmem hpos).1)
        fun hr => ?_
      have hneeds := (hread r hmem hr.position).2
      simp [operationNeeds, hinstance, (Ref.sameValue_value_iff r i).mpr hr] at hneeds
      exact of_receiverNeeds hneeds.1
    · have h := hread r (List.mem_append_right _ hr) hpos
      rw [operationNeeds, Bool.or_eq_false_iff] at h
      exact ⟨h.1, h.2.2⟩
  | read f source =>
    rintro hinstance r rfl
    have hmem : r ∈ (Operation.read f (some r)).reads := List.mem_singleton.mpr rfl
    refine stands_retyped hs (h hinstance r rfl) (fun hpos => (hread r hmem hpos).1) fun hr => ?_
    have hneeds := (hread r hmem hr.position).2
    simpa [operationNeeds, hinstance, (Ref.sameValue_value_iff r i).mpr hr] using hneeds
  | store target value =>
    rintro array index rfl
    obtain ⟨component, harray, hvalue⟩ := h array index rfl
    have htarget : array.position ≠ some i := by
      intro hpos
      cases (hread (.element array index) List.mem_cons_self hpos).1
    have hmem : value ∈ (Operation.store (.element array index) value).reads :=
      List.mem_cons_of_mem _ (List.mem_singleton.mpr rfl)
    refine ⟨component, (typeOf?_retyped_of_ne hs htarget).trans harray, ?_⟩
    refine stands_retyped hs hvalue (fun hpos => (hread value hmem hpos).1) fun hr => ?_
    exact hstored array index value component rfl hr harray
  | allocate n | literal v => exact True.intro

theorem assertionFits_retyped {a : Assertion} (h : p.AssertionFits c a)
    (hread : a.source.position = some i →
      a.source.ResultOf i ∧ assertionNeeds c ty (.value i) a = false) :
    (p.retyped i s ty).AssertionFits c a := by
  obtain ⟨hcheck, hsource⟩ := h
  have hplain : a.source.position = some i → a.source.hasElement = false :=
    fun hpos => (hread hpos).1.hasElement
  refine ⟨checkFits_retyped hs hcheck hplain ?_ ?_, fieldsFit_retyped hs hsource ?_⟩
  · intro hr m v hkind
    have hneeds := (hread hr.position).2
    simp only [assertionNeeds, hkind, (Ref.sameValue_value_iff a.source i).mpr hr,
      Bool.true_and] at hneeds
    cases hfind : c.findMethod ty m.name m.params with
    | none => simp [hfind] at hneeds
    | some found => rfl
  · intro hr f v hkind
    have hneeds := (hread hr.position).2
    simpa [assertionNeeds, hkind, (Ref.sameValue_value_iff a.source i).mpr hr] using hneeds
  · intro hpos
    refine ⟨hplain hpos, ?_⟩
    rcases (hread hpos).1 with h | h <;> rw [h] <;> rfl

end

/-! ## One position -/

variable {c : Cluster} {p : Program}

/-- A position is left alone, or it is a narrowed call whose narrower type is not needed. -/
theorem widenAt_cases (c : Cluster) (p : Program) (i : Nat) :
    widenAt c p i = p ∨ ∃ s natural, p.statements[i]? = some s ∧ p.Narrowed c i natural ∧
      s.output i = .value i ∧ p.needsDowncast c natural s i = false ∧
      widenAt c p i = p.retyped i s natural := by
  unfold widenAt
  split
  · next s hs =>
    split
    · next m callee args hop =>
      split
      · exact Or.inl rfl
      · next hkept =>
        simp only [Bool.or_eq_true, beq_iff_eq, Bool.not_eq_true', not_or, Bool.not_eq_true,
          Bool.not_eq_false] at hkept
        obtain ⟨⟨hne, hassign⟩, hneeds⟩ := hkept
        refine Or.inr ⟨s, m.returns, hs, ⟨s, m, callee, args, hs, hop, rfl, hne, hassign⟩, ?_,
          hneeds, rfl⟩
        rw [Statement.output, hop]
        rfl
    · exact Or.inl rfl
  · exact Or.inl rfl

/-- A call that is narrowed after one was widened is another one, and it was narrowed before. -/
theorem Narrowed.of_retyped {i k : Nat} {s : Statement} {natural ty : Ty}
    (hs : p.statements[i]? = some s) (hi : p.Narrowed c i natural)
    (h : (p.retyped i s natural).Narrowed c k ty) : p.Narrowed c k ty := by
  obtain ⟨t', m, callee, args, ht', hop, hreturns, hne, hassign⟩ := h
  obtain ⟨t, ht, hsame, -, ⟨rfl, hty⟩ | ⟨-, rfl⟩⟩ := of_getElem?_retyped hs ht'
  · obtain ⟨t₀, m₀, callee₀, args₀, ht₀, hop₀, rfl, -⟩ := hi
    obtain rfl := Option.some.inj (ht.symm.trans ht₀)
    rw [hsame, hop₀] at hop
    cases hop
    exact absurd (hty.trans hreturns) hne
  · exact ⟨t', m, callee, args, ht, hop, hreturns, hne, hassign⟩

theorem ReadersSeen.retyped {i : Nat} {s : Statement} {natural : Ty}
    (h : p.ReadersSeen c) (hs : p.statements[i]? = some s) (hi : p.Narrowed c i natural) :
    (p.retyped i s natural).ReadersSeen c where
  element k ty hk t' ht' := by
    obtain ⟨j, t, ht, hop, -⟩ := of_mem_retyped hs ht'
    rw [Statement.reads, hop]
    exact h.element k ty (hi.of_retyped hs hk) t (List.mem_of_getElem? ht)
  stored k ty hk t' ht' array index value component hstore hvalue harray := by
    obtain ⟨j, t, ht, hop, -⟩ := of_mem_retyped hs ht'
    rw [hop] at hstore
    have hmem := List.mem_of_getElem? ht
    -- The array is none that the widened call gave, since nothing reads elements of that.
    have htarget : array.position ≠ some i := by
      intro hpos
      have hmem' : .element array index ∈ t.reads := by
        rw [Statement.reads, hstore]
        exact List.mem_cons_self
      cases h.element i natural hi t hmem (.element array index) hmem' hpos
    rw [typeOf?_retyped_of_ne hs htarget] at harray
    exact h.stored k ty (hi.of_retyped hs hk) t hmem array index value component hstore hvalue
      harray
  asserted k ty hk j t' ht' a ha hpos := by
    obtain ⟨t, ht, -, hassertions, -⟩ := of_getElem?_retyped hs ht'
    rw [hassertions] at ha
    rw [referencePositions_congr (untyped_retyped hs)]
    exact h.asserted k ty (hi.of_retyped hs hk) j t ht a ha hpos

theorem Widenable.typeChecks_retyped (h : p.Widenable c) {i : Nat} {s : Statement} {natural : Ty}
    (hs : p.statements[i]? = some s) (hi : p.Narrowed c i natural) (hout : s.output i = .value i)
    (hneeds : p.needsDowncast c natural s i = false) :
    (p.retyped i s natural).TypeChecks c := by
  obtain ⟨hown, hothers⟩ := of_needsDowncast hneeds hout
  -- What reads the result is found, and needs no more than the natural type.
  have hread : ∀ (j : Nat) (t : Statement), p.statements[j]? = some t → ∀ r ∈ t.reads,
      r.position = some i →
      r.hasElement = false ∧ statementNeeds c natural (.value i) t = false := by
    intro j t ht r hr hpos
    have hplain := h.seen.element i natural hi t (List.mem_of_getElem? ht) r hr hpos
    exact ⟨hplain, hothers j (mem_referencePositions h.valid ht hr hpos hplain) t ht⟩
  have hasserted : ∀ (j : Nat) (t : Statement), p.statements[j]? = some t → ∀ a ∈ t.assertions,
      a.source.position = some i →
      a.source.ResultOf i ∧ assertionNeeds c natural (.value i) a = false := by
    intro j t ht a ha hpos
    obtain ⟨hr, rfl | hj⟩ := h.seen.asserted i natural hi j t ht a ha hpos
    · obtain rfl := Option.some.inj (hs.symm.trans ht)
      exact ⟨hr, hown a ha⟩
    · exact ⟨hr, (of_statementNeeds (hothers j hj t ht)).1 a ha⟩
  intro t' ht'
  obtain ⟨j, t, ht, hop, hassertions⟩ := of_mem_retyped hs ht'
  have hmem := List.mem_of_getElem? ht
  have hfits := h.typed t hmem
  constructor
  · rw [hop]
    refine operationFits_retyped hs hfits.operation (fun r hr hpos => ?_)
      (h.seen.stored i natural hi t hmem)
    obtain ⟨hplain, hneeds⟩ := hread j t ht r hr hpos
    exact ⟨hplain, (of_statementNeeds hneeds).2.1⟩
  · intro r hr
    rw [Statement.reads, hop] at hr
    refine fieldsFit_retyped hs (hfits.fields r hr) fun hpos => ?_
    obtain ⟨hplain, hneeds⟩ := hread j t ht r hr hpos
    exact ⟨hplain, (of_statementNeeds hneeds).2.2 r hr⟩
  · intro a ha
    rw [hassertions] at ha
    exact assertionFits_retyped hs (hfits.assertions a ha) (hasserted j t ht a ha)

theorem widenAt_widenable (h : p.Widenable c) (i : Nat) : (widenAt c p i).Widenable c := by
  rcases widenAt_cases c p i with hsame | ⟨s, natural, hs, hi, hout, hneeds, hwidened⟩
  · rwa [hsame]
  · rw [hwidened]
    exact ⟨isValid_congr (untyped_retyped hs).symm h.valid, h.typeChecks_retyped hs hi hout hneeds,
      h.seen.retyped hs hi⟩

/-! ## The whole pass -/

theorem foldl_widenable (positions : List Nat) (h : p.Widenable c) :
    (positions.foldl (widenAt c) p).Widenable c := by
  induction positions generalizing p with
  | nil => exact h
  | cons i rest ih => exact ih (widenAt_widenable h i)

/-- Where no narrowed call has a reader that is not looked for, a program that type checks goes on
type checking. -/
theorem removeDowncasts_typeChecks (c : Cluster) (p : Program) (hvalid : p.isValid = true)
    (htyped : p.TypeChecks c) (hseen : p.ReadersSeen c) :
    ∃ p', p.removeDowncasts c = .ok (p', ()) ∧ p'.TypeChecks c := by
  have h := foldl_widenable (List.range p.length) ⟨hvalid, htyped, hseen⟩
  refine ⟨_, ?_, h.typed⟩
  rw [removeDowncasts, checked, if_pos h.valid]

/-! ### A factory of shapes -/

namespace Shapes

def square : ClassDecl :=
  { ClassDecl.ofName "Square" with
    superclass := some "Shape"
    methods := [⟨"side", [], .int, false⟩]
    fields := [⟨"parts", .array .int, false, true⟩] }

def factory : ClassDecl :=
  { ClassDecl.ofName "Factory" with
    methods := [⟨"ints", [.int], .void, false⟩, ⟨"make", [], .named "Shape", false⟩] }

/-- A factory makes shapes, some of which are squares. -/
def shapes : Cluster := ⟨[factory, ClassDecl.ofName "Shape", square], by decide⟩

def make : Method := factory.methodOf ⟨"make", [], .named "Shape", false⟩

def ints : Method := factory.methodOf ⟨"ints", [.int], .void, false⟩

def side : Method := square.methodOf ⟨"side", [], .int, false⟩

def parts : Field := square.fieldOf ⟨"parts", .array .int, false, true⟩

def newFactory : Statement := .construct ⟨factory.ty, []⟩ []

/-- A shape that the factory makes, cast to a square. -/
def makeSquare : Statement := (Statement.call make (some (.value 0)) []).withTy square.ty

/-- Makes two squares and asks the first one for its side. -/
def twoSquares : Program :=
  { Program.empty with
    statements := [
      newFactory,
      (makeSquare.addAssertion ⟨.value 1, .inspector side (.int 2)⟩).1,
      makeSquare] }

/-- Makes a square and passes on one of its parts. -/
def passedPart : Program :=
  { Program.empty with
    statements := [
      newFactory,
      makeSquare,
      .call ints (some (.value 0)) [.element (.field (.value 1) parts) 0]] }

theorem findMethod_make : shapes.findMethod factory.ty make.name make.params = some make := by cbv

theorem findMethod_ints : shapes.findMethod factory.ty ints.name ints.params = some ints := by cbv

theorem findMethod_side : shapes.findMethod square.ty side.name side.params = some side := by cbv

theorem square_isAssignable : shapes.isAssignable square.ty make.returns = true := by cbv

theorem shape_not_isAssignable : shapes.isAssignable make.returns square.ty = false := by cbv

/-- A statement that only calls `make` on the factory fits where that is the first value. -/
theorem fits_make {p : Program} {s : Statement} (hp : p.typeOf? (.value 0) = some factory.ty)
    (hop : s.op = makeSquare.op)
    (hassertions : ∀ a ∈ s.assertions, p.AssertionFits shapes a) : p.StatementFits shapes s where
  operation := by
    rw [hop]
    refine ⟨?_, nofun⟩
    rintro - r ⟨⟩
    exact ⟨factory.ty, make, hp, findMethod_make, rfl⟩
  fields := by
    intro r hr
    rw [Statement.reads, hop] at hr
    obtain rfl := List.mem_singleton.mp hr
    exact True.intro
  assertions := hassertions

theorem fits_newFactory (p : Program) : p.StatementFits shapes newFactory :=
  ⟨nofun, nofun, nofun⟩

theorem twoSquares_typeChecks : twoSquares.TypeChecks shapes := by
  intro s hs
  simp only [twoSquares, List.mem_cons, List.not_mem_nil, or_false] at hs
  rcases hs with rfl | rfl | rfl
  · exact fits_newFactory _
  · refine fits_make rfl rfl fun a ha => ?_
    obtain rfl := List.mem_singleton.mp ha
    exact ⟨⟨square.ty, rfl, by rw [findMethod_side]; rfl⟩, True.intro⟩
  · exact fits_make rfl rfl nofun

theorem twoSquares_readersSeen : twoSquares.ReadersSeen shapes where
  element _ _ _ t ht r hr _ :=
    have hplain : ∀ t ∈ twoSquares.statements, ∀ r ∈ t.reads, r.hasElement = false := by decide
    hplain t ht r hr
  stored _ _ _ t ht _ _ _ _ hop _ _ := by
    have hstore : ∀ t ∈ twoSquares.statements, t.op.isStore = false := by decide
    have h := hstore t ht
    rw [hop] at h
    cases h
  asserted i _ _ j t ht a ha hpos := by
    match j, ht with
    | 0, ht | 2, ht =>
      cases ht
      cases ha
    | 1, ht =>
      cases ht
      obtain rfl := List.mem_singleton.mp ha
      obtain rfl := Option.some.inj hpos
      exact ⟨Or.inl rfl, Or.inl rfl⟩

theorem passedPart_typeChecks : passedPart.TypeChecks shapes := by
  intro s hs
  simp only [passedPart, List.mem_cons, List.not_mem_nil, or_false] at hs
  rcases hs with rfl | rfl | rfl
  · exact fits_newFactory _
  · exact fits_make rfl rfl nofun
  · have hsquare : shapes.isAssignable square.ty square.ty = true :=
      shapes.isAssignable_self _ (by decide)
    have hint : shapes.isAssignable .int .int = true := shapes.isAssignable_self _ (by decide)
    refine ⟨⟨?_, ?_⟩, ?_, nofun⟩
    · rintro - r ⟨⟩
      exact ⟨factory.ty, ints, rfl, findMethod_ints, rfl⟩
    · intro x hx
      obtain rfl := List.mem_singleton.mp hx
      exact ⟨.int, rfl, hint⟩
    · intro r hr
      rcases List.mem_cons.mp hr with rfl | hr
      · exact True.intro
      · obtain rfl := List.mem_singleton.mp hr
        exact ⟨⟨square.ty, rfl, hsquare⟩, True.intro⟩

/-- The square becomes a shape: nothing that passes on its parts is looked for. -/
theorem passedPart_widened :
    passedPart.removeDowncasts shapes = .ok (passedPart.retyped 1 makeSquare make.returns, ()) := by
  have hneeds : passedPart.needsDowncast shapes make.returns makeSquare 1 = false := by decide
  have hne : (makeSquare.ty == make.returns) = false := by decide
  have h0 : widenAt shapes passedPart 0 = passedPart := rfl
  have h1 : widenAt shapes passedPart 1 = passedPart.retyped 1 makeSquare make.returns := by
    show (if makeSquare.ty == make.returns || !shapes.isAssignable square.ty make.returns
      || passedPart.needsDowncast shapes make.returns makeSquare 1 then _ else _) = _
    rw [hneeds, hne, square_isAssignable]
    rfl
  have h2 : widenAt shapes (passedPart.retyped 1 makeSquare make.returns) 2 =
      passedPart.retyped 1 makeSquare make.returns := rfl
  show checked (widenAt shapes (widenAt shapes (widenAt shapes passedPart 0) 1) 2) () = _
  rw [h0, h1, h2]
  rfl

end Shapes

theorem removeDowncasts_typeChecks_twoSquares :
    Shapes.twoSquares.isValid = true ∧ Shapes.twoSquares.TypeChecks Shapes.shapes ∧
      Shapes.twoSquares.ReadersSeen Shapes.shapes ∧
      ∃ p', Shapes.twoSquares.removeDowncasts Shapes.shapes = .ok (p', ()) ∧
        p'.TypeChecks Shapes.shapes :=
  ⟨by decide, Shapes.twoSquares_typeChecks, Shapes.twoSquares_readersSeen,
    removeDowncasts_typeChecks Shapes.shapes Shapes.twoSquares (by decide)
      Shapes.twoSquares_typeChecks Shapes.twoSquares_readersSeen⟩

/-- The pass does not keep every program type checked. -/
theorem removeDowncasts_illTyped :
    Shapes.passedPart.isValid = true ∧ Shapes.passedPart.TypeChecks Shapes.shapes ∧
      ∃ p', Shapes.passedPart.removeDowncasts Shapes.shapes = .ok (p', ()) ∧
        ¬ p'.TypeChecks Shapes.shapes := by
  refine ⟨by decide, Shapes.passedPart_typeChecks, _, Shapes.passedPart_widened, fun h => ?_⟩
  obtain ⟨⟨t, ht, hassign⟩, -⟩ := (h _ (List.mem_of_getElem? (i := 2) rfl)).fields
    (.element (.field (.value 1) Shapes.parts) 0) (by decide)
  obtain rfl := Option.some.inj ht
  cases Shapes.shape_not_isAssignable.symm.trans hassign

end Program

end SuiteSearch
