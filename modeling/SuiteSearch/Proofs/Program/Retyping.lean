import SuiteSearch.Proofs.Mutation.Typing

/-!
# Type checking and retyping

A program type checks if all that its statements and assertions read has a type that can stand where
it is used.  Declaring the result of one statement with another type changes the types of what is
based at that statement only, and of that nothing that starts with a field.

    TypeChecks c p          operations, field reads and assertions fit the declared types
    p.retyped i s ty        statement i is s declared with ty
    p.untyped               what is left when types are not looked at
    stands_retyped          what stood for a type stands for it, if the new type does
-/

namespace SuiteSearch

/-! ## Algorithm -/

/-- Whether an element of an array is on the way from the base. -/
def Ref.hasElement : Ref → Bool
  | .field source _ => source.hasElement
  | .element _ _ => true
  | .value _ | .null _ | .dangling => false

namespace Program

/-- Whether a value has a method with this name, these parameters and this result. -/
def HasMethod (c : Cluster) (p : Program) (m : Method) (r : Ref) : Prop :=
  ∃ t found, p.typeOf? r = some t ∧ c.findMethod t m.name m.params = some found ∧
    found.returns = m.returns

/-- Whether arguments have types that can stand for the parameters. -/
def Accepts (c : Cluster) (p : Program) (params : List Ty) (args : List Ref) : Prop :=
  ∀ x ∈ params.zip args, p.Stands c x.1 x.2

/-- Whether all that an operation reads has a type that can stand where it is used. -/
def OperationFits (c : Cluster) (p : Program) : Operation → Prop
  | .construct k args _ => p.Accepts c k.params args
  | .call m callee args =>
    (m.isStatic = false → ∀ r, callee = some r → p.HasMethod c m r) ∧ p.Accepts c m.params args
  | .read f source => f.isStatic = false → ∀ r, source = some r → p.Stands c f.declaring r
  | .store target value => ∀ array index, target = .element array index →
      ∃ component, p.typeOf? array = some (.array component) ∧ p.Stands c component value
  | .allocate _ | .literal _ => True

/-- Whether what an assertion calls or reads is there. -/
def CheckFits (c : Cluster) (p : Program) (source : Ref) : Check → Prop
  | .inspector m _ => ∃ t, p.typeOf? source = some t ∧ (c.findMethod t m.name m.params).isSome
  | .field f _ => p.Stands c f.declaring source
  | .equals _ | .nullness _ | .elements _ => True

/-- Whether what an assertion calls or reads is there, on the way to its source, too. -/
def AssertionFits (c : Cluster) (p : Program) (a : Assertion) : Prop :=
  p.CheckFits c a.source a.check ∧ p.FieldsFit c a.source

/-- Every use of a value by a statement and its assertions fits the declared types. -/
structure StatementFits (c : Cluster) (p : Program) (s : Statement) : Prop where
  operation : p.OperationFits c s.op
  fields : ∀ r ∈ s.reads, p.FieldsFit c r
  assertions : ∀ a ∈ s.assertions, p.AssertionFits c a

def TypeChecks (c : Cluster) (p : Program) : Prop := ∀ s ∈ p.statements, p.StatementFits c s

/-- The program with the result of one statement declared with another type. -/
def retyped (p : Program) (i : Nat) (s : Statement) (ty : Ty) : Program :=
  { p with statements := p.statements.set i (s.withTy ty) }

/-- The statements, whatever types they are declared with. -/
def untyped (p : Program) : List Statement := p.statements.map (·.withTy .void)

end Program

/-! ## References -/

namespace Ref

theorem ResultOf.hasElement {i : Nat} {r : Ref} (h : r.ResultOf i) : r.hasElement = false := by
  rcases h with rfl | rfl <;> rfl

theorem sameValue_value_iff (r : Ref) (i : Nat) : r.sameValue (.value i) = true ↔ r.ResultOf i := by
  cases r <;> simp [sameValue, ResultOf]

theorem root_resultOf {i : Nat} {r : Ref} (hpos : r.position = some i)
    (hplain : r.hasElement = false) : r.root.ResultOf i := by
  induction r with
  | value k =>
    obtain rfl := Option.some.inj hpos
    exact Or.inl rfl
  | null k =>
    obtain rfl := Option.some.inj hpos
    exact Or.inr rfl
  | field source f ih => exact ih hpos hplain
  | element array k => cases hplain
  | dangling => cases hpos

end Ref

namespace Program

/-! ## Retyping -/

/-- Validity does not depend on declared types. -/
theorem isValid_congr {p q : Program} (h : p.untyped = q.untyped) (hvalid : p.isValid = true) :
    q.isValid = true := by
  rw [isValid_iff] at hvalid ⊢
  intro j t ht
  have hj : p.untyped[j]? = some (t.withTy .void) := by
    rw [h, untyped, List.getElem?_map, ht]
    rfl
  rw [untyped, List.getElem?_map, Option.map_eq_some_iff] at hj
  obtain ⟨s, hs, hst⟩ := hj
  calc t.isValid j = (t.withTy .void).isValid j := rfl
    _ = (s.withTy .void).isValid j := by rw [hst]
    _ = true := hvalid j s hs

section
variable {c : Cluster} {p : Program} {i : Nat} {s : Statement} {ty : Ty}
  (hs : p.statements[i]? = some s)

include hs

theorem getElem?_retyped (j : Nat) :
    (p.retyped i s ty).statements[j]? =
      if j = i then some (s.withTy ty) else p.statements[j]? := by
  have hlt := (List.getElem?_eq_some_iff.mp hs).1
  show (p.statements.set i (s.withTy ty))[j]? = _
  by_cases hji : j = i
  · rw [hji, List.getElem?_set_self hlt, if_pos rfl]
  · rw [List.getElem?_set_ne (Ne.symm hji), if_neg hji]

theorem retyped_self : p.retyped i s s.ty = p := by
  obtain ⟨hlt, rfl⟩ := List.getElem?_eq_some_iff.mp hs
  exact congrArg (fun l => { p with statements := l }) (List.set_getElem_self hlt)

theorem untyped_retyped : (p.retyped i s ty).untyped = p.untyped := by
  apply List.ext_getElem?
  intro j
  rw [untyped, untyped, List.getElem?_map, List.getElem?_map, getElem?_retyped hs]
  split
  · next hji =>
    rw [hji, hs]
    rfl
  · rfl

/-- A statement of the new program is one of the old program, up to its type. -/
theorem of_getElem?_retyped {j : Nat} {t' : Statement}
    (h : (p.retyped i s ty).statements[j]? = some t') :
    ∃ t, p.statements[j]? = some t ∧ t'.op = t.op ∧ t'.assertions = t.assertions ∧
      (j = i ∧ t'.ty = ty ∨ j ≠ i ∧ t' = t) := by
  rw [getElem?_retyped hs] at h
  split at h
  · next hji =>
    obtain rfl := Option.some.inj h
    exact ⟨s, hji ▸ hs, rfl, rfl, Or.inl ⟨hji, rfl⟩⟩
  · next hji => exact ⟨t', h, rfl, rfl, Or.inr ⟨hji, rfl⟩⟩

theorem of_mem_retyped {t' : Statement} (h : t' ∈ (p.retyped i s ty).statements) :
    ∃ (j : Nat) (t : Statement), p.statements[j]? = some t ∧ t'.op = t.op ∧
      t'.assertions = t.assertions := by
  obtain ⟨j, hj⟩ := List.mem_iff_getElem?.mp h
  obtain ⟨t, ht, hop, hassertions, -⟩ := of_getElem?_retyped hs hj
  exact ⟨j, t, ht, hop, hassertions⟩

theorem typeOf?_retyped_of_resultOf {r : Ref} (hr : r.ResultOf i) :
    (p.retyped i s ty).typeOf? r = some ty := by
  rcases hr with rfl | rfl <;> simp [typeOf?, getElem?_retyped hs, Statement.withTy]

theorem typeOf?_retyped_of_ne {r : Ref} (hr : r.position ≠ some i) :
    (p.retyped i s ty).typeOf? r = p.typeOf? r := by
  induction r with
  | value k | null k =>
    have hk : k ≠ i := fun h => hr (h ▸ rfl)
    simp [typeOf?, getElem?_retyped hs, hk]
  | field source f => rfl
  | element array k ih => simp only [typeOf?, ih hr]
  | dangling => rfl

/-- Only what the statement gives has another type, and the elements of that. -/
theorem typeOf?_retyped {r : Ref} (hplain : r.position = some i → r.hasElement = false)
    (hr : ¬ r.ResultOf i) : (p.retyped i s ty).typeOf? r = p.typeOf? r := by
  by_cases hpos : r.position = some i
  · cases r with
    | value k | null k =>
      obtain rfl := Option.some.inj hpos
      simp [Ref.ResultOf] at hr
    | field source f => rfl
    | element array k => cases hplain hpos
    | dangling => rfl
  · exact typeOf?_retyped_of_ne hs hpos

theorem stands_retyped {r : Ref} {need : Ty} (h : p.Stands c need r)
    (hplain : r.position = some i → r.hasElement = false)
    (hnew : r.ResultOf i → c.isAssignable ty need = true) :
    (p.retyped i s ty).Stands c need r := by
  obtain ⟨t, ht, hassign⟩ := h
  by_cases hr : r.ResultOf i
  · exact ⟨ty, typeOf?_retyped_of_resultOf hs hr, hnew hr⟩
  · exact ⟨t, (typeOf?_retyped hs hplain hr).trans ht, hassign⟩

theorem hasMethod_retyped {r : Ref} {m : Method} (h : p.HasMethod c m r)
    (hplain : r.position = some i → r.hasElement = false)
    (hnew : r.ResultOf i →
      ∃ found, c.findMethod ty m.name m.params = some found ∧ found.returns = m.returns) :
    (p.retyped i s ty).HasMethod c m r := by
  obtain ⟨t, found, ht, hfound⟩ := h
  by_cases hr : r.ResultOf i
  · obtain ⟨found, hfound⟩ := hnew hr
    exact ⟨ty, found, typeOf?_retyped_of_resultOf hs hr, hfound⟩
  · exact ⟨t, found, (typeOf?_retyped hs hplain hr).trans ht, hfound⟩

theorem checkFits_retyped {r : Ref} {k : Check} (h : p.CheckFits c r k)
    (hplain : r.position = some i → r.hasElement = false)
    (hmethod : r.ResultOf i → ∀ m v, k = .inspector m v →
      (c.findMethod ty m.name m.params).isSome)
    (hfield : r.ResultOf i → ∀ f v, k = .field f v → c.isAssignable ty f.declaring = true) :
    (p.retyped i s ty).CheckFits c r k := by
  cases k with
  | inspector m v =>
    obtain ⟨t, ht, hfound⟩ := h
    by_cases hr : r.ResultOf i
    · exact ⟨ty, typeOf?_retyped_of_resultOf hs hr, hmethod hr m v rfl⟩
    · exact ⟨t, (typeOf?_retyped hs hplain hr).trans ht, hfound⟩
  | field f v => exact stands_retyped hs h hplain fun hr => hfield hr f v rfl
  | equals v | nullness b | elements vs => exact True.intro

end

end Program

end SuiteSearch
