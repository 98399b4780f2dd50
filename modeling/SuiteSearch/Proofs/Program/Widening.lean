import SuiteSearch.Proofs.Program.Downcast

/-!
# Giving up downcasts, in any order

Whether a narrower type is needed is asked of the readers of a call: of what they call, take and
assert, never of the types that they are declared with.  So no decision sees another one, and a
position that was visited already is left as it is.

    p.widenedTy c i s        the type that statement i is left with
    p.widened c visited      the program once some positions were visited
    widenAt_widened          visiting one more position adds it to them
    foldl_widenAt            so does visiting several, one after the other
    WidenedTo c p p'         what the pass makes of a program, and that it does so in any order
-/

namespace SuiteSearch

namespace Program

/-! ## Algorithm -/

/-- The type that the statement at a position is left with. -/
def widenedTy (c : Cluster) (p : Program) (i : Nat) (s : Statement) : Ty :=
  match s.op with
  | .call m _ _ =>
    if s.ty == m.returns || !c.isAssignable s.ty m.returns || p.needsDowncast c m.returns s i
    then s.ty else m.returns
  | _ => s.ty

/-- The program once some positions were visited.  What they are left with is read off the program
as it was first. -/
def widened (c : Cluster) (p : Program) (visited : List Nat) : Program :=
  { p with statements := p.statements.mapIdx fun i s =>
      if i ∈ visited then s.withTy (p.widenedTy c i s) else s }

/-- A statement stays, or it is a call that is declared with what its method returns. -/
def Widens (c : Cluster) (s s' : Statement) : Prop :=
  s' = s ∨ ∃ m callee args, s.op = .call m callee args ∧
    c.isAssignable s.ty m.returns = true ∧ s' = s.withTy m.returns

/-- Whether an order visits all calls, however often, and whatever else. -/
def VisitsCalls (p : Program) (order : List Nat) : Prop :=
  ∀ i s m callee args, p.statements[i]? = some s → s.op = .call m callee args → i ∈ order

/-- What giving up downcasts makes of a program. -/
structure WidenedTo (c : Cluster) (p p' : Program) : Prop where
  /-- What is no statement stays. -/
  rest : { p' with statements := p.statements } = p
  /-- Of the statements, the types of calls change only, and only to what they could stand for. -/
  statements : List.Forall₂ (Widens c) p.statements p'.statements
  /-- A statement is decided alike whatever types the other ones are declared with. -/
  independent : ∀ q i, q.untyped = p.untyped → q.statements[i]? = p.statements[i]? →
    (widenAt c q i).statements[i]? = p'.statements[i]?
  anyOrder : ∀ order, p.VisitsCalls order → order.foldl (widenAt c) p = p'
  again : p'.removeDowncasts c = .ok (p', ())

/-! ## One decision -/

section
variable {c : Cluster} {p q : Program} {i : Nat} {s : Statement}

/-- Whether a type has to stay does not depend on the types of the readers. -/
theorem needsDowncast_congr (h : p.untyped = q.untyped) (natural : Ty) :
    p.needsDowncast c natural s i = q.needsDowncast c natural s i := by
  have hreader : ∀ (p : Program) (j : Nat),
      p.statements[j]?.any (statementNeeds c natural (s.output i)) =
        p.untyped[j]?.any (statementNeeds c natural (s.output i)) := by
    intro p j
    rw [untyped, List.getElem?_map, Option.any_map]
    rfl
  simp only [needsDowncast, referencePositions_congr h, hreader, h]

theorem widenedTy_congr (h : p.untyped = q.untyped) : p.widenedTy c i s = q.widenedTy c i s := by
  unfold widenedTy
  simp only [needsDowncast_congr h]

theorem widenedTy_of_call {m : Method} {callee : Option Ref} {args : List Ref}
    (hop : s.op = .call m callee args) :
    p.widenedTy c i s = if s.ty == m.returns || !c.isAssignable s.ty m.returns
      || p.needsDowncast c m.returns s i then s.ty else m.returns := by
  unfold widenedTy
  rw [hop]

theorem widenedTy_of_not_call (hop : ∀ m callee args, s.op ≠ .call m callee args) :
    p.widenedTy c i s = s.ty := by
  unfold widenedTy
  split
  · next m callee args h => exact absurd h (hop m callee args)
  · rfl

/-- A statement whose type was decided on is not decided otherwise. -/
theorem widenedTy_withTy : p.widenedTy c i (s.withTy (p.widenedTy c i s)) = p.widenedTy c i s := by
  by_cases hcall : ∃ m callee args, s.op = .call m callee args
  · obtain ⟨m, callee, args, hop⟩ := hcall
    have hty := widenedTy_of_call (c := c) (p := p) (i := i) hop
    split at hty
    · rw [hty]
      exact hty
    · rw [hty, widenedTy_of_call (s := s.withTy m.returns) hop]
      exact if_pos (by simp [Statement.withTy])
  · push Not at hcall
    exact widenedTy_of_not_call hcall

theorem widens_widenedTy : Widens c s (s.withTy (p.widenedTy c i s)) := by
  by_cases hcall : ∃ m callee args, s.op = .call m callee args
  · obtain ⟨m, callee, args, hop⟩ := hcall
    rw [widenedTy_of_call hop]
    split
    · exact Or.inl rfl
    · next hkept =>
      simp only [Bool.or_eq_true, Bool.not_eq_true', not_or, Bool.not_eq_false] at hkept
      exact Or.inr ⟨m, callee, args, hop, hkept.1.2, rfl⟩
  · push Not at hcall
    rw [widenedTy_of_not_call hcall]
    exact Or.inl rfl

theorem widenAt_of_none (hs : p.statements[i]? = none) : widenAt c p i = p := by
  unfold widenAt
  rw [hs]

theorem widenAt_of_some (hs : p.statements[i]? = some s) :
    widenAt c p i = p.retyped i s (p.widenedTy c i s) := by
  unfold widenAt
  rw [hs]
  dsimp only
  split
  · next hop =>
    rw [widenedTy_of_call hop]
    split
    · exact (retyped_self hs).symm
    · rfl
  · next hcall =>
    rw [widenedTy_of_not_call hcall]
    exact (retyped_self hs).symm

/-! ## Some positions -/

/-- A program is told by its statements and what it is otherwise. -/
theorem eq_of_statements (hrest : { q with statements := p.statements } = p)
    (h : ∀ j : Nat, q.statements[j]? = p.statements[j]?) : q = p := by
  rw [← List.ext_getElem? h] at hrest
  exact hrest

theorem getElem?_widened (visited : List Nat) (j : Nat) :
    (p.widened c visited).statements[j]? = p.statements[j]?.map fun s =>
      if j ∈ visited then s.withTy (p.widenedTy c j s) else s :=
  List.getElem?_mapIdx

theorem untyped_widened (visited : List Nat) : (p.widened c visited).untyped = p.untyped := by
  apply List.ext_getElem?
  intro j
  rw [untyped, untyped, List.getElem?_map, List.getElem?_map, getElem?_widened, Option.map_map]
  refine Option.map_congr fun s _ => ?_
  show Statement.withTy (if j ∈ visited then _ else s) .void = _
  split <;> rfl

theorem widened_nil : p.widened c [] = p := by
  refine eq_of_statements rfl fun j => ?_
  rw [getElem?_widened]
  exact Option.map_id'

/-- Only the calls count that were visited. -/
theorem widened_congr {visited visited' : List Nat}
    (h : ∀ i s m callee args, p.statements[i]? = some s → s.op = .call m callee args →
      (i ∈ visited ↔ i ∈ visited')) : p.widened c visited = p.widened c visited' := by
  refine eq_of_statements rfl fun i => ?_
  rw [getElem?_widened, getElem?_widened]
  refine Option.map_congr fun s hs => ?_
  by_cases hcall : ∃ m callee args, s.op = .call m callee args
  · obtain ⟨m, callee, args, hop⟩ := hcall
    simp only [h i s m callee args hs hop]
  · push Not at hcall
    rw [widenedTy_of_not_call hcall]
    exact (ite_self s).trans (ite_self s).symm

/-- Visiting a position adds it to the visited ones, whichever these are. -/
theorem widenAt_widened (visited : List Nat) (i : Nat) :
    widenAt c (p.widened c visited) i = p.widened c (i :: visited) := by
  cases hs : p.statements[i]? with
  | none =>
    rw [widenAt_of_none (by rw [getElem?_widened, hs]; rfl)]
    refine widened_congr fun j s _ _ _ hj _ => ?_
    have hji : j ≠ i := by
      rintro rfl
      cases hs.symm.trans hj
    rw [List.mem_cons, or_iff_right hji]
  | some s =>
    have hs' := getElem?_widened (c := c) (p := p) visited i
    rw [hs, Option.map_some] at hs'
    rw [widenAt_of_some hs']
    refine eq_of_statements rfl fun j => ?_
    -- What was visited before has other types at most, so the decision is that of `p`.
    rw [getElem?_retyped hs', getElem?_widened, getElem?_widened,
      widenedTy_congr (untyped_widened visited)]
    by_cases hji : j = i
    · rw [if_pos hji, hji, hs, Option.map_some, if_pos List.mem_cons_self]
      split
      · exact congrArg some (congrArg s.withTy widenedTy_withTy)
      · rfl
    · simp only [if_neg hji, List.mem_cons, or_iff_right hji]

/-! ## The whole pass -/

theorem foldl_widenAt (order visited : List Nat) :
    order.foldl (widenAt c) (p.widened c visited) = p.widened c (order.reverse ++ visited) := by
  induction order generalizing visited with
  | nil => rfl
  | cons i rest ih =>
    rw [List.foldl_cons, widenAt_widened, ih, List.reverse_cons, List.append_assoc,
      List.singleton_append]

theorem VisitsCalls.foldl_widened {order : List Nat} (h : p.VisitsCalls order)
    (visited : List Nat) : order.foldl (widenAt c) (p.widened c visited) = p.widened c order := by
  rw [foldl_widenAt]
  refine widened_congr fun i s m callee args hs hop => ?_
  have hi := h i s m callee args hs hop
  simp [hi]

theorem getElem?_widened_range (hs : p.statements[i]? = some s) :
    (p.widened c (List.range p.length)).statements[i]? = some (s.withTy (p.widenedTy c i s)) := by
  have hi : i ∈ List.range p.length := List.mem_range.mpr (List.getElem?_eq_some_iff.mp hs).1
  rw [getElem?_widened, hs, Option.map_some, if_pos hi]

theorem visitsCalls_range : p.VisitsCalls (List.range p.length) := by
  intro i s _ _ _ hs _
  exact List.mem_range.mpr (List.getElem?_eq_some_iff.mp hs).1

theorem length_widened (visited : List Nat) : (p.widened c visited).length = p.length :=
  List.length_mapIdx

theorem removeDowncasts_widened (h : p.isValid = true) (visited : List Nat) :
    (p.widened c visited).removeDowncasts c =
      .ok (p.widened c (List.range p.length), ()) := by
  rw [removeDowncasts, length_widened, visitsCalls_range.foldl_widened, checked,
    if_pos (isValid_congr (untyped_widened _).symm h)]

theorem forall₂_widened :
    List.Forall₂ (Widens c) p.statements (p.widened c (List.range p.length)).statements := by
  rw [List.forall₂_iff_get]
  refine ⟨(length_widened _).symm, fun i hlt _ => ?_⟩
  have hget := getElem?_widened_range (c := c) (List.getElem?_eq_getElem hlt)
  rw [List.get_eq_getElem, List.get_eq_getElem, (List.getElem?_eq_some_iff.mp hget).2]
  exact widens_widenedTy

theorem getElem?_widenAt_congr (hq : q.untyped = p.untyped)
    (hs : q.statements[i]? = p.statements[i]?) :
    (widenAt c q i).statements[i]? = (p.widened c (List.range p.length)).statements[i]? := by
  cases hi : p.statements[i]? with
  | none =>
    rw [hi] at hs
    rw [widenAt_of_none hs, hs, getElem?_widened, hi]
    rfl
  | some s =>
    rw [hi] at hs
    rw [widenAt_of_some hs, getElem?_retyped hs, if_pos rfl, widenedTy_congr hq,
      getElem?_widened_range hi]

theorem VisitsCalls.foldl_eq {order : List Nat} (h : p.VisitsCalls order) :
    order.foldl (widenAt c) p = p.widened c (List.range p.length) := by
  have hfold := h.foldl_widened (c := c) []
  rw [widened_nil] at hfold
  rw [hfold]
  exact widened_congr fun i s m callee args hs hop =>
    iff_of_true (h i s m callee args hs hop) (visitsCalls_range i s m callee args hs hop)

end

/-- Giving up downcasts changes declared types of calls only, to what their methods return.  Each is
decided whatever the other ones are declared with, so all orders give the same program, and nothing
is left for a second time. -/
theorem removeDowncasts_orderFree (c : Cluster) (p : Program) (hvalid : p.isValid = true) :
    ∃ p', p.removeDowncasts c = .ok (p', ()) ∧ p.WidenedTo c p' := by
  have hrun := removeDowncasts_widened (c := c) hvalid
  refine ⟨p.widened c (List.range p.length), ?_, ?_⟩
  · have h := hrun []
    rwa [widened_nil] at h
  · exact {
      rest := rfl
      statements := forall₂_widened
      independent := fun _ _ => getElem?_widenAt_congr
      anyOrder := fun _ => VisitsCalls.foldl_eq
      again := hrun _ }

theorem removeDowncasts_orderFree_twoSquares :
    Shapes.twoSquares.isValid = true ∧
      ∃ p', Shapes.twoSquares.removeDowncasts Shapes.shapes = .ok (p', ()) ∧
        Shapes.twoSquares.WidenedTo Shapes.shapes p' :=
  ⟨by decide, removeDowncasts_orderFree Shapes.shapes Shapes.twoSquares (by decide)⟩

end Program

end SuiteSearch
