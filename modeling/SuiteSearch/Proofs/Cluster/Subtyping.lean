import SuiteSearch.Proofs.Cluster.Supertypes

/-!
# Supertypes and assignability

    mem_hierarchy             every class that a walk visits is a supertype of its start
    isAssignable_self         a type that holds values accepts itself
    isAssignable_declaring    a type accepts where its fields are declared
-/

namespace SuiteSearch.Cluster

variable (c : Cluster)

theorem mem_hierarchy (name : String) (d : ClassDecl) (h : d ∈ c.hierarchy name) :
    c.isSubclass name d.name = true :=
  (isSubclass_iff c name d.name).mpr ((mem_hierarchy_iff c name d).mp h).2

theorem isAssignable_self (t : Ty) (h : t ≠ .void) : c.isAssignable t t = true := by
  cases t with
  | void => exact absurd rfl h
  | primitive p => cases p <;> rfl
  | named name => simp [isAssignable, isClassAssignable, isSubclass]
  | array t => simp [isAssignable]

/-- A value of a type stands where one of its fields is read. -/
theorem isAssignable_declaring (t : Ty) (f : Field) (h : f ∈ c.accessibleFields t) :
    c.isAssignable t f.declaring = true := by
  cases t with
  | named name =>
    obtain ⟨d, hd, hf⟩ := List.mem_flatMap.mp h
    obtain ⟨g, -, rfl⟩ := List.mem_map.mp hf
    simp [ClassDecl.fieldOf, ClassDecl.ty, isAssignable, isClassAssignable,
      c.mem_hierarchy name d hd]
  | void | primitive p | array t => cases h

end SuiteSearch.Cluster
