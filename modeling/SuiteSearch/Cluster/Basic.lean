import SuiteSearch.Ty.Basic
import SuiteSearch.Error

/-!
# Class descriptions

A cluster describes the classes that the unit under test can reach: their supertypes, constructors,
methods and fields. It holds one declaration a name, in the order of the names.

    insert c d               declares d in place of any class of that name
    ofDistinct? classes      refuses a name that occurs twice
-/

namespace SuiteSearch

structure MethodDecl where
  name : String
  params : List Ty
  returns : Ty
  isStatic : Bool
  deriving DecidableEq

structure FieldDecl where
  name : String
  ty : Ty
  isStatic : Bool
  isPublic : Bool
  deriving DecidableEq

/-- A class or an interface. -/
structure ClassDecl where
  name : String
  superclass : Option String
  interfaces : List String
  /-- Abstract classes and interfaces have no instances of their own. -/
  isAbstract : Bool
  /-- The parameters of the public constructors. -/
  constructors : List (List Ty)
  methods : List MethodDecl
  fields : List FieldDecl
  deriving DecidableEq

namespace ClassDecl

/-- A concrete class without members. -/
def ofName (name : String) : ClassDecl := ⟨name, none, [], false, [], [], []⟩

def ty (d : ClassDecl) : Ty := .named d.name

/-- The direct supertypes, the superclass first. -/
def supertypes (d : ClassDecl) : List String := d.superclass.toList ++ d.interfaces

def constructorOf (d : ClassDecl) (params : List Ty) : Constructor := ⟨d.ty, params⟩

def methodOf (d : ClassDecl) (m : MethodDecl) : Method :=
  ⟨d.ty, m.name, m.params, m.returns, m.isStatic⟩

def fieldOf (d : ClassDecl) (f : FieldDecl) : Field := ⟨d.ty, f.name, f.ty, f.isStatic⟩

/-! ## Sorted lists of declarations -/

/-- Puts a declaration at its place, instead of one of the same name. -/
def insertSorted (d : ClassDecl) : List ClassDecl → List ClassDecl
  | [] => [d]
  | e :: rest =>
    if d.name < e.name then d :: e :: rest
    else if e.name < d.name then e :: insertSorted d rest
    else d :: rest

theorem mem_insertSorted {d e : ClassDecl} {l : List ClassDecl} (h : e ∈ insertSorted d l) :
    e = d ∨ e ∈ l := by
  induction l with
  | nil => exact Or.inl (List.mem_singleton.mp h)
  | cons f rest ih =>
    unfold insertSorted at h
    split at h
    · exact List.mem_cons.mp h
    · split at h
      · rcases List.mem_cons.mp h with rfl | h
        · exact Or.inr List.mem_cons_self
        · exact (ih h).imp id (List.mem_cons_of_mem f)
      · exact (List.mem_cons.mp h).imp id (List.mem_cons_of_mem f)

theorem insertSorted_sorted {d : ClassDecl} {l : List ClassDecl}
    (h : l.Pairwise (·.name < ·.name)) : (insertSorted d l).Pairwise (·.name < ·.name) := by
  induction l with
  | nil => exact List.pairwise_singleton _ d
  | cons f rest ih =>
    obtain ⟨hf, hrest⟩ := List.pairwise_cons.mp h
    unfold insertSorted
    split
    · next hlt =>
      refine List.pairwise_cons.mpr ⟨fun e he => ?_, h⟩
      rcases List.mem_cons.mp he with rfl | he
      · exact hlt
      · exact String.lt_trans hlt (hf e he)
    · next hnlt =>
      split
      · next hgt =>
        refine List.pairwise_cons.mpr ⟨fun e he => ?_, ih hrest⟩
        rcases mem_insertSorted he with rfl | he
        · exact hgt
        · exact hf e he
      · next hngt =>
        have hname : d.name = f.name :=
          String.le_antisymm (String.not_lt.mp hngt) (String.not_lt.mp hnlt)
        exact List.pairwise_cons.mpr ⟨fun e he => hname ▸ hf e he, hrest⟩

end ClassDecl

/-- The classes in the order of their names. -/
structure Cluster where
  classes : List ClassDecl
  sorted : classes.Pairwise (·.name < ·.name)
  deriving DecidableEq

namespace Cluster

def empty : Cluster := ⟨[], List.Pairwise.nil⟩

/-- The class of a name. -/
def find? (c : Cluster) (name : String) : Option ClassDecl := c.classes.find? (·.name == name)

/-- Declares a class, instead of one of the same name. -/
def insert (c : Cluster) (d : ClassDecl) : Cluster :=
  ⟨ClassDecl.insertSorted d c.classes, ClassDecl.insertSorted_sorted c.sorted⟩

/-- Declares classes one after the other; the last one of a name stays. -/
def ofList (classes : List ClassDecl) : Cluster := classes.foldl insert empty

/-- Declares classes one after the other, starting from `c`, unless a name occurs twice. -/
def extend (c : Cluster) : List ClassDecl → Except Misconfiguration Cluster
  | [] => .ok c
  | d :: rest =>
    if (c.find? d.name).isSome then .error (.declaredTwice d.name) else (c.insert d).extend rest

/-- The cluster of classes with different names. -/
def ofDistinct? (classes : List ClassDecl) : Except Misconfiguration Cluster := empty.extend classes

end Cluster

end SuiteSearch
