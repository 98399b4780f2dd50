import SuiteSearch.Cluster.Basic

/-!
# Supertypes and assignability

A breadth-first walk from a class to its supertypes. A name that no class declares leads nowhere,
and a class that was visited is not visited again, so the walk ends on every cluster, cyclic ones
included.

    hierarchy c a         the declared classes that `a` reaches, nearest first
    isSubclass c a b      b is a, or a supertype of a class in hierarchy c a

Whether a value of one type can stand where another type is expected goes by the kinds of the types.

    primitive to primitive    the same or a wider one
    primitive to class        boxing, then as between classes
    box to primitive          unboxing, then widening
    class to class            supertypes; all classes reach the root class, and the boxes of numbers
                              reach the class of all numbers
    array to array            the same type, or assignable components that are no primitives
    array to class            the root class only
-/

namespace SuiteSearch.Cluster

/-! ## Supertypes -/

/-- The classes of other names. -/
def without (name : String) (l : List ClassDecl) : List ClassDecl := l.filter (·.name != name)

theorem length_without_lt {l : List ClassDecl} {name : String} {d : ClassDecl}
    (h : l.find? (·.name == name) = some d) : (without name l).length < l.length := by
  refine List.length_filter_lt_length_iff_exists.mpr ⟨d, List.mem_of_find?_eq_some h, ?_⟩
  have := List.find?_some h
  simpa using this

/-- Visits the names of a queue, given the classes that have not been visited. -/
def walk (unvisited : List ClassDecl) : List String → List ClassDecl
  | [] => []
  | name :: queue =>
    match _h : unvisited.find? (·.name == name) with
    | none => walk unvisited queue
    | some d => d :: walk (without name unvisited) (queue ++ d.supertypes)
termination_by queue => (unvisited.length, queue.length)
decreasing_by
  · exact Prod.Lex.right _ (Nat.lt_succ_self _)
  · exact Prod.Lex.left _ _ (length_without_lt _h)

/-- The declared classes that a name reaches, itself included, nearest first. -/
def hierarchy (c : Cluster) (name : String) : List ClassDecl := walk c.classes [name]

/-- Whether the second name is the first one or one of its supertypes. -/
def isSubclass (c : Cluster) (sub sup : String) : Bool :=
  sub == sup || (c.hierarchy sub).any (·.supertypes.contains sup)

/-! ## Assignability -/

/-- Whether the class of this name boxes numbers; booleans and characters are none. -/
def boxesNumber (name : String) : Bool :=
  (Primitive.ofWrapper? (simpleName name)).any fun p => p != .boolean && p != .char

/-- Assignability between classes, by name. -/
def isClassAssignable (c : Cluster) (a b : String) : Bool :=
  simpleName b == "Object" || c.isSubclass a b || (simpleName b == "Number" && boxesNumber a)

def isAssignable (c : Cluster) : Ty → Ty → Bool
  | .primitive p, .primitive q => p.widensTo q
  | .primitive p, .named b => p.wrapper == simpleName b || c.isClassAssignable p.wrapper b
  | .named a, .primitive q => (Ty.named a).unboxed.any (·.widensTo q)
  | .named a, .named b => c.isClassAssignable a b
  | .array a, .array b => a == b || (!a.isPrimitive && !b.isPrimitive && c.isAssignable a b)
  | .array _, .named b => simpleName b == "Object"
  | _, _ => false

end SuiteSearch.Cluster
