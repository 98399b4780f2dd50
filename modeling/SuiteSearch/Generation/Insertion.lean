import SuiteSearch.Cluster.Members
import SuiteSearch.Generation.Draft
import SuiteSearch.Generation.Literal
import SuiteSearch.Generation.Selection

/-!
# Guided insertion

A random member of the cluster is inserted with all that its parameters need. A parameter gets, in
this order, a value that the selector picks, a literal, a new object or array, or a typed null; a
receiver is never null. New objects need parameters of their own, down to a depth. When a parameter
cannot be had, everything inserted so far is taken back.

    insertAfter declines    →   the program is as it was
    insertAfter gives i     →   statement i uses a member, what it needs stands right before it
-/

namespace SuiteSearch

/-- Inserts a statement after a position, or at the end; gives its position unless it declines. -/
abbrev Insertion (ω : Type) := Program → Option Nat → Act ω (Program × Option Nat)

structure Inserter (ω : Type) where
  cluster : Cluster
  selector : Selector ω
  /-- How deep new objects may be nested. -/
  maxDepth : Nat
  /-- How likely the selector is asked before a value is made. -/
  reuse : Float

namespace Inserter

variable {ω : Type} [WordSource ω]

def defaultDepth : Nat := 5

def defaultReuse : Float := 0.9

/-- The nearest probability; a NaN stays one. -/
def clampProbability (x : Float) : Float := if x < 0 then 0 else if 1 < x then 1 else x

/-- The greatest length of a new array. -/
def maxArrayLength : Nat := 3

/-- A value that the selector picks, if it is asked and finds one. -/
def reuse? (ins : Inserter ω) (ty : Ty) : Build ω (Option Ref) := do
  if ← Build.act (Act.coin ins.reuse) then
    let d ← get
    let (picked, w) := ins.selector d.program ty d.cursor d.world
    set { d with world := w }
    match picked with
    | .ok r => return some r
    | .error e => if e.isConstruction then return none else throw e
  else return none

/-- A value for a parameter; `make` is how a new one is made, if that is allowed. -/
def satisfyWith (ins : Inserter ω) (make : Option (Build ω Ref)) (ty : Ty) (allowNull : Bool) :
    Build ω Ref := do
  if let some r ← ins.reuse? ty then return r
  if let some v ← Build.draw (Literal.random? ty) then
    return ← Build.place (.literal v ty)
  if let some make := make then
    let mark ← Build.cursor
    match ← make.attempt with
    | .ok r => return r
    | .error e => if e.isConstruction then Build.rollback mark else throw e
  if allowNull && !ty.isPrimitive then return ← Build.place (.null ty)
  throw (.construction (.unsatisfied ty.render (← Build.cursor)))

/-- A value for every parameter. -/
def satisfyAll (satisfy : Ty → Bool → Build ω Ref) : List Ty → Build ω (List Ref)
  | [] => return []
  | ty :: rest => do
    let r ← satisfy ty true
    let rs ← satisfyAll satisfy rest
    return r :: rs

/-- A receiver, where one is needed. -/
def receiver (satisfy : Ty → Bool → Build ω Ref) (isStatic : Bool) (ty : Ty) :
    Build ω (Option Ref) :=
  if isStatic then return none else return some (← satisfy ty false)

/-- Inserts the use of a member after what it needs. -/
def addMember (satisfy : Ty → Bool → Build ω Ref) : Member → Build ω Ref
  | .constructor k => do
    let args ← satisfyAll satisfy k.params
    Build.place (.construct k args)
  | .method m => do
    let callee ← receiver satisfy m.isStatic m.declaring
    let args ← satisfyAll satisfy m.params
    Build.place (.call m callee args)
  | .field f => do
    let source ← receiver satisfy f.isStatic f.declaring
    Build.place (.read f source)

/-- Stores a value in an element; one for which there is none stays unwritten. -/
def fillElement (satisfy : Ty → Bool → Build ω Ref) (array : Ref) (component : Ty) (index : Nat) :
    Build ω Unit := do
  let mark ← Build.cursor
  match ← (satisfy component true).attempt with
  | .ok value =>
    let _ ← Build.place (.store array index value component)
  | .error _ => Build.rollback mark

def fillElements (satisfy : Ty → Bool → Build ω Ref) (array : Ref) (component : Ty) :
    List Nat → Build ω Unit
  | [] => return ()
  | i :: rest => do
    fillElement satisfy array component i
    fillElements satisfy array component rest

/-- The constructors that make values of a type. -/
def makers (c : Cluster) (ty : Ty) : List Constructor :=
  (c.concreteSubtypes ty).flatMap c.constructors

/-- Makes a new value: an array with its elements, or an object. -/
def construct (ins : Inserter ω) (satisfy : Ty → Bool → Build ω Ref) (ty : Ty) : Build ω Ref :=
  match ty with
  | .array component => do
    let length ← Build.draw (Draw.below (maxArrayLength + 1))
    let array ← Build.place (.allocate component length)
    fillElements satisfy array component (List.range length)
    return array
  | ty => do
    match ← Build.draw (Draw.choose (makers ins.cluster ty)) with
    | some k => addMember satisfy (.constructor k)
    | none => throw (.construction (.noConstructor ty.render))

/-- A value for a parameter, with new objects nested at most `depth` deep. -/
def satisfy (ins : Inserter ω) : Nat → Ty → Bool → Build ω Ref
  | 0, ty, allowNull => ins.satisfyWith none ty allowNull
  | depth + 1, ty, allowNull =>
    ins.satisfyWith (some (ins.construct (ins.satisfy depth) ty)) ty allowNull

/-- The position after another one, at most the end. -/
def startAfter (p : Program) : Option Nat → Except Fault Nat
  | none => .ok p.length
  | some i =>
    if i = Program.lastPosition then .error .positionOverflow else .ok (min (i + 1) p.length)

/-- Inserts the use of a given member from a position on. -/
def insertMember (ins : Inserter ω) (p : Program) (start : Nat) (m : Member) :
    Act ω (Program × Option Nat) := fun w => do
  let (result, d) ← addMember (ins.satisfy ins.maxDepth) m ⟨p, start, w⟩
  match result with
  | .ok _ =>
    if d.program.isValid then return ((d.program, some (d.cursor - 1)), d.world)
    else .error .malformedProgram
  | .error _ =>
    return ((Build.removeMany start (d.program.length - p.length) d.program, none), d.world)

/-- Inserts the use of a random member. -/
def insertAfter (ins : Inserter ω) : Insertion ω := fun p after => do
  match ← Act.draw (Draw.choose ins.cluster.members) with
  | none => return (p, none)
  | some m =>
    let start ← startAfter p after
    ins.insertMember p start m

end Inserter

end SuiteSearch
