import SuiteSearch.Mutation.Basic
import SuiteSearch.Program.Scope

/-!
# Change

A constant is perturbed; any other statement has one of its inputs bound to another value in scope.

    inputs p op            the slots of an operation, with the type each asks for and what is in it
    rebind c p i s         another value of the right type in one slot
-/

namespace SuiteSearch.Mutation

variable {ω : Type} [WordSource ω]

/-- An input of a statement that can be another value. -/
inductive Slot
  | callee
  | arg (i : Nat)
  | source
  | storedValue
  deriving DecidableEq

/-- The values that may be put into a slot: a receiver is neither null nor a placeholder. -/
def Slot.filter : Slot → CandidateFilter
  | .callee | .source => .nonNull
  | .arg _ | .storedValue => .any

/-- Puts a value into a slot. -/
def Slot.fill (slot : Slot) (r : Ref) (op : Operation) : Operation :=
  match slot, op with
  | .callee, .call m _ args => .call m (some r) args
  | .arg i, .call m object args => .call m object (args.set i r)
  | .arg i, .construct k args mock => .construct k (args.set i r) mock
  | .source, .read f _ => .read f (some r)
  | .storedValue, .store target _ => .store target r
  | _, op => op

/-- A slot with the type it asks for and the value that is in it. -/
abbrev Input := Slot × Ty × Ref

/-- The arguments, as far as there are parameters for them. -/
def argInputs (params : List Ty) (args : List Ref) : List Input :=
  (params.zip args).zipIdx.map fun ((ty, r), i) => (.arg i, ty, r)

/-- The inputs of an operation that can be other values. -/
def inputs (p : Program) : Operation → List Input
  | .construct k args none => argInputs k.params args
  | .call m callee args =>
    callee.toList.map (.callee, m.declaring, ·) ++ argInputs m.params args
  | .read f (some r) => [(.source, f.declaring, r)]
  | .store target value => ((p.typeOf? target).map (.storedValue, ·, value)).toList
  | _ => []

/-- Puts another value of the right type into one input; tells whether it did. -/
def rebind (c : Cluster) (p : Program) (position : Nat) (s : Statement) :
    Draw ω (Program × Bool) := do
  match ← Draw.choose (inputs p s.op) with
  | none => return (p, false)
  | some (slot, ty, current) =>
    let candidates := (p.findCompatible c ty position slot.filter).filter (!·.sameValue current)
    match ← Draw.choose candidates with
    | none => return (p, false)
    | some r =>
      let s := { s with op := slot.fill r s.op }
      return ({ p with statements := p.statements.set position s }, true)

/-- Changes the constant or one input of a statement; tells whether it did. -/
def changeAt (c : Cluster) (p : Program) (position : Nat) : Draw ω (Program × Bool) := do
  match p.statements[position]? with
  | none => return (p, false)
  | some s =>
    match s.op with
    | .literal v =>
      let v' ← Literal.perturb s.ty v
      let s := { s with op := .literal v' }
      return ({ p with statements := p.statements.set position s }, v' != v)
    | _ => rebind c p position s

/-- Changes one in `share` of the statements at the given positions. -/
def changeAll (c : Cluster) (share : Nat) : List Nat → Program → Draw ω (Program × Bool)
  | [], p => pure (p, false)
  | position :: rest, p => do
    if ← oneIn share then
      let (p, changed) ← changeAt c p position
      let (p, changedLater) ← changeAll c share rest p
      return (p, changed || changedLater)
    else changeAll c share rest p

/-- Changes statements; tells whether it changed any. -/
def change (c : Cluster) (p : Program) : Draw ω (Program × Bool) :=
  changeAll c p.length (List.range p.length) p

end SuiteSearch.Mutation
