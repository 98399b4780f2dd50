import SuiteSearch.Cluster.Members
import SuiteSearch.Program.Slice

/-!
# Downcasts

A call may be declared with a narrower type than its method returns. The narrower type is given up
unless an assertion, a receiver, an argument or a field read relies on it.
-/

namespace SuiteSearch.Program

/-- Whether an assertion on a value asks for more than a type offers. -/
def assertionNeeds (c : Cluster) (natural : Ty) (r : Ref) (a : Assertion) : Bool :=
  match a.check with
  | .inspector m _ =>
    a.source.sameValue r && (c.findMethod natural m.name m.params).isNone
  | .field f _ => a.source.sameValue r && !c.isAssignable natural f.declaring
  | _ => false

/-- Whether an argument is the value while its parameter does not accept a type. -/
def argumentNeeds (c : Cluster) (natural : Ty) (r : Ref) (params : List Ty) (args : List Ref) :
    Bool :=
  (params.zip args).any fun (param, arg) => arg.sameValue r && !c.isAssignable natural param

/-- Whether a type lacks a method, or has it with another result. -/
def receiverNeeds (c : Cluster) (natural : Ty) (m : Method) : Bool :=
  (c.findMethod natural m.name m.params).all fun found => found.returns != m.returns

/-- Whether an operation on a value asks for more than a type offers. -/
def operationNeeds (c : Cluster) (natural : Ty) (r : Ref) : Operation → Bool
  | .call m callee args =>
    (!m.isStatic && callee.any (·.sameValue r) && receiverNeeds c natural m) ||
      argumentNeeds c natural r m.params args
  | .construct k args _ => argumentNeeds c natural r k.params args
  | .read f source =>
    !f.isStatic && source.any (·.sameValue r) && !c.isAssignable natural f.declaring
  | .allocate _ | .store _ _ | .literal _ => false

/-- Whether a reference reads a field of a value that a type lacks. -/
def fieldNeeds (c : Cluster) (natural : Ty) (r : Ref) : Ref → Bool
  | .field source f =>
    if source.sameValue r then !c.isAssignable natural f.declaring
    else fieldNeeds c natural r source
  | _ => false

/-- Whether a statement asks for more of a value than a type offers. -/
def statementNeeds (c : Cluster) (natural : Ty) (r : Ref) (s : Statement) : Bool :=
  s.assertions.any (assertionNeeds c natural r) || operationNeeds c natural r s.op ||
    s.reads.any (fieldNeeds c natural r)

/-- Whether the declared type of the result of a statement has to stay. -/
def needsDowncast (p : Program) (c : Cluster) (natural : Ty) (s : Statement) (position : Nat) :
    Bool :=
  let r := s.output position
  s.assertions.any (assertionNeeds c natural r) ||
    (p.referencePositions r).any fun i => p.statements[i]?.any (statementNeeds c natural r)

/-- Gives up the narrower type of one statement if nothing relies on it. -/
def widenAt (c : Cluster) (p : Program) (position : Nat) : Program :=
  match p.statements[position]? with
  | some s =>
    match s.op with
    | .call m _ _ =>
      if s.ty == m.returns || !c.isAssignable s.ty m.returns
          || p.needsDowncast c m.returns s position then p
      else { p with statements := p.statements.set position (s.withTy m.returns) }
    | _ => p
  | none => p

/-- Gives up all narrower types that nothing relies on. -/
def removeDowncasts (p : Program) (c : Cluster) : Except Failure (Program × Unit) :=
  checked ((List.range p.length).foldl (widenAt c) p) ()

end SuiteSearch.Program
