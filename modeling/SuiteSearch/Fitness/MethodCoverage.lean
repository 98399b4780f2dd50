import SuiteSearch.Cluster.Members
import SuiteSearch.Fitness.Evaluation
import SuiteSearch.Goal.Basic
import SuiteSearch.Program.Scope

/-!
# Method coverage

One goal for every constructor and every method of a cluster. A program reaches it by an invocation;
placeholders do not count. A method that is not invoked is half-way there once the program has an
object to invoke it on.
-/

namespace SuiteSearch.MethodCoverage

/-- The constructors and methods of a cluster. -/
def targets (c : Cluster) : List Member :=
  c.members.filter fun m =>
    match m with
    | .field _ => false
    | _ => true

/-- The goals of the targets; goal `i` is the `i`-th target. -/
def goals (c : Cluster) : GoalSet := ⟨(targets c).map fun m => (.method, m.signature)⟩

/-- Whether an operation invokes a target. -/
def invokes (target : Member) (op : Operation) : Bool :=
  match op, target with
  | .construct k _ none, .constructor k' => k == k'
  | .call m _ _, .method m' => m == m'
  | _, _ => false

/-- How far a program is from invoking a target. -/
def heuristic (c : Cluster) (p : Program) (target : Member) : Float :=
  if p.statements.any fun s => invokes target s.op then 0
  else match target with
    | .method m => if !m.isStatic && p.hasObject c m.declaring p.length then 0.5 else noProgress
    | _ => noProgress

/-- The values of all goals. -/
def evaluate (c : Cluster) (p : Program) : Evaluation :=
  (targets c).zipIdx.foldl (fun e (target, g) => e.record g (heuristic c p target)) .empty

end SuiteSearch.MethodCoverage
