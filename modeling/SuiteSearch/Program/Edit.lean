import SuiteSearch.Program.Basic

/-!
# Editing programs

Insertion and removal renumber all later statements. An insertion is refused if the statement is not
well formed at its position, and it ends the run if the program is malformed afterwards.

    insert s i, then remove i      gives the program back
    retain keep                    the statements at the positions of `keep`, renumbered by rank
-/

namespace SuiteSearch.Program

/-! ## Algorithm -/

/-- Where a position moves to when a statement is inserted. -/
def shiftUp (position : Nat) (i : Nat) : Option Nat := some (if position ≤ i then i + 1 else i)

/-- Where a position moves to when a statement is removed. -/
def shiftDown (position : Nat) (i : Nat) : Option Nat :=
  if i < position then some i else if i = position then none else some (i - 1)

/-- Whether a reference of the statement has its base at the last position. -/
def reachesLast (s : Statement) : Bool :=
  (s.reads ++ s.assertions.map (·.source)).any fun r => r.position == some lastPosition

/-- A program if it is valid. -/
def checked {α : Type} (p : Program) (a : α) : Except Failure (Program × α) :=
  if p.isValid then .ok (p, a) else .error (.fault .malformedProgram)

/-- The statements with a new one at a position. -/
def inserted (l : List Statement) (s : Statement) (position : Nat) : List Statement :=
  l.take position ++ s :: (l.drop position).map (·.remap (shiftUp position))

/-- Inserts a statement; gives the reference to its result. -/
def insert (p : Program) (s : Statement) (position : Nat) : Except Failure (Program × Ref) :=
  if p.length < position then .error (.error (.invalidProgram (p.outOfRange position)))
  else if !s.isValid position then
    .error (.error (.invalidProgram (.misplaced (s.code position) position)))
  else if (p.statements.drop position).any reachesLast then .error (.fault .positionOverflow)
  else checked { p with statements := inserted p.statements s position } (s.output position)

/-- Appends a statement; gives the reference to its result. -/
def add (p : Program) (s : Statement) : Except Failure (Program × Ref) := p.insert s p.length

/-- The program of a sequence of statements. -/
def ofStatements? (statements : List Statement) : Except Failure Program :=
  statements.foldlM (fun p s => (p.add s).map (·.1)) empty

/-- Puts a statement in place of another one; gives the reference to its result. -/
def set (p : Program) (s : Statement) (position : Nat) : Except Failure (Program × Ref) :=
  if p.length ≤ position then .error (.error (.invalidProgram (p.outOfRange position)))
  else if !s.isValid position then
    .error (.error (.invalidProgram (.irreplaceable (s.code position) position)))
  else checked { p with statements := p.statements.set position s } (s.output position)

/-- The statements without the one at a position. -/
def removed (l : List Statement) (position : Nat) : List Statement :=
  l.take position ++ (l.drop (position + 1)).map (·.remap (shiftDown position))

/-- Removes a statement. What read its result is left dangling. -/
def remove (p : Program) (position : Nat) : Program × Option Statement :=
  match p.statements[position]? with
  | none => (p, none)
  | some s => ({ p with statements := removed p.statements position }, some s)

/-- The number of kept positions before a position. -/
def rank (keep : List Nat) (position : Nat) : Nat :=
  ((List.range position).filter keep.contains).length

/-- Numbers the kept ones among some positions, from `next` on. -/
def ranksFrom (keep : List Nat) (next : Nat) : List Nat → List (Option Nat)
  | [] => []
  | i :: rest =>
    if keep.contains i then some next :: ranksFrom keep (next + 1) rest
    else none :: ranksFrom keep next rest

/-- Where each position moves to when only some are kept. -/
def ranks (p : Program) (keep : List Nat) : List (Option Nat) :=
  ranksFrom keep 0 (List.range p.length)

/-- Removes the assertions about values that are gone, each of them wherever it is. -/
def removeStaleAssertions (p : Program) : Program :=
  let stale := p.assertions.filter fun a => a.reads.any Ref.isDangling
  stale.foldl removeAssertion p

/-- Keeps the statements at the given positions only. -/
def retain (p : Program) (keep : List Nat) : Program :=
  let ranks := p.ranks keep
  let kept := p.statements.zipIdx.filter fun (_, i) => keep.contains i
  removeStaleAssertions
    { p with statements := kept.map fun (s, _) => s.remap fun i => ranks[i]?.join }

/-- Keeps the first statements only. -/
def chop (p : Program) (length : Nat) : Program := { p with statements := p.statements.take length }

/-- Puts one reference for another everywhere. -/
def replace (p : Program) (old new : Ref) : Program := p.mapStatements (·.replace old new)

/-- Changes one statement by an update that also gives an answer. -/
def update {α : Type} (p : Program) (position : Nat) (f : Statement → Statement × α) :
    Except Flaw (Program × α) :=
  (p.statement? position).map fun s =>
    ({ p with statements := p.statements.set position (f s).1 }, (f s).2)

end SuiteSearch.Program
