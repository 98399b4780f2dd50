import SuiteSearch.Program.Edit

/-!
# Dependencies and slices

Which statements use a value, directly or through others, and which ones a value is made from. Both
are found in one pass over the positions. A slice keeps the producer of a value, all that uses the
value, and all that those are made from.

    referencePositions p r     the later statements that use r, in order
    dependencyPositions p r    the statements that the producer of r is made from, last first
    slice p r                  the program without what has nothing to do with r
-/

namespace SuiteSearch

/-- Whether the statement at a position has to do with a value or with the one that it hangs on. -/
def Statement.uses (s : Statement) (position : Nat) (r : Ref) : Bool :=
  s.references position r || r.additional.any (s.references position)

namespace Program

/-- Statements that use one of the values, or the result of a statement found before. -/
def usersOf (values : List Ref) : List (Statement × Nat) → List Nat
  | [] => []
  | (s, i) :: rest =>
    if values.any (s.uses i) then i :: usersOf (values ++ [s.output i]) rest
    else usersOf values rest

/-- The positions of the later statements that use a value, directly or not. -/
def referencePositions (p : Program) (r : Ref) : List Nat :=
  match r.position with
  | none => []
  | some start => usersOf [r] (p.statements.zipIdx.drop (start + 1))

/-- Statements whose results are used by the users, or by a statement found before. -/
def sourcesOf (users : List (Statement × Nat)) : List (Statement × Nat) → List Nat
  | [] => []
  | (s, i) :: rest =>
    if users.any fun (d, k) => d.references k (s.output i) then
      i :: sourcesOf ((s, i) :: users) rest
    else sourcesOf users rest

/-- The position of a reference that lies inside the program. -/
def positionIn? (p : Program) (r : Ref) : Option Nat := r.position.filter (· < p.length)

/-- The positions of the statements that a value is made from, its own included, last first. -/
def dependencyPositions (p : Program) (r : Ref) : List Nat :=
  match p.positionIn? r with
  | none => []
  | some start =>
    let upTo := (p.statements.zipIdx.take (start + 1)).reverse
    sourcesOf (upTo.take 1) upTo

/-- The results at the given positions. -/
def outputsAt (p : Program) (positions : List Nat) : List Ref :=
  positions.filterMap fun i => p.statements[i]?.map (·.output i)

/-- The later values that are made from a value. The search starts one past its position. -/
def references (p : Program) (r : Ref) : Except Fault (List Ref) :=
  if r.position = some lastPosition then .error .positionOverflow
  else .ok (p.outputsAt (p.referencePositions r))

/-- The values that a value is made from. -/
def dependencies (p : Program) (r : Ref) : List Ref := p.outputsAt (p.dependencyPositions r)

/-- Whether a later statement, or an assertion on its own statement, has to do with a value. -/
def hasReferences (p : Program) (r : Ref) : Bool :=
  match p.positionIn? r with
  | none => false
  | some start =>
    (p.statements.zipIdx.drop (start + 1)).any (fun (s, i) => s.references i r) ||
      p.statements[start]?.any fun s => s.assertions.any fun a => a.reads.any (·.sameValue r)

/-! ## Slices -/

/-- Adds the positions whose results are used by a kept statement, going backwards. -/
def closeBackward (kept : List (Statement × Nat)) : List (Statement × Nat) → List Nat
  | [] => kept.map (·.2)
  | (s, i) :: rest =>
    if kept.any fun (d, k) => d.uses k (s.output i) then closeBackward ((s, i) :: kept) rest
    else closeBackward kept rest

/-- The positions that a slice keeps, in no order and perhaps more than once. -/
def slicePositions (p : Program) (r : Ref) (position : Nat) : List Nat :=
  let roots := position :: p.referencePositions r
  let last := roots.foldl max position
  let kept := p.statements.zipIdx.filter fun (_, i) => roots.contains i
  closeBackward kept (p.statements.zipIdx.take (last + 1)).reverse

/-- Keeps what a value needs and what needs it; gives the new position of the value. -/
def slice (p : Program) (r : Ref) : Except Failure (Program × Nat) :=
  match p.positionIn? r with
  | none => .error (.error (.invalidProgram (.unresolved r.render)))
  | some position =>
    let keep := p.slicePositions r position
    checked (p.retain keep) (rank keep position)

end Program

end SuiteSearch
