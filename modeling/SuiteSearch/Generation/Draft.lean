import SuiteSearch.Program.Edit
import SuiteSearch.Random.Draw

/-!
# Drafts

A draft is a program under construction: new statements go in at a cursor, which moves on. A step
that fails leaves the draft as it is at that moment; `rollback` takes back what was placed since a
mark.
-/

namespace SuiteSearch

structure Draft (ω : Type) where
  program : Program
  cursor : Nat
  world : ω

/-- A step that works on a draft and may fail. -/
abbrev Build (ω α : Type) := ExceptT Error (StateT (Draft ω) (Except Fault)) α

namespace Build

variable {ω α : Type}

/-- An act takes its words from the draft's world. -/
def act (a : Act ω α) : Build ω α := fun d =>
  (a d.world).map fun (r, w) => (.ok r, { d with world := w })

/-- A draw takes its words from the draft's world. -/
def draw (a : Draw ω α) : Build ω α := act (Act.draw a)

/-- The position at which the next statement goes in. -/
def cursor : Build ω Nat := fun d => .ok (.ok d.cursor, d)

/-- Inserts a statement at the cursor. -/
def place (s : Statement) : Build ω Ref := fun d =>
  match d.program.insert s d.cursor with
  | .ok (p, r) => .ok (.ok r, { d with program := p, cursor := d.cursor + 1 })
  | .error (.error e) => .ok (.error e, d)
  | .error (.fault f) => .error f

/-- Runs a step and hands over its failure. -/
def attempt (b : Build ω α) : Build ω (Except Error α) := fun d =>
  (b d).map fun (r, d) => (.ok r, d)

/-- Removes a number of statements at one position. -/
def removeMany (position : Nat) : Nat → Program → Program
  | 0, p => p
  | n + 1, p => removeMany position n (p.remove position).1

/-- Removes what was placed since the cursor stood at `mark`. -/
def rollback (mark : Nat) : Build ω Unit := fun d =>
  .ok (.ok (), { d with
    program := removeMany mark (d.cursor - mark) d.program
    cursor := mark })

end Build

end SuiteSearch
