import SuiteSearch.Exchange.Field
import SuiteSearch.Goal.Mutant

/-!
# Goals as JSON
-/

namespace SuiteSearch.Exchange

open Json (Value)

def asCriterion (v : Value) : Reading Criterion := do
  let name ← asText v
  need name (Criterion.all.find? (·.name == name))

def asMutant (v : Value) : Reading Mutant :=
  match v with
  | .array [o, m, l] => return ⟨← asText o, ← asText m, ← asNat l⟩
  | _ => .error (.shape "mutant")

def ofCriterion (c : Criterion) : Value := str c.name

def ofMutant (m : Mutant) : Value := .array [str m.operator, str m.method, num m.line]

def ofGoal (g : Goal) : Value := .array [num g.id, str g.criterion.name, str g.name]

end SuiteSearch.Exchange
