import SuiteSearch.Exchange.Member
import SuiteSearch.Exchange.Setting
import SuiteSearch.Generation.Growth
import SuiteSearch.Rehearsal

/-!
# Strategies as JSON

How values are chosen and programs grow in a rehearsal. A strategy whose values are chosen by a text
service comes with the script of that service.
-/

namespace SuiteSearch.Exchange

open Json (Value)

/-! ## Random words -/

def asWords (v : Value) : Reading Random.Words := do
  match ← maybe v "std" asNat with
  | some seed => return .ofSeed seed
  | none => return .ofList (← many v "words" asNat) (← natOr v "seed" 0)

/-- The words of a request; without any they are mixed from zero. -/
def words (v : Value) : Reading Random.Words :=
  return (← maybe v "rng" asWords).getD (.ofList [] 0)

/-! ## Selectors -/

def asReply (v : Value) : Reading (Except OracleError String) :=
  match v with
  | .text s => return .ok (s.getD "")
  | v =>
    match field? v "transport", field? v "status", field? v "malformed" with
    | some t, _, _ => return .error (.transport (← asText t))
    | _, some s, _ => return .error (.status (← asNat s) (← textOr v "body" ""))
    | _, _, some m => return .error (.malformed (← asText m))
    | _, _, _ => .error (.shape "reply")

/-- A part of a search with the script of its text service, if it has one. -/
abbrev Scripted (α : Type) := α × Option Script

/-- The selector of a request, with its text service at a place. -/
def selector (c : Cluster) (place : Nat) (v : Value) : Reading (Scripted (Selector Rehearsal)) := do
  match field? v "selector" with
  | none => return (.random c, none)
  | some v =>
    match ← maybe v "reject" (asList asTy) with
    | some types => return (Rehearsal.rejecting types, none)
    | none =>
      let service := Rehearsal.service place (!(← flag v "thread_pause"))
      return (.guided c service (← retryPolicy v), some (← many v "replies" asReply))

def asInserter (c : Cluster) (place : Nat) (v : Value) :
    Reading (Scripted (Inserter Rehearsal)) := do
  let (selector, script) ← selector c place v
  let depth ← natOr v "max_depth" Inserter.defaultDepth
  let reuse :=
    ((← maybe v "reuse" asFloat).map Inserter.clampProbability).getD Inserter.defaultReuse
  return (⟨c, selector, depth, reuse⟩, script)

/-- A growth, with bounds that hold where the request states none. -/
def asGrowth (c : Cluster) (place maxLength maxAttempts : Nat) (v : Value) :
    Reading (Scripted (Growth Rehearsal)) := do
  let (inserter, script) ← asInserter c place v
  return (⟨inserter.insertAfter, ← natOr v "max_length" maxLength,
    ← natOr v "max_attempts" maxAttempts⟩, script)

/-! ## Traces -/

/-- What was asked of a text service that has a script. -/
def ofScript (script : Option Script) (w : Rehearsal) (place : Nat) : Value :=
  match script, w.services[place]? with
  | some _, some s => obj [("calls", num s.calls), ("pauses", arr ofDuration s.pauses)]
  | _, _ => .null

end SuiteSearch.Exchange
