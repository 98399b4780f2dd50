import SuiteSearch.Fitness.Evaluation
import SuiteSearch.Generation.Selection
import SuiteSearch.Random.Words

/-!
# Rehearsals

A rehearsal is a world in which every run of a search comes out the same: its random words are known
and its text services answer from scripts. It keeps what the services were asked, the pauses between
attempts, the log and the number of evaluations.
-/

namespace SuiteSearch

/-- The replies of a text service, in order. -/
abbrev Script := List (Except OracleError String)

/-- A service that answers from a script, and what was asked of it. -/
structure ScriptedService where
  replies : Script
  calls : Nat
  pauses : List Duration
  /-- The last prompt. -/
  prompt : Option String

namespace ScriptedService

def ofScript (replies : Script) : ScriptedService := ⟨replies, 0, [], none⟩

/-- The next reply; past the end of the script the service cannot be reached. -/
def answer (s : ScriptedService) (prompt : String) : Except OracleError String × ScriptedService :=
  let (reply, rest) := match s.replies with
    | r :: rest => (r, rest)
    | [] => (.error (.transport "script exhausted"), [])
  (reply, ⟨rest, s.calls + 1, s.pauses, some prompt⟩)

end ScriptedService

structure Rehearsal where
  words : Random.Words
  services : List ScriptedService
  log : List LogLine
  evaluations : Nat

namespace Rehearsal

instance : WordSource Rehearsal where
  next32 w := let (x, words) := WordSource.next32 w.words; (x, { w with words := words })
  next64 w := let (x, words) := WordSource.next64 w.words; (x, { w with words := words })

/-- The start of a rehearsal with services that follow the given scripts. -/
def ofScripts (words : Random.Words) (scripts : List (Option Script)) : Rehearsal :=
  ⟨words, scripts.map fun s => .ofScript (s.getD []), [], 0⟩

/-- The text service at a place, which may keep its pauses. -/
def service (i : Nat) (keepsPauses : Bool) : TextService Rehearsal where
  query prompt := fun w =>
    match w.services[i]? with
    | none => (.error (.transport "script exhausted"), w)
    | some s =>
      let (reply, s) := s.answer prompt
      (reply, { w with services := w.services.set i s })
  hooks := {
    pause := fun d w =>
      let keep (s : ScriptedService) := { s with pauses := s.pauses ++ [d] }
      ((), if keepsPauses then { w with services := w.services.modify i keep } else w)
    log := fun line w => ((), { w with log := w.log ++ [line] }) }

/-- A selector that has no value for any type, and takes some types for mistakes. -/
def rejecting (types : List Ty) : Selector Rehearsal := fun _ ty _ w =>
  (.error (if types.contains ty then .invalidProgram (.other "rejected")
    else .construction (.other "rejected")), w)

/-- Counts evaluations, of which those with the given numbers fail. -/
def evaluate (failing : List Nat) (measure : Program → Evaluation) (p : Program) :
    StateM Rehearsal (Except Error Evaluation) := fun w =>
  let result := if failing.contains w.evaluations then
      .error (.fitness s!"evaluation {w.evaluations} failed")
    else .ok (measure p)
  (result, { w with evaluations := w.evaluations + 1 })

end Rehearsal

end SuiteSearch
