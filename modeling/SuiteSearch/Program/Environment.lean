import SuiteSearch.Sorted

/-!
# What running a program showed

The resources that a run touched and the contracts that it broke.
-/

namespace SuiteSearch

/-- Resources outside the program. -/
structure Environment where
  files : List String
  network : List String
  properties : List String
  clock : Bool
  randomness : Bool
  deriving DecidableEq

namespace Environment

def empty : Environment := ⟨[], [], [], false, false⟩

def isEmpty (e : Environment) : Bool := e == empty

/-- The summary with these resources, named in any order. -/
def ofLists (files network properties : List String) (clock randomness : Bool) : Environment :=
  ⟨Sorted.ofList Sorted.textBelow files, Sorted.ofList Sorted.textBelow network,
    Sorted.ofList Sorted.textBelow properties, clock, randomness⟩

/-- All resources of two runs. -/
def merge (a b : Environment) : Environment where
  files := Sorted.insertAll Sorted.textBelow b.files a.files
  network := Sorted.insertAll Sorted.textBelow b.network a.network
  properties := Sorted.insertAll Sorted.textBelow b.properties a.properties
  clock := a.clock || b.clock
  randomness := a.randomness || b.randomness

end Environment

/-- A contract that a run broke. -/
structure Violation where
  contract : String
  position : Nat
  detail : String
  deriving DecidableEq

namespace Violation

/-- The order by contract, position and detail. -/
def precedes (v w : Violation) : Bool :=
  v.contract < w.contract || (v.contract == w.contract &&
    (v.position < w.position || (v.position == w.position && v.detail < w.detail)))

end Violation

end SuiteSearch
