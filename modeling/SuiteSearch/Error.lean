import SuiteSearch.Ty.Basic
import SuiteSearch.Decimal.Layout

/-!
# Errors and log lines

What can go wrong, by cause. Every cause has one message. A `Fault` is another matter: it says that
a check of the program on itself has failed, it ends the run, and nothing recovers from it. Lines of
the log have a level and a text.
-/

namespace SuiteSearch

/-- Failure of one exchange with the text service. -/
inductive OracleError
  | transport (reason : String)
  | status (code : Nat) (body : String)
  | malformed (reason : String)
  deriving DecidableEq, Repr

/-- What is wrong with a program or with a request to edit it. -/
inductive Flaw
  | outOfRange (position length : Nat)
  | misplaced (code : String) (position : Nat)
  | irreplaceable (code : String) (position : Nat)
  | malformed (position : Nat) (code : String)
  | unresolved (reference : String)
  | other (reason : String)
  deriving DecidableEq, Repr

/-- What a generator was unable to find or build. -/
inductive Shortage
  | noValue (type : String)
  | noValueAt (type : String) (position : Nat)
  | unsatisfied (type : String) (position : Nat)
  | noConstructor (type : String)
  | other (reason : String)
  deriving DecidableEq, Repr

/-- What is wrong with a setting or a description. -/
inductive Misconfiguration
  | typeName (name : String)
  | declaredTwice (name : String)
  | probability (value : Float)
  | noRetention
  | onset (value : Float)
  | noLength
  | noModel
  | noUrl
  | temperature (value : Float)
  | noTokens
  | noKey (source : String)
  deriving DecidableEq

inductive Error
  | invalidProgram (flaw : Flaw)
  | construction (shortage : Shortage)
  | oracle (cause : OracleError)
  | resampleExhausted (iteration : Nat)
  | fitness (reason : String)
  | configuration (cause : Misconfiguration)
  | io
  | serialization
  deriving DecidableEq

/-- A check of the program on itself that has failed. -/
inductive Fault
  /-- A program that an edit left behind is malformed. -/
  | malformedProgram
  /-- A position is too large to be counted up. -/
  | positionOverflow
  /-- A probability lies outside `[0, 1]`. -/
  | noProbability
  /-- Sampling failed although the archive holds a candidate. -/
  | archiveNotEmpty
  deriving DecidableEq, Repr

/-- Why an edit did not happen. -/
inductive Failure
  | error (e : Error)
  | fault (f : Fault)
  deriving DecidableEq

/-! ## Messages -/

def OracleError.message : OracleError → String
  | .transport reason => s!"transport failure: {reason}"
  | .status code body => s!"service returned status {code}: {body}"
  | .malformed reason => s!"malformed response: {reason}"

def Flaw.message : Flaw → String
  | .outOfRange position length =>
    s!"position {position} out of range for program of length {length}"
  | .misplaced code position => s!"statement '{code}' cannot be placed at position {position}"
  | .irreplaceable code position => s!"statement '{code}' cannot replace position {position}"
  | .malformed position code => s!"statement {position} is malformed: {code}"
  | .unresolved reference => s!"cannot slice for {reference}"
  | .other reason => reason

def Shortage.message : Shortage → String
  | .noValue type => s!"found no variables of type {type}"
  | .noValueAt type position => s!"found no variables of type {type} at position {position}"
  | .unsatisfied type position => s!"cannot satisfy {type} at position {position}"
  | .noConstructor type => s!"no constructor produces {type}"
  | .other reason => reason

def Misconfiguration.message : Misconfiguration → String
  | .typeName name => s!"invalid type name '{name}'"
  | .declaredTwice name => s!"class '{name}' declared twice"
  | .probability value =>
    s!"p_random_test_or_from_archive {Decimal.Layout.message.render value} outside [0, 1]"
  | .noRetention => "tests_per_target must be positive"
  | .onset value => s!"exploitation_starts_at {Decimal.Layout.message.render value} outside (0, 1]"
  | .noLength => "chromosome_length must be positive"
  | .noModel => "model must not be empty"
  | .noUrl => "api_url must not be empty"
  | .temperature value => s!"temperature {Decimal.Layout.message.render value} outside [0, 2]"
  | .noTokens => "max_tokens must be positive"
  | .noKey source => s!"no api_key configured and {source} is unset"

def Error.message : Error → String
  | .invalidProgram flaw => s!"invalid program: {flaw.message}"
  | .construction shortage => s!"construction failed: {shortage.message}"
  | .oracle cause => s!"oracle error: {cause.message}"
  | .resampleExhausted iteration => s!"resampling produced no candidate at iteration {iteration}"
  | .fitness reason => s!"fitness error: {reason}"
  | .configuration cause => s!"configuration error: {cause.message}"
  | .io => "io error"
  | .serialization => "serialization error"

/-- Whether a generator may go on after the error. -/
def Error.isConstruction : Error → Bool
  | .construction _ => true
  | _ => false

/-! ## Log lines -/

inductive Level
  | error
  | warn
  | info
  | debug
  deriving DecidableEq, Repr

def Level.name : Level → String
  | error => "ERROR"
  | warn => "WARN"
  | info => "INFO"
  | debug => "DEBUG"

structure LogLine where
  level : Level
  text : String
  deriving DecidableEq, Repr

end SuiteSearch
