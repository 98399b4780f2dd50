import SuiteSearch.Duration
import SuiteSearch.Error
import SuiteSearch.Json.Decoder
import SuiteSearch.Json.Reader
import SuiteSearch.Json.Writer
import SuiteSearch.Text.Character

/-!
# Settings of a text service

A chat completion service is described by a JSON document. The key may come from the environment.
-/

namespace SuiteSearch

open Json (Value required optional)

structure ServiceSettings where
  model : String
  temperature : Float
  maxTokens : Nat
  url : String
  key : Option String
  connectTimeout : Duration
  writeTimeout : Duration
  readTimeout : Duration

namespace ServiceSettings

/-- The settings that a document may leave out have these values. -/
def ofModel (model url : String) : ServiceSettings :=
  ⟨model, 0.2, 256, url, none, .ofSeconds 30, .ofSeconds 30, .ofSeconds 60⟩

/-- The environment variable that a key is taken from. -/
def keyVariable : String := "SUMMIT_LLM_API_KEY"

/-- Whether a text has nothing but blanks. -/
def isBlankText (s : String) : Bool := (Text.trim s.toList).isEmpty

def validate (s : ServiceSettings) : Except Misconfiguration Unit :=
  if isBlankText s.model then .error .noModel
  else if isBlankText s.url then .error .noUrl
  else if !(0 ≤ s.temperature && s.temperature ≤ 2) then .error (.temperature s.temperature)
  else if s.maxTokens = 0 then .error .noTokens
  else .ok ()

/-- The key of the settings, or else the one of the environment. An empty key is none. -/
def resolvedKey (s : ServiceSettings) (environment : Option String) :
    Except Misconfiguration String :=
  match (s.key <|> environment).filter (· ≠ "") with
  | some key => .ok key
  | none => .error (.noKey keyVariable)

def seconds? (v : Value) : Option Duration := v.word?.map Duration.ofSeconds

def ofValue? (v : Value) : Option ServiceSettings :=
  match v.fields? ["model", "temperature", "max_tokens", "api_url", "api_key",
      "connect_timeout_secs", "write_timeout_secs", "read_timeout_secs"] with
  | some [model, temperature, maxTokens, url, key, connect, write, read] => do
    let model ← required Value.string? model
    let url ← required Value.string? url
    let base := ofModel model url
    return ⟨model, ← optional base.temperature Value.float? temperature,
      ← optional base.maxTokens (Value.nat? UInt32.size) maxTokens, url,
      ← optional none (Value.nullable? Value.string?) key,
      ← optional base.connectTimeout seconds? connect,
      ← optional base.writeTimeout seconds? write,
      ← optional base.readTimeout seconds? read⟩
  | _ => none

/-- The settings of a document, if they are valid. -/
def ofDocument? (text : String) : Except Error ServiceSettings :=
  match (Value.parse? text).bind ofValue? with
  | none => .error .serialization
  | some s => (s.validate.map fun _ => s).mapError .configuration

end ServiceSettings

end SuiteSearch
