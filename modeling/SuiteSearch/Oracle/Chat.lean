import SuiteSearch.Oracle.Settings

/-!
# Chat requests

A prompt is sent as a JSON document with two messages: the task of the service and the prompt.
-/

namespace SuiteSearch

open Json (Value)

/-- A client has valid settings and a key. -/
structure ChatClient where
  settings : ServiceSettings
  key : String

namespace ChatClient

/-- The client of some settings, with the key that the environment offers. -/
def ofSettings? (s : ServiceSettings) (environment : Option String) :
    Except Misconfiguration ChatClient := do
  s.validate
  return ⟨s, ← s.resolvedKey environment⟩

/-- What the service is told before every prompt. -/
def systemPrompt : String :=
  "You are a test generation system. Return content ONLY in the required format"

def message (role content : String) : Value :=
  .record [("role", .ofString role), ("content", .ofString content)]

/-- The document that is sent. -/
def requestBody (c : ChatClient) (prompt : String) : String :=
  (Value.record [("model", .ofString c.settings.model),
    ("temperature", .ofFloat c.settings.temperature),
    ("max_tokens", .ofNat c.settings.maxTokens), ("stream", .bool false),
    ("messages", .array [message "system" systemPrompt, message "user" prompt])]).compact

/-- The line that is logged before a request. -/
def requestLine (c : ChatClient) (prompt : String) : LogLine :=
  ⟨.debug, s!"sending request to {c.settings.url}:\n{c.requestBody prompt}"⟩

end ChatClient

end SuiteSearch
