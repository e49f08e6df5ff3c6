import Havn.Lib.Json

/-!
# Frames between the gateway and an agent

The payloads of `havn-proto/src/lib.rs` that the modelled handlers read or send.  `transcript` and
the LLM payloads are JSON that the gateway does not look into.
-/

namespace Havn.Proto

open Lib

structure AgentQuery where
  requestId : String
  targetAgentId : String
  prompt : String
  timeoutSeconds : ℕ := 60
  includeTranscript : Bool := false

structure IncomingQuery where
  requestId : String
  callerAgentId : String
  billingUserId : String
  prompt : String
  includeTranscript : Bool

inductive AgentQueryOutcome where
  | ok
  | error (message : String)
  | timeout
  deriving DecidableEq

structure AgentQueryResponse where
  requestId : String
  outcome : AgentQueryOutcome
  text : String := ""
  transcript : Json := .null

structure AgentQueryResult where
  requestId : String
  outcome : AgentQueryOutcome
  text : String := ""
  transcript : Json := .null

structure LlmRequest where
  requestId : String
  model : String
  messages : Json
  options : Json := .null
  billingUserId : Option String := none

inductive LlmOutcome where
  | ok
  | error (message : String)
  deriving DecidableEq

structure LlmUsage where
  inputTokens : ℕ := 0
  outputTokens : ℕ := 0
  deriving DecidableEq

structure LlmResponse where
  requestId : String
  outcome : LlmOutcome
  providerResponse : Json := .null
  usage : Option LlmUsage := none

structure CronTick where
  jobId : String
  prompt : String
  enabledToolsets : List String
  deriving DecidableEq

inductive CronOutcome where
  | success
  | error (message : String)
  deriving DecidableEq

structure CronResult where
  jobId : String
  outcome : CronOutcome
  output : String
  silent : Bool
  deriving DecidableEq

end Havn.Proto
