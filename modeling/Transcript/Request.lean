import Transcript.Config.Basic
import Transcript.Summary.Basic
import Transcript.Tailoring.Basic

/-!
# Requests

A request is the row of messages that the model is sent. It grows with the conversation, and there
are two ways to keep it short: to carry a summary in the place of the events that it covers, or to
tailor the row to a budget.
-/

namespace Transcript

/-- The system message that carries a summary. -/
def summaryMessage (text : String) : Message :=
  Message.system ("<context_summary>\n" ++ text ++ "\n</context_summary>")

/-- A way to keep requests short. -/
inductive GrowthControl where
  /-- Summaries are written; the request carries the latest one if `carried` says so. -/
  | summary (carried : Bool)
  /-- The last `maxHistory` messages, or all of them if that is 0, are tailored to `maxTokens`. -/
  | tailoring (tailor : Tailor) (maxTokens maxHistory : Nat)

namespace GrowthControl

/-- Tailoring as it is configured. -/
def ofTailoring (config : TailoringConfig) (cost : TokenCounter) : GrowthControl :=
  .tailoring { strategy := config.strategy, cost } config.maxTokens config.maxHistory

/-- Whether summaries are written. -/
def usesSummary : GrowthControl → Bool
  | .summary _ => true
  | .tailoring .. => false

/-- Whether requests carry the summary. -/
def carriesSummary : GrowthControl → Bool
  | .summary carried => carried
  | .tailoring .. => false

/-- The messages of the events with numbers above the boundary. -/
def messagesAfter (boundary : Nat) (events : List Event) : List Message :=
  (events.filter fun e => boundary < e.id).map Event.message

/-- The last events, as many as are asked for, or all of them for 0. -/
def latest (n : Nat) (events : List Event) : List Event :=
  if n = 0 then events else events.drop (events.length - n)

/-- The request for a system prompt, the latest summary and the events of a scope. -/
def assemble (control : GrowthControl) (system : Option String) (summary : Option Summary)
    (events : List Event) : List Message :=
  let opening := (system.map Message.system).toList
  match control with
  | .summary carried =>
    match summary.filter fun _ => carried with
    | some s => opening ++ summaryMessage s.text :: messagesAfter s.coveredUntil events
    | none => opening ++ messagesAfter 0 events
  | .tailoring tailor maxTokens maxHistory =>
    tailor.tailor (opening ++ (latest maxHistory events).map Event.message) maxTokens

end GrowthControl

end Transcript
