import Transcript.Pipeline.Json
import Transcript.Tailoring.Json

/-!
# Configurations as JSON

A configuration file has to name only what differs from the usual values.
-/

namespace Transcript

open Json

namespace TriggerMode

/-- The name of a mode. -/
def name : TriggerMode → String
  | .any => "any"
  | .all => "all"

/-- The JSON form of a mode. -/
def encode (m : TriggerMode) : Value := .string m.name

/-- Reads a mode. -/
def decode : Decoder TriggerMode := Decoder.name ([any, all].map fun m => (m.name, m))

end TriggerMode

namespace SummaryConfig

/-- The JSON form of the section on summaries. -/
def encode (c : SummaryConfig) : Value :=
  .object
    [("max_summary_words", .count c.maxWords), ("prompt_template", .string c.template),
      ("event_threshold", .count c.eventThreshold), ("token_threshold", .count c.tokenThreshold),
      ("time_threshold_secs", .count c.timeThreshold), ("trigger_mode", c.mode.encode),
      ("add_summary_to_prompt", .bool c.addToPrompt), ("single_flight", .bool c.singleFlight)]

/-- The record of the section on summaries. -/
def shape : Shape SummaryConfig where
  fields :=
    [.of "max_summary_words" Decoder.count, .of "prompt_template" Decoder.string,
      .of "event_threshold" Decoder.count, .of "token_threshold" Decoder.count,
      .of "time_threshold_secs" Decoder.count, .of "trigger_mode" TriggerMode.decode,
      .of "add_summary_to_prompt" Decoder.bool, .of "single_flight" Decoder.bool]
  leading := 0
  build given := do
    let usual : SummaryConfig := {}
    let maxWords ← given.withDefault "max_summary_words" usual.maxWords Decoder.count
    let template ← given.withDefault "prompt_template" usual.template Decoder.string
    let eventThreshold ← given.withDefault "event_threshold" usual.eventThreshold Decoder.count
    let tokenThreshold ← given.withDefault "token_threshold" usual.tokenThreshold Decoder.count
    let timeThreshold ← given.withDefault "time_threshold_secs" usual.timeThreshold Decoder.count
    let mode ← given.withDefault "trigger_mode" usual.mode TriggerMode.decode
    let addToPrompt ← given.withDefault "add_summary_to_prompt" usual.addToPrompt Decoder.bool
    let singleFlight ← given.withDefault "single_flight" usual.singleFlight Decoder.bool
    return { maxWords, template, eventThreshold, tokenThreshold, timeThreshold, mode, addToPrompt,
             singleFlight }

/-- Reads the section on summaries. -/
def decode : Decoder SummaryConfig := shape.decode

end SummaryConfig

namespace Toggle

variable {α : Type}

/-- The JSON form of a part that can be switched off. -/
def encode (inner : α → Value) (t : Toggle α) : Value :=
  .object [("enabled", .bool t.enabled), ("config", inner t.config)]

/-- The record of a part that can be switched off. -/
def shape (usual : α) (inner : Decoder α) : Shape (Toggle α) where
  fields := [.of "enabled" Decoder.bool, .of "config" inner]
  leading := 0
  build given := do
    let enabled ← given.withDefault "enabled" true Decoder.bool
    let config ← given.withDefault "config" usual inner
    return { enabled, config }

/-- Reads a part that can be switched off. -/
def decode (usual : α) (inner : Decoder α) : Decoder (Toggle α) := (shape usual inner).decode

end Toggle

namespace Config

/-- The JSON form of a configuration. -/
def encode (c : Config) : Value :=
  .object
    [("summary", c.summary.encode SummaryConfig.encode), ("scheduler", c.pool.encode),
      ("tailoring", c.tailoring.encode)]

/-- Reads the section on summaries with its switch. -/
def decodeSummary : Decoder (Toggle SummaryConfig) := Toggle.decode {} SummaryConfig.decode

/-- The record of a configuration. -/
def shape : Shape Config where
  fields :=
    [.of "summary" decodeSummary, .of "scheduler" PoolConfig.decode,
      .of "tailoring" TailoringConfig.decode]
  leading := 0
  build given := do
    let usual : Config := {}
    let summary ← given.withDefault "summary" usual.summary decodeSummary
    let pool ← given.withDefault "scheduler" usual.pool PoolConfig.decode
    let tailoring ← given.withDefault "tailoring" usual.tailoring TailoringConfig.decode
    return { summary, pool, tailoring }

/-- Reads a configuration. -/
def decode : Decoder Config := shape.decode

/-- The configuration that a text holds, if it can be worked with. -/
def ofText (text : String) : Except Failure Config :=
  match decodeText decode text with
  | .ok c => do
    c.validate
    return c
  | .error f => .error (.json f)

end Config

end Transcript
