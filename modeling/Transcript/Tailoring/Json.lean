import Transcript.Config.Basic
import Transcript.Json.Decode

/-!
# Tailoring as JSON

Strategies by their names, and the section of a configuration on tailoring.
-/

namespace Transcript

open Json

namespace Strategy

/-- The name of a strategy in JSON. -/
def key : Strategy → String
  | .middleOut => "middle_out"
  | .headOut => "head_out"
  | .tailOut => "tail_out"

/-- The JSON form of a strategy. -/
def encode (s : Strategy) : Value := .string s.key

/-- Reads a strategy. -/
def decode : Decoder Strategy := Decoder.name (all.map fun s => (s.key, s))

end Strategy

namespace TailoringConfig

/-- The JSON form of the section on tailoring. -/
def encode (c : TailoringConfig) : Value :=
  .object
    [("strategy", c.strategy.encode), ("max_tokens", .count c.maxTokens),
      ("max_history_messages", .count c.maxHistory)]

/-- The record of the section on tailoring. -/
def shape : Shape TailoringConfig where
  fields :=
    [.of "strategy" Strategy.decode, .of "max_tokens" Decoder.count,
      .of "max_history_messages" Decoder.count]
  leading := 0
  build given := do
    let usual : TailoringConfig := {}
    let strategy ← given.withDefault "strategy" usual.strategy Strategy.decode
    let maxTokens ← given.withDefault "max_tokens" usual.maxTokens Decoder.count
    let maxHistory ← given.withDefault "max_history_messages" usual.maxHistory Decoder.count
    return { strategy, maxTokens, maxHistory }

/-- Reads the section on tailoring. -/
def decode : Decoder TailoringConfig := shape.decode

end TailoringConfig

end Transcript
