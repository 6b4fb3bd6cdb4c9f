import Transcript.Failure
import Transcript.Message.Json
import Transcript.Session.Key
import Transcript.Time.Notation

/-!
# Summaries

A summary stands for the events of a scope up to one of them, the last that it covers. A store keeps
the latest summary of each scope. It may fail, and it may keep a trace of a failed attempt, so
storing gives a store back in any case.
-/

namespace Transcript

open Json

/-- What stands for the first events of a scope. -/
structure Summary where
  /-- The text. -/
  text : String
  /-- The number of the last event that is covered. -/
  coveredUntil : Nat
  /-- When the text was written. -/
  generatedAt : Timestamp
  /-- What the text cost the model that wrote it. -/
  usage : Usage := {}
deriving DecidableEq, Repr

namespace Summary

/-- The JSON form of a summary. -/
def encode (s : Summary) : Value :=
  .object [("text", .string s.text), ("covered_until", .count s.coveredUntil),
    ("generated_at", s.generatedAt.encode), ("usage", s.usage.encode)]

/-- The record of a summary. -/
def shape : Shape Summary where
  fields :=
    [.of "text" Decoder.string, .of "covered_until" Decoder.count,
      .of "generated_at" Timestamp.decode, .of "usage" Usage.decode]
  leading := 3
  build given := do
    let text ← given.required "text" Decoder.string
    let coveredUntil ← given.required "covered_until" Decoder.count
    let generatedAt ← given.required "generated_at" Timestamp.decode
    let usage ← given.withDefault "usage" {} Usage.decode
    return { text, coveredUntil, generatedAt, usage }

/-- Reads a summary. -/
def decode : Decoder Summary := shape.decode

end Summary

/-- What can keep summaries. -/
class SummaryStore (σ : Type) where
  /-- The latest summary of a scope, if there is one. -/
  load : σ → Scope → Except Failure (Option Summary)
  /-- Replaces the summary of a scope. -/
  store : σ → Scope → Summary → Except Failure Unit × σ

end Transcript
