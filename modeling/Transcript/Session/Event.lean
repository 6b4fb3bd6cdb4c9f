import Transcript.Message.Json
import Transcript.Session.Branch
import Transcript.Time.Notation

/-!
# Events

An event is a message with its place in a session: who wrote it, when, and on which branch.
-/

namespace Transcript

open Json

/-- A message in its session. -/
structure Event where
  /-- The number of the event in its session, from 1. An event of no session yet has 0. -/
  id : Nat := 0
  /-- Who wrote it. -/
  author : String
  /-- The branch it was written on. -/
  branch : String := ""
  /-- What was written. -/
  message : Message
  /-- When it was written. -/
  timestamp : Timestamp
  /-- What it cost the model that wrote it. -/
  usage : Option Usage := none
deriving DecidableEq, Repr

namespace Event

/-- Whether the filter lets the event through. -/
def isWithin (e : Event) (filter : String) : Bool := Branch.isWithin e.branch filter

/-- The JSON form of an event. -/
def encode (e : Event) : Value :=
  .object <|
    [("id", .count e.id), ("author", .string e.author), ("branch", .string e.branch),
      ("message", e.message.encode), ("timestamp", e.timestamp.encode)] ++
    optionalMember "usage" Usage.encode e.usage

/-- The record of an event. -/
def shape : Shape Event where
  fields :=
    [.of "id" Decoder.count, .of "author" Decoder.string, .of "branch" Decoder.string,
      .of "message" Message.decode, .of "timestamp" Timestamp.decode,
      .of "usage" (Decoder.option Usage.decode)]
  leading := 5
  build given := do
    let id ← given.withDefault "id" 0 Decoder.count
    let author ← given.required "author" Decoder.string
    let branch ← given.withDefault "branch" "" Decoder.string
    let message ← given.required "message" Message.decode
    let timestamp ← given.required "timestamp" Timestamp.decode
    let usage ← given.withDefault "usage" none (Decoder.option Usage.decode)
    return { id, author, branch, message, timestamp, usage }

/-- Reads an event. -/
def decode : Decoder Event := shape.decode

end Event

end Transcript
