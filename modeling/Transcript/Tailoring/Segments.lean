import Transcript.Message.Basic

/-!
# What tailoring always keeps

The head of a conversation is its row of leading system messages, and its tail is the last turn:
what was said since the user last spoke. Neither is ever given up.
-/

namespace Transcript

/-- The lengths of the two ends that are always kept. -/
structure Segments where
  /-- The number of leading system messages. -/
  head : Nat
  /-- The number of messages of the last turn. -/
  tail : Nat
deriving DecidableEq, Repr

namespace Segments

/--
The length of the last turn of the messages, which are listed from the last one back. A turn starts
with a user message, or else behind a system message.
-/
def turnLength : List Message → Nat
  | [] => 0
  | m :: ms =>
    match m.role with
    | .user => 1
    | .system => 0
    | .assistant | .tool => 1 + turnLength ms

/-- The length of the tail of the messages behind the head. It keeps one message at least. -/
def tailLength (body : List Message) : Nat :=
  if body.isEmpty then 0
  else if body.any (·.role == .assistant) then max 1 (turnLength body.reverse)
  else 1

/-- The segments of a conversation. -/
def of (messages : List Message) : Segments where
  head := (messages.takeWhile (·.role == .system)).length
  tail := tailLength (messages.dropWhile (·.role == .system))

end Segments

end Transcript
