import Transcript.Arithmetic
import Transcript.Failure
import Transcript.Message.Basic

/-!
# Token estimates

A `TokenCounter` says what a message costs. The estimate at hand goes by the number of characters;
`countRange` adds up the messages of a range.
-/

namespace Transcript

/-- A way to tell the cost of a message. -/
abbrev TokenCounter := Message → Nat

namespace Message

/-- The number of characters of a text that may be absent. -/
def optionalLength : Option String → Nat
  | some s => s.length
  | none => 0

/-- The number of characters of a message: of its content, its reasoning and its text parts. -/
def characters (m : Message) : Nat :=
  optionalLength m.content + optionalLength m.reasoning + sumOver String.length m.partTexts

end Message

namespace TokenCounter

/-- The characters of a token, unless something else is asked for. -/
def charactersPerToken : Nat := 4

/-- One token for every `ratio` characters. Any text costs a token, and no text costs none. -/
def perCharacters (ratio : Nat) : TokenCounter := fun m =>
  match m.characters with
  | 0 => 0
  | n => max (n / max ratio 1) 1

/-- The usual estimate. -/
def standard : TokenCounter := perCharacters charactersPerToken

variable (cost : TokenCounter)

/-- The cost of a row of messages. -/
def total (messages : List Message) : Nat := sumOver cost messages

/-- The cost of the messages from `start` up to `stop`, which have to be there. -/
def countRange (messages : List Message) (start stop : Nat) : Except Failure Nat :=
  if start < stop ∧ stop ≤ messages.length then
    .ok (total cost ((messages.take stop).drop start))
  else .error (.range start stop messages.length)

/-- The costs of ever longer rows of messages: the entry at `i` is that of the first `i`. -/
def prefixSums (messages : List Message) : List Nat := go 0 messages
where
  /-- The sums that follow the sum of what comes before. -/
  go (before : Nat) : List Message → List Nat
    | [] => [before]
    | m :: ms => before :: go (before + cost m) ms

end TokenCounter

end Transcript
