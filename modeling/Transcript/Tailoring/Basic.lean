import Transcript.Tailoring.Segments
import Transcript.Tailoring.Strategy
import Transcript.Tokens

/-!
# Tailoring a conversation to a budget

`Tailor.tailor` gives up messages of the middle until the rest fits the budget, if it can. The
messages that stay keep their order. The budget is no promise: where the head and the tail alone
cost more, they stay and everything between them goes.
-/

namespace Transcript

/-- A way to tailor conversations. -/
structure Tailor where
  /-- Which messages go first. -/
  strategy : Strategy
  /-- What a message costs. -/
  cost : TokenCounter := TokenCounter.standard

namespace Tailor

/-- The cut that makes the messages fit the budget. -/
def cut (t : Tailor) (messages : List Message) (budget : Nat) : Cut :=
  let sums := t.cost.prefixSums messages
  let segments := Segments.of messages
  let tailStart := messages.length - segments.tail
  let preserved := Strategy.costBetween sums 0 segments.head +
    Strategy.costBetween sums tailStart messages.length
  if budget < preserved then ⟨segments.head, tailStart⟩
  else t.strategy.cut sums segments.head tailStart (budget - preserved)

/--
The messages without the tool results right behind the first `head` ones. Nobody is left who has
called those tools.
-/
def dropOrphans (head : Nat) (messages : List Message) : List Message :=
  messages.take head ++ (messages.drop head).dropWhile Message.isToolResult

/-- The messages that are kept for a budget. -/
def tailor (t : Tailor) (messages : List Message) (budget : Nat) : List Message :=
  dropOrphans (Segments.of messages).head ((t.cut messages budget).apply messages)

end Tailor

end Transcript
