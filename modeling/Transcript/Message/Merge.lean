import Transcript.Message.Basic
import Transcript.Message.Usage

/-!
# Merging chunks

A message that is streamed comes in chunks, and so does the account of what it cost. `Merge` puts
two chunks together, in the order in which they came, and `mergeAll` a whole row of them.
-/

namespace Transcript

/-- Chunks of one thing, of which two in a row make one. -/
class Merge (α : Type) where
  /-- The chunk that stands for both. -/
  merge : α → α → α

export Merge (merge)

/-- The chunk that stands for a whole row, merged from the front. -/
def mergeAll {α : Type} [Merge α] : List α → Option α
  | [] => none
  | a :: as => some (as.foldl merge a)

/-- The chunk that stands for a whole row, merged from the back. -/
def mergeAllBack {α : Type} [Merge α] : List α → Option α
  | [] => none
  | a :: as =>
    match mergeAllBack as with
    | some b => some (merge a b)
    | none => some a

/-- Two values in a row, where either may be absent. -/
def joined {α : Type} (append : α → α → α) : Option α → Option α → Option α
  | some a, some b => some (append a b)
  | some a, none => some a
  | none, b => b

/-- Texts, parts and calls are put one behind the other. The role is the first chunk's. -/
def Message.merge (a b : Message) : Message where
  role := a.role
  content := joined (· ++ ·) a.content b.content
  reasoning := joined (· ++ ·) a.reasoning b.reasoning
  parts := a.parts ++ b.parts
  toolCalls := joined (· ++ ·) a.toolCalls b.toolCalls
  toolCallId := a.toolCallId <|> b.toolCallId

instance : Merge Message := ⟨Message.merge⟩

instance : Merge Usage := ⟨Usage.add⟩

end Transcript
