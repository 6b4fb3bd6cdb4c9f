import Transcript.Message.Usage

/-!
# Calls

A job calls on others, a store of summaries and a model, and they take their time. A `Reply` says
how such a call goes: how long it takes and how it ends. What the others do may be anything, so it
is given as a function from the number of the call, counted from 1.
-/

namespace Transcript

/-- How a call ends. -/
inductive Ending (α : Type) where
  /-- With a value. -/
  | value (a : α)
  /-- With an error that says why. -/
  | error (reason : String)
  /-- By breaking down, with or without a message. -/
  | panic (message : Option String)
deriving DecidableEq

/-- How a call goes. -/
structure Reply (α : Type) where
  /-- The milliseconds that the call takes. -/
  delay : Nat := 0
  /-- How it ends. -/
  ending : Ending α

/-- What is told about a breakdown. -/
def panicText (message : Option String) : String := message.getD "non-string panic payload"

/-- A call that has begun: when it is over, and how it ends, unless its time runs out before. -/
structure Pending (α : Type) where
  /-- The millisecond at which it is over. -/
  due : Nat
  /-- How it ends, or nothing if its time runs out. -/
  ending : Option (Ending α)

namespace Reply

variable {α : Type}

/--
A call that begins now and may last until the deadline. One that takes no time ends as it does, even
if the deadline has passed.
-/
def within (r : Reply α) (now deadline : Nat) : Pending α :=
  if r.delay = 0 then ⟨now, some r.ending⟩
  else if deadline < now + r.delay then ⟨max now deadline, none⟩
  else ⟨now + r.delay, some r.ending⟩

end Reply

/-- What a model says. -/
structure ModelOutput where
  /-- The text. -/
  text : String
  /-- What it cost. -/
  usage : Usage := {}
deriving DecidableEq, Repr

/-- A model that writes summaries. -/
structure Summarizer where
  /-- The name of the model. -/
  name : String := "summarizer"
  /-- How the call of the number with the prompt goes. -/
  reply : Nat → String → Reply ModelOutput

/-- A model that refuses every prompt. -/
def Summarizer.absent : Summarizer where
  reply _ _ := { ending := .error "no summarizer configured" }

/-- What the calls of a store go through before they reach it. -/
structure Link where
  /-- How the call to load a summary goes that has the number. -/
  load : Nat → Reply Unit := fun _ => { ending := .value () }
  /-- How the call to store a summary goes that has the number. -/
  store : Nat → Reply Unit := fun _ => { ending := .value () }

end Transcript
