import Transcript.Json.Number

/-!
# JSON values

`Value` is a JSON value as it was found in a text: objects keep their members in the order of the
text, repeated names included, and a place where the text stops being JSON is a `broken` leaf.
A reader that walks a value in order therefore meets a fault exactly where it would meet it in the
text, and `Value.passFault?` and `Value.readFault?` are the two ways of walking that look at no
particular type.
-/

namespace Transcript.Json

/-- What is wrong with a text that should hold a value of some type. -/
inductive Fault where
  /-- The text is not JSON. -/
  | malformed
  /-- The text ends before the value does. -/
  | truncated
  /-- The text is JSON, but of the wrong shape. -/
  | mismatched
deriving DecidableEq, Repr

/-- The word that reports a fault. -/
def Fault.word : Fault → String
  | .malformed => "syntax"
  | .truncated => "eof"
  | .mismatched => "data"

/-- Why a place in a text holds no value, as each kind of reader finds it. -/
structure Break where
  /-- The fault for a reader that wants the value itself. -/
  read : Fault
  /-- The fault for a reader that passes over the value, if it notices any. -/
  pass : Option Fault
  /-- The fault for a reader that wants one of a fixed set of names. -/
  name : Fault
  /-- The fault for a reader that wants the bracket to be closed here. -/
  close : Fault := .malformed
  /-- Whether the place is that of the name of a member. -/
  atName : Bool := false
deriving DecidableEq, Repr

namespace Break

/-- A place that is the same fault for every reader of a value. -/
def same (f : Fault) : Break := ⟨f, some f, f, .malformed, false⟩

/-- The end of the text behind a value inside brackets. -/
def ended : Break := ⟨.truncated, some .truncated, .truncated, .truncated, false⟩

/-- The break as that of the name of a member. -/
def inName (b : Break) : Break := { b with atName := true }

end Break

/-- A JSON value, as far as a text could be read. -/
inductive Value where
  /-- The literal `null`. -/
  | null
  /-- A truth value. -/
  | bool (b : Bool)
  /-- A number. -/
  | number (n : Number)
  /-- A string. -/
  | string (s : String)
  /-- A list of values. -/
  | array (items : List Value)
  /-- Named values, in the order of the text. -/
  | object (members : List (String × Value))
  /-- A place where the text holds no value. -/
  | broken (b : Break)

namespace Value

/-- The number with this count. -/
def count (n : Nat) : Value := .number { coefficient := n }

/-- The break at the name of a member, whose value stands for it. -/
def nameBreak? : Value → Option Break
  | .broken b => if b.atName then some b else none
  | _ => none

/-- The fault that a reader reports when the bracket should be closed where the value stands. -/
def closeFault : Value → Fault
  | .broken b => b.close
  | _ => .malformed

/-- The fault that a reader reports when the value is not of the kind it wants. -/
def unexpected : Value → Fault
  | .broken b => b.read
  | .number n => if n.isFinite then .mismatched else .malformed
  | _ => .mismatched

mutual
/-- The first fault that is noticed when the value is passed over. -/
def passFault? : Value → Option Fault
  | .array items => passFaultItems? items
  | .object members => passFaultMembers? members
  | .broken b => b.pass
  | _ => none

/-- The first fault that is noticed when the values are passed over. -/
def passFaultItems? : List Value → Option Fault
  | [] => none
  | v :: vs => v.passFault? <|> passFaultItems? vs

/-- The first fault that is noticed when the members are passed over. -/
def passFaultMembers? : List (String × Value) → Option Fault
  | [] => none
  | (_, v) :: ms => v.passFault? <|> passFaultMembers? ms
end

mutual
/-- The first fault that is noticed when the value is read in full, whatever its shape. -/
def readFault? : Value → Option Fault
  | .array items => readFaultItems? items
  | .object members => readFaultMembers? members
  | .broken b => some b.read
  | .number n => if n.isFinite then none else some .malformed
  | _ => none

/-- The first fault that is noticed when the values are read in full. -/
def readFaultItems? : List Value → Option Fault
  | [] => none
  | v :: vs => v.readFault? <|> readFaultItems? vs

/-- The first fault that is noticed when the members are read in full. -/
def readFaultMembers? : List (String × Value) → Option Fault
  | [] => none
  | (_, v) :: ms => v.readFault? <|> readFaultMembers? ms
end

end Value

end Transcript.Json
