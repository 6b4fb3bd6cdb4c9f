import Transcript.Json.Reader

/-!
# Decoding JSON values

A `Decoder` turns a value into data or says what is wrong with it. It looks at the parts of a value
in the order of the text, so the fault it reports is the first one in the text.

`Shape` describes records. A record is an object whose members may come in any order and may be
mixed with members of other names, or a list of the fields in the order of their declaration.
A field may not be given twice.
-/

namespace Transcript.Json

/-- A way to make data of a value. -/
abbrev Decoder (α : Type) := Value → Except Fault α

/-- The fault of a result, if it is one. -/
def fault? {α : Type} : Except Fault α → Option Fault
  | .ok _ => none
  | .error f => some f

/-- Decodes a whole text, which may hold nothing but the value and space. -/
def decodeText {α : Type} (decode : Decoder α) (text : String) : Except Fault α := do
  let (v, rest) := readText text.toList
  let a ← decode v
  match rest with
  | none => throw .truncated
  | some s => if (skipSpace s).isEmpty then return a else throw .malformed

namespace Decoder

/-- Decodes a string. -/
def string : Decoder String
  | .string s => .ok s
  | v => .error v.unexpected

/-- Decodes a truth value. -/
def bool : Decoder Bool
  | .bool b => .ok b
  | v => .error v.unexpected

/-- Decodes a count that fits a machine word. -/
def count : Decoder Nat
  | .number n =>
    match n.toCount? with
    | some k => .ok k
    | none => .error (Value.number n).unexpected
  | v => .error v.unexpected

/-- Decodes `null`, or else what the decoder does. -/
def option {α : Type} (decode : Decoder α) : Decoder (Option α)
  | .null => .ok none
  | v => do
    let a ← decode v
    return some a

/-- Decodes every item of a list. -/
def list {α : Type} (decode : Decoder α) : Decoder (List α)
  | .array items => items.mapM decode
  | v => .error v.unexpected

/--
Decodes one of a set of names. A name may also be written as an object with one member of that
name, whose value is `null`.
-/
def name {α : Type} (names : List (String × α)) : Decoder α
  | .string s =>
    match names.lookup s with
    | some a => .ok a
    | none => .error .mismatched
  | .object ((s, v) :: rest) =>
    match v.nameBreak?, names.lookup s, v, rest with
    | some b, _, _, _ => .error b.name
    | none, none, _, _ => .error .mismatched
    | none, some a, .null, [] => .ok a
    | none, some _, .null, (_, v) :: _ => .error v.closeFault
    | none, some _, v, _ => .error v.unexpected
  | .broken b => .error b.name
  | _ => .error .malformed

end Decoder

/-- A field of a record: its name, and what is wrong with a value in its place. -/
structure Field where
  /-- The name of the field. -/
  name : String
  /-- The fault of a value that is given for the field. -/
  fault? : Value → Option Fault

/-- The field that the decoder reads. -/
def Field.of {α : Type} (name : String) (decode : Decoder α) : Field where
  name
  fault? v := Json.fault? (decode v)

/-- The values given for the fields of a record. -/
abbrev Given := String → Option Value

namespace Given

/-- A field that has to be given. -/
def required {α : Type} (given : Given) (name : String) (decode : Decoder α) : Except Fault α :=
  match given name with
  | some v => decode v
  | none => .error .mismatched

/-- A field that has a value of its own when it is not given. -/
def withDefault {α : Type} (given : Given) (name : String) (default : α) (decode : Decoder α) :
    Except Fault α :=
  match given name with
  | some v => decode v
  | none => .ok default

end Given

/-- The shape of a record. -/
structure Shape (α : Type) where
  /-- The fields, in the order of their declaration. -/
  fields : List Field
  /-- How many fields a record that is written as a list has at least. -/
  leading : Nat
  /-- The record with the given values. -/
  build : Given → Except Fault α

namespace Shape

/-- The fault of a member that is no field: it is passed over, but its name has to be read. -/
def otherFault? (v : Value) : Option Fault :=
  match v.nameBreak? with
  | some b => some b.read
  | none => v.passFault?

/-- The first fault of the members of an object, after members with the names `seen`. -/
def memberFault? (fields : List Field) : (seen : List String) → List (String × Value) → Option Fault
  | _, [] => none
  | seen, (name, v) :: ms =>
    match fields.find? (fun f => f.name == name) with
    | none => otherFault? v <|> memberFault? fields seen ms
    | some f =>
      if seen.contains name then some .mismatched
      else f.fault? v <|> memberFault? fields (name :: seen) ms

/-- The first fault of the items of a list that stand for the fields in turn. -/
def itemFault? : (leading : Nat) → List Field → List Value → Option Fault
  | _, [], [] => none
  | _, [], v :: _ => some v.closeFault
  | leading, _ :: _, [] => if leading = 0 then none else some .mismatched
  | leading, f :: fs, v :: vs => f.fault? v <|> itemFault? (leading - 1) fs vs

/-- Decodes a record. -/
def decode {α : Type} (shape : Shape α) : Decoder α
  | .object members =>
    match memberFault? shape.fields [] members with
    | some f => .error f
    | none => shape.build (members.lookup ·)
  | .array items =>
    match itemFault? shape.leading shape.fields items with
    | some f => .error f
    | none => shape.build (((shape.fields.map Field.name).zip items).lookup ·)
  | v => .error v.unexpected

end Shape

/-- The member that a field with a value adds to an object. A field without one adds none. -/
def optionalMember {α : Type} (name : String) (encode : α → Value) :
    Option α → List (String × Value)
  | some a => [(name, encode a)]
  | none => []

end Transcript.Json
