import Transcript.Json.Decode
import Transcript.Message.Basic
import Transcript.Message.Usage

/-!
# Messages as JSON

Every type of a message has an `encode` and a `decode`. What is absent is left out, except the kind
of a file, which is written as `null`; what is left out is absent.
-/

namespace Transcript

open Json

namespace Role

/-- The JSON form of a role. -/
def encode (r : Role) : Value := .string r.name

/-- Reads a role. -/
def decode : Decoder Role := Decoder.name (all.map fun r => (r.name, r))

end Role

namespace ToolCall

/-- The JSON form of a call. -/
def encode (c : ToolCall) : Value :=
  .object [("id", .string c.id), ("name", .string c.name), ("arguments", .string c.arguments)]

/-- The record of a call. -/
def shape : Shape ToolCall where
  fields := [.of "id" Decoder.string, .of "name" Decoder.string, .of "arguments" Decoder.string]
  leading := 3
  build given := do
    let id ← given.required "id" Decoder.string
    let name ← given.required "name" Decoder.string
    let arguments ← given.required "arguments" Decoder.string
    return { id, name, arguments }

/-- Reads a call. -/
def decode : Decoder ToolCall := shape.decode

end ToolCall

namespace ContentPart

/-- The kinds of parts, each named in the member `type` of its JSON form. -/
inductive Kind where
  /-- A text. -/
  | text
  /-- A picture. -/
  | image
  /-- A file. -/
  | file
deriving DecidableEq, Repr

/-- The names of all kinds. -/
def kinds : List (String × Kind) := [("text", .text), ("image", .image), ("file", .file)]

/-- The JSON form of a part. -/
def encode : ContentPart → Value
  | .text t => .object [("type", .string "text"), ("text", .string t)]
  | .image url => .object [("type", .string "image"), ("url", .string url)]
  | .file name mimeType =>
    let kind := match mimeType with
      | some m => .string m
      | none => .null
    .object [("type", .string "file"), ("name", .string name), ("mime_type", kind)]

/-- The record of a part of the kind, beside the name of the kind. -/
def shape : Kind → Shape ContentPart
  | .text =>
    { fields := [.of "text" Decoder.string]
      leading := 1
      build := fun given => return .text (← given.required "text" Decoder.string) }
  | .image =>
    { fields := [.of "url" Decoder.string]
      leading := 1
      build := fun given => return .image (← given.required "url" Decoder.string) }
  | .file =>
    { fields := [.of "name" Decoder.string, .of "mime_type" (Decoder.option Decoder.string)]
      leading := 2
      build := fun given => do
        let name ← given.required "name" Decoder.string
        let mimeType ← given.withDefault "mime_type" none (Decoder.option Decoder.string)
        return .file name mimeType }

/-- Reads the name of a kind. -/
def decodeKind (v : Value) : Except Fault Kind := do
  let name ← Decoder.string v
  match kinds.lookup name with
  | some k => return k
  | none => throw .mismatched

/-- The kind that the members name, once all of them have been read in their order. -/
def kindOf (known : Option Kind) : List (String × Value) → Except Fault Kind
  | [] =>
    match known with
    | some k => .ok k
    | none => .error .mismatched
  | (name, v) :: ms =>
    if name = "type" then
      match known with
      | some _ => .error .mismatched
      | none => do
        let k ← decodeKind v
        kindOf (some k) ms
    else
      match v.readFault? with
      | some f => .error f
      | none => kindOf known ms

/-- The kind that the first of the items names, once all of them have been read in their order. -/
def kindOfItems : List Value → Except Fault Kind
  | [] => .error .mismatched
  | v :: vs => do
    let k ← decodeKind v
    match Value.readFaultItems? vs with
    | some f => throw f
    | none => return k

/--
Reads a part. Its record is looked at only after the whole value has been read, so a fault of the
record is a mismatch, whatever its number looks like.
-/
def decode : Decoder ContentPart
  | .object members => do
    let kind ← kindOf none members
    match (shape kind).decode (.object members) with
    | .ok part => return part
    | .error _ => throw .mismatched
  | .array items => do
    let kind ← kindOfItems items
    match (shape kind).decode (.array (items.drop 1)) with
    | .ok part => return part
    | .error _ => throw .mismatched
  | v => .error v.unexpected

end ContentPart

namespace Usage

/-- The JSON form of a usage. -/
def encode (u : Usage) : Value :=
  .object [("prompt_tokens", .count u.prompt), ("completion_tokens", .count u.completion)]

/-- The record of a usage. -/
def shape : Shape Usage where
  fields := [.of "prompt_tokens" Decoder.count, .of "completion_tokens" Decoder.count]
  leading := 2
  build given := do
    let prompt ← given.required "prompt_tokens" Decoder.count
    let completion ← given.required "completion_tokens" Decoder.count
    return { prompt, completion }

/-- Reads a usage. -/
def decode : Decoder Usage := shape.decode

end Usage

namespace Message

/-- The JSON form of a message. -/
def encode (m : Message) : Value :=
  .object <|
    ("role", m.role.encode) ::
    optionalMember "content" .string m.content ++
    optionalMember "reasoning" .string m.reasoning ++
    (if m.parts.isEmpty then [] else [("parts", .array (m.parts.map ContentPart.encode))]) ++
    optionalMember "tool_calls" (fun calls => .array (calls.map ToolCall.encode)) m.toolCalls ++
    optionalMember "tool_call_id" .string m.toolCallId

/-- Reads a string or `null`. -/
def decodeText : Decoder (Option String) := Decoder.option Decoder.string

/-- Reads the parts of a message. -/
def decodeParts : Decoder (List ContentPart) := Decoder.list ContentPart.decode

/-- Reads the calls of a message. -/
def decodeCalls : Decoder (Option (List ToolCall)) := Decoder.option (Decoder.list ToolCall.decode)

/-- The record of a message. -/
def shape : Shape Message where
  fields :=
    [.of "role" Role.decode, .of "content" decodeText, .of "reasoning" decodeText,
      .of "parts" decodeParts, .of "tool_calls" decodeCalls, .of "tool_call_id" decodeText]
  leading := 1
  build given := do
    let role ← given.required "role" Role.decode
    let content ← given.withDefault "content" none decodeText
    let reasoning ← given.withDefault "reasoning" none decodeText
    let parts ← given.withDefault "parts" [] decodeParts
    let toolCalls ← given.withDefault "tool_calls" none decodeCalls
    let toolCallId ← given.withDefault "tool_call_id" none decodeText
    return { role, content, reasoning, parts, toolCalls, toolCallId }

/-- Reads a message. -/
def decode : Decoder Message := shape.decode

end Message

end Transcript
