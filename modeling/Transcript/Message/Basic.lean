/-!
# Messages

What a participant of a conversation says: words, reasoning, further parts, and the tools that are
called or answer a call.
-/

namespace Transcript

/-- Who speaks. -/
inductive Role where
  /-- The one who sets the rules. -/
  | system
  /-- The one who asks. -/
  | user
  /-- The model that answers. -/
  | assistant
  /-- A tool that the model has called. -/
  | tool
deriving DecidableEq, Repr

/-- All roles. -/
def Role.all : List Role := [.system, .user, .assistant, .tool]

/-- The name of a role. -/
def Role.name : Role → String
  | .system => "system"
  | .user => "user"
  | .assistant => "assistant"
  | .tool => "tool"

/-- A part of a message beside its content. -/
inductive ContentPart where
  /-- More text. -/
  | text (text : String)
  /-- A picture, by its address. -/
  | image (url : String)
  /-- A file, by its name. -/
  | file (name : String) (mimeType : Option String)
deriving DecidableEq, Repr

/-- The text of a part that has one. -/
def ContentPart.text? : ContentPart → Option String
  | .text t => some t
  | _ => none

/-- A call of a tool. -/
structure ToolCall where
  /-- The name of this call, which the answer repeats. -/
  id : String
  /-- The name of the tool. -/
  name : String
  /-- What the tool is given. -/
  arguments : String
deriving DecidableEq, Repr

/-- A message of a conversation. -/
structure Message where
  /-- Who speaks. -/
  role : Role
  /-- What is said. -/
  content : Option String := none
  /-- The thoughts behind it. -/
  reasoning : Option String := none
  /-- Further parts. -/
  parts : List ContentPart := []
  /-- The tools that are called. No list at all is not the same as an empty one. -/
  toolCalls : Option (List ToolCall) := none
  /-- The call that this message answers. -/
  toolCallId : Option String := none
deriving DecidableEq, Repr

namespace Message

/-- A message with nothing but content. -/
def saying (role : Role) (content : String) : Message := { role, content := some content }

/-- What the system says. -/
def system (content : String) : Message := saying .system content

/-- What the user says. -/
def user (content : String) : Message := saying .user content

/-- What the assistant says. -/
def assistant (content : String) : Message := saying .assistant content

/-- The assistant calls tools. -/
def calling (calls : List ToolCall) : Message := { role := .assistant, toolCalls := some calls }

/-- A tool answers a call. -/
def toolResult (callId content : String) : Message :=
  { saying .tool content with toolCallId := some callId }

/-- The message with thoughts. -/
def withReasoning (m : Message) (reasoning : String) : Message :=
  { m with reasoning := some reasoning }

/-- The message with one more part at its end. -/
def withPart (m : Message) (part : ContentPart) : Message := { m with parts := m.parts ++ [part] }

/-- Whether the message is the answer of a tool. -/
def isToolResult (m : Message) : Bool := m.role == .tool

/-- The texts of the parts that have one. -/
def partTexts (m : Message) : List String := m.parts.filterMap ContentPart.text?

/-- The words of a message: its content unless that is empty, then its text parts, a line each. -/
def text (m : Message) : String :=
  let content := m.content.toList.filter (!·.isEmpty)
  "\n".intercalate (content ++ m.partTexts)

end Message

end Transcript
