import Transcript.CommandLine.Arguments
import Transcript.CommandLine.FileName
import Transcript.Config.Json
import Transcript.Json.Printer
import Transcript.Message.Json
import Transcript.Tailoring.Basic

/-!
# Reports

What the commands print: how a conversation is tailored, or what its messages cost. What they need
from files is passed in as it was read, or with the reason why it could not be read.
-/

namespace Transcript

open Json

/-- What was read from a file, or why it could not be read. -/
abbrev Source := Except SystemFault String

namespace Command

/-- The name that stands for the standard input. -/
def standardInput : String := "-"

/-- The name of the conversation. -/
def input : Command → String
  | .tailor _ _ _ _ input => input
  | .estimate _ input => input

/-- The name of the configuration file, if there is one. -/
def config? : Command → Option String
  | .tailor _ _ config _ _ => config
  | .estimate .. => none

/-- The section on tailoring of a configuration file. Without a file it has the usual values. -/
def settings (source : Option Source) : Except String TailoringConfig :=
  match source with
  | none => .ok {}
  | some (.error f) => .error (Failure.system f).message
  | some (.ok text) =>
    match Config.ofText text with
    | .ok c => .ok c.tailoring
    | .error f => .error f.message

/-- The messages of a conversation that was read from the named input. -/
def messages (input : String) (source : Source) : Except String (List Message) :=
  match source with
  | .error f =>
    let name := if input = standardInput then "stdin" else "'" ++ input ++ "'"
    .error ("failed to read " ++ name ++ ": " ++ f.message)
  | .ok text =>
    match decodeText (Decoder.list Message.decode) text with
    | .ok ms => .ok ms
    | .error _ => .error "failed to parse conversation"

/-- The report on a conversation that is tailored. -/
def tailorReport (tailor : Tailor) (budget : Nat) (messages : List Message) : Value :=
  let segments := Segments.of messages
  let kept := tailor.tailor messages budget
  .object
    [("strategy", .string tailor.strategy.name), ("budget", .count budget),
      ("input_messages", .count messages.length),
      ("input_tokens", .count (TokenCounter.total tailor.cost messages)),
      ("output_messages", .count kept.length),
      ("output_tokens", .count (TokenCounter.total tailor.cost kept)),
      ("head", .count segments.head), ("tail", .count segments.tail),
      ("messages", .array (kept.map Message.encode))]

/-- The report on the message at a position. -/
def estimateLine (cost : TokenCounter) (message : Message) (index : Nat) : Value :=
  .object [("index", .count index), ("role", message.role.encode),
    ("tokens", .count (cost message))]

/-- The report on the cost of each message. -/
def estimateReport (cost : TokenCounter) (messages : List Message) : Value :=
  .array (messages.zipIdx.map fun (m, i) => estimateLine cost m i)

/-- The report that a command asks for. -/
def report (command : Command) (settings : TailoringConfig) (messages : List Message) : Value :=
  match command with
  | .tailor strategy budget _ ratio _ =>
    tailorReport ⟨strategy.getD settings.strategy, TokenCounter.perCharacters ratio⟩
      (budget.getD settings.maxTokens) messages
  | .estimate ratio _ => estimateReport (TokenCounter.perCharacters ratio) messages

/-- What the program leaves behind. -/
structure Result where
  /-- The exit code. -/
  exit : Nat
  /-- The text on the standard output. -/
  output : String := ""
  /-- The text on the standard error output. -/
  trouble : String := ""
deriving DecidableEq, Repr

/-- The result of a command that is refused. -/
def refuse : Refusal → Result
  | .version => { exit := 0, output := "recap 0.1.0\n" }
  | .help => { exit := 0 }
  | .usage => { exit := 2 }

/-- The result of a command that fails. -/
def fail (reason : String) : Result := { exit := 1, trouble := "Error: " ++ reason ++ "\n" }

/-- The result of a command, once its settings are known and its conversation was read. -/
def finish (command : Command) (settings : TailoringConfig) (conversation : Source) : Result :=
  match messages command.input conversation with
  | .ok ms => { exit := 0, output := (command.report settings ms).pretty ++ "\n" }
  | .error reason => fail reason

/--
The result of a command line, for the files of the machine, the directory that it is typed in and
the text on the standard input.
-/
def run (args : List String) (files : FileTree) (dir : Path) (stdin : String) : Result :=
  match parse args with
  | .error r => refuse r
  | .ok command =>
    match settings (command.config?.map (files.readNamed dir)) with
    | .error reason => fail reason
    | .ok settings =>
      command.finish settings
        (if command.input = standardInput then .ok stdin else files.readNamed dir command.input)

end Command

end Transcript
