import Transcript.CommandLine.Report

/-!
# The program

Reads the files that a command names, and prints its report.
-/

namespace Transcript.Program

/-- The reason that an error of the system stands for. -/
def faultOf : IO.Error → SystemFault
  | .noFileOrDirectory .. => .notFound
  | .inappropriateType _ code _ => if code = 20 then .notDirectory else .isDirectory
  | .invalidArgument _ code _ => if code = 36 then .nameTooLong else .deviceFailed
  | .permissionDenied .. => .permissionDenied
  | _ => .deviceFailed

/-- Reads a file. -/
def readFile (name : String) : IO Source := do
  try
    return textOfBytes (← IO.FS.readBinFile name).data.toList
  catch e => return .error (faultOf e)

/-- Reads the standard input to its end. -/
def readInput : IO Source := do
  try
    return textOfBytes (← (← IO.getStdin).readBinToEnd).data.toList
  catch e => return .error (faultOf e)

/-- Reads what a command needs, in its order, and gives the result. -/
def execute (command : Command) : IO Command.Result := do
  let config ← command.config?.mapM readFile
  match Command.settings config with
  | .error reason => return Command.fail reason
  | .ok settings =>
    let conversation ←
      if command.input = Command.standardInput then readInput else readFile command.input
    return command.finish settings conversation

end Transcript.Program

/-- Runs the command that the arguments stand for. -/
def main (args : List String) : IO UInt32 := do
  let result ← match Transcript.Command.parse args with
    | .error r => pure (Transcript.Command.refuse r)
    | .ok command => Transcript.Program.execute command
  (← IO.getStdout).putStr result.output
  (← IO.getStderr).putStr result.trouble
  return result.exit.toUInt32
