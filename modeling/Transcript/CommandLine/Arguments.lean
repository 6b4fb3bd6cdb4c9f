import Transcript.Json.Value
import Transcript.Tailoring.Strategy
import Transcript.Tokens

/-!
# Command line arguments

There are two commands, `tailor` and `estimate`. Each takes the name of a file with a conversation,
and options that start with `--` and have a value, which is the next argument or stands behind an
equals sign. Behind a lone `--` there are no more options. The arguments are looked at one after
the other, so what is wrong with one in front of a call for help is found first.
-/

namespace Transcript

/-- What the command line asks for. -/
inductive Command where
  /-- To tailor a conversation. -/
  | tailor (strategy : Option Strategy) (budget : Option Nat) (config : Option String)
      (charactersPerToken : Nat) (input : String)
  /-- To estimate the tokens of each message. -/
  | estimate (charactersPerToken : Nat) (input : String)
deriving DecidableEq, Repr

/-- Why a command line is not a command. -/
inductive Refusal where
  /-- It asks for the version. -/
  | version
  /-- It asks for help. -/
  | help
  /-- It makes no sense. -/
  | usage
deriving DecidableEq, Repr

namespace Command

/-- Reads a count that fits a machine word. A plus sign may stand in front. -/
def readCount (s : String) : Except Refusal Nat :=
  let ds := match s.toList with
    | '+' :: ds => ds
    | ds => ds
  if ds.isEmpty || !ds.all Char.isDigit then .error .usage
  else
    let n := Nat.ofDigitChars 10 ds 0
    if n < Json.wordLimit then .ok n else .error .usage

/-- Reads the name of a strategy. -/
def readStrategy (s : String) : Except Refusal Strategy :=
  match Strategy.ofName s with
  | .ok t => .ok t
  | .error _ => .error .usage

/-! ## Options -/

/-- An option of a command. -/
structure Choice where
  /-- The name, without the dashes. -/
  name : String
  /-- Whether the option can have the value. -/
  fits : String → Bool

/-- The option whose value is read in the given way. -/
def Choice.of {α : Type} (name : String) (read : String → Except Refusal α) : Choice where
  name
  fits value := (read value).toBool

/-- The options and the other argument of a command. -/
structure Arguments where
  /-- The options with their values. -/
  options : List (String × String) := []
  /-- The other argument. -/
  input? : Option String := none
deriving DecidableEq, Repr

/-- Whether an argument has the form of an option. A lone dash has not. -/
def isOption (s : String) : Bool :=
  match s.toList with
  | '-' :: _ :: _ => true
  | _ => false

/-- The name of an option and the value behind its equals sign, if there is one. -/
def splitOption (s : List Char) : String × Option String :=
  let name := String.ofList (s.takeWhile (· != '='))
  match s.dropWhile (· != '=') with
  | [] => (name, none)
  | _ :: value => (name, some (String.ofList value))

/-- The arguments with the value of an option that there is and that was not given before. -/
def Arguments.give (a : Arguments) (choices : List Choice) (name value : String) :
    Except Refusal Arguments :=
  match choices.find? (fun c => c.name == name) with
  | some c =>
    if c.fits value && (a.options.lookup name).isNone then
      .ok { a with options := a.options ++ [(name, value)] }
    else .error .usage
  | none => .error .usage

/-- The arguments with one that is no option. There may be only one of them. -/
def Arguments.take (a : Arguments) (input : String) : Except Refusal Arguments :=
  match a.input? with
  | none => .ok { a with input? := some input }
  | some _ => .error .usage

/-- Whether an argument asks for help. -/
def isHelp (s : String) : Bool := s == "--help" || s.toList.take 2 == ['-', 'h']

/-- Sorts the arguments of a command with the given options. -/
def sort (choices : List Choice) (a : Arguments) : List String → Except Refusal Arguments
  | [] => .ok a
  | s :: rest =>
    if s = "--" then rest.foldlM Arguments.take a
    else if !isOption s then do
      let a ← a.take s
      sort choices a rest
    else if isHelp s then .error .help
    else
      match s.toList with
      | '-' :: '-' :: text =>
        match splitOption text, rest with
        | (name, some value), rest => do
          let a ← a.give choices name value
          sort choices a rest
        | (name, none), value :: rest => do
          if isOption value then throw .usage
          let a ← a.give choices name value
          sort choices a rest
        | (_, none), [] => .error .usage
      | _ => .error .usage

/-- The argument that is no option, which has to be there. -/
def Arguments.input (a : Arguments) : Except Refusal String :=
  match a.input? with
  | some input => .ok input
  | none => .error .usage

/-- The value of an option that need not be given. -/
def Arguments.value? {α : Type} (a : Arguments) (name : String) (read : String → Except Refusal α) :
    Except Refusal (Option α) :=
  match a.options.lookup name with
  | some s => (read s).map some
  | none => .ok none

/-- The value of the option that says how many characters make a token. -/
def Arguments.ratio (a : Arguments) : Except Refusal Nat := do
  let given ← a.value? "chars-per-token" readCount
  return given.getD TokenCounter.charactersPerToken

/-! ## Commands -/

/-- The option that says how many characters make a token. -/
def ratioChoice : Choice := .of "chars-per-token" readCount

/-- The options of the command `tailor`. -/
def tailorChoices : List Choice :=
  [.of "strategy" readStrategy, .of "budget" readCount, ⟨"config", fun _ => true⟩, ratioChoice]

/-- The command `tailor` with the arguments. -/
def parseTailor (args : List String) : Except Refusal Command := do
  let a ← sort tailorChoices {} args
  let strategy ← a.value? "strategy" readStrategy
  let budget ← a.value? "budget" readCount
  let config ← a.value? "config" pure
  let ratio ← a.ratio
  return .tailor strategy budget config ratio (← a.input)

/-- The command `estimate` with the arguments. -/
def parseEstimate (args : List String) : Except Refusal Command := do
  let a ← sort [ratioChoice] {} args
  return .estimate (← a.ratio) (← a.input)

/-- What a call for help, with the name of a command or without, comes to. -/
def helpOn : List String → Refusal
  | [] => .help
  | [name] => if name = "tailor" ∨ name = "estimate" ∨ name = "help" then .help else .usage
  | _ => .usage

/-- The command that the arguments stand for. -/
def parse : List String → Except Refusal Command
  | [] => .error .usage
  | s :: args =>
    if s = "tailor" then parseTailor args
    else if s = "estimate" then parseEstimate args
    else if s = "--version" || s.toList.take 2 == ['-', 'V'] then .error .version
    else if isHelp s then .error .help
    else if s = "help" then .error (helpOn args)
    else .error .usage

end Command

end Transcript
