import Transcript.Arithmetic
import Transcript.Json.Value

/-!
# Reading JSON text

`readValue` reads one value from the front of a text. It never fails: where the text stops being
JSON the value has a `broken` leaf, and no rest of the text comes back. `readText` reads a whole
text.

Two rules reach further than the grammar. Brackets may be nested `nestingLimit` levels deep, but
only for a reader that wants what is inside. And a string whose escapes name half of a surrogate
pair has no text, yet it can be passed over.
-/

namespace Transcript.Json

/-- The white space of JSON. -/
def isSpace (c : Char) : Bool := c == ' ' || c == '\n' || c == '\t' || c == '\r'

/-- The text without the white space at its front. -/
def skipSpace (s : List Char) : List Char := s.dropWhile isSpace

/-- A value and the text after it, or no text when the value is broken off. -/
abbrev Reading := Value × Option (List Char)

/-- A text that every reader finds to break off with the fault. -/
def Reading.stop (f : Fault) : Reading := (.broken (.same f), none)

/-- Reads the letters of a word, or says what stands in their way. -/
def readWord : List Char → List Char → Except Fault (List Char)
  | [], s => .ok s
  | _ :: _, [] => .error .truncated
  | w :: ws, c :: s => if c = w then readWord ws s else .error .malformed

/-- Reads the letters of a literal that stands for the value. -/
def readLiteral (v : Value) (word s : List Char) : Reading :=
  match readWord word s with
  | .ok rest => (v, some rest)
  | .error .truncated => (.broken { Break.same .truncated with name := .malformed }, none)
  | .error f => .stop f

/-! ## Numbers -/

/-- The number whose last decimal digit is put behind the others. -/
def pushDigit (n : Nat) (d : Char) : Nat := 10 * n + (d.toNat - '0'.toNat)

/-- The natural number that a run of decimal digits stands for. -/
def ofDigits (ds : List Char) : Nat := ds.foldl pushDigit 0

/-- Puts digits behind a number while it fits a machine word. The digits that are left come back. -/
def pushDigits : Nat → List Char → Nat × List Char
  | n, [] => (n, [])
  | n, d :: ds => if pushDigit n d < wordLimit then pushDigits (pushDigit n d) ds else (n, d :: ds)

/-- Reads a run of digits, which may not be empty. -/
def readDigits (s : List Char) : Except Fault (List Char × List Char) :=
  match s.takeWhile Char.isDigit, s.dropWhile Char.isDigit with
  | [], [] => .error .truncated
  | [], _ :: _ => .error .malformed
  | ds, rest => .ok (ds, rest)

/-- Reads the digits in front of the point. Only a lone zero may start with a zero. -/
def readWhole (s : List Char) : Except Fault (List Char × List Char) := do
  let (ds, rest) ← readDigits s
  if ds.head? = some '0' && ds.length ≠ 1 then throw .malformed
  return (ds, rest)

/-- Reads the point and the digits after it, if there is a point. -/
def readFraction : List Char → Except Fault (List Char × List Char)
  | '.' :: s => readDigits s
  | s => .ok ([], s)

/-- Reads the sign and the digits of an exponent, after its mark. -/
def readPower : List Char → Except Fault (Int × List Char)
  | '-' :: s => do
    let (ds, rest) ← readDigits s
    return (-(ofDigits ds : Int), rest)
  | '+' :: s => do
    let (ds, rest) ← readDigits s
    return ((ofDigits ds : Int), rest)
  | s => do
    let (ds, rest) ← readDigits s
    return ((ofDigits ds : Int), rest)

/-- Reads the exponent, if there is one. -/
def readExponent : List Char → Except Fault (Option Int × List Char)
  | 'e' :: s | 'E' :: s => do
    let (power, rest) ← readPower s
    return (some power, rest)
  | s => .ok (none, s)

/--
The number with the given digits in front of the point and behind it. Digits that do not fit count
as zeros in front of the point, and not at all behind it.
-/
def numberOf (negative : Bool) (whole fraction : List Char) (power : Option Int) : Number :=
  let (leading, beyond) := pushDigits 0 whole
  let (coefficient, dropped) := pushDigits leading fraction
  { negative
    coefficient
    exponent := power.getD 0 + beyond.length - (fraction.length - dropped.length : Nat)
    integral := beyond.isEmpty && fraction.isEmpty && power.isNone }

/-- Reads the number after its sign. -/
def readUnsigned (negative : Bool) (s : List Char) : Except Fault (Number × List Char) := do
  let (whole, s) ← readWhole s
  let (fraction, s) ← readFraction s
  let (power, s) ← readExponent s
  return (numberOf negative whole fraction power, s)

/-- Reads a number. One that the text ends inside is malformed for a reader that passes over it. -/
def readNumber (s : List Char) : Reading :=
  let result := match s with
    | '-' :: rest => readUnsigned true rest
    | _ => readUnsigned false s
  match result with
  | .ok (n, rest) => (.number n, some rest)
  | .error .truncated => (.broken { Break.same .malformed with read := .truncated }, none)
  | .error f => .stop f

/-! ## Strings -/

/-- The value of a hexadecimal digit. -/
def hexDigit? (c : Char) : Option Nat :=
  if c.isDigit then some (c.toNat - '0'.toNat)
  else if 'a' ≤ c && c ≤ 'f' then some (c.toNat - 'a'.toNat + 10)
  else if 'A' ≤ c && c ≤ 'F' then some (c.toNat - 'A'.toNat + 10)
  else none

/-- The number that four hexadecimal digits stand for. -/
def hexUnit? (a b c d : Char) : Option Nat := do
  let a ← hexDigit? a
  let b ← hexDigit? b
  let c ← hexDigit? c
  let d ← hexDigit? d
  return ((a * 16 + b) * 16 + c) * 16 + d

/-- The character that a letter stands for behind a backslash. -/
def unescape? : Char → Option Char
  | '"' => some '"'
  | '\\' => some '\\'
  | '/' => some '/'
  | 'b' => some '\x08'
  | 'f' => some '\x0c'
  | 'n' => some '\n'
  | 'r' => some '\r'
  | 't' => some '\t'
  | _ => none

/-- The first unit of a surrogate pair. -/
def isHighSurrogate (n : Nat) : Bool := 0xD800 ≤ n && n ≤ 0xDBFF

/-- The second unit of a surrogate pair. -/
def isLowSurrogate (n : Nat) : Bool := 0xDC00 ≤ n && n ≤ 0xDFFF

/-- The character of a surrogate pair. -/
def ofSurrogates (high low : Nat) : Char :=
  Char.ofNat (0x10000 + (high - 0xD800) * 0x400 + (low - 0xDC00))

/-- What stands where four hexadecimal digits should: too few bytes, or other characters. -/
def hexFault (s : List Char) : Fault :=
  if sumOver Char.utf8Size s < 4 then .truncated else .malformed

/-- The second unit of a surrogate pair, when the text goes on with its escape. -/
def lowSurrogate? : List Char → Option Nat
  | '\\' :: 'u' :: a :: b :: c :: d :: _ => (hexUnit? a b c d).filter isLowSurrogate
  | _ => none

/-- The fault of a first surrogate that no second one follows. -/
def pairFault : List Char → Fault
  | [] => .truncated
  | '\\' :: [] => .truncated
  | '\\' :: 'u' :: s =>
    match s with
    | a :: b :: c :: d :: _ => if (hexUnit? a b c d).isSome then .malformed else hexFault s
    | _ => hexFault s
  | _ => .malformed

/-- How the reading of a string ends. -/
inductive StringReading where
  /-- With its text, and with the text after it. -/
  | read (text : String) (rest : List Char)
  /-- With the fault of its text, which can yet be passed over, and with the text after it. -/
  | unreadable (fault : Fault) (rest : List Char)
  /-- With a place where it breaks off. -/
  | stopped (b : Break)

/-- The end of a string that breaks off, after a fault that only its text shows. -/
def StringReading.stop (early : Option Fault) (f : Fault) : StringReading :=
  .stopped { Break.same (early.getD f) with pass := some f }

/-- The string as a value. -/
def StringReading.toReading : StringReading → Reading
  | .read text rest => (.string text, some rest)
  | .unreadable f rest => (.broken { Break.same f with pass := none }, some rest)
  | .stopped b => (.broken b, none)

/--
Reads the rest of a string. `text` holds the characters so far, the last one first, and `early`
the first fault that a reader of the text finds and one that passes over it does not.
-/
def readString (text : List Char) (early : Option Fault) : List Char → StringReading
  | [] => .stop early .truncated
  | c :: s =>
    if c = '"' then
      match early with
      | none => .read (String.ofList text.reverse) s
      | some f => .unreadable f s
    else if c = '\\' then
      match s with
      | [] => .stop early .truncated
      | 'u' :: s =>
        match s with
        | h₁ :: h₂ :: h₃ :: h₄ :: s' =>
          match hexUnit? h₁ h₂ h₃ h₄ with
          | none => .stop early (hexFault s)
          | some n =>
            if isLowSurrogate n then readString text (early <|> some .malformed) s'
            else if isHighSurrogate n then
              match lowSurrogate? s' with
              | some m =>
                match s' with
                | _ :: _ :: _ :: _ :: _ :: _ :: s'' =>
                    readString (ofSurrogates n m :: text) early s''
                | _ => .stop early .truncated
              | none => readString text (early <|> some (pairFault s')) s'
            else readString (Char.ofNat n :: text) early s'
        | s => .stop early (hexFault s)
      | e :: s =>
        match unescape? e with
        | some c => readString (c :: text) early s
        | none => .stop early .malformed
    else if c.toNat < 0x20 then .stop early .malformed
    else readString (c :: text) early s

/-! ## Values -/

/-- The number of brackets that may be open at once, for a reader of what they hold. -/
def nestingLimit : Nat := 127

/-- The reading of a bracketed value, which nobody may read who has too many brackets open. -/
def enclose (depth : Nat) (v : Value) (rest : Option (List Char)) : Reading :=
  if depth < nestingLimit then (v, rest)
  else (.broken { Break.same .malformed with pass := v.passFault? }, rest)

mutual
/-- Reads a value inside `depth` brackets. The fuel is spent by the number of steps. -/
def readValue : (fuel depth : Nat) → List Char → Reading
  | 0, _, _ => .stop .truncated
  | fuel + 1, depth, s =>
    match skipSpace s with
    | [] => .stop .truncated
    | c :: s =>
      if c = '"' then (readString [] none s).toReading
      else if c = '[' then
        let (items, rest) := readItems fuel (depth + 1) true s
        enclose depth (.array items) rest
      else if c = '{' then
        let (members, rest) := readMembers fuel (depth + 1) true s
        enclose depth (.object members) rest
      else if c = 'n' then readLiteral .null ['u', 'l', 'l'] s
      else if c = 't' then readLiteral (.bool true) ['r', 'u', 'e'] s
      else if c = 'f' then readLiteral (.bool false) ['a', 'l', 's', 'e'] s
      else if c = '-' || c.isDigit then readNumber (c :: s)
      else .stop .malformed

/-- Reads list items up to the closing bracket. Only before the first may the list be closed. -/
def readItems : (fuel depth : Nat) → (first : Bool) → List Char → List Value × Option (List Char)
  | 0, _, _, _ => ([.broken (.same .truncated)], none)
  | fuel + 1, depth, first, s =>
    match skipSpace s with
    | [] => ([.broken (.same .truncated)], none)
    | c :: s =>
      if c = ']' then
        if first then ([], some s) else ([.broken (.same .malformed)], none)
      else
        match readValue fuel depth (c :: s) with
        | (v, none) => ([v], none)
        | (v, some s) =>
          match skipSpace s with
          | [] => ([v, .broken .ended], none)
          | c :: s =>
            if c = ',' then
              let (vs, rest) := readItems fuel depth false s
              (v :: vs, rest)
            else if c = ']' then ([v], some s)
            else ([v, .broken (.same .malformed)], none)

/--
Reads object members up to the closing brace. A member whose name cannot be read has the name "",
and stands for all that follow.
-/
def readMembers : (fuel depth : Nat) → (first : Bool) → List Char →
    List (String × Value) × Option (List Char)
  | 0, _, _, _ => ([("", .broken (.same .truncated))], none)
  | fuel + 1, depth, first, s =>
    match skipSpace s with
    | [] => ([("", .broken (Break.same .truncated).inName)], none)
    | c :: s =>
      if c = '}' then
        if first then ([], some s) else ([("", .broken (.same .malformed))], none)
      else if c = '"' then
        match readString [] none s with
        | .read name s =>
          let (v, ms, rest) := readMember fuel depth s
          ((name, v) :: ms, rest)
        | .unreadable f s =>
          let (v, ms, rest) := readMember fuel depth s
          let pass := Value.passFaultMembers? (("", v) :: ms)
          ([("", .broken { Break.same f with pass, atName := true })], rest)
        | .stopped b => ([("", .broken b.inName)], none)
      else ([("", .broken (Break.same .malformed).inName)], none)

/-- Reads the colon and the value of a member, and the members that follow. -/
def readMember : (fuel depth : Nat) → List Char → Value × List (String × Value) × Option (List Char)
  | 0, _, _ => (.broken (.same .truncated), [], none)
  | fuel + 1, depth, s =>
    match skipSpace s with
    | [] => (.broken (.same .truncated), [], none)
    | c :: s =>
      if c = ':' then
        match readValue fuel depth s with
        | (v, none) => (v, [], none)
        | (v, some s) =>
          match skipSpace s with
          | [] => (v, [("", .broken .ended)], none)
          | c :: s =>
            if c = ',' then
              let (ms, rest) := readMembers fuel depth false s
              (v, ms, rest)
            else if c = '}' then (v, [], some s)
            else (v, [("", .broken (.same .malformed))], none)
      else (.broken (.same .malformed), [], none)
end

/-- A whole text: the value at its front and the text that follows. -/
def readText (s : List Char) : Reading := readValue (2 * s.length + 2) 0 s

end Transcript.Json
