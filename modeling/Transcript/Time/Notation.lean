import Transcript.Json.Decode
import Transcript.Text.Blank
import Transcript.Time.Calendar
import Transcript.Time.Timestamp

/-!
# Timestamps as text

A timestamp is written as date and time in universal time, such as `2024-01-31T08:30:00.250Z`, with
0, 3, 6 or 9 digits behind the point, the fewest that are exact. The reader is more liberal: it
takes other offsets from universal time, blanks in front of each number and mark, and numbers with
fewer digits.
-/

namespace Transcript

namespace Timestamp

/-! ## Writing -/

/-- The written form of a year: four digits, or a sign and at least four. -/
def printYear (year : Int) : List Char :=
  if 0 ≤ year ∧ year ≤ 9999 then Span.padded 4 year.toNat
  else (if year < 0 then '-' else '+') :: Span.padded 4 year.natAbs

/-- The point and the digits behind it. -/
def printFraction (nanos : Nat) : List Char :=
  if nanos = 0 then []
  else if nanos % 1000000 = 0 then '.' :: Span.padded 3 (nanos / 1000000)
  else if nanos % 1000 = 0 then '.' :: Span.padded 6 (nanos / 1000)
  else '.' :: Span.padded 9 nanos

/-- The written form of a timestamp. The leap second of a minute is its second 60. -/
def print (t : Timestamp) : String :=
  let date := Date.ofDays (t.seconds / secondsPerDay)
  let time := t.timeOfDay
  let second := time % 60 + if t.isLeap then 1 else 0
  let nanos := if t.isLeap then t.nanos - nanosPerSecond else t.nanos
  String.ofList <|
    printYear date.year ++ '-' :: Span.padded 2 date.month ++ '-' :: Span.padded 2 date.day ++
    'T' :: Span.padded 2 (time / 3600) ++ ':' :: Span.padded 2 (time / 60 % 60) ++
    ':' :: Span.padded 2 second ++ printFraction nanos ++ ['Z']

/-! ## Reading

Each reader gives what it has read and the text behind it. -/

/-- Reads a number with at least one digit and at most `width`. -/
def readNumber (width : Nat) (s : List Char) : Option (Nat × List Char) :=
  let ds := (s.take width).takeWhile Char.isDigit
  if ds.isEmpty then none else some (Json.ofDigits ds, s.drop ds.length)

/-- Reads a number that may have blanks in front. -/
def readField (width : Nat) (s : List Char) : Option (Nat × List Char) :=
  readNumber width (Text.trimFront s)

/-- Reads a year: up to four digits, or any number of them behind a sign. -/
def readYear (s : List Char) : Option (Int × List Char) :=
  match Text.trimFront s with
  | '-' :: s => (readNumber s.length s).map fun (n, s) => (-(n : Int), s)
  | '+' :: s => (readNumber s.length s).map fun (n, s) => ((n : Int), s)
  | s => (readNumber 4 s).map fun (n, s) => ((n : Int), s)

/-- Reads a mark that may have blanks in front. -/
def readMark (mark : Char) (s : List Char) : Option (List Char) :=
  match Text.trimFront s with
  | c :: s => if c = mark then some s else none
  | [] => none

/-- The nanoseconds that the digits behind a point stand for. Digits beyond the ninth do not
count. -/
def nanosOfDigits (ds : List Char) : Nat :=
  let ds := ds.take 9
  Json.ofDigits (ds ++ List.replicate (9 - ds.length) '0')

/-- Reads the point and the digits behind it, if there is a point. -/
def readFraction : List Char → Option (Nat × List Char)
  | '.' :: s =>
    let ds := s.takeWhile Char.isDigit
    if ds.isEmpty then none else some (nanosOfDigits ds, s.dropWhile Char.isDigit)
  | s => some (0, s)

/-- Reads exactly two digits, the first no greater than `high`. -/
def readPair (high : Char) : List Char → Option (Nat × List Char)
  | a :: b :: s =>
    if a.isDigit && b.isDigit && a ≤ high then some (Json.ofDigits [a, b], s) else none
  | _ => none

/-- Reads hours and minutes, in minutes. Colons and blanks may stand between them. -/
def readHours (s : List Char) : Option (Nat × List Char) := do
  let (hours, s) ← readPair '9' s
  let (minutes, s) ← readPair '5' (s.dropWhile fun c => c == ':' || Text.isBlank c)
  return (60 * hours + minutes, s)

/-- The letters that name universal time. -/
def isUniversal (s : List Char) : Bool := (s.take 3).map Char.toLower == ['u', 't', 'c']

/-- Reads the offset from universal time, in minutes. -/
def readOffset (s : List Char) : Option (Int × List Char) :=
  if isUniversal s then some (0, s.drop 3)
  else
    match s with
    | 'Z' :: s | 'z' :: s => some (0, s)
    | '+' :: s => (readHours s).map fun (n, s) => ((n : Int), s)
    | '-' :: s | '−' :: s => (readHours s).map fun (n, s) => (-(n : Int), s)
    | _ => none

/-- Reads a date. -/
def readDate (s : List Char) : Option (Date × List Char) := do
  let (year, s) ← readYear s
  let s ← readMark '-' s
  let (month, s) ← readField 2 s
  let s ← readMark '-' s
  let (day, s) ← readField 2 s
  return (⟨year, month, day⟩, s)

/-- Reads the letter or the space between a date and a time. -/
def readSeparator : List Char → Option (List Char)
  | 't' :: s | 'T' :: s | ' ' :: s => some s
  | _ => none

/-- A time of the day. -/
structure Clock where
  /-- The hour. -/
  hour : Nat
  /-- The minute of the hour. -/
  minute : Nat
  /-- The second of the minute, which is 60 in a leap second. -/
  second : Nat
  /-- The nanosecond of the second. -/
  nanos : Nat

/-- Whether there is such a time. -/
def Clock.isValid (c : Clock) : Bool := c.hour ≤ 23 && c.minute ≤ 59 && c.second ≤ 60

/-- Reads a time of the day. -/
def readClock (s : List Char) : Option (Clock × List Char) := do
  let (hour, s) ← readField 2 s
  let s ← readMark ':' s
  let (minute, s) ← readField 2 s
  let s ← readMark ':' s
  let (second, s) ← readField 2 s
  let (nanos, s) ← readFraction s
  return (⟨hour, minute, second, nanos⟩, s)

/-- The years that a date may lie in. -/
def isInRange (year : Int) : Bool := -262143 ≤ year && year ≤ 262142

/-- The timestamp of a date and time that are so many minutes ahead of universal time. -/
def ofLocal (date : Date) (clock : Clock) (offset : Int) : Timestamp where
  seconds :=
    (date.toDays * secondsPerDay +
      (3600 * clock.hour + 60 * clock.minute + min clock.second 59 : Nat)) - 60 * offset
  nanos := clock.nanos + if clock.second = 60 then nanosPerSecond else 0

/-- The timestamp that a text stands for. -/
def read (text : String) : Option Timestamp := do
  let (date, s) ← readDate text.toList
  let s ← readSeparator s
  let (clock, s) ← readClock s
  let (offset, s) ← readOffset (Text.trimFront s)
  guard (Text.trimFront s).isEmpty
  guard (isInRange date.year && date.isValid && clock.isValid && offset.natAbs < 24 * 60)
  let t := ofLocal date clock offset
  guard (isInRange (Date.ofDays (t.seconds / secondsPerDay)).year)
  return t

/-- The JSON form of a timestamp. -/
def encode (t : Timestamp) : Json.Value := .string t.print

/-- Reads a timestamp. -/
def decode : Json.Decoder Timestamp
  | .string s =>
    match read s with
    | some t => .ok t
    | none => .error .mismatched
  | v => .error v.unexpected

end Timestamp

end Transcript
