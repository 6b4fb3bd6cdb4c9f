import Transcript.Json.Value

/-!
# Writing JSON text

`Value.print` writes a value in a `Layout`: `Layout.compact` puts no space anywhere, and
`Layout.pretty` puts every item and member on a line of its own, indented by two spaces a level.
Characters beyond ASCII are written as they are.
-/

namespace Transcript.Json

/-- The hexadecimal digit, in lower case, of a number below sixteen. -/
def hexLetter (n : Nat) : Char :=
  if n < 10 then Char.ofNat ('0'.toNat + n) else Char.ofNat ('a'.toNat + (n - 10))

/-- The written form of a character inside a string. -/
def escape (c : Char) : List Char :=
  if c = '"' then ['\\', '"']
  else if c = '\\' then ['\\', '\\']
  else if c = '\x08' then ['\\', 'b']
  else if c = '\t' then ['\\', 't']
  else if c = '\n' then ['\\', 'n']
  else if c = '\x0c' then ['\\', 'f']
  else if c = '\r' then ['\\', 'r']
  else if c.toNat < 0x20 then
    ['\\', 'u', '0', '0', hexLetter (c.toNat / 16), hexLetter (c.toNat % 16)]
  else [c]

/-- The written form of a string, with its quotes. -/
def quote (s : String) : List Char := '"' :: s.toList.flatMap escape ++ ['"']

/-- The decimal digits of a natural number. -/
def digits (n : Nat) : List Char := Nat.toDigits 10 n

/-- The written form of a number. -/
def Number.print (n : Number) : List Char :=
  (if n.negative then ['-'] else []) ++ digits n.coefficient ++
    if n.integral then []
    else 'e' :: (if n.exponent < 0 then ['-'] else []) ++ digits n.exponent.natAbs

/-- What stands between the marks of a text. -/
structure Layout where
  /-- The text in front of an item or a closing bracket, by the depth of what follows it. -/
  gap : Nat → List Char
  /-- The text between the name of a member and its value. -/
  colon : List Char

/-- No space at all. -/
def Layout.compact : Layout where
  gap _ := []
  colon := [':']

/-- A line for each item, indented by two spaces a level. -/
def Layout.pretty : Layout where
  gap depth := '\n' :: List.replicate (2 * depth) ' '
  colon := [':', ' ']

namespace Value

mutual
/-- The text of a value that stands at the given depth. A broken value has none. -/
def print (l : Layout) (depth : Nat) : Value → List Char
  | .null => ['n', 'u', 'l', 'l']
  | .bool true => ['t', 'r', 'u', 'e']
  | .bool false => ['f', 'a', 'l', 's', 'e']
  | .number n => n.print
  | .string s => quote s
  | .array [] => ['[', ']']
  | .array (v :: vs) =>
    '[' :: l.gap (depth + 1) ++ v.print l (depth + 1) ++ printItems l (depth + 1) vs ++
      l.gap depth ++ [']']
  | .object [] => ['{', '}']
  | .object ((name, v) :: ms) =>
    '{' :: l.gap (depth + 1) ++ quote name ++ l.colon ++ v.print l (depth + 1) ++
      printMembers l (depth + 1) ms ++ l.gap depth ++ ['}']
  | .broken _ => []

/-- The text of the items after the first. -/
def printItems (l : Layout) (depth : Nat) : List Value → List Char
  | [] => []
  | v :: vs => ',' :: l.gap depth ++ v.print l depth ++ printItems l depth vs

/-- The text of the members after the first. -/
def printMembers (l : Layout) (depth : Nat) : List (String × Value) → List Char
  | [] => []
  | (name, v) :: ms =>
    ',' :: l.gap depth ++ quote name ++ l.colon ++ v.print l depth ++ printMembers l depth ms
end

/-- The value on one line, without spaces. -/
def compact (v : Value) : String := String.ofList (v.print .compact 0)

/-- The value with a line for each item. -/
def pretty (v : Value) : String := String.ofList (v.print .pretty 0)

end Value

end Transcript.Json
