/-!
# Percent-encoded names

`encode` writes any text with letters, digits, `-`, `_` and `%` alone, so that it can name a file:
every other byte of its UTF-8 form becomes `%` and two hexadecimal digits. The empty text, which
could name nothing, becomes a lone `%`. `decode` gives the bytes back.
-/

namespace Transcript.Text.Percent

/-- The bytes that stand for themselves. -/
def isPlain (b : UInt8) : Bool :=
  (0x30 ≤ b && b ≤ 0x39) || (0x41 ≤ b && b ≤ 0x5A) || (0x61 ≤ b && b ≤ 0x7A) ||
    b == 0x2D || b == 0x5F

/-- The hexadecimal digit, in upper case, of a number below sixteen. -/
def digit (n : Nat) : Char :=
  if n < 10 then Char.ofNat ('0'.toNat + n) else Char.ofNat ('A'.toNat + (n - 10))

/-- The written form of a byte. -/
def encodeByte (b : UInt8) : List Char :=
  if isPlain b then [Char.ofNat b.toNat] else ['%', digit (b.toNat / 16), digit (b.toNat % 16)]

/-- The written form of a row of bytes. -/
def encodeBytes : List UInt8 → List Char
  | [] => ['%']
  | bs => bs.flatMap encodeByte

/-- The written form of a text. -/
def encode (s : String) : String := String.ofList (encodeBytes s.toUTF8.data.toList)

/-- The value of a hexadecimal digit in upper case. -/
def value? (c : Char) : Option Nat :=
  if '0' ≤ c && c ≤ '9' then some (c.toNat - '0'.toNat)
  else if 'A' ≤ c && c ≤ 'F' then some (c.toNat - 'A'.toNat + 10)
  else none

/-- The bytes of a row of written bytes. -/
def decodeBytes : List Char → Option (List UInt8)
  | [] => some []
  | '%' :: high :: low :: s => do
    let high ← value? high
    let low ← value? low
    let bs ← decodeBytes s
    return UInt8.ofNat (16 * high + low) :: bs
  | c :: s => do
    let bs ← decodeBytes s
    if c.toNat < 0x80 && isPlain (UInt8.ofNat c.toNat) then return UInt8.ofNat c.toNat :: bs
    else none

/-- The bytes that a written form stands for, if it is one. -/
def decode (s : String) : Option (List UInt8) :=
  if s.toList = ['%'] then some [] else decodeBytes s.toList

end Transcript.Text.Percent
