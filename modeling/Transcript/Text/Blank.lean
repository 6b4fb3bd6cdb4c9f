/-!
# Blank characters

The characters that carry no text of their own, which are those with the Unicode property
`White_Space`, and the removal of them at both ends of a text.
-/

namespace Transcript.Text

/-- The ranges of characters with the property `White_Space`, ends included. -/
def blankRanges : List (Nat × Nat) :=
  [(0x09, 0x0D), (0x20, 0x20), (0x85, 0x85), (0xA0, 0xA0), (0x1680, 0x1680), (0x2000, 0x200A),
    (0x2028, 0x2029), (0x202F, 0x202F), (0x205F, 0x205F), (0x3000, 0x3000)]

/-- A character without text of its own. -/
def isBlank (c : Char) : Bool :=
  blankRanges.any fun (first, last) => first ≤ c.toNat && c.toNat ≤ last

/-- The text without the blanks at its front. -/
def trimFront (s : List Char) : List Char := s.dropWhile isBlank

/-- The text without the blanks at its two ends. -/
def trimList (s : List Char) : List Char := (trimFront (trimFront s).reverse).reverse

/-- The text without the blanks at its two ends. -/
def trim (s : String) : String := String.ofList (trimList s.toList)

/-- The text without the blanks at its end. -/
def trimBack (s : List Char) : List Char := (trimFront s.reverse).reverse

end Transcript.Text
