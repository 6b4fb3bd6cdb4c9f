/-!
# Patterns in a text

A pattern is a text that is looked for, letter by letter, from the front of another text.
Occurrences do not overlap: the search goes on behind the last one found.
-/

namespace Transcript.Text

/--
The pieces of a text between the occurrences of a pattern. The first `skip` characters belong to
an occurrence that has been found already.
-/
def piecesFrom (pattern : List Char) : (skip : Nat) → List Char → List (List Char)
  | _, [] => [[]]
  | 0, c :: s =>
    if pattern.isPrefixOf (c :: s) then [] :: piecesFrom pattern (pattern.length - 1) s
    else
      match piecesFrom pattern 0 s with
      | piece :: more => (c :: piece) :: more
      | [] => [[c]]
  | skip + 1, _ :: s => piecesFrom pattern skip s

/-- The pieces of a text between the occurrences of a pattern. There is always one. -/
def pieces (pattern s : List Char) : List (List Char) := piecesFrom pattern 0 s

/-- Whether a pattern occurs in a text. -/
def mentions (pattern : List Char) : List Char → Bool
  | [] => pattern.isEmpty
  | c :: s => pattern.isPrefixOf (c :: s) || mentions pattern s

/-- The text with another one in the place of every occurrence of the pattern. -/
def substitute (pattern new s : List Char) : List Char := new.intercalate (pieces pattern s)

/-- The lines of a text, each with the line break that ends it. -/
def lines : List Char → List (List Char)
  | [] => []
  | c :: s =>
    if c = '\n' then [c] :: lines s
    else
      match lines s with
      | line :: more => (c :: line) :: more
      | [] => [[c]]

end Transcript.Text
