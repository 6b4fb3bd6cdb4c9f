/-!
# Branches

A conversation has branches, which have branches in turn. A branch is named by its way from the
root, segments with a slash between them, and a filter by the branch that it lets through. A filter
lets the branches below through as well, and the empty filter every one.
-/

namespace Transcript

namespace Branch

/-- Whether a text is empty or starts with a slash. -/
def endsSegment : List Char → Bool
  | [] => true
  | c :: _ => c == '/'

/-- Whether what is left of the branch behind the filter starts a new segment. -/
def continues (branch filter : List Char) : Bool :=
  match filter.isPrefixOf? branch with
  | some rest => endsSegment rest
  | none => false

/-- Whether the filter lets the branch through. -/
def isWithin (branch filter : String) : Bool :=
  filter.isEmpty || continues branch.toList filter.toList

end Branch

end Transcript
