/-!
# Spans of time

A `Span` is a length of time in whole nanoseconds, and `Span.text` is its short form: the largest
unit of `s`, `ms`, `µs` and `ns` that it fills, with as many decimals as it takes to be exact.
-/

namespace Transcript

/-- A length of time. -/
structure Span where
  /-- The number of nanoseconds. -/
  nanoseconds : Nat := 0
deriving DecidableEq, Repr

namespace Span

/-- Two spans, one after the other. -/
instance : Add Span := ⟨fun s t => ⟨s.nanoseconds + t.nanoseconds⟩⟩

/-- The span of so many seconds. -/
def ofSeconds (n : Nat) : Span := ⟨1000000000 * n⟩

/-- The span of so many milliseconds. -/
def ofMilliseconds (n : Nat) : Span := ⟨1000000 * n⟩

/-- The whole seconds of a span. -/
def seconds (s : Span) : Nat := s.nanoseconds / 1000000000

/-- The whole milliseconds of a span. -/
def milliseconds (s : Span) : Nat := s.nanoseconds / 1000000

/-- What is left of a span beside its whole seconds, in nanoseconds. -/
def remainder (s : Span) : Nat := s.nanoseconds % 1000000000

/-- The number with `width` digits, led by zeros. -/
def padded (width n : Nat) : List Char :=
  let ds := Nat.toDigits 10 n
  List.replicate (width - ds.length) '0' ++ ds

/-- The digits without the zeros at their end. -/
def withoutZeros (ds : List Char) : List Char := (ds.reverse.dropWhile (· == '0')).reverse

/-- The number of units that a span holds, in full. A unit is a power of ten, with so many zeros. -/
def inUnits (s : Span) (zeros : Nat) : List Char :=
  let unit := Nat.pow 10 zeros
  let fraction := withoutZeros (padded zeros (s.nanoseconds % unit))
  Nat.toDigits 10 (s.nanoseconds / unit) ++ if fraction.isEmpty then [] else '.' :: fraction

/-- The short form of a span. -/
def text (s : Span) : String :=
  if 1000000000 ≤ s.nanoseconds then String.ofList (s.inUnits 9) ++ "s"
  else if 1000000 ≤ s.nanoseconds then String.ofList (s.inUnits 6) ++ "ms"
  else if 1000 ≤ s.nanoseconds then String.ofList (s.inUnits 3) ++ "µs"
  else String.ofList (s.inUnits 0) ++ "ns"

end Span

end Transcript
