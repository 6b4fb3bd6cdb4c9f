/-!
# Numbers of JSON

A `Number` is a number as it is written, as far as a machine word holds its digits. Whether it is
finite is judged by one multiplication of 64-bit floating-point values, the digits times a power of
ten, each rounded on its own.
-/

namespace Transcript.Json

/-- The counts that fit a machine word. -/
def wordLimit : Nat := 0x10000000000000000

/-- A number: its leading digits, times a power of ten, with a sign. -/
structure Number where
  /-- Whether a minus sign stands in front. -/
  negative : Bool := false
  /-- The leading digits, as many as fit a machine word, read as one natural number. -/
  coefficient : Nat
  /-- The power of ten that the coefficient is scaled by. -/
  exponent : Int := 0
  /-- Whether digits alone make up the number, all of them leading ones, so that it may be a
  count. -/
  integral : Bool := true
deriving DecidableEq, Repr

/-- How many binary digits a floating-point value holds. -/
def precision : Nat := 53

/-- The nearest number that a floating-point value holds. A half goes to the even neighbour. -/
def roundBinary (n : Nat) : Nat :=
  let unit := Nat.pow 2 (n.log2 + 1 - precision)
  let units := n / unit
  let rest := 2 * (n % unit)
  if rest < unit || (rest == unit && units % 2 == 0) then units * unit else (units + 1) * unit

/-- The least number that is no finite floating-point value once it is rounded. -/
def finiteLimit : Nat := Nat.pow 2 1024 - Nat.pow 2 970

namespace Number

/-- The largest power of ten that is a finite floating-point value. -/
def exponentLimit : Nat := 308

/-- Whether the number is a finite floating-point value. A power below one makes it no larger. -/
def isFinite (n : Number) : Bool :=
  n.coefficient == 0 || n.exponent < 0 ||
    (n.exponent ≤ exponentLimit &&
      roundBinary n.coefficient * roundBinary (Nat.pow 10 n.exponent.toNat) < finiteLimit)

/-- The count that a number stands for, when it is written as one and fits a machine word. -/
def toCount? (n : Number) : Option Nat :=
  if n.integral && !n.negative && n.coefficient < wordLimit then some n.coefficient else none

end Number

end Transcript.Json
