import Mathlib.Data.List.Basic
import Transcript.Json.Printer
import Transcript.Json.Reader

/-!
# Reading digits

The decimal digits of a number are read back as the number (`of_digits_digits`), with what follows
them left for others (`take_while_digits`), and they do not start with a zero if there are more than
one of them. A number that fits a machine word is a JSON number that is read back in full
(`read_number_digits`).
-/

namespace Transcript.Json

/-- No digit follows. -/
def NoDigit (rest : List Char) : Prop := ∀ c ∈ rest.head?, c.isDigit = false

/-- The empty text does not begin with a digit. -/
theorem no_digit_nil : NoDigit [] := fun _ h => nomatch h

/-- A text that begins with another character does not begin with a digit. -/
theorem no_digit_cons {c : Char} (hc : c.isDigit = false) (rest : List Char) :
    NoDigit (c :: rest) :=
  fun _ h => Option.some.inj h ▸ hc

/-! ## Digits and numbers -/

/-- The number that digits stand for is the one of the library. -/
theorem of_digits_eq (ds : List Char) : ofDigits ds = Nat.ofDigitChars 10 ds 0 := rfl

/-- The digits of a number are read back. -/
@[simp] theorem of_digits_digits (n : Nat) : ofDigits (Nat.toDigits 10 n) = n :=
  Nat.ofDigitChars_toDigits (by decide) (by decide)

/-- Zeros in front count for nothing. -/
@[simp] theorem of_digits_zeros (k : Nat) (ds : List Char) :
    ofDigits (List.replicate k '0' ++ ds) = ofDigits ds := by
  rw [of_digits_eq, Nat.ofDigitChars_append, Nat.ofDigitChars_replicate_zero, Nat.mul_zero,
    of_digits_eq]

/-- A number is written with digits alone. -/
theorem is_digit_of_mem {n : Nat} {c : Char} (h : c ∈ Nat.toDigits 10 n) : c.isDigit = true :=
  Nat.isDigit_of_mem_toDigits (by decide) (by decide) h

/-- Only the digit of zero is a zero. -/
theorem digit_char_ne_zero : ∀ d, d < 10 → 0 < d → Nat.digitChar d ≠ '0' := by decide

/-- The digits of a number start with those of its tenth. -/
theorem head_digits_div {n : Nat} (h : 10 ≤ n) :
    (Nat.toDigits 10 n).head? = (Nat.toDigits 10 (n / 10)).head? := by
  rw [Nat.toDigits_of_base_le (by decide) h, List.head?_append_of_ne_nil _ Nat.toDigits_ne_nil]

/-- Only the number zero starts with a zero. -/
theorem head_digits_ne_zero {n : Nat} (hpos : 0 < n) : (Nat.toDigits 10 n).head? ≠ some '0' := by
  induction n using Nat.strongRecOn with
  | ind n ih =>
      by_cases hsmall : n < 10
      · rw [Nat.toDigits_of_lt_base hsmall, List.head?_cons]
        exact fun h => digit_char_ne_zero n hsmall hpos (Option.some.inj h)
      · rw [head_digits_div (by omega)]
        exact ih (n / 10) (by omega) (by omega)

/-! ## Runs of digits -/

/-- A run of digits is taken in full, and nothing of what follows. -/
theorem take_while_digits {ds rest : List Char} (hds : ∀ c ∈ ds, c.isDigit = true)
    (hrest : NoDigit rest) : (ds ++ rest).takeWhile Char.isDigit = ds := by
  rw [List.takeWhile_append_of_pos hds]
  cases rest with
  | nil => rw [List.takeWhile_nil, List.append_nil]
  | cons c rest =>
      have hc : ¬ c.isDigit = true := Bool.eq_false_iff.1 (hrest c rfl)
      rw [List.takeWhile_cons_of_neg hc, List.append_nil]

/-- What follows a run of digits is what is left when they are dropped. -/
theorem drop_while_digits {ds rest : List Char} (hds : ∀ c ∈ ds, c.isDigit = true)
    (hrest : NoDigit rest) : (ds ++ rest).dropWhile Char.isDigit = rest := by
  rw [List.dropWhile_append_of_pos hds]
  cases rest with
  | nil => rfl
  | cons c rest => exact List.dropWhile_cons_of_neg (Bool.eq_false_iff.1 (hrest c rfl))

/-- The number that digits stand for grows with each of them. -/
theorem le_push_digits (n : Nat) (ds : List Char) : n ≤ ds.foldl pushDigit n := by
  induction ds generalizing n with
  | nil => exact Nat.le_refl n
  | cons d ds ih =>
      calc
        n ≤ pushDigit n d := by
          unfold pushDigit
          omega
        _ ≤ ds.foldl pushDigit (pushDigit n d) := ih _

/-- All the digits are put behind a number if what comes of it fits a machine word. -/
theorem push_digits_eq {n : Nat} {ds : List Char} (h : ds.foldl pushDigit n < wordLimit) :
    pushDigits n ds = (ds.foldl pushDigit n, []) := by
  induction ds generalizing n with
  | nil => rfl
  | cons d ds ih =>
      have hfits : pushDigit n d < wordLimit := Nat.lt_of_le_of_lt (le_push_digits _ ds) h
      rw [pushDigits, if_pos hfits]
      exact ih h

/-! ## Numbers -/

/-- What may follow a number without being taken for a part of it. -/
def EndsNumber (rest : List Char) : Prop :=
  ∀ c ∈ rest.head?, c.isDigit = false ∧ c ≠ '.' ∧ c ≠ 'e' ∧ c ≠ 'E'

/-- What ends a number is no digit. -/
theorem EndsNumber.no_digit {rest : List Char} (h : EndsNumber rest) : NoDigit rest :=
  fun c hc => (h c hc).1

/-- What ends a number does not start a fraction. -/
theorem EndsNumber.read_fraction {rest : List Char} (h : EndsNumber rest) :
    readFraction rest = .ok ([], rest) := by
  unfold readFraction
  split
  · exact absurd rfl (h _ rfl).2.1
  · rfl

/-- What ends a number does not start an exponent. -/
theorem EndsNumber.read_exponent {rest : List Char} (h : EndsNumber rest) :
    readExponent rest = .ok (none, rest) := by
  unfold readExponent
  split
  · exact absurd rfl (h _ rfl).2.2.1
  · exact absurd rfl (h _ rfl).2.2.2
  · rfl

/-- The digits of a number are read as the digits in front of the point. -/
theorem read_whole_digits (n : Nat) {rest : List Char} (hrest : NoDigit rest) :
    readWhole (digits n ++ rest) = .ok (digits n, rest) := by
  have hdigits : ∀ c ∈ digits n, c.isDigit = true := fun _ => is_digit_of_mem
  have hread : readDigits (digits n ++ rest) = .ok (digits n, rest) := by
    unfold readDigits
    rw [take_while_digits hdigits hrest, drop_while_digits hdigits hrest]
    split
    · exact absurd ‹_› Nat.toDigits_ne_nil
    · exact absurd ‹_› Nat.toDigits_ne_nil
    · rfl
  -- A zero in front of other digits would be refused.
  have hzero : ¬ (decide ((digits n).head? = some '0') && decide ((digits n).length ≠ 1)) =
      true := by
    intro h
    simp only [Bool.and_eq_true, decide_eq_true_eq] at h
    rcases Nat.eq_zero_or_pos n with rfl | hpos
    · exact h.2 rfl
    · exact head_digits_ne_zero hpos h.1
  simp only [readWhole, hread, bind, Except.bind]
  rw [if_neg hzero]
  rfl

/-- A number that fits a machine word is read back. -/
theorem read_number_digits {n : Nat} (hn : n < wordLimit) {rest : List Char}
    (hrest : EndsNumber rest) : readNumber (digits n ++ rest) = (.count n, some rest) := by
  have hunsigned : readUnsigned false (digits n ++ rest) = .ok ({ coefficient := n }, rest) := by
    have hpush : pushDigits 0 (digits n) = (n, []) := by
      have hvalue : (digits n).foldl pushDigit 0 = n := of_digits_digits n
      rw [push_digits_eq (hvalue.symm ▸ hn), hvalue]
    have hnumber : numberOf false (digits n) [] none = { coefficient := n } := by
      simp [numberOf, hpush, pushDigits]
    simp only [readUnsigned, read_whole_digits n hrest.no_digit, hrest.read_fraction,
      hrest.read_exponent, bind, Except.bind, pure, Except.pure, hnumber]
  -- The number is not taken for a negative one.
  have hsign (s : List Char) : digits n ++ rest ≠ '-' :: s := by
    intro h
    have hhead : (digits n ++ rest).head? = (digits n).head? :=
      List.head?_append_of_ne_nil _ Nat.toDigits_ne_nil
    rw [h] at hhead
    have hdigit : Char.isDigit '-' = true := is_digit_of_mem (List.mem_of_mem_head? hhead.symm)
    cases hdigit
  unfold readNumber
  split
  · exact absurd ‹_› (hsign _)
  · rw [hunsigned]
    rfl

end Transcript.Json
