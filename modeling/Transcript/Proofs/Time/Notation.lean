import Mathlib.Algebra.Group.Nat.Defs
import Mathlib.Data.Option.Basic
import Transcript.Proofs.Json.Digits
import Transcript.Proofs.Time.Calendar
import Transcript.Time.Notation

/-!
# Reading back timestamps

A point in time that `IsCivil` is read back from its text (`Timestamp.read_print`). The text is a
row of numbers with marks between them. A number of a fixed width is read back whatever follows it
(`Timestamp.read_field_padded`), but the digits of a long year and those of a fraction end only
where something else follows. The date and the time of the day that are read make up the point in
time (`Timestamp.of_local_clock`).
-/

namespace Transcript

open Json

/-! ## Numbers of a fixed width -/

namespace Span

variable {width n : Nat}

/-- A padded number is written with digits alone. -/
theorem is_digit_of_mem_padded {c : Char} (h : c ∈ padded width n) : c.isDigit = true := by
  rcases List.mem_append.1 h with hzero | hdigit
  · rw [(List.mem_replicate.1 hzero).2]
    rfl
  · exact is_digit_of_mem hdigit

/-- A padded number has a digit at least. -/
theorem padded_ne_nil (width n : Nat) : padded width n ≠ [] :=
  List.append_ne_nil_of_right_ne_nil _ Nat.toDigits_ne_nil

/-- It starts with a digit. -/
theorem padded_cons (width n : Nat) : ∃ c cs, padded width n = c :: cs ∧ c.isDigit = true := by
  obtain ⟨c, cs, hcons⟩ := List.exists_cons_of_ne_nil (padded_ne_nil width n)
  exact ⟨c, cs, hcons, is_digit_of_mem_padded (hcons ▸ List.mem_cons_self)⟩

/-- A number with zeros in front is read back. -/
theorem of_digits_padded (width n : Nat) : ofDigits (padded width n) = n := by
  rw [padded, of_digits_zeros, of_digits_digits]

/-- A number that is not too large has just the digits it is given. -/
theorem length_padded (hwidth : 0 < width) (hn : n < 10 ^ width) :
    (padded width n).length = width := by
  have hle : (Nat.toDigits 10 n).length ≤ width :=
    (Nat.length_toDigits_le_iff (by decide) hwidth).2 hn
  rw [padded, List.length_append, List.length_replicate]
  omega

end Span

namespace Timestamp

open Transcript.Span (padded)

/-! ## Parts of a timestamp -/

/-- Nothing is trimmed in front of a letter that is not blank. -/
theorem trim_front_cons {c : Char} (h : Text.isBlank c = false) (s : List Char) :
    Text.trimFront (c :: s) = c :: s :=
  List.dropWhile_cons_of_neg (Bool.eq_false_iff.1 h)

/-- A digit is not blank. -/
theorem is_blank_of_digit {c : Char} (h : c.isDigit = true) : Text.isBlank c = false := by
  have hrange : 48 ≤ c.toNat ∧ c.toNat ≤ 57 := by
    simpa [Char.isDigit, UInt32.le_iff_toNat_le] using h
  simp only [Text.isBlank, Text.blankRanges, List.any_cons, List.any_nil, Bool.or_false,
    Bool.or_eq_false_iff, Bool.and_eq_false_iff, decide_eq_false_iff_not]
  omega

/-- A text that starts with a padded number has no blanks in front. -/
theorem trim_front_padded (width n : Nat) (s : List Char) :
    Text.trimFront (padded width n ++ s) = padded width n ++ s := by
  obtain ⟨c, cs, hcons, hdigit⟩ := Span.padded_cons width n
  rw [hcons, List.cons_append, trim_front_cons (is_blank_of_digit hdigit)]

/-- It does not start with a mark either. -/
theorem padded_append_ne {d : Char} (hd : d.isDigit = false) (width n : Nat) (s s' : List Char) :
    padded width n ++ s ≠ d :: s' := by
  obtain ⟨c, cs, hcons, hdigit⟩ := Span.padded_cons width n
  rw [hcons, List.cons_append]
  intro h
  rw [(List.cons.inj h).1, hd] at hdigit
  cases hdigit

/-- A padded number is read back as long as no further digits are taken with it. -/
theorem read_number_padded {width limit n : Nat} {s : List Char}
    (htake : ((padded width n ++ s).take limit).takeWhile Char.isDigit = padded width n) :
    readNumber limit (padded width n ++ s) = some (n, s) := by
  have hne : (padded width n).isEmpty = false := by
    simpa using Span.padded_ne_nil width n
  simp [readNumber, htake, hne, Span.of_digits_padded]

/-- A field of a fixed width is read back. -/
theorem read_field_padded {width n : Nat} (hwidth : 0 < width) (hn : n < 10 ^ width)
    (s : List Char) : readField width (padded width n ++ s) = some (n, s) := by
  have hlength := Span.length_padded hwidth hn
  rw [readField, trim_front_padded]
  refine read_number_padded ?_
  have hdigits : ∀ c ∈ padded width n, c.isDigit = true := fun _ => Span.is_digit_of_mem_padded
  have hall := take_while_digits hdigits no_digit_nil
  rw [List.take_left' hlength]
  rwa [List.append_nil] at hall

/-- Two digits are read back, in front of any rest. -/
theorem read_two_digits {n : Nat} (hn : n < 100) (s : List Char) :
    readField 2 (padded 2 n ++ s) = some (n, s) :=
  read_field_padded (by decide) hn s

/-- So is a number of any length with something else behind it. -/
theorem read_number_all (width n : Nat) {s : List Char} (hs : NoDigit s) :
    readNumber (padded width n ++ s).length (padded width n ++ s) = some (n, s) := by
  refine read_number_padded ?_
  rw [List.take_length]
  exact take_while_digits (fun _ => Span.is_digit_of_mem_padded) hs

/-- A mark is read where it stands. -/
theorem read_mark_cons {mark : Char} (h : Text.isBlank mark = false) (s : List Char) :
    readMark mark (mark :: s) = some s := by
  rw [readMark, trim_front_cons h]
  exact if_pos rfl

/-- A year is read back. -/
theorem read_year_print (year : Int) {s : List Char} (hs : NoDigit s) :
    readYear (printYear year ++ s) = some (year, s) := by
  unfold printYear
  -- A year of four digits has no sign, and any other year has one.
  split
  · rename_i hyear
    have hread : readNumber 4 (padded 4 year.toNat ++ s) = some (year.toNat, s) := by
      have hfield : readField 4 (padded 4 year.toNat ++ s) = some (year.toNat, s) :=
        read_field_padded (by decide) (by omega) s
      rwa [readField, trim_front_padded] at hfield
    unfold readYear
    rw [trim_front_padded]
    split
    · exact absurd ‹_› (padded_append_ne rfl _ _ _ _)
    · exact absurd ‹_› (padded_append_ne rfl _ _ _ _)
    · rw [hread, Option.map_some]
      exact congrArg (fun y => some (y, s)) (Int.toNat_of_nonneg hyear.1)
  · split
    · rename_i hneg
      rw [List.cons_append, readYear, trim_front_cons (by decide)]
      simp only [read_number_all _ _ hs, Option.map_some]
      congr
      omega
    · rename_i hnonneg
      rw [List.cons_append, readYear, trim_front_cons (by decide)]
      simp only [read_number_all _ _ hs, Option.map_some]
      congr
      omega

/-! ## The fraction -/

/-- Digits behind the point count the more the fewer they are. -/
theorem nanos_of_padded {width n : Nat} (hwidth : 0 < width) (hle : width ≤ 9)
    (hn : n < 10 ^ width) : nanosOfDigits (padded width n) = 10 ^ (9 - width) * n := by
  have hlength := Span.length_padded hwidth hn
  have htake : (padded width n).take 9 = padded width n :=
    List.take_of_length_le (Nat.le_trans (Nat.le_of_eq hlength) hle)
  have hdigits := Span.of_digits_padded width n
  rw [of_digits_eq] at hdigits
  rw [nanosOfDigits, htake, hlength, of_digits_eq, Nat.ofDigitChars_append, hdigits,
    Nat.ofDigitChars_replicate_zero]

/-- A padded fraction is read as so many nanoseconds. -/
theorem read_fraction_padded {width n : Nat} (hwidth : 0 < width) (hle : width ≤ 9)
    (hn : n < 10 ^ width) {s : List Char} (hs : NoDigit s) :
    readFraction ('.' :: (padded width n ++ s)) = some (10 ^ (9 - width) * n, s) := by
  have hdigits : ∀ c ∈ padded width n, c.isDigit = true := fun _ => Span.is_digit_of_mem_padded
  have hne : (padded width n).isEmpty = false := by
    simpa using Span.padded_ne_nil width n
  rw [readFraction, take_while_digits hdigits hs, drop_while_digits hdigits hs]
  simp [hne, nanos_of_padded hwidth hle hn]

/-- The digits behind the point are read back. -/
theorem read_fraction_print {nanos : Nat} (h : nanos < nanosPerSecond) (s : List Char) :
    readFraction (printFraction nanos ++ 'Z' :: s) = some (nanos, 'Z' :: s) := by
  have hmark : NoDigit ('Z' :: s) := no_digit_cons rfl s
  unfold nanosPerSecond at h
  unfold printFraction
  split
  · subst nanos
    rfl
  -- Three, six or nine digits, as many as are needed.
  split
  · rw [List.cons_append, read_fraction_padded (by decide) (by decide) (by omega) hmark]
    congr 2
    omega
  split
  · rw [List.cons_append, read_fraction_padded (by decide) (by decide) (by omega) hmark]
    congr 2
    omega
  · rw [List.cons_append, read_fraction_padded (by decide) (by decide) (by omega) hmark]
    congr 2
    omega

/-! ## Timestamps -/

/-- The date of a point in time. -/
def date (t : Timestamp) : Date := .ofDays (t.seconds / secondsPerDay)

/-- The point in time can be written: its date lies in one of the years of the calendar, and a leap
second is the last second of its minute. -/
structure IsCivil (t : Timestamp) : Prop where
  year : isInRange t.date.year = true
  nanos : t.nanos < 2 * nanosPerSecond
  leap : t.isLeap = true → t.timeOfDay % 60 = 59

/-- The start of 1970 can be written. -/
theorem is_civil_epoch : IsCivil ⟨0, 0⟩ := ⟨by decide +kernel, by decide, by decide⟩

/-- A date is read back. -/
theorem read_date_print {date : Date} (h : date.isValid = true) (s : List Char) :
    readDate (printYear date.year ++ '-' ::
      (padded 2 date.month ++ '-' :: (padded 2 date.day ++ s))) =
      some (date, s) := by
  obtain ⟨hmonth, hday⟩ := Date.month_day_lt h
  have hblank : Text.isBlank '-' = false := by decide
  have hyear (s : List Char) : readYear (printYear date.year ++ '-' :: s) =
      some (date.year, '-' :: s) :=
    read_year_print date.year (no_digit_cons rfl s)
  simp [readDate, hyear, read_mark_cons hblank, read_two_digits hmonth, read_two_digits hday]

/-- A time of the day is read back. -/
theorem read_clock_print {clock : Clock} (h : clock.isValid = true) {fraction s : List Char}
    (hnanos : readFraction fraction = some (clock.nanos, s)) :
    readClock (padded 2 clock.hour ++ ':' :: (padded 2 clock.minute ++ ':' ::
        (padded 2 clock.second ++ fraction))) = some (clock, s) := by
  have hblank : Text.isBlank ':' = false := by decide
  simp only [Clock.isValid, Bool.and_eq_true, decide_eq_true_eq] at h
  obtain ⟨⟨hhour, hminute⟩, hsecond⟩ := h
  have hhour' : clock.hour < 100 := by omega
  have hminute' : clock.minute < 100 := by omega
  have hsecond' : clock.second < 100 := by omega
  simp [readClock, read_mark_cons hblank, read_two_digits hhour', read_two_digits hminute',
    read_two_digits hsecond', hnanos]

/-- The time of the day of a point in time. The leap second of a minute is its second 60. -/
def clock (t : Timestamp) : Clock where
  hour := t.timeOfDay / 3600
  minute := t.timeOfDay / 60 % 60
  second := t.timeOfDay % 60 + if t.isLeap then 1 else 0
  nanos := if t.isLeap then t.nanos - nanosPerSecond else t.nanos

/-- The time of day is less than a day. -/
theorem time_of_day_lt (t : Timestamp) : t.timeOfDay < 86400 := by
  unfold timeOfDay secondsPerDay
  omega

/-- The clock of a timestamp is one that can be read. -/
theorem clock_is_valid (t : Timestamp) : t.clock.isValid = true := by
  have hlt := t.time_of_day_lt
  have hleap : (if t.isLeap then 1 else 0) ≤ 1 := by split <;> decide
  simp only [Clock.isValid, Bool.and_eq_true, decide_eq_true_eq]
  show (t.timeOfDay / 3600 ≤ 23 ∧ t.timeOfDay / 60 % 60 ≤ 59) ∧
    t.timeOfDay % 60 + (if t.isLeap then 1 else 0) ≤ 60
  omega

/-- It has fewer nanoseconds than a second. -/
theorem clock_nanos_lt {t : Timestamp} (h : t.nanos < 2 * nanosPerSecond) :
    t.clock.nanos < nanosPerSecond := by
  have hleap : t.isLeap = decide (nanosPerSecond ≤ t.nanos) := rfl
  simp only [clock, hleap, decide_eq_true_eq]
  split <;> omega

/-- Date and time of the day give the point in time back. -/
theorem of_local_clock {t : Timestamp} (h : t.IsCivil) : ofLocal t.date t.clock 0 = t := by
  have hdays : t.date.toDays = t.seconds / secondsPerDay := Date.to_days_of_days _
  have hsplit : t.seconds / secondsPerDay * secondsPerDay + t.timeOfDay = t.seconds := by
    unfold timeOfDay secondsPerDay
    omega
  -- The second 60 is written for the second 59 with more nanoseconds than there are in a second.
  have hsecond : min t.clock.second 59 = t.timeOfDay % 60 := by
    show min (t.timeOfDay % 60 + if t.isLeap then 1 else 0) 59 = t.timeOfDay % 60
    split
    · rename_i hleap
      have hlast := h.leap hleap
      omega
    · omega
  have hnanos : t.clock.nanos + (if t.clock.second = 60 then nanosPerSecond else 0) = t.nanos := by
    show (if t.isLeap then t.nanos - nanosPerSecond else t.nanos) +
      (if t.timeOfDay % 60 + (if t.isLeap then 1 else 0) = 60 then nanosPerSecond else 0) = t.nanos
    by_cases hleap : t.isLeap = true
    · have hlast := h.leap hleap
      have hle : nanosPerSecond ≤ t.nanos := of_decide_eq_true hleap
      rw [if_pos hleap, if_pos hleap, hlast, if_pos rfl, Nat.sub_add_cancel hle]
    · rw [if_neg hleap, if_neg hleap, if_neg (by omega), Nat.add_zero]
  have hclock : 3600 * t.clock.hour + 60 * t.clock.minute + min t.clock.second 59 =
      t.timeOfDay := by
    rw [hsecond]
    show 3600 * (t.timeOfDay / 3600) + 60 * (t.timeOfDay / 60 % 60) + t.timeOfDay % 60 = t.timeOfDay
    omega
  rw [ofLocal, hdays, hclock, hnanos, hsplit]
  simp

/-- What was written is read back. -/
theorem read_print {t : Timestamp} (h : t.IsCivil) : read t.print = some t := by
  have hprint : t.print.toList =
      printYear t.date.year ++ '-' :: (padded 2 t.date.month ++ '-' :: (padded 2 t.date.day ++
        'T' :: (padded 2 t.clock.hour ++ ':' :: (padded 2 t.clock.minute ++ ':' ::
          (padded 2 t.clock.second ++ (printFraction t.clock.nanos ++ ['Z'])))))) := by
    unfold print
    simp only [String.toList_ofList, List.append_assoc, List.cons_append]
    rfl
  have hdate : t.date.isValid = true := Date.is_valid_of_days _
  have hclock := t.clock_is_valid
  have hfraction := read_fraction_print (clock_nanos_lt h.nanos) []
  have hoffset : readOffset (Text.trimFront ['Z']) = some (0, []) := by decide
  have htrim : Text.trimFront [] = [] := rfl
  have hyear : isInRange (Date.ofDays (t.seconds / secondsPerDay)).year = true := h.year
  unfold read
  rw [hprint, read_date_print hdate]
  simp [readSeparator, read_clock_print hclock hfraction, hoffset, htrim, of_local_clock h, h.year,
    hyear, hdate, hclock]

/-- So a timestamp is decoded from its JSON form. -/
theorem decode_encode {t : Timestamp} (h : t.IsCivil) : decode t.encode = .ok t := by
  rw [encode, decode, read_print h]

end Timestamp

end Transcript
