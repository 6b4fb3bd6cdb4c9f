import Transcript.Proofs.Bisection
import Transcript.Time.Calendar

/-!
# Dates and days

Every day has its date: `Date.ofDays` gives one that there is in the calendar
(`Date.is_valid_of_days`), and the date gives the day back (`Date.to_days_of_days`). The search for
the year finds the one that the day lies in, and the walk through the months ends in the one that
the day of the year lies in.
-/

namespace Transcript.Date

/-! ## Years -/

/-- A year starts where the months of the year before end. -/
theorem year_start_succ (y : Nat) :
    yearStart (y + 1) = yearStart y + sumOver id (monthLengths y) := by
  have hlength : sumOver id (monthLengths y) = 365 + if isLeapYear y then 1 else 0 := by
    unfold monthLengths
    split <;> rfl
  rw [hlength]
  -- The leap years up to the next one are those up to this one, and this one if it is a leap year.
  simp only [yearStart, isLeapYear, Bool.and_eq_true, Bool.or_eq_true, beq_iff_eq, bne_iff_ne]
  split <;> omega

/-- A later year starts later. -/
theorem year_start_mono {y y' : Nat} (h : y ≤ y') : yearStart y ≤ yearStart y' := by
  induction h with
  | refl => exact Nat.le_refl _
  | step _ ih => exact Nat.le_trans ih (year_start_succ _ ▸ Nat.le_add_right _ _)

/-- Every day in front of a year lies in one of the years before. -/
theorem exists_year {day n : Nat} (h : day < yearStart n) :
    ∃ y < n, yearStart y ≤ day ∧ day < yearStart (y + 1) := by
  induction n with
  | zero => exact absurd h (Nat.not_lt_zero day)
  | succ n ih =>
      by_cases hlt : day < yearStart n
      · obtain ⟨y, hy, hfound⟩ := ih hlt
        exact ⟨y, Nat.lt_succ_of_lt hy, hfound⟩
      · exact ⟨n, Nat.lt_succ_self n, Nat.le_of_not_lt hlt, h⟩

/-- The search finds the year in which a day of a cycle lies. -/
theorem first_true_year {day y : Nat} (hy : y < cycleYears) (hstart : yearStart y ≤ day)
    (hend : day < yearStart (y + 1)) :
    firstTrue 0 (cycleYears - 1) (fun y => day < yearStart (y + 1)) = y := by
  refine first_true_eq (Nat.zero_le y) (Nat.le_pred_of_lt hy) (fun i _ hi => ?_) (fun i hi _ => ?_)
  · have hle : yearStart (i + 1) ≤ yearStart y := year_start_mono hi
    exact decide_eq_false (Nat.not_lt.2 (Nat.le_trans hle hstart))
  · have hle : yearStart (y + 1) ≤ yearStart (i + 1) := year_start_mono (Nat.succ_le_succ hi)
    exact decide_eq_true (Nat.lt_of_lt_of_le hend hle)

/-! ## Months -/

/-- The walk through the months ends in the one that the day lies in. -/
theorem split_months_spec (month : Nat) {day : Nat} {lengths : List Nat}
    (h : day < sumOver id lengths) :
    ∃ i d, splitMonths month lengths day = (month + i, d) ∧ i < lengths.length ∧
      d < lengths.getD i 0 ∧ sumOver id (lengths.take i) + d = day := by
  induction lengths generalizing month day with
  | nil => exact absurd h (Nat.not_lt_zero day)
  | cons length lengths ih =>
      rw [splitMonths]
      split
      · rename_i hlt
        exact ⟨0, day, rfl, Nat.succ_pos _, hlt, Nat.zero_add day⟩
      · rename_i hge
        have hrest : day - length < sumOver id lengths := by
          have hsum : sumOver id (length :: lengths) = length + sumOver id lengths := rfl
          omega
        obtain ⟨i, d, hsplit, hi, hd, hsum⟩ := ih (month + 1) hrest
        refine ⟨i + 1, d, ?_, Nat.succ_lt_succ hi, hd, ?_⟩
        · rw [hsplit]
          congr 1
          omega
        · have htake : sumOver id ((length :: lengths).take (i + 1)) =
              length + sumOver id (lengths.take i) := rfl
          omega

/-! ## Dates -/

/-- The date of a day: the cycle of years, the year of the cycle, the month and the day of the
month. -/
theorem of_days_spec (days : Int) :
    ∃ (cycle : Int) (year i d : Nat), ofDays days = ⟨cycle * cycleYears + year, 1 + i, d + 1⟩ ∧
      year < cycleYears ∧ i < 12 ∧ d < (monthLengths year).getD i 0 ∧
      days = cycle * cycleDays +
        (yearStart year + sumOver id ((monthLengths year).take i) + d : Nat) - epochDay := by
  have hpos : (0 : Int) < cycleDays := by decide
  have hdivision := Int.mul_ediv_add_emod (days + epochDay) cycleDays
  have hnonneg := Int.emod_nonneg (days + epochDay) (Int.ne_of_gt hpos)
  have hlt := Int.emod_lt_of_pos (days + epochDay) hpos
  -- The day of the cycle lies in one of its years, and the rest of it in one of the months.
  obtain ⟨year, hyear, hstart, hend⟩ :
      ∃ y < cycleYears, yearStart y ≤ ((days + epochDay) % cycleDays).toNat ∧
        ((days + epochDay) % cycleDays).toNat < yearStart (y + 1) := by
    refine exists_year (n := cycleYears) ?_
    have hcycle : yearStart cycleYears = cycleDays := by decide
    omega
  have hday :
      ((days + epochDay) % cycleDays).toNat - yearStart year < sumOver id (monthLengths year) := by
    rw [year_start_succ] at hend
    omega
  obtain ⟨i, d, hsplit, hi, hd, hsum⟩ := split_months_spec 1 hday
  refine ⟨(days + epochDay) / cycleDays, year, i, d, ?_, hyear, hi, hd, ?_⟩
  · simp only [ofDays, first_true_year hyear hstart hend, hsplit]
  · rw [Nat.add_assoc, hsum, Nat.add_sub_cancel' hstart, Int.toNat_of_nonneg hnonneg, Int.mul_comm,
      hdivision]
    omega

/-- The year of a cycle is found again in the year. -/
theorem year_of_cycle_eq {cycle : Int} {year month day : Nat} (h : year < cycleYears) :
    (⟨cycle * cycleYears + year, month, day⟩ : Date).yearOfCycle = year := by
  unfold yearOfCycle
  unfold cycleYears at *
  dsimp only
  omega

/-- The date of a day is one of the calendar. -/
theorem is_valid_of_days (days : Int) : (ofDays days).isValid = true := by
  obtain ⟨cycle, year, i, d, hdate, hyear, hi, hd, -⟩ := of_days_spec days
  rw [hdate, isValid, year_of_cycle_eq hyear]
  simp only [Bool.and_eq_true, decide_eq_true_eq, Nat.add_sub_cancel_left]
  omega

/-- The date of a day gives the day back. -/
theorem to_days_of_days (days : Int) : (ofDays days).toDays = days := by
  obtain ⟨cycle, year, i, d, hdate, hyear, -, -, hdays⟩ := of_days_spec days
  have hcycle : (cycle * cycleYears + year) / cycleYears = cycle := by
    unfold cycleYears at *
    omega
  rw [hdate, toDays, year_of_cycle_eq hyear]
  dsimp only
  rw [hcycle, Nat.add_sub_cancel_left, Nat.add_sub_cancel, ← hdays]

/-- No month has more than 31 days. -/
theorem month_length_le (year i : Nat) : (monthLengths year).getD i 0 ≤ 31 := by
  have hall : ∀ length ∈ monthLengths year, length ≤ 31 := by
    unfold monthLengths
    split <;> decide
  rw [List.getD_eq_getElem?_getD]
  cases hlength : (monthLengths year)[i]? with
  | none => exact Nat.zero_le 31
  | some length => exact hall length (List.mem_of_getElem? hlength)

/-- The month and the day of a date have at most two digits. -/
theorem month_day_lt {d : Date} (h : d.isValid = true) : d.month < 100 ∧ d.day < 100 := by
  have hlength := month_length_le d.yearOfCycle (d.month - 1)
  simp only [isValid, Bool.and_eq_true, decide_eq_true_eq] at h
  omega

end Transcript.Date
