import HttpWorkbench.Clock.Timestamp
import Mathlib.Algebra.Order.Ring.Nat

/-!
# Days are ordered as their dates

The year of a day is the one that it falls into, and of two days the earlier one has the earlier
date: years come first, then months, then days of the month. Months and days of the month have at
most two digits, and so many days are within the years of at most four digits.
-/

namespace HttpWorkbench.Timestamp

/-! ## Comparing part by part -/

theorem compare_add_left (k m n : Nat) : compare (k + m) (k + n) = compare m n := by
  rcases Nat.lt_trichotomy m n with h | h | h
  · rw [Nat.compare_eq_lt.mpr h, Nat.compare_eq_lt.mpr (by omega)]
  · rw [Nat.compare_eq_eq.mpr h, Nat.compare_eq_eq.mpr (by omega)]
  · rw [Nat.compare_eq_gt.mpr h, Nat.compare_eq_gt.mpr (by omega)]

/-- Numbers are ordered by their quotients, and then by their remainders. -/
theorem compare_div_mod (k m n : Nat) :
    (compare (m / k) (n / k)).then (compare (m % k) (n % k)) = compare m n := by
  rcases Nat.lt_trichotomy (m / k) (n / k) with h | h | h
  · rw [Nat.compare_eq_lt.mpr h, Nat.compare_eq_lt.mpr (Nat.lt_of_div_lt_div h)]
    rfl
  · rw [Nat.compare_eq_eq.mpr h, ← compare_add_left (k * (m / k)), Nat.div_add_mod, h,
      Nat.div_add_mod]
    rfl
  · rw [Nat.compare_eq_gt.mpr h, Nat.compare_eq_gt.mpr (Nat.lt_of_div_lt_div h)]
    rfl

/-! ## Years -/

theorem daysBeforeYear_mono : Monotone daysBeforeYear := by
  refine monotone_nat_of_le_succ fun year => ?_
  simp only [daysBeforeYear]
  omega

/-- The leap years up to a year are one more than those before it exactly in a leap year. -/
theorem leaps_succ (past : Nat) :
    ((past + 1) / 4 + (past + 1) / 400 + past / 100 =
      past / 4 + past / 400 + (past + 1) / 100 + if isLeap (past + 1) then 1 else 0) := by
  have hleap : isLeap (past + 1) = true ↔
      (past + 1) % 4 = 0 ∧ ((past + 1) % 100 ≠ 0 ∨ (past + 1) % 400 = 0) := by
    simp [isLeap]
  by_cases h : isLeap (past + 1) = true
  · rw [if_pos h]
    rw [hleap] at h
    omega
  · rw [if_neg h]
    rw [hleap] at h
    omega

/-- The year after begins when the months of a year are over. -/
theorem daysBeforeYear_succ {year : Nat} (hyear : 0 < year) :
    daysBeforeYear (year + 1) = daysBeforeYear year + (monthLengths year).sum := by
  obtain ⟨past, rfl⟩ : ∃ past, year = past + 1 := ⟨year - 1, by omega⟩
  have hsum : (monthLengths (past + 1)).sum = 365 + if isLeap (past + 1) then 1 else 0 := by
    cases h : isLeap (past + 1) <;> simp [monthLengths, h]
  have hleaps := leaps_succ past
  rw [hsum]
  simp only [daysBeforeYear, Nat.add_sub_cancel]
  omega

/-- A day falls into the year that is found from one before, if that is near enough. -/
theorem yearFrom_bounds {day fuel year : Nat} (hlow : daysBeforeYear year ≤ day)
    (hhigh : day < daysBeforeYear (year + fuel + 1)) :
    year ≤ yearFrom day fuel year ∧ daysBeforeYear (yearFrom day fuel year) ≤ day ∧
      day < daysBeforeYear (yearFrom day fuel year + 1) := by
  induction fuel generalizing year with
  | zero => exact ⟨Nat.le_refl year, hlow, hhigh⟩
  | succ fuel ih =>
    rw [yearFrom]
    split
    · rename_i hnext
      have hrest := ih hnext (by rwa [Nat.add_right_comm year 1])
      exact ⟨by omega, hrest.2⟩
    · exact ⟨Nat.le_refl year, hlow, by omega⟩

/-- A day falls into its year. -/
theorem yearOf_bounds (day : Nat) :
    0 < yearOf day ∧ daysBeforeYear (yearOf day) ≤ day ∧
      day < daysBeforeYear (yearOf day + 1) := by
  -- By the mean length of a year, the first year that is tried is right or up to three too early.
  have hlow : daysBeforeYear (max 1 (400 * day / 146097)) ≤ day := by
    simp only [daysBeforeYear]
    omega
  have hhigh : day < daysBeforeYear (max 1 (400 * day / 146097) + 3 + 1) := by
    simp only [daysBeforeYear]
    omega
  have hbounds := yearFrom_bounds hlow hhigh
  exact ⟨Nat.lt_of_lt_of_le (Nat.le_max_left 1 _) hbounds.1, hbounds.2⟩

/-- The day in the year of a day is within the months of that year. -/
theorem dayOfYear_lt (day : Nat) :
    day - daysBeforeYear (yearOf day) < (monthLengths (yearOf day)).sum := by
  obtain ⟨hpos, hlow, hhigh⟩ := yearOf_bounds day
  rw [daysBeforeYear_succ hpos] at hhigh
  omega

/-- Days are ordered by their years, and then within the year. -/
theorem compare_yearOf (m n : Nat) :
    (compare (yearOf m) (yearOf n)).then
      (compare (m - daysBeforeYear (yearOf m)) (n - daysBeforeYear (yearOf n))) = compare m n := by
  obtain ⟨-, hmlow, hmhigh⟩ := yearOf_bounds m
  obtain ⟨-, hnlow, hnhigh⟩ := yearOf_bounds n
  rcases Nat.lt_trichotomy (yearOf m) (yearOf n) with h | h | h
  · have hbetween := daysBeforeYear_mono (Nat.succ_le_of_lt h)
    have hlt : m < n := Nat.lt_of_lt_of_le hmhigh (hbetween.trans hnlow)
    rw [Nat.compare_eq_lt.mpr h, Nat.compare_eq_lt.mpr hlt]
    rfl
  · rw [h] at hmlow
    rw [Nat.compare_eq_eq.mpr h, ← compare_add_left (daysBeforeYear (yearOf n)), h,
      Nat.add_sub_cancel' hmlow, Nat.add_sub_cancel' hnlow]
    rfl
  · have hbetween := daysBeforeYear_mono (Nat.succ_le_of_lt h)
    have hgt : n < m := Nat.lt_of_lt_of_le hnhigh (hbetween.trans hmlow)
    rw [Nat.compare_eq_gt.mpr h, Nat.compare_eq_gt.mpr hgt]
    rfl

/-! ## Months -/

theorem le_monthOf (lengths : List Nat) (month day : Nat) :
    month ≤ (monthOf month day lengths).1 := by
  induction lengths generalizing month day with
  | nil => exact Nat.le_refl month
  | cons length rest ih =>
    rw [monthOf]
    split
    · exact Nat.le_refl month
    · exact Nat.le_of_succ_le (ih (month + 1) (day - length))

/-- Within months of these lengths, days are ordered by their months, and then within the month. -/
theorem compare_monthOf (lengths : List Nat) (month m n : Nat) :
    (compare (monthOf month m lengths).1 (monthOf month n lengths).1).then
      (compare (monthOf month m lengths).2 (monthOf month n lengths).2) = compare m n := by
  have hsame (month m n : Nat) :
      (compare month month).then (compare (m + 1) (n + 1)) = compare m n := by
    rw [Nat.compare_eq_eq.mpr rfl, Nat.add_comm m, Nat.add_comm n, compare_add_left]
    rfl
  induction lengths generalizing month m n with
  | nil => exact hsame month m n
  | cons length rest ih =>
    rw [monthOf, monthOf]
    split <;> split
    · exact hsame month m n
    · have hlt : m < n := by omega
      rw [Nat.compare_eq_lt.mpr (le_monthOf rest (month + 1) (n - length)),
        Nat.compare_eq_lt.mpr hlt]
      rfl
    · have hgt : n < m := by omega
      rw [Nat.compare_eq_gt.mpr (le_monthOf rest (month + 1) (m - length)),
        Nat.compare_eq_gt.mpr hgt]
      rfl
    · rw [ih, ← compare_add_left length, Nat.add_sub_cancel' (by omega),
        Nat.add_sub_cancel' (by omega)]

/-- A day within the months is in one of them. -/
theorem monthOf_bounds {lengths : List Nat} {day : Nat} (h : day < lengths.sum) (month : Nat) :
    (monthOf month day lengths).1 < month + lengths.length ∧
      ∃ length ∈ lengths, (monthOf month day lengths).2 ≤ length := by
  induction lengths generalizing month day with
  | nil => cases h
  | cons length rest ih =>
    rw [List.sum_cons] at h
    rw [monthOf, List.length_cons]
    split
    · rename_i hday
      exact ⟨by omega, length, List.mem_cons_self, hday⟩
    · have hrest : day - length < rest.sum := by omega
      obtain ⟨hmonth, l, hl, hle⟩ := ih hrest (month + 1)
      exact ⟨by omega, l, List.mem_cons_of_mem length hl, hle⟩

/-! ## Dates -/

theorem le_of_mem_monthLengths {year length : Nat} (h : length ∈ monthLengths year) :
    length ≤ 31 := by
  revert length
  rw [monthLengths]
  cases isLeap year <;> decide

/-- Days are ordered by the years, then the months, then the days of the month in their dates. -/
theorem compare_dateOf (m n : Nat) :
    (compare (dateOf m).1 (dateOf n).1).then ((compare (dateOf m).2.1 (dateOf n).2.1).then
      (compare (dateOf m).2.2 (dateOf n).2.2)) = compare m n := by
  rw [← compare_yearOf m n]
  simp only [dateOf]
  rcases Nat.lt_trichotomy (yearOf m) (yearOf n) with h | h | h
  · rw [Nat.compare_eq_lt.mpr h]
    rfl
  · rw [h, compare_monthOf]
  · rw [Nat.compare_eq_gt.mpr h]
    rfl

/-- The numbers in a date have at most two digits for the month and the day of the month, and four
for the year before the year 10000. -/
theorem dateOf_bounds {day : Nat} (hday : day < daysBeforeYear 10000) :
    (dateOf day).1 < 10 ^ 4 ∧ (dateOf day).2.1 < 10 ^ 2 ∧ (dateOf day).2.2 < 10 ^ 2 := by
  obtain ⟨hmonth, length, hlength, hle⟩ := monthOf_bounds (dayOfYear_lt day) 1
  obtain ⟨-, hlow, -⟩ := yearOf_bounds day
  have hyear : yearOf day < 10000 := by
    by_contra hnot
    have hbefore := daysBeforeYear_mono (Nat.le_of_not_lt hnot)
    omega
  exact ⟨hyear, Nat.lt_of_lt_of_le hmonth (by decide : 1 + 12 ≤ 10 ^ 2),
    Nat.lt_of_le_of_lt (hle.trans (le_of_mem_monthLengths hlength)) (by decide)⟩

end HttpWorkbench.Timestamp
