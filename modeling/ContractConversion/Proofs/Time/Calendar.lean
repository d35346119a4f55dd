import ContractConversion.Time.Calendar
import Mathlib.Data.Int.Notation
import Mathlib.Data.Nat.Notation
import Mathlib.Tactic.IntervalCases
import Mathlib.Tactic.Lemma

/-!
# Days and dates

Every number of days is the number of its date (`Date.toDays_ofDays`), and that date is one that the
calendar has (`Date.isValid_ofDays`).

Both follow from what a date stands for: a year of an era and a day of that year (`Stands`). The
year comes out of a division that is off by the leap days before it; taking the day of the era apart
into centuries, cycles of four years, and years shows that it is the right one.
-/

namespace ContractConversion.Time

/-- A day of an era by its century, its cycle of four years, its year and its day. The day 365 is
the leap day: the last cycle of a century has none, except in the last century. -/
structure SplitsEra (dayOfEra century cycle year day : ℤ) : Prop where
  century_mem : 0 ≤ century ∧ century ≤ 3
  cycle_mem : 0 ≤ cycle ∧ cycle ≤ 24
  year_mem : 0 ≤ year ∧ year ≤ 3
  day_mem : 0 ≤ day ∧ day ≤ 365
  leap : day = 365 → year = 3 ∧ (cycle < 24 ∨ century = 3)
  eq : dayOfEra = 36524 * century + 1461 * cycle + 365 * year + day

/-- Every day of an era can be split. -/
lemma exists_splitsEra {d : ℤ} (h₀ : 0 ≤ d) (h₁ : d < 146097) :
    ∃ century cycle year day, SplitsEra d century cycle year day := by
  by_cases hlast : d = 146096
  · exact ⟨3, 24, 3, 365, by omega, by omega, by omega, by omega, by omega, by omega⟩
  · -- the last day of a cycle belongs to its fourth year
    by_cases hleap : d % 36524 % 1461 = 1460
    · exact ⟨d / 36524, d % 36524 / 1461, 3, 365, by omega, by omega, by omega, by omega, by omega,
        by omega⟩
    · exact ⟨d / 36524, d % 36524 / 1461, d % 36524 % 1461 / 365, d % 36524 % 1461 % 365, by omega,
        by omega, by omega, by omega, by omega, by omega⟩

/-- Taking the leap days off a day of an era before dividing by 365 gives its year. -/
lemma SplitsEra.yearOfEra {d century cycle year day : ℤ} (h : SplitsEra d century cycle year day) :
    (d - d / 1460 + d / 36524 - d / 146096) / 365 = 100 * century + 4 * cycle + year := by
  obtain ⟨hcentury, hcycle, hyear, hday, hleap, heq⟩ := h
  by_cases hlast : d = 146096
  · subst hlast
    have hthree : century = 3 := by omega
    have hcycles : cycle = 24 := by omega
    have hyears : year = 3 := by omega
    omega
  · have hcenturies : d / 36524 = century := by omega
    have hnone : d / 146096 = 0 := by omega
    -- of the cycles of 1460 days, one more may have passed than of those with their leap day
    have hcycles : d / 1460 = 25 * century + cycle ∨
        d / 1460 = 25 * century + cycle + 1 ∧ 1 ≤ day := by omega
    have hshort : d / 1460 = 25 * century + cycle → day ≤ 364 := by omega
    omega

namespace Date

/-- What a date stands for: the day `day` of the year `year` of the era `era`, which is in the month
`month`, counted from March. -/
structure Stands (date : Date) (era year : ℤ) (day month : ℕ) : Prop where
  year_mem : 0 ≤ year ∧ year ≤ 399
  day_le : day ≤ 365
  month_le : month ≤ 11
  month_eq : month = (5 * day + 2) / 153
  leap : day = 365 → year % 4 = 3 ∧ (year % 100 = 99 → year = 399)
  eq : date = ⟨if 10 ≤ month then year + era * 400 + 1 else year + era * 400,
    if month < 10 then month + 3 else month - 9, day - (153 * month + 2) / 5 + 1⟩

/-- The date of a number of days stands for the day of that number. -/
lemma stands_ofDays (days : ℤ) : ∃ era year day month, Stands (ofDays days) era year day month ∧
    days + 719468 = era * 146097 + (year * 365 + year / 4 - year / 100 + day) := by
  obtain ⟨era, d, hera, hd, hdays, hd₀, hd₁⟩ : ∃ era d, (days + 719468) / 146097 = era ∧
      (days + 719468) % 146097 = d ∧ days + 719468 = era * 146097 + d ∧ 0 ≤ d ∧ d < 146097 :=
    ⟨_, _, rfl, rfl, by omega, by omega, by omega⟩
  obtain ⟨century, cycle, rest, day, h⟩ := exists_splitsEra hd₀ hd₁
  have hyear := h.yearOfEra
  rw [ofDays, Int.fmod_eq_emod_of_nonneg _ (by decide), Int.fdiv_eq_ediv_of_nonneg _ (by decide),
    hera, hd, hyear]
  clear hyear hera hd
  obtain ⟨hcentury, hcycle, hrest, hday, hleap, heq⟩ := h
  have hfourths : (100 * century + 4 * cycle + rest) / 4 = 25 * century + cycle := by omega
  have hhundredths : (100 * century + 4 * cycle + rest) / 100 = century := by omega
  rw [hfourths, hhundredths]
  have hnat : d - (365 * (100 * century + 4 * cycle + rest) + (25 * century + cycle) - century) =
      day := by omega
  rw [hnat]
  refine ⟨era, 100 * century + 4 * cycle + rest, day.toNat, (5 * day.toNat + 2) / 153,
    ⟨by omega, by omega, by omega, rfl, by omega, ?_⟩, by omega⟩
  have hmonth : (5 * day.toNat + 2) / 153 ≤ 11 := by omega
  congr 1
  by_cases hlow : (5 * day.toNat + 2) / 153 < 10
  · rw [if_pos hlow, if_neg (by omega), if_neg (by omega)]
  · rw [if_neg hlow, if_pos (by omega), if_pos (by omega)]

/-- **The date of a number of days has that number.** -/
theorem toDays_ofDays (days : ℤ) : (ofDays days).toDays = days := by
  obtain ⟨era, year, day, month, h, hdays⟩ := stands_ofDays days
  obtain ⟨hyear, hday, hmonth, hmonths, -, heq⟩ := h
  have hera : (year + era * 400) / 400 = era := by omega
  have hyears : (year + era * 400) % 400 = year := by omega
  have hstart : (153 * month + 2) / 5 ≤ day := by omega
  rw [heq, toDays]
  dsimp only
  rw [Int.fmod_eq_emod_of_nonneg _ (by decide), Int.fdiv_eq_ediv_of_nonneg _ (by decide)]
  by_cases hlow : month < 10
  · have hmarch : (month + 3 + 9) % 12 = month := by omega
    rw [if_pos hlow, if_neg (by omega), if_neg (by omega), hera, hyears, hmarch]
    clear heq hmonths hmarch
    omega
  · have hmarch : (month - 9 + 9) % 12 = month := by omega
    rw [if_neg hlow, if_pos (by omega), if_pos (by omega), Int.add_sub_cancel, hera, hyears, hmarch]
    clear heq hmonths hmarch
    omega

/-- A month other than February has all the days up to the next one. -/
lemma le_daysInMonth (year : ℤ) {month : ℕ} (h : month ≤ 10) :
    (153 * (month + 1) + 2) / 5 - (153 * month + 2) / 5 ≤
      daysInMonth year (if month < 10 then month + 3 else month - 9) := by
  interval_cases month <;> simp [daysInMonth]

/-- **The date of a number of days is one of the calendar.** -/
theorem isValid_ofDays (days : ℤ) : (ofDays days).isValid = true := by
  obtain ⟨era, year, day, month, h, -⟩ := stands_ofDays days
  obtain ⟨hyear, hday, hmonth, hmonths, hleap, heq⟩ := h
  have hstart : (153 * month + 2) / 5 ≤ day ∧ day < (153 * (month + 1) + 2) / 5 := by omega
  have hlast : day - (153 * month + 2) / 5 + 1 ≤
      daysInMonth (if 10 ≤ month then year + era * 400 + 1 else year + era * 400)
        (if month < 10 then month + 3 else month - 9) := by
    rcases Nat.lt_or_eq_of_le hmonth with hother | rfl
    · have hle := le_daysInMonth (if 10 ≤ month then year + era * 400 + 1 else year + era * 400)
        (Nat.le_of_lt_succ hother)
      clear hmonths
      omega
    · -- in February the leap day is the last one
      have hfebruary : daysInMonth (year + era * 400 + 1) 2 =
        if isLeap (year + era * 400 + 1) then 29 else 28 := rfl
      have hleapYear : day = 365 → isLeap (year + era * 400 + 1) = true := by
        intro hlast
        obtain ⟨hfourth, hcentury⟩ := hleap hlast
        simp only [isLeap, Bool.and_eq_true, Bool.or_eq_true, beq_iff_eq, bne_iff_ne]
        omega
      rw [if_pos (by decide), if_neg (by decide), hfebruary]
      split
      · omega
      · next hnot =>
        have hne : day ≠ 365 := fun h => hnot (hleapYear h)
        omega
  have hnumber : 1 ≤ (if month < 10 then month + 3 else month - 9) ∧
      (if month < 10 then month + 3 else month - 9) ≤ 12 := by
    split <;> omega
  rw [heq, isValid]
  simp only [Bool.and_eq_true, decide_eq_true_eq]
  exact ⟨⟨hnumber, by omega⟩, hlast⟩

/-- The month and the day of a date of the calendar have two digits. -/
lemma range_of_isValid {date : Date} (h : date.isValid = true) :
    (1 ≤ date.month ∧ date.month ≤ 12) ∧ 1 ≤ date.day ∧ date.day ≤ 31 := by
  have hdays : daysInMonth date.year date.month ≤ 31 := by
    unfold daysInMonth
    split
    · split <;> decide
    all_goals decide
  simp only [isValid, Bool.and_eq_true, decide_eq_true_eq] at h
  omega

end Date

end ContractConversion.Time
