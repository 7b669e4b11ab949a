import Relmap.Calendar.Civil

/-!
# Naming a day and counting it again

The day that a count is named by exists (`Civil.exists?_ofNumber`) and has that count
(`Civil.number_ofNumber`). Both follow from taking a count apart into an era, a year of the era and
a day of the year that starts on the first of March (`exists_marchDay`).
-/

namespace Relmap.Calendar

/-- The year of an era that a day of the era lies in, counted from March: the day is not before its
start, and the year has room for it. -/
theorem yearOfEra_bounds {e y : Int} (lo : 0 ≤ e) (hi : e < 146097)
    (hy : y = (e - e / 1460 + e / 36524 - e / 146096) / 365) :
    0 ≤ y ∧ y ≤ 399 ∧ 365 * y + y / 4 - y / 100 ≤ e ∧
      e ≤ 365 * y + y / 4 - y / 100 + if isLeapYear (y + 1) then 365 else 364 := by
  by_cases last : e = 146096
  · subst last hy
    decide
  -- The quotients tie the year to the day only up to its place in the cycle of leap years.
  have noEnd : e / 146096 = 0 := by omega
  have century : y / 100 = e / 36524 := by omega
  have cycle : y % 4 = 0 ∨ y % 4 = 1 ∨ y % 4 = 2 ∨ y % 4 = 3 := by omega
  simp only [isLeapYear, Bool.and_eq_true, Bool.or_eq_true, decide_eq_true_eq]
  rcases cycle with k | k | k | k <;> split <;> omega

/-- A day by its era, its year of the era and its place in a year that starts in March. -/
structure MarchDay where
  era : Int
  year : Int
  day : Int

namespace MarchDay

/-- The parts are in their bounds; the last day of a year is that of a leap year. -/
structure Proper (m : MarchDay) : Prop where
  year_nonneg : 0 ≤ m.year
  year_le : m.year ≤ 399
  day_nonneg : 0 ≤ m.day
  day_le : m.day ≤ if isLeapYear (m.era * 400 + m.year + 1) then 365 else 364

/-- The count of the day. -/
def number (m : MarchDay) : Int :=
  m.era * 146097 + (m.year * 365 + m.year / 4 - m.year / 100 + m.day) - 719468

/-- The month of the day, from zero for March. -/
def month (m : MarchDay) : Int := (5 * m.day + 2) / 153

/-- The day by its usual name. -/
def civil (m : MarchDay) : Civil where
  year := m.era * 400 + m.year + if m.month < 10 then 0 else 1
  month := (if m.month < 10 then m.month + 3 else m.month - 9).toNat
  day := (m.day - (153 * m.month + 2) / 5 + 1).toNat

variable {m : MarchDay}

theorem Proper.month_bounds (h : m.Proper) : 0 ≤ m.month ∧ m.month ≤ 11 := by
  have lo := h.day_nonneg
  have hi := h.day_le
  rw [month]
  split at hi <;> omega

/-- The usual name of the day counts to the same number. -/
theorem Proper.number_civil (h : m.Proper) : m.civil.number = m.number := by
  obtain ⟨lo, hi⟩ := h.month_bounds
  have year_lo := h.year_nonneg
  have year_hi := h.year_le
  have first : (153 * m.month + 2) / 5 ≤ m.day := by
    rw [month]
    omega
  by_cases late : m.month < 10
  · have month : m.civil.month = m.month + 3 := by simp only [civil, if_pos late]; omega
    have year : m.civil.year = m.era * 400 + m.year := by simp [civil, if_pos late]
    have day : (m.civil.day : Int) = m.day - (153 * m.month + 2) / 5 + 1 := by
      simp only [civil]
      omega
    have era : (m.era * 400 + m.year).fdiv 400 = m.era := by
      rw [Int.fdiv_eq_ediv_of_nonneg _ (by decide)]
      omega
    have spring : ¬m.civil.month ≤ 2 := by omega
    simp only [Civil.number, if_neg spring, year, day, month, era, number]
    omega
  · have month : m.civil.month = m.month - 9 := by simp only [civil, if_neg late]; omega
    have year : m.civil.year = m.era * 400 + m.year + 1 := by simp [civil, if_neg late]
    have day : (m.civil.day : Int) = m.day - (153 * m.month + 2) / 5 + 1 := by
      simp only [civil]
      omega
    have era : (m.era * 400 + m.year + 1 - 1).fdiv 400 = m.era := by
      rw [Int.fdiv_eq_ediv_of_nonneg _ (by decide)]
      omega
    have winter : m.civil.month ≤ 2 := by omega
    simp only [Civil.number, if_pos winter, year, day, month, era, number]
    omega

/-- The usual name of the day is that of a day. -/
theorem Proper.exists_civil (h : m.Proper) : m.civil.exists? = true := by
  obtain ⟨lo, hi⟩ := h.month_bounds
  have day_hi := h.day_le
  have first : (153 * m.month + 2) / 5 ≤ m.day := by
    rw [month]
    omega
  have after : m.day < (153 * (m.month + 1) + 2) / 5 := by
    rw [month]
    omega
  have day : m.civil.day = (m.day - (153 * m.month + 2) / 5 + 1).toNat := rfl
  rw [Civil.exists?, Bool.and_eq_true, decide_eq_true_eq, decide_eq_true_eq]
  refine ⟨by omega, ?_⟩
  by_cases february : m.month = 11
  · -- The only month whose length depends on the year.
    have month : m.civil.month = 2 := by simp [civil, february]
    have year : m.civil.year = m.era * 400 + m.year + 1 := by simp [civil, february]
    rw [month, year, day, february]
    show _ ≤ if isLeapYear (m.era * 400 + m.year + 1) then 29 else 28
    split at day_hi
    next leap =>
      rw [if_pos leap]
      omega
    next common =>
      rw [if_neg common]
      omega
  · have months : m.month = 0 ∨ m.month = 1 ∨ m.month = 2 ∨ m.month = 3 ∨ m.month = 4 ∨
        m.month = 5 ∨ m.month = 6 ∨ m.month = 7 ∨ m.month = 8 ∨ m.month = 9 ∨ m.month = 10 := by
      omega
    rw [day]
    rcases months with k | k | k | k | k | k | k | k | k | k | k <;>
      simp only [civil, k] at after ⊢ <;> simp [daysInMonth] <;> omega

end MarchDay

/-- Every count is taken apart, and named accordingly. -/
theorem exists_marchDay (n : Int) :
    ∃ m : MarchDay, m.Proper ∧ m.number = n ∧ m.civil = Civil.ofNumber n := by
  let era := (n + 719468).fdiv 146097
  have quotient : era = (n + 719468) / 146097 := Int.fdiv_eq_ediv_of_nonneg _ (by decide)
  let e := n + 719468 - era * 146097
  let y := (e - e / 1460 + e / 36524 - e / 146096) / 365
  obtain ⟨lo, hi, start, stop⟩ := yearOfEra_bounds (e := e) (y := y) (by omega) (by omega) rfl
  let m : MarchDay := ⟨era, y, e - (365 * y + y / 4 - y / 100)⟩
  -- A leap year comes back after four hundred years.
  have leap : isLeapYear (era * 400 + y + 1) = isLeapYear (y + 1) := by
    have four : (era * 400 + y + 1) % 4 = (y + 1) % 4 := by omega
    have hundred : (era * 400 + y + 1) % 100 = (y + 1) % 100 := by omega
    have all : (era * 400 + y + 1) % 400 = (y + 1) % 400 := by omega
    rw [isLeapYear, isLeapYear, four, hundred, all]
  have proper : m.Proper := by
    refine ⟨lo, hi, Int.sub_nonneg.mpr start, ?_⟩
    show e - (365 * y + y / 4 - y / 100) ≤ if isLeapYear (era * 400 + y + 1) then 365 else 364
    rw [leap]
    omega
  obtain ⟨month_lo, month_hi⟩ := proper.month_bounds
  refine ⟨m, proper, ?_, ?_⟩
  · show era * 146097 + (y * 365 + y / 4 - y / 100 + (e - (365 * y + y / 4 - y / 100))) - 719468 = n
    omega
  · show Civil.mk _ _ _ = Civil.mk _ _ _
    rw [Civil.mk.injEq]
    refine ⟨?_, rfl, rfl⟩
    show era * 400 + y + (if m.month < 10 then 0 else 1) =
      if (if m.month < 10 then m.month + 3 else m.month - 9) ≤ 2 then y + era * 400 + 1
      else y + era * 400
    split <;> split <;> omega

/-- The day that a count is named by exists. -/
theorem Civil.exists?_ofNumber (n : Int) : (Civil.ofNumber n).exists? = true := by
  obtain ⟨m, proper, -, civil⟩ := exists_marchDay n
  rw [← civil]
  exact proper.exists_civil

/-- The name of a count counts to it again. -/
theorem Civil.number_ofNumber (n : Int) : (Civil.ofNumber n).number = n := by
  obtain ⟨m, proper, number, civil⟩ := exists_marchDay n
  rw [← civil, proper.number_civil, number]

/-- The year of a day that is not too far from 1970 is not too far from it either. -/
theorem Civil.year_bounds {n : Int} (lo : -100000000 ≤ n) (hi : n ≤ 100000000) :
    -300000 ≤ (ofNumber n).year ∧ (ofNumber n).year ≤ 300000 := by
  obtain ⟨m, proper, number, civil⟩ := exists_marchDay n
  have year_lo := proper.year_nonneg
  have year_hi := proper.year_le
  have day_lo := proper.day_nonneg
  have day_hi : m.day ≤ 365 := by
    have := proper.day_le
    split at this <;> omega
  rw [MarchDay.number] at number
  rw [← civil, MarchDay.civil]
  dsimp only
  split <;> omega

/-- Only the twelve months have days, and none more than thirty-one. -/
theorem daysInMonth_bounds (y : Int) (m : Nat) :
    daysInMonth y m ≤ 31 ∧ (0 < daysInMonth y m → 1 ≤ m ∧ m ≤ 12) := by
  unfold daysInMonth
  split
  case h_12 =>
    split <;> omega
  all_goals omega

theorem Civil.month_bounds {c : Civil} (h : c.exists? = true) : 1 ≤ c.month ∧ c.month ≤ 12 := by
  rw [exists?, Bool.and_eq_true, decide_eq_true_eq, decide_eq_true_eq] at h
  exact (daysInMonth_bounds c.year c.month).2 (by omega)

theorem Civil.day_bounds {c : Civil} (h : c.exists? = true) : 1 ≤ c.day ∧ c.day ≤ 31 := by
  rw [exists?, Bool.and_eq_true, decide_eq_true_eq, decide_eq_true_eq] at h
  have most := (daysInMonth_bounds c.year c.month).1
  omega

end Relmap.Calendar
