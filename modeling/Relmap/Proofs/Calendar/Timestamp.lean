import Relmap.Calendar.Pattern.Write
import Relmap.Proofs.Number.IntText

/-!
# Counts of milliseconds and seconds

A timestamp that is a whole number of milliseconds is the timestamp of that number
(`ofMillis?_millis`), and one that is a whole number of seconds that of its seconds; the number of
milliseconds of any timestamp fits sixty-four bits. Which numbers of milliseconds are those of
timestamps is up to the bounds of the calendar (`exists_ofMillis?_iff`); every number of seconds of
thirty-two bits is (`exists_ofSeconds?`). The standard notation starts and ends with a
visible character (`trim_text`).
-/

namespace Relmap.Calendar

namespace Timestamp

variable {t : Timestamp}

/-- The timestamp is a whole number of milliseconds and in no leap second. -/
def OnMillisecond (t : Timestamp) : Prop := t.nanos < nanosPerSecond ∧ t.nanos % 1000000 = 0

/-- The timestamp is a whole number of seconds and in no leap second. -/
def OnSecond (t : Timestamp) : Prop := t.nanos = 0

instance (t : Timestamp) : Decidable t.OnMillisecond := inferInstanceAs (Decidable (_ ∧ _))

instance (t : Timestamp) : Decidable t.OnSecond := inferInstanceAs (Decidable (_ = _))

theorem make?_self (t : Timestamp) : make? t.seconds t.nanos = some t :=
  dif_pos ⟨t.first_le, t.lt_end, t.nanos_lt, t.leap_at_end⟩

/-- The number of milliseconds takes the timestamp apart again. -/
theorem ofMillis?_millis (h : t.OnMillisecond) : ofMillis? t.millis = some t := by
  obtain ⟨noLeap, whole⟩ := h
  simp only [nanosPerSecond] at noLeap
  have seconds : t.millis.fdiv 1000 = t.seconds := by
    rw [Int.fdiv_eq_ediv_of_nonneg _ (by decide), millis]
    omega
  have nanos : (t.millis.fmod 1000).toNat * 1000000 = t.nanos := by
    rw [Int.fmod_eq_emod_of_nonneg _ (by decide), millis]
    omega
  rw [ofMillis?, seconds, nanos, make?_self]

theorem ofSeconds?_seconds (h : t.OnSecond) : ofSeconds? t.seconds = some t := by
  rw [OnSecond] at h
  rw [ofSeconds?, ← h, make?_self]

/-- The bounds of the calendar in seconds. -/
theorem calendar_bounds :
    Day.first * secondsPerDay = -8334601228800 ∧ (Day.last + 1) * secondsPerDay = 8210266876800 := by
  decide

/-- A timestamp of parts in bounds has these parts. -/
theorem make?_eq_some {seconds : Int} {nanos : Nat} :
    make? seconds nanos = some t ↔ t.seconds = seconds ∧ t.nanos = nanos := by
  constructor
  · intro h
    unfold make? at h
    split at h
    · cases h
      exact ⟨rfl, rfl⟩
    · cases h
  · rintro ⟨rfl, rfl⟩
    exact make?_self t

/-- The first millisecond of the calendar. -/
def firstMilli : Int := Day.first * secondsPerDay * 1000

/-- The millisecond after the last one of the calendar. -/
def endMilli : Int := (Day.last + 1) * secondsPerDay * 1000

/-- A count of milliseconds in the calendar is that of a timestamp. -/
theorem exists_ofMillis?_iff {n : Int} :
    (∃ t, ofMillis? n = some t) ↔ firstMilli ≤ n ∧ n < endMilli := by
  obtain ⟨first, last⟩ := calendar_bounds
  have quotient : n.fdiv 1000 = n / 1000 := Int.fdiv_eq_ediv_of_nonneg _ (by decide)
  have rest : n.fmod 1000 = n % 1000 := Int.fmod_eq_emod_of_nonneg _ (by decide)
  rw [ofMillis?, quotient, rest]
  simp only [make?_eq_some, firstMilli, endMilli, first, last]
  constructor
  · rintro ⟨t, seconds, -⟩
    have lo := t.first_le
    have hi := t.lt_end
    omega
  · rintro ⟨lo, hi⟩
    exact ⟨⟨n / 1000, (n % 1000).toNat * 1000000, by omega, by omega,
      by rw [nanosPerSecond]; omega, by rw [nanosPerSecond]; omega⟩, rfl, rfl⟩

/-- The timestamp of a count of milliseconds has that count. -/
theorem millis_of_ofMillis? {n : Int} (h : ofMillis? n = some t) : t.millis = n := by
  have quotient : n.fdiv 1000 = n / 1000 := Int.fdiv_eq_ediv_of_nonneg _ (by decide)
  have rest : n.fmod 1000 = n % 1000 := Int.fmod_eq_emod_of_nonneg _ (by decide)
  rw [ofMillis?, quotient, rest] at h
  obtain ⟨seconds, nanos⟩ := make?_eq_some.mp h
  rw [millis, seconds, nanos]
  omega

/-- A count of seconds of thirty-two bits is that of a timestamp. -/
theorem exists_ofSeconds? {n : Int} (h : Number.Fits 32 n) :
    ∃ t : Timestamp, t.seconds = n ∧ t.OnSecond := by
  obtain ⟨first, last⟩ := calendar_bounds
  rw [Number.Fits] at h
  exact ⟨⟨n, 0, by omega, by omega, by decide, fun leap => absurd leap (by decide)⟩, rfl, rfl⟩

/-- The calendar ends long before the milliseconds run out of bits. -/
theorem toInt_millis (t : Timestamp) : (BitVec.ofInt 64 t.millis).toInt = t.millis := by
  obtain ⟨first, last⟩ := calendar_bounds
  have lo := t.first_le
  have hi := t.lt_end
  have nanos := t.nanos_lt
  rw [first] at lo
  rw [last] at hi
  simp only [nanosPerSecond] at nanos
  apply BitVec.toInt_ofInt_eq_self (by decide) <;> rw [millis] <;> omega

end Timestamp

/-! ### The standard notation -/

/-- A year is written in visible characters, and at least one. -/
theorem exists_yearChars (year : Int) :
    ∃ c r, yearChars .zero year = c :: r ∧ Text.isBlank c = false := by
  have visible : ∀ c ∈ yearChars .zero year, Text.isBlank c = false := by
    intro c hc
    simp only [yearChars, paddedInt, List.mem_append] at hc
    obtain (sign | zero) | digit := hc
    · split at sign
      · rw [List.mem_singleton.mp sign]
        rfl
      · split at sign
        · rw [List.mem_singleton.mp sign]
          rfl
        · cases sign
    · rw [List.eq_of_mem_replicate zero]
      rfl
    · exact Number.isBlank_of_mem_toDigits digit
  have nonempty : yearChars .zero year ≠ [] := by
    simp [yearChars, paddedInt, Nat.toDigits_ne_nil]
  obtain ⟨c, r, chars⟩ := List.exists_cons_of_ne_nil nonempty
  exact ⟨c, r, chars, visible c (chars ▸ List.mem_cons_self)⟩

theorem endsVisibly_digit (k : Nat) : Text.EndsVisibly [Char.ofNat (48 + k % 10)] := by
  have visible : ∀ n < 10, Text.isBlank (Char.ofNat (48 + n)) = false := by decide
  exact ⟨[], _, rfl, visible _ (Nat.mod_lt k (by decide))⟩

theorem endsVisibly_twoChars (pad : Pad) (n : Nat) : Text.EndsVisibly (twoChars pad n) := by
  unfold twoChars
  split
  · exact endsVisibly_digit n
  · exact (endsVisibly_digit n).append [' ']
  · exact (endsVisibly_digit n).append [_]

theorem endsVisibly_fractionChars (digits nanos : Nat) :
    Text.EndsVisibly (fractionChars digits nanos) := by
  have number := Text.endsVisibly_of_visible Nat.toDigits_ne_nil fun _ hc =>
    Number.isBlank_of_mem_toDigits (n := nanos / 10 ^ (9 - digits)) hc
  exact number.append _

/-- Behind something visible a fraction, or none, is visible too. -/
theorem endsVisibly_append_shortestFraction {s : List Char} (hs : Text.EndsVisibly s)
    (nanos : Nat) : Text.EndsVisibly (s ++ shortestFraction nanos) := by
  unfold shortestFraction
  split
  · rwa [List.append_nil]
  have pointed (digits : Nat) : Text.EndsVisibly (s ++ '.' :: fractionChars digits nanos) :=
    ((endsVisibly_fractionChars digits nanos).append ['.']).append s
  split
  · exact pointed 3
  · split
    · exact pointed 6
    · exact pointed 9

/-- The standard notation starts with the year and ends with the seconds and their fraction. -/
theorem Timestamp.text_toList (t : Timestamp) :
    ∃ middle, t.text.toList = yearChars .zero t.day.year ++ middle ++
      twoChars .zero (t.second + t.nanos / nanosPerSecond) ++ shortestFraction t.fraction := by
  refine ⟨'-' :: twoChars .zero t.day.civil.month ++ '-' :: twoChars .zero t.day.civil.day ++
    ' ' :: twoChars .zero t.hour ++ ':' :: twoChars .zero t.minute ++ [':'], ?_⟩
  simp [Timestamp.text, writeItems?, standardItems, PatternItem.clock, PatternItem.zeros,
    PatternItem.write?, NumberField.write, TextField.write?]

/-- The text of a timestamp has no blanks at its ends. -/
theorem Timestamp.trim_text (t : Timestamp) : Text.trim t.text.toList = t.text.toList := by
  obtain ⟨middle, text⟩ := t.text_toList
  obtain ⟨c, r, year, visible⟩ := exists_yearChars t.day.year
  have ends := endsVisibly_append_shortestFraction
    ((endsVisibly_twoChars .zero (t.second + t.nanos / nanosPerSecond)).append
      (yearChars .zero t.day.year ++ middle)) t.fraction
  rw [← text] at ends
  rw [year, List.cons_append, List.cons_append, List.cons_append] at text
  rw [text] at ends ⊢
  exact Text.trim_of_ends visible ends

end Relmap.Calendar
