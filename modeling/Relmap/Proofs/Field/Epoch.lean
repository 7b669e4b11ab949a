import Relmap.Proofs.Field.Column
import Relmap.Proofs.Field.RoundTrip

/-!
# Dates kept as numbers

A date can be kept as the number of whole milliseconds since 1970 or as that of whole seconds. Both
counts round down, before 1970 too, so they keep the order of the dates (`Epoch.count_mono`), and what
is read back is the latest date at a whole unit that is not after the one that was stored
(`Field.epoch_rounds_down`).

A date and the last whole unit up to it (`Epoch.floor`) have the same count, so the same number is
stored for both, and the latter comes back from it. Milliseconds always fit their number; seconds do
from 1901 to 2038.
-/

namespace Relmap

open Calendar (Timestamp nanosPerSecond)
open Number (Fits toWord?)

namespace Calendar.Timestamp

/-- Nanoseconds since 1970. -/
def sinceEpoch (t : Timestamp) : Int := t.seconds * nanosPerSecond + t.nanos

/-- The timestamp is in no leap second. -/
def NoLeap (t : Timestamp) : Prop := t.nanos < nanosPerSecond

end Calendar.Timestamp

/-- The units in which dates are kept as numbers. -/
inductive Epoch
  | millis
  | seconds

namespace Epoch

/-- The nanoseconds of a unit. -/
def nanos : Epoch → Nat
  | .millis => 1000000
  | .seconds => nanosPerSecond

/-- The type of the dates that are counted in a unit. -/
def type : Epoch → DataType
  | .millis => .dateLong
  | .seconds => .dateInteger

def codec : Epoch → Codec
  | .millis => .dateLong
  | .seconds => .dateInteger

/-- The width of the number. -/
def width : Epoch → Width
  | .millis => .long
  | .seconds => .int

/-- The number of whole units since 1970, rounded down. -/
def count (u : Epoch) (t : Timestamp) : Int := t.sinceEpoch.fdiv u.nanos

/-- The timestamp is at a whole unit and in no leap second. -/
def On (u : Epoch) (t : Timestamp) : Prop := t.NoLeap ∧ t.nanos % u.nanos = 0

/-- `s` is the latest timestamp at a whole unit that is not after `t`. -/
structure Latest (u : Epoch) (t s : Timestamp) : Prop where
  on : u.On s
  le : s.sinceEpoch ≤ t.sinceEpoch
  latest : ∀ x, u.On x → x.sinceEpoch ≤ t.sinceEpoch → x.sinceEpoch ≤ s.sinceEpoch

/-- The whole units of a timestamp. -/
def floor (u : Epoch) (t : Timestamp) : Timestamp where
  seconds := t.seconds
  nanos := t.nanos / u.nanos * u.nanos
  first_le := t.first_le
  lt_end := t.lt_end
  nanos_lt := Nat.lt_of_le_of_lt (Nat.div_mul_le_self _ _) t.nanos_lt
  leap_at_end h := t.leap_at_end (Nat.le_trans h (Nat.div_mul_le_self _ _))

variable {u : Epoch} {s t : Timestamp}

/-! ### Counting -/

theorem nanos_pos (u : Epoch) : 0 < u.nanos := by cases u <;> decide

theorem count_eq_ediv (u : Epoch) (t : Timestamp) : u.count t = t.sinceEpoch / u.nanos :=
  Int.fdiv_eq_ediv_of_nonneg _ (Int.natCast_nonneg _)

/-- A later date has no smaller count. -/
theorem count_mono (u : Epoch) (h : s.sinceEpoch ≤ t.sinceEpoch) : u.count s ≤ u.count t := by
  rw [count_eq_ediv, count_eq_ediv]
  exact Int.ediv_le_ediv (Int.natCast_pos.mpr u.nanos_pos) h

theorem count_millis (t : Timestamp) : Epoch.millis.count t = t.millis := by
  rw [count_eq_ediv, Timestamp.sinceEpoch, Timestamp.millis, nanos, nanosPerSecond]
  omega

theorem count_seconds (noLeap : t.NoLeap) : Epoch.seconds.count t = t.seconds := by
  rw [Timestamp.NoLeap, nanosPerSecond] at noLeap
  rw [count_eq_ediv, Timestamp.sinceEpoch, nanos, nanosPerSecond]
  omega

/-! ### Whole units -/

theorem on_millis_iff : Epoch.millis.On t ↔ t.OnMillisecond := Iff.rfl

theorem on_seconds_iff : Epoch.seconds.On t ↔ t.OnSecond := by
  rw [On, Timestamp.NoLeap, Timestamp.OnSecond, nanos, nanosPerSecond]
  omega

/-- A timestamp at a whole unit is told by its count. -/
theorem On.sinceEpoch_eq (h : u.On t) : t.sinceEpoch = u.count t * u.nanos := by
  have whole := h.2
  rw [count_eq_ediv, Timestamp.sinceEpoch]
  cases u <;> simp only [nanos, nanosPerSecond] at whole ⊢ <;> omega

theorem on_floor (noLeap : t.NoLeap) : u.On (u.floor t) :=
  ⟨Nat.lt_of_le_of_lt (Nat.div_mul_le_self _ _) noLeap, Nat.mul_mod_left _ _⟩

/-- Whole units lose nothing that is counted. -/
theorem count_floor (u : Epoch) (t : Timestamp) : u.count (u.floor t) = u.count t := by
  rw [count_eq_ediv, count_eq_ediv, Timestamp.sinceEpoch, Timestamp.sinceEpoch, floor]
  cases u <;> simp only [nanos, nanosPerSecond] <;> omega

theorem latest_floor (noLeap : t.NoLeap) : u.Latest t (u.floor t) where
  on := on_floor noLeap
  le := by
    rw [(on_floor noLeap).sinceEpoch_eq, count_floor, count_eq_ediv]
    exact Int.ediv_mul_le _ (Int.natCast_ne_zero.mpr u.nanos_pos.ne')
  latest x hx before := by
    rw [hx.sinceEpoch_eq, (on_floor noLeap).sinceEpoch_eq, count_floor]
    exact Int.mul_le_mul_of_nonneg_right (u.count_mono before) (Int.natCast_nonneg _)

/-! ### Storing and reading -/

/-- The number of whole units as it is stored. -/
def stored (u : Epoch) (t : Timestamp) : Value := u.width.value (BitVec.ofInt _ (u.count t))

theorem fits_millis (t : Timestamp) : Fits Epoch.millis.width.bits (Epoch.millis.count t) := by
  rw [count_millis, ← t.toInt_millis]
  exact Number.fits_toInt _

variable {f : Field}

theorem toStored_eq (noLeap : t.NoLeap) :
    (Converter.plain u.codec).toStored f (.timestamp t) =
      if Fits u.width.bits (u.count t) then .ok (u.stored t)
      else .error (.conversion (.secondsTooWide f.name t.seconds)) := by
  cases u with
  | millis =>
    rw [if_pos (fits_millis t), stored, count_millis]
    rfl
  | seconds =>
    rw [stored, count_seconds noLeap]
    show (f.secondsWord t >>= fun n => pure (Value.int n)) = if Fits 32 t.seconds then _ else _
    rw [Field.secondsWord, toWord?]
    by_cases fits : Fits 32 t.seconds
    · rw [if_pos fits, if_pos fits]
      rfl
    · rw [if_neg fits, if_neg fits]
      rfl

/-- The number that is stored is the count. -/
theorem toInt_of_toStored {n : Number.Word u.width.bits} (noLeap : t.NoLeap)
    (h : (Converter.plain u.codec).toStored f (.timestamp t) = .ok (u.width.value n)) :
    n.toInt = u.count t := by
  rw [toStored_eq noLeap] at h
  split at h
  next fits =>
    have same := congrArg Value.integer? (Except.ok.inj h)
    rw [stored, Width.integer?_value, Width.integer?_value] at same
    rw [← Option.some.inj same, Number.toInt_ofInt_of_fits (by cases u <;> decide) fits]
  next => cases h

/-- A timestamp at a whole unit comes back from its count. -/
theorem keeps (on : u.On t) (fits : Fits u.width.bits (u.count t)) :
    (Converter.plain u.codec).Keeps f (.timestamp t) (u.stored t) := by
  cases u with
  | millis =>
    rw [stored, count_millis]
    exact Codec.keeps_dateLong (on_millis_iff.mp on)
  | seconds =>
    rw [count_seconds on.1] at fits
    rw [stored, count_seconds on.1]
    exact Codec.keeps_dateInteger (on_seconds_iff.mp on) fits

/-- What is stored for a timestamp gives its whole units. -/
theorem keeps_floor (noLeap : t.NoLeap) (fits : Fits u.width.bits (u.count t)) :
    (Converter.plain u.codec).Keeps f (.timestamp (u.floor t)) (u.stored t) := by
  have kept := keeps (f := f) (on_floor (u := u) noLeap) (by rwa [count_floor])
  rwa [stored, count_floor] at kept

end Epoch

/-- A column that holds what a codec stored for a value gives the value. -/
theorem Converter.Keeps.ofColumn {c : Codec} {f : Field} {v w : Value} {r : Results}
    {position : Nat} (kept : (Converter.plain c).Keeps f v w) (hc : c.wire ≠ .single)
    (hget : r.get position = .ok w) : (Converter.plain c).ofColumn f r position = .ok v := by
  have carried : c.wire.Carries w := Codec.toStored_carries kept.stores
  have read : (Converter.plain c).readStored r position = .ok w :=
    (c.readStored_eq_read r position).trans (Wire.read_self hc carried hget)
  exact (Converter.ofColumn_eq_ok hget kept.nonnull).mpr ⟨w, read, kept.gives position⟩

/-! ### Fields -/

namespace Field

variable {u : Epoch} {d : FieldDecl} {dialect : Dialect} {f : Field}

theorem converter_of_epoch (built : d.toField dialect = .ok f) (type : d.type = u.type) :
    f.converter = .plain u.codec := by
  have codec : d.type.codec? = some u.codec := by
    rw [type]
    cases u <;> rfl
  rw [FieldDecl.converter_of_toField built codec]
  cases u <;> rfl

/-- **Dates kept as numbers round down and keep their order.** A field of milliseconds stores every
date, one of seconds those whose seconds fit thirty-two bits and fails with a conversion for the
others. What is stored is the number of whole units, rounded down; directly or from a column it is
read as the latest date at a whole unit that is not after the stored one. No date is stored as a
smaller number than an earlier one. -/
theorem epoch_rounds_down (u : Epoch) (built : d.toField dialect = .ok f) (type : d.type = u.type) :
    (∀ t : Timestamp, t.NoLeap →
      (u = .millis → Fits u.width.bits (u.count t)) ∧
      (Fits u.width.bits (u.count t) → ∃ n s, f.toStored (.timestamp t) = .ok (u.width.value n) ∧
        n.toInt = u.count t ∧ u.Latest t s ∧
        (∀ position, f.ofStored (u.width.value n) position = .ok (.timestamp s)) ∧
        ∀ (r : Results) (position : Nat), r.get position = .ok (u.width.value n) →
          f.ofColumn r position = .ok (.timestamp s)) ∧
      (¬Fits u.width.bits (u.count t) → f.toStored (.timestamp t) =
        .error (.conversion (.secondsTooWide f.name t.seconds)))) ∧
    ∀ (t₁ t₂ : Timestamp) (n₁ n₂ : Number.Word u.width.bits), t₁.NoLeap → t₂.NoLeap →
      t₁.sinceEpoch ≤ t₂.sinceEpoch → f.toStored (.timestamp t₁) = .ok (u.width.value n₁) →
      f.toStored (.timestamp t₂) = .ok (u.width.value n₂) → n₁.toInt ≤ n₂.toInt := by
  have plain := converter_of_epoch built type
  have storing (t : Timestamp) :
      f.toStored (.timestamp t) = (Converter.plain u.codec).toStored f (.timestamp t) := by
    rw [toStored_of_nonnull rfl, plain]
  refine ⟨fun t noLeap => ⟨?_, fun fits => ?_, fun wide => ?_⟩,
    fun t₁ t₂ n₁ n₂ h₁ h₂ le s₁ s₂ => ?_⟩
  · rintro rfl
    exact Epoch.fits_millis t
  · have kept := Epoch.keeps_floor (f := f) noLeap fits
    have stored := Epoch.toStored_eq (f := f) (u := u) noLeap
    rw [if_pos fits] at stored
    refine ⟨_, u.floor t, (storing t).trans stored, Epoch.toInt_of_toStored noLeap stored,
      Epoch.latest_floor noLeap, fun position => ?_, fun r position hget => ?_⟩
    · rw [← Epoch.stored, ofStored_of_nonnull kept.nonnull, plain]
      exact kept.gives position
    · refine ofColumn_eq_ok.mpr ⟨?_, rfl⟩
      rw [plain]
      exact kept.ofColumn (by cases u <;> decide) hget
  · rw [storing, Epoch.toStored_eq noLeap, if_neg wide]
  · rw [storing] at s₁ s₂
    rw [Epoch.toInt_of_toStored h₁ s₁, Epoch.toInt_of_toStored h₂ s₂]
    exact u.count_mono le

/-- The last nanosecond before 1970 is kept as minus one millisecond and read as the start of that
millisecond. The first second that does not fit thirty-two bits is not stored. -/
theorem nanosecond_before_1970_rounds_down :
    ∃ (f g : Field) (t late s : Timestamp) (n : Number.Word 64),
    FieldDecl.toField { name := "at", type := .dateLong } .derby = .ok f ∧
    FieldDecl.toField { name := "at", type := .dateInteger } .derby = .ok g ∧
    t.seconds = -1 ∧ t.nanos = 999999999 ∧ late.seconds = 2147483648 ∧ late.nanos = 0 ∧
    f.toStored (.timestamp t) = .ok (.long n) ∧ n.toInt = -1 ∧ Epoch.millis.Latest t s ∧
    f.ofColumn (.ofRow [("at", .long n)]) 0 = .ok (.timestamp s) ∧
    g.toStored (.timestamp late) = .error (.conversion (.secondsTooWide g.name 2147483648)) := by
  obtain ⟨f, g, hf, hg⟩ : ∃ f g,
      FieldDecl.toField { name := "at", type := .dateLong } .derby = .ok f ∧
      FieldDecl.toField { name := "at", type := .dateInteger } .derby = .ok g :=
    ⟨_, _, rfl, rfl⟩
  obtain ⟨t, seconds, nanos⟩ : ∃ t : Timestamp, t.seconds = -1 ∧ t.nanos = 999999999 :=
    ⟨⟨-1, 999999999, by decide, by decide, by decide, by decide⟩, rfl, rfl⟩
  obtain ⟨late, lateSeconds, lateNanos⟩ :
      ∃ late : Timestamp, late.seconds = 2147483648 ∧ late.nanos = 0 :=
    ⟨⟨2147483648, 0, by decide, by decide, by decide, by decide⟩, rfl, rfl⟩
  have noLeap : t.NoLeap := by
    rw [Timestamp.NoLeap, nanos]
    decide
  have lateNoLeap : late.NoLeap := by
    rw [Timestamp.NoLeap, lateNanos]
    decide
  obtain ⟨fits, stores, -⟩ := (epoch_rounds_down .millis hf rfl).1 t noLeap
  obtain ⟨n, s, stored, number, latest, -, read⟩ := stores (fits rfl)
  have wide : ¬Fits 32 (Epoch.seconds.count late) := by
    rw [Epoch.count_seconds lateNoLeap, lateSeconds]
    decide
  have refused := ((epoch_rounds_down .seconds hg rfl).1 late lateNoLeap).2.2 wide
  rw [lateSeconds] at refused
  refine ⟨f, g, t, late, s, n, hf, hg, seconds, nanos, lateSeconds, lateNanos, stored,
    number.trans ?_, latest, read _ 0 rfl, refused⟩
  rw [Epoch.count_millis, Timestamp.millis, seconds, nanos]
  decide

end Field

end Relmap
