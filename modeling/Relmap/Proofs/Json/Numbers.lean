import Relmap.Proofs.Json.Depth
import Relmap.Proofs.Json.Numerals
import Relmap.Proofs.Number.Rounding
import Relmap.Proofs.Number.Shortest

/-!
# The numbers of JSON are read

The text of every number that is kept is read again (`Json.isSome_readNumber?_numberText`): whole
numbers because they fit, finite fractions because the shortest decimal of a fraction is not above
it by more than half a step, and what is read of a decimal is scaled by a power of ten with an error
of no more than two steps. Only the two largest fractions are so near to the end of the format that
they have to be looked at one by one. So the numbers in a value never keep it from being read back
(`Json.InRange.legible`).
-/

namespace Relmap

open Number (Binary BinaryFormat Decimal Double digitsValue digitValue intText natText isDigit)

namespace Json

/-! ### Scaling -/

/-- Up to here a decimal is read as a finite number, however the factors it is made of are
rounded. -/
def scalableBound : ℚ := (2 ^ 53 - 5 / 2) * 2 ^ 971

theorem scalableBound_lt : scalableBound < 10 ^ 309 := by
  have hpow : (2 : ℚ) ^ 1024 ≤ 10 ^ 309 := Binary.two_pow_le_ten_pow (by decide)
  have hsplit : (2 : ℚ) ^ 1024 = 2 ^ 53 * 2 ^ 971 := pow_add 2 53 971
  rw [hsplit] at hpow
  refine lt_of_lt_of_le ?_ hpow
  rw [scalableBound]
  gcongr
  norm_num

/-- Half a step above the largest finite number. -/
theorem overflow_double : ((2 ^ (BinaryFormat.double.fractionBits + 1) - 1 / 2) *
    2 ^ (BinaryFormat.double.leastPower + BinaryFormat.double.topExponent - 2) : ℚ) =
      (2 ^ 53 - 1 / 2) * 2 ^ 971 := by
  have hpower : BinaryFormat.double.leastPower + BinaryFormat.double.topExponent - 2 =
      (971 : Nat) := by decide
  have hbits : BinaryFormat.double.fractionBits + 1 = 53 := rfl
  rw [hpower, hbits, zpow_natCast]

/-- A whole number is rounded to one that is larger by half a step at most. -/
theorem magnitude_rounded_le {negative : Bool} {n : Nat} (hn : 0 < n)
    (hle : (n : ℚ) ≤ scalableBound) :
    (Binary.ofRatio .double negative n 1).magnitude ≤ n * (1 + 1 / 2 ^ 53) := by
  have hone : (1 : ℚ) ≤ n := by exact_mod_cast hn
  have hratio : (n : ℚ) / (1 : Nat) = n := by simp
  have hfinite : (Binary.ofRatio .double negative n 1).isFinite = true := by
    refine Binary.isFinite_ofRatio (by decide) Nat.one_pos ?_
    rw [overflow_double, hratio]
    refine hle.trans_lt ?_
    rw [scalableBound]
    gcongr
    norm_num
  have hnormal : (2 ^ BinaryFormat.double.fractionBits * 2 ^ BinaryFormat.double.leastPower : ℚ) ≤
      n / (1 : Nat) := by
    have hpower : (BinaryFormat.double.fractionBits : ℤ) + BinaryFormat.double.leastPower ≤ 0 := by
      decide
    rw [hratio, Binary.two_pow_mul_zpow]
    exact (zpow_le_one_of_nonpos₀ (by norm_num) hpower).trans hone
  have hle := Binary.magnitude_ofRatio_le hn Nat.one_pos hnormal hfinite
  rw [hratio] at hle
  exact hle

/-- The product with a power of ten is finite up to the bound. -/
theorem isFinite_mul_powerOfTen {m s : Nat} (hm : 0 < m) (hle : (m * 10 ^ s : ℚ) ≤ scalableBound) :
    ((Binary.ofInt .double m).mul (powerOfTen s)).isFinite = true := by
  have hone : (1 : ℚ) ≤ m := by exact_mod_cast hm
  have hten : (1 : ℚ) ≤ 10 ^ s := one_le_pow₀ (by norm_num)
  have hx : (Binary.ofInt .double m).magnitude ≤ m * (1 + 1 / 2 ^ 53) :=
    magnitude_rounded_le hm ((le_mul_of_one_le_right (by positivity) hten).trans hle)
  have hy : (powerOfTen s).magnitude ≤ (10 ^ s : Nat) * (1 + 1 / 2 ^ 53) := by
    refine magnitude_rounded_le (Nat.pow_pos (by decide)) ?_
    push_cast
    exact (le_mul_of_one_le_left (by positivity) hone).trans hle
  refine Binary.isFinite_mul (by decide) ?_
  rw [overflow_double]
  calc (Binary.ofInt .double m).magnitude * (powerOfTen s).magnitude
      ≤ m * (1 + 1 / 2 ^ 53) * ((10 ^ s : Nat) * (1 + 1 / 2 ^ 53)) := by
        gcongr
        exact Binary.magnitude_nonneg _
    _ = m * 10 ^ s * (1 + 1 / 2 ^ 53) ^ 2 := by
        push_cast
        ring
    _ ≤ scalableBound * (1 + 1 / 2 ^ 53) ^ 2 := by gcongr
    _ < (2 ^ 53 - 1 / 2) * 2 ^ 971 := by
        rw [scalableBound, mul_right_comm]
        gcongr
        norm_num

/-- A decimal up to the bound is read. -/
theorem isSome_scale? {m : Nat} {shift : ℤ}
    (h : 0 ≤ shift → (m * 10 ^ shift : ℚ) ≤ scalableBound) : (scale? m shift).isSome = true := by
  unfold scale?
  dsimp only
  split
  · rfl
  · rename_i hm
    split
    · rfl
    · rename_i hshift
      have hpos : 0 < m := Nat.pos_of_ne_zero hm
      have hone : (1 : ℚ) ≤ m := by exact_mod_cast hpos
      have hle := h (not_lt.mp hshift)
      obtain ⟨s, rfl⟩ := Int.eq_ofNat_of_zero_le (not_lt.mp hshift)
      rw [zpow_natCast] at hle
      have htable : ¬(308 : ℤ) < s := by
        intro hlarge
        have hpow : (10 : ℚ) ^ 309 ≤ 10 ^ s := pow_le_pow_right₀ (by norm_num) (by omega)
        have hpower : (10 : ℚ) ^ s ≤ m * 10 ^ s := le_mul_of_one_le_left (by positivity) hone
        exact absurd (hpow.trans (hpower.trans hle)) (not_le.mpr scalableBound_lt)
      rw [if_neg htable, Int.toNat_natCast, if_pos (isFinite_mul_powerOfTen hpos hle)]
      rfl

/-! ### Reading -/

/-- A number without its sign. -/
theorem unsigned_text {body : List Char} (hbody : ∀ c ∈ body.head?, c ≠ '-') (negative : Bool)
    {s : List Char} (hs : s = (if negative then ['-'] else []) ++ body) :
    (if s.head? = some '-' then s.drop 1 else s) = body := by
  subst hs
  cases negative with
  | true => rfl
  | false =>
    have hhead : body.head? ≠ some '-' := fun hc => hbody '-' hc rfl
    simp [hhead]

/-- What spells a decimal up to the bound is read as a number. -/
theorem isSome_readNumber? {s body : List Char} {d : Decimal}
    (hbody : (if s.head? = some '-' then s.drop 1 else s) = body) (h : Spells body d)
    (hd : (d.digits * 10 ^ d.exponent : ℚ) ≤ scalableBound) : (readNumber? s).isSome = true := by
  obtain ⟨whole, places, exponent, hsplit, hroom, hvalue⟩ := h
  have hwhole : addDigits 0 whole = (digitsValue whole, 0) := addDigits_of_lt hroom
  obtain ⟨hlength, hless⟩ := addDigits_le (digitsValue whole) places
  rw [← Number.digitsValue_append] at hless
  unfold readNumber?
  simp only [hbody, hsplit, hwhole]
  split
  · split
    · rfl
    · split <;> rfl
  · rw [Option.isSome_map]
    refine isSome_scale? fun _ => ?_
    -- Digits that have no room move the point, so what is scaled is never above the decimal.
    generalize addDigits (digitsValue whole) places = taken at hlength hless ⊢
    have hshift : ((0 : Nat) - (places.length - taken.2 : Nat) + exponent.getD 0 : ℤ) =
        taken.2 + (exponent.getD 0 - places.length) := by omega
    have hless' : (taken.1 * 10 ^ taken.2 : ℚ) ≤ digitsValue (whole ++ places) := by
      exact_mod_cast hless
    calc (taken.1 * 10 ^ ((0 : Nat) - (places.length - taken.2 : Nat) + exponent.getD 0 : ℤ) : ℚ)
        = taken.1 * 10 ^ taken.2 * 10 ^ (exponent.getD 0 - places.length : ℤ) := by
          rw [hshift, zpow_add₀ (by norm_num), zpow_natCast, mul_assoc]
      _ ≤ digitsValue (whole ++ places) * 10 ^ (exponent.getD 0 - places.length : ℤ) := by gcongr
      _ = d.digits * 10 ^ d.exponent := hvalue
      _ ≤ scalableBound := hd

/-! ### The numbers there are -/

theorem Spells.start {body : List Char} {d : Decimal} (h : Spells body d) :
    ∀ c ∈ body.head?, c ≠ '-' := by
  rintro c hc rfl
  obtain ⟨whole, places, exponent, hsplit, -⟩ := h
  obtain ⟨r, rfl⟩ : ∃ r, body = '-' :: r := by
    cases body with
    | nil => cases hc
    | cons c r => exact ⟨r, by rw [Option.some.inj hc]⟩
  have hnone : splitNumber? ('-' :: r) = none := by simp [splitNumber?, isDigit]
  cases hnone.symm.trans hsplit

/-- A whole number that fits is read, with a sign or without. -/
theorem isSome_readNumber?_digits {n : Nat} (hn : n < naturalLimit) {s : List Char}
    (hs : (if s.head? = some '-' then s.drop 1 else s) = Nat.toDigits 10 n) :
    (readNumber? s).isSome = true := by
  have hwhole : IsWhole (Nat.toDigits 10 n) := by
    refine ⟨fun _ => Number.isDigit_of_mem_toDigits, ?_⟩
    rcases Nat.eq_zero_or_pos n with rfl | hpos
    · exact .inl (Nat.toDigits_zero 10)
    · exact .inr ⟨Nat.toDigits_ne_nil, Number.head?_toDigits_ne_zero hpos⟩
  have hsplit : splitNumber? (Nat.toDigits 10 n) = some (Nat.toDigits 10 n, [], none) := by
    have h := splitNumber?_whole (r := []) hwhole nofun
    rwa [List.append_nil] at h
  have hvalue : (Nat.toDigits 10 n).foldl (fun n c => 10 * n + digitValue c) 0 = n :=
    Number.digitsValue_toDigits n
  have htaken : addDigits 0 (Nat.toDigits 10 n) = (n, 0) := by
    rw [addDigits_of_lt (by rwa [hvalue]), hvalue]
  unfold readNumber?
  simp only [hs, hsplit, htaken]
  split
  · split
    · rfl
    · split <;> rfl
  · rename_i h
    simp at h

theorem toDigits_start (n : Nat) : ∀ c ∈ (Nat.toDigits 10 n).head?, c ≠ '-' := by
  rintro c hc rfl
  have hdigit := Number.isDigit_of_mem_toDigits (List.mem_of_head? hc)
  exact absurd hdigit (by decide)

/-- The two largest numbers, which the bound for all others leaves out. -/
theorem isSome_readNumber?_largest {x : Double} (hexponent : x.exponent = 2046)
    (hfraction : x.fraction = 4503599627370494 ∨ x.fraction = 4503599627370495) :
    (readNumber? (fractionText x)).isSome = true := by
  obtain ⟨negative, exponent, fraction⟩ := x
  subst hexponent
  rcases hfraction with rfl | rfl <;> cases negative <;> decide +kernel

/-- A finite number is one of the two largest, or no decimal near it is above the bound. -/
theorem largest_or_le {x : Double} (hfinite : x.isFinite = true) :
    (x.exponent = 2046 ∧ (x.fraction = 4503599627370494 ∨ x.fraction = 4503599627370495)) ∨
      ((x.significand + 1 / 2) * 2 ^ x.power : ℚ) ≤ scalableBound := by
  have hexponent : x.exponent.toNat < 2047 := of_decide_eq_true hfinite
  have hsignificand : (x.significand + 1 : ℚ) ≤ 2 ^ 53 := by
    exact_mod_cast Binary.significand_lt x
  by_cases htop : x.exponent.toNat = 2046
  · have hne : x.exponent ≠ 0 := by
      intro h
      rw [h] at htop
      cases htop
    have hfraction : x.fraction.toNat < 2 ^ 52 := x.fraction.isLt
    by_cases hlarge : 2 ^ 52 - 2 ≤ x.fraction.toNat
    · refine .inl ⟨BitVec.eq_of_toNat_eq htop, ?_⟩
      rcases Nat.eq_or_lt_of_le hlarge with h | h
      · exact .inl (BitVec.eq_of_toNat_eq h.symm)
      · refine .inr (BitVec.eq_of_toNat_eq ?_)
        show x.fraction.toNat = 4503599627370495
        omega
    · right
      have hpower : x.power = (971 : Nat) := by
        rw [Binary.power, if_neg hne, htop]
        rfl
      have hsmall : x.significand ≤ 2 ^ 53 - 3 := by
        have hbits : 2 ^ BinaryFormat.double.fractionBits = 2 ^ 52 := rfl
        rw [Binary.significand, if_neg hne, hbits]
        omega
      have hsmall' : (x.significand : ℚ) ≤ 2 ^ 53 - 3 := by
        have h : (x.significand : ℚ) ≤ (2 ^ 53 - 3 : Nat) := by exact_mod_cast hsmall
        norm_num at h ⊢
        exact h
      rw [hpower, zpow_natCast, scalableBound]
      gcongr
      linarith
  · right
    have hpower : x.power ≤ (970 : Nat) := by
      have hleast : BinaryFormat.double.leastPower = -1074 := by decide
      rw [Binary.power, hleast]
      split <;> omega
    calc ((x.significand + 1 / 2) * 2 ^ x.power : ℚ)
        ≤ 2 ^ 53 * 2 ^ ((970 : Nat) : ℤ) := by
          gcongr
          · linarith
          · norm_num
      _ = 2 ^ 52 * 2 ^ 971 := by
          rw [zpow_natCast, ← pow_add, ← pow_add]
      _ ≤ scalableBound := by
          rw [scalableBound]
          gcongr
          norm_num

theorem isSome_readNumber?_fractionText {x : Double} (hfinite : x.isFinite = true) :
    (readNumber? (fractionText x)).isSome = true := by
  cases hzero : x.isZero with
  | true =>
    rw [fractionText, hzero, if_pos rfl]
    cases x.negative <;> decide
  | false =>
    rcases largest_or_le hfinite with ⟨hexponent, hfraction⟩ | hbound
    · exact isSome_readNumber?_largest hexponent hfraction
    · obtain ⟨hdigits, hle⟩ := Binary.shortest_bounds .toEven hfinite hzero
      have hspells := spells_decimalText hdigits
      refine isSome_readNumber? (unsigned_text hspells.start x.negative ?_) hspells
        (hle.trans hbound)
      rw [fractionText, hzero]
      rfl

end Json

/-- The numbers that are kept: whole ones of up to sixty-four bits, and finite fractions. -/
def JsonNumber.InRange : JsonNumber → Prop
  | .natural n => n < 2 ^ 64
  | .negative n => -2 ^ 63 ≤ n ∧ n < 0
  | .fraction x => x.isFinite = true

namespace Json

/-- **The text of a number is read**: in the search for its digits and in reading them again, no
factor gets too large for double precision. -/
theorem isSome_readNumber?_numberText {n : JsonNumber} (hn : n.InRange) :
    (readNumber? (numberText n)).isSome = true := by
  cases n with
  | natural n =>
    refine isSome_readNumber?_digits hn (unsigned_text (toDigits_start n) false ?_)
    simp [numberText, natText]
  | negative n =>
    cases n with
    | ofNat n => exact absurd hn.2 (by simp)
    | negSucc n =>
      have hroom : n + 1 < naturalLimit := by
        have hlow := hn.1
        have hlimit : naturalLimit = 2 ^ 64 := rfl
        omega
      refine isSome_readNumber?_digits hroom
        (unsigned_text (toDigits_start (n + 1)) true ?_)
      simp [numberText, intText, natText]
  | fraction x => exact isSome_readNumber?_fractionText hn

/-- All numbers in the value are kept. -/
def InRange : Json → Prop := EachNumber JsonNumber.InRange

/-- **The numbers of a value are read**, if they are those that are kept. -/
theorem InRange.legible {j : Json} (h : j.InRange) : j.Legible :=
  h.imp fun _ => isSome_readNumber?_numberText

end Json

end Relmap
