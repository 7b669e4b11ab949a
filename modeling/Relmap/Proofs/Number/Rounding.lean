import Mathlib.Algebra.Order.Field.Power
import Mathlib.Data.Rat.Cast.Order
import Mathlib.Tactic.FieldSimp
import Mathlib.Tactic.Linarith
import Mathlib.Tactic.NormNum
import Mathlib.Tactic.Positivity
import Mathlib.Tactic.Ring
import Relmap.Number.Binary

/-!
# Rounding to a binary format

What `ofRatio` makes of a quotient, measured against the quotient itself as a rational number
(`exists_ofRatio`): it is finite up to half a step above the largest number of the format
(`isFinite_ofRatio`), and where it has all bits of the significand it is larger than the quotient by
half a step at most (`magnitude_ofRatio_le`). Products round in the same way (`isFinite_mul`).
-/

namespace Relmap.Number.Binary

variable {f : BinaryFormat}

/-- A finite number without its sign. -/
def magnitude (x : Binary f) : ℚ := x.significand * 2 ^ x.power

theorem magnitude_nonneg (x : Binary f) : 0 ≤ x.magnitude := by
  unfold magnitude
  positivity

/-! ### Quotients -/

theorem roundQuotient_bounds (num : Nat) {den : Nat} (hden : 0 < den) :
    2 * num ≤ (2 * roundQuotient num den + 1) * den ∧
      2 * roundQuotient num den * den ≤ 2 * num + den := by
  have hsum : den * (num / den) + num % den = num := Nat.div_add_mod num den
  have hrem : num % den < den := Nat.mod_lt num hden
  have hfloor : den * (num / den) = num / den * den := Nat.mul_comm _ _
  unfold roundQuotient
  dsimp only
  split
  · constructor <;> simp only [Nat.add_mul, Nat.mul_assoc] <;> omega
  · constructor <;> simp only [Nat.add_mul, Nat.mul_add, Nat.mul_assoc] <;> omega

/-- A quotient is rounded by no more than a half. -/
theorem abs_roundQuotient_sub_le (num : Nat) {den : Nat} (hden : 0 < den) :
    |(roundQuotient num den : ℚ) - num / den| ≤ 1 / 2 := by
  obtain ⟨hlow, hhigh⟩ := roundQuotient_bounds num hden
  have hpos : (0 : ℚ) < den := by exact_mod_cast hden
  have hlow' : (2 * num : ℚ) ≤ (2 * roundQuotient num den + 1) * den := by exact_mod_cast hlow
  have hhigh' : (2 * roundQuotient num den * den : ℚ) ≤ 2 * num + den := by exact_mod_cast hhigh
  rw [abs_le]
  constructor
  · have : (num : ℚ) / den ≤ roundQuotient num den + 1 / 2 := by
      rw [div_le_iff₀ hpos]
      linarith
    linarith
  · have : (roundQuotient num den : ℚ) - 1 / 2 ≤ num / den := by
      rw [le_div_iff₀ hpos]
      linarith
    linarith

/-- A power with its exponent in two parts, of which one is zero. -/
theorem zpow_eq_div {b : ℚ} (hb : b ≠ 0) (q : ℤ) : b ^ q = b ^ q.toNat / b ^ (-q).toNat := by
  have hq : q = q.toNat - (-q).toNat := by omega
  conv_lhs => rw [hq]
  rw [zpow_sub₀ hb, zpow_natCast, zpow_natCast]

/-- A quotient with the powers of two of an exponent is the quotient by that power. -/
theorem scaled_div (num den : Nat) (q : ℤ) :
    ((num * 2 ^ (-q).toNat : Nat) : ℚ) / (den * 2 ^ q.toNat : Nat) = num / den / 2 ^ q := by
  rw [zpow_eq_div (by norm_num)]
  push_cast
  field_simp

/-! ### Codes -/

theorem topExponent_lt : f.topExponent < 2 ^ f.exponentBits :=
  Nat.sub_lt (Nat.two_pow_pos _) Nat.one_pos

/-- The codes of finite numbers are those before the one of infinity. -/
theorem isFinite_ofCode_iff {negative : Bool} {code : Nat} :
    (ofCode f negative code).isFinite = true ↔ code < f.topExponent * 2 ^ f.fractionBits := by
  have htop := topExponent_lt (f := f)
  by_cases hcode : f.topExponent * 2 ^ f.fractionBits ≤ code
  · rw [ofCode, if_pos hcode]
    simp [isFinite, infinity, Nat.mod_eq_of_lt htop, hcode]
  · have hexponent : code / 2 ^ f.fractionBits < f.topExponent :=
      (Nat.div_lt_iff_lt_mul (Nat.two_pow_pos _)).mpr (not_le.mp hcode)
    rw [ofCode, if_neg hcode]
    simp [isFinite, Nat.mod_eq_of_lt (hexponent.trans htop), hexponent, not_le.mp hcode]

/-- The number whose code is a significand after so many whole ranges of significands: the carry
out of a significand that is one too great runs into the exponent. -/
theorem magnitude_ofCode {negative : Bool} {m k : Nat} (hm : m ≤ 2 ^ (f.fractionBits + 1))
    (hk : k = 0 ∨ 2 ^ f.fractionBits ≤ m)
    (hcode : m + k * 2 ^ f.fractionBits < f.topExponent * 2 ^ f.fractionBits) :
    (ofCode f negative (m + k * 2 ^ f.fractionBits)).magnitude = m * 2 ^ (f.leastPower + k) := by
  have htop := topExponent_lt (f := f)
  have hpos : 0 < 2 ^ f.fractionBits := Nat.two_pow_pos _
  have hexponent : (m + k * 2 ^ f.fractionBits) / 2 ^ f.fractionBits < 2 ^ f.exponentBits :=
    ((Nat.div_lt_iff_lt_mul hpos).mpr hcode).trans htop
  rw [ofCode, if_neg (not_le.mpr hcode)]
  rw [Nat.add_mul_div_right _ _ hpos] at hexponent ⊢
  unfold magnitude significand power
  dsimp only
  have hzero : BitVec.ofNat f.exponentBits (m / 2 ^ f.fractionBits + k) = 0 ↔
      m / 2 ^ f.fractionBits + k = 0 := by
    rw [← BitVec.toNat_inj, BitVec.toNat_ofNat, Nat.mod_eq_of_lt hexponent]
    simp
  have hfraction : (BitVec.ofNat f.fractionBits (m + k * 2 ^ f.fractionBits)).toNat =
      m % 2 ^ f.fractionBits := by
    rw [BitVec.toNat_ofNat, Nat.add_mul_mod_self_right]
  simp only [hzero, hfraction, BitVec.toNat_ofNat, Nat.mod_eq_of_lt hexponent]
  rw [Nat.pow_succ] at hm
  by_cases hless : m < 2 ^ f.fractionBits
  · obtain rfl : k = 0 := hk.resolve_right (not_le.mpr hless)
    simp [Nat.div_eq_of_lt hless, Nat.mod_eq_of_lt hless]
  · obtain ⟨r, rfl⟩ := Nat.exists_eq_add_of_le (not_lt.mp hless)
    by_cases hcarry : r = 2 ^ f.fractionBits
    · subst hcarry
      have hdiv : (2 ^ f.fractionBits + 2 ^ f.fractionBits) / 2 ^ f.fractionBits = 2 := by
        rw [Nat.add_div_right _ hpos, Nat.div_self hpos]
      have hmod : (2 ^ f.fractionBits + 2 ^ f.fractionBits) % 2 ^ f.fractionBits = 0 := by simp
      have hpower : f.leastPower + (2 + k : Nat) - 1 = f.leastPower + k + 1 := by omega
      rw [hdiv, hmod, if_neg (by omega), if_neg (by omega), hpower, zpow_add_one₀ (by norm_num)]
      push_cast
      ring
    · have hr : r < 2 ^ f.fractionBits := by omega
      have hdiv : (2 ^ f.fractionBits + r) / 2 ^ f.fractionBits = 1 := by
        rw [Nat.add_div_left _ hpos, Nat.div_eq_of_lt hr]
      have hmod : (2 ^ f.fractionBits + r) % 2 ^ f.fractionBits = r := by
        rw [Nat.add_mod_left, Nat.mod_eq_of_lt hr]
      have hpower : f.leastPower + (1 + k : Nat) - 1 = f.leastPower + k := by omega
      rw [hdiv, hmod, if_neg (by omega), if_neg (by omega), hpower]

/-! ### Ratios -/

theorem two_zpow_log2_le {n : Nat} (hn : 0 < n) : (2 : ℚ) ^ (n.log2 : ℤ) ≤ n := by
  rw [zpow_natCast]
  exact_mod_cast Nat.log2_self_le (Nat.pos_iff_ne_zero.mp hn)

theorem lt_two_zpow_log2 (n : Nat) : (n : ℚ) < 2 ^ (n.log2 + 1 : ℤ) := by
  have h : n < 2 ^ (n.log2 + 1) := Nat.lt_log2_self
  exact_mod_cast h

/-- A quotient is as large as its terms have bits, or almost. -/
theorem ratio_bounds {num den : Nat} (hnum : 0 < num) (hden : 0 < den) :
    (2 : ℚ) ^ (num.log2 - den.log2 - 1 : ℤ) ≤ num / den ∧
      (num / den : ℚ) < 2 ^ (num.log2 - den.log2 + 1 : ℤ) := by
  have hnum' : (0 : ℚ) < num := by exact_mod_cast hnum
  have hden' : (0 : ℚ) < den := by exact_mod_cast hden
  have htwo : (2 : ℚ) ≠ 0 := by norm_num
  constructor
  · have hsplit : (num.log2 - den.log2 - 1 : ℤ) = num.log2 - (den.log2 + 1) := by omega
    rw [hsplit, zpow_sub₀ htwo]
    exact div_le_div₀ hnum'.le (two_zpow_log2_le hnum) hden' (lt_two_zpow_log2 den).le
  · have hsplit : (num.log2 - den.log2 + 1 : ℤ) = num.log2 + 1 - den.log2 := by omega
    rw [hsplit, zpow_sub₀ htwo]
    exact div_lt_div₀ (lt_two_zpow_log2 num) (two_zpow_log2_le hden) (by positivity) (by positivity)

theorem two_pow_mul_zpow (n : Nat) (q : ℤ) : (2 : ℚ) ^ n * 2 ^ q = 2 ^ (n + q) := by
  rw [zpow_add₀ (by norm_num), zpow_natCast]

/-- The guess at the power of two is right or one too large. -/
theorem step_bounds {x : ℚ} {n : Nat} {q : ℤ} (hlow : 2 ^ (q + n - 1) ≤ x)
    (hhigh : x < 2 ^ (q + n + 1)) {low : Prop} [Decidable low] (hguess : low ↔ x < 2 ^ n * 2 ^ q) :
    2 ^ n * 2 ^ (if low then q - 1 else q) ≤ x ∧
      x < 2 ^ (n + 1) * 2 ^ (if low then q - 1 else q) := by
  rw [two_pow_mul_zpow] at hguess
  rw [two_pow_mul_zpow, two_pow_mul_zpow]
  split
  · rename_i h
    have hsame : ((n + 1 : Nat) + (q - 1) : ℤ) = n + q := by omega
    have hless : (n + (q - 1) : ℤ) = q + n - 1 := by omega
    rw [hsame, hless]
    exact ⟨hlow, hguess.mp h⟩
  · rename_i h
    have hmore : ((n + 1 : Nat) + q : ℤ) = q + n + 1 := by omega
    rw [hmore]
    exact ⟨not_lt.mp (mt hguess.mpr h), hhigh⟩

/-- What is rounded up to no more than a significand is below the next one. -/
theorem lt_of_abs_sub_le {m n : Nat} {x : ℚ} (h : |(m : ℚ) - x| ≤ 1 / 2) (hx : x < n - 1 / 2) :
    m < n := by
  have hm : (m : ℚ) < n := by linarith [(abs_le.mp h).2]
  exact_mod_cast hm

/-- A quotient rounded to `m` steps of the power of two that is `k` above the least: one that gives
all bits of the significand, or the least itself. -/
structure Rounded (f : BinaryFormat) (x : ℚ) (k m : Nat) : Prop where
  least : k = 0 ∨ 2 ^ f.fractionBits * 2 ^ (f.leastPower + k) ≤ x
  most : m ≤ 2 ^ (f.fractionBits + 1)
  error : |(m : ℚ) - x / 2 ^ (f.leastPower + k)| ≤ 1 / 2

/-- A positive quotient is rounded so. -/
theorem exists_ofRatio (f : BinaryFormat) (negative : Bool) {num den : Nat} (hnum : 0 < num)
    (hden : 0 < den) : ∃ k m, Rounded f (num / den) k m ∧
      ofRatio f negative num den = ofCode f negative (m + k * 2 ^ f.fractionBits) := by
  obtain ⟨hlow, hhigh⟩ := ratio_bounds hnum hden
  rw [ofRatio, if_neg (by omega)]
  dsimp only
  generalize hguess : (num.log2 : ℤ) - den.log2 - f.fractionBits = guess
  have hbelow (q : ℤ) : num * 2 ^ (-q).toNat < 2 ^ f.fractionBits * (den * 2 ^ q.toNat) ↔
      (num / den : ℚ) < 2 ^ f.fractionBits * 2 ^ q := by
    have hpos : (0 : ℚ) < (den * 2 ^ q.toNat : Nat) := by positivity
    rw [← div_lt_iff₀ (by positivity), ← scaled_div, div_lt_iff₀ hpos]
    exact_mod_cast Iff.rfl
  obtain ⟨hleast, hmost⟩ := step_bounds (n := f.fractionBits) (q := guess)
    (by rwa [show guess + f.fractionBits - 1 = (num.log2 - den.log2 - 1 : ℤ) by omega])
    (by rwa [show guess + f.fractionBits + 1 = (num.log2 - den.log2 + 1 : ℤ) by omega])
    (hbelow guess)
  generalize (if num * 2 ^ (-guess).toNat < 2 ^ f.fractionBits * (den * 2 ^ guess.toNat) then
    guess - 1 else guess) = step at hleast hmost ⊢
  have hpower : f.leastPower + (max step f.leastPower - f.leastPower).toNat =
      max step f.leastPower := by omega
  have hscaled : 0 < den * 2 ^ (max step f.leastPower).toNat := by positivity
  have herror := abs_roundQuotient_sub_le (num * 2 ^ (-max step f.leastPower).toNat) hscaled
  rw [scaled_div] at herror
  refine ⟨_, _, ⟨?_, ?_, by rwa [hpower]⟩, rfl⟩
  · rw [hpower]
    rcases le_total step f.leastPower with h | h
    · exact .inl (by omega)
    · rw [max_eq_left h]
      exact .inr hleast
  · refine Nat.lt_succ_iff.mp (lt_of_abs_sub_le herror ?_)
    have hless : (num / den : ℚ) < 2 ^ (f.fractionBits + 1) * 2 ^ max step f.leastPower := by
      refine hmost.trans_le ?_
      gcongr
      · norm_num
      · exact le_max_left _ _
    rw [← div_lt_iff₀ (by positivity)] at hless
    push_cast
    linarith

section

variable {negative : Bool} {num den : Nat}

/-- A quotient is rounded to a finite number if it is more than half a step below the number that
would come after the largest one. -/
theorem isFinite_ofRatio (htop : 2 ≤ f.topExponent) (hden : 0 < den)
    (hx : (num / den : ℚ) < (2 ^ (f.fractionBits + 1) - 1 / 2) *
      2 ^ (f.leastPower + f.topExponent - 2)) :
    (ofRatio f negative num den).isFinite = true := by
  rcases Nat.eq_zero_or_pos num with rfl | hnum
  · rw [ofRatio, if_pos (.inl rfl)]
    simpa [isFinite, zero] using Nat.zero_lt_of_lt htop
  obtain ⟨k, m, hrounded, hcode⟩ := exists_ofRatio f negative hnum hden
  have hmost := hrounded.most
  have hpos : 0 < 2 ^ f.fractionBits := Nat.two_pow_pos _
  rw [hcode, isFinite_ofCode_iff]
  rw [Nat.pow_succ] at hmost
  rcases lt_trichotomy (k + 2) f.topExponent with hk | hk | hk
  · have hroom : (k + 3) * 2 ^ f.fractionBits ≤ f.topExponent * 2 ^ f.fractionBits :=
      Nat.mul_le_mul_right _ hk
    simp only [Nat.add_mul] at hroom
    omega
  · -- At the largest power of two the significand must not be rounded up to a carry.
    have hless : m < 2 ^ (f.fractionBits + 1) := by
      refine lt_of_abs_sub_le hrounded.error ?_
      rw [div_lt_iff₀ (by positivity)]
      have hsame : (f.leastPower + f.topExponent - 2 : ℤ) = f.leastPower + k := by omega
      rw [hsame] at hx
      exact_mod_cast hx
    rw [Nat.pow_succ] at hless
    rw [← hk, Nat.add_mul]
    omega
  · exfalso
    have hlarge := hrounded.least.resolve_left (by omega)
    have hsmall : (2 : ℚ) ^ (f.leastPower + f.topExponent - 2) ≤ 2 ^ (f.leastPower + k - 1) := by
      refine zpow_le_zpow_right₀ (by norm_num) ?_
      omega
    have hless : (num / den : ℚ) < 2 ^ (f.fractionBits + 1) * 2 ^ (f.leastPower + k - 1) := by
      refine hx.trans_le ?_
      gcongr
      linarith
    rw [zpow_sub_one₀ (by norm_num), pow_succ] at hless
    linarith

/-- A rounded quotient is larger by half a step of the significand at most, if it has all bits. -/
theorem magnitude_ofRatio_le (hnum : 0 < num) (hden : 0 < den)
    (hx : 2 ^ f.fractionBits * 2 ^ f.leastPower ≤ (num / den : ℚ))
    (hfinite : (ofRatio f negative num den).isFinite = true) :
    (ofRatio f negative num den).magnitude ≤
      num / den * (1 + 1 / 2 ^ (f.fractionBits + 1)) := by
  obtain ⟨k, m, hrounded, hcode⟩ := exists_ofRatio f negative hnum hden
  have hlarge : 2 ^ f.fractionBits * 2 ^ (f.leastPower + k) ≤ (num / den : ℚ) := by
    rcases hrounded.least with rfl | h
    · simpa using hx
    · exact h
  obtain ⟨hlow, hhigh⟩ := abs_le.mp hrounded.error
  have hstep : (0 : ℚ) < 2 ^ (f.leastPower + k) := by positivity
  have hbits : 2 ^ f.fractionBits < m + 1 := by
    have h : (2 : ℚ) ^ f.fractionBits ≤ num / den / 2 ^ (f.leastPower + k) := by
      rwa [le_div_iff₀ hstep]
    have hm : (2 : ℚ) ^ f.fractionBits < m + 1 := by linarith
    exact_mod_cast hm
  rw [hcode] at hfinite ⊢
  rw [isFinite_ofCode_iff] at hfinite
  rw [magnitude_ofCode hrounded.most (.inr (Nat.lt_succ_iff.mp hbits)) hfinite]
  calc (m : ℚ) * 2 ^ (f.leastPower + k)
      ≤ (num / den / 2 ^ (f.leastPower + k) + 1 / 2) * 2 ^ (f.leastPower + k) := by
        gcongr
        linarith
    _ = num / den + 2 ^ (f.leastPower + k) / 2 := by field_simp
    _ ≤ num / den + num / den * (1 / 2 ^ (f.fractionBits + 1)) := by
        gcongr
        rw [mul_one_div, le_div_iff₀ (by positivity), pow_succ]
        linarith
    _ = num / den * (1 + 1 / 2 ^ (f.fractionBits + 1)) := by ring

end

/-- A product is rounded like the product of the magnitudes. -/
theorem isFinite_mul {x y : Binary f} (htop : 2 ≤ f.topExponent)
    (h : x.magnitude * y.magnitude < (2 ^ (f.fractionBits + 1) - 1 / 2) *
      2 ^ (f.leastPower + f.topExponent - 2)) : (x.mul y).isFinite = true := by
  refine isFinite_ofRatio htop (Nat.mul_pos Nat.one_pos (Nat.two_pow_pos _)) ?_
  have hratio : ((x.significand * y.significand * 2 ^ (x.power + y.power).toNat : Nat) : ℚ) /
      (1 * 2 ^ (-(x.power + y.power)).toNat : Nat) = x.magnitude * y.magnitude := by
    have hpower := zpow_eq_div (b := 2) (by norm_num) (x.power + y.power)
    rw [zpow_add₀ (by norm_num)] at hpower
    rw [magnitude, magnitude, mul_mul_mul_comm, hpower]
    push_cast
    rw [one_mul, mul_div_assoc]
  rwa [hratio]

end Relmap.Number.Binary
