import Mathlib.Algebra.Order.Field.Power
import Mathlib.Data.Rat.Cast.Order
import Mathlib.Tactic.FieldSimp
import Mathlib.Tactic.Linarith
import Mathlib.Tactic.NormNum
import Mathlib.Tactic.Positivity
import Mathlib.Tactic.Ring
import Relmap.Json.Token
import Relmap.Json.Write
import Relmap.Proofs.Number.IntText
import Relmap.Proofs.Number.Scaled

/-!
# The texts of numbers in JSON
-/

namespace Relmap.Json

open Number (Binary BinaryFormat Decimal Double digitsValue digitValue intText natText isDigit)

/-! ### Digits in a significand -/

/-- Digits that have room are all taken. -/
theorem addDigits_of_lt {n : Nat} {s : List Char}
    (h : s.foldl (fun n c => 10 * n + digitValue c) n < naturalLimit) :
    addDigits n s = (s.foldl (fun n c => 10 * n + digitValue c) n, 0) := by
  induction s generalizing n with
  | nil => rfl
  | cons c s ih =>
    have hnext : 10 * n + (c.toNat - 48) < naturalLimit :=
      Nat.lt_of_le_of_lt (Number.le_foldl_digits (10 * n + digitValue c) s) h
    rw [addDigits, if_pos hnext]
    exact ih h

/-- Digits that have no room are not made up for. -/
theorem addDigits_le (n : Nat) (s : List Char) :
    (addDigits n s).2 ≤ s.length ∧ (addDigits n s).1 * 10 ^ (addDigits n s).2 ≤
      s.foldl (fun n c => 10 * n + digitValue c) n := by
  induction s generalizing n with
  | nil => exact ⟨Nat.le_refl 0, by simp [addDigits]⟩
  | cons c s ih =>
    rw [addDigits]
    split
    · obtain ⟨hlength, hvalue⟩ := ih (10 * n + (c.toNat - 48))
      exact ⟨Nat.le_succ_of_le hlength, hvalue⟩
    · refine ⟨Nat.le_refl _, ?_⟩
      have hvalue : (c :: s).foldl (fun n c => 10 * n + digitValue c) n =
          10 ^ (c :: s).length * n + digitsValue (c :: s) :=
        Nat.ofDigitChars_eq_ofDigitChars_zero
      rw [hvalue, List.length_cons, Nat.mul_comm]
      exact Nat.le_add_right _ _

/-! ### The parts of a number -/

/-- The digits before a point: at least one, and none of them a needless zero. -/
def IsWhole (s : List Char) : Prop :=
  (∀ c ∈ s, isDigit c = true) ∧ (s = ['0'] ∨ s ≠ [] ∧ s.head? ≠ some '0')

section

variable {s t r : List Char}

theorem takeWhile_digits (h : ∀ c ∈ s, isDigit c = true) (hr : ∀ c ∈ r.head?, isDigit c = false) :
    (s ++ r).takeWhile isDigit = s ∧ (s ++ r).dropWhile isDigit = r := by
  have hnone : r.takeWhile isDigit = [] ∧ r.dropWhile isDigit = r := by
    cases r with
    | nil => exact ⟨rfl, rfl⟩
    | cons c r =>
      have hc : ¬isDigit c = true := by simp [hr c rfl]
      exact ⟨List.takeWhile_cons_of_neg hc, List.dropWhile_cons_of_neg hc⟩
  rw [List.takeWhile_append_of_pos h, List.dropWhile_append_of_pos h, hnone.1, hnone.2,
    List.append_nil]
  exact ⟨rfl, rfl⟩

/-- A number with places. -/
theorem splitNumber?_point (hs : IsWhole s) (ht : ∀ c ∈ t, isDigit c = true)
    (hne : t ≠ []) (hr : ∀ c ∈ r.head?, isDigit c = false) :
    splitNumber? (s ++ '.' :: (t ++ r)) =
      (readExponent? r).map fun e => (s, t, e) := by
  have hpoint := takeWhile_digits (r := '.' :: (t ++ r)) hs.1 (by simp; decide)
  have hrest := takeWhile_digits ht hr
  have hplace : t.isEmpty = false := by simpa using hne
  unfold splitNumber?
  simp only [hpoint.1, hpoint.2, hrest.1, hrest.2, hplace, if_neg (not_not.mpr hs.2),
    Bool.false_eq_true, if_false]

/-- A number without places. -/
theorem splitNumber?_whole (hs : IsWhole s)
    (hr : ∀ c ∈ r.head?, isDigit c = false ∧ c ≠ '.') :
    splitNumber? (s ++ r) = (readExponent? r).map fun e => (s, [], e) := by
  have hparts := takeWhile_digits hs.1 fun c hc => (hr c hc).1
  unfold splitNumber?
  simp only [hparts.1, hparts.2, if_neg (not_not.mpr hs.2)]
  split
  · exact absurd rfl (hr '.' rfl).2
  · rfl

end

/-- The exponent of a number, with its sign. -/
theorem readExponent?_signed (point : ℤ) :
    readExponent? ('e' :: (if 0 < point then ['+'] else []) ++ (intText (point - 1)).toList) =
      some (some (point - 1)) := by
  have hread : Number.readInt? ((if 0 < point then ['+'] else []) ++ (intText (point - 1)).toList) =
      some (point - 1) := by
    split
    · rename_i hpositive
      obtain ⟨n, hn⟩ := Int.eq_ofNat_of_zero_le (a := point - 1) (by omega)
      have htext : (intText n).toList = Nat.toDigits 10 n := by simp [intText, natText]
      rw [hn, htext, List.singleton_append, Number.readInt?, Number.readNat?_toDigits]
      rfl
    · exact Number.readInt?_intText (point - 1)
  rw [List.cons_append, readExponent?, if_pos (.inl rfl), hread]
  rfl

/-- A text is read as the digits of a decimal around a point, with an exponent. -/
def Spells (body : List Char) (d : Decimal) : Prop :=
  ∃ whole places e, splitNumber? body = some (whole, places, e) ∧
    digitsValue whole < naturalLimit ∧
    (digitsValue (whole ++ places) * 10 ^ (e.getD 0 - places.length : ℤ) : ℚ) =
      d.digits * 10 ^ d.exponent

theorem lt_naturalLimit {s : List Char} (hs : ∀ c ∈ s, isDigit c = true) (hlength : s.length ≤ 16) :
    digitsValue s < naturalLimit :=
  calc digitsValue s < 10 ^ s.length := Number.digitsValue_lt hs
    _ ≤ 10 ^ 16 := Nat.pow_le_pow_right (by decide) hlength
    _ < naturalLimit := by decide

section

variable {digits : List Char} {d : Decimal}

/-- The digits of a number in front of a point, filled up with zeros. -/
theorem spells_integral (hdigits : ∀ c ∈ digits, isDigit c = true) (hne : digits ≠ [])
    (hstart : digits.head? ≠ some '0') (hvalue : digitsValue digits = d.digits)
    (hexponent : 0 ≤ d.exponent) (hpoint : digits.length + d.exponent ≤ 16) :
    Spells (digits ++ List.replicate d.exponent.toNat '0' ++ ['.', '0']) d := by
  obtain ⟨zeros, hzeros⟩ := Int.eq_ofNat_of_zero_le hexponent
  rw [hzeros, Int.toNat_natCast]
  have hall : ∀ c ∈ digits ++ List.replicate zeros '0', isDigit c = true :=
    List.forall_mem_append.mpr ⟨hdigits, fun c hc => List.eq_of_mem_replicate hc ▸ rfl⟩
  have hwhole : IsWhole (digits ++ List.replicate zeros '0') :=
    ⟨hall, .inr ⟨by simp [hne], by rwa [List.head?_append_of_ne_nil _ hne]⟩⟩
  have hsplit := splitNumber?_point hwhole (t := ['0']) (r := []) (List.all_eq_true.mp rfl)
    (List.cons_ne_nil _ _) nofun
  refine ⟨_, _, _, hsplit, lt_naturalLimit hall ?_, ?_⟩
  · rw [List.length_append, List.length_replicate]
    omega
  · rw [Number.digitsValue_append_eq, Number.digitsValue_append_eq, Number.digitsValue_zeros, hvalue,
      List.length_replicate, hzeros]
    have hzero : digitsValue ['0'] = 0 := rfl
    rw [hzero]
    simp

/-- The digits of a number around a point. -/
theorem spells_within (hdigits : ∀ c ∈ digits, isDigit c = true)
    (hstart : digits.head? ≠ some '0') (hvalue : digitsValue digits = d.digits) {point : Nat}
    (hpoint : (point : ℤ) = digits.length + d.exponent) (hlow : 0 < point) (hhigh : point ≤ 16)
    (hexponent : d.exponent < 0) :
    Spells (digits.take point ++ '.' :: digits.drop point) d := by
  have htake : (digits.take point).length = point := by
    rw [List.length_take]
    omega
  have hall : ∀ c ∈ digits.take point, isDigit c = true := fun c hc =>
    hdigits c (List.mem_of_mem_take hc)
  have hne : digits.drop point ≠ [] := by
    rw [Ne, List.drop_eq_nil_iff]
    omega
  have hwhole : IsWhole (digits.take point) := by
    refine ⟨hall, .inr ⟨?_, ?_⟩⟩
    · rw [← List.length_pos_iff, htake]
      exact hlow
    · rwa [List.head?_take, if_neg (by omega)]
  have hsplit := splitNumber?_point hwhole (r := []) (t := digits.drop point)
    (fun c hc => hdigits c (List.mem_of_mem_drop hc)) hne nofun
  rw [List.append_nil] at hsplit
  refine ⟨_, _, _, hsplit, lt_naturalLimit hall (by omega), ?_⟩
  have hpower : (0 - (digits.drop point).length : ℤ) = d.exponent := by
    rw [List.length_drop]
    omega
  rw [List.take_append_drop, hvalue, Option.getD_none, hpower]

/-- The digits of a number after the point and zeros. -/
theorem spells_small (hdigits : ∀ c ∈ digits, isDigit c = true) (hne : digits ≠ [])
    (hvalue : digitsValue digits = d.digits) {zeros : Nat}
    (hzeros : (-zeros : ℤ) = digits.length + d.exponent) :
    Spells (['0', '.'] ++ List.replicate zeros '0' ++ digits) d := by
  have hall : ∀ c ∈ List.replicate zeros '0' ++ digits, isDigit c = true :=
    List.forall_mem_append.mpr ⟨fun c hc => List.eq_of_mem_replicate hc ▸ rfl, hdigits⟩
  have hsplit := splitNumber?_point (s := ['0']) ⟨List.all_eq_true.mp rfl, .inl rfl⟩ hall
    (r := []) (by simp [hne]) nofun
  rw [List.append_nil] at hsplit
  refine ⟨_, _, _, hsplit, by decide, ?_⟩
  have hpower : (0 - (List.replicate zeros '0' ++ digits).length : ℤ) = d.exponent := by
    rw [List.length_append, List.length_replicate]
    omega
  have hzero : digitsValue ['0'] = 0 := rfl
  rw [Option.getD_none, hpower, Number.digitsValue_append_eq, Number.digitsValue_append_eq,
    Number.digitsValue_zeros, hzero, hvalue]
  simp

section

variable {c : Char} {exponent : List Char} (hexponent : readExponent? exponent =
  some (some (digits.length + d.exponent - 1))) (hmark : ∀ c ∈ exponent.head?, c = 'e')
include hexponent hmark

/-- The only digit of a number, and an exponent. -/
theorem spells_digit (hdigits : ∀ c ∈ digits, isDigit c = true) (hstart : digits.head? ≠ some '0')
    (hvalue : digitsValue digits = d.digits) (hone : digits = [c]) :
    Spells (c :: exponent) d := by
  subst hone
  have hsplit := splitNumber?_whole (r := exponent) ⟨hdigits, .inr ⟨List.cons_ne_nil _ _, hstart⟩⟩
    fun c hc => by
      rw [hmark c hc]
      exact ⟨rfl, by decide⟩
  rw [hexponent] at hsplit
  refine ⟨_, _, _, hsplit, lt_naturalLimit hdigits (by simp), ?_⟩
  rw [List.append_nil, hvalue]
  simp

/-- The first digit of a number, the others after the point, and an exponent. -/
theorem spells_digits (hdigits : ∀ c ∈ digits, isDigit c = true) (hstart : digits.head? ≠ some '0')
    (hvalue : digitsValue digits = d.digits) (hmany : 1 < digits.length) :
    Spells (digits.take 1 ++ '.' :: digits.drop 1 ++ exponent) d := by
  have hlength : (digits.take 1).length = 1 := by
    rw [List.length_take]
    omega
  have hall : ∀ c ∈ digits.take 1, isDigit c = true := fun c hc =>
    hdigits c (List.mem_of_mem_take hc)
  have hwhole : IsWhole (digits.take 1) := by
    refine ⟨hall, .inr ⟨?_, ?_⟩⟩
    · rw [← List.length_pos_iff, hlength]
      exact Nat.one_pos
    · rwa [List.head?_take, if_neg Nat.one_ne_zero]
  have hne : digits.drop 1 ≠ [] := by
    rw [Ne, List.drop_eq_nil_iff]
    omega
  have hsplit := splitNumber?_point hwhole (r := exponent)
    (fun c hc => hdigits c (List.mem_of_mem_drop hc)) hne fun c hc => by
      rw [hmark c hc]
      rfl
  rw [hexponent] at hsplit
  rw [List.append_assoc, List.cons_append]
  refine ⟨_, _, _, hsplit, lt_naturalLimit hall (by omega), ?_⟩
  have hpower : (digits.length + d.exponent - 1 - (digits.drop 1).length : ℤ) = d.exponent := by
    rw [List.length_drop]
    omega
  rw [List.take_append_drop, hvalue, Option.getD_some, hpower]

end

end

/-- The text of a decimal spells it. -/
theorem spells_decimalText {d : Decimal} (hd : 0 < d.digits) : Spells (decimalText d) d := by
  have hdigits (c : Char) : c ∈ Nat.toDigits 10 d.digits → isDigit c = true :=
    Number.isDigit_of_mem_toDigits
  have hne : Nat.toDigits 10 d.digits ≠ [] := Nat.toDigits_ne_nil
  have hstart := Number.head?_toDigits_ne_zero hd
  have hvalue := Number.digitsValue_toDigits d.digits
  unfold decimalText
  dsimp only
  generalize Nat.toDigits 10 d.digits = digits at hdigits hne hstart hvalue ⊢
  split
  · rename_i h
    exact spells_integral hdigits hne hstart hvalue h.1 h.2
  · split
    · exact spells_within hdigits hstart hvalue (by omega) (by omega) (by omega) (by omega)
    · split
      · exact spells_small hdigits hne hvalue (by omega)
      · have hexponent := readExponent?_signed (digits.length + d.exponent)
        split
        · exact spells_digit hexponent (by simp) hdigits hstart hvalue rfl
        · rename_i hmany
          refine spells_digits hexponent (by simp) hdigits hstart hvalue ?_
          obtain ⟨c, ds, rfl⟩ := List.exists_cons_of_ne_nil hne
          cases ds with
          | nil => exact absurd rfl (hmany c)
          | cons d ds => exact Nat.succ_lt_succ (Nat.succ_pos _)

end Relmap.Json
