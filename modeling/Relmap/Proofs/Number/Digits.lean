import Relmap.Number.Word
import Relmap.Proofs.Text.Trim

/-!
# Digits of natural numbers

The decimal text of a natural number is a run of digits, and the run is worth that number
(`digitsValue_toDigits`).
-/

namespace Relmap.Number

theorem isDigit_of_mem_toDigits {c : Char} {n : Nat} (h : c ∈ Nat.toDigits 10 n) :
    isDigit c = true := by
  have hc : c.isDigit = true := Nat.isDigit_of_mem_toDigits (by decide) (by decide) h
  simpa [isDigit, Char.isDigit, Char.le_def] using hc

theorem digitsValue_toDigits (n : Nat) : digitsValue (Nat.toDigits 10 n) = n :=
  Nat.ofDigitChars_ten_toDigits

/-- The value of two runs of digits after each other. -/
theorem digitsValue_append_eq (s t : List Char) :
    digitsValue (s ++ t) = digitsValue s * 10 ^ t.length + digitsValue t := by
  rw [Nat.mul_comm]
  exact (Nat.ofDigitChars_append 0).trans Nat.ofDigitChars_eq_ofDigitChars_zero

theorem digitValue_le {c : Char} (h : isDigit c = true) : digitValue c ≤ 9 := by
  have hhigh : c.toNat ≤ 57 := by
    simp [isDigit, Char.le_def] at h
    exact h.2
  rw [digitValue]
  omega

theorem digitsValue_lt {s : List Char} (h : ∀ c ∈ s, isDigit c = true) :
    digitsValue s < 10 ^ s.length := by
  induction s with
  | nil => decide
  | cons c s ih =>
    obtain ⟨hc, hs⟩ := List.forall_mem_cons.mp h
    have hvalue : digitsValue (c :: s) = digitValue c * 10 ^ s.length + digitsValue s := by
      rw [← List.singleton_append, digitsValue_append_eq]
      simp [digitsValue]
    have hfirst := Nat.mul_le_mul_right (10 ^ s.length) (digitValue_le hc)
    have hrest := ih hs
    rw [hvalue, List.length_cons, Nat.pow_succ]
    omega

/-- The text of a positive number does not start with a zero. -/
theorem head?_toDigits_ne_zero {n : Nat} (hn : 0 < n) : (Nat.toDigits 10 n).head? ≠ some '0' := by
  induction n using Nat.strongRecOn with
  | _ n ih =>
    by_cases hsmall : n < 10
    · rw [Nat.toDigits_of_lt_base hsmall, List.head?_cons]
      simpa using Nat.pos_iff_ne_zero.mp hn
    · rw [Nat.toDigits_of_base_le (by decide) (Nat.not_lt.mp hsmall),
        List.head?_append_of_ne_nil _ Nat.toDigits_ne_nil]
      exact ih (n / 10) (by omega) (by omega)

/-- A digit is no blank. -/
theorem isBlank_of_isDigit {c : Char} (h : isDigit c = true) : Text.isBlank c = false := by
  have hlo : 48 ≤ c.toNat := by simp [isDigit, Char.le_def] at h; exact h.1
  have hhi : c.toNat ≤ 57 := by simp [isDigit, Char.le_def] at h; exact h.2
  exact Text.isBlank_of_graphic (by omega) (by omega)

end Relmap.Number
