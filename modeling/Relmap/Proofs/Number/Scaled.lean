import Relmap.Number.Scaled
import Relmap.Proofs.Number.Digits

/-!
# The text of a decimal reads back

`Scaled.read?_text`: a decimal is read from its text again, with all of its places, unless it is a
negative zero, which reads as a zero without a sign. The reader takes the digits before the point
and then the places, and as the whole coefficient fits it never has to cut anything off.
-/

namespace Relmap.Number

/-! ### Runs of digits -/

/-- A digit more makes a run of digits worth no less. -/
theorem le_foldl_digits (n : Nat) (s : List Char) :
    n ≤ s.foldl (fun n c => 10 * n + digitValue c) n := by
  induction s generalizing n with
  | nil => exact Nat.le_refl n
  | cons c s ih =>
    have more := ih (10 * n + digitValue c)
    rw [List.foldl_cons]
    omega

theorem digitsValue_append (s t : List Char) :
    digitsValue (s ++ t) = t.foldl (fun n c => 10 * n + digitValue c) (digitsValue s) :=
  List.foldl_append

theorem digitsValue_zeros (n : Nat) : digitsValue (List.replicate n '0') = 0 := by
  induction n with
  | zero => rfl
  | succ n ih => rw [List.replicate_succ', digitsValue_append, ih]; rfl

namespace Scaled

variable {negative : Bool} {s r : List Char} {a scale : Nat}

/-! ### Reading digits that fit -/

/-- Digits before the point. -/
theorem readDigits?_whole {started : Bool} (digits : ∀ c ∈ s, isDigit c = true)
    (fits : s.foldl (fun n c => 10 * n + digitValue c) a < limit) (filled : s ≠ [] ∨ started = true) :
    readDigits? negative a 0 false started (s ++ r) =
      readDigits? negative (s.foldl (fun n c => 10 * n + digitValue c) a) 0 false true r := by
  induction s generalizing a started with
  | nil =>
    obtain rfl : started = true := filled.resolve_left fun h => h rfl
    rfl
  | cons c s ih =>
    have digit : isDigit c = true := digits c List.mem_cons_self
    have small := Nat.lt_of_le_of_lt (le_foldl_digits (10 * a + digitValue c) s) fits
    rw [List.cons_append, readDigits?, if_pos digit]
    simp only [Nat.not_le_of_lt small, if_false, Bool.false_eq_true, false_and]
    exact ih (fun d hd => digits d (List.mem_cons_of_mem c hd)) fits (.inr rfl)

/-- Places after the point, up to the last one a decimal can have. -/
theorem readDigits?_places (digits : ∀ c ∈ s, isDigit c = true)
    (fits : s.foldl (fun n c => 10 * n + digitValue c) a < limit)
    (room : scale + s.length ≤ maxScale) :
    readDigits? negative a scale true true s =
      ofText? negative (s.foldl (fun n c => 10 * n + digitValue c) a) (scale + s.length) := by
  induction s generalizing a scale with
  | nil => rfl
  | cons c s ih =>
    have digit : isDigit c = true := digits c List.mem_cons_self
    have small := Nat.lt_of_le_of_lt (le_foldl_digits (10 * a + digitValue c) s) fits
    rw [List.length_cons] at room
    rw [readDigits?, if_pos digit]
    simp only [if_true, Nat.not_le_of_lt small, if_false, true_and]
    by_cases full : maxScale ≤ scale + 1
    · -- This was the last place, so nothing is left that could be cut off.
      obtain rfl : s = [] := List.length_eq_zero_iff.mp (by omega)
      rw [if_pos full]
      simp [cutOff?]
    · rw [if_neg full, ih (fun d hd => digits d (List.mem_cons_of_mem c hd)) fits (by omega)]
      rw [List.foldl_cons, List.length_cons, Nat.add_assoc, Nat.add_comm 1]

/-- A sign of its own is split off. -/
theorem splitSign_sign (negative : Bool) (hs : ∀ c ∈ s.head?, isDigit c = true) :
    Binary.splitSign ((if negative then ['-'] else []) ++ s) = (negative, s) := by
  cases negative with
  | true => rfl
  | false =>
    have unsigned : ∀ c ∈ s.head?, c ≠ '+' ∧ c ≠ '-' := by
      intro c hc
      constructor <;> rintro rfl <;> exact absurd (hs _ hc) (by decide)
    simp only [Bool.false_eq_true, if_false, List.nil_append]
    unfold Binary.splitSign
    split
    · exact absurd rfl (unsigned '-' rfl).2
    · exact absurd rfl (unsigned '+' rfl).1
    · rfl

/-! ### The parts of a decimal -/

/-- The digits before the point of a decimal and its places, as they are written. -/
structure Parts (d : Scaled) (whole places : List Char) : Prop where
  plain : (Decimal.mk d.coefficient (-d.scale)).plain =
    whole ++ if d.scale = 0 then [] else '.' :: places
  whole_ne_nil : whole ≠ []
  length_places : places.length = d.scale
  isDigit : ∀ c ∈ whole ++ places, isDigit c = true
  value : digitsValue (whole ++ places) = d.coefficient

theorem exists_parts (d : Scaled) : ∃ whole places, d.Parts whole places := by
  let digits := Nat.toDigits 10 d.coefficient
  have number : ∀ c ∈ digits, Number.isDigit c = true := fun _ hc => isDigit_of_mem_toDigits hc
  by_cases none : d.scale = 0
  · refine ⟨digits, [], ?_, Nat.toDigits_ne_nil, none.symm, ?_, ?_⟩
    · simp [Decimal.plain, none, digits]
    · rwa [List.append_nil]
    · rw [List.append_nil, digitsValue_toDigits]
  · let filled := List.replicate (d.scale + 1 - digits.length) '0' ++ digits
    have long : d.scale + 1 ≤ filled.length := by
      rw [List.length_append, List.length_replicate]
      omega
    refine ⟨filled.take (filled.length - d.scale), filled.drop (filled.length - d.scale), ?_, ?_, ?_,
      ?_, ?_⟩
    · have below : ¬(0 : Int) ≤ -(d.scale : Int) := by omega
      simp only [Decimal.plain, if_neg below, if_neg none, Int.neg_neg, Int.toNat_natCast]
      rfl
    · exact List.ne_nil_of_length_pos (by rw [List.length_take]; omega)
    · rw [List.length_drop]
      omega
    · rw [List.take_append_drop]
      intro c hc
      rcases List.mem_append.mp hc with zero | digit
      · rw [List.eq_of_mem_replicate zero]
        rfl
      · exact number c digit
    · rw [List.take_append_drop, digitsValue_append, digitsValue_zeros]
      exact digitsValue_toDigits d.coefficient

variable {d : Scaled}

theorem text_toList (d : Scaled) : d.text.toList = (if d.negative then ['-'] else []) ++
    (Decimal.mk d.coefficient (-d.scale)).plain := String.toList_ofList

/-- The reader gets through the digits and the places of a decimal without cutting anything off. -/
theorem readDigits?_plain (d : Scaled) :
    readDigits? d.negative 0 0 false false (Decimal.mk d.coefficient (-d.scale)).plain =
      ofText? d.negative d.coefficient d.scale := by
  obtain ⟨whole, places, parts⟩ := d.exists_parts
  have digits := List.forall_mem_append.mp parts.isDigit
  have value := parts.value
  rw [digitsValue_append] at value
  have fits := d.coefficient_lt
  rw [← value] at fits
  have start := Nat.lt_of_le_of_lt (le_foldl_digits _ places) fits
  rw [parts.plain, readDigits?_whole digits.1 start (.inl parts.whole_ne_nil)]
  by_cases none : d.scale = 0
  · obtain rfl : places = [] := List.length_eq_zero_iff.mp (parts.length_places.trans none)
    rw [if_pos none, none]
    exact congrArg (ofText? d.negative · 0) value
  · have point : isDigit '.' = false := by decide
    rw [if_neg none, readDigits?, if_neg (by simp [point]), if_pos (by simp)]
    have room : 0 + places.length ≤ maxScale := by
      rw [parts.length_places, Nat.zero_add]
      exact d.scale_le
    have read := @readDigits?_places d.negative places _ 0 digits.2 fits room
    rw [value, parts.length_places, Nat.zero_add] at read
    exact read

/-- The decimal without the sign of a zero. -/
def unsignZero (d : Scaled) : Scaled := { d with negative := d.negative && d.coefficient != 0 }

/-- The text of a decimal is read as the decimal, but for the sign of a zero. -/
theorem read?_text_unsigned (d : Scaled) : read? d.text.toList = some d.unsignZero := by
  obtain ⟨whole, places, parts⟩ := d.exists_parts
  have first : ∀ c ∈ (Decimal.mk d.coefficient (-d.scale)).plain.head?, isDigit c = true := by
    intro c hc
    rw [parts.plain, List.head?_append_of_ne_nil _ parts.whole_ne_nil] at hc
    exact parts.isDigit c (List.mem_append_left _ (List.mem_of_head? hc))
  have plain : readPlain? d.text.toList = some d.unsignZero := by
    rw [readPlain?, text_toList, splitSign_sign d.negative first]
    change readDigits? d.negative 0 0 false false _ = some d.unsignZero
    rw [readDigits?_plain, ofText?, make?, dif_pos ⟨d.coefficient_lt, d.scale_le⟩]
    rfl
  rw [read?, plain]
  rfl

theorem unsignZero_eq_self_iff : d.unsignZero = d ↔ (d.coefficient = 0 → d.negative = false) := by
  obtain ⟨negative, coefficient, scale, coefficient_lt, scale_le⟩ := d
  simp only [unsignZero, mk.injEq, and_true]
  cases negative <;> simp

/-- The sign of a zero shows in the text. -/
theorem text_unsignZero_iff : d.unsignZero.text = d.text ↔ d.unsignZero = d := by
  refine ⟨fun h => ?_, congrArg text⟩
  have chars := congrArg String.toList h
  rw [text_toList, text_toList] at chars
  have sign := List.append_cancel_right chars
  obtain ⟨negative, coefficient, scale, coefficient_lt, scale_le⟩ := d
  simp only [unsignZero, mk.injEq, and_true] at sign ⊢
  cases negative with
  | false => rfl
  | true => simpa using sign

/-- A decimal is read from its text, if it is not a negative zero. -/
theorem read?_text (h : d.coefficient = 0 → d.negative = false) :
    read? d.text.toList = some d := by
  rw [read?_text_unsigned, unsignZero_eq_self_iff.mpr h]

/-- The text of a decimal has no blanks. -/
theorem trim_text (d : Scaled) : Text.trim d.text.toList = d.text.toList := by
  obtain ⟨whole, places, parts⟩ := d.exists_parts
  apply Text.trim_of_visible
  intro c hc
  rw [text_toList, parts.plain] at hc
  have digit : c ∈ whole ++ places → Text.isBlank c = false := fun hc =>
    isBlank_of_isDigit (parts.isDigit c hc)
  rcases List.mem_append.mp hc with sign | hc
  · split at sign
    · rw [List.mem_singleton.mp sign]
      rfl
    · cases sign
  rcases List.mem_append.mp hc with hc | hc
  · exact digit (List.mem_append_left _ hc)
  split at hc
  · cases hc
  rcases List.mem_cons.mp hc with rfl | hc
  · rfl
  · exact digit (List.mem_append_right _ hc)

/-! ### Whole numbers -/

/-- A decimal without places is written as the whole number it is. -/
theorem text_ofLong (n : Word 64) : (ofLong n).text = intText n.toInt := by
  rw [← String.toList_inj, text_toList]
  show (if decide (n.toInt < 0) = true then ['-'] else []) ++
    (Decimal.mk n.toInt.natAbs (-(0 : Nat))).plain = _
  cases n.toInt with
  | ofNat k => simp [Decimal.plain, intText, natText]
  | negSucc k => simp [Decimal.plain, intText, natText]

/-- The text of a whole number is read as the decimal without places. -/
theorem read?_intText (n : Word 64) : read? (intText n.toInt).toList = some (ofLong n) := by
  rw [← text_ofLong]
  apply read?_text
  intro zero
  have none : n.toInt.natAbs = 0 := zero
  show decide (n.toInt < 0) = false
  rw [Int.natAbs_eq_zero.mp none]
  rfl

end Scaled

end Relmap.Number
