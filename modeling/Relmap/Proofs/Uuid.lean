import Relmap.Proofs.Text.Trim
import Relmap.Uuid

/-!
# The text of an identifier reads back

`Uuid.read?_text`: the grouped form that is written for an identifier is read as that identifier.
Hexadecimal digits in a fixed number are worth the number they write, and taking the hyphens out
undoes putting them in. No digit can be mistaken for the start of one of the other forms.
-/

namespace Relmap

namespace Text.Hex

variable {width n : Nat}

/-! ### Digits in a fixed number -/

theorem digit?_lowerDigit : ∀ k < 16, digit? (lowerDigit k) = some k := by decide

theorem isBlank_lowerDigit : ∀ k < 16, isBlank (lowerDigit k) = false := by decide

@[simp] theorem length_fixed (width n : Nat) : (fixed width n).length = width := by
  induction width generalizing n with
  | zero => rfl
  | succ w ih => simp [fixed, ih]

theorem exists_of_mem_fixed {c : Char} (h : c ∈ fixed width n) : ∃ k < 16, lowerDigit k = c := by
  induction width generalizing n with
  | zero => cases h
  | succ w ih =>
    rcases List.mem_append.mp h with high | low
    · exact ih high
    · exact ⟨n % 16, Nat.mod_lt _ (by decide), (List.mem_singleton.mp low).symm⟩

/-- The digits are worth the number they write, unless it is too large for them. -/
theorem foldl_fixed (hn : n < 16 ^ width) :
    (fixed width n).foldl (fun n c => do return 16 * (← n) + (← digit? c)) (some 0) = some n := by
  induction width generalizing n with
  | zero =>
    obtain rfl : n = 0 := Nat.lt_one_iff.mp hn
    rfl
  | succ w ih =>
    have high : n / 16 < 16 ^ w := Nat.div_lt_of_lt_mul (by rwa [Nat.mul_comm, ← Nat.pow_succ])
    have low : digit? (lowerDigit (n % 16)) = some (n % 16) :=
      digit?_lowerDigit _ (Nat.mod_lt n (by decide))
    rw [fixed, List.foldl_append, ih high, List.foldl_cons, List.foldl_nil, low]
    exact congrArg some (Nat.div_add_mod n 16)

theorem number?_fixed (hw : 0 < width) (hn : n < 16 ^ width) :
    number? (fixed width n) = some n := by
  have nonempty : ¬(fixed width n).isEmpty = true := by
    rw [List.isEmpty_iff_length_eq_zero, length_fixed]
    omega
  rw [number?, if_neg nonempty, foldl_fixed hn]

end Text.Hex

namespace Uuid

open Text.Hex (fixed lowerDigit)

variable {s : List Char}

/-! ### Hyphens -/

theorem hyphenate_cons_cons (n m : Nat) (ns : List Nat) (s : List Char) :
    hyphenate (n :: m :: ns) s = s.take n ++ '-' :: hyphenate (m :: ns) (s.drop n) := rfl

theorem dehyphenate?_append {g r t : List Char} {n m : Nat} {ns : List Nat} (hg : g.length = n)
    (hr : dehyphenate? (m :: ns) r = some t) :
    dehyphenate? (n :: m :: ns) (g ++ '-' :: r) = some (g ++ t) := by
  have rest : (g ++ '-' :: r).drop n = '-' :: r := by rw [← hg, List.drop_left]
  have first : (g ++ '-' :: r).take n = g := by rw [← hg, List.take_left]
  simp only [dehyphenate?, rest, first, hr, Option.map_some]

/-- Taking the hyphens out undoes putting them in, as long as the groups are full. -/
theorem dehyphenate?_hyphenate (ns : List Nat) (h : ns.foldr (· + ·) 0 ≤ s.length) :
    dehyphenate? ns (hyphenate ns s) = some s := by
  induction ns generalizing s with
  | nil => rfl
  | cons n ns ih =>
    cases ns with
    | nil => rfl
    | cons m ns =>
      rw [List.foldr_cons] at h
      have full : (s.take n).length = n := by rw [List.length_take]; omega
      have inner := ih (s := s.drop n) (by rw [List.length_drop]; omega)
      rw [hyphenate_cons_cons, dehyphenate?_append full inner, List.take_append_drop]

theorem length_hyphenate (n : Nat) (ns : List Nat) (h : (n :: ns).foldr (· + ·) 0 ≤ s.length) :
    (hyphenate (n :: ns) s).length = s.length + ns.length := by
  induction ns generalizing n s with
  | nil => rfl
  | cons m ns ih =>
    rw [List.foldr_cons] at h
    have inner := ih m (s := s.drop n) (by rw [List.length_drop]; omega)
    rw [hyphenate_cons_cons, List.length_append, List.length_cons, inner, List.length_take,
      List.length_drop, List.length_cons]
    omega

theorem mem_hyphenate {c : Char} (ns : List Nat) (h : c ∈ hyphenate ns s) : c = '-' ∨ c ∈ s := by
  induction ns generalizing s with
  | nil => exact .inr h
  | cons n ns ih =>
    cases ns with
    | nil => exact .inr h
    | cons m ns =>
      rcases List.mem_append.mp h with first | rest
      · exact .inr (List.mem_of_mem_take first)
      rcases List.mem_cons.mp rest with hyphen | rest
      · exact .inl hyphen
      · exact (ih rest).imp_right List.mem_of_mem_drop

/-! ### The grouped form -/

/-- The digits of an identifier. -/
def digits (u : Uuid) : List Char := fixed 32 u.value.toNat

@[simp] theorem length_digits (u : Uuid) : u.digits.length = 32 := Text.Hex.length_fixed _ _

theorem text_toList (u : Uuid) : u.text.toList = hyphenate groups u.digits := String.toList_ofList

theorem groups_fit (u : Uuid) : groups.foldr (· + ·) 0 ≤ u.digits.length := by rw [length_digits]; decide

theorem length_text (u : Uuid) : u.text.toList.length = 36 := by
  rw [text_toList, groups, length_hyphenate 8 [4, 4, 4, 12] u.groups_fit, length_digits]
  rfl

theorem readDigits?_digits (u : Uuid) : readDigits? u.digits = some u := by
  have value : Text.Hex.number? u.digits = some u.value.toNat :=
    Text.Hex.number?_fixed (by decide) (Nat.lt_of_lt_of_le u.value.isLt (by decide))
  rw [readDigits?, if_pos u.length_digits, value, Option.map_some, BitVec.ofNat_toNat,
    BitVec.setWidth_eq]

theorem readGrouped?_text (u : Uuid) : readGrouped? u.text.toList = some u := by
  rw [readGrouped?, if_pos u.length_text, text_toList, dehyphenate?_hyphenate _ u.groups_fit,
    Option.bind_some, readDigits?_digits]

/-- The text starts with a digit. -/
theorem text_eq_cons (u : Uuid) : ∃ k < 16, ∃ r, u.text.toList = lowerDigit k :: r := by
  obtain ⟨c, r, digits⟩ : ∃ c r, u.digits = c :: r :=
    List.exists_cons_of_length_eq_add_one u.length_digits
  obtain ⟨k, hk, rfl⟩ : ∃ k < 16, lowerDigit k = c :=
    Text.Hex.exists_of_mem_fixed (digits ▸ List.mem_cons_self : c ∈ u.digits)
  have text : u.text.toList = hyphenate groups (lowerDigit k :: r) := by rw [text_toList, digits]
  exact ⟨k, hk, r.take 7 ++ '-' :: hyphenate [4, 4, 4, 12] (r.drop 7), text⟩

/-- A text that starts with a digit has none of the marks of the longer forms. -/
theorem read?_of_lowerDigit {k : Nat} (hk : k < 16) (r : List Char) :
    read? (lowerDigit k :: r) =
      (readDigits? (lowerDigit k :: r) <|> readGrouped? (lowerDigit k :: r)) := by
  have brace : lowerDigit k ≠ '{' := by revert k; decide
  have letter : (lowerDigit k).toLower ≠ 'u' := by revert k; decide
  have unmarked : ¬Text.sameName (String.ofList ((lowerDigit k :: r).take urnMark.length))
      urnMark = true := by
    intro same
    rw [Text.sameName_iff, Text.foldCase, Text.foldCase, String.toList_ofList] at same
    have length : urnMark.length = 8 + 1 := by decide
    have mark : urnMark.toList = 'u' :: ['r', 'n', ':', 'u', 'u', 'i', 'd', ':'] := by decide
    rw [length, mark, List.take_succ_cons, List.map_cons, List.map_cons] at same
    exact letter (List.cons.inj same).1
  unfold read?
  split
  · exact absurd (List.cons.inj ‹_›).1 brace
  · rw [if_neg unmarked]

/-- The text of an identifier is read as the identifier. -/
theorem read?_text (u : Uuid) : read? u.text.toList = some u := by
  obtain ⟨k, hk, r, text⟩ := u.text_eq_cons
  have long : readDigits? u.text.toList = none := by
    rw [readDigits?, if_neg (by rw [length_text]; decide)]
  have grouped := u.readGrouped?_text
  rw [text] at long grouped ⊢
  rw [read?_of_lowerDigit hk, long, grouped]
  rfl

/-- The text of an identifier has no blanks. -/
theorem trim_text (u : Uuid) : Text.trim u.text.toList = u.text.toList := by
  apply Text.trim_of_visible
  intro c hc
  rw [text_toList] at hc
  rcases mem_hyphenate groups hc with rfl | hc
  · rfl
  · obtain ⟨k, hk, rfl⟩ := Text.Hex.exists_of_mem_fixed hc
    exact Text.Hex.isBlank_lowerDigit k hk

end Uuid

end Relmap
