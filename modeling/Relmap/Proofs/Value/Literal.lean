import Relmap.Proofs.Number.Digits
import Relmap.Proofs.Text.Quoted
import Relmap.Value.Literal

/-!
# Literals are single tokens

Octets are read back from their hexadecimal digits (`Text.Hex.decode?_upper`). The text of a number
or of a boolean is a word: it is not empty, and no character of it can end a token
(`Value.isWord_display`). So every value has a literal that is one token (`Value.IsToken`), as long
as no value that needs quotes is written without them (`Value.isToken_literal`).
-/

namespace Relmap

/-! ### Octets -/

namespace Text.Hex

theorem digit?_upperDigit : ∀ k < 16, digit? (upperDigit k) = some k := by decide

theorem upper_cons (b : UInt8) (bytes : List UInt8) :
    upper (b :: bytes) = upperDigit (b.toNat / 16) :: upperDigit (b.toNat % 16) :: upper bytes := rfl

theorem length_upper (bytes : List UInt8) : (upper bytes).length = 2 * bytes.length := by
  induction bytes with
  | nil => rfl
  | cons b rest ih =>
    rw [upper_cons, List.length_cons, List.length_cons, ih, List.length_cons]
    omega

/-- **Octets are read back** from the digits that are written for them. -/
theorem decode?_upper (bytes : List UInt8) : decode? (upper bytes) = some bytes := by
  induction bytes with
  | nil => rfl
  | cons b rest ih =>
    have hb : b.toNat < 256 := b.toNat_lt
    have hhigh : digit? (upperDigit (b.toNat / 16)) = some (b.toNat / 16) :=
      digit?_upperDigit _ (by omega)
    have hlow : digit? (upperDigit (b.toNat % 16)) = some (b.toNat % 16) :=
      digit?_upperDigit _ (by omega)
    have hoctet : UInt8.ofNat (16 * (b.toNat / 16) + b.toNat % 16) = b := by
      rw [Nat.div_add_mod, UInt8.ofNat_toNat]
    simp only [upper_cons, decode?, hhigh, hlow, ih, bind, Option.bind, hoctet]
    rfl

end Text.Hex

/-! ### Words -/

namespace Text

/-- Whether a character can stand in a word: an ASCII letter or digit, a sign or a point. -/
def isWordChar (c : Char) : Bool := c.isAlphanum || c == '+' || c == '-' || c == '.'

/-- A word: a text, not empty, in which no character can end a token. -/
def IsWord (s : List Char) : Prop := s ≠ [] ∧ ∀ c ∈ s, isWordChar c = true

theorem isWordChar_of_isDigit {c : Char} (h : Number.isDigit c = true) : isWordChar c = true := by
  have hdigit : c.isDigit = true := by simpa [Number.isDigit, Char.isDigit, Char.le_def] using h
  simp [isWordChar, Char.isAlphanum, hdigit]

theorem isWord_of_all {s : List Char} (hne : s ≠ []) (h : s.all isWordChar = true) : IsWord s :=
  ⟨hne, List.all_eq_true.mp h⟩

/-- A sign in front of a word makes a word. -/
theorem IsWord.signed {s : List Char} (h : IsWord s) (negative : Bool) :
    IsWord ((if negative then ['-'] else []) ++ s) := by
  obtain ⟨hne, hchars⟩ := h
  refine ⟨by simp [hne], fun c hc => ?_⟩
  rcases List.mem_append.mp hc with hsign | hc
  · cases negative <;> simp at hsign
    rw [hsign]
    rfl
  · exact hchars c hc

end Text

namespace Number

open Text (IsWord isWordChar isWordChar_of_isDigit isWord_of_all)

theorem isWord_toDigits (n : Nat) : IsWord (Nat.toDigits 10 n) :=
  ⟨Nat.toDigits_ne_nil, fun _ hc => isWordChar_of_isDigit (isDigit_of_mem_toDigits hc)⟩

theorem isWord_intText (n : Int) : IsWord (intText n).toList := by
  cases n with
  | ofNat n => simpa [intText, natText] using isWord_toDigits n
  | negSucc n => simpa [intText, natText] using (isWord_toDigits (n + 1)).signed true

/-- Zeros before digits or after them are digits. -/
theorem isWordChar_of_mem_zeros {c : Char} {k n : Nat}
    (h : c ∈ List.replicate k '0' ∨ c ∈ Nat.toDigits 10 n) : isWordChar c = true := by
  rcases h with hzero | hdigit
  · rw [List.eq_of_mem_replicate hzero]
    rfl
  · exact isWordChar_of_isDigit (isDigit_of_mem_toDigits hdigit)

theorem Decimal.isWord_plain (d : Decimal) : IsWord d.plain := by
  unfold Decimal.plain
  dsimp only
  split
  · split
    · exact isWord_toDigits _
    · refine ⟨by simp [Nat.toDigits_ne_nil], fun c hc => ?_⟩
      exact isWordChar_of_mem_zeros (List.mem_append.mp hc).symm
  · -- The digits, with zeros before them, are cut in two by the point.
    refine ⟨by simp, fun c hc => ?_⟩
    have hplace : c = '.' ∨ c ∈ List.replicate
        ((-d.exponent).toNat + 1 - (Nat.toDigits 10 d.digits).length) '0' ++
          Nat.toDigits 10 d.digits := by
      rcases List.mem_append.mp hc with hwhole | hplaces
      · exact .inr (List.mem_of_mem_take hwhole)
      · exact (List.mem_cons.mp hplaces).imp_right List.mem_of_mem_drop
    rcases hplace with rfl | hdigits
    · rfl
    · exact isWordChar_of_mem_zeros (List.mem_append.mp hdigits)

theorem Scaled.isWord_text (d : Scaled) : IsWord d.text.toList := by
  simpa [Scaled.text] using (Decimal.isWord_plain _).signed d.negative

theorem Binary.isWord_plainText {f : BinaryFormat} (x : Binary f) : IsWord x.plainText.toList := by
  unfold Binary.plainText
  split
  · exact isWord_of_all (by decide) rfl
  · have hbody : IsWord (if x.isFinite then (x.shortest .up).plain else ['i', 'n', 'f']) := by
      split
      · exact Decimal.isWord_plain _
      · exact isWord_of_all (by decide) rfl
    simpa using hbody.signed x.negative

end Number

/-! ### Literals -/

namespace Value

open Text (IsWord isWord_of_all)
open Text.Quoted (read? read?_wrap)

variable {v : Value}

/-- A text is one token that stands for a value: the word NULL, octets in hexadecimal, the value as
text between quotes, or a number or a boolean as a word. -/
def IsToken (v : Value) (t : List Char) : Prop :=
  match v with
  | .null => t = "NULL".toList
  | .bytes b => ∃ digits, t = 'X' :: '\'' :: digits ++ ['\''] ∧ digits.length % 2 = 0 ∧
      Text.Hex.decode? digits = some b
  | .text _ | .char _ | .uuid _ | .timestamp _ | .json _ | .enum _ =>
    read? '\'' t = some (v.display.toList, [])
  | _ => read? '\'' t = some (v.display.toList, []) ∨ t = v.display.toList ∧ IsWord t

/-- What stands between quotes is read back as one text, with nothing after it. -/
theorem read?_quoted (v : Value) :
    read? '\'' (String.ofList (Text.Quoted.wrap '\'' v.display.toList)).toList =
      some (v.display.toList, []) := by
  have h : read? '\'' (Text.Quoted.wrap '\'' v.display.toList ++ []) = some (v.display.toList, []) :=
    read?_wrap (by simp) v.display.toList
  simpa using h

/-- A number or a boolean is a word. -/
theorem isWord_display (hquoted : v.quotedByItself = false) (hnull : v ≠ .null)
    (hbytes : ∀ b, v ≠ .bytes b) : IsWord v.display.toList := by
  cases v with
  | null => exact absurd rfl hnull
  | bytes b => exact absurd rfl (hbytes b)
  | bool b => cases b <;> exact isWord_of_all (by decide) rfl
  | byte n | short n | int n | long n | bigInteger n => exact Number.isWord_intText _
  | float x | double x => exact Number.Binary.isWord_plainText x
  | decimal d => exact d.isWord_text
  | text _ | char _ | uuid _ | timestamp _ | json _ | enum _ => cases hquoted

/-- **A literal is one token** that stands for its value, if the value is written between quotes
where it needs them. -/
theorem isToken_literal {quoted : Bool} (h : quoted = true ∨ v.quotedByItself = false) :
    v.IsToken (v.literal quoted).toList := by
  have hread := v.read?_quoted
  have hword := v.isWord_display
  cases v with
  | null => rfl
  | bytes b =>
    exact ⟨Text.Hex.upper b, by simp [literal], by rw [Text.Hex.length_upper]; omega,
      Text.Hex.decode?_upper b⟩
  | text s | char c | uuid u | timestamp t | json j | enum c =>
    -- These need quotes, so the hypothesis leaves no other choice.
    obtain rfl : quoted = true := h.resolve_right (by simp [quotedByItself])
    exact hread
  | bool b | byte n | short n | int n | long n | float x | double x | bigInteger n | decimal d =>
    cases quoted with
    | true => exact .inl hread
    | false => exact .inr ⟨rfl, hword rfl nofun nofun⟩

example : literal true (.text "O'Brien") = "'O''Brien'" ∧
    literal true (.bytes [0x0a, 0xff]) = "X'0AFF'" := by decide

end Value

end Relmap
