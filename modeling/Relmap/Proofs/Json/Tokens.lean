import Relmap.Json.Read
import Relmap.Json.Write
import Relmap.Proofs.Number.IntText
import Relmap.Proofs.Uuid

/-!
# The tokens of written JSON

The compact text of a value is cut into tokens again (`Json.tokens?_chars`): strings come back as
they were, because what is escaped in them is read back character by character, and a number ends
where the punctuation after it begins. Whether a number is read is up to its text alone
(`Json.Legible`).
-/

namespace Relmap.Json

open Number (Decimal Double intText isDigit natText)

/-! ### Strings -/

theorem readUnit?_fixed {n : Nat} (h : n < 0x10000) : readUnit? (Text.Hex.fixed 4 n) = some n := by
  rw [readUnit?, if_pos (Text.Hex.length_fixed 4 n), Text.Hex.number?_fixed (by decide) h]

/-- A control character is read back from its number. -/
theorem readString?_control {c : Char} (h : c.toNat < 0x20) (r : List Char) :
    readString? (['\\', 'u'] ++ Text.Hex.fixed 4 c.toNat ++ r) =
      (readString? r).map fun (s, rest) => (c :: s, rest) := by
  have hread := readUnit?_fixed (n := c.toNat) (by omega)
  have hlow : ¬(0xDC00 ≤ c.toNat ∧ c.toNat < 0xE000) := by omega
  have hhigh : ¬(0xD800 ≤ c.toNat ∧ c.toNat < 0xDC00) := by omega
  show readString? ('\\' :: 'u' :: _ :: _ :: _ :: _ :: r) = _
  rw [readString?]
  simp only [Text.Hex.fixed, List.nil_append, List.cons_append] at hread
  rw [hread]
  simp only [if_neg hlow, if_neg hhigh, Char.ofNat_toNat]

/-- An escaped character is read back as itself. -/
theorem readString?_escape (c : Char) (r : List Char) :
    readString? (escape c ++ r) = (readString? r).map fun (s, rest) => (c :: s, rest) := by
  unfold escape
  split
  iterate 7 rfl
  rename_i quote backslash _ _ _ _ _
  split
  · rename_i control
    exact readString?_control control r
  · rename_i visible
    rw [List.singleton_append, readString?]
    · rw [if_neg (not_or.mpr ⟨visible, backslash⟩)]
    all_goals simp_all

/-- A string is read up to its closing quote. -/
theorem readString?_escaped (s r : List Char) :
    readString? (s.flatMap escape ++ '"' :: r) = some (s, r) := by
  induction s with
  | nil => rfl
  | cons c s ih =>
    rw [List.flatMap_cons, List.append_assoc, readString?_escape, ih]
    rfl

/-! ### Where tokens end -/

/-- Neither a word nor a number goes on here. -/
def Stops (r : List Char) : Prop := ∀ c ∈ r.head?, c.isAlpha = false ∧ isNumberChar c = false

theorem stops_nil : Stops [] := fun _ h => nomatch h

theorem stops_cons {c : Char} (r : List Char) (hc : c.isAlpha = false ∧ isNumberChar c = false) :
    Stops (c :: r) := by
  intro c' h
  obtain rfl : c = c' := Option.some.inj h
  exact hc

/-- What is taken of a run before a place where it does not go on is the run. -/
theorem takeWhile_append_stop {p : Char → Bool} {s r : List Char} (hs : ∀ c ∈ s, p c = true)
    (hr : ∀ c ∈ r.head?, p c = false) : (s ++ r).takeWhile p = s := by
  have hnone : r.takeWhile p = [] := by
    cases r with
    | nil => rfl
    | cons c r => rw [List.takeWhile_cons_of_neg (by simp [hr c rfl])]
  rw [List.takeWhile_append_of_pos hs, hnone, List.append_nil]

/-! ### The characters of numbers -/

/-- A text that is a number as far as its characters go. -/
def Numeric (s : List Char) : Prop :=
  (∃ c ∈ s.head?, c = '-' ∨ isDigit c = true) ∧ ∀ c ∈ s, isNumberChar c = true

theorem Numeric.exists_cons {s : List Char} (h : Numeric s) :
    ∃ c run, s = c :: run ∧ (c = '-' ∨ isDigit c = true) ∧ ∀ c ∈ run, isNumberChar c = true := by
  obtain ⟨⟨c, hc, hstart⟩, hall⟩ := h
  cases s with
  | nil => cases hc
  | cons d run =>
    obtain rfl : d = c := Option.some.inj hc
    exact ⟨d, run, rfl, hstart, (List.forall_mem_cons.mp hall).2⟩

theorem isNumberChar_of_isDigit {c : Char} (h : isDigit c = true) : isNumberChar c = true := by
  simp [isNumberChar, h]

/-- A digit and characters of numbers after it. -/
theorem numeric_cons {c : Char} {s : List Char} (hc : isDigit c = true)
    (hs : ∀ c ∈ s, isNumberChar c = true) : Numeric (c :: s) :=
  ⟨⟨c, rfl, .inr hc⟩, List.forall_mem_cons.mpr ⟨isNumberChar_of_isDigit hc, hs⟩⟩

theorem Numeric.append {s t : List Char} (hs : Numeric s) (ht : ∀ c ∈ t, isNumberChar c = true) :
    Numeric (s ++ t) := by
  obtain ⟨⟨c, hc, hstart⟩, hall⟩ := hs
  refine ⟨⟨c, ?_, hstart⟩, List.forall_mem_append.mpr ⟨hall, ht⟩⟩
  cases s with
  | nil => cases hc
  | cons d s => exact hc

theorem Numeric.minus {s : List Char} (hs : Numeric s) : Numeric ('-' :: s) :=
  ⟨⟨'-', rfl, .inl rfl⟩, List.forall_mem_cons.mpr ⟨by decide, hs.2⟩⟩

theorem numeric_toDigits (n : Nat) : Numeric (Nat.toDigits 10 n) := by
  obtain ⟨c, ds, hdigits⟩ := List.exists_cons_of_ne_nil (Nat.toDigits_ne_nil (b := 10) (n := n))
  have hall : ∀ c ∈ Nat.toDigits 10 n, isDigit c = true := fun c => Number.isDigit_of_mem_toDigits
  rw [hdigits] at hall ⊢
  obtain ⟨hc, hds⟩ := List.forall_mem_cons.mp hall
  exact numeric_cons hc fun d hd => isNumberChar_of_isDigit (hds d hd)

theorem numeric_intText (n : Int) : Numeric (intText n).toList := by
  cases n with
  | ofNat n => simpa [intText, natText] using numeric_toDigits n
  | negSucc n => simpa [intText, natText] using (numeric_toDigits (n + 1)).minus

theorem numeric_decimalText (d : Decimal) : Numeric (decimalText d) := by
  have hall := numeric_toDigits d.digits
  have hdigit : ∀ c ∈ Nat.toDigits 10 d.digits, isDigit c = true := fun c =>
    Number.isDigit_of_mem_toDigits
  have hne : Nat.toDigits 10 d.digits ≠ [] := Nat.toDigits_ne_nil
  unfold decimalText
  generalize Nat.toDigits 10 d.digits = digits at hall hdigit hne
  obtain ⟨c, ds, rfl⟩ := List.exists_cons_of_ne_nil hne
  have hc : isDigit c = true := hdigit c List.mem_cons_self
  have hzeros (n : Nat) : ∀ c ∈ List.replicate n '0', isNumberChar c = true := fun c h =>
    (List.eq_of_mem_replicate h) ▸ rfl
  have hexponent (e : Int) : ∀ c ∈ 'e' :: (if 0 < e then ['+'] else []) ++ (intText (e - 1)).toList,
      isNumberChar c = true := by
    have hint := (numeric_intText (e - 1)).2
    refine List.forall_mem_cons.mpr ⟨by decide, List.forall_mem_append.mpr ⟨?_, hint⟩⟩
    split <;> exact List.all_eq_true.mp rfl
  dsimp only
  split
  · exact (hall.append (hzeros _)).append (List.all_eq_true.mp rfl)
  · split
    · rename_i hpoint
      obtain ⟨n, hn⟩ : ∃ n, ((c :: ds).length + d.exponent).toNat = n + 1 :=
        ⟨((c :: ds).length + d.exponent).toNat - 1, by omega⟩
      rw [hn, List.take_succ_cons]
      have hds := (List.forall_mem_cons.mp hall.2).2
      refine numeric_cons hc (List.forall_mem_append.mpr ⟨fun x hx => hds x (List.mem_of_mem_take hx),
        List.forall_mem_cons.mpr ⟨by decide, fun x hx => hall.2 x (List.mem_of_mem_drop hx)⟩⟩)
    · split
      · exact numeric_cons (by decide) (List.forall_mem_append.mpr
          ⟨List.forall_mem_cons.mpr ⟨by decide, hzeros _⟩, hall.2⟩)
      · have hds := (List.forall_mem_cons.mp hall.2).2
        cases ds with
        | nil => exact numeric_cons hc (hexponent _)
        | cons d ds =>
          exact numeric_cons hc (List.forall_mem_append.mpr
            ⟨List.forall_mem_cons.mpr ⟨by decide, hds⟩, hexponent _⟩)

theorem numeric_numberText (n : JsonNumber) : Numeric (numberText n) := by
  cases n with
  | natural n => simpa [numberText, natText] using numeric_toDigits n
  | negative n => exact numeric_intText n
  | fraction x =>
    have hbody : Numeric
        (if x.isZero then ['0', '.', '0'] else decimalText (x.shortest .toEven)) := by
      split
      · exact numeric_cons (by decide) (List.all_eq_true.mp rfl)
      · exact numeric_decimalText _
    rw [numberText, fractionText]
    cases x.negative with
    | true => exact hbody.minus
    | false => exact hbody

/-! ### One token after the other -/

theorem tokens?_punctuation {c : Char} {t : Token} (hspace : isSpace c = false) (hquote : c ≠ '"')
    (h : punctuation? c = some t) (r : List Char) :
    tokens? (c :: r) = (tokens? r).map (t :: ·) := by
  rw [tokens?]
  simp [hspace, hquote, h]

theorem tokens?_comma (r : List Char) : tokens? (',' :: r) = (tokens? r).map (.comma :: ·) :=
  tokens?_punctuation rfl (by decide) rfl r

theorem tokens?_colon (r : List Char) : tokens? (':' :: r) = (tokens? r).map (.colon :: ·) :=
  tokens?_punctuation rfl (by decide) rfl r

theorem tokens?_stringText (s : String) (r : List Char) :
    tokens? (stringText s ++ r) = (tokens? r).map (.string s :: ·) := by
  have hread : readString? (s.toList.flatMap escape ++ (['"'] ++ r)) = some (s.toList, r) :=
    readString?_escaped s.toList r
  have hchars : stringText s ++ r = '"' :: (s.toList.flatMap escape ++ (['"'] ++ r)) := by
    simp [stringText]
  rw [hchars, tokens?, if_neg (by decide), if_pos rfl]
  split
  · rename_i hnone
    cases hnone.symm.trans hread
  · rename_i s' rest hsome
    cases hsome.symm.trans hread
    rw [String.ofList_toList]

theorem tokens?_word {c : Char} {run r : List Char} {v : Json} (hr : Stops r)
    (hrun : run.all Char.isAlpha = true) (hspace : isSpace c = false) (hquote : c ≠ '"')
    (hpunctuation : punctuation? c = none) (hdigit : ¬(c = '-' ∨ isDigit c = true))
    (hword : readWord? (c :: run) = some v) :
    tokens? (c :: run ++ r) = (tokens? r).map (.scalar v :: ·) := by
  have htake : (run ++ r).takeWhile Char.isAlpha = run :=
    takeWhile_append_stop (List.all_eq_true.mp hrun) fun c hc => (hr c hc).1
  rw [List.cons_append, tokens?]
  simp [hspace, hquote, hpunctuation, hdigit, htake, hword]

/-- What a number starts with is nothing else. -/
theorem plain_of_numberStart {c : Char} (hc : c = '-' ∨ isDigit c = true) :
    isSpace c = false ∧ c ≠ '"' ∧ punctuation? c = none := by
  have hne {d : Char} (hd : ¬(d = '-' ∨ isDigit d = true)) : c ≠ d := fun h => hd (h ▸ hc)
  refine ⟨?_, hne (by decide), ?_⟩
  · simp [isSpace, hne (d := ' ') (by decide), hne (d := '\t') (by decide),
      hne (d := '\n') (by decide), hne (d := '\r') (by decide)]
  · unfold punctuation?
    split
    iterate 6 exact absurd rfl (hne (by decide))
    rfl

theorem tokens?_number {c : Char} {run r : List Char} (hr : Stops r)
    (hrun : ∀ c ∈ run, isNumberChar c = true) (hc : c = '-' ∨ isDigit c = true) :
    tokens? (c :: run ++ r) =
      (readNumber? (c :: run)).bind fun n => (tokens? r).map (.scalar (.number n) :: ·) := by
  have htake : (run ++ r).takeWhile isNumberChar = run :=
    takeWhile_append_stop hrun fun c hc => (hr c hc).2
  obtain ⟨hspace, hquote, hpunctuation⟩ := plain_of_numberStart hc
  rw [List.cons_append, tokens?]
  simp only [hspace, hquote, hpunctuation, hc, htake, Bool.false_eq_true, if_false, if_true]
  cases readNumber? (c :: run) <;> simp

/-! ### Values -/

mutual

/-- The tokens of the text of a value, if its numbers are read. -/
def written? : Json → Option (List Token)
  | .null => some [.scalar .null]
  | .bool b => some [.scalar (.bool b)]
  | .number n => (readNumber? (numberText n)).map fun n => [.scalar (.number n)]
  | .string s => some [.string s]
  | .array items => (writtenItems? items).map fun ts => .openArray :: ts ++ [.closeArray]
  | .object members => (writtenMembers? members).map fun ts => .openObject :: ts ++ [.closeObject]

/-- The tokens of the items of an array. -/
def writtenItems? : List Json → Option (List Token)
  | [] => some []
  | [a] => written? a
  | a :: b :: as => do return (← written? a) ++ .comma :: (← writtenItems? (b :: as))

/-- The tokens of the members of an object. -/
def writtenMembers? : List (String × Json) → Option (List Token)
  | [] => some []
  | [(k, v)] => (written? v).map fun ts => .string k :: .colon :: ts
  | (k, v) :: m :: ms => do
    return .string k :: .colon :: (← written? v) ++ .comma :: (← writtenMembers? (m :: ms))

end

mutual

/-- **The text of a value is cut into its tokens**, or not at all. -/
theorem tokens?_chars : ∀ (j : Json) {r : List Char}, Stops r →
    tokens? (j.chars ++ r) = j.written?.bind fun ts => (tokens? r).map (ts ++ ·)
  | .null, r, hr => tokens?_word hr rfl rfl (by decide) rfl (by decide) rfl
  | .bool true, r, hr => tokens?_word hr rfl rfl (by decide) rfl (by decide) rfl
  | .bool false, r, hr => tokens?_word hr rfl rfl (by decide) rfl (by decide) rfl
  | .number n, r, hr => by
    obtain ⟨c, run, hrun, hc, hnumber⟩ := (numeric_numberText n).exists_cons
    rw [chars, written?, hrun, tokens?_number hr hnumber hc]
    cases readNumber? (c :: run) <;> rfl
  | .string s, r, _ => by
    rw [chars, tokens?_stringText]
    rfl
  | .array items, r, _ => by
    have hclose : tokens? (']' :: r) = (tokens? r).map (.closeArray :: ·) :=
      tokens?_punctuation rfl (by decide) rfl r
    have hitems := tokens?_itemChars items (stops_cons r (c := ']') (by decide))
    have hchars : (Json.array items).chars ++ r = '[' :: (itemChars items ++ ']' :: r) := by
      simp [chars]
    rw [hchars, tokens?_punctuation (t := .openArray) rfl (by decide) rfl, hitems, hclose, written?]
    cases writtenItems? items <;> cases tokens? r <;> simp
  | .object members, r, _ => by
    have hclose : tokens? ('\x7d' :: r) = (tokens? r).map (.closeObject :: ·) :=
      tokens?_punctuation rfl (by decide) rfl r
    have hmembers := tokens?_memberChars members (stops_cons r (c := '\x7d') (by decide))
    have hchars : (Json.object members).chars ++ r =
        '\x7b' :: (memberChars members ++ '\x7d' :: r) := by
      simp [chars]
    rw [hchars, tokens?_punctuation (t := .openObject) rfl (by decide) rfl, hmembers, hclose,
      written?]
    cases writtenMembers? members <;> cases tokens? r <;> simp

theorem tokens?_itemChars : ∀ (items : List Json) {r : List Char}, Stops r →
    tokens? (itemChars items ++ r) = (writtenItems? items).bind fun ts => (tokens? r).map (ts ++ ·)
  | [], r, _ => by cases h : tokens? r <;> simp [itemChars, writtenItems?, h]
  | [a], r, hr => tokens?_chars a hr
  | a :: b :: as, r, hr => by
    have hrest := tokens?_itemChars (b :: as) hr
    have ha := tokens?_chars a (stops_cons (itemChars (b :: as) ++ r) (c := ',') (by decide))
    have hchars : itemChars (a :: b :: as) ++ r = a.chars ++ ',' :: (itemChars (b :: as) ++ r) := by
      simp [itemChars]
    rw [hchars, ha, tokens?_comma, hrest, writtenItems?]
    cases written? a <;> cases writtenItems? (b :: as) <;> cases tokens? r <;> simp

theorem tokens?_memberChars : ∀ (members : List (String × Json)) {r : List Char}, Stops r →
    tokens? (memberChars members ++ r) =
      (writtenMembers? members).bind fun ts => (tokens? r).map (ts ++ ·)
  | [], r, _ => by cases h : tokens? r <;> simp [memberChars, writtenMembers?, h]
  | [(k, v)], r, hr => by
    have hchars : memberChars [(k, v)] ++ r = stringText k ++ ':' :: (v.chars ++ r) := by
      simp [memberChars]
    rw [hchars, tokens?_stringText, tokens?_colon, tokens?_chars v hr, writtenMembers?]
    cases written? v <;> cases tokens? r <;> simp
  | (k, v) :: b :: rest, r, hr => by
    have hrest := tokens?_memberChars (b :: rest) hr
    have hv := tokens?_chars v (stops_cons (memberChars (b :: rest) ++ r) (c := ',') (by decide))
    have hchars : memberChars ((k, v) :: b :: rest) ++ r =
        stringText k ++ ':' :: (v.chars ++ ',' :: (memberChars (b :: rest) ++ r)) := by
      simp [memberChars]
    rw [hchars, tokens?_stringText, tokens?_colon, hv, tokens?_comma, hrest, writtenMembers?]
    cases written? v <;> cases writtenMembers? (b :: rest) <;> cases tokens? r <;> simp

end

end Relmap.Json
