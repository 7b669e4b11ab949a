import Relmap.Text.Utf8

/-!
# Octets of a text read back as the text

`decode_encode`: decoding what `encode` wrote gives the characters again. The reader finds each
character whole at the head of the octets, whatever follows it (`head_encodeChar`), so the law for a
text is an induction over its characters. One lemma for each of the four lengths of a character says
what its first octets have to be.

`decode_eq_ok_iff`: no other octets are read as a text. A character at the head has exactly the octets
that were read there (`encodeChar_of_head`), as neither long forms nor surrogates are read.
-/

namespace Relmap.Text.Utf8

/-! ### The octets of one character -/

theorem toNat_octet {k : Nat} (h : k < 256) : (UInt8.ofNat k).toNat = k := by
  simp [UInt8.toNat_ofNat', Nat.mod_eq_of_lt h]

theorem isTail_iff {b : Nat} : isTail b = true ↔ 0x80 ≤ b ∧ b ≤ 0xBF := by
  simp [isTail]

/-- The four first octets that narrow the range of the second one. -/
theorem isSecond_iff {a b : Nat} :
    isSecond a b = true ↔ (0x80 ≤ b ∧ b ≤ 0xBF) ∧ (a = 0xE0 → 0xA0 ≤ b) ∧ (a = 0xED → b ≤ 0x9F) ∧
      (a = 0xF0 → 0x90 ≤ b) ∧ (a = 0xF4 → b ≤ 0x8F) := by
  simp only [isSecond, Bool.and_eq_true, decide_eq_true_eq]
  unfold secondRange
  split
  case h_5 notE0 notED notF0 notF4 =>
    exact ⟨fun h => ⟨h, fun e => (notE0 e).elim, fun e => (notED e).elim, fun e => (notF0 e).elim,
      fun e => (notF4 e).elim⟩, fun h => h.1⟩
  all_goals omega

theorem head_one {n : Nat} {r : List UInt8} (h : n < 0x80) :
    head (UInt8.ofNat n) r = .char (Char.ofNat n) 0 := by
  simp only [head, toNat_octet (k := n) (by omega), if_pos h]

theorem head_two {a b : Nat} {r : List UInt8} (ha : 0xC2 ≤ a ∧ a < 0xE0)
    (hb : 0x80 ≤ b ∧ b ≤ 0xBF) :
    head (UInt8.ofNat a) (UInt8.ofNat b :: r) =
      .char (Char.ofNat ((a - 0xC0) * 0x40 + (b - 0x80))) 1 := by
  have hta : (UInt8.ofNat a).toNat = a := toNat_octet (by omega)
  have htb : (UInt8.ofNat b).toNat = b := toNat_octet (by omega)
  simp only [head, List.map_cons, hta, htb]
  rw [if_neg (by omega), if_neg (by omega), if_pos (by omega), if_pos (isTail_iff.mpr hb)]

theorem head_three {a b c : Nat} {r : List UInt8} (ha : 0xE0 ≤ a ∧ a < 0xF0)
    (hb : isSecond a b = true) (hc : 0x80 ≤ c ∧ c ≤ 0xBF) :
    head (UInt8.ofNat a) (UInt8.ofNat b :: UInt8.ofNat c :: r) =
      .char (Char.ofNat ((a - 0xE0) * 0x1000 + (b - 0x80) * 0x40 + (c - 0x80))) 2 := by
  have hb' := (isSecond_iff.mp hb).1
  have hta : (UInt8.ofNat a).toNat = a := toNat_octet (by omega)
  have htb : (UInt8.ofNat b).toNat = b := toNat_octet (by omega)
  have htc : (UInt8.ofNat c).toNat = c := toNat_octet (by omega)
  simp only [head, List.map_cons, hta, htb, htc, hb, Bool.not_true, Bool.false_eq_true, if_false]
  rw [if_neg (by omega), if_neg (by omega), if_neg (by omega), if_pos (by omega),
    if_pos (isTail_iff.mpr hc)]

theorem head_four {a b c d : Nat} {r : List UInt8} (ha : 0xF0 ≤ a ∧ a < 0xF5)
    (hb : isSecond a b = true) (hc : 0x80 ≤ c ∧ c ≤ 0xBF) (hd : 0x80 ≤ d ∧ d ≤ 0xBF) :
    head (UInt8.ofNat a) (UInt8.ofNat b :: UInt8.ofNat c :: UInt8.ofNat d :: r) =
      .char (Char.ofNat
        ((a - 0xF0) * 0x40000 + (b - 0x80) * 0x1000 + (c - 0x80) * 0x40 + (d - 0x80))) 3 := by
  have hb' := (isSecond_iff.mp hb).1
  have hta : (UInt8.ofNat a).toNat = a := toNat_octet (by omega)
  have htb : (UInt8.ofNat b).toNat = b := toNat_octet (by omega)
  have htc : (UInt8.ofNat c).toNat = c := toNat_octet (by omega)
  have htd : (UInt8.ofNat d).toNat = d := toNat_octet (by omega)
  simp only [head, List.map_cons, hta, htb, htc, htd, hb, isTail_iff.mpr hc, isTail_iff.mpr hd,
    Bool.not_true, Bool.false_eq_true, if_false, if_true]
  rw [if_neg (by omega), if_neg (by omega), if_neg (by omega), if_neg (by omega),
    if_pos (by omega)]

/-- The number of a character: below the surrogates, or above them and in range. -/
theorem toNat_bounds (c : Char) : c.toNat < 0xD800 ∨ 0xDFFF < c.toNat ∧ c.toNat < 0x110000 :=
  c.valid

/-- The octets of a character start with one that tells how many follow, and the reader finds the
character there, whatever comes after it. -/
theorem head_encodeChar (c : Char) (r : List UInt8) :
    ∃ a more, encodeChar c = a :: more ∧ head a (more ++ r) = .char c more.length := by
  have hc : Char.ofNat c.toNat = c := Char.ofNat_toNat c
  have bounds := toNat_bounds c
  simp only [encodeChar]
  generalize c.toNat = n at hc bounds ⊢
  by_cases one : n < 0x80
  · refine ⟨_, _, if_pos one, ?_⟩
    rw [head_one one, hc]
    rfl
  rw [if_neg one]
  by_cases two : n < 0x800
  · refine ⟨_, _, if_pos two, ?_⟩
    have value : (0xC0 + n / 0x40 - 0xC0) * 0x40 + (0x80 + n % 0x40 - 0x80) = n := by omega
    rw [List.cons_append, head_two (by omega) (by omega), value, hc]
    rfl
  rw [if_neg two]
  by_cases three : n < 0x10000
  · refine ⟨_, _, if_pos three, ?_⟩
    have value : (0xE0 + n / 0x1000 - 0xE0) * 0x1000 + (0x80 + n / 0x40 % 0x40 - 0x80) * 0x40 +
        (0x80 + n % 0x40 - 0x80) = n := by omega
    -- Neither a long form of a small number nor a surrogate is written.
    have second : isSecond (0xE0 + n / 0x1000) (0x80 + n / 0x40 % 0x40) = true :=
      isSecond_iff.mpr (by omega)
    rw [List.cons_append, List.cons_append, head_three (by omega) second (by omega), value, hc]
    rfl
  · refine ⟨_, _, if_neg three, ?_⟩
    have value : (0xF0 + n / 0x40000 - 0xF0) * 0x40000 +
        (0x80 + n / 0x1000 % 0x40 - 0x80) * 0x1000 + (0x80 + n / 0x40 % 0x40 - 0x80) * 0x40 +
        (0x80 + n % 0x40 - 0x80) = n := by omega
    have second : isSecond (0xF0 + n / 0x40000) (0x80 + n / 0x1000 % 0x40) = true :=
      isSecond_iff.mpr (by omega)
    rw [List.cons_append, List.cons_append, List.cons_append,
      head_four (by omega) second (by omega) (by omega), value, hc]
    rfl

/-! ### The octets of a text -/

/-- Reading goes on after a character with what follows its octets. -/
theorem decodeFrom_encodeChar (index : Nat) (c : Char) (r : List UInt8) :
    decodeFrom index (encodeChar c ++ r) =
      (decodeFrom (index + (encodeChar c).length) r).map (c :: ·) := by
  obtain ⟨a, more, octets, found⟩ := head_encodeChar c r
  have rest : (more ++ r).drop more.length = r := List.drop_left
  rw [octets, List.cons_append, decodeFrom]
  simp only [found, rest, List.length_cons, Nat.add_assoc]

theorem decodeFrom_encode (index : Nat) (s : List Char) : decodeFrom index (encode s) = .ok s := by
  induction s generalizing index with
  | nil => simp [encode, decodeFrom]
  | cons c s ih =>
    have split : encode (c :: s) = encodeChar c ++ encode s := List.flatMap_cons
    rw [split, decodeFrom_encodeChar, ih]
    rfl

/-- A text that was written as octets is read from them again. -/
theorem decode_encode (s : List Char) : decode (encode s) = .ok s := decodeFrom_encode 0 s

/-! ### Octets that are read as a text -/

theorem octet_of_toNat {a : UInt8} {n : Nat} (h : n = a.toNat) : UInt8.ofNat n = a := by
  rw [h, UInt8.ofNat_toNat]

theorem toNat_ofNat {n : Nat} (valid : n.isValidChar) : (Char.ofNat n).toNat = n := by
  rw [Char.ofNat, dif_pos valid]
  rfl

variable {a b c d : UInt8}

theorem encodeChar_one (ha : a.toNat < 0x80) : encodeChar (Char.ofNat a.toNat) = [a] := by
  simp only [encodeChar, toNat_ofNat (n := a.toNat) (.inl (by omega))]
  rw [if_pos ha, octet_of_toNat rfl]

theorem encodeChar_two (ha : 0xC2 ≤ a.toNat ∧ a.toNat < 0xE0) (hb : isTail b.toNat = true) :
    encodeChar (Char.ofNat ((a.toNat - 0xC0) * 0x40 + (b.toNat - 0x80))) = [a, b] := by
  have hb := isTail_iff.mp hb
  have valid : ((a.toNat - 0xC0) * 0x40 + (b.toNat - 0x80)).isValidChar := .inl (by omega)
  simp only [encodeChar, toNat_ofNat valid]
  rw [if_neg (by omega), if_pos (by omega), octet_of_toNat (a := a) (by omega),
    octet_of_toNat (a := b) (by omega)]

theorem encodeChar_three (ha : 0xE0 ≤ a.toNat ∧ a.toNat < 0xF0)
    (hb : isSecond a.toNat b.toNat = true) (hc : isTail c.toNat = true) :
    encodeChar (Char.ofNat
      ((a.toNat - 0xE0) * 0x1000 + (b.toNat - 0x80) * 0x40 + (c.toNat - 0x80))) = [a, b, c] := by
  have hb := isSecond_iff.mp hb
  have hc := isTail_iff.mp hc
  -- The range of the second octet keeps out long forms and surrogates.
  have valid : ((a.toNat - 0xE0) * 0x1000 + (b.toNat - 0x80) * 0x40 +
      (c.toNat - 0x80)).isValidChar := by
    rw [Nat.isValidChar]
    omega
  simp only [encodeChar, toNat_ofNat valid]
  rw [if_neg (by omega), if_neg (by omega), if_pos (by omega), octet_of_toNat (a := a) (by omega),
    octet_of_toNat (a := b) (by omega), octet_of_toNat (a := c) (by omega)]

theorem encodeChar_four (ha : 0xF0 ≤ a.toNat ∧ a.toNat < 0xF5)
    (hb : isSecond a.toNat b.toNat = true) (hc : isTail c.toNat = true)
    (hd : isTail d.toNat = true) :
    encodeChar (Char.ofNat ((a.toNat - 0xF0) * 0x40000 + (b.toNat - 0x80) * 0x1000 +
      (c.toNat - 0x80) * 0x40 + (d.toNat - 0x80))) = [a, b, c, d] := by
  have hb := isSecond_iff.mp hb
  have hc := isTail_iff.mp hc
  have hd := isTail_iff.mp hd
  have valid : ((a.toNat - 0xF0) * 0x40000 + (b.toNat - 0x80) * 0x1000 +
      (c.toNat - 0x80) * 0x40 + (d.toNat - 0x80)).isValidChar := by
    rw [Nat.isValidChar]
    omega
  simp only [encodeChar, toNat_ofNat valid]
  rw [if_neg (by omega), if_neg (by omega), if_neg (by omega),
    octet_of_toNat (a := a) (by omega), octet_of_toNat (a := b) (by omega),
    octet_of_toNat (a := c) (by omega), octet_of_toNat (a := d) (by omega)]

/-- A character that is read has the octets it was read from. -/
theorem encodeChar_of_head {r : List UInt8} {x : Char} {more : Nat}
    (h : head a r = .char x more) : encodeChar x ++ r.drop more = a :: r := by
  simp only [head] at h
  split at h
  next one =>
    obtain ⟨rfl, rfl⟩ := Head.char.inj h
    rw [encodeChar_one one]
    rfl
  next long =>
  split at h
  · cases h
  next start =>
  split at h
  next two =>
    match r, h with
    | b :: r, h =>
      simp only [List.map_cons] at h
      split at h
      next tail =>
        obtain ⟨rfl, rfl⟩ := Head.char.inj h
        rw [encodeChar_two ⟨by omega, two⟩ tail]
        rfl
      next => cases h
  next more =>
  split at h
  next three =>
    match r, h with
    | [b], h =>
      simp only [List.map_cons, List.map_nil] at h
      split at h <;> cases h
    | b :: c :: r, h =>
      simp only [List.map_cons, Bool.not_eq_true'] at h
      split at h
      · cases h
      next second =>
        split at h
        next tail =>
          obtain ⟨rfl, rfl⟩ := Head.char.inj h
          rw [encodeChar_three ⟨by omega, three⟩ (by simpa using second) tail]
          rfl
        next => cases h
  next most =>
  split at h
  next four =>
    match r, h with
    | [b], h =>
      simp only [List.map_cons, List.map_nil] at h
      split at h <;> cases h
    | [b, c], h =>
      simp only [List.map_cons, List.map_nil] at h
      split at h
      · cases h
      · split at h <;> cases h
    | b :: c :: d :: r, h =>
      simp only [List.map_cons] at h
      split at h
      · cases h
      next second =>
        split at h
        · cases h
        next third =>
          split at h
          next tail =>
            obtain ⟨rfl, rfl⟩ := Head.char.inj h
            rw [encodeChar_four ⟨by omega, four⟩ (by simpa using second) (by simpa using third) tail]
            rfl
          next => cases h
  next => cases h

/-- Octets that are read as a text are those of the text. -/
theorem encode_of_decodeFrom {index : Nat} {bytes : List UInt8} {s : List Char}
    (h : decodeFrom index bytes = .ok s) : encode s = bytes := by
  fun_induction decodeFrom index bytes generalizing s with
  | case1 index =>
    obtain rfl := Except.ok.inj h
    rfl
  | case2 index a r c more found ih =>
    cases rest : decodeFrom (index + more + 1) (r.drop more) with
    | error fault =>
      rw [rest] at h
      cases h
    | ok t =>
      rw [rest] at h
      obtain rfl := Except.ok.inj h
      rw [encode, List.flatMap_cons, ← encode, ih rest, encodeChar_of_head found]
  | case3 => cases h
  | case4 => cases h

/-- **The octets that can be read are those that can be written**, each with one text. -/
theorem decode_eq_ok_iff {bytes : List UInt8} {s : List Char} :
    decode bytes = .ok s ↔ encode s = bytes := by
  constructor
  · exact encode_of_decodeFrom
  · rintro rfl
    exact decode_encode s

/-- Octets of a text have no faulty run. -/
theorem decodeLossy_encode (s : List Char) : decodeLossy (encode s) = s := by
  induction s with
  | nil => simp [encode, decodeLossy]
  | cons c s ih =>
    obtain ⟨a, more, octets, found⟩ := head_encodeChar c (encode s)
    have rest : (more ++ encode s).drop more.length = encode s := List.drop_left
    rw [encode, List.flatMap_cons, ← encode, octets, List.cons_append, decodeLossy]
    simp only [found, rest, ih]

end Relmap.Text.Utf8
