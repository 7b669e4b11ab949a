import Relmap.Dialect.Name
import Relmap.Proofs.Text.Trim

/-!
# Texts up to letter case

Making ASCII capitals small changes letters only (`toLower_eq_self_or`), so that blanks, points and
quotes stay what they are. Names that agree up to letter case are therefore cut at the same points
and quoted in the same way: between quotes they still agree up to letter case
(`Dialect.foldCase_quotedName`).
-/

namespace Relmap

namespace Text

/-! ### Characters -/

/-- A character stays unless it is a capital, and then it is thirty-two places further on. -/
theorem toLower_eq_self_or (c : Char) :
    c.toLower = c ∨ 65 ≤ c.toNat ∧ c.toNat ≤ 90 ∧ c.toLower.toNat = c.toNat + 32 := by
  by_cases capital : c.val ≥ 'A'.val ∧ c.val ≤ 'Z'.val
  · right
    have lo : 65 ≤ c.val.toNat := capital.1
    have hi : c.val.toNat ≤ 90 := capital.2
    have small : c.toLower.val = c.val + 32 := by
      unfold Char.toLower
      rw [dif_pos capital]
      rfl
    refine ⟨lo, hi, ?_⟩
    show c.toLower.val.toNat = c.val.toNat + 32
    rw [small, UInt32.toNat_add]
    show (c.val.toNat + 32) % 2 ^ 32 = c.val.toNat + 32
    omega
  · exact .inl (dif_neg capital)

theorem isBlank_toLower (c : Char) : isBlank c.toLower = isBlank c := by
  rcases toLower_eq_self_or c with same | ⟨lo, hi, small⟩
  · rw [same]
  · rw [isBlank_of_graphic (c := c) (by omega) (by omega),
      isBlank_of_graphic (c := c.toLower) (by omega) (by omega)]

/-- A character that is no ASCII letter is not made of another one. -/
theorem toLower_eq_iff {mark : Char}
    (noLetter : mark.toNat < 65 ∨ 90 < mark.toNat ∧ mark.toNat < 97 ∨ 122 < mark.toNat) (c : Char) :
    c.toLower = mark ↔ c = mark := by
  rcases toLower_eq_self_or c with same | ⟨lo, hi, small⟩
  · rw [same]
  · constructor
    · intro h
      rw [h] at small
      omega
    · intro h
      rw [h] at lo hi
      omega

/-! ### Lists -/

section

variable {f : Char → Char} {mark : Char}

/-- A text is cut at the same places if the mark is told from all else as before. -/
theorem splitOn_map (fixed : ∀ c, f c = mark ↔ c = mark) (s : List Char) :
    (s.map f).splitOn mark = (s.splitOn mark).map (List.map f) := by
  have atHead (c : Char) (parts : List (List Char)) :
      (parts.map (List.map f)).modifyHead (f c :: ·) =
        (parts.modifyHead (c :: ·)).map (List.map f) := by
    cases parts <;> rfl
  induction s with
  | nil => rfl
  | cons c r ih =>
    rw [List.map_cons, List.splitOn_cons_eq_if_modifyHead, List.splitOn_cons_eq_if_modifyHead, ih]
    by_cases h : c = mark
    · rw [if_pos (by simpa using (fixed c).mpr h), if_pos (by simpa using h)]
      rfl
    · rw [if_neg (by simpa using mt (fixed c).mp h), if_neg (by simpa using h)]
      exact atHead c _

/-- Texts with a mark between them, changed one by one. -/
theorem intercalate_map (fixed : f mark = mark) (parts : List (List Char)) :
    [mark].intercalate (parts.map (List.map f)) = ([mark].intercalate parts).map f := by
  have between : (parts.map (List.map f)).intersperse [mark] =
      (parts.intersperse [mark]).map (List.map f) := by
    induction parts with
    | nil => rfl
    | cons part rest ih =>
      cases rest with
      | nil => rfl
      | cons next rest =>
        show part.map f :: [mark] :: ((next :: rest).map (List.map f)).intersperse [mark] =
          part.map f :: [f mark] :: ((next :: rest).intersperse [mark]).map (List.map f)
        rw [ih, fixed]
  rw [List.intercalate, List.intercalate, between, List.map_flatten]

/-- A quoted text, changed outside of its quotes. -/
theorem wrap_map (fixed : ∀ c, f c = mark ↔ c = mark) (s : List Char) :
    Quoted.wrap mark (s.map f) = (Quoted.wrap mark s).map f := by
  have self : f mark = mark := (fixed mark).mpr rfl
  have inside : Quoted.double mark (s.map f) = (Quoted.double mark s).map f := by
    induction s with
    | nil => rfl
    | cons c r ih =>
      rw [List.map_cons, Quoted.double, Quoted.double]
      by_cases h : c = mark
      · rw [if_pos ((fixed c).mpr h), if_pos h, ih, List.map_cons, List.map_cons, self]
      · rw [if_neg (mt (fixed c).mp h), if_neg h, ih, List.map_cons]
  rw [Quoted.wrap, Quoted.wrap, inside, List.map_append, List.map_cons, self]
  simp [self]

end

end Text

/-! ### Names -/

namespace Dialect

open Text

/-- Quoting sees no letters. -/
theorem foldCase_quotedName (d : Dialect) (name : String) :
    foldCase (d.quotedName name) =
      ['.'].intercalate (((foldCase name).splitOn '.').map (Quoted.wrap d.nameQuote)) := by
  have point : ∀ c : Char, c.toLower = '.' ↔ c = '.' := toLower_eq_iff (by decide)
  have quote : ∀ c : Char, c.toLower = d.nameQuote ↔ c = d.nameQuote := by
    cases d <;> exact toLower_eq_iff (by decide)
  have parts : (nameParts name).map (fun part => Quoted.wrap d.nameQuote (part.map Char.toLower)) =
      ((nameParts name).map (Quoted.wrap d.nameQuote)).map (List.map Char.toLower) := by
    rw [List.map_map]
    exact List.map_congr_left fun part _ => wrap_map quote part
  rw [foldCase, foldCase, splitOn_map point, List.map_map, ← nameParts]
  show _ = ['.'].intercalate
    ((nameParts name).map fun part => Quoted.wrap d.nameQuote (part.map Char.toLower))
  rw [parts, intercalate_map ((point '.').mpr rfl), quotedName, String.toList_ofList]

/-- Names that agree up to letter case still do between quotes. -/
theorem sameName_quotedName (d : Dialect) {a b : String} (h : sameName a b = true) :
    sameName (d.quotedName a) (d.quotedName b) = true := by
  rw [sameName_iff, foldCase_quotedName, foldCase_quotedName, sameName_iff.mp h]

end Dialect

end Relmap
