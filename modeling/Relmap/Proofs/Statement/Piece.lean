import Relmap.Proofs.Statement.Grouping
import Relmap.Proofs.Statement.Numbering
import Relmap.Proofs.Statement.Quoting
import Relmap.Proofs.Text.Caseless

/-!
# Pieces of SQL as conditions

A piece of SQL that is a condition is read like any other text of a condition, but its words may be
of any case and its blanks of any kind (`unstyle`). How it is read is given with it: which parts of
it are tests, and the formula it is (`Reading`, `Piece`). Numbering its placeholders changes the
texts of its tests and nothing between them (`Piece.renumber_text`).
-/

namespace Relmap

open Text

/-! ### Words of any case -/

namespace Text

/-- A character stays unless it is a small letter, and then it is thirty-two places further back. -/
theorem toUpper_eq_self_or (c : Char) :
    c.toUpper = c ∨ 97 ≤ c.toNat ∧ c.toNat ≤ 122 ∧ c.toUpper.toNat + 32 = c.toNat := by
  by_cases small : c.val ≥ 'a'.val ∧ c.val ≤ 'z'.val
  · right
    have lo : 97 ≤ c.val.toNat := small.1
    have hi : c.val.toNat ≤ 122 := small.2
    have capital : c.toUpper.val = c.val + ('A'.val - 'a'.val) := by
      unfold Char.toUpper
      rw [dif_pos small]
    refine ⟨lo, hi, ?_⟩
    have gap : ('A'.val - 'a'.val).toNat = 4294967264 := by decide
    show c.toUpper.val.toNat + 32 = c.val.toNat
    rw [capital, UInt32.toNat_add, gap]
    omega
  · exact .inl (dif_neg small)

theorem isBlank_toUpper (c : Char) : isBlank c.toUpper = isBlank c := by
  rcases toUpper_eq_self_or c with same | ⟨lo, hi, capital⟩
  · rw [same]
  · rw [isBlank_of_graphic (c := c) (by omega) (by omega),
      isBlank_of_graphic (c := c.toUpper) (by omega) (by omega)]

end Text

/-- A character between tests, where SQL takes all blanks for one and small letters for capitals. -/
def unstyled (c : Char) : Char := if isBlank c then ' ' else c.toUpper

/-- A marked text with all blanks as one and small letters as capitals. -/
def unstyle {α : Type} (s : List (Sign α)) : List (Sign α) := s.map (Sign.mapChar unstyled)

theorem isBlank_unstyled (c : Char) : isBlank (unstyled c) = isBlank c := by
  by_cases h : isBlank c = true
  · rw [unstyled, if_pos h, h]
    decide
  · rw [unstyled, if_neg h, isBlank_toUpper]

section

variable {α β : Type}

@[simp] theorem unstyle_append (s t : List (Sign α)) : unstyle (s ++ t) = unstyle s ++ unstyle t :=
  List.map_append

theorem unstyle_unmarked {s : List Char} (h : s.map unstyled = s) :
    unstyle (unmarked s : List (Sign α)) = unmarked s := by
  have hcomm : (Sign.mapChar unstyled ∘ Sign.char : Char → Sign α) = Sign.char ∘ unstyled := rfl
  rw [unstyle, unmarked, List.map_map, hcomm, ← List.map_map, h]

theorem unstyle_map (r : α → β) (s : List (Sign α)) :
    unstyle (s.map (Sign.map r)) = (unstyle s).map (Sign.map r) := by
  induction s with
  | nil => rfl
  | cons x s ih => cases x <;> exact congrArg (_ :: ·) ih

theorem trimMarked_unstyle (s : List (Sign α)) : trimMarked (unstyle s) = unstyle (trimMarked s) :=
  trimMarked_mapChar isBlank_unstyled s

theorem marks_unstyle (s : List (Sign α)) : marks (unstyle s) = marks s := by
  induction s with
  | nil => rfl
  | cons x s ih =>
    cases x with
    | char c => exact ih
    | mark a => exact congrArg (a :: ·) ih

end

/-! ### Tokens and blanks -/

namespace Token

variable {α : Type}

/-- What stands between tests is made of these characters. -/
def structural : List Char := [' ', '(', ')', 'A', 'N', 'D', 'O', 'R', 'T']

theorem structural_of_ofWord {w : List (Sign α)} {ts : List (Token α)} (h : ofWord w = some ts)
    {c : Char} (hc : .char c ∈ w) : c ∈ structural := by
  unfold ofWord at h
  split at h
  · exact absurd hc List.not_mem_nil
  · simp at hc
  · simp only [List.mem_cons, List.not_mem_nil, Sign.char.injEq, or_false] at hc
    rcases hc with rfl | rfl | rfl <;> decide
  · simp only [List.mem_cons, List.not_mem_nil, Sign.char.injEq, or_false] at hc
    rcases hc with rfl | rfl <;> decide
  · simp only [List.mem_cons, List.not_mem_nil, Sign.char.injEq, or_false] at hc
    rcases hc with rfl | rfl | rfl <;> decide
  · cases h

theorem structural_of_ofBreak? {c : Char} {b : List (Token α)}
    (h : ofBreak? (.char c : Sign α) = some b) : c ∈ structural := by
  unfold ofBreak? at h
  split at h
  · rename_i heq
    cases heq
    decide
  · rename_i heq
    cases heq
    decide
  · rename_i heq
    cases heq
    decide
  · cases h

theorem structural_of_scanFrom {word s : List (Sign α)} {ts : List (Token α)}
    (h : scanFrom word s = some ts) {c : Char} (hc : .char c ∈ word ++ s) : c ∈ structural := by
  induction s generalizing word ts with
  | nil => exact structural_of_ofWord (w := word) h (by simpa using hc)
  | cons x r ih =>
    cases hx : ofBreak? x with
    | none =>
      rw [scanFrom_cons_none hx] at h
      exact ih h (by simpa using hc)
    | some b =>
      obtain ⟨w, us, hw, hus, -⟩ := scanFrom_cons_some hx h
      rcases List.mem_append.mp hc with hc | hc
      · exact structural_of_ofWord hw hc
      · rcases List.mem_cons.mp hc with rfl | hc
        · exact structural_of_ofBreak? hx
        · exact ih hus hc

theorem eq_space_of_structural {c : Char} (h : c ∈ structural) (hc : isBlank c = true) :
    c = ' ' := by
  simp only [structural, List.mem_cons, List.not_mem_nil, or_false] at h
  rcases h with rfl | rfl | rfl | rfl | rfl | rfl | rfl | rfl | rfl
  · rfl
  all_goals exact absurd hc (by decide)

/-- A blank at the end of a text is no token. -/
theorem scanFrom_of_concat_blank {word s : List (Sign α)} {x : Sign α} {ts : List (Token α)}
    (hx : x.isBlank = true) (h : scanFrom word (s ++ [x]) = some ts) :
    scanFrom word s = some ts := by
  have hspace : x = .char ' ' := by
    cases x with
    | mark a => cases hx
    | char c =>
      have hc : c ∈ structural := structural_of_scanFrom h (by simp)
      exact congrArg Sign.char (eq_space_of_structural hc hx)
  subst hspace
  induction s generalizing word ts with
  | nil =>
    obtain ⟨w, us, hw, hus, rfl⟩ := scanFrom_cons_some (b := []) rfl h
    cases hus
    simpa [scanFrom] using hw
  | cons y r ih =>
    cases hy : ofBreak? y with
    | none =>
      rw [List.cons_append, scanFrom_cons_none hy] at h
      rw [scanFrom_cons_none hy]
      exact ih h
    | some b =>
      obtain ⟨w, us, hw, hus, rfl⟩ := scanFrom_cons_some hy h
      simp [scanFrom, hy, hw, ih hus]

theorem scan_trimMarked {s : List (Sign α)} {ts : List (Token α)} (h : scan s = some ts) :
    scan (trimMarked s) = some ts := by
  obtain ⟨b, hs, hb⟩ := trimMarked_append_blanks s
  generalize trimMarked s = r at hs ⊢
  subst hs
  induction b using List.reverseRecOn with
  | nil => rwa [List.append_nil] at h
  | append_singleton b x ih =>
    obtain ⟨hb, hx⟩ := List.forall_mem_append.mp hb
    rw [← List.append_assoc] at h
    exact ih hb (scanFrom_of_concat_blank (hx x (List.mem_singleton_self x)) h)

end Token

/-! ### Readings -/

/-- How a text is read: with its tests as single signs, which are numbered from zero, its tokens and
the formula it is. -/
structure Reading where
  size : Nat
  signs : List (Sign Nat)
  tokens : List (Token Nat)
  formula : Formula Nat
  marks_signs : marks signs = List.range size
  scan_signs : Token.scan (unstyle signs) = some tokens
  reads : Reads .disjunction tokens formula

namespace Reading

/-- A text that is one test. -/
def test : Reading where
  size := 1
  signs := [.mark 0]
  tokens := [.atom 0]
  formula := .atom 0
  marks_signs := rfl
  scan_signs := rfl
  reads := (Reads.atom 0).ofFactor _

/-- The text holds together as closely as texts of a level do. -/
def Stands (r : Reading) (l : Level) : Prop := Reads l r.tokens r.formula

theorem stands_test (l : Level) : test.Stands l := (Reads.atom 0).ofFactor l

/-- Neither quotes nor placeholders stand between tests. -/
theorem inert (r : Reading) {c : Char} (hc : .char c ∈ r.signs) : isQuote c = false ∧ c ≠ '?' := by
  have hmem : .char (unstyled c) ∈ unstyle r.signs := List.mem_map_of_mem hc
  have hstructural : unstyled c ∈ Token.structural :=
    Token.structural_of_scanFrom r.scan_signs (by simpa using hmem)
  refine ⟨Bool.eq_false_iff.mpr fun hquote => ?_, fun hask => ?_⟩
  · simp only [isQuote, Bool.or_eq_true, decide_eq_true_eq] at hquote
    rcases hquote with (rfl | rfl) | rfl <;> exact absurd hstructural (by decide)
  · subst hask
    exact absurd hstructural (by decide)

end Reading

/-- A piece of SQL that is a condition: how it is read, and the texts of its tests. -/
structure Piece extends Reading where
  tests : List (List Char)
  length_tests : tests.length = size
  endsVisibly : ∀ t ∈ tests, EndsVisibly t

/-- The text of a piece. -/
def Piece.text (p : Piece) : List Char := replaceMarks p.signs p.tests

/-! ### Numbered placeholders -/

/-- Texts one after another with their placeholders numbered on, where what stands between them has
neither placeholders nor quotes. -/
def Dialect.renumberEach (d : Dialect) (count : Nat) (quote : Option Char) :
    List (List Char) → List (List Char)
  | [] => []
  | t :: rest =>
    d.renumber count quote t ::
      renumberEach d (count + placeholderCount quote t) (t.foldl quoteAfter quote) rest

namespace Dialect

variable (d : Dialect)

open Dialect.Tidy (quoteAfter_of_isQuote_eq_false isQuote_of_foldl_quoteAfter)

theorem renumber_append (count : Nat) (quote : Option Char) (s t : List Char) :
    d.renumber count quote (s ++ t) = d.renumber count quote s ++
      d.renumber (count + placeholderCount quote s) (s.foldl quoteAfter quote) t := by
  induction s generalizing count quote with
  | nil => rfl
  | cons c r ih =>
    by_cases hc : quote = none ∧ c = '?'
    · obtain ⟨rfl, rfl⟩ := hc
      have hopen : quoteAfter none '?' = none := rfl
      simp [renumber, placeholderCount, ih, hopen, Nat.add_assoc, Nat.add_comm 1]
    · simp [renumber, placeholderCount, hc, ih]

theorem endsVisibly_renumber (count : Nat) (quote : Option Char) {t : List Char}
    (h : EndsVisibly t) : EndsVisibly (d.renumber count quote t) := by
  obtain ⟨r, c, rfl, hc⟩ := h
  rw [renumber_append]
  refine EndsVisibly.append ?_ _
  by_cases hask : r.foldl quoteAfter quote = none ∧ c = '?'
  · simpa [renumber, hask] using d.endsVisibly_placeholder _
  · exact ⟨[], c, by simp [renumber, hask], hc⟩

@[simp] theorem length_renumberEach (count : Nat) (quote : Option Char) (ts : List (List Char)) :
    (d.renumberEach count quote ts).length = ts.length := by
  induction ts generalizing count quote with
  | nil => rfl
  | cons t rest ih => simp [renumberEach, ih]

theorem endsVisibly_renumberEach {count : Nat} {quote : Option Char} {ts : List (List Char)}
    (h : ∀ t ∈ ts, EndsVisibly t) : ∀ t ∈ d.renumberEach count quote ts, EndsVisibly t := by
  induction ts generalizing count quote with
  | nil => exact h
  | cons t rest ih =>
    obtain ⟨ht, hrest⟩ := List.forall_mem_cons.mp h
    exact List.forall_mem_cons.mpr ⟨d.endsVisibly_renumber count quote ht, ih hrest⟩

/-- Numbering the placeholders of a text is numbering those of what stands for its marks, one after
another. -/
theorem renumber_replaceMarks {α : Type} (count : Nat) (quote : Option Char) {s : List (Sign α)}
    (h : ∀ c, .char c ∈ s → isQuote c = false ∧ c ≠ '?') (ts : List (List Char))
    (hq : ∀ q, quote = some q → isQuote q = true) :
    d.renumber count quote (replaceMarks s ts) = replaceMarks s (d.renumberEach count quote ts) := by
  induction s generalizing count quote ts with
  | nil => rfl
  | cons x r ih =>
    have hr : ∀ c, .char c ∈ r → isQuote c = false ∧ c ≠ '?' := fun c hc =>
      h c (List.mem_cons_of_mem x hc)
    cases x with
    | char c =>
      obtain ⟨hquote, hask⟩ := h c List.mem_cons_self
      have hsame : quoteAfter quote c = quote := quoteAfter_of_isQuote_eq_false hquote hq
      simp [replaceMarks, renumber, hask, hsame, ih count quote hr ts hq]
    | mark a =>
      cases ts with
      | nil => exact ih count quote hr [] hq
      | cons t ts =>
        rw [replaceMarks, renumber_append, renumberEach, replaceMarks,
          ih _ _ hr ts (isQuote_of_foldl_quoteAfter hq)]

end Dialect

namespace Piece

variable (p : Piece) (d : Dialect) (count : Nat)

/-- The texts of the tests of a piece with numbered placeholders. -/
def numbered : List (List Char) := d.renumberEach count none p.tests

@[simp] theorem length_numbered : (p.numbered d count).length = p.size := by
  rw [numbered, Dialect.length_renumberEach, p.length_tests]

theorem endsVisibly_numbered : ∀ t ∈ p.numbered d count, EndsVisibly t :=
  d.endsVisibly_renumberEach p.endsVisibly

/-- Numbering the placeholders of a piece is numbering those of its tests. -/
theorem renumber_text : d.renumber count none p.text =
    expand (fun j => (p.numbered d count).getD j []) p.signs := by
  have hnumbered : p.numbered d count = (marks p.signs).map fun j =>
      (p.numbered d count).getD j [] := by
    rw [p.marks_signs]
    refine List.ext_getElem (by simp) fun i hi _ => ?_
    simp [List.getD_eq_getElem?_getD, List.getElem?_eq_getElem hi]
  rw [text, d.renumber_replaceMarks count none (fun c => p.inert) p.tests (fun q h => nomatch h),
    ← replaceMarks_marks, ← hnumbered, numbered]

end Piece

end Relmap
