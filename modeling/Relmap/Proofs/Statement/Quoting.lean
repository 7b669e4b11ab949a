import Relmap.Dialect.Name
import Relmap.Proofs.Statement.Template
import Relmap.Statement.Quoting
import Relmap.Statement.Window

/-!
# Placeholders in finished text

A statement is read again from left to right when its placeholders are looked for. A marked text is
tidy if such a reading meets a placeholder exactly where a mark stands: no other character outside
of quotes looks like the start of one, no mark is inside quotes or runs into a digit, and every
quoted text is closed (`Dialect.Tidy`). Tidy texts are put one after the other as long as no digit
comes after something that it would change (`Dialect.Tidy.append`).

Quoted names are tidy whatever the name, because a quote inside them is doubled
(`Dialect.solid_column`).
-/

namespace Relmap

open Number (isDigit natText)
open Text

variable {α β : Type} {d : Dialect}

/-! ### Tidy texts -/

/-- Whether a digit comes next: `follow` tells of what follows the text. -/
def digitNext (follow : Bool) : List (Sign α) → Bool
  | [] => follow
  | .char c :: _ => isDigit c
  | .mark _ :: _ => false

/-- Whether a character looks like the start of a placeholder. -/
def Dialect.startsPlaceholder (d : Dialect) (c : Char) (digit : Bool) : Bool :=
  if d.isNumbered then c = '$' && digit else c = '?'

/-- A reading that is inside `quote` meets a placeholder exactly where a mark stands, and no quoted
text is left open. -/
def Dialect.Tidy (d : Dialect) (follow : Bool) : Option Char → List (Sign α) → Prop
  | quote, [] => quote = none
  | quote, .mark _ :: r =>
    quote = none ∧ (d.isNumbered = true → digitNext follow r = false) ∧ Dialect.Tidy d follow none r
  | quote, .char c :: r =>
    (quote = none → d.startsPlaceholder c (digitNext follow r) = false) ∧
      Dialect.Tidy d follow (quoteAfter quote c) r

instance Dialect.decidableTidy (d : Dialect) (follow : Bool) :
    (quote : Option Char) → (s : List (Sign α)) → Decidable (d.Tidy follow quote s)
  | quote, [] => inferInstanceAs (Decidable (quote = none))
  | quote, .mark _ :: r =>
    have : Decidable (d.Tidy follow none r) := decidableTidy d follow none r
    inferInstanceAs
      (Decidable (quote = none ∧ (d.isNumbered = true → digitNext follow r = false) ∧ _))
  | quote, .char c :: r =>
    have : Decidable (d.Tidy follow (quoteAfter quote c) r) :=
      decidableTidy d follow (quoteAfter quote c) r
    inferInstanceAs
      (Decidable ((quote = none → d.startsPlaceholder c (digitNext follow r) = false) ∧ _))

theorem digitNext_append (follow : Bool) (s t : List (Sign α)) :
    digitNext follow (s ++ t) = digitNext (digitNext follow t) s := by
  cases s with
  | nil => rfl
  | cons x r => cases x <;> rfl

theorem digitNext_map (g : α → β) (follow : Bool) (s : List (Sign α)) :
    digitNext follow (s.map (Sign.map g)) = digitNext follow s := by
  cases s with
  | nil => rfl
  | cons x r => cases x <;> rfl

theorem digitNext_mono {s : List (Sign α)} (h : digitNext true s = false) (follow : Bool) :
    digitNext follow s = false := by
  cases s with
  | nil => cases h
  | cons x r => cases x <;> exact h

/-- Without a digit after it, a character looks like a placeholder less often. -/
theorem Dialect.startsPlaceholder_mono {c : Char} {b b' : Bool} (hb : b = true → b' = true)
    (h : d.startsPlaceholder c b' = false) : d.startsPlaceholder c b = false := by
  unfold startsPlaceholder at h ⊢
  split at h
  · rename_i hd
    rw [if_pos hd]
    cases b with
    | false => exact Bool.and_false _
    | true => rwa [hb rfl] at h
  · rename_i hd
    rwa [if_neg hd]

namespace Dialect.Tidy

variable {follow : Bool} {quote : Option Char} {s t : List (Sign α)}

/-- Tidy texts are put one after the other. -/
theorem append (hs : d.Tidy (digitNext follow t) quote s) (ht : d.Tidy follow none t) :
    d.Tidy follow quote (s ++ t) := by
  induction s generalizing quote with
  | nil =>
    have hq : quote = none := hs
    subst hq
    exact ht
  | cons x r ih =>
    have hnext := digitNext_append follow r t
    cases x with
    | mark a => exact ⟨hs.1, fun hd => hnext.trans (hs.2.1 hd), ih hs.2.2⟩
    | char c => exact ⟨fun hq => (congrArg (d.startsPlaceholder c) hnext).trans (hs.1 hq), ih hs.2⟩

/-- What may be followed by a digit may be followed by anything. -/
theorem mono (hs : d.Tidy true quote s) (follow : Bool) : d.Tidy follow quote s := by
  have hnext : ∀ r : List (Sign α), digitNext follow r = true → digitNext true r = true := by
    intro r hr
    cases r with
    | nil => rfl
    | cons x r => cases x <;> exact hr
  induction s generalizing quote with
  | nil => exact hs
  | cons x r ih =>
    cases x with
    | mark a =>
      refine ⟨hs.1, fun hd => Bool.eq_false_iff.mpr fun hr => ?_, ih hs.2.2⟩
      exact Bool.eq_false_iff.mp (hs.2.1 hd) (hnext r hr)
    | char c => exact ⟨fun hq => startsPlaceholder_mono (hnext r) (hs.1 hq), ih hs.2⟩

theorem map_iff (g : α → β) : d.Tidy follow quote (s.map (Sign.map g)) ↔ d.Tidy follow quote s := by
  induction s generalizing quote with
  | nil => rfl
  | cons x r ih =>
    cases x with
    | mark a => simp only [List.map_cons, Sign.map, Tidy, digitNext_map, ih]
    | char c => simp only [List.map_cons, Sign.map, Tidy, digitNext_map, ih]

theorem isBlank_of_isQuote {c : Char} (h : isQuote c = true) : isBlank c = false := by
  simp only [isQuote, Bool.or_eq_true, decide_eq_true_eq] at h
  rcases h with (rfl | rfl) | rfl <;> decide

/-- What is no quote neither opens nor closes a quoted text. -/
theorem quoteAfter_of_isQuote_eq_false {c : Char} (hc : isQuote c = false)
    (hq : ∀ q, quote = some q → isQuote q = true) : quoteAfter quote c = quote := by
  cases quote with
  | none => simp [quoteAfter, hc]
  | some q =>
    have hne : c ≠ q := fun h => by simp [h, hq q rfl] at hc
    simp [quoteAfter, hne]

/-- A blank neither opens nor closes a quoted text. -/
theorem quoteAfter_blank {c : Char} (hc : isBlank c = true)
    (hq : ∀ q, quote = some q → isQuote q = true) : quoteAfter quote c = quote :=
  quoteAfter_of_isQuote_eq_false
    (Bool.eq_false_iff.mpr fun h => by simp [isBlank_of_isQuote h] at hc) hq

theorem isQuote_of_quoteAfter {c : Char} (hq : ∀ q, quote = some q → isQuote q = true) (q : Char)
    (h : quoteAfter quote c = some q) : isQuote q = true := by
  cases quote with
  | none =>
    simp only [quoteAfter] at h
    split at h
    · rename_i hc
      cases h
      exact hc
    · cases h
  | some q' =>
    simp only [quoteAfter] at h
    split at h
    · cases h
    · cases h
      exact hq _ rfl

theorem isQuote_of_foldl_quoteAfter {t : List Char} (hq : ∀ q, quote = some q → isQuote q = true) :
    ∀ q, t.foldl quoteAfter quote = some q → isQuote q = true := by
  induction t generalizing quote with
  | nil => exact hq
  | cons c r ih => exact ih (isQuote_of_quoteAfter hq)

/-- Blanks at the end are outside of all quotes. -/
theorem eq_none_of_blanks (hs : d.Tidy follow quote s) (hblank : ∀ x ∈ s, x.isBlank = true)
    (hq : ∀ q, quote = some q → isQuote q = true) : quote = none := by
  induction s with
  | nil => exact hs
  | cons x r ih =>
    have hx := hblank x List.mem_cons_self
    cases x with
    | mark a => exact hs.1
    | char c =>
      have hr := hs.2
      rw [quoteAfter_blank hx hq] at hr
      exact ih hr fun y hy => hblank y (List.mem_cons_of_mem _ hy)

theorem left_of_blanks (hs : d.Tidy follow quote (s ++ t)) (hblank : ∀ x ∈ t, x.isBlank = true)
    (hq : ∀ q, quote = some q → isQuote q = true) : d.Tidy false quote s := by
  have hnext :
      ∀ r : List (Sign α), digitNext false r = true → digitNext follow (r ++ t) = true := by
    intro r hr
    cases r with
    | nil => cases hr
    | cons x r => cases x <;> exact hr
  induction s generalizing quote with
  | nil => exact eq_none_of_blanks hs hblank hq
  | cons x r ih =>
    cases x with
    | mark a =>
      refine ⟨hs.1, fun hd => Bool.eq_false_iff.mpr fun hr => ?_, ih hs.2.2 fun q h => nomatch h⟩
      exact Bool.eq_false_iff.mp (hs.2.1 hd) (hnext r hr)
    | char c =>
      refine ⟨fun h => startsPlaceholder_mono (hnext r) (hs.1 h), ih hs.2 ?_⟩
      exact isQuote_of_quoteAfter hq

/-- A tidy text without the blanks at its end is tidy. -/
theorem trimMarked (hs : d.Tidy follow none s) : d.Tidy false none (trimMarked s) := by
  obtain ⟨b, hsb, hb⟩ := trimMarked_append_blanks s
  rw [hsb] at hs
  exact left_of_blanks hs hb fun q h => nomatch h

end Dialect.Tidy

/-! ### Texts without marks -/

/-- A text without a placeholder of its own: no quoted text is left open. -/
structure Dialect.Inert (d : Dialect) (s : String) : Prop where
  tidy : d.Tidy (α := Slot) false none (unmarked s.toList)

/-- A text without a placeholder of its own that may be followed by anything. -/
structure Dialect.Solid (d : Dialect) (s : String) : Prop where
  tidy : d.Tidy (α := Slot) true none (unmarked s.toList)

/-- No digit comes first in a text before something that starts with a digit if `follow`. -/
def NoDigitFirst (follow : Bool) (s : String) : Prop :=
  digitNext (α := Slot) follow (unmarked s.toList) = false

theorem unmarked_append (s t : String) :
    (unmarked (s ++ t).toList : List (Sign α)) = unmarked s.toList ++ unmarked t.toList := by
  simp [unmarked]

theorem NoDigitFirst.append {s t : String} (hs : NoDigitFirst false s) (ht : NoDigitFirst false t) :
    NoDigitFirst false (s ++ t) := by
  rw [NoDigitFirst, unmarked_append, digitNext_append, ht]
  exact hs

theorem NoDigitFirst.append_left {s : String} (hs : NoDigitFirst true s) (follow : Bool)
    (t : String) : NoDigitFirst follow (s ++ t) := by
  rw [NoDigitFirst, unmarked_append, digitNext_append]
  exact digitNext_mono hs _

namespace Dialect

variable {s t : String}

theorem Solid.inert (h : d.Solid s) : d.Inert s := ⟨h.tidy.mono false⟩

theorem Solid.append (hs : d.Solid s) (ht : d.Solid t) : d.Solid (s ++ t) := by
  constructor
  rw [unmarked_append]
  exact (hs.tidy.mono _).append ht.tidy

theorem Solid.append_inert (hs : d.Solid s) (ht : d.Inert t) : d.Inert (s ++ t) := by
  constructor
  rw [unmarked_append]
  exact (hs.tidy.mono _).append ht.tidy

/-- A text that closes another one: it is not empty, and its first character is no digit. -/
theorem Inert.append_solid (hs : d.Inert s) (ht : d.Solid t) (hnext : NoDigitFirst true t) :
    d.Solid (s ++ t) := by
  constructor
  rw [unmarked_append]
  refine Tidy.append ?_ ht.tidy
  rw [hnext]
  exact hs.tidy

/-- A character that neither opens a quoted text nor looks like a placeholder. -/
def isPlain (c : Char) : Bool := !isQuote c && c ≠ '?' && c ≠ '$'

theorem tidy_of_plain {s : List Char} (h : s.all isPlain = true) (follow : Bool) :
    d.Tidy follow none (unmarked s : List (Sign α)) := by
  induction s with
  | nil => rfl
  | cons c r ih =>
    obtain ⟨hc, hr⟩ := Bool.and_eq_true_iff.mp h
    simp only [isPlain, Bool.and_eq_true, Bool.not_eq_true', decide_eq_true_eq] at hc
    refine ⟨fun _ => ?_, ?_⟩
    · simp [startsPlaceholder, hc.1.2, hc.2]
    · rw [quoteAfter, if_neg (by simp [hc.1.1])]
      exact ih hr

theorem solid_of_plain (h : s.toList.all isPlain = true) : d.Solid s := ⟨tidy_of_plain h true⟩

/-! ### Names -/

/-- The inside of a quoted name does not end the quoted text, whatever it is. -/
theorem tidy_double {q : Char} (hq : isQuote q = true) {follow : Bool} (s : List Char)
    {r : List (Sign α)} (hr : d.Tidy follow none r) :
    d.Tidy follow (some q) (unmarked (Quoted.double q s) ++ .char q :: r) := by
  have hclose : quoteAfter (some q) q = none := if_pos rfl
  induction s with
  | nil => exact ⟨fun h => absurd h (Option.some_ne_none q), hclose.symm ▸ hr⟩
  | cons c rest ih =>
    by_cases hc : c = q
    · -- A doubled quote closes the quoted text and opens it again.
      subst hc
      have hopen : quoteAfter none c = some c := if_pos hq
      have hplain : ∀ b, d.startsPlaceholder c b = false := by
        simp only [isQuote, Bool.or_eq_true, decide_eq_true_eq] at hq
        intro b
        rcases hq with (rfl | rfl) | rfl <;> simp [startsPlaceholder]
      rw [Quoted.double, if_pos rfl]
      refine ⟨fun h => absurd h (Option.some_ne_none c), ?_⟩
      rw [hclose]
      refine ⟨fun _ => hplain _, ?_⟩
      rw [hopen]
      exact ih
    · rw [Quoted.double, if_neg hc]
      refine ⟨fun h => absurd h (Option.some_ne_none q), ?_⟩
      rw [quoteAfter, if_neg hc]
      exact ih

theorem isQuote_nameQuote (d : Dialect) : isQuote d.nameQuote = true := by cases d <;> rfl

theorem tidy_wrap (s : List Char) :
    d.Tidy (α := α) true none (unmarked (Quoted.wrap d.nameQuote s)) := by
  have hq := d.isQuote_nameQuote
  have hinside : d.Tidy (α := α) true (some d.nameQuote)
      (unmarked (Quoted.double d.nameQuote s) ++ [.char d.nameQuote]) := tidy_double hq s rfl
  refine ⟨fun _ => ?_, ?_⟩
  · cases d <;> rfl
  · rw [quoteAfter, if_pos hq]
    simpa [unmarked] using hinside

theorem solid_quotedName (name : String) : d.Solid (d.quotedName name) := by
  have hparts : ∀ parts : List (List Char),
      d.Tidy (α := Slot) true none
        (unmarked (['.'].intercalate (parts.map (Quoted.wrap d.nameQuote)))) := by
    intro parts
    induction parts with
    | nil => rfl
    | cons part rest ih =>
      by_cases hrest : rest = []
      · subst hrest
        simpa using tidy_wrap part
      · have hpoint : d.Tidy (α := Slot) true none (unmarked ['.']) :=
          tidy_of_plain (by decide) true
        have hall :=
          ((tidy_wrap (d := d) (α := Slot) part).mono _).append ((hpoint.mono _).append ih)
        rw [List.map_cons, List.intercalate_cons_of_ne_nil (by simpa using hrest)]
        simpa [unmarked] using hall
  exact ⟨by simpa [quotedName] using hparts (nameParts name)⟩

/-- A name between two plain texts. -/
theorem solid_aroundName {before after : String} (hb : before.toList.all isPlain = true)
    (ha : after.toList.all isPlain = true) (name : String) :
    d.Solid (before ++ d.quotedName name ++ after) :=
  ((solid_of_plain hb).append (solid_quotedName name)).append (solid_of_plain ha)

/-- **A column is tidy whatever its name.** -/
theorem solid_column : ∀ (table : Option String) (column : String), d.Solid (d.column table column)
  | none, column => solid_quotedName column
  | some table, column => by
    have htable : d.Solid (d.quotedName table) := solid_quotedName table
    have hpoint : d.Solid "." := solid_of_plain (by decide)
    exact (htable.append hpoint).append (solid_quotedName column)

/-! ### Lists and windows -/

/-- Texts with commas between them. -/
theorem inert_intercalate {l : List String} (h : ∀ s ∈ l, d.Inert s) :
    d.Inert (", ".intercalate l) := by
  induction l with
  | nil => exact ⟨rfl⟩
  | cons s rest ih =>
    have hs := h s List.mem_cons_self
    have hrest := ih fun t ht => h t (List.mem_cons_of_mem _ ht)
    cases rest with
    | nil => simpa using hs
    | cons t rest =>
      rw [String.intercalate_cons_cons]
      have hcomma : d.Solid ", " := solid_of_plain (by decide)
      exact (hs.append_solid hcomma rfl).append_inert hrest

theorem isPlain_of_isDigit {c : Char} (h : isDigit c = true) : isPlain c = true := by
  have hne : ∀ x : Char, isDigit x = false → c ≠ x := fun x hx hcx => by simp [← hcx, h] at hx
  have h₁ := hne '\'' (by decide)
  have h₂ := hne '"' (by decide)
  have h₃ := hne '\x60' (by decide)
  have h₄ := hne '?' (by decide)
  have h₅ := hne '$' (by decide)
  simp [isPlain, isQuote, h₁, h₂, h₃, h₄, h₅]

theorem counted_plain {before after : String} (hb : before.toList.all isPlain = true)
    (ha : after.toList.all isPlain = true) (n : Option Nat) :
    (counted before n after).toList.all isPlain = true := by
  cases n with
  | none => rfl
  | some n =>
    have hdigits : (Nat.toDigits 10 n).all isPlain = true :=
      List.all_eq_true.mpr fun c hc => isPlain_of_isDigit (Number.isDigit_of_mem_toDigits hc)
    simp only [counted, natText, String.toList_append, String.toList_ofList, List.all_append, hb,
      hdigits, ha, Bool.and_self]

theorem noDigitFirst_counted {before : String} (hb : NoDigitFirst true before) (n : Option Nat)
    (after : String) : NoDigitFirst false (counted before n after) := by
  cases n with
  | none => rfl
  | some n =>
    rw [counted, String.append_assoc]
    exact hb.append_left false _

/-- Two parts of a window, each of a number between two words. -/
theorem solid_counted {a a' b b' : String} (hplain : (a ++ a' ++ b ++ b').toList.all isPlain = true)
    (ha : NoDigitFirst true a) (hb : NoDigitFirst true b) (m n : Option Nat) :
    d.Solid (counted a m a' ++ counted b n b') ∧
      NoDigitFirst false (counted a m a' ++ counted b n b') := by
  simp only [String.toList_append, List.all_append, Bool.and_eq_true] at hplain
  obtain ⟨⟨⟨hpa, hpa'⟩, hpb⟩, hpb'⟩ := hplain
  have hm : d.Solid (counted a m a') := solid_of_plain (counted_plain hpa hpa' m)
  have hn : d.Solid (counted b n b') := solid_of_plain (counted_plain hpb hpb' n)
  exact ⟨hm.append hn, (noDigitFirst_counted ha m a').append (noDigitFirst_counted hb n b')⟩

/-- The window of a query has nothing that could be taken for a placeholder or a part of one. -/
theorem solid_window {limit offset : Option Nat} {window : String}
    (h : d.window limit offset = .ok window) : d.Solid window ∧ NoDigitFirst false window := by
  have hoffset : NoDigitFirst true "OFFSET " := rfl
  have hlimit : NoDigitFirst true "LIMIT " := rfl
  have hfetch : NoDigitFirst true "FETCH NEXT " := rfl
  unfold Dialect.window at h
  split at h
  · cases h
    exact solid_counted (by decide) hoffset hfetch offset limit
  · split at h
    · cases h
    · cases h
      exact solid_counted (by decide) hlimit hoffset limit offset

end Dialect

end Relmap
