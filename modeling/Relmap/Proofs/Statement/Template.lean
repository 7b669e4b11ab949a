import Relmap.Proofs.Number.Digits
import Relmap.Proofs.Text.Marked
import Relmap.Statement.Template

/-!
# Templates: one after the other

Templates are put one after the other by moving the slots of the second on by the arguments of the
first (`fill_append`). What writes into a draft without looking at it is a template (`Writes`), or a
failure whatever the draft, and so is one such part after another and a part without the blanks at
its end.
-/

namespace Relmap

open Text

/-- The last character of a placeholder is no blank: it is a question mark or a digit. -/
theorem Dialect.endsVisibly_placeholder (d : Dialect) (n : Nat) :
    EndsVisibly (d.placeholder n).toList := by
  unfold Dialect.placeholder
  split
  · obtain ⟨r, c, hrc⟩ : ∃ r c, Nat.toDigits 10 n = r ++ [c] :=
      ⟨_, _, (List.dropLast_append_getLast Nat.toDigits_ne_nil).symm⟩
    have hc : Number.isDigit c = true := Number.isDigit_of_mem_toDigits (n := n) (by simp [hrc])
    exact ⟨'$' :: r, c, by simp [Number.natText, hrc], Number.isBlank_of_isDigit hc⟩
  · exact ⟨[], '?', by simp, by decide⟩

/-! ### Slots -/

namespace Slot

/-- The slot after more arguments. -/
def shift (n : Nat) (s : Slot) : Slot := { s with offset := n + s.offset }

theorem placeholder_shift (before n : Nat) (s : Slot) :
    (s.shift n).placeholder before = s.placeholder (before + n) := by
  simp [placeholder, shift, Nat.add_assoc]

end Slot

namespace Template

/-! ### Building blocks -/

/-- A text. -/
def ofText (s : String) : Template := fixed s []

/-- A placeholder with its argument. -/
def ofArgument (d : Dialect) (a : Argument) : Template := ⟨[.mark ⟨d, 1⟩], [a]⟩

instance : Append Template where
  append t u := ⟨t.signs ++ u.signs.map (Sign.map (Slot.shift t.args.length)), t.args ++ u.args⟩

/-- Placeholders after commas, one to an argument. -/
def ofMoreArguments (d : Dialect) : List Argument → Template
  | [] => ofText ""
  | a :: rest => ofText "," ++ ofArgument d a ++ ofMoreArguments d rest

/-- The template without the blanks at its end. -/
def trimmed (t : Template) : Template := { t with signs := trimMarked t.signs }

/-- The slots, in order. -/
def slots (t : Template) : List Slot := marks t.signs

@[simp] theorem args_append (t u : Template) : (t ++ u).args = t.args ++ u.args := rfl

@[simp] theorem signs_append (t u : Template) :
    (t ++ u).signs = t.signs ++ u.signs.map (Sign.map (Slot.shift t.args.length)) := rfl

@[simp] theorem args_ofText (s : String) : (ofText s).args = [] := rfl

@[simp] theorem args_ofArgument (d : Dialect) (a : Argument) : (ofArgument d a).args = [a] := rfl

@[simp] theorem args_trimmed (t : Template) : t.trimmed.args = t.args := rfl

@[simp] theorem text_ofText (s : String) (n : Nat) : (ofText s).text n = s.toList :=
  expand_unmarked _ _

@[simp] theorem text_ofArgument (d : Dialect) (a : Argument) (n : Nat) :
    (ofArgument d a).text n = (d.placeholder (n + 1)).toList := by
  simp [ofArgument, text, Slot.placeholder]

theorem append_empty (t : Template) : t ++ ofText "" = t := by
  have hsigns : t.signs ++ [] = t.signs := List.append_nil _
  have hargs : t.args ++ [] = t.args := List.append_nil _
  change Template.mk (t.signs ++ []) (t.args ++ []) = t
  rw [hsigns, hargs]

theorem text_append (t u : Template) (n : Nat) :
    (t ++ u).text n = t.text n ++ u.text (n + t.args.length) := by
  have hshift :
      Slot.placeholder n ∘ Slot.shift t.args.length = Slot.placeholder (n + t.args.length) := by
    funext s
    exact s.placeholder_shift n _
  rw [text, text, text, signs_append, expand_append, expand_map, hshift]

theorem text_trimmed (t : Template) (n : Nat) : t.trimmed.text n = trimEnd (t.text n) :=
  (trimEnd_expand fun s _ => s.dialect.endsVisibly_placeholder _).symm

end Template

/-! ### Drafts -/

namespace Draft

theorem write_eq_fill (d : Draft) (s : String) : d.write s = d.fill (.ofText s) := by
  simp [write, fill]

/-- Writing nothing changes nothing. -/
@[simp] theorem fill_empty (d : Draft) : d.fill (.ofText "") = d := by
  simp [fill]

theorem ask_eq_fill (d : Draft) (dialect : Dialect) (a : Argument) :
    d.ask dialect a = d.fill (.ofArgument dialect a) := by
  simp [ask, fill]

/-- Writing two templates is writing the one made of both. -/
theorem fill_append (d : Draft) (t u : Template) : d.fill (t ++ u) = (d.fill t).fill u := by
  simp [fill, Template.text_append, String.append_assoc]

theorem askMore_eq_fill (dialect : Dialect) (args : List Argument) (d : Draft) :
    d.askMore dialect args = d.fill (.ofMoreArguments dialect args) := by
  induction args generalizing d with
  | nil => rw [askMore, Template.ofMoreArguments, fill_empty]
  | cons a rest ih =>
    rw [askMore, Template.ofMoreArguments, ih, fill_append, fill_append, write_eq_fill, ask_eq_fill]

/-- A part of a statement writes a template, or fails, whatever the draft. -/
def Writes (part : Draft → Except Failure Draft) (out : Except Failure Template) : Prop :=
  ∀ d, part d = out.map d.fill

/-- A text before a part. -/
theorem Writes.afterText {f : Draft → Except Failure Draft} {x : Except Failure Template}
    (hf : Writes f x) (s : String) :
    Writes (fun d => f (d.write s)) (x.map (Template.ofText s ++ ·)) := by
  intro d
  change f (d.write s) = _
  rw [hf, write_eq_fill]
  cases x with
  | error e => exact (rfl : Except.error e = Except.error e)
  | ok t =>
    change Except.ok _ = Except.ok (d.fill (Template.ofText s ++ t))
    rw [fill_append]

/-- A text after a part. -/
theorem Writes.beforeText {f : Draft → Except Failure Draft} {x : Except Failure Template}
    (hf : Writes f x) (s : String) :
    Writes (fun d => do return (← f d).write s) (x.map (· ++ Template.ofText s)) := by
  intro d
  simp only [hf d]
  cases x with
  | error e => rfl
  | ok t =>
    change Except.ok _ = Except.ok (d.fill (t ++ Template.ofText s))
    rw [write_eq_fill, fill_append]

/-- A part between two texts. -/
theorem Writes.between {f : Draft → Except Failure Draft} {x : Except Failure Template}
    (hf : Writes f x) (s e : String) :
    Writes (fun d => do return (← f (d.write s)).write e)
      (x.map fun t => Template.ofText s ++ t ++ Template.ofText e) := by
  intro d
  have h := (hf.afterText s).beforeText e d
  cases x with
  | error e => exact h
  | ok t => exact h

/-- A part without the blanks at its end. -/
theorem Writes.trimmed {f : Draft → Except Failure Draft} {x : Except Failure Template}
    (hf : Writes f x) : Writes (fun d => d.trimmed f) (x.map Template.trimmed) := by
  intro d
  simp only [Draft.trimmed, hf { d with text := "" }]
  cases x with
  | error e => rfl
  | ok t =>
    refine congrArg Except.ok ?_
    simp [fill, Template.text_trimmed, trimTail]

/-- A part without the blanks at its end, between two texts. -/
theorem Writes.enclosed {f : Draft → Except Failure Draft} {x : Except Failure Template}
    (hf : Writes f x) (s e : String) :
    Writes (fun d => do return (← (d.write s).trimmed f).write e)
      (x.map fun t => Template.ofText s ++ t.trimmed ++ Template.ofText e) := by
  intro d
  have h := hf.trimmed.between s e d
  cases x with
  | error e => exact h
  | ok t => exact h

end Draft

end Relmap
