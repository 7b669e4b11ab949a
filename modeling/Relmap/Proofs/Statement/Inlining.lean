import Relmap.Proofs.Statement.Fitting
import Relmap.Proofs.Statement.Translation

/-!
# Literals in the places of placeholders

The text of a statement is read again when its placeholders are replaced by the literals of their
arguments. Over the text of a legible template this reading replaces the slots one by one and
nothing else (`Prepared.inlineFrom_expand`): it passes over every other character, it takes a
placeholder with its whole number, and it does not look at what it put in.

The main statement is `Script.inlineSql_eq`.
-/

namespace Relmap

open Number (isDigit)
open Text

namespace Prepared

variable {d : Dialect}

/-- The number of a placeholder is read as it was written. -/
theorem placeholderIndex_toDigits {n : Nat} (h : n + 1 < numberLimit) :
    placeholderIndex (Nat.toDigits 10 (n + 1)) = .ok n := by
  rw [placeholderIndex, Number.digitsValue_toDigits, if_neg (by omega), if_neg (by omega)]
  rfl

/-- Where a text starts with a digit after its placeholders are written, it does before. -/
theorem takeWhile_expand {s : List (Sign Slot)} (h : digitNext false s = false) :
    (expand (Slot.placeholder 0) s).takeWhile isDigit = [] := by
  cases s with
  | nil => rfl
  | cons x r =>
    cases x with
    | char c => simpa [digitNext, List.takeWhile_cons] using h
    | mark slot =>
      have hfirst : ∃ c t, Slot.placeholder 0 slot = c :: t ∧ isDigit c = false := by
        unfold Slot.placeholder Dialect.placeholder
        split
        · exact ⟨'$', _, by simp; rfl, by decide⟩
        · exact ⟨'?', [], by simp, by decide⟩
      obtain ⟨c, t, hct, hc⟩ := hfirst
      simp [hct, hc]

theorem takeWhile_digits_append {n : Nat} {s : List (Sign Slot)} (h : digitNext false s = false) :
    (Nat.toDigits 10 n ++ expand (Slot.placeholder 0) s).takeWhile isDigit = Nat.toDigits 10 n := by
  have hall : ∀ c ∈ Nat.toDigits 10 n, isDigit c = true :=
    fun c hc => Number.isDigit_of_mem_toDigits hc
  rw [List.takeWhile_append_of_pos hall, takeWhile_expand h, List.append_nil]

/-- A character that does not look like a placeholder is passed over. -/
theorem inlineFrom_char {args : List Argument} {quote : Option Char} {next : Nat} {c : Char}
    {s : List (Sign Slot)} (h : quote = none → d.startsPlaceholder c (digitNext false s) = false) :
    inlineFrom d args quote next (c :: expand (Slot.placeholder 0) s) =
      (inlineFrom d args (quoteAfter quote c) next (expand (Slot.placeholder 0) s)).map
        (c :: ·) := by
  have hpositional : ¬(quote = none ∧ c = '?' ∧ !d.isNumbered) := by
    rintro ⟨hq, hc, hd⟩
    simpa [Dialect.startsPlaceholder, hc, hd] using h hq
  have hnumbered : ¬(quote = none ∧ c = '$' ∧ d.isNumbered ∧
      (expand (Slot.placeholder 0) s).takeWhile isDigit ≠ []) := by
    rintro ⟨hq, hc, hd, hdigits⟩
    have hnext : digitNext false s = false := by
      simpa [Dialect.startsPlaceholder, hc, hd] using h hq
    exact hdigits (takeWhile_expand hnext)
  rw [inlineFrom, if_neg hpositional]
  simp only [if_neg hnumbered]
  cases inlineFrom d args (quoteAfter quote c) next (expand (Slot.placeholder 0) s) <;> rfl

/-- A placeholder is replaced by the literal of its argument. -/
theorem inlineFrom_placeholder (args : List Argument) (s : List (Sign Slot)) {next n : Nat}
    (hd : d.isNumbered = true → digitNext false s = false) (hnext : d.isNumbered = false → next = n)
    (hn : n + 1 < numberLimit) :
    ∃ next', (d.isNumbered = false → next' = n + 1) ∧
      inlineFrom d args none next
        ((d.placeholder (n + 1)).toList ++ expand (Slot.placeholder 0) s) = do
        let value ← literal args n
        return value ++ (← inlineFrom d args none next' (expand (Slot.placeholder 0) s)) := by
  cases hnum : d.isNumbered with
  | false =>
    have hplaceholder : (d.placeholder (n + 1)).toList = ['?'] := by
      simp [Dialect.placeholder, hnum]
    refine ⟨n + 1, fun _ => rfl, ?_⟩
    rw [hplaceholder, List.singleton_append, inlineFrom,
      if_pos ⟨rfl, rfl, by simp [hnum]⟩, hnext hnum]
  | true =>
    have hplaceholder : (d.placeholder (n + 1)).toList = '$' :: Nat.toDigits 10 (n + 1) := by
      simp [Dialect.placeholder, hnum, Number.natText]
    have hdigits := takeWhile_digits_append (n := n + 1) (hd hnum)
    refine ⟨next, by simp, ?_⟩
    rw [hplaceholder, List.cons_append, inlineFrom, if_neg (by simp)]
    simp only [hdigits]
    rw [if_pos ⟨trivial, trivial, hnum, Nat.toDigits_ne_nil⟩, placeholderIndex_toDigits hn,
      List.drop_left]
    rfl

/-- Reading a tidy text again replaces its placeholders by the literals of their arguments, in
order, and changes nothing else. -/
theorem inlineFrom_expand {signs : List (Sign Slot)} {quote : Option Char} {next : Nat}
    (before rest : List Argument) (htidy : d.Tidy false quote signs)
    (hslots : marks signs = (List.range rest.length).map fun i => ⟨d, before.length + i + 1⟩)
    (hnext : d.isNumbered = false → next = before.length)
    (hlimit : (before ++ rest).length < numberLimit) :
    inlineFrom d (before ++ rest) quote next (expand (Slot.placeholder 0) signs) =
      (rest.mapM Argument.literal).map fun values =>
        replaceMarks signs (values.map String.toList) := by
  induction signs generalizing quote next before rest with
  | nil =>
    have hrest : rest = [] := by simpa using hslots
    subst hrest
    rw [expand_nil, inlineFrom]
    rfl
  | cons x r ih =>
    cases x with
    | char c =>
      rw [expand_char, inlineFrom_char htidy.1, ih before rest htidy.2 hslots hnext hlimit,
        Outcome.map_map]
      rfl
    | mark slot =>
      obtain ⟨hquote, hdigit, hr⟩ := htidy
      subst hquote
      cases rest with
      | nil => simp at hslots
      | cons a rest =>
        rw [marks_mark, List.length_cons, List.range_succ_eq_map, List.map_cons, List.map_map]
          at hslots
        obtain ⟨hslot, hmore⟩ := List.cons.inj hslots
        have hlit : literal (before ++ a :: rest) before.length = a.literal.map String.toList := by
          simp only [literal, List.getElem?_append_right (Nat.le_refl _), Nat.sub_self,
            List.getElem?_cons_zero]
          cases a.literal <;> rfl
        obtain ⟨next', hnext', hstep⟩ := inlineFrom_placeholder (before ++ a :: rest) r hdigit hnext
          (by simp at hlimit; omega)
        have hih := ih (before ++ [a]) rest hr
          (by rw [hmore]; simp [Function.comp_def, Nat.add_assoc, Nat.add_comm 1])
          (by simpa using hnext') (by simpa using hlimit)
        rw [List.append_assoc, List.singleton_append] at hih
        rw [expand_mark, hslot]
        simp only [Slot.placeholder, Nat.zero_add, Nat.add_zero]
        rw [hstep, hlit, hih, List.mapM_cons]
        cases a.literal with
        | error e => rfl
        | ok value =>
          cases rest.mapM Argument.literal <;> rfl

end Prepared

/-- A text is read again as its template, whatever the values of its arguments. -/
theorem Template.Legible.inlineFrom {d : Dialect} {t : Template} (ht : t.Legible d)
    {args : List Argument} (hlen : args.length = t.args.length)
    (hlimit : args.length < Prepared.numberLimit) :
    Prepared.inlineFrom d args none 0 (t.text 0) =
      (args.mapM Argument.literal).map fun values =>
        replaceMarks t.signs (values.map String.toList) := by
  have hslots : marks t.signs = (List.range args.length).map fun i => ⟨d, 0 + i + 1⟩ := by
    simpa [hlen, Template.InOrder, Template.slots] using ht.inOrder
  exact Prepared.inlineFrom_expand [] args ht.tidy hslots (fun _ => rfl) hlimit

/-! ### Statements -/

/-- The literals of arguments are there exactly if all arguments are set. -/
theorem Argument.mapM_literal {args : List Argument} :
    (∃ values, args.mapM Argument.literal = .ok values) ↔ ∀ a ∈ args, a.isSet = true := by
  induction args with
  | nil => exact ⟨fun _ a ha => (nomatch ha), fun _ => ⟨[], rfl⟩⟩
  | cons a rest ih =>
    have hset : (∃ value, a.literal = .ok value) ↔ a.isSet = true := by
      simp only [literal, stored, isSet]
      cases a.value with
      | none => exact ⟨fun ⟨_, h⟩ => (nomatch h), fun h => nomatch h⟩
      | some v => exact ⟨fun _ => rfl, fun _ => ⟨_, rfl⟩⟩
    rw [List.forall_mem_cons, ← ih, ← hset, List.mapM_cons]
    simp only [Outcome.bind_eq_ok, Outcome.pure_eq_ok]
    constructor
    · rintro ⟨_, value, hvalue, values, hvalues, -⟩
      exact ⟨⟨value, hvalue⟩, ⟨values, hvalues⟩⟩
    · rintro ⟨⟨value, hvalue⟩, values, hvalues⟩
      exact ⟨_, value, hvalue, values, hvalues, rfl⟩

namespace Script

/-- The text for logs of a statement is the one of its template with the literals of the
arguments. -/
theorem inlineSql_of_template {d : Dialect} {t : Table} {s : Script} (hs : s.Fits d) {u : Template}
    (hu : s.template d t = .ok u) (kind : StatementKind) {args : List Argument}
    (hlen : args.length = u.args.length) (hlimit : args.length < Prepared.numberLimit) :
    Prepared.inlineSql { sql := String.ofList (u.text 0), kind, args, dialect := d, table := t } =
      (args.mapM Argument.literal).map fun values =>
        String.ofList (replaceMarks u.signs (values.map String.toList)) := by
  have hread := (legible_template hs hu).inlineFrom hlen hlimit
  rw [Prepared.inlineSql, String.toList_ofList, hread]
  cases args.mapM Argument.literal <;> rfl

/-- **Every placeholder becomes the literal of its own argument.** Let no free text of a statement
have a placeholder of its own. Then its text is the one of its template with the placeholders in
order, and the text for logs is the same one with the literals of the arguments in their places: if
all arguments are set there is such a text, and otherwise there is none. Arguments may have been set
since the statement was prepared; they are as many as a list in memory can hold.

Under PostgreSQL and H2 the same calls over the same table come to the same text for logs. -/
theorem inlineSql_eq (d : Dialect) (t : Table) (s : Script) :
    (s.Fits d → ∀ p, s.prepare d t = .ok p → ∀ args, args.length = p.args.length →
      args.length < Prepared.numberLimit →
      ∃ u, s.template d t = .ok u ∧ u.slots = (List.range args.length).map (fun i => ⟨d, i + 1⟩) ∧
        p.sql = String.ofList (replaceMarks u.signs
          ((List.range args.length).map fun i => (d.placeholder (i + 1)).toList)) ∧
        ((∀ a ∈ args, a.isSet = true) → ∃ values, args.mapM Argument.literal = .ok values ∧
          { p with args }.inlineSql =
            .ok (String.ofList (replaceMarks u.signs (values.map String.toList)))) ∧
        ((∃ a ∈ args, a.isSet = false) → ∃ e, { p with args }.inlineSql = .error e)) ∧
    ((s.inDialect .postgresql).Fits .postgresql → (s.inDialect .h2).Fits .h2 →
      (∀ e, (s.inDialect .postgresql).prepare .postgresql t = .error e →
        (s.inDialect .h2).prepare .h2 t = .error e) ∧
      ∀ p, (s.inDialect .postgresql).prepare .postgresql t = .ok p →
        ∃ q, (s.inDialect .h2).prepare .h2 t = .ok q ∧ q.args = p.args ∧
          ∀ args, args.length = p.args.length → args.length < Prepared.numberLimit →
            { p with args }.inlineSql = { q with args }.inlineSql) ∧
    ∀ decl : TableDecl, decl.toTable .postgresql = decl.toTable .h2 := by
  refine ⟨fun hs p hp args hlen hlimit => ?_, fun hpostgresql hh2 => ?_,
    postgresql_alike_h2.toTable⟩
  · rw [prepare_eq_template] at hp
    obtain ⟨u, hu, rfl⟩ := Outcome.map_eq_ok.mp hp
    have hslots : u.slots = (List.range args.length).map fun i => ⟨d, i + 1⟩ := by
      rw [hlen]
      exact (legible_template hs hu).inOrder
    have hinline := inlineSql_of_template hs hu (s.kind d t) hlen hlimit
    refine ⟨u, hu, hslots, ?_, fun hset => ?_, fun hunset => ?_⟩
    · have htext := replaceMarks_marks (Slot.placeholder 0) u.signs
      rw [← Template.slots, hslots, List.map_map] at htext
      rw [Template.text, ← htext]
      simp only [Function.comp_def, Slot.placeholder, Nat.zero_add]
    · obtain ⟨values, hvalues⟩ := Argument.mapM_literal.mpr hset
      refine ⟨values, hvalues, ?_⟩
      rw [hinline, hvalues]
      rfl
    · cases hvalues : args.mapM Argument.literal with
      | error e => exact ⟨e, by rw [hinline, hvalues]; rfl⟩
      | ok values =>
        obtain ⟨a, ha, hafalse⟩ := hunset
        have hatrue := Argument.mapM_literal.mp ⟨values, hvalues⟩ a ha
        exact absurd hatrue (by simp [hafalse])
  · have htemplate := template_inDialect postgresql_alike_h2 t s
    rw [prepare_eq_template, prepare_eq_template, htemplate]
    cases hu : (s.inDialect .postgresql).template .postgresql t with
    | error e => exact ⟨fun f hf => hf, fun p hp => by cases hp⟩
    | ok u =>
      rw [hu] at htemplate
      refine ⟨fun f hf => (by cases hf), fun p hp => ?_⟩
      cases hp
      refine ⟨_, rfl, rfl, fun args hlen hlimit => ?_⟩
      have hleft := inlineSql_of_template hpostgresql hu
        ((s.inDialect .postgresql).kind .postgresql t) hlen hlimit
      have hright := inlineSql_of_template hh2 htemplate ((s.inDialect .h2).kind .h2 t) hlen hlimit
      simp only [Template.inDialect, replaceMarks_map] at hright
      exact hleft.trans hright.symm

/-- Question marks in the name of a table and in a quoted text stay, the placeholder becomes a
literal. -/
theorem inlineSql_of_delete :
    ∃ p q,
      (Script.delete [.restrict (.test (.raw "a = '?' OR b = ?" [.raw .null]))]).prepare .postgresql
        ⟨"t?", [], rfl⟩ = .ok p ∧
      (Script.delete [.restrict (.test (.raw "a = '?' OR b = ?" [.raw .null]))]).prepare .h2
        ⟨"t?", [], rfl⟩ = .ok q ∧
      p.inlineSql = .ok "DELETE FROM \"t?\" WHERE a = '?' OR b = NULL" ∧
      q.inlineSql = p.inlineSql := by
  have hfits :
      ∀ d, (Script.delete [.restrict (.test (.raw "a = '?' OR b = ?" [.raw .null]))]).Fits d := by
    intro d call hcall
    cases List.mem_singleton.mp hcall
    cases d <;> exact ⟨by decide, rfl⟩
  obtain ⟨p, hp⟩ :
      ∃ p, (Script.delete [.restrict (.test (.raw "a = '?' OR b = ?" [.raw .null]))]).prepare
        .postgresql ⟨"t?", [], rfl⟩ = .ok p := ⟨_, rfl⟩
  have hargs : p.args = [.raw .null] := by cases hp; rfl
  have hlimit : p.args.length < Prepared.numberLimit := by rw [hargs]; decide
  obtain ⟨hd, hsame, -⟩ := inlineSql_eq .postgresql ⟨"t?", [], rfl⟩
    (.delete [.restrict (.test (.raw "a = '?' OR b = ?" [.raw .null]))])
  obtain ⟨u, hu, -, -, hset, -⟩ := hd (hfits _) p hp p.args rfl hlimit
  obtain ⟨q, hq, hqargs, heq⟩ := (hsame (hfits _) (hfits _)).2 p hp
  obtain ⟨values, hvalues, hinline⟩ := hset (by rw [hargs]; decide)
  have hlogs := heq p.args rfl hlimit
  change p.inlineSql = Prepared.inlineSql { q with args := p.args } at hlogs
  rw [← hqargs] at hlogs
  refine ⟨p, q, hp, hq, ?_, hlogs.symm⟩
  rw [hinline]
  rw [hargs] at hvalues
  cases hvalues
  cases hu
  rfl

end Script

end Relmap
