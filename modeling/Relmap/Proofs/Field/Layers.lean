import Relmap.Proofs.Field.Null

/-!
# Layers that say nothing

A converter is a codec in any number of layers, and a layer may call the converter that it is put
around. What a layer says about values can therefore be seen from outside only through the layers
above it. Converters that behave alike still do so in one more layer (`Converter.Alike.adapt`),
hence under any layers at all (`Converter.Alike.under`), so it is enough to look at a layer from
outside: one that passes everything on changes nothing but the name, one that has a type for the
stored values nothing but that type, and a second layer for characters changes nothing.

The layer for characters takes a character out of a column as a text and makes a character of that
text again. Around a codec of characters the two cancel, whatever other layers there are
(`Converter.fetched_characterCompat`). Columns are read through any cursor here.

The main statement is `Converter.layers_transparent`.
-/

namespace Relmap

open Outcome

/-- A value as the layer for characters takes it: a text of one character is that character. -/
def Field.textAsChar (f : Field) : Value → Except Failure Value
  | .text s => .char <$> f.parseChar s
  | v => .ok v

theorem charAsText_charAsText (v : Value) : charAsText (charAsText v) = charAsText v := by
  cases v <;> rfl

/-- What the layer for characters takes, a second one takes as it is. -/
theorem Field.textAsChar_of_ok {f : Field} {v u : Value} (h : f.textAsChar v = .ok u) :
    f.textAsChar u = .ok u := by
  cases v with
  | text s =>
    obtain ⟨k, -, rfl⟩ := map_eq_ok.mp h
    rfl
  | _ =>
    obtain rfl := Except.ok.inj h
    rfl

theorem Field.textAsChar_ofList (f : Field) (k : Char) :
    f.textAsChar (.text (String.ofList [k])) = .ok (.char k) := by
  have single : f.parseChar (String.ofList [k]) = .ok k := by
    rw [Field.parseChar, String.toList_ofList]
  rw [Field.textAsChar, single]
  rfl

namespace Converter

variable {a b c : Converter}

/-! ### Converters that behave alike -/

/-- Two converters do the same with every field, value, text, cursor and column, and have the same
codec, which is all that their flags, formats, keys, versions and ids come from. Only their names
and the types of their stored values may differ. -/
structure Alike (a b : Converter) : Prop where
  codec : a.codec = b.codec
  parseDefault (f : Field) (s : String) : a.parseDefault f s = b.parseDefault f s
  toStored (f : Field) (v : Value) : a.toStored f v = b.toStored f v
  ofStored (f : Field) (v : Value) (position : Nat) :
    a.ofStored f v position = b.ofStored f v position
  ofText (f : Field) (s : String) : a.ofText f s = b.ofText f s
  fetchStored (x : Cursor) (position : Nat) :
    fetchStoredThrough a.codec x position a.layers = fetchStoredThrough b.codec x position b.layers
  fetch (f : Field) (x : Cursor) (position : Nat) : a.fetch f x position = b.fetch f x position
  readStored (r : Results) (position : Nat) : a.readStored r position = b.readStored r position
  ofColumn (f : Field) (r : Results) (position : Nat) :
    a.ofColumn f r position = b.ofColumn f r position

/-- How columns are converted follows from how they are read and how stored values are converted. -/
theorem Alike.of_conversions (codec : a.codec = b.codec)
    (parseDefault : ∀ f s, a.parseDefault f s = b.parseDefault f s)
    (toStored : ∀ f v, a.toStored f v = b.toStored f v)
    (ofStored : ∀ f v position, a.ofStored f v position = b.ofStored f v position)
    (ofText : ∀ f s, a.ofText f s = b.ofText f s)
    (fetchStored : ∀ x position, fetchStoredThrough a.codec x position a.layers =
      fetchStoredThrough b.codec x position b.layers) : a.Alike b := by
  have fetch (f : Field) (x : Cursor) (position : Nat) :
      a.fetch f x position = b.fetch f x position := by
    simp only [Converter.fetch, fetchStored, ofStored]
  refine ⟨codec, parseDefault, toStored, ofStored, ofText, fetchStored, fetch, ?_, ?_⟩
  · intro r position
    rw [readStored_eq_fetchStored, readStored_eq_fetchStored, fetchStored]
  · intro f r position
    rw [ofColumn_eq_fetch, ofColumn_eq_fetch, fetch]

theorem ofStored_adapt_characterCompat (c : Converter) (f : Field) (v : Value) (position : Nat) :
    (c.adapt .characterCompat).ofStored f v position =
      f.textAsChar v >>= fun u => c.ofStored f u position := by
  cases v with
  | text s =>
    show (f.parseChar s >>= fun k => c.ofStored f (.char k) position) = _
    exact (map_bind (f.parseChar s) Value.char (fun u => c.ofStored f u position)).symm
  | _ => rfl

/-- **One more layer keeps converters alike.** -/
theorem Alike.adapt (h : a.Alike b) (l : Adapter) : (a.adapt l).Alike (b.adapt l) := by
  cases l with
  | booleanNumber =>
    refine .of_conversions h.codec (fun f s => ?_) (fun _ _ => rfl) (fun _ _ _ => rfl)
      (fun _ _ => rfl) (fun _ _ => rfl)
    exact congrArg (· >>= fun v => f.expect "bool" Value.bool? v >>= fun x => pure (boolByte x))
      (h.parseDefault f s)
  | characterCompat =>
    refine .of_conversions h.codec h.parseDefault
      (fun f v => congrArg (charAsText <$> ·) (h.toStored f v)) (fun f v position => ?_) h.ofText
      (fun x position => congrArg (charAsText <$> ·) (h.fetchStored x position))
    simp only [ofStored_adapt_characterCompat, h.ofStored]
  | forwarding _ | retyped _ _ =>
    exact .of_conversions h.codec h.parseDefault h.toStored h.ofStored h.ofText h.fetchStored

/-- Converters that behave alike do so under any layers. -/
theorem Alike.under {codec : Codec} {inner inner' : List Adapter}
    (h : Alike ⟨codec, inner⟩ ⟨codec, inner'⟩) (outer : List Adapter) :
    Alike ⟨codec, outer ++ inner⟩ ⟨codec, outer ++ inner'⟩ := by
  induction outer with
  | nil => exact h
  | cons l outer ih => exact ih.adapt l

/-! ### One layer seen from outside -/

theorem alike_forwarding (c : Converter) (name : String) : (c.adapt (.forwarding name)).Alike c :=
  .of_conversions rfl (fun _ _ => rfl) (fun _ _ => rfl) (fun _ _ _ => rfl) (fun _ _ => rfl)
    (fun _ _ => rfl)

theorem alike_retyped (c : Converter) (name : String) (type : SqlType) :
    (c.adapt (.retyped name type)).Alike c :=
  .of_conversions rfl (fun _ _ => rfl) (fun _ _ => rfl) (fun _ _ _ => rfl) (fun _ _ => rfl)
    (fun _ _ => rfl)

/-- Values that are made texts are not changed by making them texts again. -/
theorem map_charAsText_twice (x : Except Failure Value) :
    charAsText <$> charAsText <$> x = charAsText <$> x := by
  refine (map_map x charAsText charAsText).trans ?_
  exact congrArg x.map (funext charAsText_charAsText)

/-- A second layer for characters changes nothing. -/
theorem alike_characterCompat_twice (c : Converter) :
    ((c.adapt .characterCompat).adapt .characterCompat).Alike (c.adapt .characterCompat) := by
  refine .of_conversions rfl (fun _ _ => rfl) (fun f v => map_charAsText_twice (c.toStored f v))
    (fun f v position => ?_) (fun _ _ => rfl)
    (fun x position => map_charAsText_twice (fetchStoredThrough c.codec x position c.layers))
  rw [ofStored_adapt_characterCompat]
  cases taken : f.textAsChar v with
  | error e => rw [ofStored_adapt_characterCompat, taken]; rfl
  | ok u =>
    show (c.adapt .characterCompat).ofStored f u position = _
    rw [ofStored_adapt_characterCompat, ofStored_adapt_characterCompat, taken,
      Field.textAsChar_of_ok taken]

/-! ### Characters -/

/-- What a column that is not null is made. -/
def fetched (c : Converter) (f : Field) (x : Cursor) (position : Nat) : Except Failure Value :=
  fetchStoredThrough c.codec x position c.layers >>= fun v => c.ofStored f v position

theorem fetch_eq_fetched (c : Converter) (f : Field) (x : Cursor) (position : Nat) :
    c.fetch f x position = x.isNull position >>= fun null =>
      if null then .ok .null else c.fetched f x position := by
  rfl

/-- What is read through layers around a codec of characters is a character, a byte, or a text of
one character, which the layers take for the character. -/
inductive Lettered (c : Converter) (f : Field) (position : Nat) : Value → Prop
  | char (k : Char) : Lettered c f position (.char k)
  | byte (n : Number.Word 8) : Lettered c f position (.byte n)
  | text (k : Char) (taken : c.ofStored f (.text (String.ofList [k])) position =
      c.ofStored f (.char k) position) : Lettered c f position (.text (String.ofList [k]))

theorem ofStored_adapt_letter (c : Converter) (f : Field) (k : Char) (position : Nat) :
    (c.adapt .characterCompat).ofStored f (.text (String.ofList [k])) position =
      (c.adapt .characterCompat).ofStored f (.char k) position := by
  rw [ofStored_adapt_characterCompat, f.textAsChar_ofList]
  rfl

theorem lettered {primitive : Bool} {layers : List Adapter} {f : Field} {x : Cursor}
    {position : Nat} {v : Value}
    (read : fetchStoredThrough (.character primitive) x position layers = .ok v) :
    Lettered ⟨.character primitive, layers⟩ f position v := by
  induction layers generalizing v with
  | nil =>
    obtain ⟨k, -, rfl⟩ := map_eq_ok.mp read
    exact .char k
  | cons l inner ih =>
    cases l with
    | booleanNumber =>
      obtain ⟨n, -, rfl⟩ := map_eq_ok.mp read
      exact .byte n
    | characterCompat =>
      have around (k : Char) := ofStored_adapt_letter ⟨.character primitive, inner⟩ f k position
      obtain ⟨u, inside, rfl⟩ := map_eq_ok.mp read
      cases ih inside with
      | char k => exact .text k (around k)
      | byte n => exact .byte n
      | text k => exact .text k (around k)
    | forwarding _ | retyped _ _ =>
      cases ih read with
      | char k => exact .char k
      | byte n => exact .byte n
      | text k taken => exact .text k taken

/-- **Around a codec of characters the layer for characters undoes what it has done.** -/
theorem fetched_adapt_characterCompat (primitive : Bool) (layers : List Adapter) (f : Field)
    (x : Cursor) (position : Nat) :
    (adapt ⟨.character primitive, layers⟩ .characterCompat).fetched f x position =
      fetched ⟨.character primitive, layers⟩ f x position := by
  show (charAsText <$> fetchStoredThrough (.character primitive) x position layers >>= _) = _
  rw [fetched]
  cases read : fetchStoredThrough (.character primitive) x position layers with
  | error e => rfl
  | ok v =>
    show ofStored (adapt ⟨.character primitive, layers⟩ .characterCompat) f (charAsText v) position =
      ofStored ⟨.character primitive, layers⟩ f v position
    rw [ofStored_adapt_characterCompat]
    cases lettered (f := f) read with
    | char k => rw [charAsText, f.textAsChar_ofList]; rfl
    | byte n => rfl
    | text k taken =>
      show f.textAsChar (.text (String.ofList [k])) >>= _ = _
      rw [f.textAsChar_ofList]
      exact taken.symm

/-- So it can be put in or left out at any depth. -/
theorem fetched_characterCompat (primitive : Bool) (outer inner : List Adapter) (f : Field)
    (x : Cursor) (position : Nat) :
    fetched ⟨.character primitive, outer ++ .characterCompat :: inner⟩ f x position =
      fetched ⟨.character primitive, outer ++ inner⟩ f x position := by
  induction outer with
  | nil => exact fetched_adapt_characterCompat primitive inner f x position
  | cons l outer ih =>
    cases l with
    | booleanNumber => rfl
    | characterCompat =>
      have more := fetched_adapt_characterCompat primitive (outer ++ .characterCompat :: inner) f x
        position
      have less := fetched_adapt_characterCompat primitive (outer ++ inner) f x position
      exact more.trans (ih.trans less.symm)
    | forwarding _ | retyped _ _ => exact ih

theorem fetch_characterCompat (primitive : Bool) (outer inner : List Adapter) (f : Field)
    (x : Cursor) (position : Nat) :
    fetch ⟨.character primitive, outer ++ .characterCompat :: inner⟩ f x position =
      fetch ⟨.character primitive, outer ++ inner⟩ f x position := by
  rw [fetch_eq_fetched, fetch_eq_fetched, fetched_characterCompat]

/-! ### Names and types -/

theorem name_outer {codec : Codec} {outer : List Adapter} (h : outer ≠ [])
    (inner inner' : List Adapter) :
    name ⟨codec, outer ++ inner⟩ = name ⟨codec, outer ++ inner'⟩ := by
  cases outer with
  | nil => exact absurd rfl h
  | cons l outer => rfl

theorem sqlType_silent {codec : Codec} {l : Adapter} (silent : l.sqlType? = none)
    (outer inner : List Adapter) :
    sqlType ⟨codec, outer ++ l :: inner⟩ = sqlType ⟨codec, outer ++ inner⟩ := by
  simp only [sqlType, List.findSome?_append, List.findSome?_cons, silent]

theorem sqlType_retyped (codec : Codec) (outer inner : List Adapter) (name : String)
    (type : SqlType) :
    sqlType ⟨codec, outer ++ .retyped name type :: inner⟩ =
      (outer.findSome? Adapter.sqlType?).getD type := by
  simp only [sqlType, List.findSome?_append, List.findSome?_cons, Adapter.sqlType?]
  cases outer.findSome? Adapter.sqlType? <;> rfl

/-- **Layers are transparent where they say nothing.** In a converter of any codec in any layers, at
any depth, a layer that passes everything on can be put in or left out: the converter does the same,
and only its name can change, if the layer is the outermost one. A layer that has a type for the
stored values changes nothing but that type, unless a layer further out has another, and the name.
Two layers for characters, one around the other, are one in everything. Around a codec of characters
such a layer, wherever it is, changes neither what a column is made nor how it fails, for rows in
memory and for any other cursor. -/
theorem layers_transparent (codec : Codec) (outer inner : List Adapter) :
    (∀ name, Alike ⟨codec, outer ++ .forwarding name :: inner⟩ ⟨codec, outer ++ inner⟩ ∧
      sqlType ⟨codec, outer ++ .forwarding name :: inner⟩ = sqlType ⟨codec, outer ++ inner⟩ ∧
      (outer ≠ [] → Converter.name ⟨codec, outer ++ .forwarding name :: inner⟩ =
        Converter.name ⟨codec, outer ++ inner⟩)) ∧
    (∀ name type, Alike ⟨codec, outer ++ .retyped name type :: inner⟩ ⟨codec, outer ++ inner⟩ ∧
      sqlType ⟨codec, outer ++ .retyped name type :: inner⟩ =
        (outer.findSome? Adapter.sqlType?).getD type ∧
      (outer ≠ [] → Converter.name ⟨codec, outer ++ .retyped name type :: inner⟩ =
        Converter.name ⟨codec, outer ++ inner⟩)) ∧
    (Alike ⟨codec, outer ++ .characterCompat :: .characterCompat :: inner⟩
        ⟨codec, outer ++ .characterCompat :: inner⟩ ∧
      sqlType ⟨codec, outer ++ .characterCompat :: .characterCompat :: inner⟩ =
        sqlType ⟨codec, outer ++ .characterCompat :: inner⟩ ∧
      name ⟨codec, outer ++ .characterCompat :: .characterCompat :: inner⟩ =
        name ⟨codec, outer ++ .characterCompat :: inner⟩) ∧
    ∀ (primitive : Bool) (f : Field),
      (∀ (x : Cursor) (position : Nat),
        fetch ⟨.character primitive, outer ++ .characterCompat :: inner⟩ f x position =
          fetch ⟨.character primitive, outer ++ inner⟩ f x position) ∧
      ∀ (r : Results) (position : Nat),
        ofColumn ⟨.character primitive, outer ++ .characterCompat :: inner⟩ f r position =
          ofColumn ⟨.character primitive, outer ++ inner⟩ f r position := by
  refine ⟨fun name => ⟨?_, sqlType_silent rfl outer inner, fun h => name_outer h _ _⟩,
    fun name type => ⟨?_, sqlType_retyped codec outer inner name type, fun h => name_outer h _ _⟩,
    ⟨?_, sqlType_silent rfl outer _, ?_⟩, fun primitive f => ⟨?_, fun r position => ?_⟩⟩
  · exact (alike_forwarding ⟨codec, inner⟩ name).under outer
  · exact (alike_retyped ⟨codec, inner⟩ name type).under outer
  · exact (alike_characterCompat_twice ⟨codec, inner⟩).under outer
  · cases outer <;> rfl
  · exact fetch_characterCompat primitive outer inner f
  · rw [ofColumn_eq_fetch, ofColumn_eq_fetch, fetch_characterCompat]

/-- Under the layer that makes numbers of booleans, one that passes everything on shows in nothing:
the name is that of the layer for booleans, and true is stored as one. -/
theorem forwarding_hidden_under_numbers :
    [Adapter.booleanNumber] ≠ [] ∧
      Converter.name ⟨.boolean true, [.booleanNumber, .forwarding "LOG"]⟩ =
        Converter.name ⟨.boolean true, [.booleanNumber]⟩ ∧
      ∀ f, toStored ⟨.boolean true, [.booleanNumber, .forwarding "LOG"]⟩ f (.bool true) =
        .ok (.byte 1) := by
  obtain ⟨alike, -, named⟩ := (layers_transparent (.boolean true) [.booleanNumber] []).1 "LOG"
  exact ⟨by decide, named (by decide), fun f => (alike.toStored f (.bool true)).trans rfl⟩

end Converter

end Relmap
