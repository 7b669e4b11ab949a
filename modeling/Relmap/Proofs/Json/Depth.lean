import Relmap.Proofs.Json.Tokens

/-!
# How deep written JSON may be

The text of a value is read exactly if its numbers are read and no more arrays and objects are
within each other than the reader keeps open (`Json.isSome_read?_chars_iff`). What reading a value
does is the same wherever it stands: it completes a value in the array or object around it, or
fails, and it fails where the reader runs out of depth (`Json.yields_written`).
-/

namespace Relmap.Json

open Progress (complete? run? step? value? open?)

/-! ### Depth and numbers -/

mutual

/-- How many arrays and objects are within each other. -/
def depth : Json → Nat
  | .null | .bool _ | .number _ | .string _ => 0
  | .array items => itemsDepth items + 1
  | .object members => membersDepth members + 1

/-- The depth of the deepest item. -/
def itemsDepth : List Json → Nat
  | [] => 0
  | a :: as => max (depth a) (itemsDepth as)

/-- The depth of the deepest member. -/
def membersDepth : List (String × Json) → Nat
  | [] => 0
  | (_, v) :: r => max (depth v) (membersDepth r)

end

mutual

/-- What holds of every number in the value. -/
def EachNumber (p : JsonNumber → Prop) : Json → Prop
  | .null | .bool _ | .string _ => True
  | .number n => p n
  | .array items => EachInItems p items
  | .object members => EachInMembers p members

/-- The same for the items of an array. -/
def EachInItems (p : JsonNumber → Prop) : List Json → Prop
  | [] => True
  | a :: as => EachNumber p a ∧ EachInItems p as

/-- The same for the members of an object. -/
def EachInMembers (p : JsonNumber → Prop) : List (String × Json) → Prop
  | [] => True
  | (_, v) :: r => EachNumber p v ∧ EachInMembers p r

end

variable {p q : JsonNumber → Prop}

mutual

theorem EachNumber.imp (h : ∀ n, p n → q n) : ∀ {j : Json}, j.EachNumber p → j.EachNumber q
  | .null, _ | .bool _, _ | .string _, _ => trivial
  | .number n, hn => h n hn
  | .array _, hitems => EachInItems.imp h hitems
  | .object _, hmembers => EachInMembers.imp h hmembers

theorem EachInItems.imp (h : ∀ n, p n → q n) :
    ∀ {items : List Json}, EachInItems p items → EachInItems q items
  | [], _ => trivial
  | _ :: _, hitems => ⟨hitems.1.imp h, EachInItems.imp h hitems.2⟩

theorem EachInMembers.imp (h : ∀ n, p n → q n) :
    ∀ {members : List (String × Json)}, EachInMembers p members → EachInMembers q members
  | [], _ => trivial
  | (_, _) :: _, hmembers => ⟨hmembers.1.imp h, EachInMembers.imp h hmembers.2⟩

end

/-- The text of the number is read. -/
def LegibleNumber (n : JsonNumber) : Prop := (readNumber? (numberText n)).isSome = true

/-- The texts of all numbers in the value are read. -/
def Legible : Json → Prop := EachNumber LegibleNumber

mutual

theorem isSome_written?_iff : ∀ j : Json, j.written?.isSome = true ↔ j.Legible
  | .null | .bool _ | .string _ => by simp [written?, Legible, EachNumber]
  | .number n => by simp [written?, Legible, EachNumber, LegibleNumber]
  | .array items => by
    simpa [written?, Legible, EachNumber] using isSome_writtenItems?_iff items
  | .object members => by
    simpa [written?, Legible, EachNumber] using isSome_writtenMembers?_iff members

theorem isSome_writtenItems?_iff : ∀ items : List Json, (writtenItems? items).isSome = true ↔
    EachInItems LegibleNumber items
  | [] => by simp [writtenItems?, EachInItems]
  | [a] => by simpa [writtenItems?, EachInItems, Legible] using isSome_written?_iff a
  | a :: b :: as => by
    have ha := isSome_written?_iff a
    have hrest := isSome_writtenItems?_iff (b :: as)
    rw [Legible] at ha
    rw [EachInItems, ← ha, ← hrest, writtenItems?]
    cases written? a <;> cases writtenItems? (b :: as) <;> simp

theorem isSome_writtenMembers?_iff :
    ∀ members : List (String × Json), (writtenMembers? members).isSome = true ↔
      EachInMembers LegibleNumber members
  | [] => by simp [writtenMembers?, EachInMembers]
  | [(k, v)] => by simpa [writtenMembers?, EachInMembers, Legible] using isSome_written?_iff v
  | (k, v) :: m :: ms => by
    have hv := isSome_written?_iff v
    have hrest := isSome_writtenMembers?_iff (m :: ms)
    rw [Legible] at hv
    rw [EachInMembers, ← hv, ← hrest, writtenMembers?]
    cases written? v <;> cases writtenMembers? (m :: ms) <;> simp

end

/-! ### Reading what is written -/

/-- From here on the tokens are taken and complete a value in what is open, or reading fails. -/
def Yields (p : Progress) (ts : List Token) (st : List Frame) (v? : Option Json) : Prop :=
  ∀ rest, p.run? (ts ++ rest) = v?.bind fun v => (complete? v st).bind (run? · rest)

/-- The same with what depth has to do with it. -/
def YieldsWithin (p : Progress) (ts : List Token) (st : List Frame) (depth : Nat) : Prop :=
  ∃ v?, Yields p ts st v? ∧ (v?.isSome = true ↔ st.length + depth ≤ depthLimit)

variable {st : List Frame} {ts : List Token}

theorem yieldsWithin_scalar {t : Token} {v : Json} (ht : value? t st = complete? v st)
    (hst : st.length ≤ depthLimit) : YieldsWithin ⟨st, .value⟩ [t] st 0 := by
  refine ⟨some v, fun rest => ?_, by simpa using hst⟩
  show (value? t st).bind _ = _
  rw [ht]
  rfl

/-- An array is begun by a value as well as by its own first item. -/
theorem run?_itemOrClose {t : Token} (ht : t ≠ .closeArray) (ts : List Token) :
    run? ⟨st, .itemOrClose⟩ (t :: ts) = run? ⟨st, .value⟩ (t :: ts) := by
  cases t with
  | closeArray => exact absurd rfl ht
  | openArray | openObject | closeObject | comma | colon | string | scalar => rfl

theorem written?_ne_close : ∀ {j : Json} {ts : List Token}, j.written? = some ts →
    ∃ t us, ts = t :: us ∧ t ≠ .closeArray
  | .null, _, h | .bool _, _, h | .string _, _, h => by
    cases h
    exact ⟨_, _, rfl, nofun⟩
  | .number n, _, h => by
    obtain ⟨n, -, rfl⟩ := Option.map_eq_some_iff.mp h
    exact ⟨_, _, rfl, nofun⟩
  | .array items, _, h => by
    obtain ⟨us, -, rfl⟩ := Option.map_eq_some_iff.mp h
    exact ⟨_, _, rfl, nofun⟩
  | .object members, _, h => by
    obtain ⟨us, -, rfl⟩ := Option.map_eq_some_iff.mp h
    exact ⟨_, _, rfl, nofun⟩

theorem writtenItems?_ne_close {items : List Json} {ts : List Token} (hne : items ≠ [])
    (h : writtenItems? items = some ts) : ∃ t us, ts = t :: us ∧ t ≠ .closeArray := by
  match items with
  | [] => exact absurd rfl hne
  | [a] => exact written?_ne_close h
  | a :: b :: as =>
    obtain ⟨us, hus, h⟩ := Option.bind_eq_some_iff.mp h
    obtain ⟨vs, -, h⟩ := Option.bind_eq_some_iff.mp h
    obtain ⟨t, us', rfl, ht⟩ := written?_ne_close hus
    obtain rfl := Option.some.inj h
    exact ⟨t, _, rfl, ht⟩

section

variable {f : Frame} {e : Expect} {c t : Token} {us : List Token} {depth depth' : Nat}

/-- What opens an array or object, and what is in it. -/
theorem YieldsWithin.opened (ht : value? t st = open? f e st)
    (h : st.length < depthLimit → YieldsWithin ⟨f :: st, e⟩ ts st (depth + 1)) :
    YieldsWithin ⟨st, .value⟩ (t :: ts) st (depth + 1) := by
  by_cases hroom : st.length < depthLimit
  · obtain ⟨v?, hyields, hdepth⟩ := h hroom
    refine ⟨v?, fun rest => ?_, hdepth⟩
    show (value? t st).bind _ = _
    rw [ht, open?, if_pos hroom]
    exact hyields rest
  · refine ⟨none, fun rest => ?_, ?_⟩
    · show (value? t st).bind _ = _
      rw [ht, open?, if_neg hroom]
      rfl
    · simp only [Option.isSome_none, Bool.false_eq_true, false_iff]
      omega

/-- An array or object that is closed at once. -/
theorem yieldsWithin_close {v : Json} (hclose : step? ⟨f :: st, e⟩ c = complete? v st)
    (hroom : st.length < depthLimit) : YieldsWithin ⟨f :: st, e⟩ [c] st 1 := by
  refine ⟨some v, fun rest => ?_, fun _ => hroom, fun _ => rfl⟩
  show (step? ⟨f :: st, e⟩ c).bind _ = _
  rw [hclose]
  rfl

/-- The last value in an array or object, before the token that closes it. -/
theorem YieldsWithin.last {g : Json → Json}
    (hclose : ∀ v rest, (complete? v (f :: st)).bind (run? · (c :: rest)) =
      (complete? (g v) st).bind (run? · rest))
    (h : YieldsWithin ⟨f :: st, .value⟩ ts (f :: st) depth) :
    YieldsWithin ⟨f :: st, .value⟩ (ts ++ [c]) st (depth + 1) := by
  obtain ⟨v?, hyields, hdepth⟩ := h
  refine ⟨v?.map g, fun rest => ?_, ?_⟩
  · rw [List.append_assoc, hyields, Option.bind_map]
    exact Option.bind_congr fun v _ => hclose v rest
  · rw [Option.isSome_map, hdepth, List.length_cons]
    omega

/-- A value in an array or object and what follows it. -/
theorem YieldsWithin.next {g : Json → Progress}
    (hcomma : ∀ v rest, (complete? v (f :: st)).bind (run? · (.comma :: rest)) = run? (g v) rest)
    (h : YieldsWithin ⟨f :: st, .value⟩ ts (f :: st) depth)
    (hrest : ∀ v, YieldsWithin (g v) us st depth') :
    YieldsWithin ⟨f :: st, .value⟩ (ts ++ .comma :: us) st (max (depth + 1) depth') := by
  obtain ⟨v?, hyields, hdepth⟩ := h
  rw [List.length_cons] at hdepth
  cases v? with
  | none =>
    refine ⟨none, fun rest => ?_, ?_⟩
    · rw [List.append_assoc, hyields]
      rfl
    · simp only [Option.isSome_none, Bool.false_eq_true, false_iff] at hdepth ⊢
      omega
  | some v =>
    obtain ⟨w?, hmore, hdepth'⟩ := hrest v
    refine ⟨w?, fun rest => ?_, ?_⟩
    · rw [List.append_assoc, hyields, ← hmore]
      exact hcomma v (us ++ rest)
    · simp only [Option.isSome_some, true_iff] at hdepth
      rw [hdepth']
      omega

/-- A key before its value. -/
theorem YieldsWithin.afterKey {k : String} {acc : List (String × Json)}
    (he : e = .key ∨ e = .keyOrClose)
    (h : YieldsWithin ⟨.object acc (some k) :: st, .value⟩ ts st depth) :
    YieldsWithin ⟨.object acc none :: st, e⟩ (.string k :: .colon :: ts) st depth := by
  obtain ⟨v?, hyields, hdepth⟩ := h
  refine ⟨v?, fun rest => ?_, hdepth⟩
  rw [← hyields]
  rcases he with rfl | rfl <;> rfl

end

mutual

/-- **Reading what is written** completes a value in what is open, and fails where the reader runs
out of depth. -/
theorem yields_written : ∀ (j : Json) {ts : List Token}, j.written? = some ts →
    ∀ st : List Frame, st.length ≤ depthLimit → YieldsWithin ⟨st, .value⟩ ts st j.depth
  | .null, _, h, _, hst | .bool _, _, h, _, hst | .string _, _, h, _, hst => by
    cases h
    exact yieldsWithin_scalar rfl hst
  | .number n, _, h, _, hst => by
    obtain ⟨n, -, rfl⟩ := Option.map_eq_some_iff.mp h
    exact yieldsWithin_scalar rfl hst
  | .array items, _, h, st, hst => by
    obtain ⟨ts, hts, rfl⟩ := Option.map_eq_some_iff.mp h
    refine .opened (f := .array []) (e := .itemOrClose) rfl fun hroom => ?_
    by_cases hitems : items = []
    · subst hitems
      cases hts
      exact yieldsWithin_close (v := .array []) rfl hroom
    · obtain ⟨v?, hyields, hdepth⟩ := yields_writtenItems items hitems hts st [] hroom
      refine ⟨v?, fun rest => ?_, hdepth⟩
      obtain ⟨t, us, rfl, ht⟩ := writtenItems?_ne_close hitems hts
      rw [← hyields rest]
      exact run?_itemOrClose ht _
  | .object members, _, h, st, hst => by
    obtain ⟨ts, hts, rfl⟩ := Option.map_eq_some_iff.mp h
    refine .opened (f := .object [] none) (e := .keyOrClose) rfl fun hroom => ?_
    by_cases hmembers : members = []
    · subst hmembers
      cases hts
      exact yieldsWithin_close (v := .object []) rfl hroom
    · exact yields_writtenMembers members hmembers hts st [] (.inr rfl) hroom

theorem yields_writtenItems : ∀ (items : List Json) {ts : List Token}, items ≠ [] →
    writtenItems? items = some ts → ∀ (st : List Frame) (acc : List Json),
      st.length < depthLimit →
      YieldsWithin ⟨.array acc :: st, .value⟩ (ts ++ [.closeArray]) st (itemsDepth items + 1)
  | [], _, hne, _, _, _, _ => absurd rfl hne
  | [a], ts, _, h, st, acc, hst => by
    have ha := yields_written a h (.array acc :: st) hst
    simpa [itemsDepth] using ha.last (g := fun v => .array (v :: acc).reverse) fun _ _ => rfl
  | a :: b :: as, _, _, h, st, acc, hst => by
    obtain ⟨ts, hts, h⟩ := Option.bind_eq_some_iff.mp h
    obtain ⟨us, hus, h⟩ := Option.bind_eq_some_iff.mp h
    obtain rfl := Option.some.inj h
    have ha := yields_written a hts (.array acc :: st) hst
    have hall := ha.next (g := fun v => ⟨.array (v :: acc) :: st, .value⟩) (fun _ _ => rfl)
      fun v => yields_writtenItems (b :: as) (List.cons_ne_nil b as) hus st (v :: acc) hst
    have hdepth : itemsDepth (a :: b :: as) + 1 =
        max (a.depth + 1) (itemsDepth (b :: as) + 1) := by
      rw [itemsDepth]
      omega
    rwa [hdepth, List.append_assoc]

theorem yields_writtenMembers : ∀ (members : List (String × Json)) {ts : List Token},
    members ≠ [] → writtenMembers? members = some ts →
    ∀ (st : List Frame) (acc : List (String × Json)) {e : Expect}, e = .key ∨ e = .keyOrClose →
      st.length < depthLimit →
      YieldsWithin ⟨.object acc none :: st, e⟩ (ts ++ [.closeObject]) st (membersDepth members + 1)
  | [], _, hne, _, _, _, _, _, _ => absurd rfl hne
  | [(k, v)], _, _, h, st, acc, _, he, hst => by
    obtain ⟨ts, hts, rfl⟩ := Option.map_eq_some_iff.mp h
    have hv := yields_written v hts (.object acc (some k) :: st) hst
    have hlast := hv.last (g := fun v => .object (insertMember k v acc)) (c := .closeObject)
      fun _ _ => rfl
    simpa [membersDepth] using hlast.afterKey he
  | (k, v) :: m :: ms, _, _, h, st, acc, _, he, hst => by
    obtain ⟨ts, hts, h⟩ := Option.bind_eq_some_iff.mp h
    obtain ⟨us, hus, h⟩ := Option.bind_eq_some_iff.mp h
    obtain rfl := Option.some.inj h
    have hv := yields_written v hts (.object acc (some k) :: st) hst
    have hall := hv.next (g := fun v => ⟨.object (insertMember k v acc) none :: st, .key⟩)
      (fun _ _ => rfl) fun v => yields_writtenMembers (m :: ms) (List.cons_ne_nil m ms) hus st
        (insertMember k v acc) (.inl rfl) hst
    have hdepth : membersDepth ((k, v) :: m :: ms) + 1 =
        max (v.depth + 1) (membersDepth (m :: ms) + 1) := by
      rw [membersDepth]
      omega
    rw [hdepth]
    simpa using hall.afterKey he

end

/-- **The text of a value is read exactly if its numbers are read and it is not too deep.** -/
theorem isSome_read?_chars_iff (j : Json) :
    (read? j.chars).isSome = true ↔ j.Legible ∧ j.depth ≤ depthLimit := by
  have htokens := tokens?_chars j stops_nil
  rw [List.append_nil] at htokens
  rw [read?, htokens, ← isSome_written?_iff]
  cases hwritten : j.written? with
  | none => simp
  | some ts =>
    obtain ⟨v?, hyields, hdepth⟩ := yields_written j hwritten [] (by decide)
    rw [List.length_nil, Nat.zero_add] at hdepth
    have hrun : run? ⟨[], .value⟩ (ts ++ []) = v? := by
      rw [hyields []]
      cases v? <;> rfl
    have hnil : tokens? [] = some [] := by rw [tokens?]
    simp only [hnil, Option.bind_some, Option.map_some, hrun, hdepth, Option.isSome_some, true_and]

end Relmap.Json
