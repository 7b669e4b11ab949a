import Relmap.Proofs.Statement.DeferredScript
import Relmap.Statement.Prepared

/-!
# Setting the values that were left

A statement with values left for later has open arguments at some positions (`Argument.LeftOpen`).
Once every one of them is set to its own value, in any order, the arguments are those of the
statement with the values from the start, but for the mark that they were meant to be set later
(`Prepared.exists_setAll`). Neither the bound values nor the text for logs look at that mark.

The main statement is `Script.late_binding_eq_immediate`.
-/

namespace Relmap

/-! ### The mark of late arguments -/

namespace Argument

/-- The argument without the mark that it is set later. -/
def settled (a : Argument) : Argument := { a with late := false }

theorem stored_settled (a : Argument) : a.settled.stored = a.stored := rfl

theorem literal_settled (a : Argument) : a.settled.literal = a.literal := rfl

end Argument

namespace Prepared

theorem bindValues_settled (args : List Argument) :
    (args.map Argument.settled).mapM Argument.stored = args.mapM Argument.stored := by
  rw [List.mapM_map]
  exact congrArg (fun f => args.mapM f) (funext Argument.stored_settled)

/-- The text for logs depends on the literals alone. -/
theorem inlineFrom_congr {d : Dialect} {args args' : List Argument}
    (h : ∀ index, literal args' index = literal args index) (quote : Option Char) (next : Nat)
    (s : List Char) : inlineFrom d args' quote next s = inlineFrom d args quote next s := by
  induction quote, next, s using inlineFrom.induct d with
  | case1 => rw [inlineFrom, inlineFrom]
  | case2 quote next c rest hplain ih =>
    rw [inlineFrom, inlineFrom, if_pos hplain, if_pos hplain, h, ih]
  | case3 quote next c rest hplain digits hnumbered ih =>
    rw [inlineFrom, inlineFrom, if_neg hplain, if_neg hplain]
    simp only [h]
    rw [if_pos hnumbered, if_pos hnumbered, ih]
  | case4 quote next c rest hplain digits hnumbered ih =>
    rw [inlineFrom, inlineFrom, if_neg hplain, if_neg hplain]
    simp only [h]
    rw [if_neg hnumbered, if_neg hnumbered, ih]

theorem literal_settled (args : List Argument) (index : Nat) :
    literal (args.map Argument.settled) index = literal args index := by
  rw [literal, literal, List.getElem?_map, List.length_map]
  cases args[index]? with
  | none => rfl
  | some a => simp only [Option.map_some, Argument.literal_settled]

/-- Statements with the same text whose arguments differ in the mark only bind the same values and
have the same text for logs. -/
theorem alike_of_settled {p q : Prepared} (hsql : q.sql = p.sql) (hdialect : q.dialect = p.dialect)
    (hargs : q.args.map Argument.settled = p.args.map Argument.settled) :
    q.bindValues = p.bindValues ∧ q.inlineSql = p.inlineSql := by
  constructor
  · rw [bindValues, bindValues, ← bindValues_settled, hargs, bindValues_settled]
  · have hliteral : ∀ index, literal q.args index = literal p.args index := fun index => by
      rw [← literal_settled, hargs, literal_settled]
    rw [inlineSql, inlineSql, hsql, hdialect, inlineFrom_congr hliteral]

end Prepared

/-! ### Open arguments -/

/-- The second arguments are the first ones, but at some positions, each given with a value, the
argument of that value is open. -/
structure Argument.LeftOpen (args args' : List Argument) (originals : List (Nat × Value)) :
    Prop where
  nodup : (originals.map Prod.fst).Nodup
  late : ∀ i v, (i, v) ∈ originals → ∃ f w, f.toStored v = .ok w ∧
    args[i]? = some ⟨.field f, some w, false⟩ ∧ args'[i]? = some ⟨.field f, none, true⟩
  same : ∀ i, (∀ v, (i, v) ∉ originals) → args'[i]? = args[i]?

namespace Argument

variable {args args' : List Argument} {originals : List (Nat × Value)}

/-- A value one position further. -/
def shiftPosition (x : Nat × Value) : Nat × Value := (x.1 + 1, x.2)

theorem mem_map_shiftPosition {i : Nat} {v : Value} :
    (i, v) ∈ originals.map shiftPosition ↔ ∃ k, i = k + 1 ∧ (k, v) ∈ originals := by
  simp only [List.mem_map, shiftPosition, Prod.mk.injEq, Prod.exists]
  constructor
  · rintro ⟨k, u, hmem, rfl, rfl⟩
    exact ⟨k, rfl, hmem⟩
  · rintro ⟨k, rfl, hmem⟩
    exact ⟨k, v, hmem, rfl, rfl⟩

theorem nodup_map_shiftPosition (h : (originals.map Prod.fst).Nodup) :
    ((originals.map shiftPosition).map Prod.fst).Nodup := by
  have hcomm : (originals.map shiftPosition).map Prod.fst = (originals.map Prod.fst).map (· + 1) := by
    rw [List.map_map, List.map_map]
    rfl
  rw [hcomm]
  exact h.map (add_left_injective 1)

theorem LeftOpen.cons_same (h : LeftOpen args args' originals) (a : Argument) :
    LeftOpen (a :: args) (a :: args') (originals.map shiftPosition) where
  nodup := nodup_map_shiftPosition h.nodup
  late i v hmem := by
    obtain ⟨k, rfl, hk⟩ := mem_map_shiftPosition.mp hmem
    exact h.late k v hk
  same i hnot := by
    cases i with
    | zero => rfl
    | succ k => exact h.same k fun v hk => hnot v (mem_map_shiftPosition.mpr ⟨k, rfl, hk⟩)

theorem LeftOpen.cons_late (h : LeftOpen args args' originals) {f : Field} {v w : Value}
    (hstored : f.toStored v = .ok w) :
    LeftOpen (⟨.field f, some w, false⟩ :: args) (⟨.field f, none, true⟩ :: args')
      ((0, v) :: originals.map shiftPosition) where
  nodup := by
    refine List.nodup_cons.mpr ⟨fun hmem => ?_, nodup_map_shiftPosition h.nodup⟩
    obtain ⟨⟨i, u⟩, hx, hzero⟩ := List.mem_map.mp hmem
    obtain ⟨k, hi, -⟩ := mem_map_shiftPosition.mp hx
    omega
  late i u hmem := by
    rcases List.mem_cons.mp hmem with heq | hmem
    · cases heq
      exact ⟨f, w, hstored, rfl, rfl⟩
    · obtain ⟨k, rfl, hk⟩ := mem_map_shiftPosition.mp hmem
      exact h.late k u hk
  same i hnot := by
    cases i with
    | zero => exact absurd List.mem_cons_self (hnot v)
    | succ k =>
      refine h.same k fun u hk => hnot u (List.mem_cons_of_mem _ ?_)
      exact mem_map_shiftPosition.mpr ⟨k, rfl, hk⟩

/-- Values left for later are open arguments at positions of their own. -/
theorem exists_leftOpen {m : Multiset Value} (h : Paired Argument.Defers args args' m) :
    ∃ originals, LeftOpen args args' originals ∧ (originals.map Prod.snd : Multiset Value) = m := by
  induction h with
  | nil => exact ⟨[], ⟨.nil, fun _ _ hmem => (nomatch hmem), fun _ _ => rfl⟩, rfl⟩
  | @cons a a' args args' m n head _ ih =>
    obtain ⟨originals, hopen, rfl⟩ := ih
    have hvalues : (originals.map shiftPosition).map Prod.snd = originals.map Prod.snd := by
      rw [List.map_map]
      rfl
    cases head with
    | same =>
      refine ⟨_, hopen.cons_same a, ?_⟩
      rw [hvalues, zero_add]
    | @late f v w hstored =>
      refine ⟨_, hopen.cons_late hstored, ?_⟩
      rw [List.map_cons, hvalues, ← Multiset.cons_coe, ← Multiset.singleton_add]

end Argument

/-! ### Setting them -/

namespace Prepared

/-- The statement with arguments set one after the other. -/
def setAll (p : Prepared) (sets : List (Nat × Value)) : Except Failure Prepared :=
  sets.foldlM (fun p x => p.setArgument x.1 x.2) p

/-- Arguments on the way to others: all but the ones that are still to be set are there. -/
def Awaits (args cur : List Argument) (sets : List (Nat × Value)) : Prop :=
  ∀ i, cur[i]?.map Argument.target = args[i]?.map Argument.target ∧
    ((∀ v, (i, v) ∉ sets) → cur[i]?.map Argument.settled = args[i]?.map Argument.settled)

/-- Setting an argument to its own value leaves the others to be set. -/
theorem Awaits.set {args cur : List Argument} {i : Nat} {v : Value} {sets : List (Nat × Value)}
    (h : Awaits args cur ((i, v) :: sets)) {f : Field} {w : Value} {a : Argument}
    (horiginal : args[i]? = some ⟨.field f, some w, false⟩) (hcur : cur[i]? = some a) :
    Awaits args (cur.set i { a with value := some w }) sets := by
  intro k
  obtain ⟨htarget, hsettled⟩ := h k
  by_cases hk : i = k
  · subst hk
    have hlt : i < cur.length := (List.getElem?_eq_some_iff.mp hcur).1
    rw [hcur, horiginal] at htarget
    have hfield : a.target = .field f := Option.some.inj htarget
    rw [List.getElem?_set_self hlt, horiginal]
    exact ⟨htarget, fun _ => by simp [Argument.settled, hfield]⟩
  · rw [List.getElem?_set_ne hk]
    refine ⟨htarget, fun hnot => hsettled fun u hmem => ?_⟩
    rcases List.mem_cons.mp hmem with heq | hmem
    · exact hk (congrArg Prod.fst heq).symm
    · exact hnot u hmem

/-- **Every set succeeds, and in the end nothing is left to be set.** -/
theorem exists_setAll {args : List Argument} {sets : List (Nat × Value)} {p : Prepared}
    (hsets : ∀ i v, (i, v) ∈ sets → ∃ f w, f.toStored v = .ok w ∧
      args[i]? = some ⟨.field f, some w, false⟩)
    (h : Awaits args p.args sets) :
    ∃ cur, p.setAll sets = .ok { p with args := cur } ∧
      cur.map Argument.settled = args.map Argument.settled := by
  induction sets generalizing p with
  | nil =>
    refine ⟨p.args, rfl, List.ext_getElem? fun i => ?_⟩
    rw [List.getElem?_map, List.getElem?_map]
    exact (h i).2 fun v hmem => nomatch hmem
  | cons x rest ih =>
    obtain ⟨i, v⟩ := x
    obtain ⟨f, w, hstored, horiginal⟩ := hsets i v List.mem_cons_self
    have htarget := (h i).1
    rw [horiginal] at htarget
    obtain ⟨a, hcur, hfield⟩ := Option.map_eq_some_iff.mp htarget
    have hset : p.setArgument i v =
        .ok { p with args := p.args.set i { a with value := some w } } := by
      simp only [setArgument, hcur, Argument.set, hfield, hstored]
      rfl
    obtain ⟨cur, hall, hsettled⟩ := ih
      (p := { p with args := p.args.set i { a with value := some w } })
      (fun k u hmem => hsets k u (List.mem_cons_of_mem _ hmem)) (h.set horiginal hcur)
    refine ⟨cur, ?_, hsettled⟩
    rw [setAll, List.foldlM_cons, hset]
    exact hall

/-- All that is open can be set to its own values, in any order. -/
theorem exists_setAll_of_leftOpen {args : List Argument} {originals sets : List (Nat × Value)}
    {p : Prepared} (h : Argument.LeftOpen args p.args originals)
    (hsets : ∀ x, x ∈ sets ↔ x ∈ originals) :
    ∃ cur, p.setAll sets = .ok { p with args := cur } ∧
      cur.map Argument.settled = args.map Argument.settled := by
  refine exists_setAll (fun i v hmem => ?_) fun i => ?_
  · obtain ⟨f, w, hstored, hargs, -⟩ := h.late i v ((hsets _).mp hmem)
    exact ⟨f, w, hstored, hargs⟩
  · by_cases hopen : ∃ v, (i, v) ∈ originals
    · obtain ⟨v, hmem⟩ := hopen
      obtain ⟨f, w, -, hargs, hleft⟩ := h.late i v hmem
      rw [hargs, hleft]
      exact ⟨rfl, fun hnot => absurd ((hsets _).mpr hmem) (hnot v)⟩
    · rw [h.same i fun v hmem => hopen ⟨v, hmem⟩]
      exact ⟨rfl, fun _ => rfl⟩

end Prepared

/-! ### Late binding -/

namespace Script

/-- **Late binding equals immediate binding.** Leave values of operands for later in calls none of
which fails. If the statement with the values cannot be prepared, neither can the other one, for the
same reason. If it can, so can the other one, to the same text and to as many arguments. The
arguments that were left are open at positions of their own, with all the values that were left and
no others, and all other arguments are the same. Setting each of them to its value, in any order,
succeeds, and then both statements bind the same values and have the same text for logs.

Queries inside and conditions may be put together by calls with values left for later too. -/
theorem late_binding_eq_immediate (d : Dialect) (t : Table) :
    (∀ (s s' : Script) (m : Multiset Value), s.Defers s' m → s.NoCallFails d t →
      (∀ e, s.prepare d t = .error e → s'.prepare d t = .error e) ∧
      ∀ p, s.prepare d t = .ok p → ∃ p' originals, s'.prepare d t = .ok p' ∧ p'.sql = p.sql ∧
        p'.kind = p.kind ∧ p'.args.length = p.args.length ∧
        Argument.LeftOpen p.args p'.args originals ∧
        (originals.map Prod.snd : Multiset Value) = m ∧
        ∀ sets, (∀ x, x ∈ sets ↔ x ∈ originals) → ∃ q, p'.setAll sets = .ok q ∧
          q.bindValues = p.bindValues ∧ q.inlineSql = p.inlineSql) ∧
    (∀ (calls calls' : List SelectCall) (m : Multiset Value),
      SelectCall.AllDefer calls calls' 0 m → (Script.select calls).NoCallFails d t →
      ((Select.new d t).run calls).subQuery.Defers ((Select.new d t).run calls').subQuery m) ∧
    ∀ (calls calls' : List WhereCall) (m : Multiset Value), Paired WhereCall.Defers calls calls' m →
      (Where.run { dialect := d, table := t } calls).fault = none →
      (Where.run { dialect := d, table := t } calls).Defers
        (Where.run { dialect := d, table := t } calls') m := by
  refine ⟨fun s s' m h hok => ?_, fun calls calls' m h hok => ?_, fun calls calls' m h hok => ?_⟩
  · have htemplate := h.tracks hok
    rw [prepare_eq_template, prepare_eq_template, h.kind]
    generalize s.template d t = x at htemplate ⊢
    generalize s'.template d t = y at htemplate ⊢
    cases htemplate with
    | error e => exact ⟨fun _ he => he, fun p hp => by cases hp⟩
    | @ok u u' _ hdefers =>
      refine ⟨fun e he => (by cases he), fun p hp => ?_⟩
      cases hp
      obtain ⟨originals, hopen, hvalues⟩ := Argument.exists_leftOpen hdefers.args
      have hsql : String.ofList (u'.text 0) = String.ofList (u.text 0) := by
        rw [Template.text, hdefers.signs, Template.text]
      refine ⟨_, originals, rfl, hsql, rfl, hdefers.args.length, hopen, hvalues, fun sets hsets => ?_⟩
      obtain ⟨cur, hall, hsettled⟩ := Prepared.exists_setAll_of_leftOpen
        (p := ⟨String.ofList (u'.text 0), s.kind d t, u'.args, d, t⟩) hopen hsets
      exact ⟨_, hall, Prepared.alike_of_settled hsql rfl hsettled⟩
  · exact ((Select.Defers.new d t).run h).subQuery hok.condition
  · have hstart : Where.Defers { dialect := d, table := t } { dialect := d, table := t } (0 + 0) :=
      .mk .nil .nil
    have hrun := hstart.run h hok
    rwa [zero_add, zero_add] at hrun

/-- An UPDATE of the rows that a query inside finds by an operand. -/
def updateAbove (t : Table) (o : Operand) : Script :=
  .update [.set "n" (.value (.int 5)), .restrict (.test (.inQuery "n"
    ((Select.new .postgresql t).run [.columns ["n"], .restrict (.test (.compare .gt "n" o))]).subQuery
    false))]

/-- A value left for later in a query inside is the second one, after the value that is set. -/
theorem late_value_in_query : ∃ t p p' q,
    TableDecl.toTable ⟨"t", [{ name := "n", type := .integer }]⟩ .postgresql = .ok t ∧
    (updateAbove t (.value (.int 7))).prepare .postgresql t = .ok p ∧
    (updateAbove t (.late none)).prepare .postgresql t = .ok p' ∧
    p'.sql =
      "UPDATE \"t\" SET \"n\" = $1 WHERE \"n\" IN (SELECT \"n\" FROM \"t\" WHERE \"n\" > $2)" ∧
    p'.setAll [(1, .int 7)] = .ok q ∧ q.bindValues = .ok [.int 5, .int 7] ∧
    q.inlineSql = p.inlineSql := by
  obtain ⟨t, p, p', ht, hinner, houter, hp, hp', hsql, hbind, hset, hunset⟩ : ∃ t p p',
      TableDecl.toTable ⟨"t", [{ name := "n", type := .integer }]⟩ .postgresql = .ok t ∧
      (Script.select [.columns ["n"],
        .restrict (.test (.compare .gt "n" (.value (.int 7))))]).NoCallFails .postgresql t ∧
      (updateAbove t (.value (.int 7))).NoCallFails .postgresql t ∧
      (updateAbove t (.value (.int 7))).prepare .postgresql t = .ok p ∧
      (updateAbove t (.late none)).prepare .postgresql t = .ok p' ∧
      p'.sql =
        "UPDATE \"t\" SET \"n\" = $1 WHERE \"n\" IN (SELECT \"n\" FROM \"t\" WHERE \"n\" > $2)" ∧
      p.bindValues = .ok [.int 5, .int 7] ∧ p.args[1]?.bind Argument.value = some (.int 7) ∧
      p'.args[1]?.bind Argument.value = none :=
    ⟨_, _, _, rfl, ⟨rfl, fun w hw => by cases hw; rfl⟩, ⟨rfl, fun w hw => by cases hw; rfl⟩, rfl,
      rfl, rfl, rfl, rfl, rfl⟩
  obtain ⟨hlate, hqueries, -⟩ := late_binding_eq_immediate .postgresql t
  have hcompare : Test.Defers (.compare .gt "n" (.value (.int 7))) (.compare .gt "n" (.late none))
      {.int 7} := .compare (.late rfl)
  have hcolumns : SelectCall.Defers (.columns ["n"]) (.columns ["n"]) 0 0 := by
    refine .same (fun w hw => ?_) 0
    cases hw
  have hquery := hqueries _ _ _
    (.cons hcolumns (.cons (.restrict (.test hcompare) 0) (.nil _))) hinner
  have hcalls : (updateAbove t (.value (.int 7))).Defers (updateAbove t (.late none))
      (0 + (0 + {.int 7})) := .update (.cons (.same _) (.single (.restrict (.test (.inQuery hquery)))))
  obtain ⟨p₁, originals, h', -, -, -, hopen, hvalues, hall⟩ := (hlate _ _ _ hcalls houter).2 p hp
  cases hp'.symm.trans h'
  rw [zero_add, zero_add, Multiset.coe_eq_singleton] at hvalues
  -- The only open argument is the one that differs.
  obtain ⟨i, hi⟩ : ∃ i, originals = [(i, .int 7)] := by
    obtain ⟨x, rfl, hx⟩ := List.map_eq_singleton_iff.mp hvalues
    exact ⟨x.1, by rw [← hx]⟩
  have hone : i = 1 := by
    by_contra hne
    have hkept := hopen.same 1 fun v hmem => by
      rw [hi, List.mem_singleton] at hmem
      exact hne (congrArg Prod.fst hmem).symm
    rw [hkept, hset] at hunset
    cases hunset
  obtain ⟨q, hq, hqbind, hqinline⟩ := hall [(1, .int 7)] fun x => by rw [hi, hone]
  exact ⟨t, p, p', q, ht, hp, hp', hsql, hq, hqbind.trans hbind, hqinline⟩

end Script

end Relmap
