import Relmap.Proofs.Field.Wire

/-!
# Calls on result rows

Result rows are asked one thing after another: to move the cursor, to read a column of the row it is
on, to find a column, to close. Whatever is asked of them in whatever order, the cursor is before
the first row, on a row or after the last one (`Results.stands_run`), the rows stay the same, and
they are closed exactly if they have been asked to close.

A loop over the rows moves to the first one and then on by `next` until there is none
(`Results.Visits`). From wherever the cursor is, it takes all rows in order, each once
(`Results.visits_iff`). All of it together is `Results.cursor_in_bounds`.
-/

namespace Relmap.Results

open Outcome (bind_eq_ok map_eq_ok pure_eq_ok)

/-- Result rows as they are made. -/
inductive Made : Results → Prop
  | ofRows (columns : List String) (rows : List (List Value)) : Made (.ofRows columns rows)
  | ofRow (row : List (String × Value)) : Made (.ofRow row)

/-! ### Calls -/

/-- What can be asked of result rows. -/
inductive Call
  | first
  | next
  | close
  | findColumn (name : String)
  /-- A column read as a kind of value. -/
  | read (kind : Wire) (position : Nat)
  /-- A column as it stands. -/
  | value (position : Nat)
  | isNull (position : Nat)

/-- The column that a call reads. -/
def Call.position? : Call → Option Nat
  | .read _ position | .value position | .isNull position => some position
  | .first | .next | .close | .findColumn _ => none

/-- What a call gives. -/
inductive Answer
  | moved (found : Bool)
  | closed
  | column (position : Option Nat)
  | value (v : Value)
  | isNull (null : Bool)

/-- A move, which leaves the results as they are if it fails. -/
def moving (r : Results) : Except Failure (Bool × Results) → Except Failure Answer × Results
  | .ok (found, moved) => (.ok (.moved found), moved)
  | .error e => (.error e, r)

/-- What a call gives, and the results after it. -/
def apply (r : Results) : Call → Except Failure Answer × Results
  | .first => r.moving r.first
  | .next => r.moving r.next
  | .close => (.ok .closed, r.close)
  | .findColumn name => (.column <$> r.findColumn name, r)
  | .read kind position => (.value <$> kind.read r position, r)
  | .value position => (.value <$> r.get position, r)
  | .isNull position => (.isNull <$> r.isNull position, r)

/-- The results after some calls. -/
def run (r : Results) (calls : List Call) : Results := calls.foldl (fun r c => (r.apply c).2) r

/-! ### Where the cursor stands -/

/-- The cursor is before the first row, on a row, or after the last one. -/
inductive Stands (r : Results) : Prop
  | before (h : r.cursor = none)
  | on (i : Nat) (h : r.cursor = some i) (hi : i < r.rows.length)
  | after (h : r.cursor = some r.rows.length)

/-- The results are open and the cursor is on a row that has the column. -/
def Covers (r : Results) (position : Nat) : Prop :=
  r.closed = false ∧ ∃ i row, r.cursor = some i ∧ r.rows[i]? = some row ∧ position < row.length

/-- The results are open and the cursor is after the last row. -/
def AtEnd (r : Results) : Prop := r.closed = false ∧ r.cursor = some r.rows.length

/-- The number of the row that the cursor moves to, if there is one. -/
def following (r : Results) : Nat :=
  match r.cursor with
  | none => 0
  | some i => i + 1

/-- The results with the cursor after the last row. -/
def past (r : Results) : Results := { r with cursor := some r.rows.length }

variable {r : Results}

theorem checkOpen_of_open (opened : r.closed = false) : r.checkOpen = .ok () := by
  rw [checkOpen, opened]
  rfl

theorem checkOpen_of_closed (closed : r.closed = true) :
    r.checkOpen = .error (.access .closed) := if_pos closed

theorem checkOpen_eq_ok : r.checkOpen = .ok () ↔ r.closed = false := by
  cases closed : r.closed with
  | true => simp [checkOpen_of_closed closed]
  | false => simp [checkOpen_of_open closed]

theorem first_of_open (opened : r.closed = false) :
    r.first =
      .ok (!r.rows.isEmpty, { r with cursor := if r.rows.isEmpty then none else some 0 }) := by
  rw [first, checkOpen_of_open opened]
  cases h : r.rows.isEmpty <;> rfl

theorem next_row (opened : r.closed = false) (h : r.following < r.rows.length) :
    r.next = .ok (true, { r with cursor := some r.following }) := by
  rw [next, checkOpen_of_open opened]
  exact if_pos h

theorem next_end (opened : r.closed = false) (h : r.rows.length ≤ r.following) :
    r.next = .ok (false, r.past) := by
  rw [next, checkOpen_of_open opened]
  exact if_neg (Nat.not_lt.mpr h)

/-! ### Reading -/

theorem currentRow_eq_ok {row : List Value} : r.currentRow = .ok row ↔
    r.closed = false ∧ ∃ i, r.cursor = some i ∧ r.rows[i]? = some row := by
  rw [currentRow, bind_eq_ok, ← Option.bind_eq_some_iff]
  constructor
  · rintro ⟨⟨⟩, opened, h⟩
    split at h
    · next found => exact ⟨checkOpen_eq_ok.mp opened, pure_eq_ok.mp h ▸ found⟩
    · cases h
  · rintro ⟨opened, found⟩
    refine ⟨⟨⟩, checkOpen_eq_ok.mpr opened, ?_⟩
    rw [found]
    rfl

/-- A column is there exactly if the cursor is on a row that has it. -/
theorem exists_get_iff {position : Nat} :
    (∃ u, r.get position = .ok u) ↔ r.Covers position := by
  constructor
  · rintro ⟨u, h⟩
    obtain ⟨row, current, h⟩ := bind_eq_ok.mp h
    obtain ⟨opened, i, cursor, found⟩ := currentRow_eq_ok.mp current
    split at h
    · next column =>
      exact ⟨opened, i, row, cursor, found, (List.getElem?_eq_some_iff.mp column).1⟩
    · cases h
  · rintro ⟨opened, i, row, cursor, found, within⟩
    have current := currentRow_eq_ok.mpr ⟨opened, i, cursor, found⟩
    refine ⟨row[position], bind_eq_ok.mpr ⟨row, current, ?_⟩⟩
    rw [List.getElem?_eq_getElem within]
    rfl

/-- Without the column there is nothing to read, as whatever kind of value. -/
theorem read_of_get_error {position : Nat} {e : Failure} (h : r.get position = .error e)
    (kind : Wire) : kind.read r position = .error e := by
  have typed {α : Type} (target : String) (coerce? : Value → Option α) :
      r.read position target coerce? = .error e := by
    rw [read, h]
    rfl
  cases kind with
  | text => rw [Wire.read, getString, h]; rfl
  | word w =>
    cases w with
    | byte => rw [Wire.read, getByte, typed]; rfl
    | short => rw [Wire.read, getShort, typed]; rfl
    | int => rw [Wire.read, getInt, typed]; rfl
    | long => rw [Wire.read, getLong, typed]; rfl
  | bytes => rw [Wire.read, getBytes, typed]; rfl
  | char => rw [Wire.read, getChar, typed]; rfl
  | bool => rw [Wire.read, getBoolean, typed]; rfl
  | single => rw [Wire.read, getFloat, typed]; rfl
  | double => rw [Wire.read, getDouble, typed]; rfl
  | timestamp => rw [Wire.read, getTimestamp, typed]; rfl
  | uuid => rw [Wire.read, getUuid, typed]; rfl
  | decimal => rw [Wire.read, getDecimal, typed]; rfl

/-- A call that reads a column leaves the results as they are. -/
theorem apply_of_reads {c : Call} {position : Nat} (reads : c.position? = some position) :
    (r.apply c).2 = r := by
  cases c with
  | read | value | isNull => rfl
  | first | next | close | findColumn => cases reads

/-- Where a column is missing, a call that reads it fails as the column does. -/
theorem apply_of_get_error {c : Call} {position : Nat} {e : Failure}
    (reads : c.position? = some position) (h : r.get position = .error e) :
    r.apply c = (.error e, r) := by
  cases c with
  | read kind p =>
    obtain rfl := Option.some.inj reads
    rw [apply, read_of_get_error h]
    rfl
  | value p =>
    obtain rfl := Option.some.inj reads
    rw [apply, h]
    rfl
  | isNull p =>
    obtain rfl := Option.some.inj reads
    rw [apply, isNull, h]
    rfl
  | first | next | close | findColumn => cases reads

/-- **Only a column that is there is read.** -/
theorem covers_of_reads {c : Call} {position : Nat} {a : Answer}
    (reads : c.position? = some position) (h : (r.apply c).1 = .ok a) : r.Covers position := by
  refine exists_get_iff.mp ?_
  cases column : r.get position with
  | ok u => exact ⟨u, rfl⟩
  | error e =>
    rw [apply_of_get_error reads column] at h
    cases h

/-! ### What a call does -/

/-- Closed results fail whatever they are asked, but to close. -/
theorem apply_of_closed (closed : r.closed = true) {c : Call} (h : c ≠ .close) :
    r.apply c = (.error (.access .closed), r) := by
  have check := checkOpen_of_closed closed
  have get (position : Nat) : r.get position = .error (.access .closed) := by
    rw [Results.get, currentRow, check]
    rfl
  cases c with
  | close => exact absurd rfl h
  | first => rw [apply, first, check]; rfl
  | next => rw [apply, next, check]; rfl
  | findColumn name => rw [apply, findColumn, check]; rfl
  | read _ position | value position | isNull position =>
    exact apply_of_get_error rfl (get position)

/-- What a call may do: nothing, close, or move the cursor of open results. -/
inductive Step (r : Results) : Call → Results → Prop
  | stay (c : Call) (h : c ≠ .close) : Step r c r
  | close : Step r .close r.close
  | move (c : Call) (cursor : Option Nat) (h : c ≠ .close)
      (stands : Stands { r with cursor := cursor }) : Step r c { r with cursor := cursor }

theorem step_apply (r : Results) (c : Call) : r.Step c (r.apply c).2 := by
  cases closed : r.closed with
  | true =>
    by_cases h : c = .close
    · subst h
      exact .close
    · rw [apply_of_closed closed h]
      exact .stay c h
  | false =>
    cases c with
    | first =>
      rw [apply, first_of_open closed]
      refine .move .first _ (nofun) ?_
      cases rows : r.rows with
      | nil => exact .before rfl
      | cons row rows => exact .on 0 rfl (by simp)
    | next =>
      rw [apply]
      by_cases h : r.following < r.rows.length
      · rw [next_row closed h]
        exact .move .next _ (nofun) (.on _ rfl h)
      · rw [next_end closed (Nat.not_lt.mp h)]
        exact .move .next _ (nofun) (.after rfl)
    | close => exact .close
    | findColumn | read | value | isNull => exact .stay _ (nofun)

namespace Step

variable {c : Call} {r' : Results}

/-- A step keeps the cursor within its bounds. -/
theorem stands (h : r.Step c r') (within : r.Stands) : r'.Stands := by
  cases h with
  | stay => exact within
  | move _ _ _ stands => exact stands
  | close =>
    cases within with
    | before h => exact .before h
    | on i h hi => exact .on i h hi
    | after h => exact .after h

theorem rows_eq (h : r.Step c r') : r'.rows = r.rows := by cases h <;> rfl

theorem closed_iff (h : r.Step c r') : r'.closed = true ↔ r.closed = true ∨ c = .close := by
  cases h with
  | stay _ h | move _ _ h => simp [h]
  | close => simp [Results.close]

end Step

/-! ### Runs -/

theorem run_cons (r : Results) (c : Call) (calls : List Call) :
    r.run (c :: calls) = (r.apply c).2.run calls := rfl

/-- Whatever calls are made, the cursor stays within its bounds. -/
theorem stands_run (within : r.Stands) (calls : List Call) : (r.run calls).Stands := by
  induction calls generalizing r with
  | nil => exact within
  | cons c calls ih => exact ih ((r.step_apply c).stands within)

theorem rows_run (r : Results) (calls : List Call) : (r.run calls).rows = r.rows := by
  induction calls generalizing r with
  | nil => rfl
  | cons c calls ih => exact (ih _).trans (r.step_apply c).rows_eq

/-- Results are closed exactly if they were or a call has closed them. -/
theorem closed_run_iff (r : Results) (calls : List Call) :
    (r.run calls).closed = true ↔ r.closed = true ∨ .close ∈ calls := by
  induction calls generalizing r with
  | nil => simp [run]
  | cons c calls ih =>
    rw [run_cons, ih, (r.step_apply c).closed_iff, List.mem_cons, or_assoc, eq_comm (a := c)]

/-- Where `next` finds no row, the cursor is after the last one. -/
theorem atEnd_of_next {r' : Results} (h : r.apply .next = (.ok (.moved false), r')) : r'.AtEnd := by
  cases closed : r.closed with
  | true =>
    have fails := apply_of_closed closed (c := .next) (nofun)
    rw [fails] at h
    cases h
  | false =>
    rw [apply] at h
    by_cases more : r.following < r.rows.length
    · rw [next_row closed more] at h
      cases h
    · rw [next_end closed (Nat.not_lt.mp more)] at h
      cases h
      exact ⟨closed, rfl⟩

/-- There `next` finds nothing and the cursor stays. -/
theorem AtEnd.apply_next (h : r.AtEnd) : r.apply .next = (.ok (.moved false), r) := by
  have beyond : r.rows.length ≤ r.following := by
    rw [following, h.2]
    exact Nat.le_succ _
  have same : r.past = r := by rw [past, ← h.2]
  rw [apply, next_end h.1 beyond, same]
  rfl

/-- From there only `first` and `close` lead away. -/
theorem AtEnd.run (h : r.AtEnd) {calls : List Call} (stays : ∀ c ∈ calls, c ≠ .first ∧ c ≠ .close) :
    r.run calls = r := by
  induction calls with
  | nil => rfl
  | cons c calls ih =>
    obtain ⟨⟨notFirst, notClose⟩, rest⟩ := List.forall_mem_cons.mp stays
    have same : (r.apply c).2 = r := by
      cases c with
      | first => exact absurd rfl notFirst
      | close => exact absurd rfl notClose
      | next => rw [h.apply_next]
      | findColumn | read | value | isNull => rfl
    rw [run_cons, same]
    exact ih rest

/-! ### Going through the rows -/

/-- A loop over rows, after a move that has told whether there is one: it takes the row and moves on
by `next`, until there is none. -/
inductive Takes : Bool × Results → List (List Value) → Results → Prop
  | none (r : Results) : Takes (false, r) [] r
  | row {r done : Results} {moved : Bool × Results} {row : List Value} {rows : List (List Value)}
      (current : r.currentRow = .ok row) (next : r.next = .ok moved) (rest : Takes moved rows done) :
      Takes (true, r) (row :: rows) done

/-- A loop over rows from the first one on takes `rows` and leaves `done`. -/
def Visits (r : Results) (rows : List (List Value)) (done : Results) : Prop :=
  ∃ moved, r.first = .ok moved ∧ Takes moved rows done

/-- What a loop takes and leaves is given by where it starts. -/
theorem Takes.unique {moved : Bool × Results} {rows rows' : List (List Value)}
    {done done' : Results}
    (h : Takes moved rows done) (h' : Takes moved rows' done') : rows = rows' ∧ done = done' := by
  induction h generalizing rows' with
  | none r =>
    cases h'
    exact ⟨rfl, rfl⟩
  | row current next _ ih =>
    cases h' with
    | row current' next' rest' =>
      obtain rfl := Except.ok.inj (current.symm.trans current')
      obtain rfl := Except.ok.inj (next.symm.trans next')
      obtain ⟨rfl, rfl⟩ := ih rest'
      exact ⟨rfl, rfl⟩

/-- From a row on, a loop takes the rows that are left. -/
theorem takes_drop (opened : r.closed = false) {i left : Nat} (h : i + left + 1 = r.rows.length) :
    Takes (true, { r with cursor := some i }) (r.rows.drop i) r.past := by
  induction left generalizing i with
  | zero =>
    have hi : i < r.rows.length := by omega
    have last : r.rows.drop (i + 1) = [] := List.drop_eq_nil_of_le (by omega)
    rw [List.drop_eq_getElem_cons hi, last]
    refine .row (currentRow_eq_ok.mpr ⟨opened, i, rfl, List.getElem?_eq_getElem hi⟩) ?_ (.none _)
    exact next_end opened (Nat.le_of_eq h.symm)
  | succ left ih =>
    have hi : i < r.rows.length := by omega
    have more : i + 1 < r.rows.length := by omega
    rw [List.drop_eq_getElem_cons hi]
    refine .row (currentRow_eq_ok.mpr ⟨opened, i, rfl, List.getElem?_eq_getElem hi⟩) ?_
      (ih (i := i + 1) (by omega))
    exact next_row opened more

/-- **A loop over open results takes every row, in order and once**, wherever the cursor was. -/
theorem visits_iff (opened : r.closed = false) {rows : List (List Value)} {done : Results} :
    r.Visits rows done ↔
      rows = r.rows ∧ done = if r.rows.isEmpty then { r with cursor := none } else r.past := by
  have all : r.Visits r.rows (if r.rows.isEmpty then { r with cursor := none } else r.past) := by
    refine ⟨_, first_of_open opened, ?_⟩
    cases h : r.rows with
    | nil => exact .none _
    | cons row rest =>
      have start := takes_drop opened (show 0 + rest.length + 1 = r.rows.length by simp [h])
      rwa [List.drop_zero, h] at start
  constructor
  · rintro ⟨moved, first, takes⟩
    obtain ⟨moved', first', takes'⟩ := all
    obtain rfl := Except.ok.inj (first.symm.trans first')
    exact takes.unique takes'
  · rintro ⟨rfl, rfl⟩
    exact all

/-! ### Results as they are made -/

namespace Made

theorem stands (made : r.Made) : r.Stands := by
  cases made with
  | ofRows => exact .before rfl
  | ofRow row => exact .on 0 rfl Nat.one_pos

theorem opened (made : r.Made) : r.closed = false := by cases made <;> rfl

end Made

/-- **The cursor visits every row and stays within its bounds.** Results as they are made have been
asked for whatever in whatever order. Then the cursor is before the first row, on a row or after the
last one, and the results are closed exactly if they have been asked to close. A column is read only
from open results with the cursor on a row that has it, and reading moves nothing. After the last
row `next` finds none and stays there, until `first` or `close`. Closed results fail whatever they
are asked, and open ones give a loop all rows in order, each once, wherever the cursor is. -/
theorem cursor_in_bounds {start r : Results} {calls : List Call} (made : start.Made)
    (reached : start.run calls = r) :
    r.Stands ∧ (r.closed = true ↔ .close ∈ calls) ∧
    (∀ c position, c.position? = some position →
      (r.apply c).2 = r ∧ ∀ answer, (r.apply c).1 = .ok answer → r.Covers position) ∧
    (∀ position, r.Covers position → ∃ u, r.apply (.value position) = (.ok (.value u), r)) ∧
    (∀ r', r.apply .next = (.ok (.moved false), r') → r'.AtEnd) ∧
    (r.AtEnd → ∀ more : List Call, (∀ c ∈ more, c ≠ .first ∧ c ≠ .close) →
      (r.run more).apply .next = (.ok (.moved false), r)) ∧
    (.close ∈ calls → ∀ c, c ≠ .close → r.apply c = (.error (.access .closed), r)) ∧
    (.close ∉ calls → ∀ rows done, r.Visits rows done ↔ rows = start.rows ∧
      done = if start.rows.isEmpty then { r with cursor := none } else r.past) := by
  subst reached
  have closed : (start.run calls).closed = true ↔ .close ∈ calls := by
    simpa [made.opened] using start.closed_run_iff calls
  refine ⟨stands_run made.stands calls, closed, fun c position reads => ?_,
    fun position there => ?_, fun _ => atEnd_of_next, fun ended more stays => ?_,
    fun asked c h => ?_, fun unasked rows done => ?_⟩
  · exact ⟨apply_of_reads reads, fun _ => covers_of_reads reads⟩
  · obtain ⟨u, column⟩ := exists_get_iff.mpr there
    exact ⟨u, by rw [apply, column]; rfl⟩
  · rw [ended.run stays, ended.apply_next]
  · exact apply_of_closed (closed.mpr asked) h
  · have opened := Bool.eq_false_iff.mpr (mt closed.mp unasked)
    rw [visits_iff opened, rows_run]

/-- Two rows of different lengths: there is no second column in the second row, and after the last
row and one more `next` a loop takes both rows again. -/
theorem ragged_rows_visited_again : ∃ start second last : Results,
    start = .ofRows ["id", "name"] [[.long 1, .text "a"], [.long 2]] ∧
      start.run [.next, .next] = second ∧ second.run [.next] = last ∧
      second.apply (.value 0) = (.ok (.value (.long 2)), second) ∧ second.Covers 0 ∧
      (∀ answer, (second.apply (.isNull 1)).1 ≠ .ok answer) ∧
      (last.run [.next, .value 0]).apply .next = (.ok (.moved false), last) ∧
      (last.run [.close]).apply .first = (.error (.access .closed), last.run [.close]) ∧
      ∃ done, last.Visits [[.long 1, .text "a"], [.long 2]] done := by
  let start : Results := .ofRows ["id", "name"] [[.long 1, .text "a"], [.long 2]]
  have made : start.Made := .ofRows _ _
  obtain ⟨-, -, reads, -⟩ := cursor_in_bounds made (show start.run [.next, .next] = _ from rfl)
  obtain ⟨-, -, -, -, ended, stays, -, visits⟩ :=
    cursor_in_bounds made (show start.run [.next, .next, .next] = _ from rfl)
  obtain ⟨-, -, -, -, -, -, closed, -⟩ :=
    cursor_in_bounds made (show start.run [.next, .next, .next, .close] = _ from rfl)
  refine ⟨start, _, _, rfl, rfl, rfl, rfl, (reads (.value 0) 0 rfl).2 _ rfl, fun answer h => ?_,
    stays (ended _ rfl) [.next, .value 0] (by simp), closed (by simp) .first (nofun),
    ⟨_, (visits (by simp) _ _).mpr ⟨rfl, rfl⟩⟩⟩
  -- The second row has one column only.
  obtain ⟨-, i, row, cursor, found, within⟩ := (reads (.isNull 1) 1 rfl).2 answer h
  obtain rfl : 1 = i := Option.some.inj cursor
  obtain rfl : [Value.long 2] = row := Option.some.inj found
  exact absurd within (by decide)

end Relmap.Results
