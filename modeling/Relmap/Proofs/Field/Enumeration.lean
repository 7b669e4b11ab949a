import Mathlib.Data.List.Nodup
import Relmap.Field.Enumeration

/-!
# Constants are found again

A constant is found by a key, its name or its ordinal, if no other constant has that key
(`byName?_self`, `byOrdinal?_self`). Ordinals are told apart by counting them: there are as many as
constants only if none is used twice (`ordinals_nodup`).
-/

namespace Relmap

variable {α κ : Type} [DecidableEq κ]

/-- An element is found by its key in a list without repeated keys. -/
theorem find?_key (key : α → κ) {l : List α} {a : α} (distinct : (l.map key).Nodup) (ha : a ∈ l) :
    l.find? (fun x => key x = key a) = some a := by
  induction l with
  | nil => cases ha
  | cons b l ih =>
    rw [List.map_cons, List.nodup_cons] at distinct
    rcases List.mem_cons.mp ha with rfl | ha
    · exact List.find?_cons_of_pos (by simp)
    · have other : key b ≠ key a := by
        intro same
        exact distinct.1 (same ▸ List.mem_map_of_mem ha)
      rw [List.find?_cons_of_neg (by simpa using other)]
      exact ih distinct.2 ha

/-- The order in which the list is searched does not matter then. -/
theorem find?_reverse_key (key : α → κ) {l : List α} {a : α} (distinct : (l.map key).Nodup)
    (ha : a ∈ l) : l.reverse.find? (fun x => key x = key a) = some a :=
  find?_key key (by rwa [List.map_reverse, List.nodup_reverse]) (List.mem_reverse.mpr ha)

theorem length_eraseDups_le (l : List κ) : l.eraseDups.length ≤ l.length := by
  match l with
  | [] => simp
  | a :: l =>
    have shorter : (l.filter fun b => !b == a).length ≤ l.length := List.length_filter_le _ _
    have rest := length_eraseDups_le (l.filter fun b => !b == a)
    rw [List.eraseDups_cons, List.length_cons, List.length_cons]
    omega
  termination_by l.length

/-- A list is as long without its repetitions only if it has none. -/
theorem nodup_of_length_eraseDups {l : List κ} (h : l.eraseDups.length = l.length) : l.Nodup := by
  induction l with
  | nil => exact List.nodup_nil
  | cons a l ih =>
    have shorter : (l.filter fun b => !b == a).length ≤ l.length := List.length_filter_le _ _
    have distinct := length_eraseDups_le (l.filter fun b => !b == a)
    rw [List.eraseDups_cons, List.length_cons, List.length_cons] at h
    -- Nothing was filtered out, or the list would be shorter.
    have kept : (l.filter fun b => !b == a) = l := List.filter_eq_self.mpr <|
      List.length_filter_eq_length_iff.mp (by omega)
    rw [kept] at h
    refine List.nodup_cons.mpr ⟨?_, ih (by omega)⟩
    intro ha
    have differs := List.length_filter_eq_length_iff.mp (congrArg List.length kept) a ha
    simp at differs

namespace Enumeration

variable {e : Enumeration} {k : EnumConstant}

@[simp] theorem length_constants (e : Enumeration) : e.constants.length = e.names.length :=
  List.length_mapIdx

/-- The constants have the declared names, in order. -/
@[simp] theorem map_name_constants (e : Enumeration) : e.constants.map (·.name) = e.names := by
  apply List.ext_getElem
  · simp
  · intro i h₁ h₂
    simp [constants]

theorem byName?_self (distinct : e.names.Nodup) (hk : k ∈ e.constants) :
    e.byName? k.name = some k :=
  find?_reverse_key EnumConstant.name (by rwa [map_name_constants]) hk

/-- With as many ordinals as constants, no ordinal is used twice. -/
theorem ordinals_nodup (h : e.size = e.names.length) : (e.constants.map (·.ordinal)).Nodup := by
  apply nodup_of_length_eraseDups
  rw [List.length_map, length_constants]
  exact h

theorem byOrdinal?_self (h : e.size = e.names.length) (hk : k ∈ e.constants) :
    e.byOrdinal? k.ordinal = some k :=
  find?_reverse_key EnumConstant.ordinal (ordinals_nodup h) hk

end Enumeration

end Relmap
