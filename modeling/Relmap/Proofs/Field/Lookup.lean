import Mathlib.Data.List.Perm.Subperm
import Relmap.Proofs.Field.Declare
import Relmap.Proofs.Field.Enumeration

/-!
# Constants by name and by ordinal

The constants of a field are looked up both ways, by name and by ordinal. When the field is built
its ordinals are counted, and they are as many as constants as long as thirty-two bits are enough
for them (`Enumeration.size_eq_iff`). Names are not counted: a list of constants is accepted
whatever names it repeats (`FieldDecl.exists_readConstants_iff`), and the later of two constants of
one name hides the earlier one. So what is found by name is always found again by its ordinal, and
what is found by ordinal is found again by its name only if the names differ.
-/

namespace Relmap

open Outcome

/-- A list without repetitions is as long without them. -/
theorem length_eraseDups_of_nodup {κ : Type} [DecidableEq κ] {l : List κ} (h : l.Nodup) :
    l.eraseDups.length = l.length := by
  induction l with
  | nil => rfl
  | cons a l ih =>
    obtain ⟨ha, hl⟩ := List.nodup_cons.mp h
    have kept : (l.filter fun b => !b == a) = l := by
      rw [List.filter_eq_self]
      intro b hb
      have differs : b ≠ a := fun same => ha (same ▸ hb)
      simpa using differs
    rw [List.eraseDups_cons, kept, List.length_cons, List.length_cons, ih hl]

namespace Enumeration

variable {e : Enumeration} {k : EnumConstant} {name : String} {n : Number.Word 32}

/-! ### Ordinals -/

/-- Ordinals are places in the list, in thirty-two bits. -/
theorem ordinals_eq (e : Enumeration) :
    e.constants.map (·.ordinal) = (List.range e.names.length).map (BitVec.ofNat 32) := by
  apply List.ext_getElem
  · simp
  · intro i h₁ h₂
    simp [constants]

/-- There are as many ordinals as constants exactly if thirty-two bits are enough to count them. -/
theorem size_eq_iff : e.size = e.names.length ↔ e.names.length ≤ Number.unsignedBound 32 := by
  constructor
  · intro h
    have distinct : ((e.constants.map (·.ordinal)).map BitVec.toNat).Nodup :=
      (ordinals_nodup h).map fun _ _ => BitVec.eq_of_toNat_eq
    have bounded : (e.constants.map (·.ordinal)).map BitVec.toNat ⊆
        List.range (Number.unsignedBound 32) := by
      intro i hi
      obtain ⟨m, -, rfl⟩ := List.mem_map.mp hi
      exact List.mem_range.mpr m.isLt
    have fewer := (distinct.subperm bounded).length_le
    rwa [List.length_map, List.length_map, length_constants, List.length_range] at fewer
  · intro h
    have distinct : (e.constants.map (·.ordinal)).Nodup := by
      rw [ordinals_eq]
      refine List.Nodup.map_on (fun i hi j hj same => ?_) List.nodup_range
      have hi := List.mem_range.mp hi
      have hj := List.mem_range.mp hj
      have few : e.names.length ≤ 4294967296 := h
      have same := congrArg BitVec.toNat same
      rw [BitVec.toNat_ofNat, BitVec.toNat_ofNat] at same
      omega
    rw [size, length_eraseDups_of_nodup distinct, List.length_map, length_constants]

/-! ### Looking up -/

/-- What is found by name is a constant of this name. -/
theorem mem_of_byName? (h : e.byName? name = some k) : k ∈ e.constants ∧ k.name = name :=
  ⟨List.mem_reverse.mp (List.mem_of_find?_eq_some h), by simpa using List.find?_some h⟩

/-- What is found by ordinal is a constant with this ordinal. -/
theorem mem_of_byOrdinal? (h : e.byOrdinal? n = some k) : k ∈ e.constants ∧ k.ordinal = n :=
  ⟨List.mem_reverse.mp (List.mem_of_find?_eq_some h), by simpa using List.find?_some h⟩

/-- A name that is declared is found, and no other. -/
theorem byName?_eq_none_iff : e.byName? name = none ↔ name ∉ e.names := by
  rw [← e.map_name_constants, List.mem_map, byName?, List.find?_eq_none]
  constructor
  · rintro h ⟨k, hk, rfl⟩
    exact h k (List.mem_reverse.mpr hk) (by simp)
  · intro h k hk same
    exact h ⟨k, List.mem_reverse.mp hk, by simpa using same⟩

/-- What is found by name is found again by its ordinal. -/
theorem byOrdinal?_of_byName? (sizes : e.size = e.names.length) (h : e.byName? name = some k) :
    e.byOrdinal? k.ordinal = some k :=
  byOrdinal?_self sizes (mem_of_byName? h).1

/-- **What is found by ordinal is found again by its name exactly if the names differ.** -/
theorem byName?_of_byOrdinal?_iff (sizes : e.size = e.names.length) :
    (∀ n k, e.byOrdinal? n = some k → e.byName? k.name = some k) ↔ e.names.Nodup := by
  constructor
  · intro again
    have distinct : e.constants.Nodup := (ordinals_nodup sizes).of_map
    rw [← e.map_name_constants]
    refine List.Nodup.map_on (fun k hk k' hk' same => ?_) distinct
    -- One name finds one constant, so that constants of one name are one.
    have found := again _ _ (byOrdinal?_self sizes hk)
    have found' := again _ _ (byOrdinal?_self sizes hk')
    rw [same] at found
    exact Option.some.inj (found.symm.trans found')
  · intro distinct n k h
    exact byName?_self distinct (mem_of_byOrdinal? h).1

end Enumeration

namespace FieldDecl

variable {d : FieldDecl} {dialect : Dialect} {c : Codec} {f : Field}

/-- **Which constants a field accepts**: some, not too many for their ordinals, and among them the
one for unknown constants. Whether names are repeated does not matter. -/
theorem exists_readConstants_iff :
    (∃ format, d.readConstants = .ok format) ↔
      d.enumConstants ≠ [] ∧ d.enumConstants.length ≤ Number.unsignedBound 32 ∧
        ∀ name, d.unknownEnum = some name → name ∈ d.enumConstants := by
  have empty : (Enumeration.mk d.enumConstants).isEmpty = false ↔ d.enumConstants ≠ [] := by
    rw [Enumeration.isEmpty, Bool.eq_false_iff, Ne, List.isEmpty_iff, ← List.length_eq_zero_iff,
      Enumeration.length_constants, List.length_eq_zero_iff]
  have sizes : ((Enumeration.mk d.enumConstants).size != d.enumConstants.length) = false ↔
      d.enumConstants.length ≤ Number.unsignedBound 32 := by
    rw [← Enumeration.size_eq_iff (e := ⟨d.enumConstants⟩), bne_eq_false_iff_eq]
  have fallback (name : String) : ((Enumeration.mk d.enumConstants).byName? name).isNone = false ↔
      name ∈ d.enumConstants := by
    rw [Bool.eq_false_iff, Ne, Option.isNone_iff_eq_none, Enumeration.byName?_eq_none_iff,
      Classical.not_not]
  unfold readConstants
  simp only [bind_eq_ok, refuseIf_eq_ok, empty, sizes]
  constructor
  · rintro ⟨format, ⟨⟩, nonempty, ⟨⟩, few, h⟩
    refine ⟨nonempty, few, fun name hname => ?_⟩
    rw [hname] at h
    obtain ⟨⟨⟩, declared, -⟩ := bind_eq_ok.mp h
    exact (fallback name).mp (refuseIf_eq_ok.mp declared)
  · rintro ⟨nonempty, few, declared⟩
    refine ⟨.constants ⟨d.enumConstants⟩, (), nonempty, (), few, ?_⟩
    cases hname : d.unknownEnum with
    | none => rfl
    | some name =>
      have accepted := (fallback name).mpr (declared name hname)
      exact bind_eq_ok.mpr ⟨(), refuseIf_eq_ok.mpr accepted, rfl⟩

/-- A type of enumerations keeps names or ordinals. -/
theorem codec_of_isEnum (enumerated : d.type.isEnum = true) (codec : d.type.codec? = some c) :
    c = .enumString ∨ c = .enumInteger := by
  cases type : d.type with
  | enumString =>
    rw [type] at codec
    exact .inl (Option.some.inj codec).symm
  | enumInteger =>
    rw [type] at codec
    exact .inr (Option.some.inj codec).symm
  | _ =>
    rw [type] at enumerated
    cases enumerated

/-- **The two ways to look constants up are inverse to each other where the names differ**, and only
there. A field accepts its constants whatever names are repeated among them; in the field that is
built, what is found by name is found again by its ordinal, and what is found by ordinal is found
again by its name exactly if no name is repeated. -/
theorem constants_found_again (enumerated : d.type.isEnum = true) :
    ((∃ format, d.readConstants = .ok format) ↔
      d.enumConstants ≠ [] ∧ d.enumConstants.length ≤ Number.unsignedBound 32 ∧
        ∀ name, d.unknownEnum = some name → name ∈ d.enumConstants) ∧
    ∀ f, d.toField dialect = .ok f → ∃ e, f.enumeration = .ok e ∧ e.names = d.enumConstants ∧
      (∀ name k, e.byName? name = some k → k.name = name ∧ e.byOrdinal? k.ordinal = some k) ∧
      ((∀ n k, e.byOrdinal? n = some k → k.ordinal = n ∧ e.byName? k.name = some k) ↔
        d.enumConstants.Nodup) := by
  refine ⟨exists_readConstants_iff, fun f built => ?_⟩
  obtain ⟨c, built⟩ := built_of_toField built
  obtain ⟨enumeration, sizes⟩ := built.enumeration (codec_of_isEnum enumerated built.codec)
  refine ⟨_, enumeration, rfl, fun name k h => ?_, ?_⟩
  · exact ⟨(Enumeration.mem_of_byName? h).2, Enumeration.byOrdinal?_of_byName? sizes h⟩
  · rw [← Enumeration.byName?_of_byOrdinal?_iff (e := ⟨d.enumConstants⟩) sizes]
    constructor
    · exact fun again n k h => (again n k h).2
    · exact fun again n k h => ⟨(Enumeration.mem_of_byOrdinal? h).2, again n k h⟩

/-- Two constants of different names are found both ways. -/
theorem open_and_closed_found_again :
    ∃ f e, FieldDecl.toField
        { name := "status", type := .enumInteger, enumConstants := ["OPEN", "CLOSED"] } .derby =
          .ok f ∧
      f.enumeration = .ok e ∧
      ∀ n k, e.byOrdinal? n = some k → k.ordinal = n ∧ e.byName? k.name = some k := by
  obtain ⟨f, built⟩ : ∃ f, FieldDecl.toField
      { name := "status", type := .enumInteger, enumConstants := ["OPEN", "CLOSED"] } .derby =
        .ok f := ⟨_, rfl⟩
  obtain ⟨e, enumeration, -, -, again⟩ := (constants_found_again rfl).2 f built
  exact ⟨f, e, built, enumeration, again.mpr (by decide)⟩

/-- A name that is declared twice is accepted, and then the first of its two constants is found by
ordinal but not again by name. -/
theorem repeated_name_hides_constant :
    ∃ f e, FieldDecl.toField
        { name := "status", type := .enumString, enumConstants := ["OPEN", "CLOSED", "OPEN"] }
          .sqlite = .ok f ∧
      f.enumeration = .ok e ∧ ¬e.names.Nodup ∧
      e.byOrdinal? 0 = some ⟨"OPEN", 0⟩ ∧ e.byName? "OPEN" = some ⟨"OPEN", 2⟩ :=
  ⟨_, ⟨["OPEN", "CLOSED", "OPEN"]⟩, rfl, rfl, by decide, by decide, by decide⟩

end FieldDecl

end Relmap
