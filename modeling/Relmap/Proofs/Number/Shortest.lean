import Relmap.Number.Shortest
import Relmap.Proofs.Number.Rounding

/-!
# What the shortest text of a number stands for

The search for the shortest decimal of a number of double precision always finds one, on the finest
of its grids at the latest: that grid is finer than the steps of the significand
(`isSome_gridPoint?`), because `topGrid` is near enough to the logarithm of the number. What it finds
is positive and not above the number by more than half a step (`shortest_bounds`).
-/

namespace Relmap.Number.Binary

variable {f : BinaryFormat} {x : Binary f} {tie : Tie} {d : Decimal} {grid : ℤ}

/-! ### One grid -/

/-- The power of two of a number and the step of a grid, in a common measure. -/
def unitOn (x : Binary f) (grid : ℤ) : Nat := 2 ^ x.power.toNat * 10 ^ (-grid).toNat

/-- The step of a grid in the measure of `unitOn`. -/
def stepOn (x : Binary f) (grid : ℤ) : Nat := 2 ^ (-x.power).toNat * 10 ^ grid.toNat

theorem stepOn_pos (x : Binary f) (grid : ℤ) : 0 < x.stepOn grid :=
  Nat.mul_pos (Nat.two_pow_pos _) (Nat.pow_pos (by decide))

theorem unitOn_pos (x : Binary f) (grid : ℤ) : 0 < x.unitOn grid :=
  Nat.mul_pos (Nat.two_pow_pos _) (Nat.pow_pos (by decide))

/-- What looking on a grid finds: the point below, the point above, or none near enough. Of a unit,
a half is near on either side, and at a power of two only a quarter below. -/
theorem gridPoint?_cases (tie : Tie) (x : Binary f) (grid : ℤ) : ∃ below above,
    4 * x.stepOn grid * below + above = 4 * x.significand * x.unitOn grid ∧
    above < 4 * x.stepOn grid ∧
    (x.gridPoint? tie grid = some ⟨below, grid⟩ ∧ above ≤ 2 * x.unitOn grid ∨
      x.gridPoint? tie grid = some ⟨below + 1, grid⟩ ∧
        4 * x.stepOn grid ≤ above + 2 * x.unitOn grid ∨
      x.gridPoint? tie grid = none ∧ x.unitOn grid ≤ above ∧
        above + 2 * x.unitOn grid ≤ 4 * x.stepOn grid) := by
  have hstep : 4 * 2 ^ (-x.power).toNat * 10 ^ grid.toNat = 4 * x.stepOn grid := Nat.mul_assoc ..
  have hmod := Nat.mod_lt (4 * x.significand * x.unitOn grid)
    (Nat.mul_pos (n := 4) (by decide) (x.stepOn_pos grid))
  refine ⟨_, _, Nat.div_add_mod _ _, hmod, ?_⟩
  unfold gridPoint?
  dsimp only
  rw [hstep, ← unitOn]
  generalize hgap : (if x.narrowBelow = true then x.unitOn grid else 2 * x.unitOn grid) = gap
  have hunit : x.unitOn grid ≤ gap ∧ gap ≤ 2 * x.unitOn grid := by
    rw [← hgap]
    split <;> omega
  generalize 4 * x.significand * x.unitOn grid / (4 * x.stepOn grid) = below
  generalize 4 * x.significand * x.unitOn grid % (4 * x.stepOn grid) = above at hmod ⊢
  split
  · rename_i hdown
    refine .inl ⟨rfl, ?_⟩
    simp at hdown
    omega
  · rename_i hdown
    split
    · rename_i hup
      refine .inr (.inl ⟨rfl, ?_⟩)
      simp at hup
      omega
    · rename_i hup
      refine .inr (.inr ⟨rfl, ?_⟩)
      rw [Bool.not_eq_true] at hup
      rw [hup] at hdown
      simp at hdown hup
      omega

theorem stepOn_div_unitOn (x : Binary f) (grid : ℤ) :
    (x.stepOn grid : ℚ) / x.unitOn grid = 10 ^ grid / 2 ^ x.power := by
  rw [zpow_eq_div (b := 10) (by norm_num) grid, zpow_eq_div (b := 2) (by norm_num) x.power, stepOn,
    unitOn]
  push_cast
  field_simp

/-- A point that is found is a positive decimal, and not above the number by more than half a step
of its significand. -/
theorem gridPoint?_bounds (hx : 0 < x.significand) (h : x.gridPoint? tie grid = some d) :
    0 < d.digits ∧ (d.digits * 10 ^ d.exponent : ℚ) ≤ (x.significand + 1 / 2) * 2 ^ x.power := by
  have hunit : 4 * x.unitOn grid ≤ 4 * x.significand * x.unitOn grid :=
    Nat.mul_le_mul_right _ (Nat.le_mul_of_pos_right 4 hx)
  have hpos := x.unitOn_pos grid
  obtain ⟨hdigits, hexponent, hbound⟩ : 0 < d.digits ∧ d.exponent = grid ∧
      4 * x.stepOn grid * d.digits ≤ 4 * x.significand * x.unitOn grid + 2 * x.unitOn grid := by
    obtain ⟨below, above, hsum, habove, ⟨hfound, hnear⟩ | ⟨hfound, hnear⟩ | ⟨hnone, -⟩⟩ :=
      gridPoint?_cases tie x grid
    · cases h.symm.trans hfound
      refine ⟨Nat.pos_iff_ne_zero.mpr ?_, rfl, ?_⟩
      · rintro rfl
        omega
      · dsimp only
        omega
    · cases h.symm.trans hfound
      refine ⟨Nat.succ_pos _, rfl, ?_⟩
      rw [Nat.mul_succ]
      omega
    · cases h.symm.trans hnone
  refine ⟨hdigits, ?_⟩
  have hpower : (0 : ℚ) < 2 ^ x.power := by positivity
  have hunit' : (0 : ℚ) < x.unitOn grid := by exact_mod_cast hpos
  have hbound' : (4 * x.stepOn grid * d.digits : ℚ) ≤
      4 * x.significand * x.unitOn grid + 2 * x.unitOn grid := by exact_mod_cast hbound
  rw [hexponent, ← div_le_iff₀ hpower, mul_div_assoc, ← stepOn_div_unitOn, mul_div_assoc',
    div_le_iff₀ hunit']
  linarith

/-- A grid that is finer than the steps of the significand has a point. -/
theorem isSome_gridPoint? (h : (4 * 10 ^ grid : ℚ) < 3 * 2 ^ x.power) :
    (x.gridPoint? tie grid).isSome = true := by
  obtain ⟨below, above, -, -, ⟨hfound, -⟩ | ⟨hfound, -⟩ | ⟨-, hfar, hfar'⟩⟩ :=
    gridPoint?_cases tie x grid
  · rw [hfound]
    rfl
  · rw [hfound]
    rfl
  · exfalso
    have hunit : (0 : ℚ) < x.unitOn grid := by exact_mod_cast x.unitOn_pos grid
    have hless : (4 * x.stepOn grid : ℚ) < 3 * x.unitOn grid := by
      rw [← div_lt_iff₀ hunit, mul_div_assoc, stepOn_div_unitOn, ← mul_div_assoc,
        div_lt_iff₀ (by positivity)]
      exact h
    have hless' : 4 * x.stepOn grid < 3 * x.unitOn grid := by exact_mod_cast hless
    omega

/-! ### The first grid -/

/-- If one of the grids has a point, the first point is one. -/
theorem firstGridPoint_found {n steps : Nat} (hn : n < steps)
    (h : (x.gridPoint? tie (grid - n)).isSome = true) :
    ∃ grid', x.gridPoint? tie grid' = some (x.firstGridPoint tie grid steps) := by
  induction steps generalizing grid n with
  | zero => exact absurd hn (Nat.not_lt_zero n)
  | succ steps ih =>
    rw [firstGridPoint]
    cases found : x.gridPoint? tie grid with
    | some d => exact ⟨grid, found⟩
    | none =>
      cases n with
      | zero =>
        rw [Nat.cast_zero, Int.sub_zero, found] at h
        cases h
      | succ n =>
        refine ih (n := n) (Nat.lt_of_succ_lt_succ hn) ?_
        rwa [Int.sub_sub, Int.add_comm, ← Nat.cast_succ]

/-! ### Powers of two and of ten -/

theorem ten_pow_le_two_pow {a n : Nat} (h : 10 * a ≤ 3 * n) : (10 : ℚ) ^ a ≤ 2 ^ n := by
  have hcubes : (10 ^ a) ^ 3 ≤ (2 ^ n) ^ 3 :=
    calc (10 ^ a) ^ 3 = (10 ^ 3) ^ a := Nat.pow_right_comm ..
      _ ≤ (2 ^ 10) ^ a := Nat.pow_le_pow_left (by decide) a
      _ = 2 ^ (10 * a) := (Nat.pow_mul ..).symm
      _ ≤ 2 ^ (n * 3) := Nat.pow_le_pow_right (by decide) (by omega)
      _ = (2 ^ n) ^ 3 := Nat.pow_mul ..
  exact_mod_cast (Nat.pow_le_pow_iff_left (by decide)).mp hcubes

theorem two_pow_le_ten_pow {a n : Nat} (h : 28 * n ≤ 93 * a) : (2 : ℚ) ^ n ≤ 10 ^ a := by
  have hpowers : (2 ^ n) ^ 93 ≤ (10 ^ a) ^ 93 :=
    calc (2 ^ n) ^ 93 = (2 ^ 93) ^ n := Nat.pow_right_comm ..
      _ ≤ (10 ^ 28) ^ n := Nat.pow_le_pow_left (by decide) n
      _ = 10 ^ (28 * n) := (Nat.pow_mul ..).symm
      _ ≤ 10 ^ (a * 93) := Nat.pow_le_pow_right (by decide) (by omega)
      _ = (10 ^ a) ^ 93 := Nat.pow_mul ..
  exact_mod_cast (Nat.pow_le_pow_iff_left (by decide)).mp hpowers

/-- Within the powers of double precision the logarithm of two is near enough to the one that
`topGrid` takes. -/
theorem ten_zpow_le_two_zpow {g p : ℤ} (hp : -1074 ≤ p ∧ p ≤ 971)
    (h : 100000 * (g + 3) ≤ 30103 * p) : (10 : ℚ) ^ g ≤ 2 ^ p := by
  rcases le_or_gt 0 p with hpositive | hnegative
  · obtain ⟨n, rfl⟩ := Int.eq_ofNat_of_zero_le hpositive
    rcases le_or_gt 0 g with hg | hg
    · obtain ⟨a, rfl⟩ := Int.eq_ofNat_of_zero_le hg
      rw [zpow_natCast, zpow_natCast]
      exact ten_pow_le_two_pow (by omega)
    · calc (10 : ℚ) ^ g ≤ 1 := zpow_le_one_of_nonpos₀ (by norm_num) hg.le
        _ ≤ 2 ^ (n : ℤ) := one_le_zpow₀ (by norm_num) hpositive
  · obtain ⟨n, rfl⟩ := Int.exists_eq_neg_ofNat hnegative.le
    obtain ⟨a, rfl⟩ := Int.exists_eq_neg_ofNat (a := g) (by omega)
    rw [zpow_neg, zpow_neg, zpow_natCast, zpow_natCast]
    gcongr
    exact two_pow_le_ten_pow (by omega)

/-! ### Double precision -/

theorem significand_pos {x : Binary f} (hzero : x.isZero = false) : 0 < x.significand := by
  unfold significand
  split
  · rename_i hexponent
    have hne : x.fraction ≠ 0 := by
      intro h
      simp [isZero, hexponent, h] at hzero
    exact Nat.pos_of_ne_zero (mt (fun h => BitVec.eq_of_toNat_eq (by simpa using h)) hne)
  · exact Nat.add_pos_left (Nat.two_pow_pos _) _

theorem significand_lt (x : Double) : x.significand < 2 ^ 53 := by
  have hfraction : x.fraction.toNat < 2 ^ 52 := x.fraction.isLt
  have hbits : 2 ^ BinaryFormat.double.fractionBits = 2 ^ 52 := rfl
  unfold significand
  rw [hbits]
  split <;> omega

theorem power_bounds {x : Double} (hfinite : x.isFinite = true) :
    -1074 ≤ x.power ∧ x.power ≤ 971 := by
  have hexponent : x.exponent.toNat < 2047 := of_decide_eq_true hfinite
  have hleast : BinaryFormat.double.leastPower = -1074 := by decide
  unfold power
  rw [hleast]
  split
  · omega
  · rename_i h
    have hpos : x.exponent.toNat ≠ 0 := mt (fun h => BitVec.eq_of_toNat_eq (by simpa using h)) h
    omega

/-- **The shortest decimal of a finite number** that is no zero is positive, and not above the
number by more than half a step of its significand. -/
theorem shortest_bounds (tie : Tie) {x : Double} (hfinite : x.isFinite = true)
    (hzero : x.isZero = false) : 0 < (x.shortest tie).digits ∧
      ((x.shortest tie).digits * 10 ^ (x.shortest tie).exponent : ℚ) ≤
        (x.significand + 1 / 2) * 2 ^ x.power := by
  have hpos := significand_pos hzero
  have hpower := power_bounds hfinite
  have hlog : x.significand.log2 < 53 := (Nat.log2_lt (by omega)).mpr (significand_lt x)
  have hfine : (4 * 10 ^ (x.topGrid - (21 : Nat)) : ℚ) < 3 * 2 ^ x.power := by
    have hle := ten_zpow_le_two_zpow (g := x.topGrid - (21 : Nat) + 1) hpower (by
      unfold topGrid
      omega)
    rw [zpow_add_one₀ (by norm_num)] at hle
    have hgrid : (0 : ℚ) < 10 ^ (x.topGrid - (21 : Nat)) := by positivity
    linarith
  rw [shortest, if_neg (by simp [hzero])]
  have hlast : 21 < BinaryFormat.double.fractionBits / 3 + 5 := by decide
  obtain ⟨grid, hfound⟩ := firstGridPoint_found hlast (isSome_gridPoint? hfine)
  exact gridPoint?_bounds hpos hfound

end Relmap.Number.Binary
