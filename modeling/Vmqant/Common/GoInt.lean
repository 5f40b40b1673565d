import Vmqant.Common.Panic

/-!
# Integers of 64 bits

An `int` on a platform of 64 bits, and an `int64`. Sums wrap around, quotients are rounded towards zero, and a
division by zero panics. `IsNat x k` says that `x` is the natural number `k`; it goes through the operations
as long as a sum fits, so that arithmetic on numbers that are not negative is done in `ℕ`.
-/

namespace GoInt

/-- `x / y`. -/
def quo (x y : Int64) : Except PanicValue Int64 := if y = 0 then .error .divideByZero else .ok (x / y)

/-- `x % y`. -/
def rem (x y : Int64) : Except PanicValue Int64 := if y = 0 then .error .divideByZero else .ok (x % y)

/-- `x` is the number `k`. -/
def IsNat (x : Int64) (k : ℕ) : Prop := x.toInt = k

variable {x y : Int64} {j k : ℕ}

theorem IsNat.eq_iff (hx : IsNat x j) (hy : IsNat y k) : x = y ↔ j = k := by
  rw [← Int64.toInt_inj, hx, hy, Int.natCast_inj]

theorem IsNat.le_iff (hx : IsNat x j) (hy : IsNat y k) : x ≤ y ↔ j ≤ k := by
  rw [Int64.le_iff_toInt_le, hx, hy, Int.ofNat_le]

theorem IsNat.lt_iff (hx : IsNat x j) (hy : IsNat y k) : x < y ↔ j < k := by
  rw [Int64.lt_iff_toInt_lt, hx, hy, Int.ofNat_lt]

theorem isNat_zero : IsNat 0 0 := rfl

/-- A number that is not negative. -/
theorem isNat_of_nonneg (hx : 0 ≤ x) : IsNat x x.toInt.toNat :=
  (Int.toNat_of_nonneg (Int64.le_iff_toInt_le.mp hx)).symm

theorem IsNat.ne_minValue (hx : IsNat x j) : x ≠ Int64.minValue := by
  rintro rfl
  cases hx

theorem IsNat.add (hx : IsNat x j) (hy : IsNat y k) (hlt : j + k < 2 ^ 63) : IsNat (x + y) (j + k) := by
  rw [IsNat, Int64.toInt_add, hx, hy]
  exact Int.bmod_eq_of_le (by omega) (by omega)

theorem IsNat.mul (hx : IsNat x j) (hy : IsNat y k) (hlt : j * k < 2 ^ 63) : IsNat (x * y) (j * k) := by
  rw [IsNat, Int64.toInt_mul, hx, hy]
  exact Int.bmod_eq_of_le (by omega) (by omega)

theorem IsNat.sub (hx : IsNat x j) (hy : IsNat y k) (hle : k ≤ j) : IsNat (x - y) (j - k) := by
  have hlt := x.toInt_lt
  rw [hx] at hlt
  rw [IsNat, Int64.toInt_sub, hx, hy, ← Int.ofNat_sub hle]
  exact Int.bmod_eq_of_le (by omega) (by omega)

theorem IsNat.div (hx : IsNat x j) (hy : IsNat y k) : IsNat (x / y) (j / k) := by
  rw [IsNat, Int64.toInt_div_of_ne_left _ _ hx.ne_minValue, hx, hy]
  rfl

theorem IsNat.mod (hx : IsNat x j) (hy : IsNat y k) : IsNat (x % y) (j % k) := by
  rw [IsNat, Int64.toInt_mod, hx, hy]
  rfl

theorem IsNat.quo (hx : IsNat x j) (hy : IsNat y k) (hk : k ≠ 0) :
    ∃ z, quo x y = .ok z ∧ IsNat z (j / k) :=
  ⟨x / y, if_neg ((hy.eq_iff isNat_zero).not.mpr hk), hx.div hy⟩

theorem IsNat.rem (hx : IsNat x j) (hy : IsNat y k) (hk : k ≠ 0) :
    ∃ z, rem x y = .ok z ∧ IsNat z (j % k) :=
  ⟨x % y, if_neg ((hy.eq_iff isNat_zero).not.mpr hk), hx.mod hy⟩

theorem IsNat.quo_zero (hy : IsNat y 0) : GoInt.quo x y = .error .divideByZero :=
  if_pos ((hy.eq_iff isNat_zero).mpr rfl)

/-! ## Shifts -/

theorem IsNat.toNat_toBitVec (hx : IsNat x j) : x.toBitVec.toNat = j := by
  have hlt := x.toBitVec.isLt
  have hint : x.toBitVec.toInt = j := hx
  rw [BitVec.toInt_eq_toNat_cond] at hint
  split at hint <;> omega

theorem toNat_smod_shift (hk : k < 64) : ((Int64.ofNat k).toBitVec.smod 64).toNat = k := by
  have hall : ∀ k : Fin 64, ((Int64.ofNat k).toBitVec.smod 64).toNat = k := by decide +kernel
  exact hall ⟨k, hk⟩

/-- A shift to the left multiplies, as long as the product fits. -/
theorem IsNat.shiftLeft (hx : IsNat x j) (hk : k < 64) (hlt : j * 2 ^ k < 2 ^ 63) :
    IsNat (x <<< Int64.ofNat k) (j * 2 ^ k) := by
  rw [IsNat, ← Int64.toInt_toBitVec, Int64.toBitVec_shiftLeft, BitVec.shiftLeft_eq',
    toNat_smod_shift hk, BitVec.toInt_shiftLeft, hx.toNat_toBitVec, Nat.shiftLeft_eq]
  exact Int.bmod_eq_of_le (by omega) (by omega)

/-- A shift to the right divides. -/
theorem IsNat.shiftRight (hx : IsNat x j) (hk : k < 64) : IsNat (x >>> Int64.ofNat k) (j / 2 ^ k) := by
  rw [IsNat, ← Int64.toInt_toBitVec, Int64.toBitVec_shiftRight, BitVec.toInt_sshiftRight',
    toNat_smod_shift hk, Int64.toInt_toBitVec, hx, ← Nat.shiftRight_eq_div_pow]
  rfl

/-! ## Places in a slice -/

/-- `s[i]`, where the index may be negative. -/
def atInt {α : Type} (s : List α) (i : Int64) : Except PanicValue α :=
  if i < 0 then .error (.error s!"runtime error: index out of range [{i.toInt}]")
  else Slice.index s i.toNatClampNeg

theorem IsNat.toNatClampNeg_eq (hx : IsNat x j) : x.toNatClampNeg = j := congrArg Int.toNat hx

theorem IsNat.atInt_eq {α : Type} (hx : IsNat x j) (s : List α) : atInt s x = Slice.index s j := by
  have hneg : ¬ x < 0 := by
    rw [hx.lt_iff isNat_zero]
    omega
  rw [atInt, if_neg hneg, hx.toNatClampNeg_eq]

theorem atInt_of_neg {α : Type} (hx : x.toInt < 0) (s : List α) :
    atInt s x = .error (.error s!"runtime error: index out of range [{x.toInt}]") :=
  if_pos (Int64.lt_iff_toInt_lt.mpr hx)

theorem IsNat.atInt_eq_ok {α : Type} {s : List α} {a : α} (hx : IsNat x j) (ha : s[j]? = some a) :
    atInt s x = .ok a := by
  rw [hx.atInt_eq, Slice.index, ha]

/-- An index that is in the slice is the number of a place in it. -/
theorem atInt_eq_ok {α : Type} {s : List α} {a : α} :
    atInt s x = .ok a ↔ IsNat x x.toNatClampNeg ∧ s[x.toNatClampNeg]? = some a := by
  unfold atInt Slice.index
  by_cases hneg : x < 0
  · rw [if_pos hneg]
    refine iff_of_false nofun fun h => ?_
    rw [h.1.lt_iff isNat_zero] at hneg
    omega
  · have hnat : IsNat x x.toNatClampNeg := isNat_of_nonneg (Int64.not_lt.mp hneg)
    rw [if_neg hneg, and_iff_right hnat]
    split
    · next b hb => rw [hb, Except.ok.injEq, Option.some.injEq]
    · next hb =>
      rw [hb]
      exact iff_of_false nofun nofun

theorem mem_of_atInt {α : Type} {s : List α} {a : α} (h : atInt s x = .ok a) : a ∈ s :=
  List.mem_of_getElem? (atInt_eq_ok.mp h).2

end GoInt
