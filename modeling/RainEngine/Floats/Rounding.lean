import Mathlib.Data.Int.Log
import Mathlib.Data.Rat.Floor
import Mathlib.Tactic.Linarith

/-
  This file defines the rounding of a rational to the nearest
  binary floating point number, the even one of two, in a
  format with a number of digits and a least exponent. It
  keeps the order of the numbers, and above the subnormal ones
  it is off by a fixed part of the number.

  Key definitions include:
    * `roundEven`
    * `Format`
    * `Format.round`

  Key theorems include:
    * `Format.round_mono`
    * `Format.abs_round_sub_le`
-/

namespace Floats

------------------------------------------------------------
-- Rounding To Integers
------------------------------------------------------------

/- The nearest integer, and of two the even one. -/
def roundEven (q : ℚ) : ℤ :=
  if q - ⌊q⌋ < 1 / 2 then ⌊q⌋
  else if 1 / 2 < q - ⌊q⌋ then ⌊q⌋ + 1
  else if ⌊q⌋ % 2 = 0 then ⌊q⌋
  else ⌊q⌋ + 1

section Integers

variable {q q' : ℚ}
variable {n : ℤ}

theorem roundEven_cases (q : ℚ) :
    (roundEven q = ⌊q⌋ ∧ q - ⌊q⌋ ≤ 1 / 2) ∨
      (roundEven q = ⌊q⌋ + 1 ∧ 1 / 2 ≤ q - ⌊q⌋) := by
  unfold roundEven
  split
  · rename_i hBelow
    exact .inl ⟨rfl, hBelow.le⟩
  · rename_i hNotBelow
    split
    · exact .inr ⟨rfl, not_lt.mp hNotBelow⟩
    · rename_i hNotAbove
      split
      · exact .inl ⟨rfl, not_lt.mp hNotAbove⟩
      · exact .inr ⟨rfl, not_lt.mp hNotBelow⟩

/- An integer is off by half at most. -/
theorem abs_roundEven_sub_le (q : ℚ) :
    |(roundEven q : ℚ) - q| ≤ 1 / 2 := by
  have hFloor : (⌊q⌋ : ℚ) ≤ q := Int.floor_le q
  have hNext : q < ⌊q⌋ + 1 := Int.lt_floor_add_one q
  rw [abs_le]
  rcases roundEven_cases q with ⟨hSame, hBelow⟩ | ⟨hSame, hAbove⟩
  · rw [hSame]
    constructor <;> linarith
  · rw [hSame]
    push_cast
    constructor <;> linarith

theorem le_roundEven
    (hLe : (n : ℚ) ≤ q) :
    n ≤ roundEven q := by
  have hFloor : n ≤ ⌊q⌋ := Int.le_floor.mpr hLe
  rcases roundEven_cases q with ⟨hSame, _⟩ | ⟨hSame, _⟩
  · omega
  · omega

theorem roundEven_le
    (hLe : q ≤ n) :
    roundEven q ≤ n := by
  rcases roundEven_cases q with ⟨hSame, _⟩ | ⟨hSame, hAbove⟩
  · rw [hSame]
    exact Int.floor_le_iff.mpr (by linarith)
  · have hBelow : (⌊q⌋ : ℚ) < n := by linarith
    have hFloor : ⌊q⌋ < n := by exact_mod_cast hBelow
    omega

theorem roundEven_mono
    (hLe : q ≤ q') :
    roundEven q ≤ roundEven q' := by
  have hFloor : ⌊q⌋ ≤ ⌊q'⌋ := Int.floor_mono hLe
  rcases hFloor.lt_or_eq with hLess | hSame
  · rcases roundEven_cases q with ⟨hLow, _⟩ | ⟨hLow, _⟩ <;>
      rcases roundEven_cases q' with ⟨hHigh, _⟩ | ⟨hHigh, _⟩ <;>
      omega
  · -- with one floor the fractions are in order too
    have hPart : q - ⌊q'⌋ ≤ q' - ⌊q'⌋ := by linarith
    unfold roundEven
    rw [hSame]
    split_ifs <;> first | omega | (exfalso; linarith)

end Integers

------------------------------------------------------------
-- Formats
------------------------------------------------------------

/- Binary numbers with some digits from a least exponent on. -/
structure Format where
  digits : ℕ
  least : ℤ
  digits_pos : 0 < digits

namespace Format

/- The exponent of the last digit of a number. -/
def exponent (F : Format) (q : ℚ) : ℤ :=
  max (Int.log 2 |q| + 1 - F.digits) F.least

/- The distance of the numbers of the format around one. -/
def spacing (F : Format) (q : ℚ) : ℚ :=
  2 ^ F.exponent q

/- The nearest number of the format. -/
def round (F : Format) (q : ℚ) : ℚ :=
  roundEven (q / F.spacing q) * F.spacing q

section Rounding

variable {F : Format}
variable {q q' : ℚ}

theorem spacing_pos : 0 < F.spacing q :=
  zpow_pos two_pos _

/- A number is off by half a distance at most. -/
theorem abs_round_sub_le_half :
    |F.round q - q| ≤ F.spacing q / 2 := by
  have hPos : 0 < F.spacing q := spacing_pos
  have hPart := abs_roundEven_sub_le (q / F.spacing q)
  have hSplit :
      F.round q - q =
        (roundEven (q / F.spacing q) - q / F.spacing q) *
          F.spacing q := by
    unfold round
    rw [sub_mul, div_mul_cancel₀ _ hPos.ne']
  rw [hSplit, abs_mul, abs_of_pos hPos]
  nlinarith

theorem round_le_multiple
    {n : ℤ}
    (hLe : q ≤ n * F.spacing q) :
    F.round q ≤ n * F.spacing q := by
  have hPos : 0 < F.spacing q := spacing_pos
  have hInt : roundEven (q / F.spacing q) ≤ n :=
    roundEven_le ((div_le_iff₀ hPos).mpr hLe)
  have hCast : (roundEven (q / F.spacing q) : ℚ) ≤ n := by
    exact_mod_cast hInt
  exact mul_le_mul_of_nonneg_right hCast hPos.le

theorem multiple_le_round
    {n : ℤ}
    (hLe : n * F.spacing q ≤ q) :
    n * F.spacing q ≤ F.round q := by
  have hPos : 0 < F.spacing q := spacing_pos
  have hInt : n ≤ roundEven (q / F.spacing q) :=
    le_roundEven ((le_div_iff₀ hPos).mpr hLe)
  have hCast : (n : ℚ) ≤ roundEven (q / F.spacing q) := by
    exact_mod_cast hInt
  exact mul_le_mul_of_nonneg_right hCast hPos.le

theorem round_nonneg
    (hNonneg : 0 ≤ q) :
    0 ≤ F.round q := by
  have hZero : ((0 : ℤ) : ℚ) * F.spacing q ≤ q := by
    simpa using hNonneg
  simpa using multiple_le_round hZero

/- A power of two from the last digit on is a multiple. -/
theorem exists_multiple
    {e : ℤ}
    (hLe : F.exponent q ≤ e) :
    ∃ n : ℤ, (n : ℚ) * F.spacing q = 2 ^ e := by
  refine ⟨2 ^ (e - F.exponent q).toNat, ?_⟩
  have hNonneg : 0 ≤ e - F.exponent q := by omega
  unfold spacing
  push_cast
  rw [← zpow_natCast, Int.toNat_of_nonneg hNonneg,
    ← zpow_add₀ two_ne_zero, sub_add_cancel]

theorem exponent_mono
    (hPos : 0 < q)
    (hLe : q ≤ q') :
    F.exponent q ≤ F.exponent q' := by
  have hLog : Int.log 2 q ≤ Int.log 2 q' :=
    Int.log_mono_right hPos hLe
  unfold exponent
  rw [abs_of_pos hPos, abs_of_pos (hPos.trans_le hLe)]
  omega

/- Larger numbers are not rounded to smaller ones. -/
theorem round_mono
    (hNonneg : 0 ≤ q)
    (hLe : q ≤ q') :
    F.round q ≤ F.round q' := by
  rcases hNonneg.eq_or_lt with hZero | hPos
  · have hNone : F.round 0 = 0 := by simp [round, roundEven]
    rw [← hZero, hNone]
    exact round_nonneg (hNonneg.trans hLe)
  have hPos' : 0 < q' := hPos.trans_le hLe
  rcases (exponent_mono (F := F) hPos hLe).eq_or_lt with
    hSame | hLess
  · have hSpacing : F.spacing q = F.spacing q' := by
      unfold spacing
      rw [hSame]
    have hCast :
        (roundEven (q / F.spacing q) : ℚ) ≤
          roundEven (q' / F.spacing q) := by
      have hInt := roundEven_mono
        (div_le_div_of_nonneg_right hLe spacing_pos.le :
          q / F.spacing q ≤ q' / F.spacing q)
      exact_mod_cast hInt
    unfold round
    rw [← hSpacing]
    exact mul_le_mul_of_nonneg_right hCast spacing_pos.le
  · -- a power of two lies between numbers of two exponents
    have hDigits := F.digits_pos
    have hExponent :
        F.exponent q' =
          Int.log 2 q' + 1 - F.digits := by
      unfold exponent at hLess ⊢
      rw [abs_of_pos hPos'] at hLess ⊢
      omega
    have hBetween : Int.log 2 q < Int.log 2 q' := by
      have hAbove : Int.log 2 q + 1 - F.digits ≤
          F.exponent q := by
        unfold exponent
        rw [abs_of_pos hPos]
        omega
      omega
    have hLow : q ≤ 2 ^ Int.log 2 q' := by
      have hNext : q < 2 ^ (Int.log 2 q + 1) := by
        exact_mod_cast Int.lt_zpow_succ_log_self
          (by norm_num : 1 < 2) q
      refine hNext.le.trans ?_
      exact zpow_le_zpow_right₀ one_le_two (by omega)
    have hHigh : (2 : ℚ) ^ Int.log 2 q' ≤ q' := by
      exact_mod_cast Int.zpow_log_le_self
        (by norm_num : 1 < 2) hPos'
    rcases exists_multiple (F := F) (q := q)
      (e := Int.log 2 q') (by omega) with ⟨n, hMultiple⟩
    rcases exists_multiple (F := F) (q := q')
      (e := Int.log 2 q') (by omega) with ⟨n', hMultiple'⟩
    calc F.round q
        ≤ n * F.spacing q :=
          round_le_multiple (by rw [hMultiple]; exact hLow)
      _ = n' * F.spacing q' := by rw [hMultiple, hMultiple']
      _ ≤ F.round q' :=
          multiple_le_round (by rw [hMultiple']; exact hHigh)

/- A normal number is off by a fixed part of itself. -/
theorem abs_round_sub_le
    (hNormal : 2 ^ (F.least + F.digits - 1) ≤ q) :
    |F.round q - q| ≤ 2 ^ (-(F.digits : ℤ)) * q := by
  have hPos : 0 < q :=
    lt_of_lt_of_le (zpow_pos two_pos _) hNormal
  have hLog : F.least + F.digits - 1 ≤ Int.log 2 q := by
    rw [← Int.zpow_le_iff_le_log (by norm_num) hPos]
    exact_mod_cast hNormal
  have hExponent :
      F.exponent q = Int.log 2 q + (1 - F.digits) := by
    unfold exponent
    rw [abs_of_pos hPos]
    omega
  have hPower : (2 : ℚ) ^ Int.log 2 q ≤ q := by
    exact_mod_cast Int.zpow_log_le_self
      (by norm_num : 1 < 2) hPos
  have hDigits : (2 : ℚ) ^ (1 - F.digits : ℤ) / 2 =
      2 ^ (-(F.digits : ℤ)) := by
    rw [sub_eq_neg_add, zpow_add₀ two_ne_zero, zpow_one]
    exact mul_div_cancel_right₀ _ two_ne_zero
  calc |F.round q - q|
      ≤ F.spacing q / 2 := abs_round_sub_le_half
    _ = 2 ^ (-(F.digits : ℤ)) * 2 ^ Int.log 2 q := by
        unfold spacing
        rw [hExponent, zpow_add₀ two_ne_zero, mul_div_assoc,
          hDigits, mul_comm]
    _ ≤ 2 ^ (-(F.digits : ℤ)) * q :=
        mul_le_mul_of_nonneg_left hPower (zpow_pos two_pos _).le

end Rounding

end Format

end Floats
