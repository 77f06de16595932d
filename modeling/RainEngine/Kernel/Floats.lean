import RainEngine.Kernel.Json
import Mathlib.Tactic.NormNum

/-
  This file proves what the results about limits and failure
  rates use of floats: rounding keeps their order, and is off
  by a small part of the number.

  Key theorems include:
    * `F64.round_mono`
    * `F64.round_near`
-/

namespace RainEngine.F64

------------------------------------------------------------
-- Order
------------------------------------------------------------

section Order

variable {a b : ℚ}
variable {x y z : F64}

theorem le_of_le_of_le
    (hLow : x.le y = true)
    (hHigh : y.le z = true) :
    x.le z = true := by
  cases x <;> cases y <;> cases z <;>
    simp_all [F64.le]
  exact hLow.trans hHigh

theorem round_of_nonneg
    (hNonneg : 0 ≤ a) :
    round a =
      if 2 ^ 1024 ≤ format.round a then .posInf
      else .finite (format.round a) := by
  have hRound : 0 ≤ format.round a :=
    Floats.Format.round_nonneg hNonneg
  have hPower : (0 : ℚ) < 2 ^ 1024 := pow_pos two_pos _
  have hHigh : ¬format.round a ≤ -2 ^ 1024 :=
    not_le.mpr ((neg_neg_of_pos hPower).trans_le hRound)
  unfold round
  rw [if_neg hHigh]

/- Larger numbers have larger floats. -/
theorem round_mono
    (hNonneg : 0 ≤ a)
    (hLe : a ≤ b) :
    (round a).le (round b) = true := by
  have hRound : format.round a ≤ format.round b :=
    Floats.Format.round_mono hNonneg hLe
  rw [round_of_nonneg hNonneg,
    round_of_nonneg (hNonneg.trans hLe)]
  by_cases hLarge : 2 ^ 1024 ≤ format.round b
  · rw [if_pos hLarge]
    split <;> rfl
  · have hSmall : ¬2 ^ 1024 ≤ format.round a :=
      fun hAbove => hLarge (hAbove.trans hRound)
    rw [if_neg hLarge, if_neg hSmall]
    exact decide_eq_true hRound

end Order

------------------------------------------------------------
-- Errors
------------------------------------------------------------

/- The part of a number that a rounding is off by at most. -/
def unit : ℚ :=
  1 / 2 ^ 53

/- One rounding away from the number at most. -/
structure Near (q r : ℚ) : Prop where
  lower : q * (1 - unit) ≤ r
  upper : r ≤ q * (1 + unit)

/- A float from one on, perhaps infinite. -/
def AtLeastOne (x : F64) : Prop :=
  x = .posInf ∨ ∃ r, x = .finite r ∧ 1 ≤ r

section Errors

variable {q : ℚ}

/- A rough bound that is enough for the sizes of numbers. -/
theorem Near.rough
    {r : ℚ}
    (hNonneg : 0 ≤ q)
    (hNear : Near q r) :
    q * (999 / 1000) ≤ r ∧ r ≤ q * (1001 / 1000) := by
  have hUnit : unit ≤ 1 / 1000 := by norm_num [unit]
  constructor
  · refine le_trans ?_ hNear.lower
    gcongr
    linarith
  · refine hNear.upper.trans ?_
    gcongr
    linarith

theorem round_one : round 1 = .finite 1 := by
  decide +kernel

/- Numbers from one on have floats from one on. -/
theorem round_atLeastOne
    (hLow : 1 ≤ q) :
    AtLeastOne (round q) := by
  have hMono := round_mono zero_le_one hLow
  rw [round_one] at hMono
  have hRound := round_of_nonneg (zero_le_one.trans hLow)
  by_cases hLarge : 2 ^ 1024 ≤ format.round q
  · rw [if_pos hLarge] at hRound
    exact .inl hRound
  · rw [if_neg hLarge] at hRound
    rw [hRound] at hMono
    exact .inr ⟨_, hRound, of_decide_eq_true hMono⟩

/- A number of ordinary size has a float close to it. -/
theorem round_near
    (hLow : 1 / 2 ^ 20 ≤ q)
    (hHigh : q ≤ 2 ^ 100) :
    ∃ r, round q = .finite r ∧ Near q r := by
  have hPos : 0 < q := lt_of_lt_of_le (by norm_num) hLow
  have hNormal :
      (2 : ℚ) ^ (format.least + format.digits - 1) ≤ q := by
    refine le_trans ?_ hLow
    have hPower : (1 : ℚ) / 2 ^ 20 = 2 ^ (-20 : ℤ) := by
      norm_num
    rw [hPower]
    exact zpow_le_zpow_right₀ one_le_two (by decide)
  have hNear := Floats.Format.abs_round_sub_le hNormal
  have hUnit : (2 : ℚ) ^ (-(format.digits : ℤ)) = unit := by
    change (2 : ℚ) ^ (-((53 : ℕ) : ℤ)) = _
    norm_num [unit]
  rw [hUnit, abs_le] at hNear
  have hSmall : unit ≤ 1 := by norm_num [unit]
  have hAbove : format.round q ≤ q + unit * q := by
    linarith [hNear.2]
  have hFinite : ¬2 ^ 1024 ≤ format.round q := by
    intro hLarge
    have hPower : (2 : ℚ) ^ 101 < 2 ^ 1024 :=
      pow_lt_pow_right₀ one_lt_two (by decide)
    have hTwice : q + unit * q < 2 ^ 1024 := by
      calc q + unit * q
          ≤ q + 1 * q := by gcongr
        _ ≤ 2 ^ 101 := by linarith
        _ < 2 ^ 1024 := hPower
    exact absurd (hLarge.trans hAbove) (not_le.mpr hTwice)
  refine ⟨format.round q, ?_, by linarith, by linarith⟩
  rw [round_of_nonneg hPos.le, if_neg hFinite]

end Errors

end RainEngine.F64
