import RainEngine.Improvement.Rollbacks
import RainEngine.Kernel.Floats
import Mathlib.Algebra.Order.Floor.Ring
import Mathlib.Tactic.Positivity
import Mathlib.Tactic.Linarith

/-
  This file bounds the limits of the effective policy by those
  of a request. An overlay carries the limit of an earlier
  policy, raised once more at each tuning, so the bound holds
  along runs whose tunings start from the request's own limit
  and raise it by no more than its percentage. The raise is
  computed with floats, which adds four rounding errors.

  Key definitions include:
    * `WithinDelta`
    * `Bounded`
    * `Moderate`

  Key theorems include:
    * `exists_raisedBy`
    * `withinDelta_increaseByPercent`
    * `run_bounded`
-/

namespace RainEngine

open Effects

------------------------------------------------------------
-- Raised Limits
------------------------------------------------------------

/-
  The value is no more than the limit raised, rounded up. The
  slack is the factor that rounding errors may add.
-/
def RaisedAtMost
    (slack : ℚ)
    (limit value : Nat) :
    F64 → Prop
| .finite percent =>
    (value : ℤ) ≤
      ⌈(limit : ℚ) * (1 + percent / 100) * slack⌉
| .posInf => True
| _ => value ≤ limit

/- The value lies between the limit and the limit raised. -/
structure WithinDelta
    (slack : ℚ)
    (delta : F64)
    (limit value : Nat) : Prop where
  lower : limit ≤ value
  upper : RaisedAtMost slack limit value delta

/-
  Each limit of the effective policy lies between that of the
  request policy and that limit raised by its percentage.
-/
structure Bounded
    (slack : ℚ)
    (policy : EnginePolicy)
    (records : List SessionRecord) : Prop where
  maxSteps :
    WithinDelta slack
      policy.selfImprovement.maxPolicyDeltaPercent
      policy.maxSteps
      (effectivePolicy policy records).maxSteps
  maxExecutionTimeMs :
    WithinDelta slack
      policy.selfImprovement.maxPolicyDeltaPercent
      policy.maxExecutionTimeMs
      (effectivePolicy policy records).maxExecutionTimeMs
  providerTimeoutMs :
    WithinDelta slack
      policy.selfImprovement.maxPolicyDeltaPercent
      policy.providerTimeoutMs
      (effectivePolicy policy records).providerTimeoutMs
  maxToolTimeoutMs :
    WithinDelta slack
      policy.selfImprovement.maxPolicyDeltaPercent
      policy.maxToolTimeoutMs
      (effectivePolicy policy records).maxToolTimeoutMs
  maxParallelSkillCalls :
    WithinDelta slack
      policy.selfImprovement.maxPolicyDeltaPercent
      policy.maxParallelSkillCalls
      (effectivePolicy policy records).maxParallelSkillCalls

/-
  Four roundings: of the limit, of the percentage as a
  fraction, of the factor and of the product.
-/
def fourRoundings : ℚ :=
  (1 + F64.unit) ^ 4

/- The limit a tuning after such an outcome raises. -/
def tunedLimit (policy : EnginePolicy) : StopReason → Nat
| .maxStepsReached => policy.maxSteps
| .deadlineExceeded => policy.maxExecutionTimeMs
| _ => policy.providerTimeoutMs

/- The percentage it raises the limit by. -/
def tuningPercent
    (policy : EnginePolicy)
    (observations : Nat) :
    StopReason → F64
| .maxStepsReached =>
    ((tuningDelta policy).mul
      (F64.ofNat (observations.max 1))).min (.finite 200)
| _ => tuningDelta policy

/-
  A tuning of the advance after the outcome starts from the
  policy's own limit and stays within its percentage.
-/
structure Moderate
    (policy : EnginePolicy)
    (t : Advance)
    (outcome : OutcomeRecord) : Prop where
  limit :
    tunedLimit
        (effectivePolicy t.request.policy t.before.ledger)
        outcome.stopReason =
      tunedLimit policy outcome.stopReason
  positive : 0 < tunedLimit policy outcome.stopReason
  percent :
    (tuningPercent t.request.policy
        (terminalObservationCount t.before.ledger + 1)
        outcome.stopReason).le
      policy.selfImprovement.maxPolicyDeltaPercent = true

/- Every tuning the run applies is moderate for the policy. -/
def TunesModerately
    (policy : EnginePolicy)
    (run : List Advance) :
    Prop :=
  ∀ t ∈ run, ∀ tuning outcome,
    .policyTuning tuning ∈ t.added →
    tuning.action = .applied →
    TunedBy (imprintBase t.request t.before) outcome tuning
      t.after →
      Moderate policy t outcome

/-
  A percentage is a number from one to a bound, or not a
  number.
-/
def UpTo (bound : ℚ) (percent : F64) : Prop :=
  percent = .nan ∨
    ∃ p, percent = .finite p ∧ 1 ≤ p ∧ p ≤ bound

/- The value an overlay puts in place of the tuned limit. -/
def patchedLimit
    (patch : PolicyOverlayPatch) :
    StopReason → Option Nat
| .maxStepsReached => patch.maxSteps
| .deadlineExceeded => patch.maxExecutionTimeMs
| _ => patch.providerTimeoutMs

/-
  The overlay raises the limit its advance has worked under,
  by a percentage of two hundred at most.
-/
structure RaisesOnce
    (t : Advance)
    (outcome : OutcomeRecord)
    (patch : PolicyOverlayPatch)
    (percent : F64) : Prop where
  percent_eq :
    percent =
      tuningPercent t.request.policy
        (terminalObservationCount t.before.ledger + 1)
        outcome.stopReason
  upTo : UpTo 200 percent
  value : ∃ value,
    patchedLimit patch outcome.stopReason = some value ∧
      (percent ≠ .nan →
        tunedLimit
            (effectivePolicy t.request.policy t.before.ledger)
            outcome.stopReason ≤ F64.maxU64 →
          WithinDelta fourRoundings percent
            ((tunedLimit
              (effectivePolicy t.request.policy
                t.before.ledger)
              outcome.stopReason).max 1) value)

/- The limits a tuning may raise are 64-bit numbers. -/
structure EnginePolicy.Fits (policy : EnginePolicy) :
    Prop where
  maxSteps : policy.maxSteps ≤ F64.maxU64
  maxExecutionTimeMs :
    policy.maxExecutionTimeMs ≤ F64.maxU64
  providerTimeoutMs :
    policy.providerTimeoutMs ≤ F64.maxU64

section Raising

variable {slack : ℚ}
variable {limit value : Nat}
variable {delta percent : F64}
variable {p : ℚ}

/- A limit is within every percentage that is not negative. -/
theorem withinDelta_self
    (hSlack : 1 ≤ slack)
    (hDelta : (F64.finite 0).le delta = true) :
    WithinDelta slack delta limit limit := by
  refine ⟨Nat.le_refl _, ?_⟩
  cases delta with
  | finite p =>
      have hNonneg : 0 ≤ p := of_decide_eq_true hDelta
      have hFactor : 1 ≤ (1 + p / 100) * slack := by
        have hRaise : 1 ≤ 1 + p / 100 := by linarith
        exact one_le_mul_of_one_le_of_one_le hRaise hSlack
      show (limit : ℤ) ≤
        ⌈(limit : ℚ) * (1 + p / 100) * slack⌉
      have hRaised :
          (limit : ℚ) ≤
            (limit : ℚ) * (1 + p / 100) * slack := by
        rw [mul_assoc]
        exact le_mul_of_one_le_right (Nat.cast_nonneg _)
          hFactor
      have hCast : ((limit : ℤ) : ℚ) ≤
          ⌈(limit : ℚ) * (1 + p / 100) * slack⌉ := by
        push_cast
        exact hRaised.trans (Int.le_ceil _)
      exact_mod_cast hCast
  | posInf => trivial
  | negInf => cases hDelta
  | nan => exact Nat.le_refl _

/-
  The floats on the way to a raised limit: the limit, the
  fraction, the factor and the product, which is rounded up.
-/
structure RaisedBy
    (limit : Nat)
    (p l c f v : ℚ) : Prop where
  start : F64.Near limit l
  fraction : F64.Near (p / 100) c
  factor : F64.Near (1 + c) f
  product : F64.Near (l * f) v
  value :
    increaseByPercent limit (.finite p) =
      Nat.min ⌈v⌉.toNat F64.maxU64

theorem exists_raisedBy
    (hLimit : 0 < limit)
    (hFits : limit ≤ F64.maxU64)
    (hLow : 1 ≤ p)
    (hHigh : p ≤ 200) :
    ∃ l c f v, RaisedBy limit p l c f v := by
  have hOne : (1 : ℚ) ≤ limit := by exact_mod_cast hLimit
  have hMax : (limit : ℚ) ≤ 2 ^ 64 := by
    have hCast : (limit : ℚ) ≤ (F64.maxU64 : ℕ) := by
      exact_mod_cast hFits
    refine hCast.trans ?_
    norm_num [F64.maxU64]
  rcases F64.round_near (q := (limit : ℚ)) (by linarith)
      (by linarith) with ⟨l, hL, hNearL⟩
  rcases F64.round_near (q := p / 100) (by linarith)
      (by linarith) with ⟨c, hC, hNearC⟩
  have hSizeL := hNearL.rough (by linarith)
  have hSizeC := hNearC.rough (by linarith)
  rcases F64.round_near (q := 1 + c) (by linarith)
      (by linarith) with ⟨f, hF, hNearF⟩
  have hSizeF := hNearF.rough (by linarith)
  have hLowL : 1 / 2 ≤ l := by linarith
  have hLowF : 1 / 2 ≤ f := by linarith
  have hProduct : 1 / 2 ^ 20 ≤ l * f ∧ l * f ≤ 2 ^ 100 := by
    constructor
    · calc (1 : ℚ) / 2 ^ 20
          ≤ 1 / 2 * (1 / 2) := by norm_num
        _ ≤ l * f := by gcongr
    · calc l * f
          ≤ 2 ^ 65 * 8 := by
            gcongr
            · linarith
            · linarith
        _ ≤ 2 ^ 100 := by norm_num
  rcases F64.round_near hProduct.1 hProduct.2 with
    ⟨v, hV, hNearV⟩
  refine ⟨l, c, f, v, hNearL, hNearC, hNearF, hNearV, ?_⟩
  have hSame : limit.max 1 = limit := Nat.max_eq_left hLimit
  have hFactor :
      (F64.finite 1).add ((F64.finite p).div (.finite 100)) =
        .finite f := by
    unfold F64.div
    dsimp only
    rw [if_neg (by norm_num), hC]
    exact hF
  unfold increaseByPercent F64.ofNat
  rw [hSame, hL, hFactor]
  change (F64.round (l * f)).ceil.toU64 = _
  rw [hV]
  change Nat.min ⌊((⌈v⌉ : ℤ) : ℚ)⌋.toNat F64.maxU64 = _
  rw [Int.floor_intCast]

/- One percent is more than the roundings take away. -/
theorem RaisedBy.lower
    {l c f v : ℚ}
    (hLow : 1 ≤ p)
    (hRaised : RaisedBy limit p l c f v) :
    (limit : ℚ) ≤ v := by
  have hNonneg : (0 : ℚ) ≤ limit := Nat.cast_nonneg _
  have hSizeL := (hRaised.start.rough hNonneg).1
  have hSizeC := (hRaised.fraction.rough (by linarith)).1
  have hSizeF := (hRaised.factor.rough (by linarith)).1
  have hNonnegL : 0 ≤ l := le_trans (by positivity) hSizeL
  have hFactor : 1007 / 1000 ≤ f := by linarith
  have hSizeV := (hRaised.product.rough (mul_nonneg hNonnegL
    (by linarith))).1
  calc (limit : ℚ)
      ≤ (limit : ℚ) * (999 / 1000) * (1007 / 1000) *
          (999 / 1000) := by linarith
    _ ≤ l * f * (999 / 1000) := by gcongr
    _ ≤ v := hSizeV

theorem RaisedBy.upper
    {l c f v : ℚ}
    (hLow : 1 ≤ p)
    (hRaised : RaisedBy limit p l c f v) :
    v ≤ (limit : ℚ) * (1 + p / 100) * fourRoundings := by
  have hUnit : 0 ≤ F64.unit := by norm_num [F64.unit]
  have hSizeC := (hRaised.fraction.rough (by linarith)).1
  have hSum : 1 + c ≤ (1 + p / 100) * (1 + F64.unit) := by
    linarith [hRaised.fraction.upper]
  have hFactor : f ≤
      (1 + p / 100) * (1 + F64.unit) * (1 + F64.unit) :=
    hRaised.factor.upper.trans (by gcongr)
  have hSizeF := (hRaised.factor.rough (by linarith)).1
  have hNonneg : 0 ≤ f := by linarith
  calc v
      ≤ l * f * (1 + F64.unit) := hRaised.product.upper
    _ ≤ limit * (1 + F64.unit) *
          ((1 + p / 100) * (1 + F64.unit) *
            (1 + F64.unit)) * (1 + F64.unit) := by
        gcongr
        exact hRaised.start.upper
    _ = (limit : ℚ) * (1 + p / 100) * fourRoundings := by
        unfold fourRoundings
        ring

/- Raising by a smaller percentage stays within a larger one. -/
theorem withinDelta_increaseByPercent
    (hLimit : 0 < limit)
    (hFits : limit ≤ F64.maxU64)
    (hLow : 1 ≤ p)
    (hHigh : p ≤ 200)
    (hDelta : (F64.finite p).le delta = true) :
    WithinDelta fourRoundings delta limit
      (increaseByPercent limit (.finite p)) := by
  rcases exists_raisedBy hLimit hFits hLow hHigh with
    ⟨l, c, f, v, hRaised⟩
  have hGrown : (limit : ℤ) ≤ ⌈v⌉ := by
    have hCast : ((limit : ℤ) : ℚ) ≤ ⌈v⌉ := by
      push_cast
      exact (hRaised.lower hLow).trans (Int.le_ceil _)
    exact_mod_cast hCast
  rw [hRaised.value]
  generalize hCeil : ⌈v⌉ = value at hGrown ⊢
  change WithinDelta fourRoundings delta limit
    (min value.toNat F64.maxU64)
  refine ⟨by omega, ?_⟩
  cases delta with
  | finite d =>
      have hLe : p ≤ d := of_decide_eq_true hDelta
      have hMono : value ≤
          ⌈(limit : ℚ) * (1 + d / 100) * fourRoundings⌉ := by
        rw [← hCeil]
        apply Int.ceil_le_ceil
        refine (hRaised.upper hLow).trans ?_
        have hSlack : 0 ≤ fourRoundings := by
          norm_num [fourRoundings, F64.unit]
        gcongr
      show ((min value.toNat F64.maxU64 : ℕ) : ℤ) ≤ _
      omega
  | posInf => trivial
  | negInf => cases hDelta
  | nan => cases hDelta

/- Ten percent of a hundred are more than ten. -/
example : increaseByPercent 100 (.finite 10) = 111 := by
  decide +kernel

/- A value above a positive limit is positive. -/
theorem WithinDelta.max_one
    (hLimit : 0 < limit)
    (hWithin : WithinDelta fourRoundings delta limit value) :
    WithinDelta fourRoundings delta limit (value.max 1) := by
  have hSame : value.max 1 = value :=
    Nat.max_eq_left (Nat.le_trans hLimit hWithin.lower)
  rw [hSame]
  exact hWithin

theorem one_le_fourRoundings : 1 ≤ fourRoundings := by
  norm_num [fourRoundings, F64.unit]

/- A product of a percentage with a count is at least one. -/
theorem mul_atLeastOne
    {count : Nat}
    (hLow : 1 ≤ p)
    (hCount : 1 ≤ count) :
    F64.AtLeastOne ((F64.finite p).mul (F64.ofNat count)) := by
  have hCast : (1 : ℚ) ≤ count := by exact_mod_cast hCount
  unfold F64.ofNat
  rcases F64.round_atLeastOne hCast with
    hInf | ⟨r, hRound, hLowR⟩
  · rw [hInf]
    left
    show F64.scaleInf false p = .posInf
    unfold F64.scaleInf
    rw [if_neg (by linarith), if_pos]
    simpa using zero_le_one.trans hLow
  · rw [hRound]
    exact F64.round_atLeastOne
      (one_le_mul_of_one_le_of_one_le hLow hLowR)

theorem upTo_min
    (hLow : percent.AtLeastOne) :
    UpTo 200 (percent.min (.finite 200)) := by
  rcases hLow with hInf | ⟨r, hFinite, hLowR⟩
  · rw [hInf]
    exact .inr ⟨200, rfl, by norm_num, le_refl 200⟩
  · rw [hFinite]
    unfold F64.min
    rw [if_neg (by simp), if_neg (by simp)]
    split
    · rename_i hBelow
      exact .inr ⟨r, rfl, hLowR, of_decide_eq_true hBelow⟩
    · exact .inr ⟨200, rfl, by norm_num, le_refl 200⟩

/- A tuning works with a percentage up to a hundred. -/
theorem tuningDelta_upTo
    (policy : EnginePolicy) :
    UpTo 100 (tuningDelta policy) := by
  unfold tuningDelta F64.clamp
  split
  · exact .inr ⟨1, rfl, le_refl 1, by norm_num⟩
  · rename_i hLow
    split
    · exact .inr ⟨100, rfl, by norm_num, by norm_num⟩
    · rename_i hHigh
      cases hCase :
        policy.selfImprovement.maxPolicyDeltaPercent with
      | finite p =>
          rw [hCase] at hLow hHigh
          simp only [F64.lt, F64.le, Bool.and_eq_true,
            decide_eq_true_eq, Bool.not_eq_true',
            decide_eq_false_iff_not] at hLow hHigh
          refine .inr ⟨p, rfl, ?_, ?_⟩
          · by_contra hBelow
            exact hLow ⟨by linarith, by linarith⟩
          · by_contra hAbove
            exact hHigh ⟨by linarith, by linarith⟩
      | posInf =>
          rw [hCase] at hHigh
          exact (hHigh rfl).elim
      | negInf =>
          rw [hCase] at hLow
          exact (hLow rfl).elim
      | nan => exact .inl rfl

theorem tuningPercent_upTo
    (policy : EnginePolicy)
    (observations : Nat)
    (reason : StopReason) :
    UpTo 200 (tuningPercent policy observations reason) := by
  have hOther : UpTo 200 (tuningDelta policy) := by
    rcases tuningDelta_upTo policy with
      hNan | ⟨p, hFinite, hNonneg, hBound⟩
    · exact .inl hNan
    · exact .inr ⟨p, hFinite, hNonneg, by linarith⟩
  cases reason with
  | maxStepsReached =>
      rcases tuningDelta_upTo policy with
        hNan | ⟨p, hFinite, hLow, _⟩
      · show UpTo 200 (((tuningDelta policy).mul
          (F64.ofNat (observations.max 1))).min (.finite 200))
        rw [hNan]
        exact .inr ⟨200, rfl, by norm_num, by norm_num⟩
      · show UpTo 200 (((tuningDelta policy).mul
          (F64.ofNat (observations.max 1))).min (.finite 200))
        rw [hFinite]
        exact upTo_min (mul_atLeastOne hLow
          (Nat.le_max_right observations 1))
  | _ => exact hOther

end Raising

------------------------------------------------------------
-- Overlays Within The Bounds
------------------------------------------------------------

/- What the overlay puts in place of the limits is bounded. -/
structure PatchWithin
    (policy : EnginePolicy)
    (patch : PolicyOverlayPatch) : Prop where
  maxSteps : ∀ value, patch.maxSteps = some value →
    WithinDelta fourRoundings
      policy.selfImprovement.maxPolicyDeltaPercent
      policy.maxSteps (value.max 1)
  maxExecutionTimeMs : ∀ value,
    patch.maxExecutionTimeMs = some value →
      WithinDelta fourRoundings
        policy.selfImprovement.maxPolicyDeltaPercent
        policy.maxExecutionTimeMs (value.max 1)
  providerTimeoutMs : ∀ value,
    patch.providerTimeoutMs = some value →
      WithinDelta fourRoundings
        policy.selfImprovement.maxPolicyDeltaPercent
        policy.providerTimeoutMs (value.max 1)
  maxToolTimeoutMs : patch.maxToolTimeoutMs = none
  maxParallelSkillCalls : patch.maxParallelSkillCalls = none

/- Every overlay the ledger applies is bounded. -/
def Moderated
    (policy : EnginePolicy)
    (records : List SessionRecord) :
    Prop :=
  ∀ tuning, .policyTuning tuning ∈ records →
    tuning.action = .applied →
      PatchWithin policy tuning.overlay.patch

section Bounds

variable {policy : EnginePolicy}
variable {records : List SessionRecord}
variable {t : Advance}
variable {outcome : OutcomeRecord}
variable {snapshot : AgentContextSnapshot}

theorem patched_within
    {patch : Option Nat}
    {delta : F64}
    {limit : Nat}
    (hDelta : (F64.finite 0).le delta = true)
    (hPatch : ∀ value, patch = some value →
      WithinDelta fourRoundings delta limit (value.max 1)) :
    WithinDelta fourRoundings delta limit
      (patched patch limit) := by
  cases patch with
  | none => exact withinDelta_self one_le_fourRoundings hDelta
  | some value => exact hPatch value rfl

/- Bounded overlays give bounded policies. -/
theorem Moderated.bounded
    (hDelta :
      (F64.finite 0).le
        policy.selfImprovement.maxPolicyDeltaPercent = true)
    (hModerated : Moderated policy records) :
    Bounded fourRoundings policy records := by
  have hSelf : ∀ {limit : Nat},
      WithinDelta fourRoundings
        policy.selfImprovement.maxPolicyDeltaPercent
        limit limit :=
    withinDelta_self one_le_fourRoundings hDelta
  cases hActive : activePolicyOverlay records with
  | none =>
      have hSame : effectivePolicy policy records = policy := by
        unfold effectivePolicy
        rw [hActive]
        rfl
      constructor <;> rw [hSame] <;> exact hSelf
  | some overlay =>
      rcases activePolicyOverlay_applied hActive with
        ⟨tuning, hMem, hOverlay, hAction, hStatus⟩
      have hPatch := hModerated tuning hMem hAction
      rw [hOverlay] at hPatch
      have hEffective :
          effectivePolicy policy records =
            overlay.applyTo policy := by
        unfold effectivePolicy
        rw [hActive]
        rfl
      unfold PolicyOverlay.applyTo at hEffective
      rw [if_neg (by simp [hStatus])] at hEffective
      constructor <;> rw [hEffective]
      · exact patched_within hDelta hPatch.maxSteps
      · exact patched_within hDelta hPatch.maxExecutionTimeMs
      · exact patched_within hDelta hPatch.providerTimeoutMs
      · rw [hPatch.maxToolTimeoutMs]
        exact hSelf
      · rw [hPatch.maxParallelSkillCalls]
        exact hSelf

/- What a proposal puts in place of the tuned limit. -/
theorem Proposed.patchedLimit
    {patch : PolicyOverlayPatch}
    (hObserves :
      Observes (imprintBase t.request t.before) outcome
        snapshot)
    (hSafe : outcome.mentions "cost" = false)
    (hPatch : Proposed snapshot outcome patch) :
    patchedLimit patch outcome.stopReason =
      some (increaseByPercent
        (tunedLimit
          (effectivePolicy t.request.policy t.before.ledger)
          outcome.stopReason)
        (tuningPercent t.request.policy
          (terminalObservationCount t.before.ledger + 1)
          outcome.stopReason)) := by
  have hPolicy :
      snapshot.policy =
        effectivePolicy t.request.policy t.before.ledger :=
    hObserves.policy
  have hDelta :
      tuningDelta snapshot.policy =
        tuningDelta t.request.policy := by
    unfold tuningDelta
    rw [hPolicy, effectivePolicy_selfImprovement]
  have hCount :
      terminalObservationCount snapshot.history =
        terminalObservationCount t.before.ledger + 1 := by
    rw [hObserves.observations]
    show terminalObservationCount
      (imprints t.before.ledger) + 1 = _
    rw [terminalObservationCount_imprints]
  cases hPatch with
  | provider hReason =>
      rw [hReason, hDelta, hPolicy]
      rfl
  | steps hReason =>
      rw [hReason, hDelta, hPolicy, hCount]
      rfl
  | deadline hReason =>
      rw [hReason, hDelta, hPolicy]
      rfl
  | cost hReason hCost =>
      rw [hSafe] at hCost
      cases hCost

/- A bounded value of the tuned limit bounds the overlay. -/
theorem Proposed.patchWithin
    {patch : PolicyOverlayPatch}
    (hSafe : outcome.mentions "cost" = false)
    (hPatch : Proposed snapshot outcome patch)
    (hWithin : ∀ value,
      RainEngine.patchedLimit patch outcome.stopReason =
        some value →
        WithinDelta fourRoundings
          policy.selfImprovement.maxPolicyDeltaPercent
          (tunedLimit policy outcome.stopReason)
          (value.max 1)) :
    PatchWithin policy patch := by
  cases hPatch with
  | provider hReason =>
      rw [hReason] at hWithin
      exact ⟨by simp, by simp, hWithin, rfl, rfl⟩
  | steps hReason =>
      rw [hReason] at hWithin
      exact ⟨hWithin, by simp, by simp, rfl, rfl⟩
  | deadline hReason =>
      rw [hReason] at hWithin
      exact ⟨by simp, hWithin, by simp, rfl, rfl⟩
  | cost hReason hCost =>
      rw [hSafe] at hCost
      cases hCost

theorem EnginePolicy.Fits.tunedLimit
    (hFits : policy.Fits)
    (reason : StopReason) :
    tunedLimit policy reason ≤ F64.maxU64 := by
  cases reason <;>
    first
      | exact hFits.maxSteps
      | exact hFits.maxExecutionTimeMs
      | exact hFits.providerTimeoutMs

/- A moderate tuning proposes a bounded overlay. -/
theorem Moderate.patchWithin
    {patch : PolicyOverlayPatch}
    (hFits : policy.Fits)
    (hModerate : Moderate policy t outcome)
    (hObserves :
      Observes (imprintBase t.request t.before) outcome
        snapshot)
    (hSafe : outcome.mentions "cost" = false)
    (hPatch : Proposed snapshot outcome patch) :
    PatchWithin policy patch := by
  apply hPatch.patchWithin hSafe
  intro value hValue
  have hLe := hModerate.percent
  rw [hPatch.patchedLimit hObserves hSafe, hModerate.limit]
    at hValue
  rcases tuningPercent_upTo t.request.policy
      (terminalObservationCount t.before.ledger + 1)
      outcome.stopReason with
    hNan | ⟨p, hPercent, hLow, hHigh⟩
  · rw [hNan] at hLe
    cases hLe
  · rw [hPercent] at hLe hValue
    cases hValue
    exact (withinDelta_increaseByPercent hModerate.positive
      (hFits.tunedLimit _) hLow hHigh hLe).max_one
        hModerate.positive

/- Every tuning raises its limit once. -/
theorem Proposed.raisesOnce
    {patch : PolicyOverlayPatch}
    (hObserves :
      Observes (imprintBase t.request t.before) outcome
        snapshot)
    (hSafe : outcome.mentions "cost" = false)
    (hPatch : Proposed snapshot outcome patch) :
    ∃ percent, RaisesOnce t outcome patch percent := by
  refine ⟨_, rfl, tuningPercent_upTo _ _ _, _,
    hPatch.patchedLimit hObserves hSafe, ?_⟩
  generalize tunedLimit (effectivePolicy t.request.policy
    t.before.ledger) outcome.stopReason = limit
  intro hNumber hFits
  have hSame : ∀ percent,
      increaseByPercent limit percent =
        increaseByPercent (limit.max 1) percent := by
    intro percent
    have hMax : (limit.max 1).max 1 = limit.max 1 :=
      Nat.max_eq_left (Nat.le_max_right limit 1)
    unfold increaseByPercent
    rw [hMax]
  rcases tuningPercent_upTo t.request.policy
      (terminalObservationCount t.before.ledger + 1)
      outcome.stopReason with
    hNan | ⟨p, hPercent, hLow, hHigh⟩
  · exact (hNumber hNan).elim
  · have hRefl : (F64.finite p).le (.finite p) = true :=
      decide_eq_true (le_refl p)
    have hOne : limit.max 1 ≤ F64.maxU64 :=
      Nat.max_le.mpr ⟨hFits, by decide⟩
    rw [hPercent, hSame]
    exact withinDelta_increaseByPercent
      (Nat.le_max_right limit 1) hOne hLow hHigh hRefl

/- A moderate advance keeps the overlays bounded. -/
theorem Moderated.advance
    (hFits : policy.Fits)
    (hRuns : t.Runs loading)
    (hModerate : ∀ tuning outcome,
      .policyTuning tuning ∈ t.added →
      tuning.action = .applied →
      TunedBy (imprintBase t.request t.before) outcome tuning
        t.after →
        Moderate policy t outcome)
    (hModerated : Moderated policy t.before.ledger) :
    Moderated policy t.after.ledger := by
  intro tuning hMem hAction
  rcases Advance.tunings .loading not_loadFails_loading hRuns
    hMem with hOld | ⟨hNew, outcome, hBy⟩
  · exact hModerated tuning hOld hAction
  · have hOutcome :=
      hModerate tuning outcome hNew hAction hBy
    rcases hBy.applied hAction with
      ⟨snapshot, hObserves, hPatch, hSafe⟩
    exact hOutcome.patchWithin hFits hObserves hSafe hPatch

end Bounds

------------------------------------------------------------
-- Runs
------------------------------------------------------------

/-
  A tuning raises the limit its advance has worked under, and
  the bound holds in every ledger reached by a run whose
  applied tunings are moderate for the policy.
-/
theorem run_bounded
    {sessionId : String}
    {run : List Advance}
    {w : World}
    (hRun : Run loading (World.empty sessionId) run w) :
    (∀ t ∈ run, ∀ tuning,
      .policyTuning tuning ∈ t.added →
      tuning.action = .applied →
        ∃ outcome percent,
          TunedBy (imprintBase t.request t.before) outcome
              tuning t.after ∧
            RaisesOnce t outcome tuning.overlay.patch
              percent) ∧
      ∀ policy : EnginePolicy, policy.Fits →
        (F64.finite 0).le
            policy.selfImprovement.maxPolicyDeltaPercent =
          true →
        TunesModerately policy run →
          Bounded fourRoundings policy w.ledger := by
  constructor
  · intro t hMem tuning hNew hAction
    have hRuns := hRun.runs t hMem
    rcases Advance.newTuning .loading not_loadFails_loading
      hRuns hNew with ⟨outcome, hBy⟩
    rcases hBy.applied hAction with
      ⟨snapshot, hObserves, hPatch, hSafe⟩
    rcases hPatch.raisesOnce hObserves hSafe with
      ⟨percent, hRaises⟩
    exact ⟨outcome, percent, hBy, hRaises⟩
  · intro policy hFits hDelta hModerate
    have hEmpty :
        Moderated policy (World.empty sessionId).ledger := by
      simp [Moderated, World.empty]
    have hModerated : Moderated policy w.ledger := by
      refine (hRun.preserves
        (I := fun w => Moderated policy w.ledger) ?_ hEmpty).2
      intro t hMem hRuns hBefore
      exact hBefore.advance hFits hRuns (hModerate t hMem)
    exact hModerated.bounded hDelta

------------------------------------------------------------
-- One Raise And Two
------------------------------------------------------------

namespace Sample

/- A provider that always goes on. -/
def continues : Script where
  decision _ := { action := .continueWith .modelRequested }
  skill _ := .returned (.ok .null)

/- A message and the continuations of its run. -/
def goingOn
    (policy : EnginePolicy)
    (continuations : Nat) :
    List (Script × AdvanceRequest) :=
  (continues, .trigger { message with policy := policy }) ::
    List.replicate continuations
      (continues, .continueWith { resume with policy := policy })

/- One step is allowed, and one outcome is enough to tune. -/
def oneStep : EnginePolicy :=
  { EnginePolicy.default with
    maxSteps := 1
    selfImprovement :=
      { SelfImprovementPolicy.default with
        minObservationsBeforeTuning := 1 } }

def threeSteps : EnginePolicy :=
  { EnginePolicy.default with maxSteps := 3 }

/- Two messages that both run into the limit of steps. -/
def twiceOutOfSteps : List (Script × AdvanceRequest) :=
  goingOn threeSteps 3 ++ goingOn threeSteps 3

/- The advance starts without outcomes and overlays. -/
def startsPlain (policy : EnginePolicy) (t : Advance) : Bool :=
  decide (t.request.policy = policy) &&
    (activePolicyOverlay t.before.ledger).isNone &&
    terminalObservationCount t.before.ledger == 0

theorem moderate_of_startsPlain
    {t : Advance}
    {outcome : OutcomeRecord}
    (hPlain : startsPlain oneStep t = true) :
    Moderate oneStep t outcome := by
  simp only [startsPlain, Bool.and_eq_true,
    decide_eq_true_eq, Option.isNone_iff_eq_none,
    beq_iff_eq] at hPlain
  rcases hPlain with ⟨⟨hPolicy, hNone⟩, hCount⟩
  have hEffective :
      effectivePolicy t.request.policy t.before.ledger =
        oneStep := by
    unfold effectivePolicy
    rw [hNone, hPolicy]
    rfl
  constructor
  · rw [hEffective]
  · cases outcome.stopReason <;> decide
  · rw [hCount, hPolicy]
    cases outcome.stopReason <;> decide +kernel

end Sample

set_option maxRecDepth 100000 in
/- One raise of the step limit stays within the bound. -/
theorem run_bounded_once :
    (effectivePolicy Sample.oneStep
        (Script.session Sample.engine
          (Sample.goingOn Sample.oneStep 1)
          (World.empty "session")).ledger).maxSteps = 2 ∧
      Bounded fourRoundings Sample.oneStep
        (Script.session Sample.engine
          (Sample.goingOn Sample.oneStep 1)
          (World.empty "session")).ledger := by
  refine ⟨by decide +kernel, ?_⟩
  have hRun := (Script.session_run Sample.engine
    (Sample.goingOn Sample.oneStep 1)
    (World.empty "session")).loads
  have hPlain :
      (Sample.advancesOfTurns
        (Sample.goingOn Sample.oneStep 1)).all
          (Sample.startsPlain Sample.oneStep) = true := by
    decide +kernel
  have hModerate :
      TunesModerately Sample.oneStep
        (Sample.advancesOfTurns
          (Sample.goingOn Sample.oneStep 1)) := by
    intro t hMem tuning outcome _ _ _
    exact Sample.moderate_of_startsPlain
      (List.all_eq_true.mp hPlain t hMem)
  exact (run_bounded hRun).2 Sample.oneStep
    ⟨by decide, by decide, by decide⟩ (by decide +kernel)
    hModerate

set_option maxRecDepth 100000 in
/-
  After two outcomes under one policy the step limit is raised
  by twice the percentage of that policy.
-/
theorem two_outcomes_unbounded :
    ¬(∀ sessionId run w,
      Run loading (World.empty sessionId) run w →
        ∀ policy : EnginePolicy, policy.Fits →
          (F64.finite 0).le
              policy.selfImprovement.maxPolicyDeltaPercent =
            true →
            Bounded 1 policy w.ledger) := by
  intro hAll
  have hRun := (Script.session_run Sample.engine
    Sample.twiceOutOfSteps (World.empty "session")).loads
  have hBounded := hAll _ _ _ hRun Sample.threeSteps
    ⟨by decide, by decide, by decide⟩ (by decide +kernel)
  have hUpper : RaisedAtMost 1 3
      (effectivePolicy Sample.threeSteps
        (Script.session Sample.engine Sample.twiceOutOfSteps
          (World.empty "session")).ledger).maxSteps
      (.finite 25) :=
    hBounded.maxSteps.upper
  have hFive :
      (effectivePolicy Sample.threeSteps
        (Script.session Sample.engine Sample.twiceOutOfSteps
          (World.empty "session")).ledger).maxSteps = 5 := by
    decide +kernel
  rw [hFive] at hUpper
  have hCeil : ⌈((3 : ℕ) : ℚ) * (1 + 25 / 100) * 1⌉ = 4 := by
    decide +kernel
  have hLe : (5 : ℤ) ≤ ⌈((3 : ℕ) : ℚ) * (1 + 25 / 100) * 1⌉ :=
    hUpper
  omega

end RainEngine
