import RainEngine.Kernel.Types

/-
  This file defines the engine policy: its defaults, the
  overlays self-improvement puts on it, and the resource
  limits a skill runs under.

  Key definitions include:
    * `EnginePolicy.default`
    * `PolicyOverlay.applyTo`
    * `EnginePolicy.withOverlay`
    * `increaseByPercent`
    * `SkillManifest.effectiveResourcePolicy`
-/

namespace RainEngine

------------------------------------------------------------
-- Engine Policy
------------------------------------------------------------

namespace SelfImprovementPolicy

def default : SelfImprovementPolicy where
  enabled := true
  mode := .autoWithGuardrails
  evaluatorModel := none
  reflectionIntervalRecords := 8
  minObservationsBeforeTuning := 2
  maxPolicyDeltaPercent := .finite 25
  requireApprovalForScopeExpansion := true
  rollbackOnRegression := true

end SelfImprovementPolicy

namespace EnginePolicy

def default : EnginePolicy where
  maxSteps := 16
  maxExecutionTimeMs := 120000
  providerTimeoutMs := 45000
  maxToolTimeoutMs := 10000
  maxConsecutiveToolFailures := 20
  cacheThresholdTokens := 32000
  maxCostPerSession := .finite 5
  maxParallelSkillCalls := 4
  maxInlineAttachmentBytes := 512 * 1024
  allowNativeSkills := true
  validateToolArgs := true
  maxReadyToolNodes := 64
  maxToolRetriesPerStep := 2
  enableToolDryRun := false
  selfImprovement := .default

/- The execution budget of one advance, in milliseconds. -/
def maxExecutionTime (policy : EnginePolicy) : Nat :=
  policy.maxExecutionTimeMs.max 1

/- The provider timeout, in milliseconds. -/
def providerTimeout (policy : EnginePolicy) : Nat :=
  policy.providerTimeoutMs.max 1

end EnginePolicy

------------------------------------------------------------
-- Overlays
------------------------------------------------------------

/- A patched limit is at least one; no patch keeps it. -/
def patched
    (patch : Option Nat)
    (current : Nat) :
    Nat :=
  match patch with
  | some value => value.max 1
  | none => current

/- Only an applied overlay changes the policy. -/
def PolicyOverlay.applyTo
    (overlay : PolicyOverlay)
    (policy : EnginePolicy) :
    EnginePolicy :=
  if overlay.status ≠ .applied then policy
  else
    { policy with
      maxSteps :=
        patched overlay.patch.maxSteps policy.maxSteps
      maxExecutionTimeMs :=
        patched overlay.patch.maxExecutionTimeMs
          policy.maxExecutionTimeMs
      providerTimeoutMs :=
        patched overlay.patch.providerTimeoutMs
          policy.providerTimeoutMs
      maxToolTimeoutMs :=
        patched overlay.patch.maxToolTimeoutMs
          policy.maxToolTimeoutMs
      maxParallelSkillCalls :=
        patched overlay.patch.maxParallelSkillCalls
          policy.maxParallelSkillCalls }

def EnginePolicy.withOverlay
    (policy : EnginePolicy)
    (overlay : Option PolicyOverlay) :
    EnginePolicy :=
  match overlay with
  | some overlay => overlay.applyTo policy
  | none => policy

/-
  The limit raised by a percentage and rounded up. The code
  has one copy of this function for each unsigned width.
-/
def increaseByPercent
    (value : Nat)
    (percent : F64) :
    Nat :=
  ((F64.ofNat (value.max 1)).mul
    ((F64.finite 1).add
      (percent.div (.finite 100)))).ceil.toU64

------------------------------------------------------------
-- Resource Policies
------------------------------------------------------------

def ResourcePolicy.validated
    (policy : ResourcePolicy) :
    ResourcePolicy :=
  { policy with
    timeoutMs := policy.timeoutMs.max 1
    maxMemoryBytes := policy.maxMemoryBytes.max (64 * 1024)
    retryPolicy :=
      { maxAttempts := policy.retryPolicy.maxAttempts
        initialIntervalMs :=
          policy.retryPolicy.initialIntervalMs.max 1
        backoffMultiplier :=
          policy.retryPolicy.backoffMultiplier.max
            (.finite 1)
        maxIntervalMs :=
          policy.retryPolicy.maxIntervalMs.max 1 } }

def ResourcePolicy.defaultForTools : ResourcePolicy where
  timeoutMs := 5000
  maxMemoryBytes := 8 * 1024 * 1024
  maxFuel := some 10000000
  priorityClass := 0
  retryPolicy := .default
  dryRunSupported := false

def SkillManifest.effectiveResourcePolicy
    (manifest : SkillManifest)
    (enginePolicy : EnginePolicy) :
    ResourcePolicy :=
  let policy := manifest.resourcePolicy.validated
  { policy with
    timeoutMs :=
      policy.timeoutMs.min
        (enginePolicy.maxToolTimeoutMs.max 1) }

end RainEngine
