import Mathlib.Data.List.DropRight
import RainEngine.Advances.Notes
import RainEngine.Advances.Footprint
import RainEngine.Batches.Breaker
import RainEngine.Improvement.Tunings

/-
  This file follows the circuit breaker of one skill through
  whole sessions: what it judges by, that it stays open, and
  when the results it has counted are those of the skill's
  own executions.

  Key definitions include:
    * `IsOpen`
    * `batchBase`
    * `Op.Judges`
    * `judging`

  Key theorems include:
    * `judging_rules`
    * `judging_advance`
-/

namespace RainEngine

open Effects

------------------------------------------------------------
-- Judged Requests
------------------------------------------------------------

/- The breaker of a skill is open on a ledger. -/
abbrev IsOpen
    (threshold : F64)
    (skill : String)
    (records : List SessionRecord) :
    Prop :=
  breakerTrips threshold (skillResults skill records) = true

def SessionRecord.isToolResult (record : SessionRecord) : Bool :=
  record.asToolResult.isSome

/- The ledger up to the results that were recorded last. -/
def batchBase
    (records : List SessionRecord) :
    List SessionRecord :=
  records.rdropWhile SessionRecord.isToolResult

/-
  A request in order for a skill: its executor runs while the
  breaker is closed, a call is denied while it is open, and a
  success comes from a batch of this advance that began while
  it was closed.
-/
def Op.Judges
    (threshold : F64)
    (skill : String)
    (base : List SessionRecord)
    (w : World) :
    Op → Prop
| .execute _ invocation =>
    invocation.manifest.name = skill →
      ¬IsOpen threshold skill w.ledger
| .append (.toolNodeCheckpoint checkpoint) =>
    checkpoint.Denies skill → IsOpen threshold skill w.ledger
| .append (.toolResult result) =>
    result.skillName = skill → result.isOk = true →
      base <+: batchBase w.ledger ∧
        ¬IsOpen threshold skill (batchBase w.ledger)
| _ => True

/- Requests that say nothing about any skill. -/
def Op.Unjudged : Op → Prop
| .execute _ _ => False
| .append (.toolNodeCheckpoint _) => False
| .append (.toolResult _) => False
| _ => True

section Judged

variable {threshold : F64}
variable {skill : String}
variable {base records : List SessionRecord}
variable {record : SessionRecord}
variable {w : World}

theorem Op.Unjudged.judges
    {op : Op}
    (hUnjudged : op.Unjudged) :
    Op.Judges threshold skill base w op := by
  cases op with
  | append record =>
      cases record <;> trivial
  | execute backend invocation => exact hUnjudged.elim
  | _ => trivial

theorem batchBase_other
    (hOther : record.isToolResult = false) :
    batchBase (records ++ [record]) = records ++ [record] := by
  unfold batchBase
  apply List.rdropWhile_concat_neg
  simp [hOther]

theorem batchBase_result
    (result : ToolResultRecord) :
    batchBase (records ++ [.toolResult result]) =
      batchBase records := by
  unfold batchBase
  exact List.rdropWhile_concat_pos _ _ _ rfl

theorem batchBase_prefix_self :
    batchBase records <+: records :=
  List.rdropWhile_prefix _ _

theorem IsTrace.asToolResult_eq
    (hTrace : IsTrace record) :
    record.asToolResult = none := by
  cases record <;> first | rfl | exact hTrace.elim

theorem IsRemark.asToolResult_eq
    (hRemark : IsRemark record) :
    record.asToolResult = none := by
  cases record <;> first | rfl | exact hRemark.elim

theorem skillResults_traces
    (hTraces : ∀ record ∈ records, IsTrace record) :
    skillResults skill (base ++ records) =
      skillResults skill base := by
  rw [skillResults_append]
  have hNone : skillResults skill records = [] := by
    unfold skillResults toolResults
    rw [List.filter_eq_nil_iff]
    intro result hMem
    obtain ⟨record, hRecord, hResult⟩ :=
      List.mem_filterMap.mp hMem
    rw [(hTraces record hRecord).asToolResult_eq] at hResult
    cases hResult
  rw [hNone, List.append_nil]

/- After records of a batch no result stands last. -/
theorem batchBase_traces
    (hTraces : ∀ record ∈ records, IsTrace record)
    (hSome : records ≠ []) :
    batchBase (base ++ records) = base ++ records := by
  have hLast := hTraces _ (List.getLast_mem hSome)
  have hOther :
      (records.getLast hSome).isToolResult = false := by
    unfold SessionRecord.isToolResult
    rw [hLast.asToolResult_eq]
    rfl
  have hBatch := @batchBase_other
    (base ++ records.dropLast) _ hOther
  rw [List.append_assoc, List.dropLast_append_getLast hSome]
    at hBatch
  exact hBatch

end Judged

------------------------------------------------------------
-- The Rules
------------------------------------------------------------

/- What is asserted of an advance about one skill. -/
def judging
    (threshold : F64)
    (skill : String)
    (base : List SessionRecord) :
    Assertions where
  holds stage w :=
    base <+: w.ledger ∧
      match stage with
      | .viewing fresh records =>
          fresh = true →
            skillResults skill records =
              skillResults skill w.ledger
      | .acting _ context =>
          skillResults skill context.records =
            skillResults skill w.ledger
      | .finished _ _ => True
  request := Op.Judges threshold skill base
  results _ context results w :=
    base <+: w.ledger ∧
      skillResults skill context.records =
        skillResults skill w.ledger ∧
      ∀ result ∈ results, result.skillName = skill →
        result.isOk = true →
          base <+: batchBase w.ledger ∧
            ¬IsOpen threshold skill (batchBase w.ledger)
  returned _ _ := True
  thrown _ := True

section Rules

variable {M : Machine Op Answer World}
variable {engine : AgentEngine}
variable {threshold : F64}
variable {skill : String}
variable {base : List SessionRecord}
variable {context : AgentContext}
variable {w : World}

theorem unjudged_finish
    {stopReason : StopReason}
    {response detail : Option String}
    {stepsExecuted : Nat}
    {resumeToken : Option ResumeToken} :
    Uses Op.Unjudged (fun _ => True)
      (finish engine context stopReason response detail
        stepsExecuted resumeToken) := by
  apply uses_finish
  · intro record _
    trivial
  · trivial
  · intro record hAppraisal
    cases record <;> trivial
  · intro snapshot
    trivial

/-
  A batch judges by the results of the ledger, and what it
  reports is in order for the ledger it has left.
-/
theorem judging_batch
    {step : Nat}
    {calls : List PlannedSkillCall}
    {approvalOverride : Bool}
    (hHost : OnHost M)
    (hThreshold :
      engine.breakerThreshold skill = threshold)
    (hBase : base <+: w.ledger)
    (hSame :
      skillResults skill context.records =
        skillResults skill w.ledger) :
    Safe M (Op.Judges threshold skill base)
      (fun execution w' =>
        base <+: w'.ledger ∧
          skillResults skill context.records =
            skillResults skill w'.ledger ∧
          ∀ result ∈ execution.results,
            result.skillName = skill → result.isOk = true →
              base <+: batchBase w'.ledger ∧
                ¬IsOpen threshold skill (batchBase w'.ledger))
      (fun _ _ => True)
      (executePlannedCalls engine context step calls
        approvalOverride) w := by
  have hJudge :
      IsBroken engine context skill ↔
        IsOpen threshold skill w.ledger := by
    unfold IsBroken IsOpen
    rw [isSkillCircuitBroken_eq, hThreshold, hSame]
  have hFitting :
      Fitting M
        (fun _ op => op.Fits engine context skill)
        engine context skill :=
    ⟨hHost, fun _ _ hFits => hFits⟩
  have hGrows :
      Safe M
        (fun w' _ => ∃ added, w'.ledger = w.ledger ++ added ∧
          ∀ record ∈ added, IsTrace record)
        (fun _ w' => ∃ added, w'.ledger = w.ledger ++ added ∧
          ∀ record ∈ added, IsTrace record)
        (fun _ w' => ∃ added, w'.ledger = w.ledger ++ added ∧
          ∀ record ∈ added, IsTrace record)
        (executePlannedCalls engine context step calls
          approvalOverride) w := by
    apply hHost.safe_batch
    · intro w' op hAdded _
      exact hAdded
    · intro w' record hAdded hTrace
      obtain ⟨added, hLedger, hTraces⟩ := hAdded
      refine ⟨added ++ [record], ?_, ?_⟩
      · rw [World.append_ledger, hLedger, List.append_assoc]
      · intro other hMem
        cases List.mem_append.mp hMem with
        | inl hOld => exact hTraces other hOld
        | inr hLast =>
            rw [List.mem_singleton.mp hLast]
            exact hTrace
    · intro w' uuid hAdded _
      exact hAdded
    · exact ⟨[], (List.append_nil _).symm, by simp⟩
  refine Safe.mono ?_ ?_ (fun _ _ _ => trivial)
    (Safe.and hFitting.executePlannedCalls hGrows)
  · intro w' op hOp
    obtain ⟨hFits, added, hLedger, hTraces⟩ := hOp
    have hUnchanged :
        IsOpen threshold skill w'.ledger ↔
          IsOpen threshold skill w.ledger := by
      unfold IsOpen
      rw [hLedger, skillResults_traces hTraces]
    cases op with
    | append record =>
        cases record <;> try trivial
        case toolNodeCheckpoint checkpoint =>
          intro hDenies
          exact hUnchanged.mpr (hJudge.mp (hFits hDenies))
    | execute backend invocation =>
        intro hName hOpen
        exact hFits hName (hJudge.mpr (hUnchanged.mp hOpen))
    | _ => trivial
  · intro execution w' hBoth
    obtain ⟨hResults, added, hLedger, hTraces⟩ := hBoth
    have hPrefix : base <+: w'.ledger := by
      rw [hLedger]
      exact hBase.trans (List.prefix_append _ _)
    refine ⟨hPrefix, ?_, ?_⟩
    · rw [hLedger, skillResults_traces hTraces]
      exact hSame
    · intro result hMem hSkill hOk
      have hGrown := hResults.recorded
        (List.ne_nil_of_mem hMem)
      have hSome : added ≠ [] := by
        intro hNone
        rw [hLedger, hNone, List.append_nil] at hGrown
        omega
      have hBatch : batchBase w'.ledger = w'.ledger := by
        rw [hLedger]
        exact batchBase_traces hTraces hSome
      rw [hBatch]
      refine ⟨hPrefix, ?_⟩
      intro hOpen
      apply hResults.closed result hMem hSkill hOk
      apply hJudge.mpr
      unfold IsOpen at hOpen ⊢
      rw [hLedger, skillResults_traces hTraces] at hOpen
      exact hOpen

theorem judging_rules
    (hHost : OnHost M)
    (hLoads : ∀ w, ¬LoadFails M w)
    (hThreshold :
      engine.breakerThreshold skill = threshold) :
    StepRules M engine (judging threshold skill base) where
  quiet := by
    intro stage w op hHolds hQuiet
    apply Op.Unjudged.judges
    cases op <;> trivial
  issue := fun hHolds _ => hHolds
  lag := by
    intro stage w hHolds
    refine ⟨hHolds.1, ?_⟩
    cases stage with
    | viewing fresh records => nofun
    | acting _ _ => exact hHolds.2
    | finished _ _ => trivial
  note := by
    intro stage w record hHolds hRemark
    apply Op.Unjudged.judges
    cases record <;> trivial
  noted := by
    intro stage w record hHolds hRemark
    have hOther := hRemark.asToolResult_eq
    refine ⟨hHolds.1.trans (List.prefix_append _ _), ?_⟩
    cases stage with
    | viewing fresh records => nofun
    | acting _ context =>
        have hSame := hHolds.2
        dsimp only [Stage.push, AgentContext.push] at hSame ⊢
        rw [World.append_ledger, skillResults_snoc_other hOther,
          skillResults_snoc_other hOther]
        exact hSame
    | finished _ _ => trivial
  deliberated := by
    intro ready context w record hHolds
    refine ⟨hHolds.1.trans (List.prefix_append _ _), ?_⟩
    dsimp only
    rw [World.append_ledger, skillResults_snoc_other rfl]
    exact hHolds.2
  fresh := fun hHolds => ⟨hHolds.1, fun _ => rfl⟩
  stale := by
    intro flag records w _ hFails
    exact absurd hFails (hLoads w)
  summarize := fun _ => trivial
  propose := by
    intro flag records w uuid plan hHolds _ _ _ _
    refine ⟨trivial, hHolds.1.trans (List.prefix_append _ _),
      ?_⟩
    intro hFresh
    cases hFresh
  ask := fun _ => trivial
  planStep := by
    intro context w plan action hHolds _
    refine ⟨trivial, hHolds.1.trans (List.prefix_append _ _),
      ?_⟩
    dsimp only
    rw [World.append_ledger, skillResults_snoc_other rfl]
    exact hHolds.2
  await := by
    intro ready context w pending hHolds _
    refine ⟨trivial, hHolds.1.trans (List.prefix_append _ _),
      ?_⟩
    dsimp only [AgentContext.push]
    rw [World.append_ledger, skillResults_snoc_other rfl,
      skillResults_snoc_other rfl]
    exact hHolds.2
  resolve := by
    intro context w pending resolution hHolds _ _
    refine ⟨trivial, hHolds.1.trans (List.prefix_append _ _),
      ?_⟩
    dsimp only
    rw [World.append_ledger, skillResults_snoc_other rfl]
    exact hHolds.2
  reject := by
    intro context w calls hHolds
    refine ⟨hHolds.1, hHolds.2, ?_⟩
    intro result hMem _ hOk
    obtain ⟨call, _, hCall⟩ := List.mem_map.mp hMem
    subst hCall
    cases hOk
  batch := by
    intro ready context w step calls override hHolds _
    refine Safe.mono (fun _ _ h => h) ?_ (fun _ _ h => h)
      (judging_batch hHost hThreshold hHolds.1 hHolds.2)
    intro execution w' hAfter
    cases execution with
    | executed batch => exact hAfter
    | suspended _ _ _ => exact ⟨hAfter.1, hAfter.2.1⟩
  result := by
    intro ready context result rest w hResults
    obtain ⟨hBase, hSame, hClosed⟩ := hResults
    refine ⟨hClosed result List.mem_cons_self,
      hBase.trans (List.prefix_append _ _), ?_, ?_⟩
    · dsimp only [AgentContext.pushToolResult]
      rw [World.append_ledger]
      by_cases hSkill : result.skillName = skill
      · rw [skillResults_snoc_result hSkill,
          skillResults_snoc_result hSkill, hSame]
      · rw [skillResults_snoc_foreign hSkill,
          skillResults_snoc_foreign hSkill]
        exact hSame
    · intro other hMem
      rw [World.append_ledger, batchBase_result]
      exact hClosed other (List.mem_cons_of_mem _ hMem)
  recorded := fun hResults => ⟨hResults.1, hResults.2.1⟩
  lostResult := fun _ _ => ⟨trivial, trivial⟩
  finish := by
    intro ready context w stopReason response detail
      stepsExecuted resumeToken _
    refine Safe.mono (fun _ _ h => h) (fun _ _ _ => trivial)
      (fun _ _ _ => trivial)
      (Uses.safe (I := fun _ => True) unjudged_finish ?_
        (fun _ _ _ _ _ _ => trivial) trivial)
    intro w' op _ hUnjudged
    exact hUnjudged.judges
  progress := fun _ => trivial
  failed := fun _ _ => trivial
  thrown := fun _ _ => trivial

/- Every path of an advance to a batch keeps the rules. -/
theorem judging_advance
    {request : AdvanceRequest}
    (hHost : OnHost M)
    (hLoads : ∀ w, ¬LoadFails M w)
    (hThreshold :
      engine.breakerThreshold skill = threshold) :
    Ends M (judging threshold skill w.ledger)
      (advance engine request) w := by
  have hRules :
      StepRules M engine
        (judging threshold skill w.ledger) :=
    judging_rules hHost hLoads hThreshold
  cases request with
  | trigger request =>
      have hAppended : ∀ triggerId : String,
          w.ledger <+:
            ((w.issue triggerId).append
              (.trigger
                (request.record triggerId))).ledger :=
        fun triggerId => List.prefix_append _ _
      apply hHost.safe_advanceTrigger trivial
      · intro triggerId _ key
        trivial
      · intro triggerId _ prior _
        trivial
      · intro triggerId _ _
        refine ⟨trivial, fun _ _ => trivial, ?_⟩
        apply hRules.safe_processTrigger hHost
        · intro cached _
          exact ⟨hAppended triggerId, nofun⟩
        · exact ⟨hAppended triggerId, nofun⟩
        · intro error _
          trivial
        · intro snapshot w' hHolds
          exact ⟨hHolds.1, hHolds.2 rfl⟩
  | continueWith request =>
      apply hHost.safe_advanceContinue trivial
      · intro error _
        trivial
      · intro _
        exact ⟨trivial, fun _ _ => trivial⟩
      · intro trigger _
        apply hRules.safe_continueTrigger hHost
        exact ⟨List.prefix_refl _, rfl⟩

end Rules

end RainEngine
