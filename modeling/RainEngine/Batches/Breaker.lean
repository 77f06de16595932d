import RainEngine.Advances.Assertions
import RainEngine.Batches.Results
import RainEngine.Kernel.Floats

/-
  This file proves what the circuit breaker of a skill does
  within a batch: it judges by the results the context holds,
  denies only while it is open there, and lets no executor of
  the skill run and no call of it succeed while it is open.

  Key definitions include:
    * `breakerTrips`
    * `skillResults`
    * `ToolNodeCheckpointRecord.Denies`
    * `Op.Fits`

  Key theorems include:
    * `isSkillCircuitBroken_eq`
    * `breakerTrips_snoc`
    * `Fitting.executePlannedCalls`
-/

namespace RainEngine

open Effects

------------------------------------------------------------
-- The Failure Rate Of A Skill
------------------------------------------------------------

/- The results recorded for a skill, in order. -/
def skillResults
    (skill : String)
    (records : List SessionRecord) :
    List ToolResultRecord :=
  (toolResults records).filter (·.skillName = skill)

def failureCount (results : List ToolResultRecord) : Nat :=
  results.countP (!·.isOk)

/- Enough results, and too large a share of failures. -/
def breakerTrips
    (threshold : F64)
    (results : List ToolResultRecord) :
    Bool :=
  decide (3 ≤ results.length) &&
    threshold.le
      (.round (failureCount results / results.length))

/- The threshold the breaker of a skill name works with. -/
def AgentEngine.breakerThreshold
    (engine : AgentEngine)
    (skillName : String) :
    F64 :=
  match engine.skills.get skillName with
  | some skill => skill.manifest.circuitBreakerThreshold
  | none => .finite (1 / 2)

/- What a group has counted; no group has counted nothing. -/
def ToolPerformance.tally :
    Option ToolPerformance → Nat × Nat
| none => (0, 0)
| some performance =>
    (performance.calls, performance.failures)

section Rate

variable {skill : String}
variable {threshold : F64}
variable {results : List ToolResultRecord}
variable {result : ToolResultRecord}
variable {records : List SessionRecord}

/- One more result counts for the group of its skill. -/
theorem tally_countToolResult
    (groups : List ToolPerformance) :
    ToolPerformance.tally
        ((countToolResult records groups result).find?
          (·.skillName = skill)) =
      let tally := ToolPerformance.tally
        (groups.find? (·.skillName = skill))
      if result.skillName = skill then
        (tally.1 + 1,
          tally.2 + (if result.isOk then 0 else 1))
      else tally := by
  induction groups with
  | nil =>
      by_cases hSkill : result.skillName = skill
      · simp [countToolResult, ToolPerformance.tally, hSkill]
      · simp [countToolResult, ToolPerformance.tally, hSkill]
  | cons group rest ih =>
      unfold countToolResult
      by_cases hGroup : group.skillName = result.skillName
      · rw [if_pos hGroup]
        by_cases hSkill : result.skillName = skill
        · have hBoth : group.skillName = skill :=
            hGroup.trans hSkill
          simp [ToolPerformance.tally, ToolPerformance.count,
            hSkill, hBoth]
        · have hNeither : group.skillName ≠ skill := by
            rw [hGroup]
            exact hSkill
          simp [ToolPerformance.count, hSkill, hNeither]
      · rw [if_neg hGroup]
        by_cases hFirst : group.skillName = skill
        · have hOther : result.skillName ≠ skill := by
            intro hSkill
            exact hGroup (hFirst.trans hSkill.symm)
          simp [hFirst, hOther]
        · simp only [List.find?_cons, hFirst, decide_false]
          exact ih

theorem tally_foldl
    (groups : List ToolPerformance)
    (results : List ToolResultRecord) :
    ToolPerformance.tally
        ((results.foldl (countToolResult records)
          groups).find? (·.skillName = skill)) =
      let tally := ToolPerformance.tally
        (groups.find? (·.skillName = skill))
      let own := results.filter (·.skillName = skill)
      (tally.1 + own.length, tally.2 + failureCount own) := by
  induction results generalizing groups with
  | nil => simp [failureCount]
  | cons result rest ih =>
      rw [List.foldl_cons, ih, tally_countToolResult]
      by_cases hSkill : result.skillName = skill
      · cases hOk : result.isOk <;>
          simp [hSkill, hOk, failureCount] <;> omega
      · simp [hSkill]

/- The breaker is a test of the skill's recorded results. -/
theorem isSkillCircuitBroken_eq
    (engine : AgentEngine)
    (skill : String)
    (context : AgentContext) :
    engine.isSkillCircuitBroken skill context =
      breakerTrips (engine.breakerThreshold skill)
        (skillResults skill context.records) := by
  have hTally :
      ToolPerformance.tally
          ((summarizeToolPerformance context.records).find?
            (·.skillName = skill)) =
        (0 + (skillResults skill context.records).length,
          0 + failureCount
            (skillResults skill context.records)) :=
    tally_foldl [] (toolResults context.records)
  unfold AgentEngine.isSkillCircuitBroken breakerTrips
    AgentEngine.breakerThreshold
  cases hFound : (summarizeToolPerformance
      context.records).find? (·.skillName = skill) with
  | none =>
      rw [hFound] at hTally
      simp only [ToolPerformance.tally, Prod.mk.injEq]
        at hTally
      have hNone :
          (skillResults skill context.records).length = 0 := by
        omega
      simp [hNone]
  | some performance =>
      rw [hFound] at hTally
      simp only [ToolPerformance.tally, Prod.mk.injEq,
        Nat.zero_add] at hTally
      dsimp only
      rw [ToolPerformance.failureRate, hTally.1, hTally.2]
      by_cases hEnough :
          3 ≤ (skillResults skill context.records).length
      · have hSome :
            (skillResults skill context.records).length ≠
              0 := by
          omega
        rw [if_pos hEnough, if_neg hSome]
        cases engine.skills.get skill <;> simp [hEnough]
      · simp [hEnough]

theorem failureCount_le (results : List ToolResultRecord) :
    failureCount results ≤ results.length :=
  List.countP_le_length

/- A failure does not lower the failure rate. -/
theorem breakerTrips_snoc
    (hTrips : breakerTrips threshold results = true)
    (hFailed : result.isOk = false) :
    breakerTrips threshold (results ++ [result]) = true := by
  unfold breakerTrips at hTrips ⊢
  rw [Bool.and_eq_true, decide_eq_true_eq] at hTrips ⊢
  have hCount :
      failureCount (results ++ [result]) =
        failureCount results + 1 := by
    simp [failureCount, hFailed]
  have hLength :
      (results ++ [result]).length = results.length + 1 := by
    simp
  rw [hCount, hLength]
  refine ⟨by omega, ?_⟩
  refine F64.le_of_le_of_le hTrips.2
    (F64.round_mono (by positivity) ?_)
  have hPos : (0 : ℚ) < results.length := by
    have hSome : 0 < results.length := by omega
    exact_mod_cast hSome
  have hLe :
      (failureCount results : ℚ) ≤ results.length := by
    exact_mod_cast failureCount_le results
  rw [div_le_div_iff₀ hPos (by push_cast; linarith)]
  push_cast
  nlinarith

/- Only results count for the breaker. -/
theorem skillResults_append
    (records more : List SessionRecord) :
    skillResults skill (records ++ more) =
      skillResults skill records ++
        skillResults skill more := by
  unfold skillResults
  rw [toolResults_append, List.filter_append]

theorem skillResults_snoc_other
    {record : SessionRecord}
    (hOther : record.asToolResult = none) :
    skillResults skill (records ++ [record]) =
      skillResults skill records := by
  rw [skillResults_append]
  have hNone : skillResults skill [record] = [] := by
    simp [skillResults, toolResults, hOther]
  rw [hNone, List.append_nil]

theorem skillResults_snoc_result
    (hSkill : result.skillName = skill) :
    skillResults skill (records ++ [.toolResult result]) =
      skillResults skill records ++ [result] := by
  rw [skillResults_append]
  simp [skillResults, toolResults, SessionRecord.asToolResult,
    hSkill]

theorem skillResults_snoc_foreign
    (hSkill : result.skillName ≠ skill) :
    skillResults skill (records ++ [.toolResult result]) =
      skillResults skill records := by
  rw [skillResults_append]
  simp [skillResults, toolResults, SessionRecord.asToolResult,
    hSkill]

end Rate

------------------------------------------------------------
-- Denials
------------------------------------------------------------

def breakerMessage (skill : String) : String :=
  "circuit breaker tripped for skill `" ++ skill ++ "`"

/- The checkpoint of a call the breaker has denied. -/
structure ToolNodeCheckpointRecord.Denies
    (checkpoint : ToolNodeCheckpointRecord)
    (skill : String) : Prop where
  skillName : checkpoint.skillName = skill
  status : checkpoint.status = .failed
  attempt : checkpoint.attempt = 0
  detail : checkpoint.detail = some (breakerMessage skill)

/- A text that is not about the circuit breaker. -/
def BeginsOther (text : String) : Prop :=
  ∃ first rest, text.toList = first :: rest ∧ first ≠ 'c'

theorem head?_breakerText :
    ("circuit breaker tripped for skill `").toList.head? =
      some 'c' :=
  rfl

theorem head?_breakerMessage (skill : String) :
    (breakerMessage skill).toList.head? = some 'c' := by
  unfold breakerMessage
  simp only [String.toList_append, List.head?_append,
    head?_breakerText, Option.some_or]

theorem BeginsOther.ne_breakerMessage
    {text : String}
    (hOther : BeginsOther text)
    (skill : String) :
    text ≠ breakerMessage skill := by
  intro hSame
  obtain ⟨first, rest, hText, hFirst⟩ := hOther
  have hHead := head?_breakerMessage skill
  rw [← hSame, hText, List.head?_cons] at hHead
  exact hFirst (Option.some.inj hHead)

theorem BeginsOther.append
    {text : String}
    (hOther : BeginsOther text)
    (more : String) :
    BeginsOther (text ++ more) := by
  obtain ⟨first, rest, hText, hFirst⟩ := hOther
  refine ⟨first, rest ++ more.toList, ?_, hFirst⟩
  rw [String.toList_append, hText, List.cons_append]

theorem BeginsOther.intercalate
    {texts : List String}
    (hSome : texts ≠ [])
    (hOther : ∀ text ∈ texts, BeginsOther text) :
    BeginsOther ("; ".intercalate texts) := by
  cases texts with
  | nil => exact absurd rfl hSome
  | cons text rest =>
      have hText := hOther text List.mem_cons_self
      by_cases hRest : rest = []
      · subst hRest
        rw [String.intercalate_singleton]
        exact hText
      · rw [String.intercalate_cons_of_ne_nil hRest]
        exact (hText.append _).append _

theorem beginsOther_missingRequired
    {fields : List (String × Json)}
    {schema : Json} :
    ∀ error ∈ missingRequired fields schema,
      BeginsOther error := by
  intro error hMem
  unfold missingRequired at hMem
  split at hMem
  · cases hMem
  · obtain ⟨key, _, hKey⟩ := List.mem_filterMap.mp hMem
    split at hKey
    · cases hKey
    · cases hKey
      apply BeginsOther.append
      apply BeginsOther.append
      exact ⟨'m', _, rfl, by decide⟩

theorem beginsOther_mistypedProperties
    {fields : List (String × Json)}
    {schema : Json} :
    ∀ error ∈ mistypedProperties fields schema,
      BeginsOther error := by
  intro error hMem
  unfold mistypedProperties at hMem
  split at hMem
  · cases hMem
  · obtain ⟨property, _, hProperty⟩ :=
      List.mem_filterMap.mp hMem
    simp only [Option.bind_eq_bind, Option.bind_eq_some_iff]
      at hProperty
    obtain ⟨field, _, expected, _, hError⟩ := hProperty
    split at hError
    · cases hError
    · cases hError
      apply BeginsOther.append
      apply BeginsOther.append
      apply BeginsOther.append
      apply BeginsOther.append
      exact ⟨'p', _, rfl, by decide⟩

/- No error of a validation is about the circuit breaker. -/
theorem beginsOther_validate
    {value schema : Json} :
    ∀ error ∈ validateAgainstSchema value schema,
      BeginsOther error := by
  intro error hMem
  unfold validateAgainstSchema at hMem
  split at hMem
  · cases hMem
  · split at hMem
    · rw [List.mem_singleton] at hMem
      subst hMem
      apply BeginsOther.append
      apply BeginsOther.append
      exact ⟨'e', _, rfl, by decide⟩
    · split at hMem
      · split at hMem
        · rw [List.mem_singleton] at hMem
          subst hMem
          exact ⟨'e', _, rfl, by decide⟩
        · cases List.mem_append.mp hMem with
          | inl hMissing =>
              exact beginsOther_missingRequired error hMissing
          | inr hMistyped =>
              exact beginsOther_mistypedProperties error
                hMistyped
      · cases hMem

------------------------------------------------------------
-- Requests Of A Judged Batch
------------------------------------------------------------

/- The breaker of the skill is open in the context. -/
abbrev IsBroken
    (engine : AgentEngine)
    (context : AgentContext)
    (skill : String) :
    Prop :=
  engine.isSkillCircuitBroken skill context = true

/-
  What a batch may ask for as far as one skill goes: it runs
  the skill while the breaker is closed, and denies a call of
  it while the breaker is open.
-/
def Op.Fits
    (engine : AgentEngine)
    (context : AgentContext)
    (skill : String) :
    Op → Prop
| .execute _ invocation =>
    invocation.manifest.name = skill →
      ¬IsBroken engine context skill
| .append (.toolNodeCheckpoint checkpoint) =>
    checkpoint.Denies skill → IsBroken engine context skill
| .append (.toolResult _) => False
| _ => True

/- The next attempt of each call is at least the second. -/
def Attempted (attempts : AttemptMap) (callId : String) : Prop :=
  attempts callId ≠ some 0

section Requests

variable {engine : AgentEngine}
variable {context : AgentContext}
variable {skill : String}
variable {graph : ToolExecutionGraph}
variable {node : ToolNode}
variable {attempts : AttemptMap}

theorem fits_checkpoint
    {V : Unit → Prop}
    {status : ToolNodeStatus}
    {attempt : Nat}
    {detail : Option String}
    (hDenies :
      node.skillName = skill → status = .failed →
        attempt = 0 → detail = some (breakerMessage skill) →
          IsBroken engine context skill)
    (hValue : V ()) :
    Uses (Op.Fits engine context skill) V
      (appendToolCheckpoint graph node status attempt
        detail) := by
  refine ⟨trivial, ?_⟩
  intro checkpointId
  apply uses_appendOrFail _ hValue
  intro hDenied
  exact hDenies hDenied.skillName hDenied.status
    hDenied.attempt hDenied.detail

theorem fits_validation
    {V : Unit → Prop}
    {valid : Bool}
    {errors : List String}
    (hValue : V ()) :
    Uses (Op.Fits engine context skill) V
      (appendValidation graph node valid errors) := by
  refine ⟨trivial, ?_⟩
  intro validationId
  exact uses_appendOrFail trivial hValue

/- A rejection that is not about the breaker. -/
theorem fits_rejectNode
    {V : PreparedNode → Prop}
    {kind : SkillFailureKind}
    {message : String}
    (hMessage :
      message = breakerMessage skill →
        node.skillName = skill →
          IsBroken engine context skill)
    (hValue : ∀ result, V (.immediate result)) :
    Uses (Op.Fits engine context skill) V
      (rejectNode graph node kind message) := by
  unfold rejectNode
  rw [Uses.bind_iff]
  apply fits_checkpoint
  · intro hSkill _ _ hDetail
    exact hMessage (Option.some.inj hDetail) hSkill
  · exact hValue _

theorem fits_other
    {V : PreparedNode → Prop}
    {kind : SkillFailureKind}
    {message : String}
    (hOther : BeginsOther message)
    (hValue : ∀ result, V (.immediate result)) :
    Uses (Op.Fits engine context skill) V
      (rejectNode graph node kind message) := by
  apply fits_rejectNode _ hValue
  intro hSame
  exact absurd hSame (hOther.ne_breakerMessage skill)

/- What is known of the attempts once a node is prepared. -/
structure Tries
    (attempts : AttemptMap)
    (r : PreparedNode × AttemptMap) : Prop where
  kept :
    ∀ callId, Attempted attempts callId →
      Attempted r.2 callId
  started :
    ∀ call, r.1 = .executable call →
      Attempted r.2 call.callId

theorem Tries.immediate
    (result : ToolResultRecord) :
    Tries attempts (.immediate result, attempts) where
  kept := fun _ h => h
  started := by
    intro call hCall
    cases hCall

theorem fits_guardNode
    {registered : RegisteredSkill}
    {step : Nat} :
    Uses (Op.Fits engine context skill) (Tries attempts)
      (guardNode engine context graph node registered step
        attempts) := by
  unfold guardNode
  rw [Uses.bind_iff]
  apply fits_checkpoint
  · intro _ hStatus
    cases hStatus
  split
  · rw [Uses.bind_iff]
    apply fits_other
    · apply BeginsOther.append
      apply BeginsOther.append
      exact ⟨'m', _, rfl, by decide⟩
    · exact Tries.immediate
  · split
    · rw [Uses.bind_iff]
      apply fits_other
      · exact ⟨'n', _, rfl, by decide⟩
      · exact Tries.immediate
    · split
      · rw [Uses.bind_iff]
        apply fits_other
        · exact ⟨'d', _, rfl, by decide⟩
        · exact Tries.immediate
      · split
        · rename_i hBroken
          rw [Uses.bind_iff]
          apply fits_rejectNode
          · intro _ hSkill
            rw [← hSkill]
            exact hBroken
          · exact Tries.immediate
        · rw [Uses.bind_iff]
          unfold startNode
          rw [Uses.bind_iff]
          apply fits_checkpoint
          · intro _ hStatus
            cases hStatus
          · rw [Uses.bind_iff]
            apply uses_appendOrFail trivial
            constructor
            · intro callId hAttempted
              unfold Attempted
              by_cases hSame : callId = node.callId
              · subst hSame
                simp
              · simp only [Function.update_of_ne hSame]
                exact hAttempted
            · intro call hCall
              cases hCall
              simp [Attempted]

theorem fits_prepareNode
    {step : Nat} :
    Uses (Op.Fits engine context skill) (Tries attempts)
      (prepareNode engine context graph node step
        attempts) := by
  unfold prepareNode
  split
  · rw [Uses.bind_iff]
    apply fits_validation
    rw [Uses.bind_iff]
    apply fits_other
    · apply BeginsOther.append
      apply BeginsOther.append
      exact ⟨'s', _, rfl, by decide⟩
    · exact Tries.immediate
  · split
    · rw [Uses.bind_iff]
      apply fits_validation
      split
      · rename_i hErrors
        rw [Uses.bind_iff]
        apply fits_other
        · apply BeginsOther.intercalate
          · simpa using hErrors
          · exact beginsOther_validate
        · exact Tries.immediate
      · exact fits_guardNode
    · exact fits_guardNode

/- A skill is registered under the name of its manifest. -/
theorem PreparedFor.name_eq
    {prepared : PreparedCall}
    (hPrepared : PreparedFor engine context node prepared) :
    prepared.manifest.name = node.skillName := by
  obtain ⟨registered, hGates, _, hManifest, _⟩ :=
    hPrepared.gates
  have hFound := List.find?_some hGates.registered
  rw [hManifest]
  exact of_decide_eq_true hFound

theorem fits_runPreparedCall
    {prepared : PreparedCall}
    (hPrepared : PreparedFor engine context node prepared) :
    Uses (Op.Fits engine context skill)
      (TaskFor engine context node)
      (runPreparedCall prepared) := by
  apply uses_runPreparedCall hPrepared
  · intro hName hBroken
    have hSkill : node.skillName = skill := by
      rw [← hPrepared.name_eq]
      exact hName
    obtain ⟨registered, hGates, _⟩ := hPrepared.gates
    have hClosed := hGates.breakerClosed
    rw [hSkill] at hClosed
    exact absurd (hClosed.symm.trans hBroken) (by decide)
  · intro ms
    trivial

theorem fits_queueNodes
    {nodes : List ToolNode} :
    Uses (Op.Fits engine context skill) (fun _ => True)
      (queueNodes graph nodes) := by
  induction nodes with
  | nil => trivial
  | cons node rest ih =>
      unfold queueNodes
      rw [Uses.bind_iff]
      apply fits_checkpoint
      · intro _ hStatus
        cases hStatus
      · exact ih

theorem fits_storeGraph :
    Uses (Op.Fits engine context skill) (fun _ => True)
      (storeGraph context graph) := by
  unfold storeGraph
  split
  · trivial
  · rw [Uses.bind_iff]
    apply uses_appendOrFail trivial
    exact fits_queueNodes

end Requests

------------------------------------------------------------
-- Results Of A Judged Batch
------------------------------------------------------------

/-
  No call of the skill succeeds while its breaker is open,
  and there is no result without a record appended before.
-/
structure JudgedResults
    (engine : AgentEngine)
    (context : AgentContext)
    (skill : String)
    (start : Nat)
    (results : List ToolResultRecord)
    (w : World) : Prop where
  closed :
    ∀ result ∈ results, result.skillName = skill →
      result.isOk = true → ¬IsBroken engine context skill
  later : start ≤ w.ledger.length
  recorded : results ≠ [] → start < w.ledger.length

/- A task of a call that may be joined. -/
structure JudgedTask
    (engine : AgentEngine)
    (context : AgentContext)
    (skill : String)
    (attempts : AttemptMap)
    (task : ToolTask) : Prop where
  closed :
    ∀ result, task = .ok result → result.skillName = skill →
      result.isOk = true → ¬IsBroken engine context skill
  attempted :
    ∀ result, task = .ok result →
      Attempted attempts result.callId

/- A machine of the host that allows a judged batch. -/
structure Fitting
    (M : Machine Op Answer World)
    (P : World → Op → Prop)
    (engine : AgentEngine)
    (context : AgentContext)
    (skill : String) : Prop where
  host : OnHost M
  fits :
    ∀ w op, op.Fits engine context skill → P w op

namespace Fitting

variable {M : Machine Op Answer World}
variable {P : World → Op → Prop}
variable {engine : AgentEngine}
variable {context : AgentContext}
variable {skill : String}
variable {graph : ToolExecutionGraph}
variable {node : ToolNode}
variable {state : BatchState}
variable {start : Nat}
variable {w : World}
variable (hFitting : Fitting M P engine context skill)

include hFitting

theorem safe_uses
    {α : Type}
    {V : α → Prop}
    {p : EngineM α}
    (hUses : Uses (Op.Fits engine context skill) V p) :
    Safe M P
      (fun a w' => V a ∧
        w.ledger.length ≤ w'.ledger.length)
      (fun _ _ => True) p w := by
  refine Safe.mono (fun _ _ h => h) (fun _ _ h => h)
    (fun _ _ _ => trivial)
    (Uses.safe
      (I := fun w' : World =>
        w.ledger.length ≤ w'.ledger.length)
      hUses (fun w' op _ hFits => hFitting.fits w' op hFits)
      ?_ (Nat.le_refl _))
  intro w' op a hLater _ _
  rw [hFitting.host.next]
  exact hLater.trans (hostNext_extends w' op a).length_le

/- A part that starts with an append leaves a record. -/
theorem safe_recorded
    {α β : Type}
    {V : β → Prop}
    {p : EngineM α}
    {f : α → EngineM β}
    (hFirst :
      Safe M (fun _ _ => True)
        (fun _ w' => w.ledger.length < w'.ledger.length)
        (fun _ _ => True) p w)
    (hUses :
      Uses (Op.Fits engine context skill) V (p >>= f)) :
    Safe M P
      (fun b w' => V b ∧
        w.ledger.length < w'.ledger.length)
      (fun _ _ => True) (p >>= f) w := by
  rw [Uses.bind_iff] at hUses
  have hBoth := hFirst.and_uses hUses
  refine Safe.bind (Safe.mono ?_ (fun _ _ h => h)
    (fun _ _ h => h) hBoth) ?_
  · intro w' op hOp
    exact hFitting.fits w' op hOp.2
  · intro a w' hGrown
    refine Safe.mono (fun _ _ h => h) ?_ (fun _ _ h => h)
      (hFitting.safe_uses hGrown.2)
    intro b w'' hRest
    exact ⟨hRest.1, Nat.lt_of_lt_of_le hGrown.1 hRest.2⟩

theorem appends_checkpoint
    {status : ToolNodeStatus}
    {attempt : Nat}
    {detail : Option String} :
    Safe M (fun _ _ => True)
      (fun _ w' => w.ledger.length < w'.ledger.length)
      (fun _ _ => True)
      (appendToolCheckpoint graph node status attempt detail)
      w := by
  unfold appendToolCheckpoint
  rw [Safe.bind_iff]
  apply hFitting.host.safe_newUuid trivial
  intro uuid _
  apply hFitting.host.safe_appendOrFail trivial
  · simp
  · intro error _
    trivial

theorem appends_validation
    {valid : Bool}
    {errors : List String} :
    Safe M (fun _ _ => True)
      (fun _ w' => w.ledger.length < w'.ledger.length)
      (fun _ _ => True)
      (appendValidation graph node valid errors) w := by
  unfold appendValidation
  rw [Safe.bind_iff]
  apply hFitting.host.safe_newUuid trivial
  intro uuid _
  apply hFitting.host.safe_appendOrFail trivial
  · simp
  · intro error _
    trivial

theorem safe_prepareNode
    {step : Nat}
    {attempts : AttemptMap} :
    Safe M P
      (fun r w' =>
        (Tries attempts r ∧
          PreparedNode.IsFor engine context node r.1) ∧
            w.ledger.length < w'.ledger.length)
      (fun _ _ => True)
      (prepareNode engine context graph node step attempts)
      w := by
  have hAny :
      AllowsNode (fun _ => True) engine context graph node :=
    ⟨trivial, fun _ _ _ => trivial, fun _ _ _ _ => trivial,
      fun _ _ _ _ _ => trivial, fun _ _ _ => trivial⟩
  have hUses := Uses.mono (fun _ h => h.1) (fun _ h => h)
    (Uses.and
      (@fits_prepareNode engine context skill graph node
        attempts step)
      (@AllowsNode.prepareNode _ _ _ _ _ hAny step attempts))
  revert hUses
  unfold prepareNode
  split
  · intro hUses
    exact hFitting.safe_recorded hFitting.appends_validation
      hUses
  · split
    · intro hUses
      exact hFitting.safe_recorded
        hFitting.appends_validation hUses
    · intro hUses
      exact hFitting.safe_recorded
        hFitting.appends_checkpoint hUses

theorem safe_checkpoint
    {status : ToolNodeStatus}
    {attempt : Nat}
    {detail : Option String}
    (hDenies :
      node.skillName = skill → status = .failed →
        attempt = 0 → detail = some (breakerMessage skill) →
          IsBroken engine context skill) :
    Safe M P
      (fun _ w' => w.ledger.length < w'.ledger.length)
      (fun _ _ => True)
      (appendToolCheckpoint graph node status attempt detail)
      w := by
  refine Safe.mono ?_ (fun _ _ h => h.1) (fun _ _ _ => trivial)
    (hFitting.appends_checkpoint.and_uses
      (@fits_checkpoint engine context skill graph node
        (fun _ => True) status attempt detail hDenies trivial))
  intro w' op hOp
  exact hFitting.fits w' op hOp.2

omit hFitting in
/- A result is recorded after its call's checkpoint. -/
theorem record
    {results : List ToolResultRecord}
    {result : ToolResultRecord}
    {w' : World}
    (hJudged :
      JudgedResults engine context skill start results w)
    (hClosed :
      result.skillName = skill → result.isOk = true →
        ¬IsBroken engine context skill)
    (hGrown : w.ledger.length < w'.ledger.length) :
    JudgedResults engine context skill start
      (results ++ [result]) w' where
  closed := by
    intro other hMem
    cases List.mem_append.mp hMem with
    | inl hOld => exact hJudged.closed other hOld
    | inr hLast =>
        rw [List.mem_singleton] at hLast
        subst hLast
        exact hClosed
  later := by
    have hLater := hJudged.later
    omega
  recorded := by
    intro _
    have hLater := hJudged.later
    omega

omit hFitting in
theorem grow
    {results : List ToolResultRecord}
    {w' : World}
    (hJudged :
      JudgedResults engine context skill start results w)
    (hGrown : w.ledger.length ≤ w'.ledger.length) :
    JudgedResults engine context skill start results w' where
  closed := hJudged.closed
  later := hJudged.later.trans hGrown
  recorded := by
    intro hSome
    exact Nat.lt_of_lt_of_le (hJudged.recorded hSome) hGrown

theorem skipBlockedNodes
    {nodes : List ToolNode}
    {changed : Bool}
    (hJudged :
      JudgedResults engine context skill start
        state.newResults w) :
    Safe M P
      (fun next w' =>
        JudgedResults engine context skill start
          next.1.newResults w')
      (fun _ _ => True)
      (skipBlockedNodes graph nodes state changed) w := by
  induction nodes generalizing state changed w with
  | nil => exact hJudged
  | cons node rest ih =>
      unfold RainEngine.skipBlockedNodes
      split
      · exact ih hJudged
      · split
        · exact ih hJudged
        · refine Safe.bind (hFitting.safe_checkpoint ?_) ?_
          · intro _ hStatus
            cases hStatus
          · intro _ w' hGrown
            apply ih
            apply record hJudged _ hGrown
            intro _ hOk
            cases hOk

theorem prepareWave
    {step : Nat}
    {nodes : List ToolNode}
    {tasks : List ToolTask}
    (hTasks :
      ∀ task ∈ tasks,
        JudgedTask engine context skill state.attempts task)
    (hJudged :
      JudgedResults engine context skill start
        state.newResults w) :
    Safe M P
      (fun next w' =>
        JudgedResults engine context skill start
          next.1.newResults w' ∧
          ∀ task ∈ next.2,
            JudgedTask engine context skill next.1.attempts
              task)
      (fun _ _ => True)
      (prepareWave engine context graph step nodes state
        tasks) w := by
  induction nodes generalizing state tasks w with
  | nil => exact ⟨hJudged, hTasks⟩
  | cons node rest ih =>
      unfold RainEngine.prepareWave
      refine Safe.bind hFitting.safe_prepareNode ?_
      intro r w' hPrepared
      obtain ⟨prepared, attempts⟩ := r
      obtain ⟨⟨hTries, hFor⟩, hGrown⟩ := hPrepared
      have hKept :
          ∀ task ∈ tasks,
            JudgedTask engine context skill attempts task := by
        intro task hMem
        refine ⟨(hTasks task hMem).closed, ?_⟩
        intro result hResult
        exact hTries.kept _
          ((hTasks task hMem).attempted result hResult)
      cases hFor with
      | @executable call hCall =>
          refine Safe.bind (hFitting.safe_uses
            (fits_runPreparedCall hCall)) ?_
          intro task w'' hTask
          apply ih
          · intro other hMem
            cases List.mem_append.mp hMem with
            | inl hOld => exact hKept other hOld
            | inr hLast =>
                rw [List.mem_singleton] at hLast
                subst hLast
                constructor
                · intro result hResult hSkill hOk hBroken
                  have hReports := hTask.1 result hResult
                  obtain ⟨registered, hGates, _⟩ :=
                    hReports.attempted hOk
                  have hClosed := hGates.breakerClosed
                  rw [← hReports.skillName, hSkill] at hClosed
                  exact absurd (hClosed.symm.trans hBroken)
                    (by decide)
                · intro result hResult
                  have hReports := hTask.1 result hResult
                  have hAttempted := hTries.started call rfl
                  rw [hCall.callId] at hAttempted
                  rw [hReports.callId]
                  exact hAttempted
          · exact grow hJudged
              (by have hLater := hTask.2; omega)
      | @immediate kind message hKind hRejected =>
          apply ih hKept
          apply record hJudged _ hGrown
          intro _ hOk
          cases hOk

theorem joinTasks
    {tasks : List ToolTask}
    (hTasks :
      ∀ task ∈ tasks,
        JudgedTask engine context skill state.attempts task)
    (hJudged :
      JudgedResults engine context skill start
        state.newResults w) :
    Safe M P
      (fun next w' =>
        JudgedResults engine context skill start
          next.newResults w')
      (fun _ _ => True) (joinTasks graph tasks state) w := by
  induction tasks generalizing state w with
  | nil => exact hJudged
  | cons task rest ih =>
      have hRest :
          ∀ t ∈ rest,
            JudgedTask engine context skill state.attempts
              t := by
        intro t hMem
        exact hTasks t (List.mem_cons_of_mem _ hMem)
      have hTask := hTasks task List.mem_cons_self
      cases task with
      | error joinError => trivial
      | ok result =>
          unfold RainEngine.joinTasks
          split
          · exact ih hRest hJudged
          · rename_i found hFound
            have hId : found.callId = result.callId := by
              simpa using List.find?_some hFound
            refine Safe.bind (hFitting.safe_checkpoint ?_) ?_
            · intro _ _ hZero _
              have hAttempted := hTask.attempted result rfl
              rw [← hId] at hAttempted
              unfold Attempted at hAttempted
              cases hFirst : state.attempts found.callId with
              | none =>
                  rw [hFirst] at hZero
                  cases hZero
              | some attempt =>
                  rw [hFirst] at hZero hAttempted
                  have hNone : attempt = 0 := hZero
                  rw [hNone] at hAttempted
                  exact absurd rfl hAttempted
            · intro _ w' hGrown
              apply ih
              · exact hRest
              · exact record hJudged (hTask.closed result rfl)
                  hGrown

theorem runGraph
    {step fuel : Nat}
    (hJudged :
      JudgedResults engine context skill start
        state.newResults w) :
    Safe M P
      (fun final w' =>
        JudgedResults engine context skill start
          final.newResults w')
      (fun _ _ => True)
      (runGraph engine context graph step fuel state) w := by
  induction fuel generalizing state w with
  | zero =>
      refine ⟨hFitting.fits w _ trivial, ?_⟩
      intro answer
      cases answer
  | succ fuel ih =>
      unfold RainEngine.runGraph
      refine Safe.bind (hFitting.skipBlockedNodes hJudged) ?_
      intro next w hNext
      obtain ⟨skipState, skipped⟩ := next
      dsimp only at hNext ⊢
      split
      · split
        · exact ih hNext
        · exact hNext
      · have hNoTasks :
            ∀ task ∈ ([] : List ToolTask),
              JudgedTask engine context skill
                skipState.attempts task := by
          simp
        refine Safe.bind
          (hFitting.prepareWave hNoTasks hNext) ?_
        intro wave w hWave
        obtain ⟨waveState, tasks⟩ := wave
        rw [Safe.bind_iff, safe_perform]
        refine ⟨hFitting.fits w _ trivial, ?_⟩
        intro finished hAllowed
        have hPerm : tasks.Perm finished :=
          hFitting.host.allowed _ _ _ hAllowed
        rw [hFitting.host.next]
        refine Safe.bind (hFitting.joinTasks ?_ hWave.1) ?_
        · intro task hMem
          exact hWave.2 task (hPerm.mem_iff.mpr hMem)
        · intro joined w hJoined
          exact ih hJoined

/-
  The results of a batch: the skill has no success while its
  breaker is open, and the batch has appended a record of its
  own unless it has no results.
-/
theorem executePlannedCalls
    {step : Nat}
    {calls : List PlannedSkillCall}
    {approvalOverride : Bool} :
    Safe M P
      (fun execution w' =>
        JudgedResults engine context skill w.ledger.length
          execution.results w')
      (fun _ _ => True)
      (executePlannedCalls engine context step calls
        approvalOverride) w := by
  by_cases hWaits : Waits engine calls approvalOverride
  · have hYes : (!approvalOverride) = true ∧
        approvalCalls engine calls ≠ [] :=
      ⟨by simp [hWaits.1], hWaits.2⟩
    unfold RainEngine.executePlannedCalls
    rw [if_pos hYes, Safe.bind_iff]
    apply hFitting.host.safe_newUuid
      (hFitting.fits w _ trivial)
    intro token _
    exact ⟨by simp [BatchExecution.results],
      Nat.le_refl _, fun hSome => absurd rfl hSome⟩
  · rw [executePlannedCalls_eq hWaits]
    refine Safe.bind (hFitting.safe_uses fits_storeGraph) ?_
    intro _ w' hStored
    unfold executeGraph
    rw [Program.bind_assoc]
    have hNothing :
        JudgedResults engine context skill w.ledger.length
          [] w' :=
      ⟨by simp, hStored.2, fun hSome => absurd rfl hSome⟩
    refine Safe.bind (hFitting.runGraph hNothing) ?_
    intro final w'' hFinal
    have hSub :
        ∀ result ∈ orderedResults
            (existingOrNewGraph context step calls)
            final.newResults,
          result ∈ final.newResults := by
      intro result hMem
      obtain ⟨node, _, hFound⟩ := List.mem_filterMap.mp hMem
      exact List.mem_of_find?_eq_some hFound
    constructor
    · intro result hMem
      exact hFinal.closed result (hSub result hMem)
    · exact hFinal.later
    · intro hSome
      apply hFinal.recorded
      intro hNone
      apply hSome
      apply List.eq_nil_iff_forall_not_mem.mpr
      intro result hMem
      have hNew := hSub result hMem
      rw [hNone] at hNew
      cases hNew

end Fitting

end RainEngine
