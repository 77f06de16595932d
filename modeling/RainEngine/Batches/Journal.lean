import RainEngine.Advances.Assertions
import RainEngine.Batches.Settlement

/-
  This file defines the machine that only remembers what has
  been appended since an execution began. What is proved of a
  batch on it holds of the batch on every host and ledger.

  Key definitions include:
    * `journal`
    * `PreparesAs`

  Key theorems include:
    * `safe_of_journal`
    * `PreparesAs.prepareNode`
-/

namespace RainEngine

open Effects

------------------------------------------------------------
-- The Journal
------------------------------------------------------------

/- What a journal needs to know of an answer. -/
def journalAllowed : (op : Op) → Answer op → Prop
| .completions tasks, a => tasks.Perm a
| _, _ => True

/- The records appended since an execution began. -/
def journal : Machine Op Answer (List SessionRecord) where
  allowed _ op a := journalAllowed op a
  next added op a := added ++ (storedBy op a).toList

section Journal

variable {P : List SessionRecord → Op → Prop}
variable {R : EngineError → List SessionRecord → Prop}
variable {added : List SessionRecord}

/-
  What holds on the journal holds of what a host appends to
  the records of a base.
-/
theorem safe_of_journal
    {α : Type}
    {M : Machine Op Answer World}
    {p : EngineM α}
    {Q : α → List SessionRecord → Prop}
    {base : List SessionRecord}
    {w : World}
    (hHost : OnHost M)
    (hLedger : w.ledger = base ++ added)
    (hSafe : Safe journal P Q R p added) :
    Safe M
      (fun w' op => ∃ added,
        w'.ledger = base ++ added ∧ P added op)
      (fun a w' => ∃ added,
        w'.ledger = base ++ added ∧ Q a added)
      (fun e w' => ∃ added,
        w'.ledger = base ++ added ∧ R e added) p w := by
  refine hSafe.simulate
    (fun (w' : World) added => w'.ledger = base ++ added)
    ?_ hLedger
  intro w' added op a hLedger hAllowed
  refine ⟨?_, ?_⟩
  · cases op with
    | completions tasks => exact hHost.allowed _ _ _ hAllowed
    | _ => trivial
  · rw [hHost.next, hostNext_stored, hLedger,
      List.append_assoc]
    rfl

theorem journal_append
    {Q : Except MemoryError Unit → List SessionRecord → Prop}
    {record : SessionRecord}
    (hRequest : P added (.append record))
    (hStored : Q (.ok ()) (added ++ [record]))
    (hFailed : ∀ error, Q (.error error) added) :
    Safe journal P Q R (append record) added := by
  refine ⟨hRequest, ?_⟩
  intro a _
  cases a with
  | ok _ => exact hStored
  | error error =>
      change Q (.error error) (added ++ [])
      rw [List.append_nil]
      exact hFailed error

theorem journal_appendOrFail
    {Q : Unit → List SessionRecord → Prop}
    {record : SessionRecord}
    (hRequest : P added (.append record))
    (hStored : Q () (added ++ [record]))
    (hFailed : ∀ e, R e added) :
    Safe journal P Q R (appendOrFail record) added := by
  unfold appendOrFail
  rw [Safe.bind_iff]
  apply journal_append hRequest hStored
  intro error
  exact hFailed _

theorem journal_newUuid
    {Q : String → List SessionRecord → Prop}
    (hRequest : P added .newUuid)
    (hIssued : ∀ uuid, Q uuid added) :
    Safe journal P Q R newUuid added := by
  refine ⟨hRequest, ?_⟩
  intro uuid _
  change Q uuid (added ++ [])
  rw [List.append_nil]
  exact hIssued uuid

theorem journal_checkpoint
    {Q : Unit → List SessionRecord → Prop}
    {graph : ToolExecutionGraph}
    {node : ToolNode}
    {status : ToolNodeStatus}
    {attempt : Nat}
    {detail : Option String}
    (hUuid : P added .newUuid)
    (hFailed : ∀ e, R e added)
    (hCheckpoint : ∀ checkpoint : ToolNodeCheckpointRecord,
      checkpoint.graphId = graph.graphId →
        checkpoint.callId = node.callId →
          checkpoint.skillName = node.skillName →
            checkpoint.status = status →
              P added
                  (.append (.toolNodeCheckpoint checkpoint)) ∧
                Q ()
                  (added ++ [.toolNodeCheckpoint checkpoint])) :
    Safe journal P Q R
      (appendToolCheckpoint graph node status attempt detail)
      added := by
  unfold appendToolCheckpoint
  rw [Safe.bind_iff]
  apply journal_newUuid hUuid
  intro uuid
  have hRecord := hCheckpoint
    { checkpointId := uuid
      graphId := graph.graphId
      callId := node.callId
      skillName := node.skillName
      step := graph.step
      status := status
      attempt := attempt
      detail := detail } rfl rfl rfl rfl
  exact journal_appendOrFail hRecord.1 hRecord.2 hFailed

end Journal

------------------------------------------------------------
-- Preparing A Node
------------------------------------------------------------

/-
  What a node may leave in the journal while it is prepared:
  `waiting` before it is decided, then `started` or `failed`.
-/
structure PreparesAs
    (P : List SessionRecord → Op → Prop)
    (graph : ToolExecutionGraph)
    (node : ToolNode)
    (waiting started failed : List SessionRecord → Prop) :
    Prop where
  uuid : ∀ added, waiting added → P added .newUuid
  validation :
    ∀ added record, waiting added →
      P added (.append (.skillInputValidation record)) ∧
        waiting (added ++ [.skillInputValidation record])
  validated :
    ∀ added checkpoint, waiting added →
      checkpoint.graphId = graph.graphId →
        checkpoint.callId = node.callId →
          checkpoint.status = .validated →
            P added
                (.append (.toolNodeCheckpoint checkpoint)) ∧
              waiting
                (added ++ [.toolNodeCheckpoint checkpoint])
  starts :
    ∀ added checkpoint, waiting added →
      checkpoint.graphId = graph.graphId →
        checkpoint.callId = node.callId →
          checkpoint.status = .started →
            P added
                (.append (.toolNodeCheckpoint checkpoint)) ∧
              started
                (added ++ [.toolNodeCheckpoint checkpoint])
  calls :
    ∀ added record, started added →
      P added (.append (.toolCall record)) ∧
        started (added ++ [.toolCall record])
  fails :
    ∀ added checkpoint, waiting added →
      checkpoint.graphId = graph.graphId →
        checkpoint.callId = node.callId →
          checkpoint.status = .failed →
            P added
                (.append (.toolNodeCheckpoint checkpoint)) ∧
              failed
                (added ++ [.toolNodeCheckpoint checkpoint])

/- Where a prepared node leaves the journal. -/
def Prepared
    (started failed : List SessionRecord → Prop)
    (prepared : PreparedNode)
    (added : List SessionRecord) :
    Prop :=
  match prepared with
  | .executable _ => started added
  | .immediate _ => failed added

namespace PreparesAs

variable {engine : AgentEngine}
variable {context : AgentContext}
variable {graph : ToolExecutionGraph}
variable {node : ToolNode}
variable {P : List SessionRecord → Op → Prop}
variable {waiting started failed : List SessionRecord → Prop}
variable {added : List SessionRecord}
variable (hPrepares :
  PreparesAs P graph node waiting started failed)

include hPrepares

theorem rejectNode
    {kind : SkillFailureKind}
    {message : String}
    (hWaiting : waiting added) :
    Safe journal P (Prepared started failed)
      (fun _ _ => True) (rejectNode graph node kind message)
      added := by
  unfold RainEngine.rejectNode
  rw [Safe.bind_iff]
  apply journal_checkpoint (hPrepares.uuid _ hWaiting)
    (fun _ => trivial)
  intro checkpoint hGraph hCall _ hStatus
  exact hPrepares.fails _ _ hWaiting hGraph hCall hStatus

theorem startNode
    {skill : RegisteredSkill}
    {step attempt : Nat}
    (hWaiting : waiting added) :
    Safe journal P (Prepared started failed)
      (fun _ _ => True)
      (startNode context graph node skill step attempt)
      added := by
  unfold RainEngine.startNode
  rw [Safe.bind_iff]
  apply journal_checkpoint (hPrepares.uuid _ hWaiting)
    (fun _ => trivial)
  intro checkpoint hGraph hCall _ hStatus
  have hStarts := hPrepares.starts _ _ hWaiting hGraph hCall
    hStatus
  refine ⟨hStarts.1, ?_⟩
  rw [Safe.bind_iff]
  have hCalls := hPrepares.calls _
    { callId := node.callId
      step := step
      skillName := skill.manifest.name
      args := node.args
      backendKind := skill.backend.kind } hStarts.2
  exact journal_appendOrFail hCalls.1 hCalls.2
    fun _ => trivial

theorem guardNode
    {skill : RegisteredSkill}
    {step : Nat}
    {attempts : AttemptMap}
    (hWaiting : waiting added) :
    Safe journal P
      (fun r added' => Prepared started failed r.1 added')
      (fun _ _ => True)
      (guardNode engine context graph node skill step
        attempts) added := by
  unfold RainEngine.guardNode
  rw [Safe.bind_iff]
  apply journal_checkpoint (hPrepares.uuid _ hWaiting)
    (fun _ => trivial)
  intro checkpoint hGraph hCall _ hStatus
  have hValidated := hPrepares.validated _ _ hWaiting hGraph
    hCall hStatus
  refine ⟨hValidated.1, ?_⟩
  split
  · rw [Safe.bind_iff]
    exact hPrepares.rejectNode hValidated.2
  · split
    · rw [Safe.bind_iff]
      exact hPrepares.rejectNode hValidated.2
    · split
      · rw [Safe.bind_iff]
        exact hPrepares.rejectNode hValidated.2
      · split
        · rw [Safe.bind_iff]
          exact hPrepares.rejectNode hValidated.2
        · rw [Safe.bind_iff]
          exact hPrepares.startNode hValidated.2

/- Preparing a node decides it. -/
theorem prepareNode
    {step : Nat}
    {attempts : AttemptMap}
    (hWaiting : waiting added) :
    Safe journal P
      (fun r added' => Prepared started failed r.1 added')
      (fun _ _ => True)
      (prepareNode engine context graph node step attempts)
      added := by
  have hValidation : ∀ {Q : Unit → List SessionRecord → Prop}
      valid errors,
      (∀ added', waiting added' → Q () added') →
        Safe journal P Q (fun _ _ => True)
          (appendValidation graph node valid errors)
          added := by
    intro Q valid errors hNext
    unfold appendValidation
    rw [Safe.bind_iff]
    apply journal_newUuid (hPrepares.uuid _ hWaiting)
    intro uuid
    have hRecord := hPrepares.validation added
      { validationId := uuid
        graphId := graph.graphId
        callId := node.callId
        skillName := node.skillName
        valid := valid
        errors := errors } hWaiting
    exact journal_appendOrFail hRecord.1 (hNext _ hRecord.2)
      fun _ => trivial
  unfold RainEngine.prepareNode
  split
  · rw [Safe.bind_iff]
    apply hValidation
    intro added' hWaiting
    rw [Safe.bind_iff]
    exact hPrepares.rejectNode hWaiting
  · split
    · rw [Safe.bind_iff]
      apply hValidation
      intro added' hWaiting
      split
      · rw [Safe.bind_iff]
        exact hPrepares.rejectNode hWaiting
      · exact hPrepares.guardNode hWaiting
    · exact hPrepares.guardNode hWaiting

end PreparesAs

end RainEngine
