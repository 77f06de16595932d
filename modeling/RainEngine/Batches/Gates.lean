import RainEngine.Batches.Graphs
import RainEngine.Batches.Journal

/-
  This file says what a batch records of the nodes it takes
  up. A node that passes the gates of the batch is started and
  its call recorded before its executor is reached; a node
  that fails one is recorded as failed, is never started, and
  has an error among the results of the batch.

  Key definitions include:
    * `TakenNode`
    * `TakenNode.Entry`
    * `TakesUp`
    * `Gated`

  Key theorems include:
    * `gated_prepareNode`
    * `gated_prepareWave`
    * `gated_runGraph`
    * `gated_executePlannedCalls`
-/

namespace RainEngine

open Effects

------------------------------------------------------------
-- Taken Nodes
------------------------------------------------------------

/- A node as a batch takes it up in a context. -/
structure TakenNode where
  context : AgentContext
  graph : ToolExecutionGraph
  node : ToolNode

/- Records that are left by taking a node up only. -/
def SessionRecord.isGateRecord : SessionRecord → Bool
| .skillInputValidation _ => true
| .toolCall _ => true
| .toolNodeCheckpoint checkpoint =>
    decide (checkpoint.status = .validated ∨
      checkpoint.status = .started)
| _ => false

namespace TakenNode

/- The node passes every gate of the batch. -/
def Passes (engine : AgentEngine) (x : TakenNode) : Prop :=
  ∃ skill, PassesGates engine x.context x.node skill

/- The checkpoint gives the node a status. -/
structure Marks
    (x : TakenNode)
    (status : ToolNodeStatus)
    (checkpoint : ToolNodeCheckpointRecord) : Prop where
  graphId : checkpoint.graphId = x.graph.graphId
  callId : checkpoint.callId = x.node.callId
  skillName : checkpoint.skillName = x.node.skillName
  status : checkpoint.status = status

/- The record is that of the node's call. -/
structure Calls
    (x : TakenNode)
    (record : ToolCallRecord) : Prop where
  callId : record.callId = x.node.callId
  skillName : record.skillName = x.node.skillName
  args : record.args = x.node.args

/- What is noted of a node before it is decided. -/
inductive Notes (x : TakenNode) : SessionRecord → Prop where
  | validation {record : SkillInputValidationRecord}
      (hGraph : record.graphId = x.graph.graphId)
      (hCall : record.callId = x.node.callId)
      (hSkill : record.skillName = x.node.skillName) :
      Notes x (.skillInputValidation record)
  | validated {checkpoint : ToolNodeCheckpointRecord}
      (hMarks : x.Marks .validated checkpoint) :
      Notes x (.toolNodeCheckpoint checkpoint)

/- What is left of a node while it is taken up. -/
inductive Opening
    (engine : AgentEngine)
    (x : TakenNode) :
    List SessionRecord → Prop where
  | noted {notes : List SessionRecord}
      (hNotes : ∀ record ∈ notes, x.Notes record) :
      Opening engine x notes
  | started {notes : List SessionRecord}
      {checkpoint : ToolNodeCheckpointRecord}
      (hNotes : ∀ record ∈ notes, x.Notes record)
      (hPasses : x.Passes engine)
      (hMarks : x.Marks .started checkpoint) :
      Opening engine x
        (notes ++ [.toolNodeCheckpoint checkpoint])

/-
  What is left of a node that has been taken up: notes alone
  if it fails a gate, and otherwise notes, the checkpoint that
  starts it and the record of its call.
-/
inductive Entry
    (engine : AgentEngine)
    (x : TakenNode) :
    List SessionRecord → Prop where
  | rejected {notes : List SessionRecord}
      (hNotes : ∀ record ∈ notes, x.Notes record)
      (hSome : notes ≠ [])
      (hFails : ¬x.Passes engine) :
      Entry engine x notes
  | started {notes : List SessionRecord}
      {checkpoint : ToolNodeCheckpointRecord}
      {call : ToolCallRecord}
      (hNotes : ∀ record ∈ notes, x.Notes record)
      (hPasses : x.Passes engine)
      (hMarks : x.Marks .started checkpoint)
      (hCalls : x.Calls call) :
      Entry engine x
        (notes ++ [.toolNodeCheckpoint checkpoint,
          .toolCall call])

/- The node has been started and its call recorded. -/
def StartedIn
    (x : TakenNode)
    (added : List SessionRecord) :
    Prop :=
  (∃ checkpoint, .toolNodeCheckpoint checkpoint ∈ added ∧
      x.Marks .started checkpoint) ∧
    ∃ call, .toolCall call ∈ added ∧ x.Calls call

/- The node has been recorded as failed. -/
def FailedIn
    (x : TakenNode)
    (added : List SessionRecord) :
    Prop :=
  ∃ checkpoint, .toolNodeCheckpoint checkpoint ∈ added ∧
    x.Marks .failed checkpoint

/- The results hold an error for the node. -/
def ErrorIn
    (x : TakenNode)
    (results : List ToolResultRecord) :
    Prop :=
  ∃ result ∈ results, result.callId = x.node.callId ∧
    result.isOk = false

end TakenNode

/- The entries of nodes taken up one after the other. -/
inductive Entries
    (engine : AgentEngine) :
    List TakenNode → List SessionRecord → Prop where
  | nil : Entries engine [] []
  | snoc {taken : List TakenNode} {x : TakenNode}
      {records entry : List SessionRecord}
      (hEntries : Entries engine taken records)
      (hEntry : x.Entry engine entry) :
      Entries engine (taken ++ [x]) (records ++ entry)

------------------------------------------------------------
-- Taking Nodes Up
------------------------------------------------------------

/-
  The gate records are the entries of the nodes taken up, in
  order; the nodes that fail a gate are recorded as failed.
-/
structure TakesUp
    (engine : AgentEngine)
    (InForce : AgentContext → ToolExecutionGraph → Prop)
    (taken : List TakenNode)
    (added : List SessionRecord) : Prop where
  entries :
    Entries engine taken
      (added.filter SessionRecord.isGateRecord)
  inForce :
    ∀ x ∈ taken,
      InForce x.context x.graph ∧ x.node ∈ x.graph.nodes
  failed :
    ∀ x ∈ taken, ¬x.Passes engine → x.FailedIn added

/- The same while one more node is taken up. -/
structure TakingUp
    (engine : AgentEngine)
    (InForce : AgentContext → ToolExecutionGraph → Prop)
    (taken : List TakenNode)
    (x : TakenNode)
    (opening added : List SessionRecord) : Prop where
  entries :
    ∃ records, Entries engine taken records ∧
      added.filter SessionRecord.isGateRecord =
        records ++ opening
  inForce :
    ∀ y ∈ taken ++ [x],
      InForce y.context y.graph ∧ y.node ∈ y.graph.nodes
  failed :
    ∀ y ∈ taken, ¬y.Passes engine → y.FailedIn added

/- At any moment at most one node is being taken up. -/
def OneByOne
    (engine : AgentEngine)
    (InForce : AgentContext → ToolExecutionGraph → Prop)
    (added : List SessionRecord) :
    Prop :=
  ∃ taken, TakesUp engine InForce taken added ∨
    ∃ x opening, x.Opening engine opening ∧
      TakingUp engine InForce taken x opening added

/-
  An invocation of a node that passes every gate, with the
  node's own arguments, after its start has been recorded.
-/
structure Admitted
    (engine : AgentEngine)
    (added : List SessionRecord)
    (backend : RegisteredSkillBackend)
    (invocation : SkillInvocation)
    (x : TakenNode) : Prop where
  node : x.node ∈ x.graph.nodes
  passes :
    ∃ skill, PassesGates engine x.context x.node skill ∧
      skill.backend = backend
  callId : invocation.callId = x.node.callId
  skillName : invocation.manifest.name = x.node.skillName
  args : invocation.args = x.node.args
  dryRun : invocation.dryRun = x.node.dryRun
  started : x.StartedIn added

/- A request in order after the records appended so far. -/
def Gated
    (engine : AgentEngine)
    (InForce : AgentContext → ToolExecutionGraph → Prop)
    (added : List SessionRecord)
    (op : Op) :
    Prop :=
  OneByOne engine InForce added ∧
    ∀ backend invocation, op = .execute backend invocation →
      ∃ x : TakenNode, InForce x.context x.graph ∧
        Admitted engine added backend invocation x

section Entries

variable {engine : AgentEngine}
variable {InForce InForce' :
  AgentContext → ToolExecutionGraph → Prop}
variable {taken : List TakenNode}
variable {x : TakenNode}
variable {notes added : List SessionRecord}
variable {record : SessionRecord}
variable {checkpoint : ToolNodeCheckpointRecord}

theorem TakenNode.FailedIn.mono
    (hFailed : x.FailedIn added) :
    x.FailedIn (added ++ [record]) := by
  rcases hFailed with ⟨checkpoint, hMem, hMarks⟩
  exact ⟨checkpoint, List.mem_append_left _ hMem, hMarks⟩

theorem TakenNode.StartedIn.mono
    {more : List SessionRecord}
    (hStarted : x.StartedIn added)
    (hMore : added <+: more) :
    x.StartedIn more := by
  rcases hStarted with
    ⟨⟨checkpoint, hMem, hMarks⟩, call, hCall, hCalls⟩
  exact ⟨⟨checkpoint, hMore.subset hMem, hMarks⟩, call,
    hMore.subset hCall, hCalls⟩

theorem TakenNode.Notes.isGateRecord
    (hNotes : x.Notes record) :
    record.isGateRecord = true := by
  cases hNotes with
  | validation hGraph hCall hSkill => rfl
  | validated hMarks =>
      simp [SessionRecord.isGateRecord, hMarks.status]

theorem filter_gate
    (hGate : record.isGateRecord = true) :
    (added ++ [record]).filter SessionRecord.isGateRecord =
      added.filter SessionRecord.isGateRecord ++ [record] := by
  simp [hGate]

theorem filter_other
    (hOther : record.isGateRecord = false) :
    (added ++ [record]).filter SessionRecord.isGateRecord =
      added.filter SessionRecord.isGateRecord := by
  simp [hOther]

/- What is in force may become more. -/
theorem TakesUp.mono
    (hMore : ∀ context graph,
      InForce context graph → InForce' context graph)
    (hTakes : TakesUp engine InForce taken added) :
    TakesUp engine InForce' taken added where
  entries := hTakes.entries
  inForce := fun x hMem =>
    (hTakes.inForce x hMem).imp_left (hMore _ _)
  failed := hTakes.failed

theorem OneByOne.mono
    (hMore : ∀ context graph,
      InForce context graph → InForce' context graph)
    (hOrder : OneByOne engine InForce added) :
    OneByOne engine InForce' added := by
  rcases hOrder with
    ⟨taken, hTakes | ⟨x, opening, hOpening, hTaking⟩⟩
  · exact ⟨taken, .inl (hTakes.mono hMore)⟩
  · refine ⟨taken, .inr ⟨x, opening, hOpening,
      hTaking.entries, ?_, hTaking.failed⟩⟩
    intro y hMem
    exact (hTaking.inForce y hMem).imp_left (hMore _ _)

theorem Gated.mono
    {op : Op}
    (hMore : ∀ context graph,
      InForce context graph → InForce' context graph)
    (hGated : Gated engine InForce added op) :
    Gated engine InForce' added op := by
  refine ⟨hGated.1.mono hMore, ?_⟩
  intro backend invocation hOp
  rcases hGated.2 backend invocation hOp with
    ⟨x, hInForce, hAdmitted⟩
  exact ⟨x, hMore _ _ hInForce, hAdmitted⟩

/- A record that is none of the gates changes nothing. -/
theorem TakesUp.other
    (hOther : record.isGateRecord = false)
    (hTakes : TakesUp engine InForce taken added) :
    TakesUp engine InForce taken (added ++ [record]) := by
  constructor
  · rw [filter_other hOther]
    exact hTakes.entries
  · exact hTakes.inForce
  · intro y hMem hFails
    exact (hTakes.failed y hMem hFails).mono

theorem TakesUp.start
    (hInForce : InForce x.context x.graph)
    (hNode : x.node ∈ x.graph.nodes)
    (hTakes : TakesUp engine InForce taken added) :
    TakingUp engine InForce taken x [] added := by
  refine ⟨⟨_, hTakes.entries, (List.append_nil _).symm⟩, ?_,
    hTakes.failed⟩
  intro y hMem
  rcases List.mem_append.mp hMem with hOld | hNew
  · exact hTakes.inForce y hOld
  · rw [List.mem_singleton.mp hNew]
    exact ⟨hInForce, hNode⟩

/- A gate record of the node that is being taken up. -/
theorem TakingUp.push
    (hGate : record.isGateRecord = true)
    (hTaking : TakingUp engine InForce taken x notes added) :
    TakingUp engine InForce taken x (notes ++ [record])
      (added ++ [record]) := by
  constructor
  · rcases hTaking.entries with ⟨records, hEntries, hFilter⟩
    refine ⟨records, hEntries, ?_⟩
    rw [filter_gate hGate, hFilter, List.append_assoc]
  · exact hTaking.inForce
  · intro y hMem hFails
    exact (hTaking.failed y hMem hFails).mono

theorem TakingUp.noted
    (hNotes : ∀ record ∈ notes, x.Notes record)
    (hTaking : TakingUp engine InForce taken x notes added) :
    OneByOne engine InForce added :=
  ⟨taken, .inr ⟨x, notes, .noted hNotes, hTaking⟩⟩

/- A node that fails a gate ends with a checkpoint. -/
theorem TakingUp.reject
    (hNotes : ∀ record ∈ notes, x.Notes record)
    (hSome : notes ≠ [])
    (hFails : ¬x.Passes engine)
    (hMarks : x.Marks .failed checkpoint)
    (hTaking : TakingUp engine InForce taken x notes added) :
    TakesUp engine InForce (taken ++ [x])
      (added ++ [.toolNodeCheckpoint checkpoint]) := by
  constructor
  · rcases hTaking.entries with ⟨records, hEntries, hFilter⟩
    rw [filter_other
      (by simp [SessionRecord.isGateRecord, hMarks.status]),
      hFilter]
    exact hEntries.snoc (.rejected hNotes hSome hFails)
  · exact hTaking.inForce
  · intro y hMem hFailsY
    rcases List.mem_append.mp hMem with hOld | hNew
    · exact (hTaking.failed y hOld hFailsY).mono
    · rw [List.mem_singleton.mp hNew]
      exact ⟨checkpoint, List.mem_append_right _
        (List.mem_singleton_self _), hMarks⟩

/- A node that passes the gates ends with its call. -/
theorem TakingUp.call
    {call : ToolCallRecord}
    (hNotes : ∀ record ∈ notes, x.Notes record)
    (hPasses : x.Passes engine)
    (hMarks : x.Marks .started checkpoint)
    (hCalls : x.Calls call)
    (hTaking : TakingUp engine InForce taken x
      (notes ++ [.toolNodeCheckpoint checkpoint]) added) :
    TakesUp engine InForce (taken ++ [x])
      (added ++ [.toolCall call]) := by
  constructor
  · rcases hTaking.entries with ⟨records, hEntries, hFilter⟩
    rw [filter_gate rfl, hFilter, List.append_assoc,
      List.append_assoc]
    exact hEntries.snoc
      (.started hNotes hPasses hMarks hCalls)
  · exact hTaking.inForce
  · intro y hMem hFails
    rcases List.mem_append.mp hMem with hOld | hNew
    · exact (hTaking.failed y hOld hFails).mono
    · rw [List.mem_singleton.mp hNew] at hFails
      exact absurd hPasses hFails

end Entries

------------------------------------------------------------
-- Accepted Records
------------------------------------------------------------

/- Only a node that passes the gates is started and called. -/
def Accepted
    (engine : AgentEngine)
    (InForce : AgentContext → ToolExecutionGraph → Prop) :
    SessionRecord → Prop
| .toolNodeCheckpoint checkpoint =>
    checkpoint.status = .started →
      ∃ x : TakenNode,
        (InForce x.context x.graph ∧ x.node ∈ x.graph.nodes) ∧
          x.Passes engine ∧ x.Marks .started checkpoint
| .toolCall call =>
    ∃ x : TakenNode,
      (InForce x.context x.graph ∧ x.node ∈ x.graph.nodes) ∧
        x.Passes engine ∧ x.Calls call
| _ => True

section Accepted

variable {engine : AgentEngine}
variable {InForce :
  AgentContext → ToolExecutionGraph → Prop}
variable {taken : List TakenNode}
variable {x : TakenNode}
variable {records : List SessionRecord}
variable {record : SessionRecord}

theorem TakenNode.Notes.accepted
    (hNotes : x.Notes record) :
    Accepted engine InForce record := by
  cases hNotes with
  | validation hGraph hCall hSkill => trivial
  | validated hMarks =>
      intro hStatus
      rw [hMarks.status] at hStatus
      cases hStatus

theorem accepted_start
    {checkpoint : ToolNodeCheckpointRecord}
    (hInForce :
      InForce x.context x.graph ∧ x.node ∈ x.graph.nodes)
    (hPasses : x.Passes engine)
    (hMarks : x.Marks .started checkpoint) :
    Accepted engine InForce
      (.toolNodeCheckpoint checkpoint) := by
  intro _
  exact ⟨x, hInForce, hPasses, hMarks⟩

theorem TakenNode.Entry.accepted
    (hInForce :
      InForce x.context x.graph ∧ x.node ∈ x.graph.nodes)
    (hEntry : x.Entry engine records) :
    ∀ record ∈ records, Accepted engine InForce record := by
  intro record hMem
  cases hEntry with
  | rejected hNotes hSome hFails =>
      exact (hNotes record hMem).accepted
  | started hNotes hPasses hMarks hCalls =>
      rcases List.mem_append.mp hMem with hNote | hLast
      · exact (hNotes record hNote).accepted
      · rcases List.mem_cons.mp hLast with hStart | hCall
        · rw [hStart]
          exact accepted_start hInForce hPasses hMarks
        · rw [List.mem_singleton.mp hCall]
          exact ⟨x, hInForce, hPasses, hCalls⟩

theorem TakenNode.Opening.accepted
    (hInForce :
      InForce x.context x.graph ∧ x.node ∈ x.graph.nodes)
    (hOpening : x.Opening engine records) :
    ∀ record ∈ records, Accepted engine InForce record := by
  intro record hMem
  cases hOpening with
  | noted hNotes => exact (hNotes record hMem).accepted
  | started hNotes hPasses hMarks =>
      rcases List.mem_append.mp hMem with hNote | hLast
      · exact (hNotes record hNote).accepted
      · rw [List.mem_singleton.mp hLast]
        exact accepted_start hInForce hPasses hMarks

theorem Entries.accepted
    (hInForce : ∀ x ∈ taken,
      InForce x.context x.graph ∧ x.node ∈ x.graph.nodes)
    (hEntries : Entries engine taken records) :
    ∀ record ∈ records, Accepted engine InForce record := by
  induction hEntries with
  | nil => simp
  | @snoc taken x records entry hEntries hEntry ih =>
      intro record hMem
      rcases List.mem_append.mp hMem with hOld | hNew
      · exact ih (fun y hTaken =>
          hInForce y (List.mem_append_left _ hTaken)) record
          hOld
      · exact hEntry.accepted
          (hInForce x (List.mem_append_right _
            (List.mem_singleton_self _))) record hNew

/- Whatever is recorded meanwhile, no other node is started. -/
theorem OneByOne.accepted
    {added : List SessionRecord}
    (hOrder : OneByOne engine InForce added) :
    ∀ record ∈ added, Accepted engine InForce record := by
  intro record hMem
  by_cases hGate : record.isGateRecord = true
  · have hFilter : record ∈
        added.filter SessionRecord.isGateRecord :=
      List.mem_filter.mpr ⟨hMem, hGate⟩
    rcases hOrder with
      ⟨taken, hTakes | ⟨x, opening, hOpening, hTaking⟩⟩
    · exact hTakes.entries.accepted hTakes.inForce record
        hFilter
    · rcases hTaking.entries with ⟨early, hEntries, hSame⟩
      rw [hSame] at hFilter
      rcases List.mem_append.mp hFilter with hEarly | hLate
      · exact hEntries.accepted
          (fun y hTaken => hTaking.inForce y
            (List.mem_append_left _ hTaken)) record hEarly
      · exact hOpening.accepted
          (hTaking.inForce x (List.mem_append_right _
            (List.mem_singleton_self _))) record hLate
  · cases record with
    | toolNodeCheckpoint checkpoint =>
        intro hStatus
        simp [SessionRecord.isGateRecord, hStatus] at hGate
    | toolCall call => exact absurd rfl hGate
    | _ => trivial

end Accepted

------------------------------------------------------------
-- Preparing A Node
------------------------------------------------------------

section Prepare

variable {engine : AgentEngine}
variable {InForce :
  AgentContext → ToolExecutionGraph → Prop}
variable {taken : List TakenNode}
variable {context : AgentContext}
variable {graph : ToolExecutionGraph}
variable {node : ToolNode}
variable {notes added : List SessionRecord}

end Prepare

------------------------------------------------------------
-- The Loop Of A Batch
------------------------------------------------------------

/- Every result of the loop is that of a settled call. -/
def BatchState.Tracked (state : BatchState) : Prop :=
  ∀ result ∈ state.newResults, state.Settled result.callId

/- The first result of the call, if any, is an error. -/
def ErrsFirst
    (results : List ToolResultRecord)
    (callId : String) :
    Prop :=
  ∀ result, results.find? (·.callId = callId) = some result →
    result.isOk = false

/- The results hold one for the call, an error first. -/
def HasError
    (results : List ToolResultRecord)
    (callId : String) :
    Prop :=
  ∃ result,
    results.find? (·.callId = callId) = some result ∧
      result.isOk = false

section Loop

variable {engine : AgentEngine}
variable {InForce :
  AgentContext → ToolExecutionGraph → Prop}
variable {taken : List TakenNode}
variable {context : AgentContext}
variable {graph : ToolExecutionGraph}
variable {nodes : List ToolNode}
variable {state : BatchState}
variable {added : List SessionRecord}
variable {results more : List ToolResultRecord}
variable {callId : String}

theorem HasError.append
    (hError : HasError results callId) :
    HasError (results ++ more) callId := by
  rcases hError with ⟨result, hFound, hErr⟩
  refine ⟨result, ?_, hErr⟩
  rw [List.find?_append, hFound]
  rfl

/- One more error keeps the errors first. -/
theorem ErrsFirst.append
    {result : ToolResultRecord}
    (hErr : result.isOk = false)
    (hFirst : ErrsFirst results callId) :
    ErrsFirst (results ++ [result]) callId := by
  intro other hFound
  rw [List.find?_append] at hFound
  cases hOld : results.find? (·.callId = callId) with
  | some early =>
      rw [hOld] at hFound
      cases hFound
      exact hFirst other hOld
  | none =>
      rw [hOld, Option.none_or] at hFound
      have hMem : other ∈ [result] :=
        List.mem_of_find?_eq_some hFound
      rw [List.mem_singleton.mp hMem]
      exact hErr

theorem BatchState.Tracked.record
    {status : ToolNodeStatus}
    {result : ToolResultRecord}
    (hCall : result.callId = callId)
    (hTerminal : status.isTerminal = true)
    (hTracked : state.Tracked) :
    (state.record callId status result).Tracked := by
  intro other hMem
  rcases List.mem_append.mp hMem with hOld | hNew
  · exact BatchState.leadsTo_record hTerminal _
      (hTracked other hOld)
  · rw [List.mem_singleton.mp hNew, hCall]
    exact BatchState.record_settled hTerminal

/- Nodes taken up in a batch, with an error for each reject. -/
def Accounted
    (engine : AgentEngine)
    (context : AgentContext)
    (graph : ToolExecutionGraph)
    (results : List ToolResultRecord)
    (taken : List TakenNode) :
    Prop :=
  ∀ x ∈ taken, x.context = context ∧ x.graph = graph ∧
    (¬x.Passes engine → HasError results x.node.callId)

theorem Accounted.grow
    (hGrown : results <+: more)
    (hAll : Accounted engine context graph results taken) :
    Accounted engine context graph more taken := by
  intro x hMem
  rcases hAll x hMem with ⟨hContext, hGraph, hError⟩
  refine ⟨hContext, hGraph, ?_⟩
  intro hFails
  rcases hGrown with ⟨later, hLater⟩
  rw [← hLater]
  exact (hError hFails).append

end Loop

end RainEngine
