import RainEngine.Kernel.Tools

/-
  This file reads the status of each call of a graph off a
  list of records: the newest status, and the newest terminal
  one, which settles the call.

  Key definitions include:
    * `settledStatus`
    * `newestStatus`
    * `settled`

  Key theorems include:
    * `latestToolStatuses_eq`
    * `settledStatus_append_terminal`
    * `settledStatus_ne_none_iff`
    * `mem_terminalCallIds_iff`
-/

namespace RainEngine

------------------------------------------------------------
-- Statuses In The Ledger
------------------------------------------------------------

/- The terminal status a record gives to a call. -/
def terminalStatus
    (graphId callId : String) :
    SessionRecord → Option ToolNodeStatus
| .toolNodeCheckpoint checkpoint =>
    if checkpoint.graphId = graphId ∧
        checkpoint.callId = callId ∧
        checkpoint.status.isTerminal then
      some checkpoint.status
    else none
| _ => none

/- The newest terminal status of each call of a graph. -/
def settledStatus
    (graphId : String)
    (records : List SessionRecord) :
    StatusMap :=
  fun callId =>
    records.findSomeRev? (terminalStatus graphId callId)

/- The status a record gives to a call. -/
def checkpointStatus
    (graphId callId : String) :
    SessionRecord → Option ToolNodeStatus
| .toolNodeCheckpoint checkpoint =>
    if checkpoint.graphId = graphId ∧
        checkpoint.callId = callId then
      some checkpoint.status
    else none
| _ => none

/- The newest status of each call of a graph. -/
def newestStatus
    (graphId : String)
    (records : List SessionRecord) :
    StatusMap :=
  fun callId =>
    records.findSomeRev? (checkpointStatus graphId callId)

/- A status, if it is terminal. -/
def settled
    (status : Option ToolNodeStatus) :
    Option ToolNodeStatus :=
  status.filter (·.isTerminal)

theorem settled_eq_some
    {status : Option ToolNodeStatus}
    {terminal : ToolNodeStatus}
    (hSettled : settled status = some terminal) :
    status = some terminal ∧ terminal.isTerminal = true := by
  unfold settled at hSettled
  exact Option.filter_eq_some_iff.mp hSettled

theorem isTerminalStatus_iff
    {status : Option ToolNodeStatus} :
    isTerminalStatus status = true ↔
      settled status ≠ none := by
  cases status with
  | none => simp [isTerminalStatus, settled]
  | some status =>
      cases hTerminal : status.isTerminal <;>
        simp [isTerminalStatus, settled, hTerminal,
          Option.filter]

/- A succeeded status is read off its terminal part. -/
theorem settled_succeeded_iff
    {status : Option ToolNodeStatus} :
    settled status = some .succeeded ↔
      status = some .succeeded := by
  constructor
  · intro hSettled
    exact (settled_eq_some hSettled).1
  · intro hStatus
    subst hStatus
    rfl

theorem findSome?_filterMap
    {α β γ : Type}
    (f : α → Option β)
    (g : β → Option γ)
    (items : List α) :
    (items.filterMap f).findSome? g =
      items.findSome? (fun item => (f item).bind g) := by
  induction items with
  | nil => rfl
  | cons item rest ih =>
      cases hItem : f item with
      | none =>
          rw [List.filterMap_cons_none hItem, ih]
          simp [hItem]
      | some value =>
          rw [List.filterMap_cons_some hItem]
          simp [List.findSome?_cons, hItem, ih]

theorem latestToolStatuses_eq
    (context : AgentContext)
    (graphId : String) :
    latestToolStatuses context graphId =
      newestStatus graphId context.records := by
  funext callId
  unfold latestToolStatuses newestStatus
  rw [List.findSomeRev?_eq_findSome?_reverse,
    List.findSomeRev?_eq_findSome?_reverse,
    ← List.filterMap_reverse, findSome?_filterMap]
  congr 1
  funext record
  cases record <;> rfl

theorem settledStatus_append
    (graphId callId : String)
    (records : List SessionRecord)
    (record : SessionRecord) :
    settledStatus graphId (records ++ [record]) callId =
      (terminalStatus graphId callId record).or
        (settledStatus graphId records callId) := by
  unfold settledStatus
  rw [List.findSomeRev?_eq_findSome?_reverse,
    List.findSomeRev?_eq_findSome?_reverse,
    List.reverse_append]
  simp only [List.reverse_singleton, List.singleton_append,
    List.findSome?_cons]
  cases terminalStatus graphId callId record <;> rfl

theorem newestStatus_append
    (graphId callId : String)
    (records : List SessionRecord)
    (record : SessionRecord) :
    newestStatus graphId (records ++ [record]) callId =
      (checkpointStatus graphId callId record).or
        (newestStatus graphId records callId) := by
  unfold newestStatus
  rw [List.findSomeRev?_eq_findSome?_reverse,
    List.findSomeRev?_eq_findSome?_reverse,
    List.reverse_append]
  simp only [List.reverse_singleton, List.singleton_append,
    List.findSome?_cons]
  cases checkpointStatus graphId callId record <;> rfl

theorem settledStatus_append_other
    {graphId : String}
    {records : List SessionRecord}
    {record : SessionRecord}
    (hOther : record.asToolNodeCheckpoint = none) :
    settledStatus graphId (records ++ [record]) =
      settledStatus graphId records := by
  funext callId
  rw [settledStatus_append]
  cases record with
  | toolNodeCheckpoint checkpoint => cases hOther
  | _ => rfl

/- A checkpoint that is not terminal settles nothing. -/
theorem settledStatus_append_running
    {graphId : String}
    {records : List SessionRecord}
    {checkpoint : ToolNodeCheckpointRecord}
    (hRunning : checkpoint.status.isTerminal = false) :
    settledStatus graphId
        (records ++ [.toolNodeCheckpoint checkpoint]) =
      settledStatus graphId records := by
  funext callId
  rw [settledStatus_append]
  simp [terminalStatus, hRunning]

/- A terminal checkpoint settles its call. -/
theorem settledStatus_append_terminal
    {graphId callId : String}
    {status : ToolNodeStatus}
    {records : List SessionRecord}
    {checkpoint : ToolNodeCheckpointRecord}
    (hGraph : checkpoint.graphId = graphId)
    (hCall : checkpoint.callId = callId)
    (hStatus : checkpoint.status = status)
    (hTerminal : status.isTerminal = true) :
    settledStatus graphId
        (records ++ [.toolNodeCheckpoint checkpoint]) =
      Function.update (settledStatus graphId records)
        callId (some status) := by
  subst hGraph hCall hStatus
  funext other
  rw [settledStatus_append]
  by_cases hOther : other = checkpoint.callId
  · subst hOther
    simp [terminalStatus, hTerminal]
  · have hNe : ¬checkpoint.callId = other :=
      fun h => hOther h.symm
    simp [terminalStatus, hOther, hNe]

theorem settledStatus_ne_none_iff
    {graphId callId : String}
    {records : List SessionRecord} :
    settledStatus graphId records callId ≠ none ↔
      ∃ checkpoint,
        .toolNodeCheckpoint checkpoint ∈ records ∧
          checkpoint.graphId = graphId ∧
          checkpoint.callId = callId ∧
          checkpoint.status.isTerminal = true := by
  unfold settledStatus
  rw [List.findSomeRev?_eq_findSome?_reverse,
    ← Option.isSome_iff_ne_none, List.findSome?_isSome_iff]
  constructor
  · rintro ⟨record, hMem, hSome⟩
    cases record with
    | toolNodeCheckpoint checkpoint =>
        refine ⟨checkpoint, List.mem_reverse.mp hMem, ?_⟩
        by_contra hNo
        simp [terminalStatus, hNo] at hSome
    | _ => cases hSome
  · rintro ⟨checkpoint, hMem, hMatch⟩
    refine ⟨_, List.mem_reverse.mpr hMem, ?_⟩
    simp [terminalStatus, hMatch]

theorem settledStatus_isTerminal
    {graphId callId : String}
    {records : List SessionRecord}
    {status : ToolNodeStatus}
    (hStatus :
      settledStatus graphId records callId = some status) :
    status.isTerminal = true := by
  unfold settledStatus at hStatus
  rw [List.findSomeRev?_eq_findSome?_reverse] at hStatus
  rcases List.exists_of_findSome?_eq_some hStatus with
    ⟨record, _, hRecord⟩
  cases record with
  | toolNodeCheckpoint checkpoint =>
      simp only [terminalStatus] at hRecord
      split at hRecord
      · rename_i hMatch
        cases hRecord
        exact hMatch.2.2
      · cases hRecord
  | _ => cases hRecord

theorem mem_terminalCallIds_iff
    {graphId callId : String}
    {records : List SessionRecord} :
    callId ∈ terminalCallIds graphId records ↔
      settledStatus graphId records callId ≠ none := by
  rw [settledStatus_ne_none_iff]
  unfold terminalCallIds
  rw [List.mem_toFinset]
  simp only [List.mem_filterMap]
  constructor
  · rintro ⟨checkpoint, ⟨record, hMem, hAs⟩, hIf⟩
    cases record with
    | toolNodeCheckpoint _ =>
        cases hAs
        split at hIf
        · rename_i hMatch
          cases hIf
          exact ⟨checkpoint, hMem, hMatch.1, rfl, hMatch.2⟩
        · cases hIf
    | _ => cases hAs
  · rintro ⟨checkpoint, hMem, hGraph, hCall, hTerminal⟩
    refine ⟨checkpoint, ⟨_, hMem, rfl⟩, ?_⟩
    simp [hGraph, hCall, hTerminal]

end RainEngine
