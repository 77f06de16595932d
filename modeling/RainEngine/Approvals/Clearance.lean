import RainEngine.Batches.Graphs
import RainEngine.Sessions.Runs

/-
  This file shows that a call to a guarded skill only reaches
  its executor after a human has approved it. The kernel does
  not ask again when it resumes a graph or a suspended batch;
  what protects those paths is that a graph is only stored
  with its guarded calls approved.

  Key definitions include:
    * `Approved`
    * `Guards`
    * `Cleared`
    * `Permitted`

  Key theorems include:
    * `cleared_next`
    * `source_approved`
    * `clearance_rules`
    * `run_cleared`
-/

namespace RainEngine

open Effects

------------------------------------------------------------
-- Approved Calls
------------------------------------------------------------

/- A human has approved a recorded suspension of the call. -/
def Approved
    (records : List SessionRecord)
    (call : PlannedSkillCall) :
    Prop :=
  ∃ pending resolution,
    .pendingApproval pending ∈ records ∧
    call ∈ pending.pendingCalls ∧
    .approvalResolution resolution ∈ records ∧
    resolution.resumeToken = pending.resumeToken ∧
    resolution.decision = .approved

theorem Approved.mono
    {records more : List SessionRecord}
    {call : PlannedSkillCall}
    (hApproved : Approved records call)
    (hSubset : records ⊆ more) :
    Approved more call := by
  rcases hApproved with
    ⟨pending, resolution, hPending, hCall, hResolution, hRest⟩
  exact ⟨pending, resolution, hSubset hPending, hCall,
    hSubset hResolution, hRest⟩

/- What an executor is invoked with is an approved call. -/
def ApprovedInvocation
    (records : List SessionRecord)
    (invocation : SkillInvocation) :
    Prop :=
  ∃ call, Approved records call ∧
    call.callId = invocation.callId ∧
    call.name = invocation.manifest.name ∧
    call.args = invocation.args ∧
    call.dryRun = invocation.dryRun

/-
  The guarded skills are registered, and each of them asks
  for the approval of a human.
-/
def Guards
    (guarded : String → Prop)
    (engine : AgentEngine) :
    Prop :=
  ∀ name, guarded name →
    ∃ skill, engine.skills.get name = some skill ∧
      skill.backend.requiresHumanApproval = true

------------------------------------------------------------
-- The Invariant
------------------------------------------------------------

/- Apart from outcomes the records are in the ledger. -/
def Backed
    (records : List SessionRecord)
    (w : World) :
    Prop :=
  ∀ record ∈ records,
    record.isOutcome = true ∨ record ∈ w.ledger

/- Every guarded node of the graph has been approved. -/
def GraphApproved
    (guarded : String → Prop)
    (records : List SessionRecord)
    (graph : ToolExecutionGraph) :
    Prop :=
  ∀ node ∈ graph.nodes, guarded node.skillName →
    Approved records node.toCall

/-
  Stored graphs hold approved calls only, as far as they are
  guarded, and the cached projection has been recorded.
-/
structure Cleared
    (guarded : String → Prop)
    (w : World) : Prop where
  graphs :
    ∀ graph ∈ toolGraphs w.ledger,
      GraphApproved guarded w.ledger graph
  cached :
    ∀ cached, w.cache = some cached → Backed cached.records w

/- The executor is that of the skill the manifest names. -/
def Invokes
    (engine : AgentEngine)
    (backend : RegisteredSkillBackend)
    (invocation : SkillInvocation) :
    Prop :=
  ∃ skill,
    engine.skills.get invocation.manifest.name = some skill ∧
      skill.backend = backend

/- The requests that are in order in a cleared world. -/
def Permitted
    (engine : AgentEngine)
    (guarded : String → Prop)
    (w : World) :
    Op → Prop
| .append (.toolExecutionGraph graph) =>
    GraphApproved guarded w.ledger graph
| .setProjection snapshot => Backed snapshot.records w
| .execute backend invocation =>
    Invokes engine backend invocation ∧
      (guarded invocation.manifest.name →
        ApprovedInvocation w.ledger invocation)
| _ => True

section Invariant

variable {engine : AgentEngine}
variable {guarded : String → Prop}
variable {w w' : World}

theorem backed_nil (w : World) : Backed [] w := by
  intro record hMem
  cases hMem

theorem Backed.mono
    {records : List SessionRecord}
    (hBacked : Backed records w)
    (hPrefix : w.ledger <+: w'.ledger) :
    Backed records w' := by
  intro record hMem
  rcases hBacked record hMem with hOutcome | hLedger
  · exact .inl hOutcome
  · exact .inr (hPrefix.subset hLedger)

theorem GraphApproved.mono
    {graph : ToolExecutionGraph}
    {records more : List SessionRecord}
    (hApproved : GraphApproved guarded records graph)
    (hPrefix : records <+: more) :
    GraphApproved guarded more graph :=
  fun node hNode hGuarded =>
    (hApproved node hNode hGuarded).mono hPrefix.subset

/- The cache changes by a cached projection only. -/
theorem hostNext_cache
    (w : World)
    (op : Op)
    (a : Answer op) :
    (hostNext w op a).cache = w.cache ∨
      ∃ snapshot, op = .setProjection snapshot ∧
        (hostNext w op a).cache = some snapshot := by
  cases op with
  | append record => cases a <;> exact .inl rfl
  | setProjection snapshot =>
      cases a with
      | true => exact .inr ⟨snapshot, rfl, rfl⟩
      | false => exact .inl rfl
  | _ => exact .inl rfl

/- Permitted requests keep a world cleared. -/
theorem cleared_next
    {op : Op}
    {a : Answer op}
    (hCleared : Cleared guarded w)
    (hPermitted : Permitted engine guarded w op) :
    Cleared guarded (hostNext w op a) := by
  have hPrefix := hostNext_extends w op a
  constructor
  · intro graph hMem
    refine GraphApproved.mono ?_ hPrefix
    rcases hostNext_ledger w op a with hSame | hAppend
    · rw [hSame] at hMem
      exact hCleared.graphs graph hMem
    · rcases hAppend with ⟨record, hOp, hLedger⟩
      subst hOp
      rw [hLedger, toolGraphs_append] at hMem
      rcases List.mem_append.mp hMem with hOld | hNew
      · exact hCleared.graphs graph hOld
      · rw [mem_toolGraphs, List.mem_singleton] at hNew
        subst hNew
        exact hPermitted
  · intro cached hCached
    refine Backed.mono ?_ hPrefix
    rcases hostNext_cache w op a with hSame | hProject
    · rw [hSame] at hCached
      exact hCleared.cached cached hCached
    · rcases hProject with ⟨snapshot, hOp, hStored⟩
      subst hOp
      rw [hStored] at hCached
      cases hCached
      exact hPermitted

theorem cleared_empty
    (guarded : String → Prop)
    (sessionId : String) :
    Cleared guarded (World.empty sessionId) where
  graphs := nofun
  cached := nofun

end Invariant

------------------------------------------------------------
-- Batches Of A Cleared Session
------------------------------------------------------------

section Batches

variable {guarded : String → Prop}
variable {engine : AgentEngine}
variable {context : AgentContext}
variable {step : Nat}
variable {calls : List PlannedSkillCall}
variable {approvalOverride : Bool}
variable {w : World}

theorem Backed.known
    {record : SessionRecord}
    (hBacked : Backed context.records w)
    (hKnown : Known context w record)
    (hOther : record.isOutcome = false) :
    record ∈ w.ledger := by
  rcases hKnown with hLedger | hContext
  · exact hLedger
  · rcases hBacked record hContext with hOutcome | hLedger
    · rw [hOther] at hOutcome
      cases hOutcome
    · exact hLedger

theorem Backed.toolGraphs
    {graph : ToolExecutionGraph}
    (hBacked : Backed context.records w)
    (hMem : graph ∈ toolGraphs context.records) :
    graph ∈ toolGraphs w.ledger :=
  mem_toolGraphs.mpr
    (hBacked.known (.inr (mem_toolGraphs.mp hMem)) rfl)

/- A batch that need not wait asks for no guarded skill. -/
theorem not_guarded_of_runs
    (hGuards : Guards guarded engine)
    (hRuns : ¬Waits engine calls false) :
    ∀ call ∈ calls, ¬guarded call.name := by
  intro call hCall hGuarded
  rcases hGuards call.name hGuarded with
    ⟨skill, hSkill, hRequires⟩
  have hNone : approvalCalls engine calls = [] := by
    by_contra hSome
    exact hRuns ⟨rfl, hSome⟩
  unfold approvalCalls at hNone
  rw [List.filterMap_eq_nil_iff] at hNone
  have hCallNone := hNone call hCall
  simp [hSkill, hRequires] at hCallNone

theorem activeToolExecutionGraph_mem
    {records : List SessionRecord}
    {graph : ToolExecutionGraph}
    (hActive :
      activeToolExecutionGraph records = some graph) :
    graph ∈ toolGraphs records := by
  unfold activeToolExecutionGraph at hActive
  dsimp only at hActive
  split at hActive
  · cases hActive
  · rename_i found hFound
    rw [List.findSomeRev?_eq_findSome?_reverse] at hFound
    rcases List.exists_of_findSome?_eq_some hFound with
      ⟨record, hMem, hAs⟩
    split at hActive
    · cases hActive
      exact List.mem_filterMap.mpr ⟨record,
        (sinceLastOutcome_suffix _).subset
          (List.mem_reverse.mp hMem), hAs⟩
    · cases hActive

/- The guarded calls of a batch that runs are approved. -/
theorem source_approved
    (hGuards : Guards guarded engine)
    (hCleared : Cleared guarded w)
    (hBacked : Backed context.records w)
    (hSource :
      BatchSource context w step calls approvalOverride)
    (hRuns : ¬Waits engine calls approvalOverride) :
    ∀ call ∈ calls, guarded call.name →
      Approved w.ledger call := by
  intro call hCall hGuarded
  cases hSource with
  | decided _ =>
      exact absurd hGuarded
        (not_guarded_of_runs hGuards hRuns call hCall)
  | due _ _ =>
      exact absurd hGuarded
        (not_guarded_of_runs hGuards hRuns call hCall)
  | @unfinished graph hActive =>
      rcases List.mem_map.mp hCall with ⟨node, hNode, hEq⟩
      subst hEq
      have hStored := hBacked.toolGraphs
        (activeToolExecutionGraph_mem hActive)
      exact hCleared.graphs graph hStored node hNode hGuarded
  | @approved pending resolution hPending hResolution hToken
      hApproved =>
      exact ⟨pending, resolution,
        hBacked.known hPending rfl, hCall,
        hBacked.known hResolution rfl, hToken, hApproved⟩

/- So are the guarded nodes of the graph it runs on. -/
theorem graph_approved
    (hCleared : Cleared guarded w)
    (hBacked : Backed context.records w)
    (hCalls : ∀ call ∈ calls, guarded call.name →
      Approved w.ledger call) :
    GraphApproved guarded w.ledger
      (existingOrNewGraph context step calls) := by
  rcases existingOrNewGraph_cases context step calls with
    ⟨hMem, _⟩ | ⟨hNew, _⟩
  · exact hCleared.graphs _ (hBacked.toolGraphs hMem)
  · intro node hNode hGuarded
    have hCall : node.toCall ∈ calls := by
      have hNodes :
          (newGraph context step calls).nodes.map
            ToolNode.toCall = calls :=
        newGraph_nodes_toCall
      rw [hNew] at hNode
      rw [← hNodes]
      exact List.mem_map_of_mem hNode
    exact hCalls node.toCall hCall hGuarded

/- What a batch asks for on an approved graph is permitted. -/
theorem PlannedRequest.permitted
    {graph : ToolExecutionGraph}
    {op : Op}
    (hApproved : GraphApproved guarded w.ledger graph)
    (hRequest : PlannedRequest engine context graph op) :
    Permitted engine guarded w op := by
  rcases hRequest with hGraph | hFuel | hBatch
  · subst hGraph
    exact hApproved
  · subst hFuel
    trivial
  · cases hBatch with
    | @execute node prepared hNode hPrepared =>
        rcases hPrepared.gates with
          ⟨skill, hGates, hBackend, hManifest, _⟩
        have hName :
            prepared.manifest.name = node.skillName := by
          rw [hManifest]
          have hFound := hGates.registered
          unfold SkillRegistry.get at hFound
          simpa [SkillManifest.withEffectivePolicy] using
            List.find?_some hFound
        have hInvoked :
            prepared.invocation.manifest.name =
              node.skillName :=
          hName
        refine ⟨⟨skill, ?_, hBackend.symm⟩, ?_⟩
        · rw [hInvoked]
          exact hGates.registered
        intro hGuarded
        rw [hInvoked] at hGuarded
        refine ⟨node.toCall,
          hApproved node hNode hGuarded, ?_⟩
        exact ⟨hPrepared.callId.symm, hName.symm,
          hPrepared.args.symm, hPrepared.dryRun.symm⟩
    | _ => trivial

end Batches

------------------------------------------------------------
-- The Rules
------------------------------------------------------------

/- The world is cleared and the copy has been recorded. -/
def ClearedWith
    (guarded : String → Prop)
    (records : List SessionRecord)
    (w : World) :
    Prop :=
  Cleared guarded w ∧ Backed records w

/- The assertions of a cleared session. -/
def clearance
    (engine : AgentEngine)
    (guarded : String → Prop) :
    Assertions where
  holds stage w :=
    match stage with
    | .viewing _ records => ClearedWith guarded records w
    | .acting _ context =>
        ClearedWith guarded context.records w
    | .finished context _ =>
        ClearedWith guarded context.records w
  request w op := Cleared guarded w ∧ Permitted engine guarded w op
  results _ context _ w :=
    ClearedWith guarded context.records w
  returned _ _ := True
  thrown _ := True

section Rules

variable {guarded : String → Prop}
variable {M : Machine Op Answer World}
variable {engine : AgentEngine}
variable {w w' : World}

/- The records of a stage's copy of the ledger. -/
def Stage.records : Stage → List SessionRecord
| .viewing _ records => records
| .acting _ context => context.records
| .finished context _ => context.records

theorem clearance_holds
    {stage : Stage} :
    (clearance engine guarded).holds stage w ↔
      ClearedWith guarded stage.records w := by
  cases stage <;> rfl

/- An appended record that is no graph keeps all of it. -/
theorem ClearedWith.append
    {records : List SessionRecord}
    {record : SessionRecord}
    (hCleared : ClearedWith guarded records w)
    (hOther : record.asToolExecutionGraph = none) :
    ClearedWith guarded records (w.append record) := by
  have hPrefix : w.ledger <+: (w.append record).ledger :=
    List.prefix_append _ _
  refine ⟨⟨?_, ?_⟩, hCleared.2.mono hPrefix⟩
  · intro graph hMem
    refine GraphApproved.mono ?_ hPrefix
    have hAppended :
        graph ∈ toolGraphs (w.ledger ++ [record]) :=
      hMem
    rw [toolGraphs_append] at hAppended
    rcases List.mem_append.mp hAppended with hOld | hNew
    · exact hCleared.1.graphs graph hOld
    · simp [toolGraphs, hOther] at hNew
  · intro cached hCached
    exact (hCleared.1.cached cached hCached).mono hPrefix

/- The copy may take over what has been recorded. -/
theorem ClearedWith.push
    {records : List SessionRecord}
    {record : SessionRecord}
    (hCleared : ClearedWith guarded records w)
    (hRecorded :
      record.isOutcome = true ∨ record ∈ w.ledger) :
    ClearedWith guarded (records ++ [record]) w := by
  refine ⟨hCleared.1, ?_⟩
  intro other hMem
  rcases List.mem_append.mp hMem with hOld | hNew
  · exact hCleared.2 other hOld
  · rw [List.mem_singleton] at hNew
    subst hNew
    exact hRecorded

theorem ClearedWith.appendPush
    {records : List SessionRecord}
    {record : SessionRecord}
    (hCleared : ClearedWith guarded records w)
    (hOther : record.asToolExecutionGraph = none) :
    ClearedWith guarded (records ++ [record])
      (w.append record) :=
  (hCleared.append hOther).push
    (.inr (List.mem_append_right _
      (List.mem_singleton_self _)))

theorem ClearedWith.request
    {records : List SessionRecord}
    {record : SessionRecord}
    (hCleared : ClearedWith guarded records w)
    (hOther : record.asToolExecutionGraph = none) :
    (clearance engine guarded).request w (.append record) := by
  refine ⟨hCleared.1, ?_⟩
  cases record <;> trivial

theorem IsNote.not_graph
    {record : SessionRecord}
    (hNote : IsNote record) :
    record.asToolExecutionGraph = none := by
  cases record <;> first | rfl | exact hNote.elim

/- A batch of a cleared session keeps it cleared. -/
theorem clearance_batch
    {context : AgentContext}
    {step : Nat}
    {calls : List PlannedSkillCall}
    {approvalOverride : Bool}
    (hHost : OnHost M)
    (hGuards : Guards guarded engine)
    (hCleared : ClearedWith guarded context.records w)
    (hSource :
      BatchSource context w step calls approvalOverride) :
    Safe M (clearance engine guarded).request
      (fun _ w' => ClearedWith guarded context.records w')
      (fun _ _ => True)
      (executePlannedCalls engine context step calls
        approvalOverride) w := by
  by_cases hWaits : Waits engine calls approvalOverride
  · have hYes : (!approvalOverride) = true ∧
        approvalCalls engine calls ≠ [] :=
      ⟨by simp [hWaits.1], hWaits.2⟩
    unfold executePlannedCalls
    rw [if_pos hYes, Safe.bind_iff]
    apply hHost.safe_newUuid ⟨hCleared.1, trivial⟩
    intro token _
    exact ⟨⟨hCleared.1.graphs, hCleared.1.cached⟩,
      hCleared.2⟩
  · have hGraph : GraphApproved guarded w.ledger
        (existingOrNewGraph context step calls) :=
      graph_approved hCleared.1 hCleared.2
        (source_approved hGuards hCleared.1 hCleared.2
          hSource hWaits)
    refine Safe.mono (fun _ _ h => h) (fun _ _ h => h.2.1)
      (fun _ _ _ => trivial)
      (Uses.safe
        (I := fun w' =>
          ClearedWith guarded context.records w' ∧
            w.ledger <+: w'.ledger)
        (uses_executePlannedCalls hWaits) ?_ ?_
        ⟨hCleared, List.prefix_refl _⟩)
    · rintro w' op ⟨hKept, hPrefix⟩ hOp
      exact ⟨hKept.1, hOp.permitted (hGraph.mono hPrefix)⟩
    · rintro w' op a ⟨hKept, hPrefix⟩ hOp _
      rw [hHost.next]
      have hNext := hostNext_extends w' op a
      exact ⟨⟨cleared_next hKept.1
          (hOp.permitted (hGraph.mono hPrefix)),
        hKept.2.mono hNext⟩, hPrefix.trans hNext⟩

theorem clearance_rules
    (hHost : OnHost M)
    (hGuards : Guards guarded engine) :
    Rules M engine (clearance engine guarded) where
  quiet := by
    intro stage w op hHolds hQuiet
    rw [clearance_holds] at hHolds
    refine ⟨hHolds.1, ?_⟩
    cases op <;> trivial
  issue := by
    intro stage w uuid hHolds _
    rw [clearance_holds] at hHolds ⊢
    exact ⟨⟨hHolds.1.graphs, hHolds.1.cached⟩, hHolds.2⟩
  lag := by
    intro stage w hHolds
    cases stage <;> exact hHolds
  note := by
    intro stage w record hHolds hNote
    rw [clearance_holds] at hHolds
    exact hHolds.request hNote.not_graph
  noted := by
    intro stage w record hHolds hNote
    rw [clearance_holds] at hHolds
    have hKept := hHolds.append hNote.not_graph
    have hPushed := hHolds.appendPush hNote.not_graph
    cases stage with
    | viewing _ _ => exact ⟨hKept, hKept⟩
    | acting _ _ => exact ⟨hKept, hPushed⟩
    | finished _ _ => exact ⟨hKept, hPushed⟩
  fresh := by
    intro flag records w hHolds
    exact ⟨hHolds.1, fun record hMem => .inr hMem⟩
  stale := by
    intro flag records w hHolds _
    exact hHolds
  summarize := by
    intro flag records w request hHolds
    exact ⟨hHolds.1, trivial⟩
  propose := by
    intro flag records w uuid plan hHolds _ _ _ _
    have hIssued : ClearedWith guarded records (w.issue uuid) :=
      ⟨⟨hHolds.1.graphs, hHolds.1.cached⟩, hHolds.2⟩
    exact ⟨hIssued.request rfl, hIssued.append rfl⟩
  ask := by
    intro context w timeoutMs request hHolds
    exact ⟨hHolds.1, trivial⟩
  planStep := by
    intro context w plan action hHolds _
    exact ⟨ClearedWith.request hHolds rfl,
      ClearedWith.append hHolds rfl⟩
  await := by
    intro ready context w pending hHolds _
    exact ⟨ClearedWith.request hHolds rfl,
      ClearedWith.appendPush hHolds rfl⟩
  resolve := by
    intro context w pending resolution hHolds _ _
    exact ⟨ClearedWith.request hHolds rfl,
      ClearedWith.append hHolds rfl⟩
  reject := by
    intro context w calls hHolds
    exact hHolds
  batch := by
    intro ready context w step calls override hHolds hSource
    refine Safe.mono (fun _ _ h => h) ?_ (fun _ _ h => h)
      (clearance_batch hHost hGuards hHolds hSource)
    intro execution w' hKept
    cases execution <;> exact hKept
  result := by
    intro ready context result rest w hHolds
    exact ⟨ClearedWith.request hHolds rfl,
      ClearedWith.appendPush hHolds rfl⟩
  recorded := by
    intro ready context w hHolds
    exact hHolds
  lostResult := by
    intros
    exact ⟨trivial, trivial⟩
  outcome := by
    intro ready context w outcome hHolds _ _
    exact ⟨ClearedWith.request hHolds rfl,
      ClearedWith.appendPush hHolds rfl⟩
  lostOutcome := by
    intro ready context w outcome hHolds _ _ _
    exact ClearedWith.push hHolds (.inl rfl)
  project := by
    intro context outcome w snapshot hHolds hRecords
    have hBacked : Backed snapshot.records w := by
      rw [hRecords]
      exact hHolds.2
    refine ⟨⟨hHolds.1, hBacked⟩, ⟨hHolds.1.graphs, ?_⟩,
      hHolds.2⟩
    rintro cached ⟨⟩
    exact hBacked
  done := fun _ => trivial
  progress := fun _ => trivial
  failed := fun _ _ => trivial
  thrown := fun _ _ => trivial

end Rules

------------------------------------------------------------
-- Runs
------------------------------------------------------------

section Runs

variable {guarded : String → Prop}
variable {M : Machine Op Answer World}
variable {engine : AgentEngine}
variable {w w' : World}

theorem cleared_issue
    {uuid : String}
    (hCleared : Cleared guarded w) :
    Cleared guarded (w.issue uuid) :=
  ⟨hCleared.graphs, hCleared.cached⟩

theorem clearance_advanceTrigger
    {request : ProcessRequest}
    (hHost : OnHost M)
    (hGuards : Guards guarded engine)
    (hCleared : Cleared guarded w) :
    Ends M (clearance engine guarded)
      (advanceTrigger engine request) w := by
  have hRules := (clearance_rules hHost hGuards).steps hHost
  apply hHost.safe_advanceTrigger ⟨hCleared, trivial⟩
  · intro triggerId _ key
    exact ⟨cleared_issue hCleared, trivial⟩
  · intros
    trivial
  · intro triggerId _ _
    have hStart : ClearedWith guarded [] (w.issue triggerId) :=
      ⟨cleared_issue hCleared, backed_nil _⟩
    have hTrigger :
        (SessionRecord.trigger (request.record triggerId)
          ).asToolExecutionGraph = none :=
      rfl
    have hAppended := (hStart.append hTrigger).1
    refine ⟨hStart.request hTrigger, fun _ _ => trivial, ?_⟩
    apply hRules.safe_processTrigger hHost
    · intro cached hCached
      have hBacked : ClearedWith guarded cached.records
          (w.issue triggerId) :=
        ⟨hStart.1, hStart.1.cached cached hCached⟩
      exact hBacked.appendPush hTrigger
    · exact ⟨hAppended, fun record hMem => .inr hMem⟩
    · intros
      trivial
    · intro snapshot w' hHolds
      exact hHolds

theorem clearance_advanceContinue
    {request : ContinueRequest}
    (hHost : OnHost M)
    (hGuards : Guards guarded engine)
    (hCleared : Cleared guarded w) :
    Ends M (clearance engine guarded)
      (advanceContinue engine request) w := by
  have hRules := (clearance_rules hHost hGuards).steps hHost
  apply hHost.safe_advanceContinue ⟨hCleared, trivial⟩
  · intros
    trivial
  · intro _
    exact ⟨⟨hCleared, trivial⟩, fun _ _ => trivial⟩
  · intro trigger _
    apply hRules.safe_continueTrigger hHost
    exact ⟨hCleared, fun record hMem => .inr hMem⟩

theorem clearance_advance
    {request : AdvanceRequest}
    (hHost : OnHost M)
    (hGuards : Guards guarded engine)
    (hCleared : Cleared guarded w) :
    Ends M (clearance engine guarded) (advance engine request)
      w := by
  cases request with
  | trigger request =>
      exact clearance_advanceTrigger hHost hGuards hCleared
  | continueWith request =>
      exact clearance_advanceContinue hHost hGuards hCleared

/- An advance keeps the session cleared. -/
theorem cleared_advance
    {t : Advance}
    (hRuns : t.Runs host)
    (hGuards : Guards guarded t.engine)
    (hCleared : Cleared guarded t.before) :
    Cleared guarded t.after := by
  refine (Safe.invariant
    (clearance_advance .host hGuards hCleared) hRuns ?_
    hCleared).2
  intro w op a _ hRequest _
  exact cleared_next hRequest.1 hRequest.2

/-
  In every run every invocation of a guarded skill is of an
  approved call.
-/
theorem run_approved
    {run : List Advance}
    (hRun : Run host w run w')
    (hGuards : ∀ t ∈ run, Guards guarded t.engine)
    (hCleared : Cleared guarded w)
    {t : Advance}
    (hMem : t ∈ run)
    {s : Step Op Answer World}
    (hStep : s ∈ t.steps) :
    Permitted t.engine guarded s.before s.op := by
  have hBefore : Cleared guarded t.before := by
    refine (hRun.preserves ?_ hCleared).1 t hMem
    intro t hMem hRuns hCleared
    exact cleared_advance hRuns (hGuards t hMem) hCleared
  have hSafe : Ends host (clearance t.engine guarded)
      (advance t.engine t.request) t.before :=
    clearance_advance .host (hGuards t hMem) hBefore
  exact (Safe.steps hSafe (hRun.runs t hMem) s hStep).2

end Runs

end RainEngine
