import RainEngine.Approvals.StepGraphs
import RainEngine.Sessions.Resumption

/-
  This file is about approvals that have been decided. The
  first decision stays the only one, and an approved batch
  that has finished is found again and left alone.

  Key definitions include:
    * `Finished`
    * `resolutionsOf`
    * `Asked`
    * `Upheld`

  Key theorems include:
    * `Finished.executePlannedCalls_eq`
    * `safe_approvedBatch`
    * `Ruled.resolvedTarget_eq`
    * `Upheld.next`
-/

namespace RainEngine

open Effects

------------------------------------------------------------
-- Finished Batches
------------------------------------------------------------

/-
  The calls of a pending approval have a graph of their own on
  which nothing is left to be done.
-/
structure Finished
    (pending : PendingApprovalRecord)
    (graph : ToolExecutionGraph)
    (records : List SessionRecord) : Prop where
  stored : graph ∈ toolGraphs records
  answers :
    graph.answersTo pending.step pending.pendingCalls = true
  only :
    ∀ other ∈ toolGraphs records,
      other.answersTo pending.step pending.pendingCalls =
        true → other = graph
  named :
    ∃ triggerId,
      graph.graphId = graphIdFor triggerId pending.step
  numbered :
    ∀ other ∈ toolGraphs records,
      other.graphId = graph.graphId →
        other.step = pending.step
  quiescent :
    Quiescent graph (newestStatus graph.graphId records)

section Finished

variable {engine : AgentEngine}
variable {context : AgentContext}
variable {pending : PendingApprovalRecord}
variable {graph : ToolExecutionGraph}
variable {records earlier : List SessionRecord}
variable {record : SessionRecord}

/- The graphs of the next step are other graphs. -/
theorem Finished.apart
    {graphId : String}
    (hFinished : Finished pending graph records)
    (hGraphs : toolGraphs earlier ⊆ toolGraphs records)
    (hOf : OfStep earlier (pending.step + 1) graphId) :
    graphId ≠ graph.graphId := by
  rintro rfl
  rcases hOf with ⟨triggerId, hName⟩ |
    ⟨other, hMem, hSame, hStep⟩
  · rcases hFinished.named with ⟨triggerId', hNamed⟩
    rw [hNamed] at hName
    have hSteps := graphIdFor_step hName
    omega
  · have hNumber :=
      hFinished.numbered other (hGraphs hMem) hSame
    omega

/- The next step leaves a finished batch as it is. -/
theorem Finished.append
    (hFinished : Finished pending graph records)
    (hGraphs : toolGraphs earlier ⊆ toolGraphs records)
    (hSpares : (Op.append record).Spares earlier
      (pending.step + 1)) :
    Finished pending graph (records ++ [record]) := by
  -- a new graph is one of the next step
  have hAdded : ∀ other ∈ toolGraphs (records ++ [record]),
      other ∈ toolGraphs records ∨
        other.step = pending.step + 1 ∧
          other.graphId ≠ graph.graphId := by
    intro other hMem
    rw [toolGraphs_snoc, List.mem_append] at hMem
    refine hMem.imp_right ?_
    intro hNew
    cases record with
    | toolExecutionGraph added =>
        have hSame : other = added := List.mem_singleton.mp hNew
        rw [hSame]
        exact ⟨hSpares.2, hFinished.apart hGraphs hSpares.1⟩
    | _ => cases hNew
  have hNewest :
      newestStatus graph.graphId (records ++ [record]) =
        newestStatus graph.graphId records := by
    funext callId
    rw [newestStatus_append]
    cases record with
    | toolNodeCheckpoint checkpoint =>
        have hApart := hFinished.apart hGraphs hSpares
        have hNone :
            checkpointStatus graph.graphId callId
              (.toolNodeCheckpoint checkpoint) = none :=
          if_neg fun hSame => hApart hSame.1
        rw [hNone]
        rfl
    | _ => rfl
  refine
    { stored := ?_
      answers := hFinished.answers
      only := ?_
      named := hFinished.named
      numbered := ?_
      quiescent := ?_ }
  · rw [toolGraphs_snoc]
    exact List.mem_append_left _ hFinished.stored
  · intro other hMem hAnswers
    rcases hAdded other hMem with hOld | ⟨hStep, _⟩
    · exact hFinished.only other hOld hAnswers
    · unfold ToolExecutionGraph.answersTo at hAnswers
      rw [Bool.and_eq_true, decide_eq_true_iff] at hAnswers
      omega
  · intro other hMem hSame
    rcases hAdded other hMem with hOld | ⟨_, hOther⟩
    · exact hFinished.numbered other hOld hSame
    · exact absurd hSame hOther
  · rw [hNewest]
    exact hFinished.quiescent

/- A finished batch is found again and left alone. -/
theorem Finished.executePlannedCalls_eq
    (hFinished : Finished pending graph context.records) :
    executePlannedCalls engine context pending.step
        pending.pendingCalls true =
      pure (.executed { results := [], allFailed := true }) := by
  have hRuns : ¬Waits engine pending.pendingCalls true :=
    fun hWaits => nomatch hWaits.1
  have hFound :
      existingOrNewGraph context pending.step
        pending.pendingCalls = graph := by
    rcases existingOrNewGraph_cases context pending.step
      pending.pendingCalls with ⟨hMem, hAnswers⟩ | ⟨_, hNone⟩
    · exact hFinished.only _ hMem hAnswers
    · have hOther := hNone graph hFinished.stored
      rw [hFinished.answers] at hOther
      cases hOther
  have hQuiet :
      Quiescent graph
        (latestToolStatuses context graph.graphId) := by
    rw [latestToolStatuses_eq]
    exact hFinished.quiescent
  rw [RainEngine.executePlannedCalls_eq hRuns, hFound,
    storeGraph_eq, if_pos ⟨graph, hFinished.stored, rfl⟩,
    Program.pure_bind, executeGraph_quiescent hQuiet]
  rfl

/- The graph of a batch that has nothing left to be done. -/
theorem finished_newGraph
    {w w' : World}
    (hNew :
      NewGraph context pending.step pending.pendingCalls)
    (hGraphs :
      toolGraphs w.ledger = toolGraphs context.records)
    (hStored : Stored
      (newGraph context pending.step pending.pendingCalls)
      w w')
    (hQuiet :
      Quiescent
        (newGraph context pending.step pending.pendingCalls)
        (newestStatus
          (newGraph context pending.step
            pending.pendingCalls).graphId w'.ledger)) :
    Finished pending
      (newGraph context pending.step pending.pendingCalls)
      w'.ledger := by
  have hToolGraphs :
      toolGraphs w'.ledger =
        toolGraphs context.records ++
          [newGraph context pending.step
            pending.pendingCalls] := by
    rw [Grown.toolGraphs_eq hStored, World.append_ledger,
      toolGraphs_snoc, hGraphs]
    rfl
  have hCases : ∀ other ∈ toolGraphs w'.ledger,
      other ∈ toolGraphs context.records ∨
        other = newGraph context pending.step
          pending.pendingCalls := by
    intro other hMem
    rw [hToolGraphs, List.mem_append,
      List.mem_singleton] at hMem
    exact hMem
  refine
    { stored := ?_
      answers := ?_
      only := ?_
      named := ⟨_, rfl⟩
      numbered := ?_
      quiescent := hQuiet }
  · rw [hToolGraphs]
    exact List.mem_append_right _ (List.mem_singleton_self _)
  · unfold ToolExecutionGraph.answersTo
    rw [newGraph_callIds, Bool.and_eq_true]
    exact ⟨decide_eq_true rfl, decide_eq_true rfl⟩
  · intro other hMem hAnswers
    refine (hCases other hMem).resolve_left ?_
    intro hOld
    rw [hNew.unanswered other hOld] at hAnswers
    cases hAnswers
  · intro other hMem hSame
    rcases hCases other hMem with hOld | hOwn
    · exact absurd hSame (hNew.unused other hOld)
    · rw [hOwn]
      rfl

/-
  On a calm host an approved batch whose calls settle is
  finished, with a result for each call.
-/
theorem safe_approvedBatch
    {w : World}
    (hFresh :
      FreshBatch context pending.step pending.pendingCalls w)
    (hGraphs :
      toolGraphs w.ledger = toolGraphs context.records)
    (hSettleable :
      Settleable engine context pending.pendingCalls) :
    Safe calmHost (fun _ op => op.OfBatch)
      (fun r w' => ∃ batch, r = .executed batch ∧
        (batch.results.map (·.callId)).Perm
          (pending.pendingCalls.map (·.callId)) ∧
        (∃ graph, Finished pending graph w'.ledger) ∧
        Grown IsTrace w w')
      (fun _ _ => False)
      (executePlannedCalls engine context pending.step
        pending.pendingCalls true) w := by
  have hRuns : ¬Waits engine pending.pendingCalls true :=
    fun hWaits => nomatch hWaits.1
  have hLatched := Safe.frame
    (I := fun w' : World => Latched
      (newGraph context pending.step
        pending.pendingCalls).graphId w'.ledger)
    (fun _ _ _ hLatched hFresh _ => hLatched.next hFresh)
    hFresh.latched
    (executePlannedCalls_settles hRuns hFresh
      hSettleable.nodup)
  have hReports := executePlannedCalls_reports hRuns hFresh
    hSettleable.nodup
  have hReturns :
      Safe calmHost (fun _ op => op ≠ .outOfFuel)
        (fun r _ => ∃ batch, r = BatchExecution.executed batch)
        (fun _ _ => False)
        (executePlannedCalls engine context pending.step
          pending.pendingCalls true) w :=
    executePlannedCalls_calm (fun _ _ _ h => h) hRuns
  refine Safe.mono (fun _ _ h => h.2) ?_ (fun _ _ h => h.2)
    (((hReports.and hLatched).restrict.and hReturns).and_uses
      uses_approvedBatch)
  rintro r w' ⟨⟨⟨⟨batch, hExecuted, hReport, _, hStored⟩,
    _, hLatched⟩, _⟩, _⟩
  refine ⟨batch, hExecuted, hReport.results_perm hSettleable,
    ⟨_, finished_newGraph hFresh.new hGraphs hStored ?_⟩, ?_⟩
  · apply hReport.quiescent.congr
    intro callId
    rw [settled_settledIn, hLatched callId]
    rfl
  · rcases hStored with ⟨added, hLedger, hKind⟩
    refine ⟨.toolExecutionGraph (newGraph context pending.step
      pending.pendingCalls) :: added, ?_, ?_⟩
    · rw [hLedger, World.append_ledger, List.append_assoc]
      rfl
    · rw [List.forall_mem_cons]
      refine ⟨trivial, ?_⟩
      intro record hMem
      have hRecord := hKind record hMem
      cases record <;> trivial

end Finished

------------------------------------------------------------
-- Decided Approvals
------------------------------------------------------------

/- The resolutions recorded for a token. -/
def resolutionsOf
    (records : List SessionRecord)
    (token : ResumeToken) :
    List ApprovalResolutionRecord :=
  records.filterMap fun record =>
    record.asApprovalResolution.filter
      (·.resumeToken = token)

/- What a decision on an approval records. -/
def PendingApprovalRecord.resolution
    (pending : PendingApprovalRecord)
    (decision : ApprovalDecision)
    (metadata : Json) :
    ApprovalResolutionRecord where
  resumeToken := pending.resumeToken
  decision := decision
  metadata := metadata

/- The approval is the first of its token, and it waits. -/
structure Asked
    (pending : PendingApprovalRecord)
    (records : List SessionRecord) : Prop where
  waits :
    findPendingApprovalByResumeToken records
      pending.resumeToken = some pending
  unresolved : resolutionsOf records pending.resumeToken = []
  first :
    recordedPending records pending.resumeToken = some pending

/- The approval has one resolution. -/
structure Ruled
    (pending : PendingApprovalRecord)
    (decision : ApprovalDecision)
    (records : List SessionRecord) : Prop where
  decided :
    (resolutionsOf records pending.resumeToken).map
      (·.decision) = [decision]
  first :
    recordedPending records pending.resumeToken = some pending

/- If it has been approved, its batch is finished. -/
structure Upheld
    (pending : PendingApprovalRecord)
    (decision : ApprovalDecision)
    (records : List SessionRecord) : Prop where
  ruled : Ruled pending decision records
  finished :
    decision = .approved →
      ∃ graph, Finished pending graph records

section Decisions

variable {pending : PendingApprovalRecord}
variable {decision : ApprovalDecision}
variable {records earlier : List SessionRecord}
variable {record : SessionRecord}
variable {token : ResumeToken}
variable {w w' : World}

theorem resolutionsOf_snoc :
    resolutionsOf (records ++ [record]) token =
      resolutionsOf records token ++
        (record.asApprovalResolution.filter
          (·.resumeToken = token)).toList := by
  unfold resolutionsOf
  rw [List.filterMap_append]
  rfl

theorem recordedPending_snoc
    (hFirst : recordedPending records token = some pending) :
    recordedPending (records ++ [record]) token =
      some pending := by
  unfold recordedPending at hFirst ⊢
  rw [List.findSome?_append, hFirst]
  rfl

theorem findPendingApproval_snoc :
    findPendingApprovalByResumeToken (records ++ [record])
        token =
      trackPendingApproval token
        (findPendingApprovalByResumeToken records token)
        record := by
  unfold findPendingApprovalByResumeToken
  rw [List.foldl_append]
  rfl

/- Marginal records leave the lookup of a token alone. -/
theorem findPendingApproval_grown
    (hGrown : Grown IsMarginal w w') :
    findPendingApprovalByResumeToken w'.ledger token =
      findPendingApprovalByResumeToken w.ledger token := by
  refine hGrown.keeps
    (I := fun records =>
      findPendingApprovalByResumeToken records token =
        findPendingApprovalByResumeToken w.ledger token) ?_ rfl
  intro records record hMarginal hSame
  rw [findPendingApproval_snoc, hSame]
  cases record with
  | pendingApproval _ => exact hMarginal.elim
  | approvalResolution _ => exact hMarginal.elim
  | _ => rfl

theorem Asked.grown
    (hAsked : Asked pending w.ledger)
    (hGrown : Grown IsMarginal w w') :
    Asked pending w'.ledger := by
  refine
    { waits := ?_
      unresolved := ?_
      first := ?_ }
  · rw [findPendingApproval_grown hGrown]
    exact hAsked.waits
  · refine hGrown.keeps
      (I := fun records =>
        resolutionsOf records pending.resumeToken = []) ?_
      hAsked.unresolved
    intro records record hMarginal hNone
    rw [resolutionsOf_snoc, hNone, hMarginal.not_resolution]
    rfl
  · exact hGrown.keeps
      (I := fun records =>
        recordedPending records pending.resumeToken =
          some pending)
      (fun _ _ _ hFirst => recordedPending_snoc hFirst)
      hAsked.first

/- The decision of the human is the one that is recorded. -/
theorem Asked.ruled
    {metadata : Json}
    (hAsked : Asked pending records) :
    Ruled pending decision
      (records ++ [.approvalResolution
        (pending.resolution decision metadata)]) := by
  refine ⟨?_, recordedPending_snoc hAsked.first⟩
  rw [resolutionsOf_snoc, hAsked.unresolved]
  simp [SessionRecord.asApprovalResolution, Option.filter,
    PendingApprovalRecord.resolution]

theorem Ruled.append
    (hRuled : Ruled pending decision records)
    (hOther : record.asApprovalResolution = none) :
    Ruled pending decision (records ++ [record]) := by
  refine ⟨?_, recordedPending_snoc hRuled.first⟩
  rw [resolutionsOf_snoc, hOther]
  simpa using hRuled.decided

/- A resolved token is answered with its first decision. -/
theorem Ruled.resolvedTarget_eq
    (hRuled : Ruled pending decision records) :
    resolvedTarget records pending.resumeToken =
      some
        { pending := pending
          alreadyResolved := true
          decision := decision } := by
  rcases List.map_eq_singleton_iff.mp hRuled.decided with
    ⟨resolution, hResolutions, hDecision⟩
  have hFound :
      recordedResolution records pending.resumeToken =
        some resolution := by
    unfold recordedResolution
    rw [← List.head?_filterMap]
    unfold resolutionsOf at hResolutions
    rw [hResolutions]
    rfl
  unfold resolvedTarget
  rw [hFound, hRuled.first, ← hDecision]
  rfl

/- The next step leaves what has been decided as it is. -/
theorem Upheld.append
    (hUpheld : Upheld pending decision records)
    (hGraphs : toolGraphs earlier ⊆ toolGraphs records)
    (hSpares : (Op.append record).Spares earlier
      (pending.step + 1)) :
    Upheld pending decision (records ++ [record]) := by
  constructor
  · apply hUpheld.ruled.append
    cases record with
    | approvalResolution _ => exact hSpares.elim
    | _ => rfl
  · intro hApproved
    rcases hUpheld.finished hApproved with ⟨graph, hFinished⟩
    exact ⟨graph, hFinished.append hGraphs hSpares⟩

theorem Upheld.grown
    (hUpheld : Upheld pending decision w.ledger)
    (hGrown : Grown IsMarginal w w') :
    Upheld pending decision w'.ledger := by
  refine hGrown.keeps
    (I := Upheld pending decision) ?_ hUpheld
  intro records record hMarginal hUpheld
  have hSpares :
      (Op.append record).Spares [] (pending.step + 1) :=
    Op.Marginal.spares hMarginal
  exact hUpheld.append (List.nil_subset _) hSpares

/- So do the answers to the requests of the step. -/
theorem Upheld.next
    {op : Op}
    {a : Answer op}
    (hUpheld : Upheld pending decision w.ledger)
    (hGraphs : toolGraphs earlier ⊆ toolGraphs w.ledger)
    (hSpares : op.Spares earlier (pending.step + 1)) :
    Upheld pending decision (hostNext w op a).ledger := by
  rcases hostNext_ledger w op a with hSame | hAppend
  · rw [hSame]
    exact hUpheld
  · rcases hAppend with ⟨record, hOp, hLedger⟩
    subst hOp
    rw [hLedger]
    exact hUpheld.append hGraphs hSpares

end Decisions

end RainEngine
