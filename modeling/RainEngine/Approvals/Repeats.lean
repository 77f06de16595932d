import RainEngine.Approvals.Finished

/-
  This file is about approvals of one token that follow each
  other. The first decision is kept, and what has been
  approved is not run again. A rejection that is repeated
  records its results again.

  Key definitions include:
    * `Resumes`
    * `Advance.DecidesFirst`
    * `Advance.DecidesAgain`
    * `ResumedOnce`

  Key theorems include:
    * `handsOver_firstApproval`
    * `handsOver_laterApproval`
    * `Run.decidesAgain`
    * `approval_resumed_once_iff`
-/

namespace RainEngine

open Effects

------------------------------------------------------------
-- The Approval Step
------------------------------------------------------------

/-
  A request before the step of an advance. It executes calls
  only if they have been approved.
-/
structure Op.Precedes
    (decision : ApprovalDecision)
    (op : Op) : Prop where
  waits : op.startsStep = false
  consented : decision = .rejected → ¬op.Executes

/-
  The approval is left to the step after it: it has been
  decided, and the calls have one result each.
-/
structure Resumes
    (pending : PendingApprovalRecord)
    (decision : ApprovalDecision)
    (calls : List PlannedSkillCall)
    (base : World)
    (p : EngineM AdvanceResult)
    (w : World) : Prop where
  takes : TakesStep p
  spares :
    ∃ records, toolGraphs records ⊆ toolGraphs w.ledger ∧
      Sparing records (pending.step + 1) p
  kept : Upheld pending decision w.ledger
  results :
    ∃ results,
      toolResults w.ledger =
          toolResults base.ledger ++ results ∧
        (results.map (·.callId)).Perm
          (calls.map (·.callId))

section Resuming

variable {engine : AgentEngine}
variable {context : AgentContext}
variable {trigger : AgentTrigger}
variable {pending : PendingApprovalRecord}
variable {decision later : ApprovalDecision}
variable {metadata : Json}
variable {calls : List PlannedSkillCall}
variable {steps failures : Nat}
variable {events : List KernelEventRecord}
variable {base w w' : World}

theorem Op.Aside.precedes
    {op : Op}
    (hAside : op.Aside) :
    op.Precedes decision :=
  ⟨hAside.waits, fun _ => hAside.idle⟩

theorem Op.OfBatch.precedes
    {op : Op}
    (hBatch : op.OfBatch) :
    op.Precedes .approved := by
  refine ⟨?_, nofun⟩
  cases op with
  | append record =>
      cases record with
      | executionPlan _ => exact hBatch.elim
      | _ => rfl
  | generateAction _ _ => exact hBatch.elim
  | _ => rfl

theorem IsTrace.not_result
    {record : SessionRecord}
    (hTrace : IsTrace record) :
    record.asToolResult = none := by
  cases record with
  | toolResult _ => exact hTrace.elim
  | _ => rfl

theorem IsTrace.not_resolution
    {record : SessionRecord}
    (hTrace : IsTrace record) :
    record.asApprovalResolution = none := by
  cases record with
  | approvalResolution _ => exact hTrace.elim
  | _ => rfl

theorem Grown.toolResults_eq
    {kind : SessionRecord → Prop}
    (hGrown : Grown kind w w')
    (hOther : ∀ record, kind record →
      record.asToolResult = none) :
    toolResults w'.ledger = toolResults w.ledger := by
  refine hGrown.keeps
    (I := fun records =>
      toolResults records = toolResults w.ledger) ?_ rfl
  intro records record hKind hSame
  have hNone : toolResults [record] = [] :=
    List.filterMap_cons_none (hOther record hKind)
  rw [toolResults_append, hSame, hNone, List.append_nil]

/- On a calm host the results of a batch are recorded. -/
theorem calm_recordResultsOrFail
    {results : List ToolResultRecord} :
    Safe calmHost (fun _ op => op.Precedes decision)
      (fun context' w' =>
        w'.ledger =
            w.ledger ++ results.map SessionRecord.toolResult ∧
          context'.records =
            context.records ++
              results.map SessionRecord.toolResult)
      (fun _ _ => False)
      (recordResultsOrFail results context) w := by
  induction results generalizing context w with
  | nil =>
      refine ⟨?_, ?_⟩
      · rw [List.map_nil, List.append_nil]
      · rw [List.map_nil, List.append_nil]
  | cons result rest ih =>
      refine ⟨⟨rfl, fun _ => id⟩, ?_⟩
      intro a hAllowed
      have hOk : a = .ok () := hAllowed.2
      subst hOk
      refine Safe.mono (fun _ _ h => h) ?_ (fun _ _ h => h) ih
      rintro context' w' ⟨hLedger, hRecords⟩
      rw [hLedger, hRecords, List.map_cons]
      refine ⟨?_, ?_⟩
      · exact (List.append_cons _ _ _).symm
      · exact (List.append_cons _ _ _).symm

theorem rejectedBatch_perm :
    ((rejectedBatch calls).results.map (·.callId)).Perm
      (calls.map (·.callId)) := by
  unfold rejectedBatch
  rw [List.map_map]
  exact .refl _

/- The results are recorded, and the step comes next. -/
theorem handsOver_results
    {results : List ToolResultRecord}
    (hGraphs :
      toolGraphs context.records ⊆ toolGraphs w.ledger)
    (hUpheld : Upheld pending decision w.ledger)
    (hSame : toolResults w.ledger = toolResults base.ledger)
    (hPerm :
      (results.map (·.callId)).Perm (calls.map (·.callId))) :
    HandsOver calmHost (fun _ op => op.Precedes decision)
      (Resumes pending decision calls base)
      (recordResultsOrFail results context >>= fun context =>
        performSingleStep engine context trigger
          (pending.step + 1) failures events) w := by
  refine HandsOver.bind calm_recordResultsOrFail ?_
  rintro context' v ⟨hLedger, hRecords⟩
  have hGrown :
      Grown (fun record => ∃ result, record = .toolResult result)
        w v := by
    refine ⟨_, hLedger, ?_⟩
    intro record hMem
    rcases List.mem_map.mp hMem with ⟨result, _, hResult⟩
    exact ⟨result, hResult.symm⟩
  have hUpheld' : Upheld pending decision v.ledger := by
    refine hGrown.keeps (I := Upheld pending decision) ?_ hUpheld
    rintro records _ ⟨result, rfl⟩ hUpheld
    have hGraphs : toolGraphs [] ⊆ toolGraphs records :=
      List.nil_subset _
    exact hUpheld.append hGraphs trivial
  have hGraphs' :
      toolGraphs context'.records ⊆ toolGraphs v.ledger := by
    have hNone : toolGraphs
        (results.map SessionRecord.toolResult) = [] := by
      unfold toolGraphs
      rw [List.filterMap_map]
      exact List.filterMap_eq_nil_iff.mpr fun _ _ => rfl
    rw [hRecords]
    unfold toolGraphs at hNone ⊢
    rw [List.filterMap_append, hNone, List.append_nil]
    exact List.Subset.trans hGraphs
      (toolGraphs_subset ⟨_, hLedger.symm⟩)
  have hResults :
      toolResults v.ledger =
        toolResults base.ledger ++ results := by
    rw [hLedger, toolResults_append, toolResults_results,
      hSame]
  have hSpares :
      Sparing context'.records (pending.step + 1)
        (performSingleStep engine context' trigger
          (pending.step + 1) failures events) :=
    spares_performSingleStep fun _ h => h
  refine HandsOver.mono (fun _ _ h => h) ?_
    (HandsOver.of_leads
      (I := fun v =>
        Upheld pending decision v.ledger ∧
          toolGraphs context'.records ⊆ toolGraphs v.ledger ∧
          toolResults v.ledger =
            toolResults base.ledger ++ results)
      goesOn_performSingleStep hSpares
      takesStep_pure takesStep_throw
      (fun _ _ hAside => hAside.precedes) ?_
      ⟨hUpheld', hGraphs', hResults⟩)
  · rintro p u ⟨hTakes, hSpares, hUpheld, hGraphs, hResults⟩
    exact ⟨hTakes, ⟨_, hGraphs, hSpares⟩, hUpheld, results,
      hResults, hPerm⟩
  · rintro u op a ⟨hUpheld, hGraphs, hResults⟩ hAside _
    have hNext : Grown IsMarginal u (hostNext u op a) := by
      refine .next ?_
      rintro record rfl
      exact hAside.marginal
    refine ⟨hUpheld.grown hNext,
      List.Subset.trans hGraphs (toolGraphs_subset
        (hostNext_extends u op a)), ?_⟩
    rw [← hResults]
    exact hNext.toolResults_eq
      fun _ hMarginal => hMarginal.not_result

theorem calm_findApprovalTarget
    {P : World → Op → Prop}
    {token : ResumeToken}
    (hP : ∀ w op, op.Aside → P w op) :
    Safe calmHost P
      (fun found w' => w' = w ∧ found =
        match findPendingApprovalByResumeToken w.ledger
            token with
        | some pending =>
            some
              { pending := pending
                alreadyResolved := false
                decision := decision }
        | none => resolvedTarget context.records token)
      (fun _ _ => False)
      (findApprovalTarget context token decision) w := by
  unfold findApprovalTarget
  rw [Safe.bind_iff]
  refine ⟨hP _ _ (Op.Quiet.aside trivial), ?_⟩
  rintro answer ⟨hAnswer, found, hOk⟩
  subst hOk
  have hFound :
      found =
        findPendingApprovalByResumeToken w.ledger token :=
    hAnswer
  rw [← hFound]
  cases found with
  | none => exact ⟨rfl, rfl⟩
  | some pending => exact ⟨rfl, rfl⟩

/- The first decision on an approval resumes its calls. -/
theorem handsOver_firstApproval
    (hAsked : Asked pending w.ledger)
    (hCopy : context.records = w.ledger)
    (hSame : toolResults w.ledger = toolResults base.ledger)
    (hBatch : decision = .approved →
      FreshBatch context pending.step pending.pendingCalls w ∧
        Settleable engine context pending.pendingCalls) :
    HandsOver calmHost (fun _ op => op.Precedes decision)
      (Resumes pending decision pending.pendingCalls base)
      (approvalStep engine context trigger
        pending.resumeToken decision metadata steps failures
        events) w := by
  unfold approvalStep
  refine HandsOver.bind (calm_findApprovalTarget
    fun _ _ hAside => hAside.precedes) ?_
  rintro found w' ⟨hWorld, hFound⟩
  rw [hAsked.waits] at hFound
  subst hWorld hFound
  have hResolved :
      Safe calmHost (fun _ op => op.Precedes decision)
        (fun _ v => v = w'.append (.approvalResolution
          (pending.resolution decision metadata)))
        (fun _ _ => False)
        (recordResolution
          { pending := pending
            alreadyResolved := false
            decision := decision } metadata) w' := by
    apply OnHost.calm.safe_appendOrFail ⟨rfl, fun _ => id⟩ rfl
    intro error hFails
    exact not_storeFails_calm _ hFails
  refine HandsOver.bind hResolved ?_
  rintro _ v rfl
  have hRuled :
      Ruled pending decision
        (w'.ledger ++ [.approvalResolution
          (pending.resolution decision metadata)]) :=
    hAsked.ruled
  have hGraphs :
      toolGraphs (w'.ledger ++ [.approvalResolution
          (pending.resolution decision metadata)]) =
        toolGraphs context.records := by
    rw [toolGraphs_snoc, hCopy]
    exact List.append_nil _
  have hResults :
      toolResults (w'.ledger ++ [.approvalResolution
          (pending.resolution decision metadata)]) =
        toolResults base.ledger := by
    rw [toolResults_append, hSame]
    exact List.append_nil _
  cases decision with
  | rejected =>
      refine handsOver_results ?_ ⟨hRuled, nofun⟩ hResults
        rejectedBatch_perm
      rw [World.append_ledger, hGraphs]
      exact fun _ h => h
  | approved =>
      rcases hBatch rfl with ⟨hFresh, hSettleable⟩
      have hFresh' :
          FreshBatch context pending.step pending.pendingCalls
            (w'.append (.approvalResolution
              (pending.resolution .approved metadata))) := by
        refine ⟨hFresh.new, ?_⟩
        intro checkpoint hMem
        apply hFresh.untouched
        rw [World.append_ledger, ← List.append_assoc] at hMem
        simpa using hMem
      refine HandsOver.bind (Safe.mono
        (fun _ _ hBatch => hBatch.precedes) (fun _ _ h => h)
        (fun _ _ h => h)
        (safe_approvedBatch hFresh' hGraphs hSettleable)) ?_
      rintro r v' ⟨batch, hExecuted, hPerm, hFinished, hGrown⟩
      subst hExecuted
      have hRuled' : Ruled pending .approved v'.ledger := by
        refine hGrown.keeps (I := Ruled pending .approved) ?_
          hRuled
        intro records record hTrace hRuled
        exact hRuled.append hTrace.not_resolution
      refine handsOver_results ?_ ⟨hRuled', fun _ => hFinished⟩
        ?_ hPerm
      · rw [← hGraphs]
        rcases hGrown with ⟨added, hLedger, _⟩
        exact toolGraphs_subset ⟨added, hLedger.symm⟩
      · rw [← hResults]
        exact hGrown.toolResults_eq
          fun _ hTrace => hTrace.not_result

/- The calls a repeated decision records results of again. -/
def resumedAgain
    (pending : PendingApprovalRecord) :
    ApprovalDecision → List PlannedSkillCall
| .approved => []
| .rejected => pending.pendingCalls

/- A later decision resumes nothing that has been approved. -/
theorem handsOver_laterApproval
    (hUpheld : Upheld pending decision w.ledger)
    (hCopy : context.records = w.ledger)
    (hSame : toolResults w.ledger = toolResults base.ledger)
    (hNone :
      findPendingApprovalByResumeToken w.ledger
        pending.resumeToken = none) :
    HandsOver calmHost (fun _ op => op.Precedes decision)
      (Resumes pending decision
        (resumedAgain pending decision) base)
      (approvalStep engine context trigger
        pending.resumeToken later metadata steps failures
        events) w := by
  unfold approvalStep
  refine HandsOver.bind (calm_findApprovalTarget
    fun _ _ hAside => hAside.precedes) ?_
  rintro found w' ⟨hWorld, hFound⟩
  subst hWorld
  rw [hNone, hCopy, hUpheld.ruled.resolvedTarget_eq] at hFound
  subst hFound
  have hGraphs :
      toolGraphs context.records ⊆ toolGraphs w'.ledger := by
    rw [hCopy]
    exact fun _ h => h
  cases decision with
  | rejected =>
      exact handsOver_results hGraphs hUpheld hSame
        rejectedBatch_perm
  | approved =>
      rcases hUpheld.finished rfl with ⟨graph, hFinished⟩
      rw [← hCopy] at hFinished
      have hNothing :
          executePlannedCalls engine context pending.step
              pending.pendingCalls true =
            pure (.executed
              { results := [], allFailed := true }) :=
        hFinished.executePlannedCalls_eq
      have hNone :
          (([] : List ToolResultRecord).map
              (·.callId)).Perm
            ((resumedAgain pending .approved).map
              (·.callId)) :=
        .refl _
      show HandsOver calmHost _ _
        (executePlannedCalls engine context pending.step
          pending.pendingCalls true >>= _) w'
      rw [hNothing]
      exact handsOver_results hGraphs hUpheld hSame hNone

end Resuming

------------------------------------------------------------
-- One Approval After The Other
------------------------------------------------------------

/- The advance brings a decision on the token. -/
def Advance.Decides
    (t : Advance)
    (token : ResumeToken)
    (decision : ApprovalDecision) :
    Prop :=
  ∃ request metadata, t.request = .trigger request ∧
    request.trigger = .approval token decision metadata

/-
  Each of the pending calls settles, and the batch gets a
  graph of its own whatever identifier is handed out.
-/
structure BatchReady
    (engine : AgentEngine)
    (pending : PendingApprovalRecord)
    (w : World) : Prop where
  settleable :
    ∀ context,
      Settleable engine context pending.pendingCalls
  unanswered :
    ∀ graph ∈ toolGraphs w.ledger,
      graph.answersTo pending.step pending.pendingCalls =
        false
  unused :
    ∀ triggerId, triggerId ∉ w.issued →
      (∀ graph ∈ toolGraphs w.ledger,
        graph.graphId ≠ graphIdFor triggerId pending.step) ∧
      ∀ checkpoint, .toolNodeCheckpoint checkpoint ∈ w.ledger →
        checkpoint.graphId ≠
          graphIdFor triggerId pending.step

/- The first decision on an approval. -/
structure Advance.DecidesFirst
    (t : Advance)
    (pending : PendingApprovalRecord)
    (decision : ApprovalDecision) : Prop where
  proceeds : t.Proceeds
  decides : t.Decides pending.resumeToken decision
  new : ¬t.IsReplay
  asked : Asked pending t.before.ledger
  ready :
    decision = .approved →
      BatchReady t.engine pending t.before

/-
  Another decision. Its request is only answered, or no other
  approval waits under the token.
-/
structure Advance.DecidesAgain
    (t : Advance)
    (pending : PendingApprovalRecord) : Prop where
  proceeds : t.Proceeds
  decides : ∃ later, t.Decides pending.resumeToken later
  resolved :
    ¬t.IsReplay →
      findPendingApprovalByResumeToken t.before.ledger
        pending.resumeToken = none

/-
  The approval has one resolution, its calls have one result
  each, and they are only executed if they are approved.
-/
structure ResumedOnce
    (pending : PendingApprovalRecord)
    (decision : ApprovalDecision)
    (run : List Advance)
    (w : World) : Prop where
  decided :
    (resolutionsOf w.ledger pending.resumeToken).map
      (·.decision) = [decision]
  results :
    ((run.flatMap Advance.resumed).map (·.callId)).Perm
      (pending.pendingCalls.map (·.callId))
  consented :
    decision = .rejected →
      ∀ t ∈ run, ∀ s ∈ beforeStep t.steps, ¬s.op.Executes

section Runs

variable {t : Advance}
variable {pending : PendingApprovalRecord}
variable {decision : ApprovalDecision}
variable {calls : List PlannedSkillCall}
variable {run : List Advance}
variable {w w' : World}

/- An advance that resumes calls keeps what it has decided. -/
theorem Advance.resumes
    (hRuns : t.Runs host)
    (hProceeds : t.Proceeds)
    (hHands : HandsOver calmHost
      (fun _ op => op.Precedes decision)
      (Resumes pending decision calls t.before)
      (advance t.engine t.request) t.before) :
    Upheld pending decision t.after.ledger ∧
      (t.resumed.map (·.callId)).Perm
        (calls.map (·.callId)) ∧
      ∀ s ∈ beforeStep t.steps, s.op.Precedes decision := by
  rcases t.handsOver hRuns hProceeds hHands
      (fun _ hPrecedes => hPrecedes.waits)
      (fun _ _ hResumes => hResumes.takes) with
    ⟨late, tail, v, hResumes, hLate, hLedger, hPrecedes⟩
  refine ⟨?_, ?_, hPrecedes⟩
  · rcases hResumes.spares with ⟨records, hGraphs, hSpares⟩
    have hOps := (hSpares.exec hLate).1
    have hEnd := hLate.preserves
      (I := fun u => Upheld pending decision u.ledger ∧
        toolGraphs records ⊆ toolGraphs u.ledger) ?_
      ⟨hResumes.kept, hGraphs⟩
    · exact hEnd.2.1
    · rintro s hMem ⟨hUpheld, hGraphs⟩ _
      exact ⟨hUpheld.next hGraphs (hOps s hMem),
        List.Subset.trans hGraphs
          (toolGraphs_subset (hostNext_extends _ _ _))⟩
  · rcases hResumes.results with ⟨results, hResults, hPerm⟩
    rw [hLedger, toolResults_append] at hResults
    have hOwn := List.append_cancel_left hResults
    unfold Advance.resumed
    rw [hOwn]
    exact hPerm

theorem Advance.DecidesFirst.resumes
    (hFirst : t.DecidesFirst pending decision)
    (hRuns : t.Runs host) :
    Upheld pending decision t.after.ledger ∧
      (t.resumed.map (·.callId)).Perm
        (pending.pendingCalls.map (·.callId)) ∧
      ∀ s ∈ beforeStep t.steps, s.op.Precedes decision := by
  rcases hFirst.decides with
    ⟨request, metadata, hRequest, hTrigger⟩
  apply t.resumes hRuns hFirst.proceeds
  have hNew : priorOutcome t.before.ledger request = none := by
    by_contra hPrior
    exact hFirst.new ⟨request, hRequest, hPrior⟩
  rw [hRequest]
  refine handsOver_advanceTrigger hTrigger hNew
    (fun _ _ hAside => hAside.precedes) ?_
  intro triggerId hFresh context steps failures events v
    hCopy hId hGrown
  have hGraphs : toolGraphs v.ledger =
      toolGraphs t.before.ledger := by
    refine hGrown.keeps
      (I := fun records =>
        toolGraphs records = toolGraphs t.before.ledger) ?_ rfl
    intro records record hMarginal hSame
    rw [toolGraphs_snoc, hSame, hMarginal.not_graph]
    exact List.append_nil _
  refine handsOver_firstApproval (hFirst.asked.grown hGrown)
    hCopy (hGrown.toolResults_eq
      fun _ hMarginal => hMarginal.not_result) ?_
  intro hApproved
  have hReady := hFirst.ready hApproved
  rcases hReady.unused triggerId hFresh with
    ⟨hUnused, hUntouched⟩
  refine ⟨⟨⟨?_, ?_⟩, ?_⟩, hReady.settleable context⟩
  · rw [hCopy, hGraphs]
    exact hReady.unanswered
  · rw [hCopy, hGraphs, hId]
    exact hUnused
  · intro checkpoint hMem
    rw [hId]
    apply hUntouched
    rw [hCopy, List.mem_append, or_self] at hMem
    rcases hGrown with ⟨added, hLedger, hKind⟩
    rw [hLedger, List.mem_append] at hMem
    refine hMem.resolve_right ?_
    intro hAdded
    exact hKind _ hAdded

/- What a later decision records, unless it is a replay. -/
theorem Advance.DecidesAgain.resumes
    (hAgain : t.DecidesAgain pending)
    (hUpheld : Upheld pending decision t.before.ledger)
    (hRuns : t.Runs host) :
    Upheld pending decision t.after.ledger ∧
      (t.resumed = [] ↔
        t.IsReplay ∨ resumedAgain pending decision = []) ∧
      ∀ s ∈ beforeStep t.steps, s.op.Precedes decision := by
  by_cases hReplay : t.IsReplay
  · rcases hReplay.quiet hRuns hAgain.proceeds with
      ⟨hSame, hNone, hAside⟩
    rw [hSame]
    exact ⟨hUpheld, iff_of_true hNone (.inl hReplay),
      fun s hMem => (hAside s hMem).precedes⟩
  · rcases hAgain.decides with
      ⟨later, request, metadata, hRequest, hTrigger⟩
    have hNew :
        priorOutcome t.before.ledger request = none := by
      by_contra hPrior
      exact hReplay ⟨request, hRequest, hPrior⟩
    have hHands : HandsOver calmHost
        (fun _ op => op.Precedes decision)
        (Resumes pending decision
          (resumedAgain pending decision) t.before)
        (advance t.engine t.request) t.before := by
      rw [hRequest]
      refine handsOver_advanceTrigger hTrigger hNew
        (fun _ _ hAside => hAside.precedes) ?_
      intro triggerId _ context steps failures events v
        hCopy _ hGrown
      refine handsOver_laterApproval (hUpheld.grown hGrown)
        hCopy (hGrown.toolResults_eq
          fun _ hMarginal => hMarginal.not_result) ?_
      rw [findPendingApproval_grown hGrown]
      exact hAgain.resolved hReplay
    rcases t.resumes hRuns hAgain.proceeds hHands with
      ⟨hAfter, hPerm, hPrecedes⟩
    have hLength := hPerm.length_eq
    rw [List.length_map, List.length_map] at hLength
    refine ⟨hAfter, ?_, hPrecedes⟩
    rw [or_iff_right hReplay, ← List.length_eq_zero_iff,
      hLength, List.length_eq_zero_iff]

/- Later decisions change nothing that has been decided. -/
theorem Run.decidesAgain
    (hRun : Run host w run w')
    (hAgain : ∀ t ∈ run, t.DecidesAgain pending)
    (hUpheld : Upheld pending decision w.ledger) :
    Upheld pending decision w'.ledger ∧
      (run.flatMap Advance.resumed = [] ↔
        ∀ t ∈ run, t.IsReplay ∨
          resumedAgain pending decision = []) ∧
      ∀ t ∈ run, ∀ s ∈ beforeStep t.steps,
        s.op.Precedes decision := by
  induction hRun with
  | nil => simp [hUpheld]
  | @cons t rest w hRuns hRest ih =>
      rw [List.forall_mem_cons] at hAgain
      rcases hAgain.1.resumes hUpheld hRuns with
        ⟨hAfter, hNone, hPrecedes⟩
      rcases ih hAgain.2 hAfter with ⟨hEnd, hNil, hAll⟩
      refine ⟨hEnd, ?_, List.forall_mem_cons.mpr
        ⟨hPrecedes, hAll⟩⟩
      rw [List.flatMap_cons, List.append_eq_nil_iff, hNone,
        hNil, List.forall_mem_cons]

/- Requests that are only answered change nothing. -/
theorem Run.replays
    (hRun : Run host w run w')
    (hReplays : ∀ t ∈ run, t.Proceeds ∧ t.IsReplay) :
    run.flatMap Advance.resumed = [] ∧
      ∀ t ∈ run, ∀ s ∈ beforeStep t.steps, s.op.Aside := by
  induction hRun with
  | nil => simp
  | @cons t rest w hRuns hRest ih =>
      rw [List.forall_mem_cons] at hReplays
      rcases hReplays.1.2.quiet hRuns hReplays.1.1 with
        ⟨_, hNone, hAside⟩
      rcases ih hReplays.2 with ⟨hNil, hAll⟩
      refine ⟨?_, List.forall_mem_cons.mpr ⟨hAside, hAll⟩⟩
      rw [List.flatMap_cons, hNone, hNil]
      rfl

end Runs

/-
  The first decision on an approval is kept. Its calls have
  one result each if and only if no rejection of calls is
  repeated by a request that is not only answered.
-/
theorem approval_resumed_once_iff
    {pending : PendingApprovalRecord}
    {decision : ApprovalDecision}
    {early later : List Advance}
    {first : Advance}
    {w w' : World}
    (hRun : Run host w (early ++ first :: later) w')
    (hEarly : ∀ t ∈ early, t.Proceeds ∧ t.IsReplay)
    (hFirst : first.DecidesFirst pending decision)
    (hLater : ∀ t ∈ later, t.DecidesAgain pending) :
    ResumedOnce pending decision (early ++ first :: later)
        w' ↔
      (decision = .rejected → pending.pendingCalls ≠ [] →
        ∀ t ∈ later, t.IsReplay) := by
  rcases hRun.of_append with ⟨v, hReplayed, hRest⟩
  cases hRest with
  | cons hRuns hRest =>
      rcases hReplayed.replays hEarly with ⟨hNil, hAside⟩
      rcases hFirst.resumes hRuns with
        ⟨hAfter, hPerm, hPrecedes⟩
      rcases hRest.decidesAgain hLater hAfter with
        ⟨hEnd, hAgain, hAll⟩
      have hResults :
          (early ++ first :: later).flatMap Advance.resumed =
            first.resumed ++ later.flatMap Advance.resumed := by
        rw [List.flatMap_append, List.flatMap_cons, hNil,
          List.nil_append]
      have hConsented : decision = .rejected →
          ∀ t ∈ early ++ first :: later,
            ∀ s ∈ beforeStep t.steps, ¬s.op.Executes := by
        intro hRejected t hMem s hStep
        rcases List.mem_append.mp hMem with hBefore | hOther
        · exact (hAside t hBefore s hStep).idle
        · rcases List.mem_cons.mp hOther with hSame | hLate
          · subst hSame
            exact (hPrecedes s hStep).consented hRejected
          · exact (hAll t hLate s hStep).consented hRejected
      -- nothing more is recorded exactly without a repeat
      have hOnce :
          later.flatMap Advance.resumed = [] ↔
            (decision = .rejected →
              pending.pendingCalls ≠ [] →
                ∀ t ∈ later, t.IsReplay) := by
        rw [hAgain]
        cases decision with
        | approved => simp [resumedAgain]
        | rejected =>
            unfold resumedAgain
            by_cases hNone : pending.pendingCalls = []
            · simp [hNone]
            · simp [hNone]
      rw [← hOnce]
      constructor
      · intro hResumed
        have hLength := hResumed.results.length_eq
        rw [hResults, List.map_append, List.length_append,
          hPerm.length_eq] at hLength
        have hZero : ((later.flatMap Advance.resumed).map
            (·.callId)).length = 0 := by
          omega
        exact List.map_eq_nil_iff.mp
          (List.eq_nil_of_length_eq_zero hZero)
      · intro hNone
        refine ⟨hEnd.ruled.decided, ?_, hConsented⟩
        rw [hResults, hNone, List.append_nil]
        exact hPerm

------------------------------------------------------------
-- Decisions Brought Twice
------------------------------------------------------------

namespace Sample

/- The call that has been suspended. -/
def waiting : PendingApprovalRecord where
  resumeToken := "1"
  triggerId := "0"
  step := 0
  reason := .humanApprovalRequired ["echo"]
  pendingCalls := [call "a" (.object [])]

/- The same decision is brought twice, without a key. -/
def decidedTwice
    (approves : Bool) :
    List (Script × AdvanceRequest) :=
  List.replicate 2
    (callsFirst [], .trigger (decides approves))

def repetition (approves : Bool) : List Advance :=
  Script.advances nativeEngine (decidedTwice approves)
    suspended

def repeated (approves : Bool) : World :=
  Script.session nativeEngine (decidedTwice approves)
    suspended

theorem repetition_run
    (approves : Bool) :
    Run calmHost suspended (repetition approves)
      (repeated approves) := by
  apply Script.session_run_on rfl
  intro turn hMem w op a hAnswer
  rw [List.eq_of_mem_replicate hMem] at hAnswer
  exact callsFirst_allowed hAnswer

theorem repetition_requests
    {approves : Bool}
    {t : Advance}
    (hMem : t ∈ repetition approves) :
    t.request = .trigger (decides approves) := by
  have hRequest :
      t.request ∈ (repetition approves).map (·.request) :=
    List.mem_map_of_mem hMem
  unfold repetition decidedTwice at hRequest
  rw [Script.advances_requests, List.map_replicate] at hRequest
  exact List.eq_of_mem_replicate hRequest

theorem repetition_decides
    {approves : Bool}
    {t : Advance}
    (hMem : t ∈ repetition approves) :
    t.Decides "1"
      (if approves then .approved else .rejected) :=
  ⟨_, _, repetition_requests hMem, rfl⟩

theorem repetition_new
    {approves : Bool}
    {t : Advance}
    (hMem : t ∈ repetition approves) :
    ¬t.IsReplay := by
  rintro ⟨request, hRequest, hPrior⟩
  rw [repetition_requests hMem] at hRequest
  cases hRequest
  exact hPrior rfl

set_option maxRecDepth 100000 in
theorem suspended_asked :
    Asked waiting suspended.ledger where
  waits := by rfl
  unresolved := by rfl
  first := by rfl

set_option maxRecDepth 100000 in
/- The session has no graph and no checkpoint yet. -/
theorem suspended_ready :
    BatchReady nativeEngine waiting suspended := by
  have hGraphs : toolGraphs suspended.ledger = [] := by
    rfl
  have hCheckpoints :
      suspended.ledger.filterMap
        SessionRecord.asToolNodeCheckpoint = [] := by
    rfl
  constructor
  · intro context
    apply settleable_of_rank (fun _ => 0) (by decide)
    intro call hCall needed hNeeded
    rw [List.mem_singleton.mp hCall] at hNeeded
    cases hNeeded
  · rw [hGraphs]
    exact fun graph hMem => nomatch hMem
  · intro triggerId _
    rw [hGraphs]
    refine ⟨fun graph hMem => (nomatch hMem), ?_⟩
    intro checkpoint hMem
    have hFound :
        checkpoint ∈ suspended.ledger.filterMap
          SessionRecord.asToolNodeCheckpoint :=
      List.mem_filterMap.mpr ⟨_, hMem, rfl⟩
    rw [hCheckpoints] at hFound
    cases hFound

end Sample

set_option maxRecDepth 100000 in
/- An approval that is repeated runs its call once. -/
theorem approval_resumed_once_approved :
    ResumedOnce Sample.waiting .approved
      (Sample.repetition true) (Sample.repeated true) := by
  have hRun := Sample.repetition_run true
  have hHost :
      Run host Sample.suspended ([] ++ Sample.repetition true)
        (Sample.repeated true) :=
    hRun.mono OnHost.calm.next OnHost.calm.allowed
  have hNone :
      ∀ t ∈ ([] : List Advance), t.Proceeds ∧ t.IsReplay :=
    fun _ hMem => nomatch hMem
  have hDecides : ∀ t ∈ Sample.repetition true,
      t.Decides "1" .approved :=
    fun _ hMem => Sample.repetition_decides hMem
  have hProceeds : ∀ t ∈ Sample.repetition true,
      t.Proceeds := by
    intro t hMem
    apply Advance.proceeds_of_calm (hRun.runs t hMem)
    have hAll : (Sample.repetition true).all
        (·.result.isSome) = true := by
      decide +kernel
    exact List.all_eq_true.mp hAll t hMem
  have hWaits : ∀ t ∈ (Sample.repetition true).tail,
      findPendingApprovalByResumeToken t.before.ledger "1" =
        none := by
    intro t hMem
    have hAll : (Sample.repetition true).tail.all
        (fun t => (findPendingApprovalByResumeToken
          t.before.ledger "1").isNone) = true := by
      decide +kernel
    exact Option.isNone_iff_eq_none.mp
      (List.all_eq_true.mp hAll t hMem)
  have hFirst : ∀ t ∈ (Sample.repetition true).head?,
      t.DecidesFirst Sample.waiting .approved := by
    rintro _ ⟨⟩
    exact
      { proceeds := hProceeds _ List.mem_cons_self
        decides := hDecides _ List.mem_cons_self
        new := Sample.repetition_new List.mem_cons_self
        asked := Sample.suspended_asked
        ready := fun _ => Sample.suspended_ready }
  have hLater : ∀ t ∈ (Sample.repetition true).tail,
      t.DecidesAgain Sample.waiting := by
    intro t hMem
    have hLate := List.mem_of_mem_tail hMem
    exact ⟨hProceeds t hLate, ⟨_, hDecides t hLate⟩,
      fun _ => hWaits t hMem⟩
  exact (approval_resumed_once_iff hHost hNone
    (hFirst _ rfl) hLater).mpr nofun

set_option maxRecDepth 100000 in
/- A rejection that is repeated records its result twice. -/
theorem rejection_recorded_twice :
    ¬∀ sessionId (past run : List Advance) (w w' : World)
      (pending : PendingApprovalRecord)
      (decision : ApprovalDecision),
      Run reliable (World.empty sessionId) past w →
      Asked pending w.ledger →
      Run reliable w run w' →
      (∀ t ∈ run, ∃ later,
        t.Decides pending.resumeToken later) →
      (∃ t ∈ run.head?,
        t.Decides pending.resumeToken decision) →
        ResumedOnce pending decision run w' := by
  intro hAll
  have hOnce := hAll "session" _ (Sample.repetition false) _ _
    Sample.waiting .rejected
    (Script.session_run Sample.nativeEngine
      Sample.suspendedTurns (World.empty "session"))
    Sample.suspended_asked
    (Script.session_run Sample.nativeEngine
      (Sample.decidedTwice false) Sample.suspended)
    (fun t hMem => ⟨_, Sample.repetition_decides hMem⟩)
    ⟨_, rfl, Sample.repetition_decides List.mem_cons_self⟩
  have hLength := hOnce.results.length_eq
  exact absurd hLength (by decide +kernel)

end RainEngine
