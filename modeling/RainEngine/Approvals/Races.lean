import RainEngine.Advances.Notes
import RainEngine.Approvals.Consent
import RainEngine.Effects.Interleaving

/-
  This file is about approvals of one token that overlap: the
  lookup of the pending approval, the record of the decision
  and the calls are requests of their own, and other approvers
  may get in between.

  Key definitions include:
    * `firstDecision`
    * `approvers`
    * `ExecutesPending`
    * `Timely`
    * `Respects`

  Key theorems include:
    * `respects_recordResolution`
    * `respects_approvalStep`
    * `respects_advance`
    * `rejected_not_executed`
-/

namespace RainEngine

open Effects

------------------------------------------------------------
-- Decisions
------------------------------------------------------------

/- The decision that was recorded first for a token. -/
def firstDecision
    (records : List SessionRecord)
    (token : ResumeToken) :
    Option ApprovalDecision :=
  (recordedResolution records token).map (·.decision)

section Decisions

variable {records more : List SessionRecord}
variable {token : ResumeToken}
variable {decision : ApprovalDecision}

/- It stays the first whatever is appended. -/
theorem firstDecision_extends
    (hExtends : records <+: more)
    (hFirst : firstDecision records token = some decision) :
    firstDecision more token = some decision := by
  rcases hExtends with ⟨added, hMore⟩
  subst hMore
  unfold firstDecision recordedResolution at hFirst ⊢
  rw [List.findSome?_append]
  rw [Option.map_eq_some_iff] at hFirst ⊢
  rcases hFirst with ⟨resolution, hFound, hDecision⟩
  exact ⟨resolution, by rw [hFound]; rfl, hDecision⟩

theorem firstDecision_snoc
    {resolution : ApprovalResolutionRecord}
    (hToken : resolution.resumeToken = token) :
    firstDecision
        (records ++ [.approvalResolution resolution]) token =
      (firstDecision records token).or
        (some resolution.decision) := by
  unfold firstDecision recordedResolution
  rw [List.findSome?_append]
  cases records.findSome? fun record =>
      record.asApprovalResolution.filter
        (·.resumeToken = token) with
  | some first => rfl
  | none =>
      simp [SessionRecord.asApprovalResolution,
        Option.filter, hToken]

/- Kernel events decide nothing. -/
theorem firstDecision_events
    (events : List KernelEventRecord) :
    firstDecision
        (records ++ events.map SessionRecord.kernelEvent)
        token =
      firstDecision records token := by
  unfold firstDecision recordedResolution
  rw [List.findSome?_append]
  have hNone :
      (events.map SessionRecord.kernelEvent).findSome?
        (fun record =>
          record.asApprovalResolution.filter
            (·.resumeToken = token)) = none := by
    rw [List.findSome?_eq_none_iff]
    intro record hMem
    rcases List.mem_map.mp hMem with ⟨event, _, hEvent⟩
    rw [← hEvent]
    rfl
  rw [hNone, Option.or_none]

/- A token that is no longer pending has its decision. -/
theorem resolvedTarget_decision
    {target : ApprovalTarget}
    (hTarget : resolvedTarget records token = some target) :
    target.alreadyResolved = true ∧
      firstDecision records token = some target.decision := by
  unfold resolvedTarget at hTarget
  rw [Option.bind_eq_bind, Option.bind_eq_some_iff] at hTarget
  rcases hTarget with ⟨resolution, hResolution, hRest⟩
  rw [Option.bind_eq_bind, Option.bind_eq_some_iff] at hRest
  rcases hRest with ⟨pending, _, hEq⟩
  cases hEq
  refine ⟨rfl, ?_⟩
  unfold firstDecision
  rw [hResolution]
  rfl

/- The approval found to be pending is one of the token. -/
theorem trackPendingApproval_token
    {start : Option PendingApprovalRecord}
    {pending : PendingApprovalRecord}
    (hFound :
      records.foldl (trackPendingApproval token) start =
        some pending) :
    start = some pending ∨ pending.resumeToken = token := by
  induction records generalizing start with
  | nil => exact .inl hFound
  | cons record rest ih =>
      rcases ih hFound with hStart | hToken
      · cases record with
        | pendingApproval other =>
            simp only [trackPendingApproval] at hStart
            split at hStart
            · rename_i hSame
              cases hStart
              exact .inr (by simpa using hSame)
            · exact .inl hStart
        | approvalResolution other =>
            simp only [trackPendingApproval] at hStart
            split at hStart
            · cases hStart
            · exact .inl hStart
        | _ => exact .inl hStart
      · exact .inr hToken

end Decisions

------------------------------------------------------------
-- Overlapping Approvals
------------------------------------------------------------

section Races

variable {ι : Type} [DecidableEq ι]

/- Requests that are advanced at the same time. -/
def approvers
    (engines : ι → AgentEngine)
    (requests : ι → ProcessRequest) :
    ι → EngineM AdvanceResult :=
  fun i => advance (engines i) (.trigger (requests i))

/-
  The advance takes its next step: a step of its plan, or a
  question to the provider.
-/
def Op.startsStep : Op → Bool
| .append (.executionPlan version) =>
    decide (version.currentStepIndex ≠ 0)
| .generateAction timeoutMs _ => timeoutMs.isSome
| _ => false

/- Whether it has done so, after one more request. -/
def stepStarted
    (started : Bool)
    (op : Op)
    (_ : Answer op) :
    Bool :=
  started || op.startsStep

/- The invocation is of a call that awaits approval. -/
def InvokesPending
    (records : List SessionRecord)
    (token : ResumeToken)
    (invocation : SkillInvocation) :
    Prop :=
  ∃ pending, .pendingApproval pending ∈ records ∧
    pending.resumeToken = token ∧
    ∃ call ∈ pending.pendingCalls,
      call.callId = invocation.callId ∧
      call.name = invocation.manifest.name ∧
      call.args = invocation.args

/-
  Some approver executes a pending call of the token, before
  it takes a step of its own.
-/
def ExecutesPending
    (token : ResumeToken)
    (steps : List (ι × Step Op Answer World)) :
    Prop :=
  ∃ early i s late, steps = early ++ (i, s) :: late ∧
    noteOf stepStarted false (ownSteps i early) = false ∧
    ∃ backend invocation,
      s.op = .execute backend invocation ∧
      InvokesPending s.before.ledger token invocation

end Races

/-
  An approval of the token is recorded before any rejection
  of it.
-/
def Timely
    (token : ResumeToken)
    (w : World) :
    (op : Op) → Answer op → Prop
| .append (.approvalResolution resolution), _ =>
    resolution.resumeToken = token →
      resolution.decision = .approved →
        firstDecision w.ledger token ≠ some .rejected
| _, _ => True

------------------------------------------------------------
-- Approvers Amid Others
------------------------------------------------------------

/- The ledger grows. -/
def Grows (w w' : World) : Prop :=
  w.ledger <+: w'.ledger

/- The host whose approvers are timely. -/
def timely (token : ResumeToken) : Machine Op Answer World :=
  reliable.restrict (Timely token)

/- No request of the host takes a record back. -/
theorem grows_interference
    (token : ResumeToken) :
    Interference (timely token) Grows where
  refl := fun _ => List.prefix_refl _
  trans := fun hFirst hSecond => List.IsPrefix.trans hFirst hSecond
  next := fun _ => hostNext_extends _ _ _

/-
  Amid other requests, a program executes nothing before its
  next step unless the first decision is an approval.
-/
abbrev Respects
    {α : Type}
    (token : ResumeToken)
    (Q : α → Bool → World → Prop)
    (p : EngineM α)
    (started : Bool)
    (w : World) :
    Prop :=
  SafeAmid (timely token) Grows stepStarted
    (fun started w op => started = false → op.Executes →
      firstDecision w.ledger token = some .approved)
    Q (fun _ _ _ => True) p started w

/- What is known of a world stays true as the ledger grows. -/
def Stable (K : World → Prop) : Prop :=
  ∀ w w', K w → Grows w w' → K w'

section Approvers

variable {token : ResumeToken}
variable {engine : AgentEngine}
variable {context : AgentContext}
variable {started : Bool}
variable {w : World}

theorem stable_true :
    Stable fun _ => True :=
  fun _ _ h _ => h

theorem stable_copy
    {records : List SessionRecord} :
    Stable fun w => records <+: w.ledger :=
  fun _ _ hCopy hGrows => hCopy.trans hGrows

theorem stable_decision
    {decision : ApprovalDecision} :
    Stable fun w =>
      firstDecision w.ledger token = some decision :=
  fun _ _ hFirst hGrows => firstDecision_extends hGrows hFirst

/- One request that executes nothing. -/
theorem respects_perform
    (op : Op)
    {Q : Answer op → Bool → World → Prop}
    (hNot : ¬op.Executes)
    (hAnswer : ∀ w' a w'', Grows w w' →
      (timely token).allowed w' op a →
        Grows (hostNext w' op a) w'' →
          Q a (stepStarted started op a) w'') :
    Respects token Q (Program.perform op) started w := by
  apply SafeAmid.perform
  · intro _ _ _ hExecutes
    exact absurd hExecutes hNot
  · intro w' hBefore a hAllowed w'' hAfter
    exact hAnswer w' a w'' hBefore hAllowed hAfter

/- What executes nothing keeps what is known. -/
theorem respects_quiet
    {α : Type}
    {V : α → Prop}
    {K : World → Prop}
    {p : EngineM α}
    (hUses : Uses (fun op => ¬op.Executes) V p)
    (hStable : Stable K)
    (hKnown : K w) :
    Respects token (fun a _ w' => V a ∧ K w') p started w := by
  refine SafeAmid.mono (fun _ _ _ h => h) (fun _ _ _ h => h)
    (fun _ _ _ _ => trivial)
    (Uses.safeAmid (K := fun _ w' => K w')
      (grows_interference token) hUses ?_ ?_ ?_ hKnown)
  · intro _ w' op _ hNot _ hExecutes
    exact absurd hExecutes hNot
  · intro _ _ _ _ hNow _
    exact hNow
  · intro _ w' w'' hNow hGrows
    exact hStable w' w'' hNow hGrows

/- After its next step has started nothing is asked of it. -/
theorem respects_started
    {α : Type}
    {p : EngineM α} :
    Respects token (fun _ _ _ => True) p true w := by
  refine SafeAmid.mono (fun _ _ _ h => h)
    (fun _ _ _ _ => trivial) (fun _ _ _ _ => trivial)
    (Uses.safeAmid (K := fun started _ => started = true)
      (grows_interference token) (Uses.any p) ?_ ?_ ?_ rfl)
  · intro _ _ _ hStarted _ hNot
    rw [hStarted] at hNot
    cases hNot
  · intro _ _ _ _ hStarted _
    unfold stepStarted
    rw [hStarted, Bool.true_or]
  · intro _ _ _ hStarted _
    exact hStarted

/- Nor once the first decision is an approval. -/
theorem respects_approved
    {α : Type}
    {p : EngineM α}
    (hApproved :
      firstDecision w.ledger token = some .approved) :
    Respects token (fun _ _ _ => True) p started w := by
  refine SafeAmid.mono (fun _ _ _ h => h)
    (fun _ _ _ _ => trivial) (fun _ _ _ _ => trivial)
    (Uses.safeAmid
      (K := fun _ w' =>
        firstDecision w'.ledger token = some .approved)
      (grows_interference token) (Uses.any p) ?_ ?_ ?_
      hApproved)
  · intro _ _ _ hFirst _ _ _
    exact hFirst
  · intro _ _ _ _ hFirst _
    exact hFirst
  · intro _ _ _ hFirst hGrows
    exact stable_decision _ _ hFirst hGrows

------------------------------------------------------------
-- Requests That Execute Nothing
------------------------------------------------------------

theorem Op.Incidental.not_executes
    {op : Op}
    (hIncidental : op.Incidental) :
    ¬op.Executes := by
  intro hExecutes
  cases op with
  | execute _ _ => exact hIncidental
  | _ => exact hExecutes

theorem Op.Quiet.not_executes
    {op : Op}
    (hQuiet : op.Quiet) :
    ¬op.Executes := by
  intro hExecutes
  cases op with
  | execute _ _ => exact hQuiet
  | _ => exact hExecutes

theorem Incidental.quiet
    {α : Type}
    {p : EngineM α}
    (hUses : Incidental p) :
    Uses (fun op => ¬op.Executes) (fun _ => True) p :=
  Uses.mono (fun _ h => h.not_executes) (fun _ h => h) hUses

theorem quiet_finish
    {stopReason : StopReason}
    {response detail : Option String}
    {stepsExecuted : Nat}
    {resumeToken : Option ResumeToken} :
    Uses (fun op => ¬op.Executes) (fun _ => True)
      (finish engine context stopReason response detail
        stepsExecuted resumeToken) :=
  uses_finish (fun _ _ => id) id (fun _ _ => id) fun _ => id

theorem quiet_finishAdvance
    {stopReason : StopReason}
    {response detail : Option String}
    {stepsExecuted : Nat}
    {resumeToken : Option ResumeToken}
    {emittedEvents : List KernelEventRecord} :
    Uses (fun op => ¬op.Executes) (fun _ => True)
      (finishAdvance engine context stopReason response
        detail stepsExecuted resumeToken emittedEvents) :=
  Uses.bind quiet_finish fun _ _ => trivial

theorem quiet_policyOutcome
    {stepsExecuted failures : Nat} :
    Uses (fun op => ¬op.Executes) (fun _ => True)
      (policyOutcome engine context stepsExecuted
        failures) := by
  unfold policyOutcome
  refine Uses.bind
    (uses_policyStop (fun _ => id) (fun _ => id)) ?_
  intro stop _
  cases stop with
  | none => trivial
  | some stop => exact Uses.bind quiet_finish fun _ _ => trivial

/- A step starts before it executes anything. -/
theorem respects_performSingleStep
    {trigger : AgentTrigger}
    {stepsExecuted failures : Nat}
    {emittedEvents : List KernelEventRecord} :
    Respects token (fun _ _ _ => True)
      (performSingleStep engine context trigger stepsExecuted
        failures emittedEvents) started w := by
  have hOthers := grows_interference token
  unfold performSingleStep
  split
  · apply SafeAmid.bind hOthers
      (J := fun _ started _ => started = true)
    · apply respects_perform (.append _) id
      intro _ _ _ _ _ _
      simp [stepStarted, Op.startsStep,
        ExecutionPlanRecord.next]
    · intro _ started w' hStarted
      subst hStarted
      exact respects_started
  · apply SafeAmid.bind hOthers
      (respects_quiet quiet_policyOutcome stable_true trivial)
    intro stop started w' _
    cases stop with
    | some outcome => exact fun _ _ => trivial
    | none =>
        unfold askProvider
        apply SafeAmid.bind hOthers
          (J := fun _ started _ => started = true)
        · apply respects_perform (.generateAction _ _) id
          intro _ _ _ _ _ _
          simp [stepStarted, Op.startsStep]
        · intro _ started w' hStarted
          subst hStarted
          exact respects_started

------------------------------------------------------------
-- Approvals
------------------------------------------------------------

/- What the lookup of a token has found out about it. -/
structure TargetOf
    (token : ResumeToken)
    (target : ApprovalTarget)
    (w : World) : Prop where
  pending : target.pending.resumeToken = token
  decided : target.alreadyResolved = true →
    firstDecision w.ledger token = some target.decision

/- The decision a copy has is that of the ledger. -/
def Decided
    (token : ResumeToken)
    (records : List SessionRecord)
    (w : World) :
    Prop :=
  ∀ decision, firstDecision records token = some decision →
    firstDecision w.ledger token = some decision

theorem stable_target
    {target : ApprovalTarget} :
    Stable (TargetOf token target) := by
  intro w w' hTarget hGrows
  refine ⟨hTarget.pending, ?_⟩
  intro hResolved
  exact firstDecision_extends hGrows
    (hTarget.decided hResolved)

theorem stable_decided
    {records : List SessionRecord} :
    Stable (Decided token records) := by
  intro w w' hDecided hGrows decision hFirst
  exact firstDecision_extends hGrows
    (hDecided decision hFirst)

theorem resolvedTarget_targetOf
    {records : List SessionRecord}
    {target : ApprovalTarget}
    (hTarget : resolvedTarget records token = some target)
    (hDecided : Decided token records w) :
    TargetOf token target w := by
  have hDecision := (resolvedTarget_decision hTarget).2
  unfold resolvedTarget at hTarget
  rw [Option.bind_eq_bind, Option.bind_eq_some_iff] at hTarget
  rcases hTarget with ⟨resolution, _, hRest⟩
  rw [Option.bind_eq_bind, Option.bind_eq_some_iff] at hRest
  rcases hRest with ⟨pending, hPending, hEq⟩
  cases hEq
  refine ⟨?_, fun _ => hDecided _ hDecision⟩
  rcases List.exists_of_findSome?_eq_some hPending with
    ⟨record, _, hFilter⟩
  rw [Option.filter_eq_some_iff] at hFilter
  simpa using hFilter.2

/- A resolved token keeps the decision of the ledger. -/
theorem respects_findApprovalTarget
    {decision : ApprovalDecision}
    (hDecided : Decided token context.records w) :
    Respects token
      (fun found _ w' => ∀ target, found = some target →
        TargetOf token target w')
      (findApprovalTarget context token decision) started
      w := by
  unfold findApprovalTarget
  apply SafeAmid.bind (grows_interference token)
    (J := fun answer _ w' =>
      (∀ pending, answer = .ok (some pending) →
        pending.resumeToken = token) ∧
        Decided token context.records w')
  · apply respects_perform (.findPendingApproval token) id
    intro w' answer w'' hBefore hAllowed hAfter
    refine ⟨?_, stable_decided _ _
      (stable_decided _ _ hDecided hBefore) hAfter⟩
    intro pending hAnswer
    subst hAnswer
    have hFound :
        some pending =
          findPendingApprovalByResumeToken w'.ledger token :=
      hAllowed.1.1
    rcases trackPendingApproval_token hFound.symm with
      hNone | hToken
    · cases hNone
    · exact hToken
  · intro answer started w' hAnswer
    rcases hAnswer with ⟨hPending, hDecided⟩
    cases answer with
    | error error => exact fun _ _ => trivial
    | ok found =>
        cases found with
        | none =>
            intro w'' hGrows target hTarget
            exact resolvedTarget_targetOf hTarget
              (stable_decided _ _ hDecided hGrows)
        | some pending =>
            intro w'' _ target hTarget
            cases hTarget
            exact ⟨hPending pending rfl,
              fun hResolved => by cases hResolved⟩

/- A timely approval is the first decision. -/
theorem respects_recordResolution
    {target : ApprovalTarget}
    {metadata : Json}
    (hTarget : TargetOf token target w) :
    Respects token
      (fun _ _ w' => target.decision = .approved →
        firstDecision w'.ledger token = some .approved)
      (recordResolution target metadata) started w := by
  have hOthers := grows_interference token
  unfold recordResolution
  split
  · rename_i hResolved
    intro w' hGrows hApproved
    have hFirst :=
      (stable_target _ _ hTarget hGrows).decided hResolved
    rw [hApproved] at hFirst
    exact hFirst
  · unfold appendOrFail
    apply SafeAmid.bind hOthers
      (J := fun stored _ w' => stored = .ok () →
        target.decision = .approved →
          firstDecision w'.ledger token = some .approved)
    · apply respects_perform (.append _) id
      intro w' stored w'' hBefore hAllowed hAfter hStored
        hApproved
      subst hStored
      apply firstDecision_extends hAfter
      have hTimely := hAllowed.2 hTarget.pending hApproved
      refine (firstDecision_snoc ?_).trans ?_
      · exact hTarget.pending
      dsimp only
      rw [hApproved]
      cases hFirst : firstDecision w'.ledger token with
      | none => rfl
      | some decision =>
          cases decision with
          | approved => rfl
          | rejected => exact absurd hFirst hTimely
    · intro stored started w' hFirst
      cases stored with
      | error error => exact fun _ _ => trivial
      | ok _ =>
          intro w'' hGrows hApproved
          exact firstDecision_extends hGrows
            (hFirst rfl hApproved)

theorem respects_resumeCalls
    {target : ApprovalTarget}
    (hApproved : target.decision = .approved →
      firstDecision w.ledger token = some .approved) :
    Respects token (fun _ _ _ => True)
      (resumeCalls engine context target) started w := by
  unfold resumeCalls
  split
  · rename_i hDecision
    exact respects_approved (hApproved hDecision)
  · exact fun _ _ => trivial

theorem respects_approvalStep
    {trigger : AgentTrigger}
    {decision : ApprovalDecision}
    {metadata : Json}
    {stepsExecuted failures : Nat}
    {emittedEvents : List KernelEventRecord}
    (hDecided : Decided token context.records w) :
    Respects token (fun _ _ _ => True)
      (approvalStep engine context trigger token decision
        metadata stepsExecuted failures emittedEvents)
      started w := by
  have hOthers := grows_interference token
  have hEnds : ∀ {context : AgentContext} {started : Bool}
      {w : World} {stopReason : StopReason}
      {response detail : Option String} {stepsExecuted : Nat}
      {resumeToken : Option ResumeToken},
      Respects token (fun _ _ _ => True)
        (finishAdvance engine context stopReason response
          detail stepsExecuted resumeToken emittedEvents)
        started w :=
    SafeAmid.mono (fun _ _ _ h => h) (fun _ _ _ _ => trivial)
      (fun _ _ _ h => h)
      (respects_quiet quiet_finishAdvance stable_true trivial)
  unfold approvalStep
  apply SafeAmid.bind hOthers
    (respects_findApprovalTarget hDecided)
  intro found started w' hFound
  cases found with
  | none => exact hEnds
  | some target =>
      apply SafeAmid.bind hOthers
        (respects_recordResolution (hFound target rfl))
      intro _ started w'' hApproved
      apply SafeAmid.bind hOthers
        (respects_resumeCalls hApproved)
      intro execution started w' _
      cases execution with
      | suspended _ _ _ => exact hEnds
      | executed batch =>
          apply SafeAmid.bind hOthers
            (respects_quiet
              (uses_recordResultsOrFail fun _ => id)
              stable_true trivial)
          intro context' started w'' _
          exact respects_performSingleStep

------------------------------------------------------------
-- Copies Of The Ledger
------------------------------------------------------------

/- A snapshot that is read anew is a copy of the ledger. -/
theorem respects_refreshSnapshot
    {snapshot : SessionSnapshot} :
    Respects token
      (fun snapshot _ w' => snapshot.records <+: w'.ledger)
      (refreshSnapshot snapshot) started w := by
  unfold refreshSnapshot
  apply SafeAmid.bind (grows_interference token)
    (J := fun answer _ w' => ∃ loaded,
      answer = .ok loaded ∧ loaded.records <+: w'.ledger)
  · apply respects_perform .loadSession id
    intro w' answer w'' _ hAllowed hAfter
    rcases hAllowed.1.2 with ⟨loaded, hAnswer⟩
    subst hAnswer
    have hLoaded : loaded = w'.snapshot := hAllowed.1.1
    subst hLoaded
    exact ⟨_, rfl, hAfter⟩
  · intro answer started w' hAnswer
    rcases hAnswer with ⟨loaded, hLoaded, hCopy⟩
    subst hLoaded
    intro w'' hGrows
    exact stable_copy _ _ hCopy hGrows

theorem respects_summarizeIfLong
    {request : ProcessRequest}
    {snapshot : SessionSnapshot}
    (hCopy : snapshot.records <+: w.ledger) :
    Respects token
      (fun snapshot _ w' => snapshot.records <+: w'.ledger)
      (summarizeIfLong engine request snapshot) started w := by
  have hOthers := grows_interference token
  unfold summarizeIfLong
  split
  · apply SafeAmid.bind hOthers
      (respects_quiet incidental_summarizeHistory.quiet stable_copy
        hCopy)
    intro summary started w' hKept
    cases summary with
    | none => exact fun _ hGrows => stable_copy _ _ hKept.2 hGrows
    | some summary =>
        apply SafeAmid.bind hOthers
          (respects_quiet (uses_append id) stable_true trivial)
        intro _ started w'' _
        exact respects_refreshSnapshot
  · exact fun _ hGrows => stable_copy _ _ hCopy hGrows

theorem respects_runPlanner
    {request : ProcessRequest}
    {snapshot : SessionSnapshot}
    (hCopy : snapshot.records <+: w.ledger) :
    Respects token
      (fun snapshot _ w' => snapshot.records <+: w'.ledger)
      (runPlanner engine request snapshot) started w := by
  have hOthers := grows_interference token
  unfold runPlanner
  split
  · apply SafeAmid.bind hOthers
      (J := fun _ _ w' => snapshot.records <+: w'.ledger)
    · apply respects_perform (.plan _ _) id
      intro w' _ w'' hBefore _ hAfter
      exact stable_copy _ _
        (stable_copy _ _ hCopy hBefore) hAfter
    · intro output started w' hCopy
      apply SafeAmid.bind hOthers
        (respects_quiet incidental_appendPlannedEvents.quiet
          stable_copy hCopy)
      intro _ started w'' hEvents
      apply SafeAmid.bind hOthers
        (respects_quiet incidental_appendProposedPlan.quiet
          stable_copy hEvents.2)
      intro _ started w' hPlan
      dsimp only
      split
      · apply SafeAmid.bind hOthers respects_refreshSnapshot
        intro refreshed started w'' hCopy
        exact respects_summarizeIfLong hCopy
      · exact respects_summarizeIfLong hPlan.2
  · exact fun _ hGrows => stable_copy _ _ hCopy hGrows

------------------------------------------------------------
-- Whole Advances
------------------------------------------------------------

theorem quiet_loadTriggerSnapshot
    {record : TriggerRecord} :
    Uses (fun op => ¬op.Executes) (fun _ => True)
      (loadTriggerSnapshot record) := by
  unfold loadTriggerSnapshot
  rw [Uses.bind_iff, uses_perform]
  refine ⟨id, ?_⟩
  intro cached
  cases cached with
  | none => exact ⟨id, fun _ => trivial⟩
  | some cached => trivial

theorem quiet_findPriorOutcome
    {key : Option String} :
    Uses (fun op => ¬op.Executes) (fun _ => True)
      (findPriorOutcome key) := by
  unfold findPriorOutcome
  split
  · trivial
  · refine ⟨id, ?_⟩
    intro answer
    cases answer <;> trivial

theorem respects_triggerStep
    {request : ProcessRequest}
    {triggerId : String}
    {snapshot : SessionSnapshot}
    {decision : ApprovalDecision}
    {metadata : Json}
    (hTrigger :
      request.trigger = .approval token decision metadata)
    (hCopy : snapshot.records <+: w.ledger) :
    Respects token (fun _ _ _ => True)
      (triggerStep engine request triggerId snapshot) started
      w := by
  unfold triggerStep
  dsimp only
  apply SafeAmid.bind (grows_interference token)
    (respects_quiet
      (Uses.mono (fun _ h => h.not_executes) (fun _ h => h)
        (uses_persistKernelEvents
          fun _ => IsNote.incidental trivial))
      stable_copy hCopy)
  intro context started w' hKept
  rcases hKept with ⟨⟨hRecords, _⟩, hCopy⟩
  rw [hTrigger]
  apply respects_approvalStep
  intro decision hFirst
  rw [hRecords, firstDecision_events] at hFirst
  exact firstDecision_extends hCopy hFirst

/- An approver respects the first decision on its token. -/
theorem respects_advance
    {request : ProcessRequest}
    {decision : ApprovalDecision}
    {metadata : Json}
    (hTrigger :
      request.trigger = .approval token decision metadata) :
    Respects token (fun _ _ _ => True)
      (advance engine (.trigger request)) started w := by
  have hOthers := grows_interference token
  unfold advance advanceTrigger
  apply SafeAmid.bind hOthers
    (respects_quiet (uses_newUuid id) stable_true trivial)
  intro triggerId started w' _
  apply SafeAmid.bind hOthers
    (respects_quiet quiet_findPriorOutcome stable_true trivial)
  intro prior started w'' _
  cases prior with
  | some prior => exact fun _ _ => trivial
  | none =>
      apply SafeAmid.bind hOthers
        (respects_quiet (uses_append id) stable_true trivial)
      intro stored started w' _
      cases stored with
      | error error => exact fun _ _ => trivial
      | ok _ =>
          unfold processTrigger
          apply SafeAmid.bind hOthers
            (respects_quiet quiet_loadTriggerSnapshot
              stable_true trivial)
          intro loaded started w'' _
          cases loaded with
          | error error => exact fun _ _ => trivial
          | ok snapshot =>
              apply SafeAmid.bind hOthers
                (respects_quiet (uses_append id) stable_true
                  trivial)
              intro _ started w' _
              apply SafeAmid.bind hOthers
                respects_refreshSnapshot
              intro refreshed started w'' hCopy
              apply SafeAmid.bind hOthers
                (respects_runPlanner hCopy)
              intro planned started w' hCopy
              exact respects_triggerStep hTrigger hCopy

end Approvers

------------------------------------------------------------
-- Rejected Calls
------------------------------------------------------------

/-
  Approvals of one token that overlap, request by request:
  where every approval is timely, no pending call is executed
  that was rejected first.
-/
theorem rejected_not_executed
    {ι : Type} [DecidableEq ι]
    {engines : ι → AgentEngine}
    {requests : ι → ProcessRequest}
    {token : ResumeToken}
    {steps : List (ι × Step Op Answer World)}
    {w w' : World}
    (hRequests : ∀ i, ∃ decision metadata,
      (requests i).trigger = .approval token decision metadata)
    (hRun : Interleaved reliable w
      (approvers engines requests) steps w')
    (hTimely : ∀ s ∈ steps,
      Timely token s.2.before s.2.op s.2.answer) :
    ¬(firstDecision w'.ledger token = some .rejected ∧
      ExecutesPending token steps) := by
  intro hBoth
  rcases hBoth with ⟨hRejected, early, i, s, late, hSteps,
    hStarted, backend, invocation, hOp, _⟩
  have hSafe : ∀ i, Respects token (fun _ _ _ => True)
      (approvers engines requests i) false w := by
    intro i
    rcases hRequests i with ⟨decision, metadata, hTrigger⟩
    exact respects_advance hTrigger
  have hTimed := hRun.restrict hTimely
  have hApproved := Interleaved.safe
    (grows_interference token) hSafe hTimed early i s late
    hSteps hStarted (by rw [hOp]; trivial)
  have hGrown : Grows s.before w' :=
    (hTimed.amid (grows_interference token)).2 (i, s)
      (by simp [hSteps])
  have hSame := firstDecision_extends hGrown hApproved
  rw [hRejected] at hSame
  cases hSame

------------------------------------------------------------
-- Two Approvers
------------------------------------------------------------

namespace Sample

/- A message that is suspended until its call is approved. -/
def suspendedTurns : List (Script × AdvanceRequest) :=
  [(callsFirst [call "a" (.object [])], .trigger message)]

def suspended : World :=
  Script.session nativeEngine suspendedTurns
    (World.empty "session")

/- One approver approves the call, the other rejects it. -/
def decides (approves : Bool) : ProcessRequest :=
  { message with
    trigger := .approval "1"
      (if approves then .approved else .rejected) .null }

/- The two of them in the order of a schedule. -/
def overlapping
    (schedule : List Bool) :
    List (Bool × Step Op Answer World) × World :=
  interleave reliable (fun _ => (callsFirst []).answer)
    schedule (approvers (fun _ => nativeEngine) decides)
    suspended

theorem overlapping_interleaved
    (schedule : List Bool) :
    Interleaved reliable suspended
      (approvers (fun _ => nativeEngine) decides)
      (overlapping schedule).1 (overlapping schedule).2 :=
  interleave_interleaved
    (fun _ _ _ _ => Script.answer_allowed) _ _ _

/- The approver waits while the rejection is recorded. -/
def raceSchedule : List Bool :=
  List.replicate 6 true ++ List.replicate 7 false ++
    List.replicate 12 true

/- The approver is done before the rejection starts. -/
def calmSchedule : List Bool :=
  List.replicate 40 true ++ List.replicate 40 false

/- Arguments without a member. -/
def isBare : Json → Bool
| .object [] => true
| _ => false

theorem isBare_eq
    {args : Json}
    (hBare : isBare args = true) :
    args = .object [] := by
  unfold isBare at hBare
  split at hBare
  · rfl
  · cases hBare

/- The request executes a bare call that awaits approval. -/
def executesPending
    (token : ResumeToken)
    (s : Step Op Answer World) :
    Bool :=
  match s.op with
  | .execute _ invocation =>
      s.before.ledger.any fun record =>
        record.asPendingApproval.any fun pending =>
          decide (pending.resumeToken = token) &&
            pending.pendingCalls.any fun call =>
              decide (call.callId = invocation.callId ∧
                  call.name = invocation.manifest.name) &&
                (isBare call.args && isBare invocation.args)
  | _ => false

/- A run executes a pending call at its step `n`. -/
theorem executesPending_at
    {steps : List (Bool × Step Op Answer World)}
    {token : ResumeToken}
    (n : Nat)
    (hStep : (steps[n]?).any (fun s =>
      !noteOf stepStarted false
          (ownSteps s.1 (steps.take n)) &&
        executesPending token s.2) = true) :
    ExecutesPending token steps := by
  rw [Option.any_eq_true] at hStep
  rcases hStep with ⟨⟨i, s⟩, hAt, hYes⟩
  rw [Bool.and_eq_true, Bool.not_eq_true'] at hYes
  rcases hYes with ⟨hStarted, hExecutes⟩
  refine ⟨steps.take n, i, s, steps.drop (n + 1), ?_,
    hStarted, ?_⟩
  · rcases List.getElem?_eq_some_iff.mp hAt with ⟨hLt, hGet⟩
    rw [← hGet, ← List.drop_eq_getElem_cons hLt,
      List.take_append_drop]
  · unfold executesPending at hExecutes
    split at hExecutes
    · rename_i backend invocation hOp
      refine ⟨backend, invocation, hOp, ?_⟩
      rw [List.any_eq_true] at hExecutes
      rcases hExecutes with ⟨record, hMem, hPending⟩
      rw [Option.any_eq_true] at hPending
      rcases hPending with ⟨pending, hRecord, hCalls⟩
      rw [Bool.and_eq_true, decide_eq_true_iff,
        List.any_eq_true] at hCalls
      rcases hCalls with ⟨hToken, call, hCall, hSame⟩
      cases record with
      | pendingApproval _ =>
          cases hRecord
          rw [Bool.and_eq_true, Bool.and_eq_true,
            decide_eq_true_iff] at hSame
          rcases hSame with ⟨⟨hId, hName⟩, hArgs, hArgs'⟩
          exact ⟨pending, hMem, hToken, call, hCall, hId,
            hName, (isBare_eq hArgs).trans
              (isBare_eq hArgs').symm⟩
      | _ => cases hRecord
    · cases hExecutes

end Sample

instance (token : ResumeToken)
    (s : Step Op Answer World) :
    Decidable (Timely token s.before s.op s.answer) := by
  unfold Timely
  split <;> infer_instance

set_option maxRecDepth 100000 in
/- An approval and a rejection one after the other. -/
theorem rejected_not_executed_calm :
    ¬(firstDecision
          (Sample.overlapping Sample.calmSchedule).2.ledger
          "1" =
        some .rejected ∧
      ExecutesPending "1"
        (Sample.overlapping Sample.calmSchedule).1) :=
  rejected_not_executed
    (fun _ => ⟨_, _, rfl⟩)
    (Sample.overlapping_interleaved Sample.calmSchedule)
    (by decide +kernel)

set_option maxRecDepth 100000 in
/- An approver that has looked first executes the call. -/
theorem rejected_call_executed :
    ¬∀ (engines : Bool → AgentEngine)
      (requests : Bool → ProcessRequest)
      (token : ResumeToken) (metadata : Bool → Json)
      sessionId run w steps w',
      (requests true).trigger =
          .approval token .approved (metadata true) →
      (requests false).trigger =
          .approval token .rejected (metadata false) →
      Run reliable (World.empty sessionId) run w →
      Interleaved reliable w (approvers engines requests)
          steps w' →
        ¬(firstDecision w'.ledger token = some .rejected ∧
          ExecutesPending token steps) := by
  intro hAll
  have hNever := hAll (fun _ => Sample.nativeEngine)
    Sample.decides "1" (fun _ => .null) _ _ _ _ _ rfl rfl
    (Script.session_run Sample.nativeEngine
      Sample.suspendedTurns (World.empty "session"))
    (Sample.overlapping_interleaved Sample.raceSchedule)
  refine hNever ⟨by decide +kernel, ?_⟩
  exact Sample.executesPending_at 24 (by decide +kernel)

end RainEngine
