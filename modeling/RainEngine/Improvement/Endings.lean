import RainEngine.Advances.Footprint
import RainEngine.Advances.Rules
import RainEngine.Improvement.Overlays
import RainEngine.Sessions.Runs

/-
  This file describes what an advance does to the imprints of
  a session whose ledger can be loaded. It appends none of
  them before it ends; when it ends with an outcome it appends
  the outcome, unless the store loses it, and the tuning that
  follows from it under the policy and the imprints the
  advance has started with.

  Key definitions include:
    * `TunedBy`
    * `ImprintStep`
    * `Improved`
    * `improving`
    * `ImprintTurn`

  Key theorems include:
    * `improving_rules`
    * `exec_imprints`
-/

namespace RainEngine

open Effects

------------------------------------------------------------
-- Tunings Of A Turn
------------------------------------------------------------

/- What is known when an advance starts. -/
structure ImprintBase where
  policy : EnginePolicy
  imprints : List SessionRecord
  issued : List String

/- The copy of the ledger a tuning is computed from. -/
structure Observes
    (base : ImprintBase)
    (outcome : OutcomeRecord)
    (snapshot : AgentContextSnapshot) : Prop where
  policy : snapshot.policy = base.policy
  history :
    imprints snapshot.history =
      base.imprints ++ [.outcome outcome]

/- The tuning follows from the outcome, under a new id. -/
def TunedBy
    (base : ImprintBase)
    (outcome : OutcomeRecord)
    (tuning : PolicyTuningRecord)
    (w : World) :
    Prop :=
  ∃ snapshot tuningId uuid,
    Observes base outcome snapshot ∧
      uuid ∈ w.issued ∧ uuid ∉ base.issued ∧
      tuningFor snapshot outcome tuningId
        ("overlay-" ++ uuid) = some tuning

/- The outcome leads to no tuning. -/
def Untuned
    (base : ImprintBase)
    (outcome : OutcomeRecord) :
    Prop :=
  ∃ snapshot, Observes base outcome snapshot ∧
    ∃ tuningId overlayId,
      tuningFor snapshot outcome tuningId overlayId = none

/- The imprint an outcome leaves, unless the store loses it. -/
inductive Imprinted
    (M : Machine Op Answer World)
    (outcome : OutcomeRecord) :
    List SessionRecord → Prop where
  | stored : Imprinted M outcome [.outcome outcome]
  | lost (hFails : ∃ w, StoreFails M w) : Imprinted M outcome []

/- The imprints an advance has appended so far. -/
inductive ImprintStep
    (M : Machine Op Answer World)
    (base : ImprintBase)
    (w : World) :
    List SessionRecord → Prop where
  | none : ImprintStep M base w []
  | outcome {outcome : OutcomeRecord}
      {kept : List SessionRecord}
      (hStored : Imprinted M outcome kept) :
      ImprintStep M base w kept
  | tuned {outcome : OutcomeRecord}
      {kept : List SessionRecord}
      {tuning : PolicyTuningRecord}
      (hStored : Imprinted M outcome kept)
      (hTuned : TunedBy base outcome tuning w) :
      ImprintStep M base w (kept ++ [.policyTuning tuning])

/- What an advance that ends with an outcome has appended. -/
inductive Improved
    (M : Machine Op Answer World)
    (base : ImprintBase)
    (outcome : OutcomeRecord)
    (w : World) :
    List SessionRecord → Prop where
  | untuned
      {kept : List SessionRecord}
      (hStored : Imprinted M outcome kept)
      (hUntuned : Untuned base outcome) :
      Improved M base outcome w kept
  | tuned
      {kept : List SessionRecord}
      {tuning : PolicyTuningRecord}
      (hStored : Imprinted M outcome kept)
      (hTuned : TunedBy base outcome tuning w) :
      Improved M base outcome w
        (kept ++ [.policyTuning tuning])

/- An outcome that is reported but not reached here. -/
def Foreign (outcome : EngineOutcome) : Prop :=
  outcome.idempotentReplay = true ∨
    (∃ triggerId, outcome = nothingToContinue triggerId) ∨
    outcome.stopReason = .storageFailure

/-
  What is claimed of an advance under a policy: before its
  outcome it appends no imprint, and its copy of the ledger
  has the imprints it has started with.
-/
def improving
    (M : Machine Op Answer World)
    (base : ImprintBase) :
    Assertions where
  holds stage w :=
    base.issued ⊆ w.issued ∧
      imprints w.ledger = base.imprints ∧
      match stage with
      | .viewing fresh records =>
          fresh = true → imprints records = base.imprints
      | .acting _ context =>
          imprints context.records = base.imprints ∧
            context.metadata.policy = base.policy
      | .finished _ _ => False
  request w op :=
    base.issued ⊆ w.issued ∧
      ∀ record, op = .append record →
        record.isImprint = true →
        ∃ kept, imprints w.ledger = base.imprints ++ kept ∧
          ImprintStep M base w (kept ++ [record])
  results _ context _ w :=
    base.issued ⊆ w.issued ∧
      imprints w.ledger = base.imprints ∧
      imprints context.records = base.imprints ∧
      context.metadata.policy = base.policy
  returned result w :=
    match result with
    | none => imprints w.ledger = base.imprints
    | some outcome =>
        (Foreign outcome ∧
            imprints w.ledger = base.imprints) ∨
          ∃ record added,
            outcome = .fromRecord record ∧
              Improved M base record w added ∧
              imprints w.ledger = base.imprints ++ added
  thrown _ := True

section Endings

variable {M : Machine Op Answer World}
variable {base : ImprintBase}
variable {engine : AgentEngine}
variable {context : AgentContext}
variable {outcome : OutcomeRecord}
variable {w w' : World}

------------------------------------------------------------
-- Steps Of The Imprints
------------------------------------------------------------

theorem TunedBy.mono
    {tuning : PolicyTuningRecord}
    (hTuned : TunedBy base outcome tuning w)
    (hIssued : w.issued ⊆ w'.issued) :
    TunedBy base outcome tuning w' := by
  rcases hTuned with
    ⟨snapshot, tuningId, uuid, hObserves, hMem, hNew, hTuning⟩
  exact ⟨snapshot, tuningId, uuid, hObserves, hIssued hMem,
    hNew, hTuning⟩

theorem ImprintStep.mono
    {added : List SessionRecord}
    (hStep : ImprintStep M base w added)
    (hIssued : w.issued ⊆ w'.issued) :
    ImprintStep M base w' added := by
  cases hStep with
  | none => exact .none
  | outcome hStored => exact .outcome hStored
  | tuned hStored hTuned =>
      exact .tuned hStored (hTuned.mono hIssued)

/- Identifiers are only added. -/
theorem hostNext_issued
    (w : World)
    (op : Op)
    (a : Answer op) :
    w.issued ⊆ (hostNext w op a).issued := by
  cases op with
  | append record => cases a <;> exact List.Subset.refl _
  | setProjection snapshot =>
      cases a <;> exact List.Subset.refl _
  | newUuid => exact List.subset_cons_self _ _
  | _ => exact List.Subset.refl _

/- The imprints of a world an advance may be in. -/
def ImprintWorld
    (M : Machine Op Answer World)
    (base : ImprintBase)
    (w : World) :
    Prop :=
  ∃ added, imprints w.ledger = base.imprints ++ added ∧
    ImprintStep M base w added

theorem ImprintWorld.next
    {op : Op}
    {a : Answer op}
    (hWorld : ImprintWorld M base w)
    (hRequest : (improving M base).request w op) :
    ImprintWorld M base (hostNext w op a) := by
  rcases hWorld with ⟨added, hAdded, hStep⟩
  have hIssued := hostNext_issued w op a
  rcases hostNext_ledger w op a with hSame | hAppend
  · refine ⟨added, ?_, hStep.mono hIssued⟩
    rw [hSame, hAdded]
  · rcases hAppend with ⟨record, hOp, hLedger⟩
    by_cases hImprint : record.isImprint = true
    · rcases hRequest.2 record hOp hImprint with
        ⟨before, hBefore, hNext⟩
      refine ⟨before ++ [record], ?_, hNext.mono hIssued⟩
      rw [hLedger, imprints_snoc_of_isImprint hImprint, hBefore,
        List.append_assoc]
    · rw [Bool.not_eq_true] at hImprint
      refine ⟨added, ?_, hStep.mono hIssued⟩
      rw [hLedger, imprints_snoc_of_not_isImprint hImprint,
        hAdded]

------------------------------------------------------------
-- Requests That Leave No Imprint
------------------------------------------------------------

/- The request appends no outcome and no tuning. -/
def Op.Unimprinted (op : Op) : Prop :=
  ∀ record, op = .append record → record.isImprint = false

theorem improving_request
    {op : Op}
    (hIssued : base.issued ⊆ w.issued)
    (hOther : op.Unimprinted) :
    (improving M base).request w op := by
  refine ⟨hIssued, ?_⟩
  intro record hOp hImprint
  rw [hOther record hOp] at hImprint
  cases hImprint

theorem unimprinted_append
    {record : SessionRecord}
    (hOther : record.isImprint = false) :
    Op.Unimprinted (.append record) := by
  intro other hSame
  cases hSame
  exact hOther

theorem unimprinted_silent
    {op : Op}
    (hSilent : op.Silent) :
    op.Unimprinted := by
  rintro record hSame
  subst hSame
  exact hSilent.elim

theorem IsRemark.not_isImprint
    {record : SessionRecord}
    (hRemark : IsRemark record) :
    record.isImprint = false := by
  cases record <;> first | rfl | exact hRemark.elim

theorem IsTrace.not_isImprint
    {record : SessionRecord}
    (hTrace : IsTrace record) :
    record.isImprint = false := by
  cases record <;> first | rfl | exact hTrace.elim

/- The imprints are kept and so are the identifiers. -/
structure Unimprinting (w w' : World) : Prop where
  ledger : imprints w'.ledger = imprints w.ledger
  issued : w.issued ⊆ w'.issued

/- A program without imprints keeps them. -/
theorem safe_unimprinted
    {α : Type}
    {V : α → Prop}
    {p : EngineM α}
    (hHost : OnHost M)
    (hUses : Uses Op.Unimprinted V p)
    (hIssued : base.issued ⊆ w.issued) :
    Safe M (improving M base).request
      (fun _ w' => Unimprinting w w') (fun _ _ => True) p w := by
  refine Safe.mono (fun _ _ h => h) (fun _ _ h => h.2)
    (fun _ _ _ => trivial)
    (Uses.safe (I := fun w' : World => Unimprinting w w')
      hUses ?_ ?_ ⟨rfl, List.Subset.refl _⟩)
  · intro w' op hKept hOther
    exact improving_request
      (List.Subset.trans hIssued hKept.issued) hOther
  · intro w' op a hKept hOther _
    rw [hHost.next]
    refine ⟨?_, List.Subset.trans hKept.issued
      (hostNext_issued w' op a)⟩
    rcases hostNext_ledger w' op a with hSame | hAppend
    · rw [hSame, hKept.ledger]
    · rcases hAppend with ⟨record, hOp, hLedger⟩
      rw [hLedger,
        imprints_snoc_of_not_isImprint (hOther record hOp),
        hKept.ledger]

------------------------------------------------------------
-- The End Of An Advance
------------------------------------------------------------

/- Where an advance stands once it has an outcome. -/
structure Imprints
    (base : ImprintBase)
    (kept : List SessionRecord)
    (w : World) : Prop where
  issued : base.issued ⊆ w.issued
  ledger : imprints w.ledger = base.imprints ++ kept

/- Where an advance stands once it has improved itself. -/
def Settled
    (M : Machine Op Answer World)
    (base : ImprintBase)
    (outcome : OutcomeRecord)
    (w : World) :
    Prop :=
  ∃ added, Imprints base added w ∧
    Improved M base outcome w added

theorem Imprints.next
    {kept : List SessionRecord}
    (hKept : Imprints base kept w)
    (hNext : Unimprinting w w') :
    Imprints base kept w' :=
  ⟨List.Subset.trans hKept.issued hNext.issued,
    hNext.ledger.trans hKept.ledger⟩

theorem Settled.next
    (hSettled : Settled M base outcome w)
    (hNext : Unimprinting w w') :
    Settled M base outcome w' := by
  rcases hSettled with ⟨added, hKept, hImproved⟩
  refine ⟨added, hKept.next hNext, ?_⟩
  cases hImproved with
  | untuned hImprinted hUntuned =>
      exact .untuned hImprinted hUntuned
  | tuned hImprinted hTuned =>
      exact .tuned hImprinted (hTuned.mono hNext.issued)

theorem Settled.issued
    (hSettled : Settled M base outcome w) :
    base.issued ⊆ w.issued := by
  rcases hSettled with ⟨_, hKept, _⟩
  exact hKept.issued

theorem safe_appendTuning
    {kept : List SessionRecord}
    {tuning : PolicyTuningRecord}
    (hHost : OnHost M)
    (hKept : Imprints base kept w)
    (hImprinted : Imprinted M outcome kept)
    (hTuned : TunedBy base outcome tuning w) :
    Safe M (improving M base).request
      (fun _ w' => Settled M base outcome w')
      (fun _ _ => True)
      (appendAndPush context (.policyTuning tuning)) w := by
  unfold appendAndPush
  rw [Safe.bind_iff]
  apply hHost.safe_appendOrFail
  · refine ⟨hKept.issued, ?_⟩
    intro record hSame _
    cases hSame
    exact ⟨kept, hKept.ledger, .tuned hImprinted hTuned⟩
  · have hSame : w.issued ⊆
        (w.append (.policyTuning tuning)).issued :=
      List.Subset.refl _
    refine ⟨kept ++ [.policyTuning tuning],
      ⟨hKept.issued, ?_⟩,
      .tuned hImprinted (hTuned.mono hSame)⟩
    rw [World.append_ledger, imprints_snoc_of_isImprint rfl,
      hKept.ledger, List.append_assoc]
  · intro error _
    trivial

/- The tuning is appended with its guardrail. -/
theorem safe_recordTuning
    {kept : List SessionRecord}
    {tuning : PolicyTuningRecord}
    (hHost : OnHost M)
    (hKept : Imprints base kept w)
    (hImprinted : Imprinted M outcome kept)
    (hTuned : TunedBy base outcome tuning w) :
    Safe M (improving M base).request
      (fun _ w' => Settled M base outcome w')
      (fun _ _ => True) (recordTuning tuning context) w := by
  unfold recordTuning
  refine Safe.bind
    (safe_appendTuning hHost hKept hImprinted hTuned) ?_
  intro context' w' hSettled
  refine Safe.mono (fun _ _ h => h)
    (fun _ _ hNext => hSettled.next hNext)
    (fun _ _ h => h)
    (safe_unimprinted (V := fun _ => True) hHost ?_
      hSettled.issued)
  refine Uses.bind (uses_newUuid (unimprinted_silent trivial))
    ?_
  intro patchId _
  exact Uses.mono (fun _ h => h) (fun _ _ => trivial)
    (uses_appendAndPush (unimprinted_append rfl))

theorem safe_tunePolicy
    {snapshot : AgentContextSnapshot}
    {kept : List SessionRecord}
    (hHost : OnHost M)
    (hKept : Imprints base kept w)
    (hImprinted : Imprinted M outcome kept)
    (hObserves : Observes base outcome snapshot)
    (hEnabled :
      snapshot.policy.selfImprovement.enabled = true)
    (hEnough :
      ¬terminalObservationCount snapshot.history <
        snapshot.policy.selfImprovement.minObservationsBeforeTuning) :
    Safe M (improving M base).request
      (fun _ w' => Settled M base outcome w')
      (fun _ _ => True)
      (tunePolicy snapshot outcome context) w := by
  have hDue :
      ¬(snapshot.policy.selfImprovement.enabled = false ∨
        terminalObservationCount snapshot.history <
          snapshot.policy.selfImprovement.minObservationsBeforeTuning) := by
    simp [hEnabled, hEnough]
  unfold tunePolicy
  rw [Safe.bind_iff]
  apply hHost.safe_newUuid
    (improving_request hKept.issued
      (unimprinted_silent trivial))
  intro tuningUuid hFresh
  have hIssued : base.issued ⊆ (w.issue tuningUuid).issued :=
    List.subset_cons_of_subset _ hKept.issued
  have hKept' : Imprints base kept (w.issue tuningUuid) :=
    ⟨hIssued, hKept.ledger⟩
  dsimp only
  cases hRollback :
    maybeRollbackRegression snapshot outcome
      ("tuning-" ++ tuningUuid) with
  | some rollback =>
      apply safe_appendTuning hHost hKept' hImprinted
      refine ⟨snapshot, "tuning-" ++ tuningUuid, tuningUuid,
        hObserves, List.mem_cons_self,
        fun hMem => hFresh (hKept.issued hMem), ?_⟩
      rw [tuningFor, if_neg hDue, hRollback]
  | none =>
      dsimp only
      rw [Safe.bind_iff]
      apply hHost.safe_newUuid
        (improving_request hIssued
          (unimprinted_silent trivial))
      intro overlayUuid hFresh'
      have hKept'' : Imprints base kept
          ((w.issue tuningUuid).issue overlayUuid) :=
        ⟨List.subset_cons_of_subset _ hIssued, hKept.ledger⟩
      cases hPropose :
        proposePolicyTuning snapshot outcome
          ("overlay-" ++ overlayUuid)
          ("tuning-" ++ tuningUuid) with
      | none =>
          refine ⟨kept, hKept'', .untuned hImprinted
            ⟨snapshot, hObserves, "tuning-" ++ tuningUuid,
              "overlay-" ++ overlayUuid, ?_⟩⟩
          rw [tuningFor, if_neg hDue, hRollback]
          exact hPropose
      | some tuning =>
          apply safe_recordTuning hHost hKept'' hImprinted
          refine ⟨snapshot, "tuning-" ++ tuningUuid,
            overlayUuid, hObserves, List.mem_cons_self,
            fun hMem => hFresh' (hIssued hMem), ?_⟩
          rw [tuningFor, if_neg hDue, hRollback]
          exact hPropose

theorem safe_runSelfImprovement
    {kept : List SessionRecord}
    (hHost : OnHost M)
    (hKept : Imprints base kept w)
    (hImprinted : Imprinted M outcome kept)
    (hPolicy : context.metadata.policy = base.policy)
    (hHistory :
      imprints context.records =
        base.imprints ++ [.outcome outcome]) :
    Safe M (improving M base).request
      (fun _ w' => Settled M base outcome w')
      (fun _ _ => True)
      (runSelfImprovement engine context outcome) w := by
  have hObserves :
      Observes base outcome
        (context.toSnapshot outcome.stepsExecuted) :=
    ⟨hPolicy, hHistory⟩
  have hUntuned :
      tuningFor (context.toSnapshot outcome.stepsExecuted)
        outcome "" "" = none →
      Untuned base outcome :=
    fun hNone => ⟨_, hObserves, "", "", hNone⟩
  unfold runSelfImprovement
  dsimp only
  split
  · rename_i hOff
    refine ⟨kept, hKept, .untuned hImprinted (hUntuned ?_)⟩
    exact if_pos (.inl (by simpa using hOff))
  · rename_i hOn
    rw [Safe.bind_iff]
    refine Safe.mono (fun _ _ h => h) ?_ (fun _ _ h => h)
      (safe_unimprinted hHost
        (uses_recordReflection (unimprinted_silent trivial)
          fun _ => unimprinted_append rfl)
        hKept.issued)
    intro reflected w' hNext
    have hKept' := hKept.next hNext
    rw [Safe.bind_iff]
    refine Safe.mono (fun _ _ h => h) ?_ (fun _ _ h => h)
      (safe_unimprinted hHost
        (uses_recordPerformance (unimprinted_silent trivial)
          (fun _ => unimprinted_append rfl)
          (fun _ => unimprinted_append rfl))
        hKept'.issued)
    intro performed w'' hNext'
    have hKept'' := hKept'.next hNext'
    split
    · rename_i hFew
      refine ⟨kept, hKept'', .untuned hImprinted
        (hUntuned ?_)⟩
      exact if_pos (.inr hFew)
    · rename_i hEnough
      exact safe_tunePolicy hHost hKept'' hImprinted hObserves
        (by simpa using hOn) hEnough

theorem improving_finish
    {stopReason : StopReason}
    {response detail : Option String}
    {stepsExecuted : Nat}
    {resumeToken : Option ResumeToken}
    {ready : Bool}
    (hHost : OnHost M)
    (hHolds :
      (improving M base).holds (.acting ready context) w) :
    Safe M (improving M base).request
      (fun outcome w' =>
        (improving M base).returned (some outcome) w')
      (fun _ w' => (improving M base).thrown w')
      (finish engine context stopReason response detail
        stepsExecuted resumeToken) w := by
  rcases hHolds with ⟨hIssued, hLedger, hRecords, hPolicy⟩
  have hRest : ∀ (outcome : OutcomeRecord) kept w',
      Imprints base kept w' → Imprinted M outcome kept →
        Safe M (improving M base).request
          (fun result w'' =>
            (improving M base).returned (some result) w'')
          (fun _ w'' => (improving M base).thrown w'')
          (runSelfImprovement engine
              (context.push (.outcome outcome)) outcome >>=
            fun context =>
              Program.perform (Op.setProjection
                { sessionId := context.sessionId
                  records := context.records
                  latestOutcome := some outcome }) >>=
                fun _ => pure (.fromRecord outcome)) w' := by
    intro outcome kept w' hKept hImprinted
    refine Safe.bind
      (safe_runSelfImprovement hHost hKept hImprinted hPolicy
        ?_) ?_
    · have hPush :
          imprints (context.records ++ [.outcome outcome]) =
            base.imprints ++ [.outcome outcome] := by
        rw [imprints_snoc_of_isImprint rfl, hRecords]
      exact hPush
    · intro context' w'' hSettled
      rw [Safe.bind_iff, safe_perform]
      refine ⟨improving_request hSettled.issued
        (unimprinted_silent trivial), ?_⟩
      intro a _
      rw [hHost.next]
      have hSame : Unimprinting w''
          (hostNext w'' (.setProjection
            { sessionId := context'.sessionId
              records := context'.records
              latestOutcome := some outcome }) a) := by
        cases a <;> exact ⟨rfl, List.Subset.refl _⟩
      rcases hSettled.next hSame with
        ⟨added, hKept, hImproved⟩
      exact .inr ⟨outcome, added, rfl, hImproved,
        hKept.ledger⟩
  unfold finish
  dsimp only
  rw [Safe.bind_iff]
  apply hHost.safe_append
  · refine ⟨hIssued, ?_⟩
    intro record hSame _
    cases hSame
    refine ⟨[], ?_, .outcome .stored⟩
    rw [hLedger, List.append_nil]
  · refine hRest _ _ _ ⟨hIssued, ?_⟩ .stored
    rw [World.append_ledger, imprints_snoc_of_isImprint rfl,
      hLedger]
  · intro error hFails
    refine hRest _ _ _ ⟨hIssued, ?_⟩ (.lost ⟨_, hFails⟩)
    rw [hLedger, List.append_nil]

------------------------------------------------------------
-- The Rules
------------------------------------------------------------

theorem improving_silent
    {op : Op}
    (hIssued : base.issued ⊆ w.issued)
    (hSilent : op.Silent) :
    (improving M base).request w op :=
  improving_request hIssued (unimprinted_silent hSilent)

theorem improving_append
    {record : SessionRecord}
    (hIssued : base.issued ⊆ w.issued)
    (hOther : record.isImprint = false) :
    (improving M base).request w (.append record) :=
  improving_request hIssued (unimprinted_append hOther)

theorem imprints_append_other
    {record : SessionRecord}
    (hLedger : imprints w.ledger = base.imprints)
    (hOther : record.isImprint = false) :
    imprints (w.append record).ledger = base.imprints := by
  rw [World.append_ledger,
    imprints_snoc_of_not_isImprint hOther, hLedger]

/- A batch leaves no imprint. -/
theorem improving_batch
    {step : Nat}
    {calls : List PlannedSkillCall}
    {approvalOverride : Bool}
    (hHost : OnHost M)
    (hIssued : base.issued ⊆ w.issued)
    (hLedger : imprints w.ledger = base.imprints) :
    Safe M (improving M base).request
      (fun _ w' => base.issued ⊆ w'.issued ∧
        imprints w'.ledger = base.imprints)
      (fun _ _ => True)
      (executePlannedCalls engine context step calls
        approvalOverride) w := by
  refine Safe.mono (fun _ _ h => h) (fun _ _ h => h)
    (fun _ _ _ => trivial)
    (hHost.safe_batch
      (I := fun w' : World => base.issued ⊆ w'.issued ∧
        imprints w'.ledger = base.imprints)
      ?_ ?_ ?_ ⟨hIssued, hLedger⟩)
  · intro w' op hKept hBatch
    cases op with
    | append record =>
        exact improving_append hKept.1 hBatch.not_isImprint
    | _ => exact improving_silent hKept.1 trivial
  · intro w' record hKept hTrace
    exact ⟨hKept.1,
      imprints_append_other hKept.2 hTrace.not_isImprint⟩
  · intro w' uuid hKept _
    exact ⟨List.subset_cons_of_subset _ hKept.1, hKept.2⟩

/-
  The rules hold on every machine of the host that can load
  its ledger.
-/
theorem improving_rules
    (hHost : OnHost M)
    (hLoads : ∀ w, ¬LoadFails M w) :
    StepRules M engine (improving M base) where
  quiet := by
    intro stage w op hHolds hQuiet
    apply improving_silent hHolds.1
    cases op <;> trivial
  issue := by
    intro stage w uuid hHolds _
    exact ⟨List.subset_cons_of_subset _ hHolds.1,
      hHolds.2.1, hHolds.2.2⟩
  lag := by
    intro stage w hHolds
    cases stage with
    | viewing _ _ =>
        exact ⟨hHolds.1, hHolds.2.1,
          fun hFlag => by cases hFlag⟩
    | acting _ _ => exact hHolds
    | finished _ _ => exact hHolds
  note := by
    intro stage w record hHolds hRemark
    exact improving_append hHolds.1 hRemark.not_isImprint
  noted := by
    intro stage w record hHolds hRemark
    have hOther := hRemark.not_isImprint
    have hLedger := imprints_append_other hHolds.2.1 hOther
    cases stage with
    | viewing _ _ =>
        exact ⟨hHolds.1, hLedger, fun hFlag => by cases hFlag⟩
    | acting _ context =>
        refine ⟨hHolds.1, hLedger, ?_, hHolds.2.2.2⟩
        have hPush :
            imprints (context.records ++ [record]) =
              base.imprints := by
          rw [imprints_snoc_of_not_isImprint hOther]
          exact hHolds.2.2.1
        exact hPush
    | finished _ _ => exact hHolds.2.2.elim
  deliberated := fun hHolds =>
    ⟨hHolds.1, imprints_append_other hHolds.2.1 rfl,
      hHolds.2.2⟩
  fresh := by
    intro flag records w hHolds
    exact ⟨hHolds.1, hHolds.2.1, fun _ => hHolds.2.1⟩
  stale := fun _ hFails => (hLoads _ hFails).elim
  summarize := fun hHolds =>
    improving_silent hHolds.1 trivial
  propose := by
    intro flag records w uuid plan hHolds _ _ _ _
    have hIssued : base.issued ⊆ (w.issue uuid).issued :=
      List.subset_cons_of_subset _ hHolds.1
    have hLedger :
        imprints (w.issue uuid).ledger = base.imprints :=
      hHolds.2.1
    exact ⟨improving_append hIssued rfl, hIssued,
      imprints_append_other hLedger rfl, by simp⟩
  ask := fun hHolds => improving_silent hHolds.1 trivial
  planStep := by
    intro context w plan action hHolds _
    exact ⟨improving_append hHolds.1 rfl, hHolds.1,
      imprints_append_other hHolds.2.1 rfl, hHolds.2.2⟩
  await := by
    intro ready context w pending hHolds _
    refine ⟨improving_append hHolds.1 rfl, hHolds.1,
      imprints_append_other hHolds.2.1 rfl, ?_,
      hHolds.2.2.2⟩
    have hPush :
        imprints
          (context.records ++ [.pendingApproval pending]) =
            base.imprints := by
      rw [imprints_snoc_of_not_isImprint rfl]
      exact hHolds.2.2.1
    exact hPush
  resolve := by
    intro context w pending resolution hHolds _ _
    exact ⟨improving_append hHolds.1 rfl, hHolds.1,
      imprints_append_other hHolds.2.1 rfl, hHolds.2.2⟩
  reject := fun hHolds => hHolds
  batch := by
    intro ready context w step calls override hHolds _
    refine Safe.mono (fun _ _ h => h) ?_ (fun _ _ h => h)
      (improving_batch hHost hHolds.1 hHolds.2.1)
    rintro execution w' ⟨hIssued, hLedger⟩
    cases execution <;>
      exact ⟨hIssued, hLedger, hHolds.2.2⟩
  result := by
    intro ready context result rest w hHolds
    refine ⟨improving_append hHolds.1 rfl, hHolds.1,
      imprints_append_other hHolds.2.1 rfl, ?_,
      hHolds.2.2.2⟩
    have hPush :
        imprints (context.records ++ [.toolResult result]) =
          base.imprints := by
      rw [imprints_snoc_of_not_isImprint rfl]
      exact hHolds.2.2.1
    exact hPush
  recorded := fun hHolds => hHolds
  lostResult := fun hHolds _ =>
    ⟨trivial, .inl ⟨.inr (.inr rfl), hHolds.2.1⟩⟩
  finish := fun _ _ _ _ _ hHolds =>
    improving_finish hHost hHolds
  progress := fun hHolds => hHolds.2.1
  failed := fun hHolds _ =>
    .inl ⟨.inr (.inr rfl), hHolds.2.1⟩
  thrown := fun _ _ => trivial

------------------------------------------------------------
-- Whole Advances
------------------------------------------------------------

/- The policy a request asks for. -/
def AdvanceRequest.policy : AdvanceRequest → EnginePolicy
| .trigger request => request.policy
| .continueWith request => request.policy

/- The policy of an advance that starts from a ledger. -/
def effectivePolicy
    (policy : EnginePolicy)
    (records : List SessionRecord) :
    EnginePolicy :=
  policy.withOverlay (activePolicyOverlay records)

/- What is known when an advance of a request starts. -/
def imprintBase
    (request : AdvanceRequest)
    (w : World) :
    ImprintBase where
  policy := effectivePolicy request.policy w.ledger
  imprints := imprints w.ledger
  issued := w.issued

theorem effectivePolicy_of_imprints
    {policy : EnginePolicy}
    {records : List SessionRecord}
    (hSame : imprints records = imprints w.ledger) :
    effectivePolicy policy records =
      effectivePolicy policy w.ledger := by
  unfold effectivePolicy
  rw [← activePolicyOverlay_imprints, hSame,
    activePolicyOverlay_imprints]

theorem improving_advanceTrigger
    {request : ProcessRequest}
    (hHost : OnHost M)
    (hLoads : ∀ w, ¬LoadFails M w) :
    Ends M (improving M (imprintBase (.trigger request) w))
      (advanceTrigger engine request) w := by
  have hRefl : w.issued ⊆ w.issued := List.Subset.refl _
  refine Safe.mono (fun _ _ h => h) (fun _ _ h => h)
    (fun _ _ h => h)
    (hHost.safe_advanceTrigger
      (improving_silent hRefl trivial) ?_ ?_ ?_)
  · intro triggerId _ key
    exact improving_silent (List.subset_cons_self _ _) trivial
  · intro triggerId _ prior _
    exact .inl ⟨.inl rfl, rfl⟩
  · intro triggerId _ _
    refine ⟨improving_append (List.subset_cons_self _ _) rfl,
      ?_, ?_⟩
    · intro error _
      exact .inl ⟨.inr (.inr rfl), rfl⟩
    · have hLedger :
          imprints ((w.issue triggerId).append
            (.trigger (request.record triggerId))).ledger =
              imprints w.ledger :=
        imprints_snoc_of_not_isImprint rfl
      apply (improving_rules hHost hLoads).safe_processTrigger
        hHost
      · intro cached _
        exact ⟨List.subset_cons_self _ _, hLedger, by simp⟩
      · exact ⟨List.subset_cons_self _ _, hLedger, by simp⟩
      · intro error _
        exact .inl ⟨.inr (.inr rfl), hLedger⟩
      · intro snapshot w' hHolds
        exact ⟨hHolds.1, hHolds.2.1, hHolds.2.2 rfl,
          effectivePolicy_of_imprints (hHolds.2.2 rfl)⟩

theorem improving_advanceContinue
    {request : ContinueRequest}
    (hHost : OnHost M)
    (hLoads : ∀ w, ¬LoadFails M w) :
    Ends M
      (improving M (imprintBase (.continueWith request) w))
      (advanceContinue engine request) w := by
  have hRefl : w.issued ⊆ w.issued := List.Subset.refl _
  refine hHost.safe_advanceContinue
    (improving_silent hRefl trivial) ?_ ?_ ?_
  · intro error _
    exact .inl ⟨.inr (.inr rfl), rfl⟩
  · intro _
    refine ⟨improving_silent hRefl trivial, ?_⟩
    intro triggerId _
    exact .inl ⟨.inr (.inl ⟨triggerId, rfl⟩), rfl⟩
  · intro trigger _
    apply (improving_rules hHost hLoads).safe_continueTrigger
      hHost
    exact ⟨hRefl, rfl, rfl, rfl⟩

theorem improving_advance
    {request : AdvanceRequest}
    (hHost : OnHost M)
    (hLoads : ∀ w, ¬LoadFails M w) :
    Ends M (improving M (imprintBase request w))
      (advance engine request) w := by
  cases request with
  | trigger request =>
      exact improving_advanceTrigger hHost hLoads
  | continueWith request =>
      exact improving_advanceContinue hHost hLoads

/-
  What an advance has appended to the imprints it has started
  with; an outcome it has reached itself comes with its
  tuning.
-/
def ImprintTurn
    (M : Machine Op Answer World)
    (base : ImprintBase)
    (w : World)
    (r : Option (Except EngineError AdvanceResult)) :
    Prop :=
  ∃ added,
    imprints w.ledger = base.imprints ++ added ∧
      ImprintStep M base w added ∧
      ∀ result outcome,
        r = some (.ok result) →
        result.outcome = some outcome →
        ¬Foreign outcome →
          ∃ record, outcome = .fromRecord record ∧
            Improved M base record w added

theorem Improved.step
    {added : List SessionRecord}
    (hImproved : Improved M base outcome w added) :
    ImprintStep M base w added := by
  cases hImproved with
  | untuned hImprinted _ => exact .outcome hImprinted
  | tuned hImprinted hTuned => exact .tuned hImprinted hTuned

theorem exec_imprints
    {request : AdvanceRequest}
    {steps : List (Step Op Answer World)}
    {r : Option (Except EngineError AdvanceResult)}
    (hHost : OnHost M)
    (hLoads : ∀ w, ¬LoadFails M w)
    (hExec : Exec M w (advance engine request) steps w' r) :
    ImprintTurn M (imprintBase request w) w' r := by
  have hSafe : Ends M (improving M (imprintBase request w))
      (advance engine request) w :=
    improving_advance hHost hLoads
  have hWorld :
      ImprintWorld M (imprintBase request w) w' := by
    refine (Safe.invariant hSafe hExec ?_
      ⟨[], (List.append_nil _).symm, .none⟩).2
    intro w op a hHolds hRequest _
    rw [hHost.next]
    exact hHolds.next hRequest
  by_cases hOwn : ∃ result outcome,
      r = some (.ok result) ∧
        result.outcome = some outcome ∧ ¬Foreign outcome
  · rcases hOwn with ⟨result, outcome, hResult, hOutcome,
      hForeign⟩
    subst hResult
    have hReturned := hSafe.returns hExec
    rw [hOutcome] at hReturned
    rcases hReturned with hOther | ⟨record, added, hRecord,
      hImproved, hLedger⟩
    · exact (hForeign hOther.1).elim
    · refine ⟨added, hLedger, hImproved.step, ?_⟩
      intro result' outcome' hSame hOutcome' _
      cases hSame
      rw [hOutcome] at hOutcome'
      cases hOutcome'
      exact ⟨record, hRecord, hImproved⟩
  · rcases hWorld with ⟨added, hLedger, hStep⟩
    refine ⟨added, hLedger, hStep, ?_⟩
    intro result outcome hResult hOutcome hForeign
    exact (hOwn ⟨result, outcome, hResult, hOutcome,
      hForeign⟩).elim

end Endings

end RainEngine
