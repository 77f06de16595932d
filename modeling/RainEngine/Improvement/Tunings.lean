import RainEngine.Improvement.Endings

/-
  This file carries what an advance does to the imprints
  through a run. Every overlay of a reachable ledger has an
  identifier that was handed out, and an overlay recorded as
  applied has that status.

  Key definitions include:
    * `loading`
    * `WellTuned`

  Key theorems include:
    * `Advance.imprintTurn`
    * `run_wellTuned`
-/

namespace RainEngine

open Effects

------------------------------------------------------------
-- Stores That Can Be Loaded
------------------------------------------------------------

/- The store answered the request to load the session. -/
def LoadAnswered : (op : Op) → Answer op → Prop
| .loadSession, a => ∃ snapshot, a = .ok snapshot
| _, _ => True

/-
  The host with a store that can always be loaded; appends
  and the other reads may fail.
-/
def loading : Machine Op Answer World :=
  host.restrict fun _ op a => LoadAnswered op a

theorem OnHost.loading : OnHost loading where
  next := rfl
  allowed := fun _ _ _ h => h.1

theorem not_loadFails_loading (w : World) :
    ¬LoadFails loading w := by
  rintro ⟨a, hAllowed, hFails⟩
  exact hFails hAllowed.2

theorem not_loadFails_reliable (w : World) :
    ¬LoadFails reliable w :=
  fun hFails => not_storeFails_reliable w hFails.storeFails

theorem loading_of_reliable
    {w : World}
    {op : Op}
    {a : Answer op}
    (hAllowed : reliable.allowed w op a) :
    loading.allowed w op a := by
  refine ⟨hAllowed.1, ?_⟩
  cases op <;> first | trivial | exact hAllowed.2

/- A run on the reliable host can load its ledger. -/
theorem Run.loads
    {run : List Advance}
    {w w' : World}
    (hRun : Run reliable w run w') :
    Run loading w run w' :=
  hRun.mono
    (OnHost.reliable.next.trans OnHost.loading.next.symm)
    (fun _ _ _ => loading_of_reliable)

------------------------------------------------------------
-- Well-Tuned Ledgers
------------------------------------------------------------

/- What holds of every tuning a run has recorded. -/
structure WellTuned (w : World) : Prop where
  issued : ∀ tuning, .policyTuning tuning ∈ w.ledger →
    ∃ uuid ∈ w.issued,
      tuning.overlay.overlayId = "overlay-" ++ uuid
  applied : ∀ tuning, .policyTuning tuning ∈ w.ledger →
    tuning.action = .applied →
      tuning.overlay.status = .applied

theorem wellTuned_empty (sessionId : String) :
    WellTuned (World.empty sessionId) where
  issued := by simp [World.empty]
  applied := by simp [World.empty]

section Tunings

variable {M : Machine Op Answer World}
variable {t : Advance}
variable {run : List Advance}
variable {w w' : World}

/- The imprints an advance adds. -/
theorem Advance.imprintTurn
    (hHost : OnHost M)
    (hLoads : ∀ w, ¬LoadFails M w)
    (hRuns : t.Runs M) :
    ImprintTurn M (imprintBase t.request t.before) t.after
      t.result :=
  exec_imprints hHost hLoads hRuns

theorem Advance.issued
    (hHost : OnHost M)
    (hRuns : t.Runs M) :
    t.before.issued ⊆ t.after.issued := by
  refine (Exec.preserves
    (I := fun w => t.before.issued ⊆ w.issued) hRuns ?_
    (List.Subset.refl _)).2
  intro s _ hBefore _
  rw [hHost.next]
  exact List.Subset.trans hBefore (hostNext_issued _ _ _)

/- A new tuning is one that follows from an outcome. -/
theorem ImprintStep.tuning
    {base : ImprintBase}
    {added : List SessionRecord}
    {tuning : PolicyTuningRecord}
    (hStep : ImprintStep M base w added)
    (hMem : .policyTuning tuning ∈ added) :
    ∃ outcome, TunedBy base outcome tuning w := by
  have hKept : ∀ {outcome kept},
      Imprinted M outcome kept →
        .policyTuning tuning ∉ kept := by
    intro outcome kept hImprinted
    cases hImprinted <;> simp
  cases hStep with
  | none => simp at hMem
  | outcome hImprinted => exact (hKept hImprinted hMem).elim
  | tuned hImprinted hTuned =>
      rcases List.mem_append.mp hMem with hOld | hNew
      · exact (hKept hImprinted hOld).elim
      · rw [List.mem_singleton] at hNew
        cases hNew
        exact ⟨_, hTuned⟩

/- The imprints an advance adds are those of its records. -/
theorem Advance.imprints_added
    {added : List SessionRecord}
    (hHost : OnHost M)
    (hRuns : t.Runs M)
    (hAdded :
      imprints t.after.ledger =
        imprints t.before.ledger ++ added) :
    imprints t.added = added := by
  rw [Advance.ledger_eq hHost hRuns, imprints_append]
    at hAdded
  exact List.append_cancel_left hAdded

theorem Advance.newTuning
    {tuning : PolicyTuningRecord}
    (hHost : OnHost M)
    (hLoads : ∀ w, ¬LoadFails M w)
    (hRuns : t.Runs M)
    (hMem : .policyTuning tuning ∈ t.added) :
    ∃ outcome,
      TunedBy (imprintBase t.request t.before) outcome tuning
        t.after := by
  rcases Advance.imprintTurn hHost hLoads hRuns with
    ⟨added, hAdded, hStep, _⟩
  rw [← mem_imprints_tuning,
    Advance.imprints_added hHost hRuns hAdded] at hMem
  exact hStep.tuning hMem

/- The tunings after an advance, the new ones last. -/
theorem Advance.tunings
    {tuning : PolicyTuningRecord}
    (hHost : OnHost M)
    (hLoads : ∀ w, ¬LoadFails M w)
    (hRuns : t.Runs M)
    (hMem : .policyTuning tuning ∈ t.after.ledger) :
    .policyTuning tuning ∈ t.before.ledger ∨
      (.policyTuning tuning ∈ t.added ∧
        ∃ outcome,
          TunedBy (imprintBase t.request t.before) outcome
            tuning t.after) := by
  rw [Advance.ledger_eq hHost hRuns] at hMem
  rcases List.mem_append.mp hMem with hOld | hNew
  · exact .inl hOld
  · exact .inr ⟨hNew,
      Advance.newTuning hHost hLoads hRuns hNew⟩

/- An applied tuning proposes the overlay it carries. -/
theorem TunedBy.applied
    {base : ImprintBase}
    {outcome : OutcomeRecord}
    {tuning : PolicyTuningRecord}
    (hBy : TunedBy base outcome tuning w)
    (hAction : tuning.action = .applied) :
    ∃ snapshot, Observes base outcome snapshot ∧
      Proposed snapshot outcome tuning.overlay.patch ∧
      outcome.mentions "cost" = false := by
  rcases hBy with
    ⟨snapshot, tuningId, uuid, hObserves, _, _, hTuning⟩
  rcases tuningFor_cases hTuning with
    hRollback | ⟨_, hPropose⟩
  · rcases maybeRollbackRegression_eq_some hRollback with
      ⟨_, _, hOther, _⟩
    rw [hOther] at hAction
    cases hAction
  · rcases proposePolicyTuning_eq_some hPropose with
      ⟨hPatch, _, _, hApplied, _⟩
    exact ⟨snapshot, hObserves, hPatch,
      (hApplied hAction).2.1⟩

/- The overlay a tuning sees as active is of the ledger. -/
theorem Observes.activePolicyOverlay
    {base : ImprintBase}
    {outcome : OutcomeRecord}
    {snapshot : AgentContextSnapshot}
    (hObserves : Observes base outcome snapshot) :
    activePolicyOverlay snapshot.history =
      activePolicyOverlay base.imprints := by
  rw [← activePolicyOverlay_imprints, hObserves.history]
  exact activePolicyOverlay_snoc_other rfl

/- The outcome is one more observation. -/
theorem Observes.observations
    {base : ImprintBase}
    {outcome : OutcomeRecord}
    {snapshot : AgentContextSnapshot}
    (hObserves : Observes base outcome snapshot) :
    terminalObservationCount snapshot.history =
      terminalObservationCount base.imprints + 1 := by
  rw [← terminalObservationCount_imprints, hObserves.history,
    terminalObservationCount_snoc]

theorem WellTuned.advance
    (hHost : OnHost M)
    (hLoads : ∀ w, ¬LoadFails M w)
    (hRuns : t.Runs M)
    (hTuned : WellTuned t.before) :
    WellTuned t.after := by
  constructor
  · intro tuning hMem
    rcases Advance.tunings hHost hLoads hRuns hMem with
      hOld | ⟨_, outcome, snapshot, tuningId, uuid,
        hObserves, hUuid, _, hTuning⟩
    · rcases hTuned.issued tuning hOld with ⟨uuid, hUuid, hId⟩
      exact ⟨uuid, Advance.issued hHost hRuns hUuid, hId⟩
    · rcases tuningFor_cases hTuning with
        hRollback | ⟨_, hPropose⟩
      · rcases maybeRollbackRegression_eq_some hRollback with
          ⟨active, hActive, _, hId, _⟩
        rw [hObserves.activePolicyOverlay] at hActive
        rcases activePolicyOverlay_applied hActive with
          ⟨old, hOld, hOverlay, _, _⟩
        rcases hTuned.issued old (mem_imprints_tuning.mp hOld)
          with ⟨uuid', hUuid', hOldId⟩
        refine ⟨uuid', Advance.issued hHost hRuns hUuid', ?_⟩
        rw [hId, ← hOverlay, hOldId]
      · rcases proposePolicyTuning_eq_some hPropose with
          ⟨_, hId, _⟩
        exact ⟨uuid, hUuid, hId⟩
  · intro tuning hMem hApplied
    rcases Advance.tunings hHost hLoads hRuns hMem with
      hOld | ⟨_, outcome, snapshot, tuningId, uuid, _, _, _,
        hTuning⟩
    · exact hTuned.applied tuning hOld hApplied
    · rcases tuningFor_cases hTuning with
        hRollback | ⟨_, hPropose⟩
      · rcases maybeRollbackRegression_eq_some hRollback with
          ⟨_, _, hAction, _⟩
        rw [hAction] at hApplied
        cases hApplied
      · rcases proposePolicyTuning_eq_some hPropose with
          ⟨_, _, _, hStatus, _⟩
        exact (hStatus hApplied).1

/- Every ledger a run reaches is well tuned. -/
theorem run_wellTuned
    {sessionId : String}
    (hHost : OnHost M)
    (hLoads : ∀ w, ¬LoadFails M w)
    (hRun : Run M (World.empty sessionId) run w) :
    (∀ t ∈ run, WellTuned t.before) ∧ WellTuned w :=
  hRun.preserves
    (fun _ _ hRuns => WellTuned.advance hHost hLoads hRuns)
    (wellTuned_empty sessionId)

end Tunings

end RainEngine
