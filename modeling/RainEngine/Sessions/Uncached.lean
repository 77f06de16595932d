import RainEngine.Advances.Inquiries
import RainEngine.Effects.Matching
import RainEngine.Improvement.Tunings
import RainEngine.Sessions.Runs

/-
  This file proves that the projection cache does not take part
  in what a session does. As long as the reads of the ledger
  succeed, the cache may answer anything, as one that is stale,
  shared or lost does: each advance then has one that never
  finds an entry, asks the same, appends the same and returns
  the same.

  Key definitions include:
    * `anyCache`
    * `noCache`
    * `SameSession`
    * `Advance.Alike`

  Key theorems include:
    * `keepsStep_cache`
    * `unaided_processTrigger`
    * `unaided_advance`
    * `run_without_cache`
-/

namespace RainEngine

open Effects

------------------------------------------------------------
-- Caches
------------------------------------------------------------

/- The cache is asked in vain. -/
def Missed : (op : Op) → Answer op → Prop
| .getProjection, a => a = none
| _, _ => True

/- The host with a cache that may answer anything. -/
def anyCache : Machine Op Answer World where
  allowed := fun w op a =>
    (op ≠ .getProjection → hostAllowed w op a) ∧
      LoadAnswered op a
  next := hostNext

/- The host with a cache that has nothing. -/
def noCache : Machine Op Answer World :=
  loading.restrict fun _ op a => Missed op a

/- The worlds differ in their caches only. -/
structure SameSession (w v : World) : Prop where
  sessionId : v.sessionId = w.sessionId
  ledger : v.ledger = w.ledger
  issued : v.issued = w.issued

/- What is asked of others than the cache and the ledger. -/
def Op.isSeen : Op → Bool
| .getProjection => false
| .loadSession => false
| _ => true

/- All requests but the one of the cached projection. -/
def Op.Uncached : Op → Prop
| .getProjection => False
| _ => True

section Caches

variable {w v : World}

theorem SameSession.snapshot
    (hSame : SameSession w v) :
    v.snapshot = w.snapshot := by
  unfold World.snapshot
  rw [hSame.sessionId, hSame.ledger]

theorem SameSession.recordPage
    {offset limit : Nat}
    (hSame : SameSession w v) :
    v.recordPage offset limit = w.recordPage offset limit := by
  unfold World.recordPage
  rw [hSame.ledger]

theorem SameSession.allowed
    {op : Op}
    {a : Answer op}
    (hSame : SameSession w v)
    (hUncached : op.Uncached)
    (hAllowed : hostAllowed w op a) :
    hostAllowed v op a := by
  cases op with
  | getProjection => exact hUncached.elim
  | loadSession =>
      change ReadsAs v.snapshot a
      rw [hSame.snapshot]
      exact hAllowed
  | findOutcome key =>
      change ReadsAs (findOutcomeByIdempotencyKey v.ledger key)
        a
      rw [hSame.ledger]
      exact hAllowed
  | findPendingApproval token =>
      change ReadsAs
        (findPendingApprovalByResumeToken v.ledger token) a
      rw [hSame.ledger]
      exact hAllowed
  | listRecords offset limit =>
      change ReadsAs (v.recordPage offset limit) a
      rw [hSame.recordPage]
      exact hAllowed
  | newUuid =>
      change a ∉ v.issued
      rw [hSame.issued]
      exact hAllowed
  | _ => exact hAllowed

theorem SameSession.next
    {op : Op}
    {a : Answer op}
    (hSame : SameSession w v) :
    SameSession (hostNext w op a) (hostNext v op a) := by
  rcases hSame with ⟨hSession, hLedger, hIssued⟩
  cases op with
  | append record =>
      cases a with
      | ok _ =>
          refine ⟨hSession, ?_, hIssued⟩
          change v.ledger ++ [record] = w.ledger ++ [record]
          rw [hLedger]
      | error _ => exact ⟨hSession, hLedger, hIssued⟩
  | setProjection snapshot =>
      cases a <;> exact ⟨hSession, hLedger, hIssued⟩
  | newUuid =>
      refine ⟨hSession, hLedger, ?_⟩
      change a :: v.issued = a :: w.issued
      rw [hIssued]
  | _ => exact ⟨hSession, hLedger, hIssued⟩

/- Without a cache, all other requests are answered alike. -/
theorem keepsStep_cache :
    KeepsStep anyCache noCache SameSession Op.Uncached := by
  intro w v op a hUncached hSame hAllowed
  have hNot : op ≠ .getProjection := by
    rintro rfl
    exact hUncached
  have hMissed : Missed op a := by
    cases op with
    | getProjection => exact hUncached.elim
    | _ => trivial
  exact
    ⟨⟨⟨hSame.allowed hUncached (hAllowed.1 hNot), hAllowed.2⟩,
        hMissed⟩, hSame.next⟩

end Caches

------------------------------------------------------------
-- Parts That Do Not Ask For The Projection
------------------------------------------------------------

/- A part of an advance that leaves the cache alone. -/
abbrev Uncached
    {α : Type}
    (p : EngineM α) :
    Prop :=
  Uses Op.Uncached (fun _ => True) p

section Parts

variable {engine : AgentEngine}
variable {context : AgentContext}
variable {trigger : AgentTrigger}
variable {stepsExecuted : Nat}
variable {emittedEvents : List KernelEventRecord}

theorem Op.Routine.uncached
    {op : Op}
    (hRoutine : op.Routine) :
    op.Uncached := by
  cases op with
  | getProjection => exact hRoutine
  | _ => trivial

theorem Routine.uncached
    {α : Type}
    {p : EngineM α}
    (hRoutine : Routine p) :
    Uncached p :=
  Uses.mono (fun _ h => h.uncached) (fun _ h => h) hRoutine

theorem uncached_persistProviderMetadata
    {decision : ProviderDecision} :
    Uncached (persistProviderMetadata decision context) :=
  uses_persistProviderMetadata (fun _ => trivial)
    fun _ => trivial

theorem uncached_askProvider :
    Uncached
      (askProvider engine context trigger stepsExecuted
        emittedEvents) := by
  refine Uses.bind (V := fun _ => True)
    (uses_perform.mpr ⟨trivial, fun _ => trivial⟩) ?_
  intro answer _
  cases answer with
  | none => exact routine_finishAdvance.uncached
  | some answer =>
      cases answer with
      | error error => exact routine_finishAdvance.uncached
      | ok decision =>
          refine Uses.bind uncached_persistProviderMetadata ?_
          intro context' _
          refine Uses.bind (uses_append trivial) ?_
          intro stored _
          cases stored with
          | error error => trivial
          | ok _ => exact routine_executeAction.uncached

theorem Inquires.uncached
    {p : EngineM AdvanceResult}
    (hInquires : Inquires engine p) :
    Uncached p := by
  refine Leads.uses hInquires (fun _ h => h.uncached) ?_
  rintro p ⟨context, trigger, stepsExecuted, events, rfl⟩
  exact uncached_askProvider

end Parts

------------------------------------------------------------
-- Advances Without The Cache
------------------------------------------------------------

/- The executions of one have executions of the other. -/
abbrev Unaided
    {α : Type}
    (p q : EngineM α)
    (w v : World) :
    Prop :=
  Matched anyCache noCache SameSession Op.isSeen p q w v

section Advances

variable {engine : AgentEngine}
variable {w v : World}

theorem unaided_of_uncached
    {α : Type}
    {p : EngineM α}
    (hUncached : Uncached p)
    (hSame : SameSession w v) :
    Unaided p p w v :=
  Matched.of_uses keepsStep_cache hUncached hSame

/- What was read before does not outlive a fresh read. -/
theorem unaided_refreshSnapshot
    {α : Type}
    {f : SessionSnapshot → EngineM α}
    {old other : SessionSnapshot}
    (hNext : ∀ snapshot, Uncached (f snapshot))
    (hSame : SameSession w v) :
    Unaided (refreshSnapshot old >>= f)
      (refreshSnapshot other >>= f) w v := by
  refine Matched.both keepsStep_cache trivial hSame ?_
  intro answer hAllowed hSame'
  rcases hAllowed.2 with ⟨snapshot, rfl⟩
  exact unaided_of_uncached (hNext snapshot) hSame'

/- The trigger goes on with what the ledger holds. -/
theorem unaided_processTrigger
    {request : ProcessRequest}
    {record : TriggerRecord}
    (hSame : SameSession w v) :
    Unaided (processTrigger engine request record)
      (processTrigger engine request record) w v := by
  have hTail : ∀ snapshot,
      Uncached
        (runPlanner engine request snapshot >>=
          triggerStep engine request record.triggerId) :=
    fun _ => inquires_planned.uncached
  have hRest : ∀ (old other : SessionSnapshot),
      Unaided
        (append (.triggerIntent
            { triggerId := record.triggerId
              intent := classifyTriggerIntent
                engine.rendering request.trigger }) >>=
          fun _ => refreshSnapshot old >>= fun snapshot =>
            runPlanner engine request snapshot >>=
              triggerStep engine request record.triggerId)
        (append (.triggerIntent
            { triggerId := record.triggerId
              intent := classifyTriggerIntent
                engine.rendering request.trigger }) >>=
          fun _ => refreshSnapshot other >>= fun snapshot =>
            runPlanner engine request snapshot >>=
              triggerStep engine request record.triggerId)
        w v :=
    fun old other =>
      Matched.after keepsStep_cache (uses_append trivial) hSame
        fun _ _ _ hSame' =>
          unaided_refreshSnapshot hTail hSame'
  have hMiss : noCache.allowed v .getProjection none :=
    ⟨⟨.inl rfl, trivial⟩, rfl⟩
  have hLoad :
      noCache.allowed v .loadSession (.ok v.snapshot) :=
    ⟨⟨rfl, v.snapshot, rfl⟩, trivial⟩
  refine Matched.left rfl hSame ?_
  intro cached _
  refine Matched.right rfl hMiss ?_
  cases cached with
  | none =>
      refine unaided_of_uncached ?_ hSame
      refine Uses.bind (V := fun _ => True)
        (uses_perform.mpr ⟨trivial, fun _ => trivial⟩) ?_
      intro answer _
      cases answer with
      | error error => trivial
      | ok snapshot =>
          refine Uses.bind (uses_append trivial) ?_
          intro _ _
          exact Uses.bind (uses_refreshSnapshot trivial)
            fun refreshed _ => hTail refreshed
  | some cached =>
      refine Matched.right rfl hLoad ?_
      exact hRest
        { cached with
          records := cached.records ++ [.trigger record] }
        v.snapshot

theorem unaided_advance
    {request : AdvanceRequest}
    (hSame : SameSession w v) :
    Unaided (advance engine request) (advance engine request)
      w v := by
  cases request with
  | continueWith request =>
      exact unaided_of_uncached
        inquires_advanceContinue.uncached hSame
  | trigger request =>
      refine Matched.after keepsStep_cache (uses_newUuid trivial)
        hSame ?_
      intro triggerId w v hSame
      refine Matched.after keepsStep_cache
        routine_findPriorOutcome.uncached hSame ?_
      intro prior w v hSame
      cases prior with
      | some prior => exact unaided_of_uncached trivial hSame
      | none =>
          refine Matched.after keepsStep_cache
            (uses_append trivial) hSame ?_
          intro stored w v hSame
          cases stored with
          | error error =>
              exact unaided_of_uncached trivial hSame
          | ok _ => exact unaided_processTrigger hSame

end Advances

------------------------------------------------------------
-- Runs
------------------------------------------------------------

/-
  Two advances that are asked the same, ask the same of all but
  the cache and the ledger, and leave and return the same.
-/
structure Advance.Alike (t t' : Advance) : Prop where
  engine : t'.engine = t.engine
  request : t'.request = t.request
  before : SameSession t.before t'.before
  seen :
    visible Op.isSeen t'.steps = visible Op.isSeen t.steps
  after : SameSession t.after t'.after
  result : t'.result = t.result

theorem Advance.exists_alike
    {t : Advance}
    {v : World}
    (hRuns : t.Runs anyCache)
    (hSame : SameSession t.before v) :
    ∃ t' : Advance,
      t'.Runs noCache ∧ t'.before = v ∧ t.Alike t' := by
  rcases unaided_advance hSame t.steps t.after t.result
    hRuns with ⟨steps', v', hExec, hAfter, hSeen⟩
  exact
    ⟨{ engine := t.engine
       request := t.request
       before := v
       steps := steps'
       after := v'
       result := t.result },
      hExec, rfl, ⟨rfl, rfl, hSame, hSeen, hAfter, rfl⟩⟩

/-
  Each run on a host whose cache answers anything has a run
  without a cache, advance by advance alike.
-/
theorem run_without_cache
    {run : List Advance}
    {w w' v : World}
    (hRun : Run anyCache w run w')
    (hSame : SameSession w v) :
    ∃ run' v',
      Run noCache v run' v' ∧
        List.Forall₂ Advance.Alike run run' ∧
          SameSession w' v' := by
  induction hRun generalizing v with
  | @nil w => exact ⟨[], v, .nil, .nil, hSame⟩
  | @cons t rest w' hAdvance hRest ih =>
      rcases Advance.exists_alike hAdvance hSame with
        ⟨t', hRuns', rfl, hAlike⟩
      rcases ih hAlike.after with
        ⟨rest', v', hRest', hRestAlike, hEnd⟩
      exact
        ⟨t' :: rest', v', .cons hRuns' hRest',
          .cons hAlike hRestAlike, hEnd⟩

/- A scripted session is a run with whatever cache. -/
theorem Script.session_run_anyCache
    (engine : AgentEngine)
    (turns : List (Script × AdvanceRequest))
    (w : World) :
    Run anyCache w (advances engine turns w)
      (session engine turns w) := by
  refine session_run_on rfl engine turns w ?_
  intro turn _ w op a hAnswer
  rcases answer_allowed hAnswer with ⟨hAllowed, hAnswered⟩
  refine ⟨fun _ => hAllowed, ?_⟩
  cases op with
  | loadSession => exact hAnswered
  | _ => trivial

namespace Sample

/- A session whose cache has another session's projection. -/
def strayCache : World where
  sessionId := "session"
  ledger := []
  cache := some
    { sessionId := "other"
      records := []
      latestOutcome := none }
  issued := []

def twoMessages : List (Script × AdvanceRequest) :=
  [(responds, .trigger message), (responds, .trigger message)]

end Sample

theorem run_without_cache_stray :
    ∃ run' v',
      Run noCache (World.empty "session") run' v' ∧
        List.Forall₂ Advance.Alike
            (Script.advances Sample.engine Sample.twoMessages
              Sample.strayCache)
            run' ∧
          SameSession
            (Script.session Sample.engine Sample.twoMessages
              Sample.strayCache) v' :=
  run_without_cache
    (Script.session_run_anyCache Sample.engine
      Sample.twoMessages Sample.strayCache)
    ⟨rfl, rfl, rfl⟩

end RainEngine
