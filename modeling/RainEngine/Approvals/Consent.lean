import RainEngine.Approvals.Clearance

/-
  This file defines when a run asks a human first, and for
  which skills every run does. A native skill that asks for
  approval itself is protected on every path. The approval
  flag of a manifest is read nowhere; it protects a skill only
  as far as a native skill under its name asks by itself.

  Key definitions include:
    * `FlagsAsk`
    * `FlaggedApproved`

  Key theorems include:
    * `run_executes_approved`
    * `flagged_approved`
-/

namespace RainEngine

open Effects

------------------------------------------------------------
-- Skills That Ask
------------------------------------------------------------

/-
  What a guarded run executes. The two results below only
  choose which skills are guarded.
-/
theorem run_invokes
    {guarded : String → Prop}
    {sessionId : String}
    {run : List Advance}
    {w : World}
    (hRun : Run host (World.empty sessionId) run w)
    (hGuards : ∀ t ∈ run, Guards guarded t.engine)
    {t : Advance}
    (hMem : t ∈ run)
    {s : Step Op Answer World}
    (hStep : s ∈ t.steps)
    {backend : RegisteredSkillBackend}
    {invocation : SkillInvocation}
    (hExecute : s.op = .execute backend invocation) :
    Invokes t.engine backend invocation ∧
      (guarded invocation.manifest.name →
        ApprovedInvocation s.before.ledger invocation) := by
  have hPermitted := run_approved hRun hGuards
    (cleared_empty guarded sessionId) hMem hStep
  rw [hExecute] at hPermitted
  exact hPermitted

/-
  With the skills fixed, a native skill that asks for human
  approval is only ever invoked for approved calls.
-/
theorem run_executes_approved
    {skills : SkillRegistry}
    {sessionId : String}
    {run : List Advance}
    {w : World}
    (hRun : Run host (World.empty sessionId) run w)
    (hSkills : ∀ t ∈ run, t.engine.skills = skills) :
    ∀ t ∈ run, ∀ s ∈ t.steps, ∀ backend invocation,
      s.op = .execute backend invocation →
      backend.requiresHumanApproval = true →
        ApprovedInvocation s.before.ledger invocation := by
  intro t hMem s hStep backend invocation hExecute hAsks
  have hGuards : ∀ t ∈ run,
      Guards
        (fun name => ∃ skill,
          skills.get name = some skill ∧
            skill.backend.requiresHumanApproval = true)
        t.engine := by
    intro t hMem name hGuarded
    rw [hSkills t hMem]
    exact hGuarded
  rcases run_invokes hRun hGuards hMem hStep hExecute with
    ⟨⟨skill, hSkill, hBackend⟩, hApproved⟩
  rw [hSkills t hMem] at hSkill
  subst hBackend
  exact hApproved ⟨skill, hSkill, hAsks⟩

------------------------------------------------------------
-- Approval Flags
------------------------------------------------------------

/-
  Whenever a skill of the run carries the approval flag, the
  skill under its name asks by itself, at every advance.
-/
def FlagsAsk (run : List Advance) : Prop :=
  ∀ t ∈ run, ∀ name skill,
    t.engine.skills.get name = some skill →
    skill.manifest.approvalRequired = true →
      ∀ t' ∈ run, ∃ skill',
        t'.engine.skills.get name = some skill' ∧
          skill'.backend.requiresHumanApproval = true

/- Flagged skills are only invoked for approved calls. -/
def FlaggedApproved (run : List Advance) : Prop :=
  ∀ t ∈ run, ∀ s ∈ t.steps, ∀ backend invocation,
    s.op = .execute backend invocation →
      ∀ skill,
        t.engine.skills.get invocation.manifest.name =
          some skill →
        skill.manifest.approvalRequired = true →
          ApprovedInvocation s.before.ledger invocation

/-
  In a run whose flagged skills ask by themselves, flagged
  skills are only invoked for approved calls.
-/
theorem flagged_approved
    {sessionId : String}
    {run : List Advance}
    {w : World}
    (hRun : Run host (World.empty sessionId) run w)
    (hFlags : FlagsAsk run) :
    FlaggedApproved run := by
  intro t hMem s hStep backend invocation hExecute skill
    hSkill hFlag
  have hGuards : ∀ t' ∈ run,
      Guards
        (fun name => ∃ t ∈ run, ∃ skill,
          t.engine.skills.get name = some skill ∧
            skill.manifest.approvalRequired = true)
        t'.engine := by
    rintro t' hMem' name ⟨t, hMem, skill, hSkill, hFlag⟩
    exact hFlags t hMem name skill hSkill hFlag t' hMem'
  exact (run_invokes hRun hGuards hMem hStep hExecute).2
    ⟨t, hMem, skill, hSkill, hFlag⟩

------------------------------------------------------------
-- Sessions With A Flagged Skill
------------------------------------------------------------

namespace Sample

/- An engine with one flagged skill. -/
def flaggedEngine
    (backend : RegisteredSkillBackend) :
    AgentEngine where
  skills :=
    { entries :=
        [⟨{ manifest "echo" with approvalRequired := true },
          backend⟩]
      nodup := by simp }
  hasPlanner := false
  rendering := rendering

/- Its skill asks for approval by itself. -/
def nativeEngine : AgentEngine :=
  flaggedEngine (.native "native" true)

/- Its skill carries the flag only. -/
def wasmEngine : AgentEngine :=
  flaggedEngine (.wasm "wasm")

/- A message whose call is approved in a second advance. -/
def approvedTurns : List (Script × AdvanceRequest) :=
  [(callsFirst [call "a" (.object [])], .trigger message),
    (callsFirst [],
      .trigger
        { message with
          trigger := .approval "1" .approved .null })]

/- The request invokes an executor. -/
def isExecute : Op → Bool
| .execute _ _ => true
| _ => false

/- It invokes a flagged skill when nothing is approved. -/
def isUnapproved (s : Step Op Answer World) : Bool :=
  match s.op with
  | .execute _ invocation =>
      (wasmEngine.skills.get invocation.manifest.name).any
          (·.manifest.approvalRequired) &&
        s.before.ledger.all
          (·.asApprovalResolution.isNone)
  | _ => false

theorem nativeEngine_asks
    {name : String}
    {skill : RegisteredSkill}
    (hSkill : nativeEngine.skills.get name = some skill) :
    skill.backend.requiresHumanApproval = true := by
  have hMem := List.mem_of_find?_eq_some hSkill
  simp only [nativeEngine, flaggedEngine,
    List.mem_singleton] at hMem
  subst hMem
  rfl

end Sample

set_option maxRecDepth 100000 in
/- The suspended call runs, once it has been approved. -/
theorem run_executes_approved_native :
    (∃ t ∈ Script.advances Sample.nativeEngine
        Sample.approvedTurns (World.empty "session"),
      ∃ s ∈ t.steps, Sample.isExecute s.op = true) ∧
    ∀ t ∈ Script.advances Sample.nativeEngine
        Sample.approvedTurns (World.empty "session"),
      ∀ s ∈ t.steps, ∀ backend invocation,
        s.op = .execute backend invocation →
        backend.requiresHumanApproval = true →
          ApprovedInvocation s.before.ledger invocation := by
  refine ⟨by decide +kernel, ?_⟩
  have hRun := Script.session_run Sample.nativeEngine
    Sample.approvedTurns (World.empty "session")
  have hSkills : ∀ t ∈ Script.advances Sample.nativeEngine
      Sample.approvedTurns (World.empty "session"),
      t.engine.skills = Sample.nativeEngine.skills := by
    intro t hMem
    rw [Script.advances_engine t hMem]
  exact run_executes_approved hRun.of_reliable hSkills

/- The flag is honoured for a skill that asks by itself. -/
theorem flagged_approved_native :
    FlaggedApproved
      (Script.advances Sample.nativeEngine
        Sample.approvedTurns (World.empty "session")) := by
  have hRun := Script.session_run Sample.nativeEngine
    Sample.approvedTurns (World.empty "session")
  refine flagged_approved hRun.of_reliable ?_
  intro t hMem name skill hSkill _ t' hMem'
  rw [Script.advances_engine t hMem] at hSkill
  rw [Script.advances_engine t' hMem']
  exact ⟨skill, hSkill, Sample.nativeEngine_asks hSkill⟩

set_option maxRecDepth 100000 in
/- A flagged WASM skill runs with nothing approved. -/
theorem flagged_wasm_unapproved :
    ¬(∀ sessionId run w,
      Run host (World.empty sessionId) run w →
        FlaggedApproved run) := by
  intro hAll
  have hRun := Script.session_run Sample.wasmEngine
    Sample.approvedTurns (World.empty "session")
  have hUnapproved :
      ∃ t ∈ Script.advances Sample.wasmEngine
          Sample.approvedTurns (World.empty "session"),
        ∃ s ∈ t.steps, Sample.isUnapproved s = true := by
    decide +kernel
  rcases hUnapproved with ⟨t, hMem, s, hStep, hBad⟩
  unfold Sample.isUnapproved at hBad
  split at hBad
  · rename_i backend invocation hExecute
    rw [Bool.and_eq_true, Option.any_eq_true] at hBad
    rcases hBad with ⟨⟨skill, hSkill, hFlag⟩, hNone⟩
    rw [← Script.advances_engine t hMem] at hSkill
    rcases hAll _ _ _ hRun.of_reliable t hMem s hStep backend
        invocation hExecute skill hSkill hFlag with
      ⟨call, ⟨pending, resolution, _, _, hResolution, _⟩, _⟩
    rw [List.all_eq_true] at hNone
    exact absurd (hNone _ hResolution) (by simp [SessionRecord.asApprovalResolution])
  · cases hBad

end RainEngine
