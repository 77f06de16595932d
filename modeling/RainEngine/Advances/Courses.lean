import RainEngine.Advances.Rules
import RainEngine.Advances.Footprint
import RainEngine.Effects.Courses

/-
  This file follows an advance from its start to its step. An
  advance opens, may run the calls that its request resumes,
  and then takes one step in a context of records it has
  read. What is resumed is read off the ledger at the start.

  Key definitions include:
    * `Seen`
    * `Op.Opens`
    * `Op.Idles`
    * `ResumesCalls`
    * `Stepped`
    * `Course`
    * `Acted`

  Key theorems include:
    * `seeing_rules`
    * `advance_course`
    * `acted_performSingleStep`
-/

namespace RainEngine

open Effects

------------------------------------------------------------
-- Records An Advance Has Read
------------------------------------------------------------

/-
  A record that an advance can have read: the ledger holds
  it, or the copy that was cached when the advance started.
-/
def Seen
    (start w : World)
    (record : SessionRecord) :
    Prop :=
  record ∈ w.ledger ∨
    ∃ cached, start.cache = some cached ∧
      record ∈ cached.records

def Sees
    (start w : World)
    (records : List SessionRecord) :
    Prop :=
  ∀ record ∈ records, Seen start w record

section Seen

variable {start w w' : World}
variable {records : List SessionRecord}
variable {record : SessionRecord}

theorem Seen.mono
    (hGrows : w.ledger <+: w'.ledger)
    (hSeen : Seen start w record) :
    Seen start w' record :=
  hSeen.imp_left (hGrows.subset ·)

theorem Sees.mono
    (hGrows : w.ledger <+: w'.ledger)
    (hSees : Sees start w records) :
    Sees start w' records :=
  fun record hMem => (hSees record hMem).mono hGrows

theorem Sees.append
    (hSees : Sees start w records) :
    Sees start (w.append record) records :=
  hSees.mono (List.prefix_append _ _)

theorem Sees.push
    (hSees : Sees start w records) :
    Sees start (w.append record) (records ++ [record]) := by
  intro other hMem
  rcases List.mem_append.mp hMem with hOld | hNew
  · exact hSees.append other hOld
  · exact .inl (List.mem_append_right _ hNew)

theorem sees_ledger :
    Sees start w w.ledger :=
  fun _ hMem => .inl hMem

end Seen

/- An advance only holds records that it has read. -/
def seeing (start : World) : Assertions where
  holds stage w :=
    match stage with
    | .viewing _ records => Sees start w records
    | .acting _ context => Sees start w context.records
    | .finished _ _ => True
  request _ _ := True
  results _ context _ w := Sees start w context.records
  returned _ _ := True
  thrown _ := True

section Rules

variable {M : Machine Op Answer World}
variable {engine : AgentEngine}
variable {start : World}

theorem seeing_rules
    (hHost : OnHost M) :
    StepRules M engine (seeing start) where
  quiet := fun _ _ => trivial
  issue := fun hHolds _ => hHolds
  lag := by
    intro stage w hHolds
    cases stage <;> exact hHolds
  note := fun _ _ => trivial
  noted := by
    intro stage w record hHolds _
    cases stage with
    | viewing _ _ => exact Sees.append hHolds
    | acting _ _ => exact Sees.push hHolds
    | finished _ _ => trivial
  deliberated := fun hHolds => Sees.append hHolds
  fresh := fun _ => sees_ledger
  stale := fun hHolds _ => hHolds
  summarize := fun _ => trivial
  propose := fun _ hHolds _ _ _ _ =>
    ⟨trivial, Sees.append hHolds⟩
  ask := fun _ => trivial
  planStep := fun hHolds _ => ⟨trivial, Sees.append hHolds⟩
  await := fun hHolds _ => ⟨trivial, Sees.push hHolds⟩
  resolve := fun _ hHolds _ _ =>
    ⟨trivial, Sees.append hHolds⟩
  reject := fun hHolds => hHolds
  batch := by
    intro ready context w step calls override hHolds _
    refine Safe.mono (fun _ _ h => h) ?_ (fun _ _ _ => trivial)
      (hHost.safe_batch
        (I := fun w' => Sees start w' context.records)
        (fun _ _ _ _ => trivial) (fun _ _ hSees _ =>
          hSees.append) (fun _ _ hSees _ => hSees) hHolds)
    intro execution w' hSees
    cases execution <;> exact hSees
  result := fun hResults => ⟨trivial, Sees.push hResults⟩
  recorded := fun hResults => hResults
  lostResult := fun _ _ => ⟨trivial, trivial⟩
  finish := fun _ _ _ _ _ _ => Safe.mono
    (fun _ _ _ => trivial) (fun _ _ _ => trivial)
    (fun _ _ _ => trivial) (safe_exec _ _)
  progress := fun _ => trivial
  failed := fun _ _ => trivial
  thrown := fun _ _ => trivial

end Rules

------------------------------------------------------------
-- Before The Step
------------------------------------------------------------

/- Requests before the calls that an advance resumes. -/
def Op.Opens : Op → Prop
| .append (.executionPlan version) =>
    version.currentStepIndex = 0
| .append (.trigger _) => True
| .append record => IsNote record
| .generateAction timeoutMs _ => timeoutMs = none
| .execute _ _ => False
| .setProjection _ => False
| _ => True

/- No decision, no plan step, no graph and no executor. -/
def Op.Idles : Op → Prop
| .append (.executionPlan version) =>
    version.currentStepIndex = 0
| .append (.toolExecutionGraph _) => False
| .append (.toolNodeCheckpoint _) => False
| .generateAction timeoutMs _ => timeoutMs = none
| .execute _ _ => False
| _ => True

section Requests

variable {engine : AgentEngine}
variable {context : AgentContext}
variable {op : Op}

theorem Op.Opens.idles
    (hOpens : op.Opens) :
    op.Idles := by
  cases op with
  | append record =>
      cases record <;> first | exact hOpens | trivial
  | generateAction _ _ => exact hOpens
  | execute _ _ => exact hOpens
  | _ => trivial

theorem Op.Incidental.opens
    (hIncidental : op.Incidental) :
    op.Opens := by
  cases op with
  | append record =>
      cases record <;> first | exact hIncidental | trivial
  | generateAction _ _ => exact hIncidental
  | execute _ _ => exact hIncidental
  | setProjection _ => exact hIncidental
  | _ => trivial

theorem Incidental.opens
    {α : Type}
    {p : EngineM α}
    (hUses : Incidental p) :
    Uses Op.Opens (fun _ => True) p :=
  Uses.mono (fun _ h => h.opens) (fun _ h => h) hUses

theorem idles_finish
    {stopReason : StopReason}
    {response detail : Option String}
    {stepsExecuted : Nat}
    {resumeToken : Option ResumeToken} :
    Uses Op.Idles (fun _ => True)
      (finish engine context stopReason response detail
        stepsExecuted resumeToken) := by
  apply uses_finish
  · intro record _
    trivial
  · trivial
  · intro record hAppraisal
    cases record <;> first | exact hAppraisal.elim | trivial
  · intro snapshot
    trivial

theorem idles_finishAdvance
    {stopReason : StopReason}
    {response detail : Option String}
    {stepsExecuted : Nat}
    {resumeToken : Option ResumeToken}
    {emittedEvents : List KernelEventRecord} :
    Uses Op.Idles (fun _ => True)
      (finishAdvance engine context stopReason response
        detail stepsExecuted resumeToken emittedEvents) :=
  Uses.bind idles_finish fun _ _ => trivial

theorem idles_policyOutcome
    {stepsExecuted failures : Nat} :
    Uses Op.Idles (fun _ => True)
      (policyOutcome engine context stepsExecuted
        failures) := by
  refine Uses.bind
    (uses_policyStop (fun _ => trivial) fun _ => trivial) ?_
  intro stop _
  cases stop with
  | none => trivial
  | some stop => exact Uses.bind idles_finish fun _ _ => trivial

theorem idles_recordResolution
    {target : ApprovalTarget}
    {metadata : Json} :
    Uses Op.Idles (fun _ => True)
      (recordResolution target metadata) := by
  unfold recordResolution
  split
  · trivial
  · exact uses_appendOrFail trivial trivial

theorem opens_findPriorOutcome
    {key : Option String} :
    Uses Op.Opens (fun _ => True) (findPriorOutcome key) := by
  cases key with
  | none => trivial
  | some key =>
      refine ⟨trivial, ?_⟩
      intro answer
      cases answer <;> trivial

theorem opens_loadTriggerSnapshot
    {trigger : TriggerRecord} :
    Uses Op.Opens (fun _ => True)
      (loadTriggerSnapshot trigger) := by
  refine ⟨trivial, ?_⟩
  intro cached
  cases cached with
  | none => exact ⟨trivial, fun _ => trivial⟩
  | some cached => trivial

theorem opens_findApprovalTarget
    {token : ResumeToken}
    {decision : ApprovalDecision} :
    Uses Op.Opens (fun _ => True)
      (findApprovalTarget context token decision) := by
  refine ⟨trivial, ?_⟩
  intro answer
  cases answer with
  | error error => trivial
  | ok found => cases found <;> trivial

end Requests

/- What an opening has stored resolves no lookup. -/
def IsOpening : SessionRecord → Prop
| .executionPlan _ => True
| .trigger _ => True
| record => IsNote record

section Openings

variable {records more : List SessionRecord}
variable {record : SessionRecord}
variable {token : ResumeToken}

theorem isOpening_of_opens
    (hOpens : (Op.append record).Opens) :
    IsOpening record := by
  cases record <;> first | exact hOpens | trivial

theorem storedIn_opening
    {steps : List (Step Op Answer World)}
    (hOpens : ∀ s ∈ steps, s.op.Opens)
    (hMem : record ∈ storedIn steps) :
    IsOpening record := by
  rcases mem_storedIn hMem with ⟨s, hStep, hOp⟩
  have hOpened := hOpens s hStep
  rw [hOp] at hOpened
  exact isOpening_of_opens hOpened

theorem findPendingApproval_opening
    (hOpening : ∀ record ∈ more, IsOpening record) :
    findPendingApprovalByResumeToken (records ++ more) token =
      findPendingApprovalByResumeToken records token := by
  unfold findPendingApprovalByResumeToken
  rw [List.foldl_append]
  generalize records.foldl (trackPendingApproval token) none =
    found
  induction more generalizing found with
  | nil => rfl
  | cons record rest ih =>
      have hSame :
          trackPendingApproval token found record = found := by
        have hHead := hOpening record (by simp)
        cases record <;> first | rfl | exact hHead.elim
      rw [List.foldl_cons, hSame]
      exact ih (fun other hMem =>
        hOpening other (List.mem_cons_of_mem _ hMem)) found

end Openings

------------------------------------------------------------
-- What A Request Resumes
------------------------------------------------------------

/-
  The approval a token stands for when the advance starts: it
  waits and is approved now, or a resolution that can be read
  has approved it.
-/
inductive Approves
    (start : World)
    (token : ResumeToken)
    (decision : ApprovalDecision)
    (pending : PendingApprovalRecord) : Prop where
  | waiting
      (hDecision : decision = .approved)
      (hWaits :
        findPendingApprovalByResumeToken start.ledger token =
          some pending)
  | resolved
      (resolution : ApprovalResolutionRecord)
      (hGone :
        findPendingApprovalByResumeToken start.ledger token =
          none)
      (hPending : Seen start start (.pendingApproval pending))
      (hResolution :
        Seen start start (.approvalResolution resolution))
      (hToken : pending.resumeToken = token)
      (hSame : resolution.resumeToken = token)
      (hDecision : resolution.decision = .approved)

/-
  The step and the calls that a request resumes, when the
  kernel has a copy of the ledger.
-/
inductive ResumesCalls
    (start : World)
    (copy : List SessionRecord) :
    AdvanceRequest → Nat → List PlannedSkillCall → Prop where
  | unfinished
      (request : ContinueRequest)
      {graph : ToolExecutionGraph}
      (hCopy : copy = start.ledger)
      (hActive : activeToolExecutionGraph copy = some graph) :
      ResumesCalls start copy (.continueWith request)
        graph.step (graph.nodes.map ToolNode.toCall)
  | approved
      {request : ProcessRequest}
      {token : ResumeToken}
      {decision : ApprovalDecision}
      {metadata : Json}
      {pending : PendingApprovalRecord}
      (hTrigger :
        request.trigger = .approval token decision metadata)
      (hApproves : Approves start token decision pending) :
      ResumesCalls start copy (.trigger request) pending.step
        pending.pendingCalls

------------------------------------------------------------
-- Courses
------------------------------------------------------------

section Course

variable (M : Machine Op Answer World)
variable (engine : AgentEngine)
variable (start : World)

/-
  An advance that idles, or idles until it takes its step in
  a context of records it has read.
-/
inductive Stepped
    (w : World) :
    List (Step Op Answer World) → World →
      Option (Except EngineError AdvanceResult) → Prop where
  | idle {steps w' r}
      (hIdle : ∀ s ∈ steps, s.op.Idles) :
      Stepped w steps w' r
  | took {early late v w' r} {context : AgentContext}
      {trigger : AgentTrigger} {stepsExecuted failures : Nat}
      {emittedEvents : List KernelEventRecord}
      (hIdle : ∀ s ∈ early, s.op.Idles)
      (hStored : v.ledger = w.ledger ++ storedIn early)
      (hSees : Sees start v context.records)
      (hStep : Exec M v
        (performSingleStep engine context trigger stepsExecuted
          failures emittedEvents) late w' r) :
      Stepped w (early ++ late) w' r

/-
  An advance takes its step, or it opens, runs the calls that
  its request resumes, and then takes its step.
-/
inductive Course
    (request : AdvanceRequest)
    (w : World) :
    List (Step Op Answer World) → World →
      Option (Except EngineError AdvanceResult) → Prop where
  | direct {steps w' r}
      (hStepped : Stepped M engine start w steps w' r) :
      Course request w steps w' r
  | resumed {early batch late v v' w' r result}
      {context : AgentContext} {step : Nat}
      {calls : List PlannedSkillCall}
      (hIdle : ∀ s ∈ early, s.op.Idles)
      (hStored : v.ledger = w.ledger ++ storedIn early)
      (hSees : Sees start v context.records)
      (hResumes :
        ResumesCalls start context.records request step calls)
      (hBatch : Exec M v
        (executePlannedCalls engine context step calls true)
        batch v' result)
      (hRest : Stepped M engine start v' late w' r) :
      Course request w (early ++ batch ++ late) w' r

end Course

------------------------------------------------------------
-- Following An Advance
------------------------------------------------------------

section Walk

variable {α : Type}
variable {M : Machine Op Answer World}
variable {engine : AgentEngine}
variable {request : AdvanceRequest}
variable {start w v w' : World}
variable {first steps : List (Step Op Answer World)}
variable {r : Option (Except EngineError AdvanceResult)}
variable {P : World → Op → Prop}
variable {Q : α → World → Prop}
variable {R : EngineError → World → Prop}
variable {V : α → Prop}
variable {p : EngineM α}
variable {f : α → EngineM AdvanceResult}
variable {context : AgentContext}
variable {trigger : AgentTrigger}
variable {stepsExecuted failures : Nat}
variable {emittedEvents : List KernelEventRecord}

theorem idles_append
    (hFirst : ∀ s ∈ first, s.op.Idles)
    (hSteps : ∀ s ∈ steps, s.op.Idles) :
    ∀ s ∈ first ++ steps, s.op.Idles := by
  intro s hMem
  rcases List.mem_append.mp hMem with hEarly | hLate
  · exact hFirst s hEarly
  · exact hSteps s hLate

theorem stored_append
    (hFirst : v.ledger = w.ledger ++ storedIn first)
    (hSteps : w'.ledger = v.ledger ++ storedIn steps) :
    w'.ledger = w.ledger ++ storedIn (first ++ steps) := by
  rw [hSteps, hFirst, storedIn_append, List.append_assoc]

theorem Stepped.after
    (hIdle : ∀ s ∈ first, s.op.Idles)
    (hStored : v.ledger = w.ledger ++ storedIn first)
    (hStepped : Stepped M engine start v steps w' r) :
    Stepped M engine start w (first ++ steps) w' r := by
  cases hStepped with
  | idle hLater => exact .idle (idles_append hIdle hLater)
  | took hLater hStored' hSees hStep =>
      rw [← List.append_assoc]
      exact .took (idles_append hIdle hLater)
        (stored_append hStored hStored') hSees hStep

theorem Course.after
    (hIdle : ∀ s ∈ first, s.op.Idles)
    (hStored : v.ledger = w.ledger ++ storedIn first)
    (hCourse : Course M engine start request v steps w' r) :
    Course M engine start request w (first ++ steps) w' r := by
  cases hCourse with
  | direct hStepped =>
      exact .direct (hStepped.after hIdle hStored)
  | resumed hLater hStored' hSees hResumes hBatch hRest =>
      rw [← List.append_assoc, ← List.append_assoc]
      exact .resumed (idles_append hIdle hLater)
        (stored_append hStored hStored') hSees hResumes hBatch
        hRest

/- A part that idles leaves the ledger longer at most. -/
theorem Sees.after
    {records : List SessionRecord}
    {result : Option (Except EngineError α)}
    (hHost : OnHost M)
    (hSees : Sees start w records)
    (hExec : Exec M w p steps v result) :
    Sees start v records := by
  apply hSees.mono
  rw [exec_ledger hHost.next hExec]
  exact List.prefix_append _ _

theorem stepped_idle
    {p : EngineM AdvanceResult}
    {V : AdvanceResult → Prop}
    (hUses : Uses Op.Idles V p) :
    Courses M (Stepped M engine start w) p w :=
  fun _ _ _ hExec => .idle (hUses.exec hExec).1

theorem stepped_performSingleStep
    (hSees : Sees start w context.records) :
    Courses M (Stepped M engine start w)
      (performSingleStep engine context trigger stepsExecuted
        failures emittedEvents) w := by
  intro steps w' r hExec
  have hTook : Stepped M engine start w ([] ++ steps) w' r :=
    .took (by simp) (List.append_nil _).symm hSees hExec
  exact hTook

theorem stepped_after
    (hHost : OnHost M)
    (hUses : Uses Op.Idles V p)
    (hSafe : Safe M P Q R p w)
    (hNext : ∀ a v, Q a v →
      Courses M (Stepped M engine start v) (f a) v) :
    Courses M (Stepped M engine start w) (p >>= f) w := by
  apply Courses.bind
  · intro steps w' r r' hExec _
    exact .idle (hUses.exec hExec).1
  · intro a early v hExec late w' r hLate
    exact Stepped.after (hUses.exec hExec).1
      (exec_ledger hHost.next hExec)
      (hNext a v (hSafe.returns hExec) late w' r hLate)

/- What is recorded of a batch comes before the step. -/
theorem stepped_executed
    {results : List ToolResultRecord}
    {next : Nat}
    (hHost : OnHost M)
    (hSees : Sees start w context.records) :
    Courses M (Stepped M engine start w)
      (recordResultsOrFail results context >>= fun context =>
        performSingleStep engine context trigger next failures
          emittedEvents) w := by
  have hRules : StepRules M engine (seeing start) :=
    seeing_rules hHost
  have hRecorded : Keeps M (seeing start) (.acting true)
      (recordResultsOrFail results context) w :=
    hRules.safe_recordResultsOrFail hHost hSees
  apply stepped_after hHost
    (uses_recordResultsOrFail fun _ => trivial) hRecorded
  intro context' v hSees
  exact stepped_performSingleStep hSees

------------------------------------------------------------
-- The Opening
------------------------------------------------------------

/- So far the advance has only opened. -/
structure OpenedFrom (start w : World) : Prop where
  grown : Grown IsOpening start w
  cache : w.cache = start.cache

theorem OpenedFrom.refl (start : World) :
    OpenedFrom start start :=
  ⟨.refl _, rfl⟩

theorem OpenedFrom.after
    {result : Option (Except EngineError α)}
    (hHost : OnHost M)
    (hOpened : OpenedFrom start w)
    (hOpens : ∀ s ∈ steps, s.op.Opens)
    (hExec : Exec M w p steps v result) :
    OpenedFrom start v := by
  constructor
  · refine hOpened.grown.trans
      ⟨storedIn steps, exec_ledger hHost.next hExec, ?_⟩
    intro record hMem
    exact storedIn_opening hOpens hMem
  · refine (Exec.preserves
      (I := fun w => w.cache = start.cache) hExec ?_
      hOpened.cache).2
    intro s hMem hCache _
    have hOp := hOpens s hMem
    rw [hHost.next]
    rcases s with ⟨before, op, answer⟩
    cases op with
    | setProjection _ => exact hOp.elim
    | append _ => cases answer <;> exact hCache
    | _ => exact hCache

theorem course_stepped
    {p : EngineM AdvanceResult}
    (hStepped : Courses M (Stepped M engine start w) p w) :
    Courses M (Course M engine start request w) p w :=
  Courses.mono (fun _ _ _ h => .direct h) hStepped

theorem course_idle
    {p : EngineM AdvanceResult}
    {V : AdvanceResult → Prop}
    (hUses : Uses Op.Idles V p) :
    Courses M (Course M engine start request w) p w :=
  course_stepped (stepped_idle hUses)

/- A part of the opening comes before the rest. -/
theorem course_after
    (hHost : OnHost M)
    (hOpened : OpenedFrom start w)
    (hUses : Uses Op.Opens V p)
    (hSafe : Safe M P Q R p w)
    (hNext : ∀ a v, Q a v → OpenedFrom start v →
      Courses M (Course M engine start request v) (f a) v) :
    Courses M (Course M engine start request w) (p >>= f)
      w := by
  apply Courses.bind
  · intro steps w' r r' hExec _
    exact .direct (.idle fun s hMem =>
      ((hUses.exec hExec).1 s hMem).idles)
  · intro a early v hExec late w' r hLate
    have hOpens := (hUses.exec hExec).1
    exact Course.after (fun s hMem => (hOpens s hMem).idles)
      (exec_ledger hHost.next hExec)
      (hNext a v (hSafe.returns hExec)
        (hOpened.after hHost hOpens hExec) late w' r hLate)

theorem OpenedFrom.append
    {record : SessionRecord}
    (hOpened : OpenedFrom start w)
    (hRecord : IsOpening record) :
    OpenedFrom start (w.append record) :=
  ⟨hOpened.grown.trans ⟨[record], rfl, by simpa⟩,
    hOpened.cache⟩

/- A record of the opening is stored, or it is lost. -/
theorem course_append
    {record : SessionRecord}
    {f : Except MemoryError Unit → EngineM AdvanceResult}
    (hHost : OnHost M)
    (hOpens : (Op.append record).Opens)
    (hStored :
      Courses M (Course M engine start request (w.append record))
        (f (.ok ())) (w.append record))
    (hLost : ∀ error,
      Courses M (Course M engine start request w)
        (f (.error error)) w) :
    Courses M (Course M engine start request w)
      (append record >>= f) w := by
  have hIdle : ∀ a : Answer (.append record),
      ∀ s ∈ [(⟨w, .append record, a⟩ :
          Step Op Answer World)], s.op.Idles := by
    intro a s hMem
    rw [List.mem_singleton] at hMem
    rw [hMem]
    exact hOpens.idles
  unfold RainEngine.append
  apply Courses.perform
  · exact fun r => .direct (.idle (by simp))
  intro a _
  rw [hHost.next]
  cases a with
  | ok stored =>
      exact Courses.mono
        (fun _ _ _ => Course.after (hIdle _) rfl) hStored
  | error error =>
      exact Courses.mono
        (fun _ _ _ => Course.after (hIdle _)
          (List.append_nil _).symm) (hLost error)

/- The calls that are resumed come before the step. -/
theorem course_batch
    {step : Nat}
    {calls : List PlannedSkillCall}
    {f : BatchExecution → EngineM AdvanceResult}
    (hHost : OnHost M)
    (hSees : Sees start w context.records)
    (hResumes :
      ResumesCalls start context.records request step calls)
    (hNext : ∀ execution v, Sees start v context.records →
      Courses M (Stepped M engine start v) (f execution) v) :
    Courses M (Course M engine start request w)
      (executePlannedCalls engine context step calls true >>=
        f) w := by
  apply Courses.bind
  · intro steps w' r r' hExec _
    have hCourse : Course M engine start request w
        ([] ++ steps ++ []) w' r :=
      .resumed (by simp) (List.append_nil _).symm hSees
        hResumes hExec (.idle (by simp))
    rw [List.nil_append, List.append_nil] at hCourse
    exact hCourse
  · intro execution early v hExec late w' r hLate
    have hCourse : Course M engine start request w
        ([] ++ early ++ late) w' r :=
      .resumed (by simp) (List.append_nil _).symm hSees
        hResumes hExec (hNext execution v
          (hSees.after hHost hExec) late w' r hLate)
    exact hCourse

end Walk

------------------------------------------------------------
-- Approvals
------------------------------------------------------------

/- The target a lookup in the ledger or the copy gives. -/
def TargetFrom
    (records copy : List SessionRecord)
    (token : ResumeToken)
    (decision : ApprovalDecision)
    (target : ApprovalTarget) :
    Prop :=
  (findPendingApprovalByResumeToken records token =
      some target.pending ∧
    target.decision = decision) ∨
  (findPendingApprovalByResumeToken records token = none ∧
    resolvedTarget copy token = some target)

/- What is not noted in an opening was there before. -/
theorem OpenedFrom.seen
    {start w : World}
    {record : SessionRecord}
    (hOpened : OpenedFrom start w)
    (hOther : ¬IsOpening record)
    (hSeen : Seen start w record) :
    Seen start start record := by
  rcases hOpened.grown with ⟨added, hLedger, hOpening⟩
  rcases hSeen with hMem | hCached
  · rw [hLedger] at hMem
    rcases List.mem_append.mp hMem with hOld | hNew
    · exact .inl hOld
    · exact absurd (hOpening record hNew) hOther
  · exact .inr hCached

theorem OpenedFrom.findPendingApproval
    {start w : World}
    {token : ResumeToken}
    (hOpened : OpenedFrom start w) :
    findPendingApprovalByResumeToken w.ledger token =
      findPendingApprovalByResumeToken start.ledger token := by
  rcases hOpened.grown with ⟨added, hLedger, hOpening⟩
  rw [hLedger, findPendingApproval_opening hOpening]

/- An approved target is one the token stands for. -/
theorem TargetFrom.approves
    {start w : World}
    {copy : List SessionRecord}
    {token : ResumeToken}
    {decision : ApprovalDecision}
    {target : ApprovalTarget}
    (hOpened : OpenedFrom start w)
    (hSees : Sees start w copy)
    (hTarget : TargetFrom w.ledger copy token decision target)
    (hApproved : target.decision = .approved) :
    Approves start token decision target.pending := by
  rcases hTarget with ⟨hFound, hDecision⟩ | ⟨hGone, hTarget⟩
  · rw [hOpened.findPendingApproval] at hFound
    exact .waiting (hDecision.symm.trans hApproved) hFound
  · rw [hOpened.findPendingApproval] at hGone
    rcases StepRules.resolvedTarget_reads hTarget with
      ⟨_, hPending, hToken, resolution, hResolution, hSame,
        hDecision⟩
    exact .resolved resolution hGone
      (hOpened.seen id (hSees _ hPending))
      (hOpened.seen id (hSees _ hResolution)) hToken hSame
      (hDecision.trans hApproved)

section Requests

variable {M : Machine Op Answer World}
variable {engine : AgentEngine}
variable {start w : World}
variable {context : AgentContext}
variable {stepsExecuted failures : Nat}
variable {emittedEvents : List KernelEventRecord}

theorem safe_targetFrom
    {token : ResumeToken}
    {decision : ApprovalDecision}
    (hHost : OnHost M) :
    Safe M (fun _ _ => True)
      (fun found w' => w' = w ∧ ∀ target,
        found = some target →
          TargetFrom w.ledger context.records token decision
            target)
      (fun _ _ => True)
      (findApprovalTarget context token decision) w := by
  unfold findApprovalTarget
  rw [Safe.bind_iff]
  apply hHost.safe_quiet (.findPendingApproval token) trivial
    nofun trivial
  intro answer hAllowed
  cases answer with
  | error error => trivial
  | ok found =>
      have hFound : found =
          findPendingApprovalByResumeToken w.ledger token :=
        hHost.allowed _ _ _ hAllowed
      cases found with
      | none =>
          refine ⟨rfl, ?_⟩
          intro target hTarget
          exact .inr ⟨hFound.symm, hTarget⟩
      | some pending =>
          refine ⟨rfl, ?_⟩
          rintro target ⟨⟩
          exact .inl ⟨hFound.symm, rfl⟩

/- The calls of the target are resumed before the step. -/
theorem course_approvalStep
    {request : ProcessRequest}
    {trigger : AgentTrigger}
    {token : ResumeToken}
    {decision : ApprovalDecision}
    {metadata : Json}
    (hHost : OnHost M)
    (hOpened : OpenedFrom start w)
    (hSees : Sees start w context.records)
    (hTrigger :
      request.trigger = .approval token decision metadata) :
    Courses M (Course M engine start (.trigger request) w)
      (approvalStep engine context trigger token decision
        metadata stepsExecuted failures emittedEvents) w := by
  unfold approvalStep
  apply course_after hHost hOpened opens_findApprovalTarget
    (safe_targetFrom hHost)
  rintro found v ⟨hSame, hTarget⟩ hOpened
  subst hSame
  cases found with
  | none => exact course_idle idles_finishAdvance
  | some target =>
      have hFrom := hTarget target rfl
      dsimp only
      apply Courses.bind
      · intro steps w' r r' hExec _
        exact .direct (.idle
          (idles_recordResolution.exec hExec).1)
      · intro _ early v hExec
        refine Courses.mono (fun _ _ _ =>
          Course.after (idles_recordResolution.exec hExec).1
            (exec_ledger hHost.next hExec)) ?_
        have hLater := hSees.after hHost hExec
        unfold resumeCalls
        cases hDecision : target.decision with
        | rejected =>
            exact course_stepped (stepped_executed hHost hLater)
        | approved =>
            apply course_batch hHost hLater
              (.approved hTrigger
                (hFrom.approves hOpened hSees hDecision))
            intro execution v hSees
            cases execution with
            | suspended _ _ _ =>
                exact stepped_idle idles_finishAdvance
            | executed batch =>
                exact stepped_executed hHost hSees

/- A trigger that is no approval comes to its step. -/
theorem course_triggerStep
    {request : ProcessRequest}
    {triggerId : String}
    {snapshot : SessionSnapshot}
    (hHost : OnHost M)
    (hOpened : OpenedFrom start w)
    (hSees : Sees start w snapshot.records) :
    Courses M (Course M engine start (.trigger request) w)
      (triggerStep engine request triggerId snapshot) w := by
  have hRules : StepRules M engine (seeing start) :=
    seeing_rules hHost
  have hActing : (seeing start).holds
      (.acting true
        (triggerContext request triggerId snapshot)) w :=
    hSees
  unfold triggerStep
  dsimp only
  apply course_after hHost hOpened
    (uses_persistKernelEvents fun _ => trivial)
    (hRules.safe_persistKernelEvents hHost hActing)
  rintro context' v ⟨hSees, _, _⟩ hOpened
  split
  · rename_i hTrigger
    exact course_approvalStep hHost hOpened hSees hTrigger
  · exact course_stepped (stepped_performSingleStep hSees)

/- The trigger is read from the ledger or the cached copy. -/
theorem safe_loadTriggerSnapshot
    {trigger : TriggerRecord}
    (hHost : OnHost M)
    (hOpened : OpenedFrom start w)
    (hMem : .trigger trigger ∈ w.ledger) :
    Safe M (fun _ _ => True)
      (fun loaded w' => ∀ snapshot, loaded = .ok snapshot →
        Sees start w' snapshot.records)
      (fun _ _ => True) (loadTriggerSnapshot trigger) w := by
  unfold loadTriggerSnapshot
  rw [Safe.bind_iff]
  apply hHost.safe_quiet .getProjection trivial nofun trivial
  intro cached hAllowed
  cases cached with
  | none =>
      apply hHost.safe_loadSession trivial
      · rintro snapshot ⟨⟩
        exact sees_ledger
      · intro error _
        nofun
  | some cached =>
      rintro snapshot ⟨⟩
      intro record hRecord
      rcases List.mem_append.mp hRecord with hOld | hNew
      · rcases hHost.allowed _ _ _ hAllowed with hNone | hSame
        · cases hNone
        · rw [hOpened.cache] at hSame
          exact .inr ⟨cached, hSame.symm, hOld⟩
      · rw [List.mem_singleton] at hNew
        rw [hNew]
        exact .inl hMem

/- The planner runs, and the trigger comes to its step. -/
theorem course_prepared
    {request : ProcessRequest}
    {triggerId : String}
    {snapshot : SessionSnapshot}
    (hHost : OnHost M)
    (hOpened : OpenedFrom start w)
    (hSees : Sees start w snapshot.records) :
    Courses M (Course M engine start (.trigger request) w)
      (refreshSnapshot snapshot >>= fun snapshot =>
        runPlanner engine request snapshot >>= fun snapshot =>
          triggerStep engine request triggerId snapshot) w := by
  have hRules : StepRules M engine (seeing start) :=
    seeing_rules hHost
  have hHolds : (seeing start).holds
      (.viewing true snapshot.records) w := hSees
  apply course_after hHost hOpened
    incidental_refreshSnapshot.opens
    (hRules.views_refreshSnapshot hHost hHolds)
  intro refreshed v hSees hOpened
  apply course_after hHost hOpened incidental_runPlanner.opens
    (hRules.views_runPlanner hHost hSees)
  intro planned v hSees hOpened
  exact course_triggerStep hHost hOpened hSees

theorem course_processTrigger
    {request : ProcessRequest}
    {trigger : TriggerRecord}
    (hHost : OnHost M)
    (hOpened : OpenedFrom start w)
    (hMem : .trigger trigger ∈ w.ledger) :
    Courses M (Course M engine start (.trigger request) w)
      (processTrigger engine request trigger) w := by
  unfold processTrigger
  apply course_after hHost hOpened opens_loadTriggerSnapshot
    (safe_loadTriggerSnapshot hHost hOpened hMem)
  intro loaded v hLoaded hOpened
  cases loaded with
  | error error =>
      exact course_idle (V := fun _ => True) trivial
  | ok snapshot =>
      have hSees := hLoaded snapshot rfl
      apply course_append hHost (by trivial)
      · exact course_prepared hHost
          (hOpened.append trivial) hSees.append
      · intro error
        exact course_prepared hHost hOpened hSees

theorem course_advanceTrigger
    {request : ProcessRequest}
    (hHost : OnHost M) :
    Courses M (Course M engine start (.trigger request) start)
      (advanceTrigger engine request) start := by
  unfold advanceTrigger
  apply course_after hHost (.refl start) (uses_newUuid trivial)
    (safe_exec _ _)
  intro triggerId w _ hOpened
  apply course_after hHost hOpened opens_findPriorOutcome
    (safe_exec _ _)
  intro prior w _ hOpened
  cases prior with
  | some prior =>
      exact course_idle (V := fun _ => True) trivial
  | none =>
      apply course_append hHost (by trivial)
      · exact course_processTrigger hHost
          (hOpened.append trivial)
          (List.mem_append_right _
            (List.mem_singleton_self _))
      · intro error
        exact course_idle (V := fun _ => True) trivial

/- A continuation resumes its graph or comes to its step. -/
theorem course_advanceContinue
    {request : ContinueRequest}
    (hHost : OnHost M) :
    Courses M
      (Course M engine start (.continueWith request) start)
      (advanceContinue engine request) start := by
  have hLoad :
      Safe M (fun _ _ => True)
        (fun answer w' => w' = start ∧ ∀ snapshot,
          answer = .ok snapshot → snapshot = start.snapshot)
        (fun _ _ => True)
        (Program.perform Op.loadSession : EngineM _)
        start := by
    apply hHost.safe_loadSession trivial
    · exact ⟨rfl, by rintro snapshot ⟨⟩; rfl⟩
    · intro error _
      exact ⟨rfl, nofun⟩
  have hOpens : Uses Op.Opens (fun _ => True)
      (Program.perform Op.loadSession : EngineM _) :=
    ⟨trivial, fun _ => trivial⟩
  have hNothing : Uses Op.Idles (fun _ => True)
      (newUuid >>= fun triggerId =>
        (pure (outcomeOnly (nothingToContinue triggerId) []) :
          EngineM AdvanceResult)) :=
    ⟨trivial, fun _ => trivial⟩
  unfold advanceContinue
  apply course_after hHost (.refl start) hOpens hLoad
  rintro answer w ⟨hSame, hLoaded⟩ hOpened
  subst hSame
  cases answer with
  | error error =>
      exact course_idle (V := fun _ => True) trivial
  | ok snapshot =>
      have hSnapshot := hLoaded snapshot rfl
      subst hSnapshot
      dsimp only
      split
      · exact course_idle hNothing
      · rename_i trigger hActive
        unfold continueTrigger
        dsimp only
        split
        · rename_i graph hGraph
          apply course_batch hHost sees_ledger
            (.unfinished request rfl hGraph)
          intro execution v hSees
          cases execution with
          | suspended _ _ _ =>
              exact stepped_idle idles_finishAdvance
          | executed batch =>
              exact stepped_executed hHost hSees
        · exact course_stepped
            (stepped_performSingleStep sees_ledger)

/- Every advance follows a course. -/
theorem advance_course
    {request : AdvanceRequest}
    {steps : List (Step Op Answer World)}
    {w' : World}
    {r : Option (Except EngineError AdvanceResult)}
    (hHost : OnHost M)
    (hExec :
      Exec M start (advance engine request) steps w' r) :
    Course M engine start request start steps w' r := by
  cases request with
  | trigger request =>
      exact course_advanceTrigger hHost steps w' r hExec
  | continueWith request =>
      exact course_advanceContinue hHost steps w' r hExec

end Requests

------------------------------------------------------------
-- The Step Itself
------------------------------------------------------------

/- The provider is asked for the next action. -/
def Op.isDecision : Op → Bool
| .generateAction (some _) _ => true
| _ => false

/- The next version of a plan, whose step is taken. -/
def Op.TakesPlanStep : Op → Prop
| .append (.executionPlan version) =>
    version.currentStepIndex ≠ 0
| _ => False

/- At most a decision is asked for. -/
def Op.Deliberates (op : Op) : Prop :=
  op.Idles ∨ op.isDecision = true

section Act

variable (M : Machine Op Answer World)
variable (engine : AgentEngine)
variable (start : World)
variable (stepsExecuted : Nat)

/- An action is not reached, or it is executed. -/
inductive Carried
    (action : AgentAction)
    (v : World) :
    List (Step Op Answer World) → World →
      Option (Except EngineError AdvanceResult) → Prop where
  | ended {steps w' r}
      (hIdle : ∀ s ∈ steps, s.op.Idles) :
      Carried action v steps w' r
  | reached {early late u w' r} {context : AgentContext}
      {emittedEvents : List KernelEventRecord}
      (hIdle : ∀ s ∈ early, s.op.Idles)
      (hStored : u.ledger = v.ledger ++ storedIn early)
      (hSees : Sees start u context.records)
      (hAction : Exec M u
        (executeAction engine context action stepsExecuted
          emittedEvents) late w' r) :
      Carried action v (early ++ late) w' r

/-
  A step takes the due step of a plan; or its guard or the
  provider ends it; or it carries out the provider's decision.
-/
inductive Acted
    (context : AgentContext)
    (v : World) :
    List (Step Op Answer World) → World →
      Option (Except EngineError AdvanceResult) → Prop where
  | due {plan action late w' r}
      {answer : Answer (.append (.executionPlan plan.next))}
      {emittedEvents : List KernelEventRecord}
      (hDue :
        duePlanStep context.records = some (plan, action))
      (hAction : Exec M
        (hostNext v (.append (.executionPlan plan.next)) answer)
        (executeAction engine context action stepsExecuted
          emittedEvents) late w' r) :
      Acted context v
        (⟨v, .append (.executionPlan plan.next), answer⟩ ::
          late) w' r
  | ended {steps w' r}
      (hQuiet : ∀ s ∈ steps, s.op.Deliberates) :
      Acted context v steps w' r
  | decided {early late u w' r}
      {timeoutMs : Nat} {request : ProviderRequest}
      {decision : ProviderDecision}
      (hIdle : ∀ s ∈ early, s.op.Idles)
      (hStored : u.ledger = v.ledger ++ storedIn early)
      (hStep : request.context.currentStep = stepsExecuted)
      (hCarried :
        Carried M engine start stepsExecuted decision.action u
          late w' r) :
      Acted context v
        (early ++
          ⟨u, .generateAction (some timeoutMs) request,
            some (.ok decision)⟩ :: late) w' r

end Act

section Acting

variable {M : Machine Op Answer World}
variable {engine : AgentEngine}
variable {start v u w' : World}
variable {context : AgentContext}
variable {action : AgentAction}
variable {trigger : AgentTrigger}
variable {stepsExecuted failures : Nat}
variable {emittedEvents : List KernelEventRecord}
variable {first steps : List (Step Op Answer World)}
variable {r : Option (Except EngineError AdvanceResult)}

theorem Carried.after
    (hIdle : ∀ s ∈ first, s.op.Idles)
    (hStored : u.ledger = v.ledger ++ storedIn first)
    (hCarried :
      Carried M engine start stepsExecuted action u steps w'
        r) :
    Carried M engine start stepsExecuted action v
      (first ++ steps) w' r := by
  cases hCarried with
  | ended hLater => exact .ended (idles_append hIdle hLater)
  | reached hLater hStored' hSees hAction =>
      rw [← List.append_assoc]
      exact .reached (idles_append hIdle hLater)
        (stored_append hStored hStored') hSees hAction

theorem carried_executeAction
    (hSees : Sees start v context.records) :
    Courses M (Carried M engine start stepsExecuted action v)
      (executeAction engine context action stepsExecuted
        emittedEvents) v := by
  intro steps w' r hExec
  have hReached :
      Carried M engine start stepsExecuted action v
        ([] ++ steps) w' r :=
    .reached (by simp) (List.append_nil _).symm hSees hExec
  exact hReached

/- A decision that is recorded is carried out. -/
theorem carried_followDecision
    {decision : ProviderDecision}
    (hHost : OnHost M)
    (hSees : Sees start v context.records) :
    Courses M
      (Carried M engine start stepsExecuted decision.action v)
      (followDecision engine context decision stepsExecuted
        emittedEvents) v := by
  have hRules : StepRules M engine (seeing start) :=
    seeing_rules hHost
  have hHolds : (seeing start).holds (.acting true context) v :=
    hSees
  have hUses : Uses Op.Idles (fun _ => True)
      (persistProviderMetadata decision context) :=
    Uses.mono (fun _ h => h.idles) (fun _ h => h)
      incidental_persistProviderMetadata.opens
  unfold followDecision
  apply Courses.bind
  · intro steps w' r r' hExec _
    exact .ended (hUses.exec hExec).1
  · intro context' early u hExec
    have hSees' : Sees start u context'.records :=
      ((hRules.safe_persistProviderMetadata hHost
        hHolds).returns hExec).1
    refine Courses.mono (fun _ _ _ => Carried.after
      (hUses.exec hExec).1 (exec_ledger hHost.next hExec)) ?_
    dsimp only
    unfold RainEngine.append
    apply Courses.perform
    · exact fun r => .ended (by simp)
    intro a _
    have hIdle : ∀ s ∈ [(⟨u, .append (.modelDecision
          { step := stepsExecuted, action := decision.action }),
            a⟩ : Step Op Answer World)], s.op.Idles := by
      intro s hMem
      rw [List.mem_singleton] at hMem
      rw [hMem]
      trivial
    rw [hHost.next]
    cases a with
    | error error =>
        apply Courses.pure
        exact fun r => .ended hIdle
    | ok stored =>
        exact Courses.mono
          (fun _ _ _ => Carried.after hIdle rfl)
          (carried_executeAction hSees'.push)

/- A step acts in the context it is given. -/
theorem acted_performSingleStep
    (hHost : OnHost M)
    (hSees : Sees start v context.records) :
    Courses M
      (Acted M engine start stepsExecuted context v)
      (performSingleStep engine context trigger stepsExecuted
        failures emittedEvents) v := by
  unfold performSingleStep
  split
  · rename_i plan action hDue
    unfold RainEngine.append
    apply Courses.perform
    · exact fun r => .ended (by simp)
    intro a _ late w' r hExec
    rw [hHost.next] at hExec
    exact .due hDue hExec
  · apply Courses.bind
    · intro steps w' r r' hExec _
      exact .ended fun s hMem =>
        .inl ((idles_policyOutcome.exec hExec).1 s hMem)
    · intro stopped early u hExec
      have hIdle := (idles_policyOutcome.exec hExec).1
      have hStored := exec_ledger hHost.next hExec
      cases stopped with
      | some outcome =>
          apply Courses.pure
          intro r
          rw [List.append_nil]
          exact .ended fun s hMem => .inl (hIdle s hMem)
      | none =>
          have hSees := hSees.after hHost hExec
          dsimp only
          unfold askProvider
          apply Courses.perform
          · intro r
            rw [List.append_nil]
            exact .ended fun s hMem => .inl (hIdle s hMem)
          intro answer _
          rw [hHost.next]
          -- without a decision the step only ends
          have hEnds : ∀ {p : EngineM AdvanceResult}
              {V : AdvanceResult → Prop},
              Uses Op.Idles V p →
              Courses M
                (fun late w' r =>
                  Acted M engine start stepsExecuted context v
                    (early ++ ⟨u, .generateAction _ _,
                      answer⟩ :: late) w' r) p u := by
            intro p V hUses late w' r hExec
            apply Acted.ended
            intro s hMem
            rcases List.mem_append.mp hMem with hFirst | hRest
            · exact .inl (hIdle s hFirst)
            · rcases List.mem_cons.mp hRest with hAsk | hLater
              · rw [hAsk]
                exact .inr rfl
              · exact .inl ((hUses.exec hExec).1 s hLater)
          cases answer with
          | none => exact hEnds idles_finishAdvance
          | some answer =>
              cases answer with
              | error error => exact hEnds idles_finishAdvance
              | ok decision =>
                  intro late w' r hExec
                  exact .decided hIdle hStored rfl
                    (carried_followDecision hHost hSees late w'
                      r hExec)

end Acting

end RainEngine
