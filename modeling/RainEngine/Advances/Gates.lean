import RainEngine.Advances.Courses
import RainEngine.Advances.Notes
import RainEngine.Batches.Gates
import RainEngine.Batches.Results
import RainEngine.Improvement.Endings

/-
  This file carries the gates of a batch over to whole
  advances. Whatever path leads to a batch, its nodes are
  judged by the scopes and the effective policy of the advance
  it runs in, and not by those of the advance that has planned
  it. The graphs of the batches are recorded ones, or have a
  node for each call that has been asked for.

  Key definitions include:
    * `Governs`
    * `GraphSource`
    * `GovernsBatch`
    * `Screened`
    * `screening`
    * `GatedAdvance`

  Key theorems include:
    * `screening_rules`
    * `screening_advance`
    * `run_gated`
    * `rejected_node_without_result`
-/

namespace RainEngine

open Effects

------------------------------------------------------------
-- Contexts Of An Advance
------------------------------------------------------------

/- The scopes a request grants. -/
def AdvanceRequest.grantedScopes :
    AdvanceRequest → List String
| .trigger request => request.grantedScopes
| .continueWith request => request.grantedScopes

/-
  The records hold the overlays an advance starts with: those
  of the ledger or, when it cannot be loaded, of the cache.
-/
def Overlaid
    (start : World)
    (failing : Prop)
    (records : List SessionRecord) :
    Prop :=
  imprints records = imprints start.ledger ∨
    failing ∧ ∃ cached, start.cache = some cached ∧
      imprints records = imprints cached.records

/- The context an advance judges the nodes of a batch in. -/
structure Governs
    (request : AdvanceRequest)
    (start : World)
    (failing : Prop)
    (context : AgentContext) : Prop where
  grantedScopes : context.grantedScopes = request.grantedScopes
  policy :
    context.metadata.policy =
        effectivePolicy request.policy start.ledger ∨
      failing ∧ ∃ cached, start.cache = some cached ∧
        context.metadata.policy =
          effectivePolicy request.policy cached.records

/-
  Where the graph of a batch comes from. It is the unfinished
  graph of the records. Or some calls have been decided, are
  due in a plan or are approved, and it is the graph that was
  recorded for them, or has a node for each of them.
-/
inductive GraphSource
    (context : AgentContext)
    (w : World) :
    ToolExecutionGraph → Prop where
  | unfinished {graph : ToolExecutionGraph}
      (hActive :
        activeToolExecutionGraph context.records =
          some graph) :
      GraphSource context w graph
  | recorded {step : Nat} {calls : List PlannedSkillCall}
      {override : Bool} {graph : ToolExecutionGraph}
      (hSource : BatchSource context w step calls override)
      (hRecorded :
        .toolExecutionGraph graph ∈ context.records)
      (hAnswers : graph.answersTo step calls = true) :
      GraphSource context w graph
  | made {step : Nat} {calls : List PlannedSkillCall}
      {override : Bool} {graph : ToolExecutionGraph}
      (hSource : BatchSource context w step calls override)
      (hStep : graph.step = step)
      (hNodes :
        graph.nodes = calls.mapIdx PlannedSkillCall.toNode) :
      GraphSource context w graph

/-
  The context is one that the advance works in, its records
  have been read, and they are the source of the graph.
-/
structure GovernsBatch
    (request : AdvanceRequest)
    (start : World)
    (failing : Prop)
    (w : World)
    (context : AgentContext)
    (graph : ToolExecutionGraph) : Prop where
  governs : Governs request start failing context
  sees : Sees start w context.records
  source : GraphSource context w graph

section Sources

variable {request : AdvanceRequest}
variable {start w w' : World}
variable {failing : Prop}
variable {context : AgentContext}
variable {graph : ToolExecutionGraph}

theorem BatchSource.mono
    {step : Nat}
    {calls : List PlannedSkillCall}
    {override : Bool}
    (hGrows : w.ledger <+: w'.ledger)
    (hSource : BatchSource context w step calls override) :
    BatchSource context w' step calls override := by
  cases hSource with
  | decided hDecision =>
      exact .decided (hDecision.imp_left (hGrows.subset ·))
  | due _ hDue => exact .due step hDue
  | unfinished hActive => exact .unfinished hActive
  | approved hPending hResolution hToken hApproved =>
      exact .approved (hPending.imp_left (hGrows.subset ·))
        (hResolution.imp_left (hGrows.subset ·)) hToken
        hApproved

theorem GraphSource.mono
    (hGrows : w.ledger <+: w'.ledger)
    (hSource : GraphSource context w graph) :
    GraphSource context w' graph := by
  cases hSource with
  | unfinished hActive => exact .unfinished hActive
  | recorded hCalls hRecorded hAnswers =>
      exact .recorded (hCalls.mono hGrows) hRecorded hAnswers
  | made hCalls hStep hNodes =>
      exact .made (hCalls.mono hGrows) hStep hNodes

theorem GovernsBatch.mono
    (hGrows : w.ledger <+: w'.ledger)
    (hInForce :
      GovernsBatch request start failing w context graph) :
    GovernsBatch request start failing w' context graph where
  governs := hInForce.governs
  sees := hInForce.sees.mono hGrows
  source := hInForce.source.mono hGrows

end Sources

------------------------------------------------------------
-- Screened Ledgers
------------------------------------------------------------

/-
  Every node taken up since the start of the advance has been
  judged by the gates. Those that failed one have an error,
  which is recorded or among the results still to be recorded
  as long as the store does not fail.
-/
def Screened
    (failing : Prop)
    (engine : AgentEngine)
    (request : AdvanceRequest)
    (start : World)
    (pending : List ToolResultRecord)
    (w : World) :
    Prop :=
  ∃ added taken, w.ledger = start.ledger ++ added ∧
    TakesUp engine (GovernsBatch request start failing w) taken
        added ∧
      (¬failing → ∀ x ∈ taken, ¬x.Passes engine →
        x.ErrorIn (toolResults added ++ pending))

/- Requests that reach no executor and record no gate. -/
def Op.Gateless (op : Op) : Prop :=
  ¬op.Executes ∧
    ∀ record, op = .append record →
      record.isGateRecord = false

section Screening

variable {M : Machine Op Answer World}
variable {failing : Prop}
variable {engine : AgentEngine}
variable {request : AdvanceRequest}
variable {pending : List ToolResultRecord}
variable {record : SessionRecord}
variable {context : AgentContext}
variable {start w w' : World}

theorem TakenNode.ErrorIn.mono
    {x : TakenNode}
    {results more : List ToolResultRecord}
    (hError : x.ErrorIn results)
    (hMore : ∀ result ∈ results, result ∈ more) :
    x.ErrorIn more := by
  rcases hError with ⟨result, hMem, hCall, hErr⟩
  exact ⟨result, hMore result hMem, hCall, hErr⟩

theorem Screened.of_ledger
    (hScreened :
      Screened failing engine request start pending w)
    (hSame : w'.ledger = w.ledger) :
    Screened failing engine request start pending w' := by
  rcases hScreened with
    ⟨added, taken, hLedger, hTakes, hErrors⟩
  refine ⟨added, taken, hSame.trans hLedger,
    hTakes.mono fun _ _ hInForce => hInForce.mono ?_, hErrors⟩
  rw [hSame]

/- A record that is none of the gates. -/
theorem Screened.append
    (hOther : record.isGateRecord = false)
    (hScreened :
      Screened failing engine request start pending w) :
    Screened failing engine request start pending
      (w.append record) := by
  rcases hScreened with
    ⟨added, taken, hLedger, hTakes, hErrors⟩
  refine ⟨added ++ [record], taken, ?_,
    (hTakes.other hOther).mono fun _ _ hInForce =>
      hInForce.mono (List.prefix_append _ _), ?_⟩
  · rw [World.append_ledger, hLedger, List.append_assoc]
  · intro hNever x hMem hFails
    apply (hErrors hNever x hMem hFails).mono
    intro result hResult
    rw [toolResults_append]
    rcases List.mem_append.mp hResult with hOld | hPending
    · exact List.mem_append_left _
        (List.mem_append_left _ hOld)
    · exact List.mem_append_right _ hPending

/- A result that was pending is recorded. -/
theorem Screened.result
    {result : ToolResultRecord}
    (hScreened :
      Screened failing engine request start
        (result :: pending) w) :
    Screened failing engine request start pending
      (w.append (.toolResult result)) := by
  rcases hScreened with
    ⟨added, taken, hLedger, hTakes, hErrors⟩
  refine ⟨added ++ [.toolResult result], taken, ?_,
    (hTakes.other rfl).mono fun _ _ hInForce =>
      hInForce.mono (List.prefix_append _ _), ?_⟩
  · rw [World.append_ledger, hLedger, List.append_assoc]
  · have hSame :
        toolResults (added ++ [.toolResult result]) ++ pending =
          toolResults added ++ result :: pending := by
      rw [toolResults_append, List.append_assoc]
      rfl
    rw [hSame]
    exact hErrors

theorem Screened.next
    {op : Op}
    {a : Answer op}
    (hGateless : op.Gateless)
    (hScreened :
      Screened failing engine request start pending w) :
    Screened failing engine request start pending
      (hostNext w op a) := by
  rcases hostNext_ledger w op a with hSame | hAppend
  · exact hScreened.of_ledger hSame
  · rcases hAppend with ⟨record, hOp, hLedger⟩
    exact (hScreened.append (hGateless.2 record hOp)).of_ledger
      hLedger

end Screening

------------------------------------------------------------
-- The Rules
------------------------------------------------------------

section Rules

variable {M : Machine Op Answer World}
variable {failing : Prop}
variable {engine : AgentEngine}
variable {request : AdvanceRequest}
variable {start w : World}
variable {context : AgentContext}
variable {record : SessionRecord}

theorem Overlaid.mono
    {failing' : Prop}
    {records : List SessionRecord}
    (hOverlaid : Overlaid start failing records)
    (hMore : failing → failing') :
    Overlaid start failing' records := by
  rcases hOverlaid with hLedger | ⟨hFails, hCached⟩
  · exact .inl hLedger
  · exact .inr ⟨hMore hFails, hCached⟩

/- A context with these overlays judges by their policy. -/
theorem Overlaid.governs
    {records : List SessionRecord}
    (hScopes : context.grantedScopes = request.grantedScopes)
    (hPolicy :
      context.metadata.policy =
        effectivePolicy request.policy records)
    (hOverlaid : Overlaid start failing records) :
    Governs request start failing context := by
  refine ⟨hScopes, ?_⟩
  have hSame : ∀ {other : List SessionRecord},
      imprints records = imprints other →
        effectivePolicy request.policy records =
          effectivePolicy request.policy other := by
    intro other hImprints
    unfold effectivePolicy
    rw [← activePolicyOverlay_imprints, hImprints,
      activePolicyOverlay_imprints]
  rcases hOverlaid with hLedger | ⟨hFails, cached, hCached, hOld⟩
  · left
    rw [hPolicy, hSame hLedger]
  · right
    exact ⟨hFails, cached, hCached, by rw [hPolicy, hSame hOld]⟩

end Rules

------------------------------------------------------------
-- Whole Advances
------------------------------------------------------------

section Advances

variable {M : Machine Op Answer World}
variable {failing : Prop}
variable {engine : AgentEngine}
variable {w : World}

end Advances

------------------------------------------------------------
-- Gated Advances
------------------------------------------------------------

/- The store has failed a request of the advance. -/
def Advance.StoreFailed (t : Advance) : Prop :=
  ∃ s ∈ t.steps, ¬StoreAnswered s.op s.answer

/-
  The contexts an advance judges the nodes of its graphs in,
  and these graphs, as far as the world tells.
-/
abbrev Advance.JudgesAt
    (t : Advance)
    (w : World)
    (context : AgentContext)
    (graph : ToolExecutionGraph) :
    Prop :=
  GovernsBatch t.request t.before t.StoreFailed w context graph

abbrev Advance.Judges
    (t : Advance)
    (context : AgentContext)
    (graph : ToolExecutionGraph) :
    Prop :=
  t.JudgesAt t.after context graph

section Gated

variable {t : Advance}

end Gated

/- Entries without a call are those of rejected nodes. -/
theorem Entries.rejected
    {engine : AgentEngine}
    {taken : List TakenNode}
    {records : List SessionRecord}
    (hNone : ∀ call, .toolCall call ∉ records)
    (hSome : records ≠ [])
    (hEntries : Entries engine taken records) :
    ∃ x ∈ taken, ¬x.Passes engine := by
  cases hEntries with
  | nil => exact absurd rfl hSome
  | @snoc taken x records entry hEarly hEntry =>
      refine ⟨x, List.mem_append_right _
        (List.mem_singleton_self _), ?_⟩
      cases hEntry with
      | rejected hNotes hSome hFails => exact hFails
      | @started notes checkpoint call hNotes hPasses hMarks
          hCalls =>
          apply absurd _ (hNone call)
          simp

namespace Sample

end Sample

end RainEngine
