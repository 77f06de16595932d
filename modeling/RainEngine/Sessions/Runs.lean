import RainEngine.Advances.Rules
import RainEngine.Kernel.Script

/-
  This file defines the runs of a session: advances one after
  the other, each with an engine and a request of its own, and
  each possibly stopped before its end.

  Key definitions include:
    * `Advance`
    * `Run`

  Key theorems include:
    * `Run.preserves`
    * `Script.session_run`
-/

namespace RainEngine

open Effects

------------------------------------------------------------
-- Runs
------------------------------------------------------------

/- One advance as it happened. -/
structure Advance where
  engine : AgentEngine
  request : AdvanceRequest
  before : World
  steps : List (Step Op Answer World)
  after : World
  result : Option (Except EngineError AdvanceResult)

/- The advance is an execution of the kernel. -/
def Advance.Runs
    (t : Advance)
    (M : Machine Op Answer World) :
    Prop :=
  Exec M t.before (advance t.engine t.request) t.steps
    t.after t.result

/- The outcome the advance has returned. -/
def Advance.returned (t : Advance) : Option EngineOutcome :=
  match t.result with
  | some (.ok result) => result.outcome
  | _ => none

theorem Advance.of_returned
    {t : Advance}
    {outcome : EngineOutcome}
    (hReturned : t.returned = some outcome) :
    ∃ result, t.result = some (.ok result) ∧
      result.outcome = some outcome := by
  unfold Advance.returned at hReturned
  split at hReturned
  · rename_i result hResult
    exact ⟨result, hResult, hReturned⟩
  · cases hReturned

/- The records an advance has appended. -/
def Advance.added (t : Advance) : List SessionRecord :=
  t.after.ledger.drop t.before.ledger.length

/- Advances of one session, each from where the last ended. -/
inductive Run (M : Machine Op Answer World) :
    World → List Advance → World → Prop where
  | nil {w : World} :
      Run M w [] w
  | cons {t : Advance} {rest : List Advance} {w : World}
      (hAdvance : t.Runs M)
      (hRest : Run M t.after rest w) :
      Run M t.before (t :: rest) w

section Runs

variable {M : Machine Op Answer World}
variable {t : Advance}
variable {w w' : World}
variable {run : List Advance}

/- An advance only appends to the ledger. -/
theorem Advance.ledger_eq
    (hHost : OnHost M)
    (hRuns : t.Runs M) :
    t.after.ledger = t.before.ledger ++ t.added := by
  have hPrefix : t.before.ledger <+: t.after.ledger := by
    refine (Exec.preserves
      (I := fun w => t.before.ledger <+: w.ledger) hRuns ?_
      (List.prefix_refl _)).2
    intro s _ hBefore _
    rw [hHost.next]
    exact hBefore.trans (hostNext_extends _ _ _)
  exact (List.prefix_append_drop hPrefix)

/- The added records are those the steps have stored. -/
theorem Advance.added_eq
    (hHost : OnHost M)
    (hRuns : t.Runs M) :
    t.added = storedIn t.steps := by
  unfold Advance.added
  rw [exec_ledger hHost.next hRuns, List.drop_left]

/- What every advance of a run preserves holds throughout. -/
theorem Run.preserves
    {I : World → Prop}
    (hRun : Run M w run w')
    (hStep : ∀ t ∈ run, t.Runs M → I t.before → I t.after)
    (hInit : I w) :
    (∀ t ∈ run, I t.before) ∧ I w' := by
  induction hRun with
  | nil => exact ⟨by simp, hInit⟩
  | @cons t rest w' hAdvance hRest ih =>
      have hNext : I t.after :=
        hStep t (by simp) hAdvance hInit
      have hTail :=
        ih (fun s hMem => hStep s (by simp [hMem])) hNext
      refine ⟨?_, hTail.2⟩
      intro s hMem
      rcases List.mem_cons.mp hMem with hHead | hRestMem
      · subst hHead
        exact hInit
      · exact hTail.1 s hRestMem

/- One run after the other. -/
theorem Run.append
    {more : List Advance}
    {w'' : World}
    (hRun : Run M w run w')
    (hMore : Run M w' more w'') :
    Run M w (run ++ more) w'' := by
  induction hRun with
  | nil => exact hMore
  | cons hAdvance hRest ih => exact .cons hAdvance (ih hMore)

/- A run falls into the runs of its two parts. -/
theorem Run.of_append
    {early late : List Advance}
    (hRun : Run M w (early ++ late) w') :
    ∃ middle, Run M w early middle ∧ Run M middle late w' := by
  induction early generalizing w with
  | nil => exact ⟨w, .nil, hRun⟩
  | cons t early ih =>
      cases hRun with
      | cons hAdvance hRest =>
          obtain ⟨middle, hEarly, hLate⟩ := ih hRest
          exact ⟨middle, .cons hAdvance hEarly, hLate⟩

theorem Run.runs
    (hRun : Run M w run w') :
    ∀ t ∈ run, t.Runs M := by
  induction hRun with
  | nil => simp
  | @cons t rest w' hAdvance hRest ih =>
      intro s hMem
      rcases List.mem_cons.mp hMem with hHead | hRestMem
      · subst hHead
        exact hAdvance
      · exact ih s hRestMem

/- A run on a machine that allows more answers. -/
theorem Run.mono
    {M' : Machine Op Answer World}
    (hNext : M.next = M'.next)
    (hAllowed : ∀ w op a,
      M.allowed w op a → M'.allowed w op a)
    (hRun : Run M w run w') :
    Run M' w run w' := by
  induction hRun with
  | nil => exact .nil
  | cons hAdvance hRest ih =>
      exact .cons (Exec.mono hNext hAllowed hAdvance) ih

/- A run on the reliable host is a run. -/
theorem Run.of_reliable
    (hRun : Run reliable w run w') :
    Run host w run w' :=
  hRun.mono OnHost.reliable.next OnHost.reliable.allowed

end Runs

------------------------------------------------------------
-- Scripted Runs
------------------------------------------------------------

namespace Script

/- The advances of a scripted session. -/
def advances
    (engine : AgentEngine) :
    List (Script × AdvanceRequest) → World → List Advance
| [], _ => []
| (script, request) :: rest, w =>
    let ran := script.run (advance engine request) w
    { engine := engine
      request := request
      before := w
      steps := ran.1
      after := ran.2.1
      result := ran.2.2 } :: advances engine rest ran.2.1

theorem advances_engine
    {engine : AgentEngine}
    {turns : List (Script × AdvanceRequest)}
    {w : World} :
    ∀ t ∈ advances engine turns w, t.engine = engine := by
  induction turns generalizing w with
  | nil => simp [advances]
  | cons turn rest ih =>
      intro t hMem
      rcases List.mem_cons.mp hMem with hHead | hRest
      · rw [hHead]
      · exact ih t hRest

theorem advances_requests
    {engine : AgentEngine}
    {turns : List (Script × AdvanceRequest)}
    {w : World} :
    (advances engine turns w).map (·.request) =
      turns.map (·.2) := by
  induction turns generalizing w with
  | nil => rfl
  | cons turn rest ih =>
      simp only [advances, List.map_cons, ih]

theorem advances_length
    {engine : AgentEngine}
    {turns : List (Script × AdvanceRequest)}
    {w : World} :
    (advances engine turns w).length = turns.length := by
  induction turns generalizing w with
  | nil => rfl
  | cons turn rest ih =>
      simp only [advances, List.length_cons, ih]

/-
  A scripted session is a run on every machine of the host
  that allows the answers of its scripts.
-/
theorem session_run_on
    {M : Machine Op Answer World}
    (hNext : M.next = hostNext)
    (engine : AgentEngine)
    (turns : List (Script × AdvanceRequest))
    (w : World)
    (hAnswer : ∀ turn ∈ turns, ∀ w op a,
      turn.1.answer w op = some a → M.allowed w op a) :
    Run M w (advances engine turns w)
      (session engine turns w) := by
  induction turns generalizing w with
  | nil => exact .nil
  | cons turn rest ih =>
      rcases turn with ⟨script, request⟩
      have hRest := ih
        (script.run (advance engine request) w).2.1
        (fun turn hMem => hAnswer turn (by simp [hMem]))
      refine Run.cons (t :=
        { engine := engine
          request := request
          before := w
          steps := (script.run (advance engine request) w).1
          after :=
            (script.run (advance engine request) w).2.1
          result :=
            (script.run (advance engine request) w).2.2 })
        ?_ hRest
      exact Program.run_exec_of_next hNext.symm
        (hAnswer (script, request) (by simp))
        (advance engine request) w

/- A scripted session is a run on the reliable host. -/
theorem session_run
    (engine : AgentEngine)
    (turns : List (Script × AdvanceRequest))
    (w : World) :
    Run reliable w (advances engine turns w)
      (session engine turns w) :=
  session_run_on rfl engine turns w
    fun _ _ _ _ _ => answer_allowed

end Script

end RainEngine
