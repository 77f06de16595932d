import RainEngine.Advances.Conclusions
import RainEngine.Logs.Views
import RainEngine.Sessions.Runs

/-
  This file proves that a session starts with a trigger, and
  that it only delegates for a trigger that no outcome has
  answered yet.

  Key definitions include:
    * `Op.Grounded`
    * `Grounded`

  Key theorems include:
    * `activeTrigger_snoc`
    * `safe_grounded`
    * `Run.grounded`
-/

namespace RainEngine

open Effects

------------------------------------------------------------
-- Active Triggers
------------------------------------------------------------

section Triggers

variable {records : List SessionRecord}
variable {record : SessionRecord}

theorem activeTrigger_snoc :
    activeTrigger (records ++ [record]) =
      if record.isOutcome then none
      else (activeTrigger records).or record.asTrigger := by
  unfold activeTrigger
  rw [sinceLastOutcome_append]
  split
  · rfl
  · rw [List.findSome?_append]
    simp

/- Only an outcome ends the wait for one. -/
theorem awaits_snoc
    (hAwaits : activeTrigger records ≠ none)
    (hOther : record.isOutcome = false) :
    activeTrigger (records ++ [record]) ≠ none := by
  rw [activeTrigger_snoc, hOther]
  intro hNone
  simp only [Bool.false_eq_true, if_false,
    Option.or_eq_none_iff] at hNone
  exact hAwaits hNone.1

theorem ne_nil_of_awaits
    (hAwaits : activeTrigger records ≠ none) :
    records ≠ [] := by
  intro hNil
  subst hNil
  exact hAwaits rfl

end Triggers

------------------------------------------------------------
-- Grounded Ledgers
------------------------------------------------------------

/-
  A record that is no trigger is appended after one, and a
  delegation while a trigger is waiting for its outcome.
-/
def GroundedRecord
    (earlier : List SessionRecord)
    (record : SessionRecord) :
    Prop :=
  record.asTrigger = none →
    earlier ≠ [] ∧
      ∀ delegation, record = .delegation delegation →
        activeTrigger earlier ≠ none

/- Every record of the ledger is grounded on those before. -/
def Grounded (records : List SessionRecord) : Prop :=
  ∀ earlier record later,
    records = earlier ++ record :: later →
      GroundedRecord earlier record

def Op.Grounded (w : World) (op : Op) : Prop :=
  ∀ record, op = .append record →
    GroundedRecord w.ledger record

section Ledgers

variable {records : List SessionRecord}
variable {record : SessionRecord}
variable {w : World}
variable {op : Op}

theorem grounded_nil : Grounded [] := by
  intro earlier record later hEq
  cases earlier <;> cases hEq

theorem Grounded.snoc
    (hGrounded : Grounded records)
    (hRecord : GroundedRecord records record) :
    Grounded (records ++ [record]) := by
  intro earlier other later hEq
  cases Logs.snoc_eq_append_cons hEq with
  | inl hLast =>
      obtain ⟨hNil, hOther⟩ := hLast
      subst hNil hOther
      rw [← List.append_cancel_right hEq]
      exact hRecord
  | inr hEarly =>
      obtain ⟨between, _, hSame⟩ := hEarly
      exact hGrounded earlier other between hSame

theorem Grounded.of_snoc
    (hGrounded : Grounded (records ++ [record])) :
    Grounded records ∧ GroundedRecord records record := by
  constructor
  · intro earlier other later hEq
    apply hGrounded earlier other (later ++ [record])
    rw [hEq]
    simp
  · exact hGrounded records record [] rfl

theorem Op.Grounded.next
    {a : Answer op}
    (hGrounded : RainEngine.Grounded w.ledger)
    (hOp : op.Grounded w) :
    RainEngine.Grounded (hostNext w op a).ledger := by
  cases hostNext_ledger w op a with
  | inl hSame =>
      rw [hSame]
      exact hGrounded
  | inr hAppend =>
      obtain ⟨record, hEq, hLedger⟩ := hAppend
      rw [hLedger]
      exact hGrounded.snoc (hOp record hEq)

/- The oldest record of a session is a trigger. -/
theorem Grounded.exists_trigger
    (hGrounded : Grounded records)
    (hSome : records ≠ []) :
    ∃ trigger rest, records = .trigger trigger :: rest := by
  cases records with
  | nil => exact absurd rfl hSome
  | cons record rest =>
      have hFirst := hGrounded [] record rest rfl
      cases record with
      | trigger trigger => exact ⟨trigger, rest, rfl⟩
      | _ => exact absurd rfl (hFirst rfl).1

end Ledgers

------------------------------------------------------------
-- Advances
------------------------------------------------------------

section Advances

variable {M : Machine Op Answer World}
variable {engine : AgentEngine}
variable {w : World}

theorem grounded_of_awaits
    {op : Op}
    (hAwaits : activeTrigger w.ledger ≠ none) :
    op.Grounded w := by
  intro record _ _
  exact ⟨ne_nil_of_awaits hAwaits, fun _ _ => hAwaits⟩

theorem grounded_of_silent
    {op : Op}
    (hSilent : op.Silent) :
    op.Grounded w := by
  intro record hEq
  subst hEq
  exact hSilent.elim

/- The end of an advance delegates nothing. -/
theorem grounded_finishAdvance
    {p : EngineM AdvanceResult}
    (hHost : OnHost M)
    (hConcluding : Concluding engine p)
    (hAwaits : activeTrigger w.ledger ≠ none) :
    Safe M (fun w op => op.Grounded w) (fun _ _ => True)
      (fun _ _ => True) p w := by
  obtain ⟨context, stopReason, response, detail,
    stepsExecuted, resumeToken, emittedEvents, _, hEq⟩ :=
      hConcluding
  subst hEq
  have hUses :
      Uses (fun op => ∀ delegation,
          op ≠ .append (.delegation delegation))
        (fun _ => True)
        (finishAdvance engine context stopReason response
          detail stepsExecuted resumeToken emittedEvents) := by
    refine Uses.bind (uses_finish ?_ ?_ ?_ ?_)
      fun _ _ => trivial
    · intro record _ delegation hSame
      cases hSame
    · intro delegation hSame
      cases hSame
    · intro record hAppraisal delegation hSame
      cases hSame
      exact hAppraisal
    · intro snapshot delegation hSame
      cases hSame
  refine Safe.mono (fun _ _ h => h) (fun _ _ _ => trivial)
    (fun _ _ _ => trivial)
    (hUses.safe (I := fun w => w.ledger ≠ []) ?_ ?_
      (ne_nil_of_awaits hAwaits))
  · intro w' op hSome hOther record hOp _
    refine ⟨hSome, ?_⟩
    intro delegation hSame
    rw [hSame] at hOp
    exact absurd hOp (hOther delegation)
  · intro w' op a hSome _ _
    rw [hHost.next]
    intro hNil
    have hPrefix := hostNext_extends w' op a
    rw [hNil] at hPrefix
    exact hSome (List.prefix_nil.mp hPrefix)

/- A program that ends with an outcome at most is grounded. -/
theorem grounded_of_concludes
    {p : EngineM AdvanceResult}
    (hHost : OnHost M)
    (hConcludes : Concludes engine p)
    (hAwaits : activeTrigger w.ledger ≠ none) :
    Safe M (fun w op => op.Grounded w) (fun _ _ => True)
      (fun _ _ => True) p w := by
  refine hConcludes.safe
    (I := fun w => activeTrigger w.ledger ≠ none) ?_ ?_ ?_
    hAwaits
  · intro w' op hWaits _
    exact grounded_of_awaits hWaits
  · intro w' op a hWaits hOther _
    rw [hHost.next]
    cases hostNext_ledger w' op a with
    | inl hSame =>
        rw [hSame]
        exact hWaits
    | inr hAppend =>
        obtain ⟨record, hOp, hLedger⟩ := hAppend
        subst hOp
        rw [hLedger]
        apply awaits_snoc hWaits
        cases record with
        | outcome outcome => exact absurd trivial hOther
        | _ => rfl
  · intro tail w' hTail hWaits
    exact grounded_finishAdvance hHost hTail hWaits

theorem Advance.grounded
    {t : Advance}
    (hHost : OnHost M) :
    Safe M (fun w op => op.Grounded w) (fun _ _ => True)
      (fun _ _ => True) (advance t.engine t.request)
      t.before := by
  cases t.request with
  | trigger request =>
      apply hHost.safe_advanceTrigger
        (grounded_of_silent trivial)
      · intro triggerId _ key
        exact grounded_of_silent trivial
      · intro triggerId _ prior _
        trivial
      · intro triggerId _ _
        refine ⟨?_, fun _ _ => trivial, ?_⟩
        · intro record hSame hNone
          cases hSame
          cases hNone
        · apply grounded_of_concludes hHost
            concludes_processTrigger
          rw [World.append_ledger, activeTrigger_snoc]
          intro hNone
          simp [SessionRecord.isOutcome,
            SessionRecord.asTrigger] at hNone
  | continueWith request =>
      apply hHost.safe_advanceContinue
        (grounded_of_silent trivial)
      · intro error _
        trivial
      · intro _
        exact ⟨grounded_of_silent trivial,
          fun _ _ => trivial⟩
      · intro trigger hActive
        apply grounded_of_concludes hHost
          concludes_continueTrigger
        rw [hActive]
        exact Option.some_ne_none trigger

/- The ledger of a session is grounded at every time. -/
theorem Run.grounded
    {run : List Advance}
    {w w' : World}
    (hHost : OnHost M)
    (hRun : Run M w run w')
    (hInit : Grounded w.ledger) :
    Grounded w'.ledger := by
  refine (hRun.preserves
    (I := fun w => Grounded w.ledger) ?_ hInit).2
  intro t _ hRuns hBefore
  refine ((Advance.grounded hHost).invariant
    (I := fun w => Grounded w.ledger) hRuns ?_ hBefore).2
  intro w op a hGrounded hOp _
  rw [hHost.next]
  exact hOp.next hGrounded

end Advances

end RainEngine
