import RainEngine.Logs.Views
import RainEngine.Sessions.Runs

/-
  This file compares the approval a session view shows with
  the approvals the engine would act on. The view passes over
  every token that has ever been resolved and, after a
  suspension, over every other token, and it has one slot;
  the store forgets an approval only when a later resolution
  answers it.

  Key definitions include:
    * `latestPendingApproval`
    * `ShowsPending`
    * `WaitsAlone`

  Key theorems include:
    * `find_eq_newest`
    * `showsPending_iff`
-/

namespace RainEngine.Runtime

------------------------------------------------------------
-- The View
------------------------------------------------------------

structure ApprovalView where
  resumeToken : ResumeToken
  triggerId : String
  step : Nat
  reason : String
  pendingCalls : List PlannedSkillCall

def reasonText : SuspendReason → String
| .humanApprovalRequired skillNames =>
    "Human approval required for " ++
      ", ".intercalate skillNames
| .providerRequested message => message

def approvalView (record : PendingApprovalRecord) :
    ApprovalView where
  resumeToken := record.resumeToken
  triggerId := record.triggerId
  step := record.step
  reason := reasonText record.reason
  pendingCalls := record.pendingCalls

/- The tokens the ledger has a resolution of. -/
def resolvedTokens
    (records : List SessionRecord) :
    List ResumeToken :=
  (records.filterMap SessionRecord.asApprovalResolution).map
    (·.resumeToken)

/- The token of the latest outcome, if it has suspended. -/
def targetToken
    (snapshot : SessionSnapshot) :
    Option ResumeToken :=
  (snapshot.latestOutcome.filter
    (·.stopReason = .suspended)).bind (·.resumeToken)

/- The view takes the newest approval of such a token. -/
def IsShown
    (snapshot : SessionSnapshot)
    (token : ResumeToken) :
    Prop :=
  token ∉ resolvedTokens snapshot.records ∧
    (targetToken snapshot).all (· = token) = true

instance
    (snapshot : SessionSnapshot)
    (token : ResumeToken) :
    Decidable (IsShown snapshot token) :=
  inferInstanceAs (Decidable (_ ∧ _))

def latestPendingApproval
    (snapshot : SessionSnapshot) :
    Option ApprovalView :=
  snapshot.records.findSomeRev? fun record =>
    match record with
    | .pendingApproval approval =>
        if IsShown snapshot approval.resumeToken then
          some (approvalView approval)
        else none
    | _ => none

------------------------------------------------------------
-- Tokens That Are Never Resolved
------------------------------------------------------------

section Lookups

variable {records : List SessionRecord}
variable {token : ResumeToken}
variable {pending : PendingApprovalRecord}

/- The newest pending approval of a token. -/
def newestPending
    (records : List SessionRecord)
    (token : ResumeToken) :
    Option PendingApprovalRecord :=
  records.findSomeRev? fun record =>
    record.asPendingApproval.filter (·.resumeToken = token)

theorem resolvedTokens_snoc
    (records : List SessionRecord)
    (record : SessionRecord) :
    resolvedTokens (records ++ [record]) =
      resolvedTokens records ++
        (record.asApprovalResolution.map
          (·.resumeToken)).toList := by
  unfold resolvedTokens
  rw [List.filterMap_append, List.map_append]
  cases record <;> rfl

theorem newestPending_snoc
    (records : List SessionRecord)
    (record : SessionRecord) :
    newestPending (records ++ [record]) token =
      (record.asPendingApproval.filter
        (·.resumeToken = token)).or
          (newestPending records token) := by
  unfold newestPending
  rw [Logs.findSomeRev?_snoc]

theorem find_snoc
    (records : List SessionRecord)
    (record : SessionRecord) :
    findPendingApprovalByResumeToken (records ++ [record])
        token =
      trackPendingApproval token
        (findPendingApprovalByResumeToken records token)
        record := by
  unfold findPendingApprovalByResumeToken
  rw [List.foldl_append]
  rfl

/- What the store finds is an approval of the token. -/
theorem find_token
    (hFound :
      findPendingApprovalByResumeToken records token =
        some pending) :
    pending.resumeToken = token := by
  induction records using List.reverseRecOn with
  | nil => cases hFound
  | append_singleton records record ih =>
      rw [find_snoc] at hFound
      cases record with
      | pendingApproval approval =>
          dsimp only [trackPendingApproval] at hFound
          split at hFound
          · rename_i hToken
            cases hFound
            exact hToken
          · exact ih hFound
      | approvalResolution resolution =>
          dsimp only [trackPendingApproval] at hFound
          split at hFound
          · cases hFound
          · exact ih hFound
      | _ => exact ih hFound

/- Without a resolution the newest approval is waiting. -/
theorem find_eq_newest
    (hOpen : token ∉ resolvedTokens records) :
    findPendingApprovalByResumeToken records token =
      newestPending records token := by
  induction records using List.reverseRecOn with
  | nil => rfl
  | append_singleton records record ih =>
      rw [resolvedTokens_snoc, List.mem_append, not_or]
        at hOpen
      rw [find_snoc, newestPending_snoc, ih hOpen.1]
      cases record with
      | pendingApproval approval =>
          by_cases hToken : approval.resumeToken = token
          · simp [trackPendingApproval, Option.filter,
              SessionRecord.asPendingApproval, hToken]
          · simp [trackPendingApproval, Option.filter,
              SessionRecord.asPendingApproval, hToken]
      | approvalResolution resolution =>
          have hOther : resolution.resumeToken ≠ token := by
            intro hSame
            apply hOpen.2
            simp [SessionRecord.asApprovalResolution, hSame]
          simp [trackPendingApproval,
            SessionRecord.asPendingApproval, hOther]
      | _ => rfl

theorem newestPending_token
    (hNewest : newestPending records token = some pending) :
    .pendingApproval pending ∈ records ∧
      pending.resumeToken = token := by
  unfold newestPending at hNewest
  rw [List.findSomeRev?_eq_findSome?_reverse] at hNewest
  obtain ⟨record, hMem, hRecord⟩ :=
    List.exists_of_findSome?_eq_some hNewest
  rw [Option.filter_eq_some_iff] at hRecord
  obtain ⟨hPending, hToken⟩ := hRecord
  cases record with
  | pendingApproval approval =>
      cases hPending
      exact ⟨List.mem_reverse.mp hMem, by simpa using hToken⟩
  | _ => cases hPending

end Lookups

------------------------------------------------------------
-- What Is Shown
------------------------------------------------------------

section Shown

variable {w : World}
variable {view : ApprovalView}
variable {pending : PendingApprovalRecord}

/- What is shown is the newest approval of its token. -/
theorem latestPendingApproval_shown
    (hView : latestPendingApproval w.snapshot = some view) :
    ∃ pending,
      IsShown w.snapshot pending.resumeToken ∧
        newestPending w.ledger pending.resumeToken =
          some pending ∧
        view = approvalView pending := by
  unfold latestPendingApproval at hView
  rw [List.findSomeRev?_eq_findSome?_reverse,
    List.findSome?_eq_some_iff] at hView
  rcases hView with
    ⟨later, record, earlier, hSplit, hRecord, hLater⟩
  cases record with
  | pendingApproval approval =>
      dsimp only at hRecord
      split at hRecord
      · rename_i hShown
        cases hRecord
        refine ⟨approval, hShown, ?_, rfl⟩
        unfold newestPending
        rw [List.findSomeRev?_eq_findSome?_reverse,
          List.findSome?_eq_some_iff]
        refine ⟨later, _, earlier, hSplit, ?_, ?_⟩
        · simp [SessionRecord.asPendingApproval]
        · intro other hOther
          have hNone := hLater other hOther
          cases other with
          | pendingApproval another =>
              -- A later approval of this token would be shown.
              have hToken :
                  another.resumeToken ≠
                    approval.resumeToken := by
                intro hSame
                rw [← hSame] at hShown
                simp [hShown] at hNone
              simp [SessionRecord.asPendingApproval, hToken]
          | _ => rfl
      · cases hRecord
  | _ => cases hRecord

theorem exists_latestPendingApproval
    (hMem : .pendingApproval pending ∈ w.ledger)
    (hShown : IsShown w.snapshot pending.resumeToken) :
    ∃ view, latestPendingApproval w.snapshot = some view := by
  unfold latestPendingApproval
  rw [List.findSomeRev?_eq_findSome?_reverse,
    ← Option.isSome_iff_exists, List.findSome?_isSome_iff]
  refine ⟨_, List.mem_reverse.mpr hMem, ?_⟩
  simp [hShown]

end Shown

------------------------------------------------------------
-- The View And The Engine
------------------------------------------------------------

/- An approval of the token is waiting for a human. -/
def Waits
    (w : World)
    (token : ResumeToken) :
    Prop :=
  ∃ pending,
    findPendingApprovalByResumeToken w.ledger token =
      some pending

/-
  The view shows the approval that the engine would act on,
  and no approval that is waiting is hidden.
-/
structure ShowsPending (w : World) : Prop where
  actionable :
    ∀ view, latestPendingApproval w.snapshot = some view →
      ∃ pending,
        findPendingApprovalByResumeToken w.ledger
            view.resumeToken = some pending ∧
          view = approvalView pending
  shown :
    ∀ token pending,
      findPendingApprovalByResumeToken w.ledger token =
        some pending →
      latestPendingApproval w.snapshot =
        some (approvalView pending)

/-
  The token has never been resolved, no other token is
  waiting, and the latest outcome is not the suspension of
  another one.
-/
structure WaitsAlone
    (w : World)
    (token : ResumeToken) :
    Prop where
  unresolved : token ∉ resolvedTokens w.ledger
  latest :
    ∀ target, targetToken w.snapshot = some target →
      target = token
  alone : ∀ other, Waits w other → other = token

variable {w : World}
variable {view : ApprovalView}
variable {token : ResumeToken}
variable {pending : PendingApprovalRecord}

/- The engine would act on an approval that is shown. -/
theorem find_of_shown
    (hView : latestPendingApproval w.snapshot = some view) :
    ∃ pending,
      findPendingApprovalByResumeToken w.ledger
          view.resumeToken = some pending ∧
        view = approvalView pending := by
  rcases latestPendingApproval_shown hView with
    ⟨pending, hShown, hNewest, rfl⟩
  refine ⟨pending, ?_, rfl⟩
  have hOpen : pending.resumeToken ∉ resolvedTokens w.ledger :=
    hShown.1
  calc findPendingApprovalByResumeToken w.ledger
          pending.resumeToken
    _ = newestPending w.ledger pending.resumeToken :=
        find_eq_newest hOpen
    _ = some pending := hNewest

/- An approval that waits alone is the one shown. -/
theorem shown_of_waitsAlone
    (hAlone : WaitsAlone w token)
    (hFound :
      findPendingApprovalByResumeToken w.ledger token =
        some pending) :
    latestPendingApproval w.snapshot =
      some (approvalView pending) := by
  have hNewest := hFound
  rw [find_eq_newest hAlone.unresolved] at hNewest
  rcases newestPending_token hNewest with ⟨hMem, hToken⟩
  have hShown : IsShown w.snapshot pending.resumeToken := by
    rw [hToken]
    refine ⟨hAlone.unresolved, ?_⟩
    cases hTarget : targetToken w.snapshot with
    | none => rfl
    | some target => simp [hAlone.latest target hTarget]
  rcases exists_latestPendingApproval hMem hShown with
    ⟨view, hView⟩
  rcases find_of_shown hView with ⟨other, hOther, hEq⟩
  have hSame : view.resumeToken = token :=
    hAlone.alone _ ⟨other, hOther⟩
  rw [hSame, hFound] at hOther
  cases hOther
  rw [hView, hEq]

/-
  The view and the engine agree exactly when an approval that
  is waiting waits alone, under a token of its own.
-/
theorem showsPending_iff (w : World) :
    ShowsPending w ↔
      ∀ token, Waits w token → WaitsAlone w token := by
  constructor
  · intro hShows token hWaits
    rcases hWaits with ⟨pending, hFound⟩
    have hView := hShows.shown token pending hFound
    have hToken := find_token hFound
    rcases latestPendingApproval_shown hView with
      ⟨shown, hShown, _, hEq⟩
    have hSame : shown.resumeToken = token := by
      have hTokens := congrArg ApprovalView.resumeToken hEq
      exact hTokens.symm.trans hToken
    rw [hSame] at hShown
    refine ⟨hShown.1, ?_, ?_⟩
    · intro target hTarget
      have hAll := hShown.2
      rw [hTarget] at hAll
      simpa using hAll
    · intro other hOther
      rcases hOther with ⟨another, hAnother⟩
      have hBoth := hShows.shown other another hAnother
      rw [hView] at hBoth
      have hTokens :=
        congrArg ApprovalView.resumeToken
          (Option.some.inj hBoth)
      calc other
        _ = another.resumeToken := (find_token hAnother).symm
        _ = pending.resumeToken := hTokens.symm
        _ = token := hToken
  · intro hAlone
    refine ⟨?_, ?_⟩
    · intro view hView
      exact find_of_shown hView
    · intro token pending hFound
      exact shown_of_waitsAlone (hAlone token ⟨_, hFound⟩)
        hFound

------------------------------------------------------------
-- A Token That Is Used Again
------------------------------------------------------------

namespace Sample

open RainEngine.Sample

/- A provider that always suspends under the same token. -/
def asksAgain : Script where
  decision _ :=
    { action := .suspend (.providerRequested "go on?") [] "t" }
  skill _ := .returned (.ok .null)

/- The first question is approved and the second one asked. -/
def askedAgain : World :=
  Script.session engine
    [(asksAgain, .trigger message),
      (asksAgain, .trigger
        { message with trigger := .approval "t" .approved .null })]
    (World.empty "session")

end Sample

set_option maxRecDepth 100000 in
/- The second question waits and is not shown. -/
theorem asked_again_hidden :
    (findPendingApprovalByResumeToken
        Sample.askedAgain.ledger "t").isSome = true ∧
      (latestPendingApproval
        Sample.askedAgain.snapshot).isSome = false ∧
      ¬ShowsPending Sample.askedAgain := by
  have hWaits :
      (findPendingApprovalByResumeToken
        Sample.askedAgain.ledger "t").isSome = true := by
    decide +kernel
  have hHidden :
      (latestPendingApproval
        Sample.askedAgain.snapshot).isSome = false := by
    decide +kernel
  refine ⟨hWaits, hHidden, ?_⟩
  intro hShows
  rcases Option.isSome_iff_exists.mp hWaits with
    ⟨pending, hFound⟩
  have hView := hShows.shown "t" pending hFound
  rw [hView] at hHidden
  cases hHidden

end RainEngine.Runtime
