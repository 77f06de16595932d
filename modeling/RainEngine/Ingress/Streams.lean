import RainEngine.Coordination.ValkeyLeases

/-
  This file is about workers that take events from a stream. A
  worker claims the key of an entry, runs the engine for it,
  acknowledges the entry and releases the claim. An entry whose
  claim is denied is acknowledged too, so it may be lost.

  Key definitions include:
    * `IngressPhase`
    * `IngressState.step`
    * `Answered`
    * `Attended`

  Key theorems include:
    * `Kept.step`
    * `acknowledged_answered`
    * `other_session_swallows_event`
-/

namespace RainEngine.Ingress

open Coordination Transitions

------------------------------------------------------------
-- Workers
------------------------------------------------------------

/- An entry of the stream, with what is used of its event. -/
structure StreamEntry where
  entryId : String
  sessionId : String
  idempotencyKey : Option String
deriving DecidableEq

/- The key a worker claims for an entry. -/
def StreamEntry.triggerKey (entry : StreamEntry) : String :=
  entry.idempotencyKey.getD entry.entryId

/- An outcome in a ledger, with the entry of its trigger. -/
structure RecordedOutcome where
  sessionId : String
  entryId : String
  idempotencyKey : Option String
deriving DecidableEq

/- Where a worker is in `run_once`. -/
inductive IngressPhase where
  | idle
  | reading
  | claiming (entry : StreamEntry)
  | running (entry : StreamEntry) (claimId : String)
  | acknowledgingDenied (entry : StreamEntry)
  | acknowledging (entry : StreamEntry) (claimId : String)
  | releasing (processed : Bool)
  | returned (processed : Bool)
  | failed
deriving DecidableEq

/-
  The stream and its group, the server of the claims, and the
  outcomes that the ledgers of the sessions hold.
-/
structure IngressState (ι : Type) where
  valkey : ValkeyState ι := {}
  waiting : List StreamEntry := []
  pending : List StreamEntry := []
  acknowledged : List StreamEntry := []
  outcomes : List RecordedOutcome := []
  workers : ι → IngressPhase := fun _ => .idle

inductive IngressAction (ι : Type) where
  | wait (ms : Nat)
  | publish (entry : StreamEntry)
  | runOnce (worker : ι)
  | read (worker : ι) (claimId : String)
  | send (worker : ι)
  | record (worker : ι) (outcome : RecordedOutcome)
  | finish (worker : ι) (succeeded : Bool)
  | acknowledge (worker : ι)
  | fail (worker : ι)

/- The time a claim is asked for, in milliseconds. -/
def claimTtlMs : Nat := 300000

def IngressPhase.isIdle : IngressPhase → Bool
| .idle => true
| .returned _ => true
| .failed => true
| _ => false

namespace IngressState

variable {ι : Type} [DecidableEq ι]

def put
    (s : IngressState ι)
    (worker : ι)
    (phase : IngressPhase) :
    IngressState ι :=
  { s with workers := Function.update s.workers worker phase }

/- A worker begins a call of the store of the claims. -/
def call
    (name : String)
    (s : IngressState ι)
    (worker : ι)
    (phase : IngressPhase)
    (action : ValkeyAction ι) :
    Option (IngressState ι) :=
  (s.valkey.step name action).map fun valkey =>
    { s with valkey := valkey }.put worker phase

/- How a worker goes on when a call of the store has ended. -/
def resume
    (s : IngressState ι)
    (worker : ι) :
    IngressPhase → ValkeyResult → IngressPhase
| .claiming entry, .claim (some claim) =>
    .running entry claim.claimId
| .claiming entry, .claim none => .acknowledgingDenied entry
| .claiming _, _ => .failed
| .releasing processed, .released =>
    if processed then .returned true else .failed
| .releasing _, _ => .failed
| _, _ => s.workers worker

/-
  The steps of the workers. Reading moves the first entry to
  those that are pending. The engine may record outcomes as it
  runs, and returns one or fails. A failed release after a
  failed run is ignored.
-/
def step
    (name : String)
    (s : IngressState ι) :
    IngressAction ι → Option (IngressState ι)
| .wait ms =>
    (s.valkey.step name (.wait ms)).map fun valkey =>
      { s with valkey := valkey }
| .publish entry =>
    some { s with waiting := s.waiting ++ [entry] }
| .runOnce worker =>
    if (s.workers worker).isIdle then
      some (s.put worker .reading)
    else none
| .read worker claimId =>
    if s.workers worker = .reading then
      match s.waiting with
      | [] => some (s.put worker (.returned false))
      | entry :: rest =>
          { s with
              waiting := rest
              pending := s.pending ++ [entry] }.call name
            worker (.claiming entry)
            (.claim worker entry.triggerKey claimTtlMs claimId)
    else none
| .send worker =>
    (s.valkey.step name (.send worker)).map fun valkey =>
      let s' := { s with valkey := valkey }
      match valkey.workers worker with
      | .answered result =>
          s'.put worker
            (s.resume worker (s.workers worker) result)
      | _ => s'
| .record worker outcome =>
    match s.workers worker with
    | .running _ _ =>
        some { s with outcomes := s.outcomes ++ [outcome] }
    | _ => none
| .finish worker succeeded =>
    match s.workers worker with
    | .running entry claimId =>
        if succeeded then
          some (s.put worker (.acknowledging entry claimId))
        else
          s.call name worker (.releasing false)
            (.release worker claimId)
    | _ => none
| .acknowledge worker =>
    match s.workers worker with
    | .acknowledgingDenied entry =>
        some
          ({ s with
              pending := s.pending.erase entry
              acknowledged := s.acknowledged ++ [entry]
            }.put worker (.returned false))
    | .acknowledging entry claimId =>
        { s with
            pending := s.pending.erase entry
            acknowledged := s.acknowledged ++ [entry] }.call
          name worker (.releasing true)
          (.release worker claimId)
    | _ => none
| .fail worker =>
    if (s.workers worker).isIdle then none
    else
      some
        ({ s with
            valkey := s.valkey.put worker (.answered .failed)
          }.put worker .failed)

end IngressState

------------------------------------------------------------
-- Acknowledged Entries
------------------------------------------------------------

/-
  An outcome has been recorded for the entry's own session,
  and for its trigger or its key.
-/
def Answered
    (outcomes : List RecordedOutcome)
    (entry : StreamEntry) :
    Prop :=
  ∃ outcome ∈ outcomes,
    outcome.sessionId = entry.sessionId ∧
      (outcome.entryId = entry.entryId ∨
        entry.idempotencyKey.isSome ∧
          outcome.idempotencyKey = entry.idempotencyKey)

/- Only entries that are answered have been acknowledged. -/
def NoneLost
    {ι : Type}
    (s : IngressState ι) :
    Prop :=
  ∀ entry ∈ s.acknowledged, Answered s.outcomes entry

def IngressPhase.claimedEntry :
    IngressPhase → Option StreamEntry
| .claiming entry => some entry
| _ => none

def IngressPhase.runningEntry :
    IngressPhase → Option StreamEntry
| .running entry _ => some entry
| _ => none

/- The key a call of the store is about to claim. -/
def claimedKey : ValkeyPhase → Option String
| .claimSet triggerKey _ _ => some triggerKey
| _ => none

/-
  When the key of an entry is held as its worker claims it,
  and when the engine has returned an outcome, the entry is
  answered already.
-/
def Attended
    {ι : Type}
    (name : String)
    (s : IngressState ι) :
    IngressAction ι → Prop
| .send worker =>
    ∀ entry ∈ (s.workers worker).claimedEntry,
      ∀ triggerKey ∈ claimedKey (s.valkey.workers worker),
        (s.valkey.db.entryAt s.valkey.now
            (claimKey name triggerKey)).isSome →
          Answered s.outcomes entry
| .finish worker succeeded =>
    ∀ entry ∈ (s.workers worker).runningEntry,
      succeeded = true → Answered s.outcomes entry
| _ => True

/- A call that claims, or that is about to have claimed. -/
def claimsNow : ValkeyPhase → Bool
| .claimSet _ _ _ => true
| .claimSetReverse _ _ _ => true
| _ => false

/-
  What is known of a worker: an entry it acknowledges next is
  answered, and for an entry it claims it is in a call that
  claims.
-/
def PhaseKept
    (outcomes : List RecordedOutcome)
    (valkeyPhase : ValkeyPhase) :
    IngressPhase → Prop
| .acknowledgingDenied entry => Answered outcomes entry
| .acknowledging entry _ => Answered outcomes entry
| .claiming _ => claimsNow valkeyPhase = true
| _ => True

/- What attended steps keep. -/
structure Kept
    {ι : Type}
    (s : IngressState ι) : Prop where
  acknowledged : NoneLost s
  phases :
    ∀ worker,
      PhaseKept s.outcomes (s.valkey.workers worker)
        (s.workers worker)

section Outcomes

variable {outcomes more : List RecordedOutcome}
variable {entry : StreamEntry}
variable {valkeyPhase : ValkeyPhase}
variable {phase : IngressPhase}

/- An answered entry stays answered. -/
theorem Answered.mono
    (hMore : outcomes ⊆ more)
    (hAnswered : Answered outcomes entry) :
    Answered more entry := by
  rcases hAnswered with ⟨outcome, hMem, hOwn⟩
  exact ⟨outcome, hMore hMem, hOwn⟩

theorem PhaseKept.mono
    (hMore : outcomes ⊆ more)
    (hKept : PhaseKept outcomes valkeyPhase phase) :
    PhaseKept more valkeyPhase phase := by
  cases phase with
  | acknowledgingDenied entry => exact hKept.mono hMore
  | acknowledging entry claimId => exact hKept.mono hMore
  | _ => exact hKept

/- An answered entry may be acknowledged. -/
theorem NoneLost.snoc
    {ι : Type}
    {s : IngressState ι}
    (hState : Kept s)
    (hAnswered : Answered s.outcomes entry) :
    ∀ other ∈ s.acknowledged ++ [entry],
      Answered s.outcomes other := by
  intro other hMem
  rcases List.mem_append.mp hMem with hOld | hLast
  · exact hState.acknowledged other hOld
  · rw [List.mem_singleton] at hLast
    rw [hLast]
    exact hAnswered

end Outcomes

section Steps

variable {ι : Type} [DecidableEq ι]
variable {name : String}
variable {s s' : IngressState ι}
variable {valkey : ValkeyState ι}
variable {action : IngressAction ι}
variable {worker : ι}
variable {phase : IngressPhase}
variable {next : ValkeyPhase}

/-
  One worker moves on, here and in the store. The others stay
  where they are, and no outcome is lost.
-/
theorem Kept.move
    (hState : Kept s)
    (hAck : NoneLost s')
    (hMore : s.outcomes ⊆ s'.outcomes)
    (hHere :
      s'.workers = Function.update s.workers worker phase)
    (hStore :
      s'.valkey.workers =
        Function.update s.valkey.workers worker next)
    (hPhase : PhaseKept s'.outcomes next phase) :
    Kept s' := by
  refine ⟨hAck, ?_⟩
  intro other
  rw [hHere, hStore]
  by_cases hSame : other = worker
  · rw [hSame, Function.update_self, Function.update_self]
    exact hPhase
  · rw [Function.update_of_ne hSame,
      Function.update_of_ne hSame]
    exact (hState.phases other).mono hMore

/- A worker moves on by itself. -/
theorem Kept.put
    (hState : Kept s)
    (hPhase :
      PhaseKept s.outcomes (s.valkey.workers worker) phase) :
    Kept (s.put worker phase) := by
  refine hState.move hState.acknowledged
    (List.Subset.refl _) rfl ?_ hPhase
  exact (Function.update_eq_self worker _).symm

/- The call of the store has begun. -/
theorem claim_workers
    {triggerKey claimId : String}
    {ttlMs : Nat}
    (hCall :
      s.valkey.step name
        (.claim worker triggerKey ttlMs claimId) =
          some valkey) :
    valkey.workers =
      Function.update s.valkey.workers worker
        (.claimSet triggerKey claimId (asUsize ttlMs)) := by
  simp only [ValkeyState.step] at hCall
  split at hCall
  · cases hCall
    rfl
  · cases hCall

theorem release_workers
    {claimId : String}
    (hCall :
      s.valkey.step name (.release worker claimId) =
        some valkey) :
    valkey.workers =
      Function.update s.valkey.workers worker
        (.releaseLookUp claimId) := by
  simp only [ValkeyState.step] at hCall
  split at hCall
  · cases hCall
    rfl
  · cases hCall

/-
  A command of a call that claims: it ends without a claim only
  when the key is held, and goes on to a call that claims.
-/
theorem claim_cases
    (hClaims : claimsNow (s.valkey.workers worker) = true)
    (hSend :
      s.valkey.step name (.send worker) = some valkey) :
    claimsNow (valkey.workers worker) = true ∨
      valkey.workers worker = .answered .failed ∨
      (∃ claim, valkey.workers worker =
        .answered (.claim (some claim))) ∨
      valkey.workers worker = .answered (.claim none) ∧
        ∃ triggerKey ∈ claimedKey (s.valkey.workers worker),
          (s.valkey.db.entryAt s.valkey.now
            (claimKey name triggerKey)).isSome := by
  simp only [ValkeyState.step] at hSend
  cases hPhase : s.valkey.workers worker with
  | claimSet triggerKey claimId ttlMs =>
      simp only [hPhase, ValkeyState.send] at hSend
      split at hSend
      · cases hSend
        exact .inr (.inl put_self)
      · rcases @Redis.setNx_cases s.valkey.db s.valkey.now
            ttlMs (claimKey name triggerKey) claimId with
          ⟨⟨entry, hHeld⟩, hEq⟩ | ⟨_, hEq⟩
        · rw [hEq] at hSend
          cases hSend
          refine .inr (.inr (.inr ⟨put_self, triggerKey,
            rfl, ?_⟩))
          rw [hHeld]
          rfl
        · rw [hEq] at hSend
          cases hSend
          left
          rw [put_self]
          rfl
  | claimSetReverse triggerKey claimId ttlMs =>
      simp only [hPhase, ValkeyState.send] at hSend
      cases hSend
      exact .inr (.inr (.inl ⟨_, put_self⟩))
  | _ =>
      rw [hPhase] at hClaims
      cases hClaims

/- What a call of the store leaves of a worker. -/
theorem kept_resume
    {entry : StreamEntry}
    (hPhase : s.workers worker = .claiming entry)
    (hClaims : claimsNow (s.valkey.workers worker) = true)
    (hAttended : Attended name s (.send worker))
    (hSend :
      s.valkey.step name (.send worker) = some valkey) :
    ∀ result, valkey.workers worker = .answered result →
      PhaseKept s.outcomes (.answered result)
        (s.resume worker (.claiming entry) result) := by
  intro result hResult
  rcases claim_cases hClaims hSend with
    hMore | hFailed | ⟨claim, hGranted⟩ | ⟨hDenied, hHeld⟩
  · rw [hResult] at hMore
    cases hMore
  · rw [hResult] at hFailed
    cases hFailed
    trivial
  · rw [hResult] at hGranted
    cases hGranted
    trivial
  · rw [hResult] at hDenied
    cases hDenied
    rcases hHeld with ⟨triggerKey, hKey, hSome⟩
    apply hAttended entry _ triggerKey hKey hSome
    rw [hPhase]
    rfl

/- A command of a call of the store. -/
theorem Kept.send
    (hState : Kept s)
    (hAttended : Attended name s (.send worker))
    (hStep : s.step name (.send worker) = some s') :
    Kept s' := by
  simp only [IngressState.step, Option.map_eq_some_iff]
    at hStep
  rcases hStep with ⟨valkey, hSend, hEq⟩
  rcases send_workers hSend with ⟨next, hWorkers⟩
  have hNext : valkey.workers worker = next := by
    rw [hWorkers, Function.update_self]
  have hBefore := hState.phases worker
  split at hEq
  · rename_i result hResult
    rw [← hEq]
    have hAnswer : next = .answered result :=
      hNext.symm.trans hResult
    refine hState.move hState.acknowledged
      (List.Subset.refl _) rfl hWorkers ?_
    rw [hAnswer]
    cases hPhase : s.workers worker with
    | claiming entry =>
        rw [hPhase] at hBefore
        exact kept_resume hPhase hBefore hAttended hSend
          result hResult
    | releasing processed =>
        cases result <;> cases processed <;> trivial
    | acknowledgingDenied entry =>
        rw [hPhase] at hBefore
        simp only [IngressState.resume, hPhase]
        exact hBefore
    | acknowledging entry claimId =>
        rw [hPhase] at hBefore
        simp only [IngressState.resume, hPhase]
        exact hBefore
    | _ =>
        simp only [IngressState.resume, hPhase]
        trivial
  · rename_i hOpen
    rw [← hEq]
    have hSame : s.workers =
        Function.update s.workers worker (s.workers worker) :=
      (Function.update_eq_self worker _).symm
    refine hState.move hState.acknowledged
      (List.Subset.refl _) hSame hWorkers ?_
    cases hPhase : s.workers worker with
    | claiming entry =>
        rw [hPhase] at hBefore
        rcases claim_cases hBefore hSend with
          hMore | hFailed | ⟨claim, hGranted⟩ | ⟨hDenied, _⟩
        · rw [hNext] at hMore
          exact hMore
        · exact absurd hFailed (hOpen _)
        · exact absurd hGranted (hOpen _)
        · exact absurd hDenied (hOpen _)
    | acknowledgingDenied entry =>
        rw [hPhase] at hBefore
        exact hBefore
    | acknowledging entry claimId =>
        rw [hPhase] at hBefore
        exact hBefore
    | _ => trivial

theorem Kept.step
    (hState : Kept s)
    (hAttended : Attended name s action)
    (hStep : s.step name action = some s') :
    Kept s' := by
  cases action with
  | wait ms =>
      cases hStep
      exact ⟨hState.acknowledged, hState.phases⟩
  | publish entry =>
      cases hStep
      exact ⟨hState.acknowledged, hState.phases⟩
  | runOnce worker =>
      simp only [IngressState.step] at hStep
      split at hStep
      · cases hStep
        exact hState.put trivial
      · cases hStep
  | read worker claimId =>
      simp only [IngressState.step] at hStep
      split at hStep
      · split at hStep
        · cases hStep
          exact hState.put trivial
        · simp only [IngressState.call,
            Option.map_eq_some_iff] at hStep
          rcases hStep with ⟨valkey, hCall, hEq⟩
          rw [← hEq]
          exact hState.move hState.acknowledged
            (List.Subset.refl _) rfl (claim_workers hCall) rfl
      · cases hStep
  | send worker => exact hState.send hAttended hStep
  | record worker outcome =>
      simp only [IngressState.step] at hStep
      split at hStep
      · cases hStep
        have hMore :
            s.outcomes ⊆ s.outcomes ++ [outcome] :=
          List.subset_append_left _ _
        refine ⟨?_, ?_⟩
        · intro entry hMem
          exact (hState.acknowledged entry hMem).mono hMore
        · intro other
          exact (hState.phases other).mono hMore
      · cases hStep
  | finish worker succeeded =>
      simp only [IngressState.step] at hStep
      split at hStep
      · rename_i entry claimId hPhase
        split at hStep
        · rename_i hSucceeded
          cases hStep
          apply hState.put
          apply hAttended entry _ hSucceeded
          rw [hPhase]
          rfl
        · simp only [IngressState.call,
            Option.map_eq_some_iff] at hStep
          rcases hStep with ⟨valkey, hCall, hEq⟩
          rw [← hEq]
          exact hState.move hState.acknowledged
            (List.Subset.refl _) rfl (release_workers hCall)
            trivial
      · cases hStep
  | acknowledge worker =>
      have hBefore := hState.phases worker
      simp only [IngressState.step] at hStep
      split at hStep
      · rename_i entry hPhase
        rw [hPhase] at hBefore
        cases hStep
        have hSame : s.valkey.workers =
            Function.update s.valkey.workers worker
              (s.valkey.workers worker) :=
          (Function.update_eq_self worker _).symm
        exact hState.move (NoneLost.snoc hState hBefore)
          (List.Subset.refl _) rfl hSame trivial
      · rename_i entry claimId hPhase
        rw [hPhase] at hBefore
        simp only [IngressState.call,
          Option.map_eq_some_iff] at hStep
        rcases hStep with ⟨valkey, hCall, hEq⟩
        rw [← hEq]
        exact hState.move (NoneLost.snoc hState hBefore)
          (List.Subset.refl _) rfl (release_workers hCall)
          trivial
      · cases hStep
  | fail worker =>
      simp only [IngressState.step] at hStep
      split at hStep
      · cases hStep
      · cases hStep
        have hHere :
            (s.put worker .failed).workers =
              Function.update s.workers worker .failed := rfl
        exact hState.move hState.acknowledged
          (List.Subset.refl _) hHere rfl trivial

end Steps

/-
  In every run of attended steps, only entries that are
  answered have been acknowledged, in every state.
-/
theorem acknowledged_answered
    {ι : Type} [DecidableEq ι]
    (name : String)
    (trace : List (IngressState ι × IngressAction ι))
    (s : IngressState ι)
    (hReach : Reaches (IngressState.step name) {} trace s)
    (hAttended : ∀ p ∈ trace, Attended name p.1 p.2) :
    NoneLost s ∧ ∀ p ∈ trace, NoneLost p.1 := by
  have hInit : Kept ({} : IngressState ι) := by
    refine ⟨?_, fun _ => trivial⟩
    intro entry hMem
    cases hMem
  have hAll := hReach.invariant (I := Kept)
    (C := Attended name) hInit
    (fun _ _ _ hState hStepAttended hStep =>
      hState.step hStepAttended hStep)
    hAttended
  exact ⟨hAll.1.acknowledged,
    fun p hMem => (hAll.2 p hMem).acknowledged⟩

------------------------------------------------------------
-- Two Sessions With One Key
------------------------------------------------------------

instance
    (outcomes : List RecordedOutcome) :
    DecidablePred (Answered outcomes) := fun entry => by
  unfold Answered
  infer_instance

instance
    {ι : Type}
    (name : String)
    (s : IngressState ι) :
    DecidablePred (Attended name s) := fun action => by
  unfold Attended
  cases action <;> infer_instance

namespace Sample

/- The events of two sessions that have the same key. -/
def first : StreamEntry := ⟨"1-0", "session-a", some "key"⟩

def second : StreamEntry := ⟨"2-0", "session-b", some "key"⟩

/- The two events are taken one after the other. -/
def inTurn : List (IngressAction Bool) :=
  [.publish first, .publish second,
    .runOnce false, .read false "a", .send false, .send false,
    .record false ⟨"session-a", "1-0", some "key"⟩,
    .finish false true, .acknowledge false,
    .send false, .send false, .send false, .send false,
    .runOnce true, .read true "b", .send true, .send true,
    .record true ⟨"session-b", "2-0", some "key"⟩,
    .finish true true, .acknowledge true]

/-
  The second event is read while the first worker holds the
  key, and then the engine fails for the first.
-/
def overlapping : List (IngressAction Bool) :=
  [.publish first, .publish second,
    .runOnce false, .read false "a", .send false, .send false,
    .runOnce true, .read true "b", .send true,
    .acknowledge true, .finish false false]

def streamRun
    (actions : List (IngressAction Bool)) :
    List (IngressState Bool × IngressAction Bool) ×
      IngressState Bool :=
  follow (IngressState.step "rain_engine") [] {} actions

end Sample

theorem acknowledged_answered_inTurn :
    (Sample.streamRun Sample.inTurn).1.length = 20 ∧
      (Sample.streamRun Sample.inTurn).2.acknowledged =
        [Sample.first, Sample.second] ∧
      NoneLost (Sample.streamRun Sample.inTurn).2 ∧
      ∀ p ∈ (Sample.streamRun Sample.inTurn).1,
        NoneLost p.1 :=
  ⟨by decide +kernel, by decide +kernel,
    acknowledged_answered "rain_engine" _ _
      (follow_reaches Sample.inTurn .start)
      (by decide +kernel)⟩

/-
  The event of the second session is acknowledged, although no
  outcome has been recorded at all.
-/
theorem other_session_swallows_event :
    ¬(∀ (name : String)
        (trace :
          List (IngressState Bool × IngressAction Bool)) s,
      Reaches (IngressState.step name) {} trace s →
        NoneLost s) := by
  intro hNone
  have hLost := hNone "rain_engine" _ _
    (follow_reaches Sample.overlapping .start)
    Sample.second (by decide +kernel)
  rcases hLost with ⟨outcome, hMem, _⟩
  have hEmpty :
      (Sample.streamRun Sample.overlapping).2.outcomes = [] :=
    by decide +kernel
  rw [Sample.streamRun] at hEmpty
  rw [hEmpty] at hMem
  cases hMem

end RainEngine.Ingress
