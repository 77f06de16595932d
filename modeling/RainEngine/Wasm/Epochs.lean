import Mathlib.Logic.Function.Basic
import RainEngine.Transitions.Reaches
import RainEngine.Wasm.Limits

/-
  This file is about calls that run at the same time on one
  executor. Their stores share the epoch of one engine: a call
  whose time is up advances the epoch to stop its own guest,
  and stops every guest that is running. Calls are isolated as
  long as no time is up while another call is running.

  Key definitions include:
    * `ExecutorState.step`
    * `Isolated`
    * `Alone`
    * `Undisturbed`

  Key theorems include:
    * `Undisturbed.step`
    * `run_isolated`
    * `timeout_stops_other_call`
-/

namespace RainEngine.Wasm

open Transitions

------------------------------------------------------------
-- Concurrent Calls
------------------------------------------------------------

abbrev SkillResult : Type :=
  Except SkillExecutionError Json

/- How the guest of a call has ended. -/
inductive GuestEnd where
  | own (result : SkillResult)
  | interrupted

/-
  The blocking task of a call: it waits for a thread, runs the
  guest until the epoch comes to its deadline, or has ended.
-/
inductive GuestTask where
  | queued
  | running (epochDeadline : Nat)
  | finished (guest : GuestEnd)

/- What a call answers: the end of its guest, or a timeout. -/
inductive CallAnswer where
  | joined (guest : GuestEnd)
  | timedOut

structure WasmCall where
  startedAt : Nat
  task : GuestTask := .queued
  answer : Option CallAnswer := none

def classifyTrap (message : String) : SkillExecutionError :=
  { kind :=
      if containsText message "all fuel consumed" then .timeout
      else if
          containsText message "out of bounds memory access" ||
            containsText message "memory" ||
            containsText message "limit" then
        .memoryLimitExceeded
      else if containsText message "capability" then
        .capabilityDenied
      else .trap
    message := message }

/- The result of a call; the text of the trap is given. -/
def CallAnswer.result
    (trapMessage : String) :
    CallAnswer → SkillResult
| .joined (.own result) => result
| .joined .interrupted => .error (classifyTrap trapMessage)
| .timedOut =>
    .error ⟨.timeout, "skill execution exceeded timeout"⟩

/-
  The executor and its calls. The time is in milliseconds, and
  the epoch is that of the engine, which all stores share.
-/
structure ExecutorState (ι : Type) where
  now : Nat := 0
  epoch : Nat := 0
  calls : ι → Option WasmCall := fun _ => none

/-
  A call is made, gets a thread and sets its epoch deadline,
  its guest ends or is interrupted, its task is joined or its
  time is up.
-/
inductive CallAction (ι : Type) where
  | wait (ms : Nat)
  | execute (id : ι)
  | executeBlocking (id : ι)
  | finish (id : ι) (result : SkillResult)
  | interrupt (id : ι)
  | join (id : ι)
  | timeOut (id : ι)

namespace WasmCall

/- A thread is found: `set_epoch_deadline(1)` is called. -/
def executeBlocking
    (epoch : Nat)
    (call : WasmCall) :
    Option WasmCall :=
  match call.task with
  | .queued => some { call with task := .running (epoch + 1) }
  | _ => none

def finish
    (result : SkillResult)
    (call : WasmCall) :
    Option WasmCall :=
  match call.task with
  | .running _ =>
      some { call with task := .finished (.own result) }
  | _ => none

/- The guest traps once the epoch has come to its deadline. -/
def interrupt
    (epoch : Nat)
    (call : WasmCall) :
    Option WasmCall :=
  match call.task with
  | .running epochDeadline =>
      if epochDeadline ≤ epoch then
        some { call with task := .finished .interrupted }
      else none
  | _ => none

def join (call : WasmCall) : Option WasmCall :=
  match call.task, call.answer with
  | .finished guest, none =>
      some { call with answer := some (.joined guest) }
  | _, _ => none

/- The time is up, and the task has not ended. -/
def timeOut
    (deadlineMs now : Nat)
    (call : WasmCall) :
    Option WasmCall :=
  match call.task, call.answer with
  | .finished _, _ => none
  | _, some _ => none
  | _, none =>
      if call.startedAt + deadlineMs ≤ now then
        some { call with answer := some .timedOut }
      else none

end WasmCall

namespace ExecutorState

variable {ι : Type} [DecidableEq ι]

def put
    (s : ExecutorState ι)
    (id : ι)
    (call : WasmCall) :
    ExecutorState ι :=
  { s with calls := Function.update s.calls id (some call) }

/- Change one call, if it is there and can be changed. -/
def change
    (s : ExecutorState ι)
    (id : ι)
    (f : WasmCall → Option WasmCall) :
    Option (ExecutorState ι) :=
  ((s.calls id).bind f).map (s.put id)

/- One step of one call, if it is possible. -/
def step
    (executor : WasmSkillExecutor)
    (s : ExecutorState ι) :
    CallAction ι → Option (ExecutorState ι)
| .wait ms => some { s with now := s.now + ms }
| .execute id =>
    match s.calls id with
    | none => some (s.put id { startedAt := s.now })
    | some _ => none
| .executeBlocking id =>
    s.change id (WasmCall.executeBlocking s.epoch)
| .finish id result => s.change id (WasmCall.finish result)
| .interrupt id => s.change id (WasmCall.interrupt s.epoch)
| .join id => s.change id WasmCall.join
| .timeOut id =>
    -- `increment_epoch` is called for the whole engine
    (s.change id
        (WasmCall.timeOut executor.deadlineMs s.now)).map
      fun s' => { s' with epoch := s.epoch + 1 }

end ExecutorState

------------------------------------------------------------
-- Isolation
------------------------------------------------------------

/-
  A call whose guest is interrupted has answered that its time
  is up, which it was, and any other answer is the own result
  of its guest.
-/
structure WasmCall.Isolated
    (executor : WasmSkillExecutor)
    (now : Nat)
    (call : WasmCall) : Prop where
  interrupted :
    call.task = .finished .interrupted →
      call.answer = some .timedOut
  timedOut :
    call.answer = some .timedOut →
      call.startedAt + executor.deadlineMs ≤ now
  joined :
    ∀ guest, call.answer = some (.joined guest) →
      call.task = .finished guest ∧
        ∃ result, guest = .own result

def Isolated
    {ι : Type}
    (executor : WasmSkillExecutor)
    (s : ExecutorState ι) :
    Prop :=
  ∀ id call, s.calls id = some call →
    call.Isolated executor s.now

/-
  When the time of a call is up, no other guest is running,
  other than those of calls whose time is up as well.
-/
def Alone
    {ι : Type}
    (s : ExecutorState ι) :
    CallAction ι → Prop
| .timeOut id =>
    ∀ other call epochDeadline, other ≠ id →
      s.calls other = some call →
        call.task = .running epochDeadline →
          call.answer = some .timedOut
| _ => True

/- An isolated call that the epoch does not stop before time. -/
structure WasmCall.Undisturbed
    (executor : WasmSkillExecutor)
    (now epoch : Nat)
    (call : WasmCall) : Prop where
  isolated : call.Isolated executor now
  ahead :
    ∀ epochDeadline, call.task = .running epochDeadline →
      call.answer = none → epoch < epochDeadline

def Undisturbed
    {ι : Type}
    (executor : WasmSkillExecutor)
    (s : ExecutorState ι) :
    Prop :=
  ∀ id call, s.calls id = some call →
    call.Undisturbed executor s.now s.epoch

section Calls

variable {executor : WasmSkillExecutor}
variable {now epoch : Nat}
variable {call next : WasmCall}

theorem WasmCall.Undisturbed.executeBlocking
    (hCall : call.Undisturbed executor now epoch)
    (hNext : call.executeBlocking epoch = some next) :
    next.Undisturbed executor now epoch := by
  unfold WasmCall.executeBlocking at hNext
  split at hNext
  · rename_i hQueued
    cases hNext
    refine ⟨⟨nofun, hCall.isolated.timedOut, ?_⟩, ?_⟩
    · intro guest hAnswer
      have hTask := (hCall.isolated.joined guest hAnswer).1
      rw [hQueued] at hTask
      cases hTask
    · intro epochDeadline hRunning _
      cases hRunning
      exact Nat.lt_succ_self _
  · cases hNext

theorem WasmCall.Undisturbed.finish
    {result : SkillResult}
    (hCall : call.Undisturbed executor now epoch)
    (hNext : call.finish result = some next) :
    next.Undisturbed executor now epoch := by
  unfold WasmCall.finish at hNext
  split at hNext
  · rename_i hRunning
    cases hNext
    refine ⟨⟨nofun, hCall.isolated.timedOut, ?_⟩, nofun⟩
    intro guest hAnswer
    have hTask := (hCall.isolated.joined guest hAnswer).1
    rw [hRunning] at hTask
    cases hTask
  · cases hNext

/- Only a call whose own time is up can be interrupted. -/
theorem WasmCall.Undisturbed.interrupt
    (hCall : call.Undisturbed executor now epoch)
    (hNext : call.interrupt epoch = some next) :
    next.Undisturbed executor now epoch := by
  unfold WasmCall.interrupt at hNext
  split at hNext
  · rename_i epochDeadline hRunning
    split at hNext
    · rename_i hReached
      cases hNext
      have hAnswer : call.answer = some .timedOut := by
        cases hAnswer : call.answer with
        | none =>
            have hAhead := hCall.ahead _ hRunning hAnswer
            omega
        | some answered =>
            cases answered with
            | joined guest =>
                have hTask :=
                  (hCall.isolated.joined guest hAnswer).1
                rw [hRunning] at hTask
                cases hTask
            | timedOut => rfl
      refine ⟨⟨fun _ => hAnswer, hCall.isolated.timedOut, ?_⟩,
        nofun⟩
      intro guest hJoined
      change call.answer = _ at hJoined
      rw [hAnswer] at hJoined
      cases hJoined
    · cases hNext
  · cases hNext

/- What is joined is the own result of the guest. -/
theorem WasmCall.Undisturbed.join
    (hCall : call.Undisturbed executor now epoch)
    (hNext : call.join = some next) :
    next.Undisturbed executor now epoch := by
  unfold WasmCall.join at hNext
  split at hNext
  · rename_i guest hTask hAnswer
    cases hNext
    cases guest with
    | own result =>
        refine ⟨⟨?_, nofun, ?_⟩, nofun⟩
        · intro hInterrupted
          change call.task = _ at hInterrupted
          rw [hTask] at hInterrupted
          cases hInterrupted
        · intro guest hJoined
          cases hJoined
          exact ⟨hTask, result, rfl⟩
    | interrupted =>
        have hTimedOut := hCall.isolated.interrupted hTask
        rw [hAnswer] at hTimedOut
        cases hTimedOut
  · cases hNext

/- A call whose time is up may be stopped by its own epoch. -/
theorem undisturbed_timeOut
    (hNext : call.timeOut executor.deadlineMs now = some next) :
    next.Undisturbed executor now (epoch + 1) := by
  unfold WasmCall.timeOut at hNext
  split at hNext
  · cases hNext
  · cases hNext
  · split at hNext
    · rename_i hElapsed
      cases hNext
      exact ⟨⟨fun _ => rfl, fun _ => hElapsed, nofun⟩, nofun⟩
    · cases hNext

end Calls

section Steps

variable {ι : Type} [DecidableEq ι]
variable {executor : WasmSkillExecutor}
variable {s s' : ExecutorState ι}
variable {action : CallAction ι}
variable {id : ι}
variable {f : WasmCall → Option WasmCall}

/- What changing a call can do. -/
theorem change_cases
    (hChange : s.change id f = some s') :
    ∃ call next, s.calls id = some call ∧
      f call = some next ∧ s' = s.put id next := by
  unfold ExecutorState.change at hChange
  rw [Option.map_eq_some_iff] at hChange
  rcases hChange with ⟨next, hNext, hEq⟩
  rw [Option.bind_eq_some_iff] at hNext
  rcases hNext with ⟨call, hCall, hFound⟩
  exact ⟨call, next, hCall, hFound, hEq.symm⟩

/- Changing one call that goes on undisturbed. -/
theorem Undisturbed.put
    {now epoch : Nat}
    {next : WasmCall}
    (hOthers : ∀ other call, other ≠ id →
      s.calls other = some call →
        call.Undisturbed executor now epoch)
    (hNext : next.Undisturbed executor now epoch) :
    ∀ other call, (s.put id next).calls other = some call →
      call.Undisturbed executor now epoch := by
  intro other call hFound
  change Function.update s.calls id (some next) other = _
    at hFound
  by_cases hSame : other = id
  · rw [hSame, Function.update_self] at hFound
    cases hFound
    exact hNext
  · rw [Function.update_of_ne hSame] at hFound
    exact hOthers other call hSame hFound

theorem Undisturbed.change
    (hCalls : Undisturbed executor s)
    (hKeeps : ∀ call next,
      call.Undisturbed executor s.now s.epoch →
        f call = some next →
          next.Undisturbed executor s.now s.epoch)
    (hChange : s.change id f = some s') :
    Undisturbed executor s' := by
  rcases change_cases hChange with
    ⟨call, next, hFound, hNext, hEq⟩
  subst hEq
  exact Undisturbed.put
    (fun other call _ hOther => hCalls other call hOther)
    (hKeeps call next (hCalls id call hFound) hNext)

/- Every step leaves the calls undisturbed. -/
theorem Undisturbed.step
    (hCalls : Undisturbed executor s)
    (hAlone : Alone s action)
    (hStep : s.step executor action = some s') :
    Undisturbed executor s' := by
  cases action with
  | wait ms =>
      cases hStep
      intro id call hFound
      have hCall := hCalls id call hFound
      refine ⟨⟨hCall.isolated.interrupted, ?_,
        hCall.isolated.joined⟩, hCall.ahead⟩
      intro hAnswer
      have hElapsed := hCall.isolated.timedOut hAnswer
      change _ ≤ s.now + ms
      omega
  | execute id =>
      simp only [ExecutorState.step] at hStep
      split at hStep
      · cases hStep
        exact Undisturbed.put
          (fun other call _ hOther => hCalls other call hOther)
          ⟨⟨nofun, nofun, nofun⟩, nofun⟩
      · cases hStep
  | executeBlocking id =>
      exact hCalls.change
        (fun _ _ hCall hNext => hCall.executeBlocking hNext)
        hStep
  | finish id result =>
      exact hCalls.change
        (fun _ _ hCall hNext => hCall.finish hNext) hStep
  | interrupt id =>
      exact hCalls.change
        (fun _ _ hCall hNext => hCall.interrupt hNext) hStep
  | join id =>
      exact hCalls.change
        (fun _ _ hCall hNext => hCall.join hNext) hStep
  | timeOut id =>
      simp only [ExecutorState.step, Option.map_eq_some_iff]
        at hStep
      rcases hStep with ⟨s'', hChange, hEq⟩
      subst hEq
      rcases change_cases hChange with
        ⟨call, next, _, hNext, hEq⟩
      subst hEq
      refine Undisturbed.put ?_
        (undisturbed_timeOut hNext)
      -- the others are not stopped: they do not run, or their
      -- own time is up
      intro other waiting hOther hWaiting
      have hCall := hCalls other waiting hWaiting
      refine ⟨hCall.isolated, ?_⟩
      intro epochDeadline hRunning hOpen
      have hAnswered := hAlone other waiting epochDeadline
        hOther hWaiting hRunning
      rw [hOpen] at hAnswered
      cases hAnswered

end Steps

/-
  In every run in which no time is up while another call is
  running, all calls are isolated in every state.
-/
theorem run_isolated
    {ι : Type} [DecidableEq ι]
    (executor : WasmSkillExecutor)
    (trace : List (ExecutorState ι × CallAction ι))
    (s : ExecutorState ι)
    (hReach : Reaches (ExecutorState.step executor) {} trace s)
    (hAlone : ∀ p ∈ trace, Alone p.1 p.2) :
    Isolated executor s ∧
      ∀ p ∈ trace, Isolated executor p.1 := by
  have hInit : Undisturbed executor ({} : ExecutorState ι) := by
    nofun
  have hAll := hReach.invariant (I := Undisturbed executor)
    (C := Alone) hInit
    (fun _ _ _ hCalls hOnly hStep => hCalls.step hOnly hStep)
    hAlone
  exact ⟨fun id call hFound => (hAll.1 id call hFound).isolated,
    fun p hMem id call hFound =>
      (hAll.2 p hMem id call hFound).isolated⟩

------------------------------------------------------------
-- A Timeout That Stops Another Call
------------------------------------------------------------

namespace Sample

def executor : WasmSkillExecutor where
  manifest := RainEngine.Sample.manifest "echo"

/- Two calls, the second made when the first times out. -/
def overlapping : List (CallAction Nat) :=
  [.execute 0, .executeBlocking 0, .wait executor.deadlineMs,
    .execute 1, .executeBlocking 1, .timeOut 0, .interrupt 1,
    .join 1]

/- The second call is made after the first has ended. -/
def inTurn : List (CallAction Nat) :=
  [.execute 0, .executeBlocking 0, .wait executor.deadlineMs,
    .timeOut 0, .interrupt 0, .execute 1, .executeBlocking 1,
    .finish 1 (.ok .null), .join 1]

def followed (actions : List (CallAction Nat)) :
    List (ExecutorState Nat × CallAction Nat) ×
      ExecutorState Nat :=
  follow (ExecutorState.step executor) [] {} actions

end Sample

/- Two calls, one after the other, that are isolated. -/
theorem run_isolated_inTurn :
    (Sample.followed Sample.inTurn).1.length = 9 ∧
      Isolated Sample.executor
        (Sample.followed Sample.inTurn).2 ∧
      ∀ p ∈ (Sample.followed Sample.inTurn).1,
        Isolated Sample.executor p.1 := by
  refine ⟨rfl, run_isolated Sample.executor _ _
    (follow_reaches Sample.inTurn .start) ?_⟩
  intro p hMem
  change p ∈ [_, _, _, _, _, _, _, _, _] at hMem
  simp only [List.mem_cons, List.not_mem_nil, or_false]
    at hMem
  rcases hMem with h | h | h | h | h | h | h | h | h
  all_goals subst h
  case inr.inr.inr.inl =>
    intro other call epochDeadline hOther hFound _
    change Function.update (Function.update _ _ _) _ _ other =
      _ at hFound
    rw [Function.update_of_ne hOther,
      Function.update_of_ne hOther] at hFound
    cases hFound
  all_goals trivial

/-
  The time of the first call is up while the second runs. The
  second is interrupted and answers with a trap, although it
  has had no time at all.
-/
theorem timeout_stops_other_call :
    ¬(∀ (executor : WasmSkillExecutor)
        (trace : List (ExecutorState Nat × CallAction Nat)) s,
      Reaches (ExecutorState.step executor) {} trace s →
        Isolated executor s) := by
  intro hIsolated
  have hCall := hIsolated Sample.executor _ _
    (follow_reaches Sample.overlapping .start) 1
    { startedAt := Sample.executor.deadlineMs
      task := .finished .interrupted
      answer := some (.joined .interrupted) } rfl
  cases hCall.interrupted rfl

end RainEngine.Wasm
