import RainEngine.States.Projection

/-
  This file is about the pending wake of the agent state. The
  state has one slot for all wakes of a ledger: it holds the
  wake requested last until that wake is completed. Wakes
  requested before are forgotten, completed or not.

  Key definitions include:
    * `OutstandingWake`
    * `NewestWake`
    * `ShowsOutstanding`
    * `NewestStands`

  Key theorems include:
    * `pendingWake_eq_some_iff`
    * `showsOutstanding_iff`
-/

namespace RainEngine

open Logs

------------------------------------------------------------
-- Wakes Of A Ledger
------------------------------------------------------------

namespace KernelEvent

def requestedWake : KernelEvent → Option WakeRequestRecord
| .wakeRequested wake => some wake
| .wakeScheduled wake => some wake
| _ => none

def completedWake : KernelEvent → Option WakeId
| .wakeCompleted wakeId _ => some wakeId
| _ => none

end KernelEvent

open KernelEvent

/- The wake is requested, and not completed afterwards. -/
def OutstandingWake
    (events : List KernelEvent)
    (wake : WakeRequestRecord) :
    Prop :=
  ∃ before event after,
    events = before ++ event :: after ∧
    event.requestedWake = some wake ∧
    ∀ later ∈ after, later.completedWake ≠ some wake.wakeId

/- The wake is requested, and none is requested afterwards. -/
def NewestWake
    (events : List KernelEvent)
    (wake : WakeRequestRecord)
    (after : List KernelEvent) :
    Prop :=
  ∃ before event,
    events = before ++ event :: after ∧
    event.requestedWake = some wake ∧
    ∀ later ∈ after, later.requestedWake = none

/- The slot is taken by a wake that is still outstanding. -/
def ShowsOutstanding
    (events : List KernelEvent)
    (pending : Option WakeRequestRecord) :
    Prop :=
  (pending.isSome = true ↔
      ∃ wake, OutstandingWake events wake) ∧
    ∀ wake, pending = some wake → OutstandingWake events wake

/-
  The newest wake has not been completed since, or no wake is
  outstanding.
-/
def NewestStands (events : List KernelEvent) : Prop :=
  ∀ newest after,
    NewestWake events newest after →
    (∃ later ∈ after,
      later.completedWake = some newest.wakeId) →
    ∀ wake, ¬OutstandingWake events wake

/- The newest wake stands at one place of the ledger. -/
theorem NewestWake.unique
    {events after after' : List KernelEvent}
    {wake wake' : WakeRequestRecord}
    (hNewest : NewestWake events wake after)
    (hNewest' : NewestWake events wake' after') :
    wake = wake' ∧ after = after' := by
  rcases hNewest with
    ⟨before, event, hEvents, hEvent, hNone⟩
  rcases hNewest' with
    ⟨before', event', hEvents', hEvent', hNone'⟩
  rw [hEvents] at hEvents'
  rcases List.append_eq_append_iff.mp hEvents' with
    ⟨more, hBefore, hRest⟩ | ⟨more, hBefore, hRest⟩
  · cases more with
    | nil =>
        rcases List.cons_eq_cons.mp hRest with ⟨hSame, hAfter⟩
        subst hSame
        rw [hEvent] at hEvent'
        exact ⟨Option.some.inj hEvent', hAfter⟩
    | cons head rest =>
        rcases List.cons_eq_cons.mp hRest with ⟨_, hAfter⟩
        have hLater := hNone event' (by simp [hAfter])
        rw [hEvent'] at hLater
        cases hLater
  · cases more with
    | nil =>
        rcases List.cons_eq_cons.mp hRest with ⟨hSame, hAfter⟩
        subst hSame
        rw [hEvent] at hEvent'
        exact ⟨Option.some.inj hEvent', hAfter.symm⟩
    | cons head rest =>
        rcases List.cons_eq_cons.mp hRest with ⟨_, hAfter⟩
        have hLater := hNone' event (by simp [hAfter])
        rw [hEvent] at hLater
        cases hLater

section Wakes

variable {events : List KernelEvent}
variable {event : KernelEvent}
variable {wake : WakeRequestRecord}
variable {pending : Option WakeRequestRecord}

theorem nextWake_of_requested
    (hWake : event.requestedWake = some wake) :
    event.nextWake pending = some wake := by
  cases event with
  | wakeRequested requested => exact hWake
  | wakeScheduled requested => exact hWake
  | _ => cases hWake

theorem nextWake_of_completed
    (hWake : event.completedWake = some wake.wakeId) :
    event.nextWake (some wake) = none := by
  cases event with
  | wakeCompleted wakeId reason =>
      have hSame : wakeId = wake.wakeId := Option.some.inj hWake
      subst hSame
      simp [nextWake]
  | _ => cases hWake

theorem nextWake_of_other
    (hNotRequested : event.requestedWake = none)
    (hNotCompleted :
      ∀ wake, pending = some wake →
        event.completedWake ≠ some wake.wakeId) :
    event.nextWake pending = pending := by
  cases event with
  | wakeRequested requested => cases hNotRequested
  | wakeScheduled requested => cases hNotRequested
  | wakeCompleted wakeId reason =>
      unfold nextWake
      cases pending with
      | none => rfl
      | some wake =>
          have hOther : wake.wakeId ≠ wakeId := by
            intro hSame
            apply hNotCompleted wake rfl
            rw [hSame]
            rfl
          simp [hOther]
  | _ => rfl

theorem newestWake_of_requested
    {newest : WakeRequestRecord}
    {after : List KernelEvent}
    (hRequested : event.requestedWake = some newest) :
    NewestWake (events ++ [event]) wake after ↔
      after = [] ∧ wake = newest := by
  constructor
  · rintro ⟨before, first, hEvents, hFirst, hNone⟩
    rcases snoc_eq_append_cons hEvents with
      ⟨hAfter, hSame⟩ | ⟨init, hAfter, _⟩
    · subst hSame
      rw [hRequested] at hFirst
      exact ⟨hAfter, (Option.some.inj hFirst).symm⟩
    · have hLast := hNone event (by simp [hAfter])
      rw [hRequested] at hLast
      cases hLast
  · rintro ⟨hAfter, hWake⟩
    subst hAfter
    subst hWake
    refine ⟨events, event, rfl, hRequested, ?_⟩
    intro later hMem
    cases hMem

theorem newestWake_of_other
    {after : List KernelEvent}
    (hOther : event.requestedWake = none) :
    NewestWake (events ++ [event]) wake after ↔
      ∃ init,
        after = init ++ [event] ∧
        NewestWake events wake init := by
  constructor
  · rintro ⟨before, first, hEvents, hFirst, hNone⟩
    rcases snoc_eq_append_cons hEvents with
      ⟨_, hSame⟩ | ⟨init, hAfter, hInit⟩
    · subst hSame
      rw [hOther] at hFirst
      cases hFirst
    · refine ⟨init, hAfter, before, first, hInit, hFirst, ?_⟩
      intro later hMem
      apply hNone
      rw [hAfter]
      exact List.mem_append_left _ hMem
  · rintro ⟨init, hAfter, before, first, hInit, hFirst, hNone⟩
    subst hAfter
    refine ⟨before, first, by rw [hInit]; simp, hFirst, ?_⟩
    intro later hMem
    rcases List.mem_append.mp hMem with hOld | hNew
    · exact hNone later hOld
    · rw [List.mem_singleton.mp hNew]
      exact hOther

/- The slot holds the newest wake until it is completed. -/
theorem pending_eq_some_iff :
    events.foldl nextWake none = some wake ↔
      ∃ after,
        NewestWake events wake after ∧
        ∀ later ∈ after,
          later.completedWake ≠ some wake.wakeId := by
  induction events using List.reverseRecOn generalizing wake with
  | nil =>
      constructor
      · intro hNone
        cases hNone
      · rintro ⟨after, ⟨before, event, hEvents, _⟩, _⟩
        simp at hEvents
  | append_singleton events event ih =>
      rw [List.foldl_append, List.foldl_cons, List.foldl_nil]
      cases hRequested : event.requestedWake with
      | some newest =>
          rw [nextWake_of_requested hRequested]
          constructor
          · intro hSame
            have hWake := (Option.some.inj hSame).symm
            refine ⟨[], ?_, fun _ hMem => by cases hMem⟩
            exact (newestWake_of_requested hRequested).mpr
              ⟨rfl, hWake⟩
          · rintro ⟨after, hNewest, _⟩
            rw [((newestWake_of_requested hRequested).mp
              hNewest).2]
      | none =>
          -- The slot is cleared by its own completion only.
          by_cases hClears : ∃ held,
              events.foldl nextWake none = some held ∧
                event.completedWake = some held.wakeId
          · rcases hClears with ⟨held, hHeld, hCompletes⟩
            rw [hHeld, nextWake_of_completed hCompletes]
            constructor
            · intro hNone
              cases hNone
            · rintro ⟨after, hNewest, hOpen⟩
              rcases (newestWake_of_other hRequested).mp hNewest
                with ⟨init, hAfter, hInit⟩
              subst hAfter
              have hWake :=
                ih.mpr ⟨init, hInit, fun later hMem =>
                  hOpen later (List.mem_append_left _ hMem)⟩
              rw [hHeld] at hWake
              rw [Option.some.inj hWake] at hCompletes
              exact absurd hCompletes (hOpen event (by simp))
          · have hKept : event.nextWake
                (events.foldl nextWake none) =
                  events.foldl nextWake none := by
              apply nextWake_of_other hRequested
              intro held hHeld hCompletes
              exact hClears ⟨held, hHeld, hCompletes⟩
            rw [hKept]
            constructor
            · intro hWake
              rcases ih.mp hWake with ⟨init, hInit, hOpen⟩
              refine ⟨init ++ [event],
                (newestWake_of_other hRequested).mpr
                  ⟨init, rfl, hInit⟩, ?_⟩
              intro later hMem hCompletes
              rcases List.mem_append.mp hMem with hOld | hNew
              · exact hOpen later hOld hCompletes
              · rw [List.mem_singleton.mp hNew] at hCompletes
                exact hClears ⟨wake, hWake, hCompletes⟩
            · rintro ⟨after, hNewest, hOpen⟩
              rcases (newestWake_of_other hRequested).mp hNewest
                with ⟨init, hAfter, hInit⟩
              subst hAfter
              exact ih.mpr ⟨init, hInit, fun later hMem =>
                hOpen later (List.mem_append_left _ hMem)⟩

/- A ledger that requests a wake has a newest one. -/
theorem exists_newestWake
    (hRequested : ∃ event ∈ events,
      event.requestedWake = some wake) :
    ∃ newest after, NewestWake events newest after := by
  induction events using List.reverseRecOn with
  | nil =>
      rcases hRequested with ⟨event, hMem, _⟩
      cases hMem
  | append_singleton events event ih =>
      cases hLast : event.requestedWake with
      | some newest =>
          exact ⟨newest, [],
            (newestWake_of_requested hLast).mpr ⟨rfl, rfl⟩⟩
      | none =>
          have hEarlier : ∃ event ∈ events,
              event.requestedWake = some wake := by
            rcases hRequested with ⟨first, hMem, hFirst⟩
            rcases List.mem_append.mp hMem with hOld | hNew
            · exact ⟨first, hOld, hFirst⟩
            · rw [List.mem_singleton.mp hNew, hLast] at hFirst
              cases hFirst
          rcases ih hEarlier with ⟨newest, after, hNewest⟩
          exact ⟨newest, after ++ [event],
            (newestWake_of_other hLast).mpr
              ⟨after, rfl, hNewest⟩⟩

/- A wake in the slot is outstanding. -/
theorem outstanding_of_pending
    (hPending : events.foldl nextWake none = some wake) :
    OutstandingWake events wake := by
  rcases pending_eq_some_iff.mp hPending with
    ⟨after, ⟨before, event, hEvents, hEvent, _⟩, hOpen⟩
  exact ⟨before, event, after, hEvents, hEvent, hOpen⟩

theorem shows_of_stands
    (hStands : NewestStands events) :
    ShowsOutstanding events
      (events.foldl nextWake none) := by
  refine ⟨⟨?_, ?_⟩, fun _ => outstanding_of_pending⟩
  · intro hSome
    rcases Option.isSome_iff_exists.mp hSome with
      ⟨wake, hPending⟩
    exact ⟨wake, outstanding_of_pending hPending⟩
  · rintro ⟨wake, hOutstanding⟩
    have hRequested : ∃ event ∈ events,
        event.requestedWake = some wake := by
      rcases hOutstanding with
        ⟨before, event, after, hEvents, hEvent, _⟩
      exact ⟨event, by simp [hEvents], hEvent⟩
    rcases exists_newestWake hRequested with
      ⟨newest, after, hNewest⟩
    have hOpen : ∀ later ∈ after,
        later.completedWake ≠ some newest.wakeId := by
      intro later hMem hCompletes
      exact hStands newest after hNewest
        ⟨later, hMem, hCompletes⟩ wake hOutstanding
    rw [pending_eq_some_iff.mpr ⟨after, hNewest, hOpen⟩]
    rfl

theorem stands_of_shows
    (hShows : ShowsOutstanding events
      (events.foldl nextWake none)) :
    NewestStands events := by
  intro newest after hNewest hCompleted wake hOutstanding
  have hSome := hShows.1.mpr ⟨wake, hOutstanding⟩
  rcases Option.isSome_iff_exists.mp hSome with
    ⟨held, hHeld⟩
  rcases pending_eq_some_iff.mp hHeld with
    ⟨after', hNewest', hOpen⟩
  rcases hNewest.unique hNewest' with ⟨hWake, hAfter⟩
  subst hWake
  subst hAfter
  rcases hCompleted with ⟨later, hMem, hCompletes⟩
  exact hOpen later hMem hCompletes

end Wakes

/-
  The pending wake of a ledger shows whether a wake is
  outstanding if and only if the newest one still is, or none
  is.
-/
theorem showsOutstanding_iff
    (sessionId : String)
    (records : List SessionRecord) :
    ShowsOutstanding (eventsOf records)
        (agentState sessionId records).pendingWake ↔
      NewestStands (eventsOf records) := by
  rw [agentState_eq]
  exact ⟨stands_of_shows, shows_of_stands⟩

namespace Sample

def wakeNamed (wakeId : WakeId) : WakeRequestRecord where
  wakeId := wakeId
  requestedAt := 0
  dueAt := 1
  reason := "check later"
  taskId := none

/- A wake is requested and completed while another waits. -/
def overlappingWakes : List SessionRecord :=
  [.kernelEvent
      ⟨"e1", .wakeScheduled (wakeNamed "report")⟩,
    .kernelEvent
      ⟨"e2", .wakeScheduled (wakeNamed "cleanup")⟩,
    .kernelEvent ⟨"e3", .wakeCompleted "cleanup" "due"⟩]

end Sample

/- The completion of the newer wake hides the older one. -/
theorem completed_wake_hides_another :
    OutstandingWake (eventsOf Sample.overlappingWakes)
        (Sample.wakeNamed "report") ∧
      (agentState "session"
        Sample.overlappingWakes).pendingWake = none ∧
      ¬ShowsOutstanding (eventsOf Sample.overlappingWakes)
        (agentState "session"
          Sample.overlappingWakes).pendingWake := by
  have hOutstanding :
      OutstandingWake (eventsOf Sample.overlappingWakes)
        (Sample.wakeNamed "report") := by
    refine ⟨[], _, _, rfl, rfl, ?_⟩
    decide
  have hNone :
      (agentState "session"
        Sample.overlappingWakes).pendingWake = none := by
    decide
  refine ⟨hOutstanding, hNone, ?_⟩
  intro hShows
  rw [hNone] at hShows
  have hSome := hShows.1.mpr ⟨_, hOutstanding⟩
  cases hSome

end RainEngine
