import RainEngine.Stores.InMemory
import RainEngine.Transitions.Reaches

/-
  This file is about concurrent appends to the store in
  memory. An append takes its number in one section and
  inserts its record in another, and any steps of other
  appends may come in between. A session is in order exactly
  as long as its appends insert in the order of their numbers.

  Key definitions include:
    * `LedgerState`
    * `LedgerAction`
    * `Orderly`
    * `InTurn`

  Key theorems include:
    * `Queued.step`
    * `Overtaken.step`
    * `orderly_iff_inTurn`
-/

namespace RainEngine.Stores

open Transitions (Reaches follow follow_reaches)

------------------------------------------------------------
-- Appends In Two Sections
------------------------------------------------------------

/-
  The store, the records that have a number but are not
  inserted yet, and those returned by finished appends.
-/
structure LedgerState where
  store : InMemoryMemoryStore := {}
  pending : List StoredSessionRecord := []
  returned : List StoredSessionRecord := []

inductive LedgerAction where
  | takeNumber (record : NewSessionRecord)
  | insert (sequenceNo : Int)

/- The append that waits to insert under a number. -/
def LedgerState.waiting
    (s : LedgerState)
    (sequenceNo : Int) :
    Option StoredSessionRecord :=
  s.pending.find? (·.sequenceNo = sequenceNo)

/- One section of one append. -/
def LedgerState.step
    (s : LedgerState) :
    LedgerAction → Option LedgerState
| .takeNumber record =>
    let (stored, store) := s.store.takeNumber record
    some
      { s with
        store := store
        pending := s.pending ++ [stored] }
| .insert sequenceNo =>
    (s.waiting sequenceNo).map fun stored =>
      { store := s.store.insert stored
        pending :=
          s.pending.filter (·.sequenceNo ≠ sequenceNo)
        returned := s.returned ++ [stored] }

/- What the finished appends to a session have returned. -/
def LedgerState.returnedTo
    (s : LedgerState)
    (sessionId : String) :
    List StoredSessionRecord :=
  s.returned.filter (·.sessionId = sessionId)

/-
  Every session is in increasing order, and the last number
  that is loaded is the largest one returned.
-/
structure Orderly (s : LedgerState) : Prop where
  increasing : ∀ sessionId,
    ((s.store.recordsOf sessionId).map
      (·.sequenceNo)).Pairwise (· < ·)
  largest : ∀ sessionId,
    (s.store.loadSession sessionId).lastSequenceNo =
      ((s.returnedTo sessionId).map (·.sequenceNo)).max?

/-
  A record is inserted when no append to its session that has
  a smaller number is still to insert.
-/
def InTurn
    (s : LedgerState) :
    LedgerAction → Prop
| .takeNumber _ => True
| .insert sequenceNo =>
    ∀ stored ∈ s.waiting sequenceNo, ∀ other ∈ s.pending,
      other.sessionId = stored.sessionId →
        sequenceNo ≤ other.sequenceNo

instance
    (s : LedgerState)
    (action : LedgerAction) :
    Decidable (InTurn s action) := by
  unfold InTurn
  split <;> infer_instance

------------------------------------------------------------
-- Steps
------------------------------------------------------------

section Steps

variable {s s' : LedgerState}
variable {steps : List (LedgerState × LedgerAction)}
variable {action : LedgerAction}

/- What a step does, one case for each section. -/
theorem LedgerState.step_cases
    (hStep : s.step action = some s') :
    (∃ record, action = .takeNumber record ∧
      s' =
        { s with
          store := (s.store.takeNumber record).2
          pending :=
            s.pending ++ [(s.store.takeNumber record).1] }) ∨
    (∃ stored ∈ s.pending,
      s.waiting stored.sequenceNo = some stored ∧
      action = .insert stored.sequenceNo ∧
      s' =
        { store := s.store.insert stored
          pending := s.pending.filter
            (·.sequenceNo ≠ stored.sequenceNo)
          returned := s.returned ++ [stored] }) := by
  cases action with
  | takeNumber record =>
      cases hStep
      exact .inl ⟨record, rfl, rfl⟩
  | insert sequenceNo =>
      unfold step at hStep
      rw [Option.map_eq_some_iff] at hStep
      rcases hStep with ⟨stored, hFound, hNext⟩
      have hMem := List.mem_of_find?_eq_some hFound
      have hNumber : stored.sequenceNo = sequenceNo := by
        simpa using List.find?_some hFound
      subst hNumber
      exact .inr ⟨stored, hMem, hFound, rfl, hNext.symm⟩

end Steps

------------------------------------------------------------
-- Numbers
------------------------------------------------------------

/- Pending numbers increase; no number is ahead of the store. -/
structure Numbered (s : LedgerState) : Prop where
  pending : s.pending.Pairwise fun early late =>
    early.sequenceNo < late.sequenceNo
  issued : ∀ stored ∈ s.pending,
    stored.sequenceNo ≤ s.store.nextSequenceNo
  recorded : ∀ sessionId,
    ∀ stored ∈ s.store.recordsOf sessionId,
      stored.sequenceNo ≤ s.store.nextSequenceNo

section Numbers

variable {s s' : LedgerState}
variable {steps : List (LedgerState × LedgerAction)}
variable {action : LedgerAction}

theorem numbered_start : Numbered {} where
  pending := .nil
  issued := by simp
  recorded := by
    intro sessionId stored hMem
    cases hMem

theorem Numbered.step
    (hNumbered : Numbered s)
    (hStep : s.step action = some s') :
    Numbered s' := by
  rcases LedgerState.step_cases hStep with hTake | hInsert
  · rcases hTake with ⟨record, _, hNext⟩
    subst hNext
    constructor
    · rw [List.pairwise_append]
      refine ⟨hNumbered.pending,
        List.pairwise_singleton _ _, ?_⟩
      intro early hEarly late hLate
      rw [List.mem_singleton] at hLate
      subst hLate
      have hIssued := hNumbered.issued early hEarly
      change early.sequenceNo < s.store.nextSequenceNo + 1
      omega
    · intro stored hMem
      change stored.sequenceNo ≤ s.store.nextSequenceNo + 1
      rcases List.mem_append.mp hMem with hOld | hNew
      · have hIssued := hNumbered.issued stored hOld
        omega
      · rw [List.mem_singleton] at hNew
        subst hNew
        exact Int.le_refl _
    · intro sessionId stored hMem
      change stored.sequenceNo ≤ s.store.nextSequenceNo + 1
      have hRecorded :=
        hNumbered.recorded sessionId stored hMem
      omega
  · rcases hInsert with ⟨inserted, hInserted, _, _, hNext⟩
    subst hNext
    constructor
    · exact hNumbered.pending.filter _
    · intro stored hMem
      exact hNumbered.issued stored
        (List.mem_of_mem_filter hMem)
    · intro sessionId stored hMem
      rw [InMemoryMemoryStore.recordsOf_insert] at hMem
      split at hMem
      · rcases List.mem_append.mp hMem with hOld | hNew
        · exact hNumbered.recorded sessionId stored hOld
        · rw [List.mem_singleton] at hNew
          subst hNew
          exact hNumbered.issued stored hInserted
      · exact hNumbered.recorded sessionId stored hMem

/- A number belongs to one pending append. -/
theorem Numbered.eq_of_waiting
    {stored inserted : StoredSessionRecord}
    (hNumbered : Numbered s)
    (hMem : stored ∈ s.pending)
    (hInserted : inserted ∈ s.pending)
    (hSame : stored.sequenceNo = inserted.sequenceNo) :
    stored = inserted := by
  have hNodup :
      (s.pending.map (·.sequenceNo)).Nodup := by
    rw [List.Nodup, List.pairwise_map]
    refine hNumbered.pending.imp ?_
    intro early late hLess hEq
    omega
  exact List.inj_on_of_nodup_map hNodup hMem hInserted hSame

end Numbers

------------------------------------------------------------
-- Appends In Turn
------------------------------------------------------------

/-
  What holds while every record is inserted in turn: pending
  numbers exceed those of their session.
-/
structure Queued (s : LedgerState) : Prop where
  increasing : ∀ sessionId,
    ((s.store.recordsOf sessionId).map
      (·.sequenceNo)).Pairwise (· < ·)
  later : ∀ stored ∈ s.pending,
    ∀ earlier ∈ s.store.recordsOf stored.sessionId,
      earlier.sequenceNo < stored.sequenceNo
  returned : ∀ sessionId,
    s.returnedTo sessionId = s.store.recordsOf sessionId

section Turns

variable {s s' : LedgerState}
variable {steps : List (LedgerState × LedgerAction)}
variable {action : LedgerAction}

theorem queued_start : Queued {} where
  increasing := fun _ => .nil
  later := by simp
  returned := fun _ => rfl

/- Inserting in turn keeps the queue. -/
theorem Queued.insert
    {stored : StoredSessionRecord}
    (hQueued : Queued s)
    (hMem : stored ∈ s.pending)
    (hWaiting : s.waiting stored.sequenceNo = some stored)
    (hTurn : InTurn s (.insert stored.sequenceNo)) :
    Queued
      { store := s.store.insert stored
        pending := s.pending.filter
          (·.sequenceNo ≠ stored.sequenceNo)
        returned := s.returned ++ [stored] } := by
  have hRecords :=
    InMemoryMemoryStore.recordsOf_insert s.store stored
  constructor
  · intro sessionId
    rw [hRecords]
    split
    · rename_i hSession
      subst hSession
      rw [List.map_append, List.pairwise_append]
      refine ⟨hQueued.increasing _,
        List.pairwise_singleton _ _, ?_⟩
      intro early hEarly late hLate
      rw [List.map_singleton, List.mem_singleton] at hLate
      rcases List.mem_map.mp hEarly with
        ⟨earlier, hEarlier, hSame⟩
      subst hLate
      subst hSame
      exact hQueued.later stored hMem earlier hEarlier
    · exact hQueued.increasing sessionId
  · intro other hOther earlier hEarlier
    have hPending := List.mem_of_mem_filter hOther
    rw [hRecords] at hEarlier
    split at hEarlier
    · rename_i hSession
      rcases List.mem_append.mp hEarlier with hOld | hNew
      · exact hQueued.later other hPending earlier hOld
      · rw [List.mem_singleton] at hNew
        subst hNew
        have hNext :=
          hTurn earlier hWaiting other hPending hSession.symm
        have hDistinct :
            other.sequenceNo ≠ earlier.sequenceNo := by
          simpa using (List.mem_filter.mp hOther).2
        omega
    · exact hQueued.later other hPending earlier hEarlier
  · intro sessionId
    rw [hRecords, ← hQueued.returned sessionId]
    unfold LedgerState.returnedTo
    rw [List.filter_append]
    by_cases hSession : stored.sessionId = sessionId
    · simp [hSession]
    · simp [hSession]

theorem Queued.step
    (hQueued : Queued s)
    (hNumbered : Numbered s)
    (hTurn : InTurn s action)
    (hStep : s.step action = some s') :
    Queued s' := by
  rcases LedgerState.step_cases hStep with hTake | hInsert
  · rcases hTake with ⟨record, _, hNext⟩
    subst hNext
    refine ⟨hQueued.increasing, ?_, hQueued.returned⟩
    intro stored hMem earlier hEarlier
    rcases List.mem_append.mp hMem with hOld | hNew
    · exact hQueued.later stored hOld earlier hEarlier
    · rw [List.mem_singleton] at hNew
      subst hNew
      have hRecorded := hNumbered.recorded _ earlier hEarlier
      change earlier.sequenceNo < s.store.nextSequenceNo + 1
      omega
  · rcases hInsert with
      ⟨stored, hMem, hWaiting, hAction, hNext⟩
    subst hAction
    subst hNext
    exact hQueued.insert hMem hWaiting hTurn

/- The largest of increasing numbers is the last. -/
theorem max?_of_increasing
    {numbers : List Int}
    (hIncreasing : numbers.Pairwise (· < ·)) :
    numbers.max? = numbers.getLast? := by
  rcases List.eq_nil_or_concat numbers with hNil | hSnoc
  · subst hNil
    rfl
  · rcases hSnoc with ⟨early, last, hSnoc⟩
    subst hSnoc
    rw [List.concat_eq_append, List.getLast?_concat,
      List.max?_eq_some_iff]
    rw [List.concat_eq_append,
      List.pairwise_append] at hIncreasing
    refine ⟨by simp, ?_⟩
    intro number hMem
    rcases List.mem_append.mp hMem with hEarly | hLast
    · have hBelow := hIncreasing.2.2 number hEarly last
        (List.mem_singleton_self _)
      omega
    · rw [List.mem_singleton] at hLast
      omega

theorem Queued.orderly (hQueued : Queued s) : Orderly s where
  increasing := hQueued.increasing
  largest := by
    intro sessionId
    rw [hQueued.returned sessionId,
      max?_of_increasing (hQueued.increasing sessionId),
      List.getLast?_map]
    rfl

end Turns

------------------------------------------------------------
-- Appends Out Of Turn
------------------------------------------------------------

section Overtakes

variable {s s' : LedgerState}
variable {steps : List (LedgerState × LedgerAction)}
variable {action : LedgerAction}

/-
  An append has been overtaken: a session holds a number that
  is larger than one still to be inserted or inserted later.
-/
def Overtaken (s : LedgerState) : Prop :=
  (∃ stored ∈ s.pending,
    ∃ earlier ∈ s.store.recordsOf stored.sessionId,
      stored.sequenceNo < earlier.sequenceNo) ∨
  ∃ sessionId,
    ¬((s.store.recordsOf sessionId).map
      (·.sequenceNo)).Pairwise (· < ·)

/- An insert out of turn overtakes another append. -/
theorem overtaken_of_not_inTurn
    (hStep : s.step action = some s')
    (hTurn : ¬InTurn s action) :
    Overtaken s' := by
  rcases LedgerState.step_cases hStep with hTake | hInsert
  · rcases hTake with ⟨record, hAction, _⟩
    subst hAction
    exact absurd trivial hTurn
  · rcases hInsert with ⟨stored, _, hWaiting, hAction, hNext⟩
    subst hAction
    subst hNext
    unfold InTurn at hTurn
    push Not at hTurn
    rcases hTurn with
      ⟨inserted, hInserted, other, hOther, hSession, hLess⟩
    rw [hWaiting] at hInserted
    cases hInserted
    refine .inl ⟨other, ?_, stored, ?_, hLess⟩
    · rw [List.mem_filter]
      refine ⟨hOther, ?_⟩
      have hDistinct := Int.ne_of_lt hLess
      simpa using hDistinct
    · rw [InMemoryMemoryStore.recordsOf_insert,
        if_pos hSession.symm]
      exact List.mem_append_right _
        (List.mem_singleton_self _)

/- A session only grows at its end. -/
theorem LedgerState.recordsOf_prefix
    (hStep : s.step action = some s')
    (sessionId : String) :
    s.store.recordsOf sessionId <+:
      s'.store.recordsOf sessionId := by
  rcases LedgerState.step_cases hStep with hTake | hInsert
  · rcases hTake with ⟨record, _, hNext⟩
    subst hNext
    exact List.prefix_refl _
  · rcases hInsert with ⟨stored, _, _, _, hNext⟩
    subst hNext
    rw [InMemoryMemoryStore.recordsOf_insert]
    split
    · exact List.prefix_append _ _
    · exact List.prefix_refl _

/- What has been overtaken never comes into order again. -/
theorem Overtaken.step
    (hOvertaken : Overtaken s)
    (hNumbered : Numbered s)
    (hStep : s.step action = some s') :
    Overtaken s' := by
  rcases hOvertaken with hPending | hUnordered
  · rcases hPending with
      ⟨stored, hMem, earlier, hEarlier, hLess⟩
    have hKept :=
      (LedgerState.recordsOf_prefix hStep _).subset hEarlier
    rcases LedgerState.step_cases hStep with hTake | hInsert
    · rcases hTake with ⟨record, _, hNext⟩
      subst hNext
      exact .inl ⟨stored, List.mem_append_left _ hMem,
        earlier, hKept, hLess⟩
    · rcases hInsert with ⟨inserted, hInserted, _, _, hNext⟩
      subst hNext
      by_cases hSame :
          stored.sequenceNo = inserted.sequenceNo
      · have hStored :=
          hNumbered.eq_of_waiting hMem hInserted hSame
        subst hStored
        refine .inr ⟨stored.sessionId, ?_⟩
        rw [InMemoryMemoryStore.recordsOf_insert, if_pos rfl,
          List.map_append, List.pairwise_append]
        intro hOrdered
        have hAbove := hOrdered.2.2 earlier.sequenceNo
          (List.mem_map_of_mem hEarlier) stored.sequenceNo
          (by simp)
        omega
      · refine .inl ⟨stored, ?_, earlier, hKept, hLess⟩
        rw [List.mem_filter]
        refine ⟨hMem, ?_⟩
        simpa using hSame
  · rcases hUnordered with ⟨sessionId, hUnordered⟩
    refine .inr ⟨sessionId, ?_⟩
    intro hOrdered
    apply hUnordered
    exact hOrdered.sublist
      ((LedgerState.recordsOf_prefix hStep
        sessionId).sublist.map _)

end Overtakes

------------------------------------------------------------
-- Runs
------------------------------------------------------------

section Runs

variable {s : LedgerState}
variable {steps : List (LedgerState × LedgerAction)}

/- The records of a run are numbered as they are taken. -/
theorem numbered_of_reaches
    (hReach : Reaches LedgerState.step {} steps s) :
    Numbered s :=
  hReach.always numbered_start
    fun _ _ _ hNumbered hStep => hNumbered.step hStep

/- Appends that insert in turn keep the queue. -/
theorem queued_of_reaches
    (hReach : Reaches LedgerState.step {} steps s)
    (hTurns : ∀ step ∈ steps, InTurn step.1 step.2) :
    Queued s ∧ ∀ step ∈ steps, Queued step.1 := by
  have hBoth := hReach.invariant
    (I := fun s => Numbered s ∧ Queued s)
    (C := InTurn) ⟨numbered_start, queued_start⟩
    (fun _ _ _ hHere hTurn hStep =>
      ⟨hHere.1.step hStep,
        hHere.2.step hHere.1 hTurn hStep⟩)
    hTurns
  exact ⟨hBoth.1.2, fun step hMem => (hBoth.2 step hMem).2⟩

theorem overtaken_of_reaches
    (hReach : Reaches LedgerState.step {} steps s)
    (hTurns : ¬∀ step ∈ steps, InTurn step.1 step.2) :
    Overtaken s := by
  induction hReach with
  | start => exact absurd (by simp) hTurns
  | @step steps s s' action hReach hStep ih =>
      by_cases hEarlier :
          ∀ step ∈ steps, InTurn step.1 step.2
      · apply overtaken_of_not_inTurn hStep
        intro hTurn
        apply hTurns
        intro step hMem
        rcases List.mem_append.mp hMem with hOld | hNew
        · exact hEarlier step hOld
        · rw [List.mem_singleton] at hNew
          subst hNew
          exact hTurn
      · exact (ih hEarlier).step (numbered_of_reaches hReach)
          hStep

/-
  Every state is in order as long as all appends insert in
  turn, and a run that has finished its appends is in order
  only then.
-/
theorem orderly_iff_inTurn
    (hReach : Reaches LedgerState.step {} steps s) :
    ((∀ step ∈ steps, InTurn step.1 step.2) →
      (∀ step ∈ steps, Orderly step.1) ∧ Orderly s) ∧
    (s.pending = [] →
      (Orderly s ↔ ∀ step ∈ steps, InTurn step.1 step.2)) := by
  have hForward :
      (∀ step ∈ steps, InTurn step.1 step.2) →
        (∀ step ∈ steps, Orderly step.1) ∧ Orderly s := by
    intro hTurns
    rcases queued_of_reaches hReach hTurns with
      ⟨hLast, hEarlier⟩
    exact ⟨fun step hMem => (hEarlier step hMem).orderly,
      hLast.orderly⟩
  refine ⟨hForward, ?_⟩
  intro hFinished
  refine ⟨?_, fun hTurns => (hForward hTurns).2⟩
  intro hOrderly
  by_contra hTurns
  rcases overtaken_of_reaches hReach hTurns with hPending | hUnordered
  · rcases hPending with ⟨stored, hMem, _⟩
    rw [hFinished] at hMem
    cases hMem
  · rcases hUnordered with ⟨sessionId, hUnordered⟩
    exact hUnordered (hOrderly.increasing sessionId)

end Runs

------------------------------------------------------------
-- Two Appends
------------------------------------------------------------

namespace Sample

def claim (triggerKey : String) : NewSessionRecord :=
  .fromRecord "session" 0
    (.coordinationClaim ⟨"claim", triggerKey⟩)

/- Two appends that insert in the order of their numbers. -/
def inTurn : List LedgerAction :=
  [.takeNumber (claim "a"), .takeNumber (claim "b"),
    .insert 1, .insert 2]

/- The second append overtakes the first. -/
def outOfTurn : List LedgerAction :=
  [.takeNumber (claim "a"), .takeNumber (claim "b"),
    .insert 2, .insert 1]

end Sample

theorem orderly_inTurn :
    (∀ step ∈ (follow LedgerState.step [] {}
        Sample.inTurn).1,
      Orderly step.1) ∧
    Orderly (follow LedgerState.step [] {}
      Sample.inTurn).2 :=
  (orderly_iff_inTurn
    (follow_reaches Sample.inTurn .start)).1
      (by decide)

/- An overtaken append leaves its session out of order. -/
theorem overtaken_session_unordered :
    ¬∀ steps s, Reaches LedgerState.step {} steps s →
      Orderly s := by
  intro hAll
  have hOrderly := hAll _ _
    (follow_reaches Sample.outOfTurn .start)
  have hNumbers := hOrderly.increasing "session"
  revert hNumbers
  decide

end RainEngine.Stores
