import RainEngine.Logs.Latecomers
import RainEngine.Stores.Paging
import RainEngine.Transitions.Reaches

/-
  This file defines the ledger store that keeps its records in
  a Postgres table. An insert takes its number from a sequence
  when it begins, and its row is visible when it is committed;
  inserts over several connections are committed in any order,
  and one that is aborted leaves a gap in the numbers. The
  statements that read the rows are those of the SQLite store,
  except that a negative limit or offset is refused.

  Key definitions include:
    * `PgMemoryStore`
    * `PgMemoryStore.loadSession`
    * `PgMemoryStore.listRecords`
    * `PgState.step`
    * `PgState.Sound`

  Key theorems include:
    * `PgState.step_cases`
    * `PgState.Sound.step`
    * `PgState.rows_grow`
-/

namespace RainEngine.Stores

------------------------------------------------------------
-- The Store
------------------------------------------------------------

/-
  The committed rows in the order of their commits, and the
  last number that the sequence has handed out.
-/
structure PgMemoryStore (Text : Type) where
  sessionRecords : List (SessionRow Text) := []
  sequence : Int := 0

namespace PgMemoryStore

variable {Text : Type}

/- The table as the statements read it. -/
def table
    (store : PgMemoryStore Text) :
    SqliteMemoryStore Text where
  sessionRecords := store.sessionRecords
  sequence := store.sequence

def loadSession
    (format : PayloadFormat Text)
    (store : PgMemoryStore Text)
    (sessionId : String) :
    Except MemoryError SessionSnapshot :=
  store.table.loadSession format sessionId

/- What the server answers to a negative limit or offset. -/
def listRecords
    (format : PayloadFormat Text)
    (refusal : MemoryError)
    (store : PgMemoryStore Text)
    (query : RecordPageQuery) :
    Except MemoryError RecordPage :=
  if asI64 query.limit < 0 ∨ asI64 query.offset < 0 then
    .error refusal
  else store.table.listRecords format query

end PgMemoryStore

------------------------------------------------------------
-- Inserts
------------------------------------------------------------

/- A row that is inserted, and the record that is answered. -/
structure PgInsert (Text : Type) where
  row : SessionRow Text
  stored : StoredSessionRecord

/- The insert of a record under a number. -/
def PgInsert.of
    {Text : Type}
    (record : NewSessionRecord)
    (sequenceNo : Int)
    (payloadJson : Text) :
    PgInsert Text where
  row :=
    { sequenceNo := sequenceNo
      sessionId := record.sessionId
      occurredAtMs := record.occurredAtMs
      recordKind := record.recordKind.asStr
      triggerId := record.triggerId
      idempotencyKey := record.idempotencyKey
      payloadJson := payloadJson }
  stored := record.stored sequenceNo

/-
  The store, the inserts that have begun, and the records that
  have been committed.
-/
structure PgState (Text : Type) where
  store : PgMemoryStore Text := {}
  inserting : List (PgInsert Text) := []
  accepted : List StoredSessionRecord := []

inductive PgAction where
  | start (record : NewSessionRecord)
  | commit (sequenceNo : Int)
  | abort (sequenceNo : Int)

section Inserting

variable {Text : Type}

/- The insert that waits for its commit under a number. -/
def PgState.waiting
    (s : PgState Text)
    (sequenceNo : Int) :
    Option (PgInsert Text) :=
  s.inserting.find? (·.row.sequenceNo = sequenceNo)

/- The inserts but that under the number. -/
def PgState.others
    (s : PgState Text)
    (sequenceNo : Int) :
    List (PgInsert Text) :=
  s.inserting.filter (·.row.sequenceNo ≠ sequenceNo)

/-
  A record that cannot be written is not inserted, and neither
  is one for which the sequence has no number left.
-/
def PgState.step
    (format : PayloadFormat Text)
    (s : PgState Text) :
    PgAction → Option (PgState Text)
| .start record =>
    match format.toText record.record with
    | .error _ => some s
    | .ok payloadJson =>
        let sequenceNo := s.store.sequence + 1
        if sequenceNo < 2 ^ 63 then
          some
            { s with
              store := { s.store with sequence := sequenceNo }
              inserting := s.inserting ++
                [.of record sequenceNo payloadJson] }
        else some s
| .commit sequenceNo =>
    (s.waiting sequenceNo).map fun insert =>
      { store :=
          { s.store with
            sessionRecords :=
              s.store.sessionRecords ++ [insert.row] }
        inserting := s.others sequenceNo
        accepted := s.accepted ++ [insert.stored] }
| .abort sequenceNo =>
    (s.waiting sequenceNo).map fun _ =>
      { s with inserting := s.others sequenceNo }

end Inserting

------------------------------------------------------------
-- What A Step Does
------------------------------------------------------------

namespace PgState

variable {Text : Type}
variable {format : PayloadFormat Text}
variable {s s' : PgState Text}
variable {action : PgAction}

/- An insert begins under the next number. -/
structure Starts
    (format : PayloadFormat Text)
    (s s' : PgState Text)
    (insert : PgInsert Text) : Prop where
  written :
    SqliteMemoryStore.Written format insert.row insert.stored
  number : insert.row.sequenceNo = s.store.sequence + 1
  fits : s.store.sequence + 1 < 2 ^ 63
  next :
    s' =
      { s with
        store :=
          { s.store with sequence := s.store.sequence + 1 }
        inserting := s.inserting ++ [insert] }

/- An insert is committed. -/
structure Commits
    (s s' : PgState Text)
    (insert : PgInsert Text) : Prop where
  waiting :
    s.waiting insert.row.sequenceNo = some insert
  next :
    s' =
      { store :=
          { s.store with
            sessionRecords :=
              s.store.sessionRecords ++ [insert.row] }
        inserting := s.others insert.row.sequenceNo
        accepted := s.accepted ++ [insert.stored] }

theorem waiting_some
    {sequenceNo : Int}
    {insert : PgInsert Text}
    (hWaiting : s.waiting sequenceNo = some insert) :
    insert ∈ s.inserting ∧
      insert.row.sequenceNo = sequenceNo := by
  unfold waiting at hWaiting
  refine ⟨List.mem_of_find?_eq_some hWaiting, ?_⟩
  simpa using List.find?_some hWaiting

theorem Commits.begun
    {insert : PgInsert Text}
    (hCommits : Commits s s' insert) :
    insert ∈ s.inserting :=
  (waiting_some hCommits.waiting).1

/-
  A step changes nothing, begins an insert, commits one, or
  gives one up.
-/
theorem step_cases
    (hStep : s.step format action = some s') :
    s' = s ∨ (∃ insert, Starts format s s' insert) ∨
      (∃ insert, action = .commit insert.row.sequenceNo ∧
        Commits s s' insert) ∨
      ∃ sequenceNo,
        s' = { s with inserting := s.others sequenceNo } := by
  cases action with
  | start record =>
      unfold step at hStep
      dsimp only at hStep
      cases hText : format.toText record.record with
      | error error =>
          rw [hText] at hStep
          cases hStep
          exact .inl rfl
      | ok payloadJson =>
          rw [hText] at hStep
          dsimp only at hStep
          split at hStep
          · rename_i hFits
            cases hStep
            exact .inr (.inl ⟨_,
              { written := ⟨rfl, rfl, hText⟩
                number := rfl
                fits := hFits
                next := rfl }⟩)
          · cases hStep
            exact .inl rfl
  | commit sequenceNo =>
      unfold step at hStep
      rw [Option.map_eq_some_iff] at hStep
      rcases hStep with ⟨insert, hWaiting, rfl⟩
      rcases waiting_some hWaiting with ⟨_, rfl⟩
      exact .inr (.inr (.inl ⟨insert, rfl, hWaiting, rfl⟩))
  | abort sequenceNo =>
      unfold step at hStep
      rw [Option.map_eq_some_iff] at hStep
      rcases hStep with ⟨insert, hWaiting, rfl⟩
      exact .inr (.inr (.inr ⟨sequenceNo, rfl⟩))

/- The numbers of the rows, and of those that may follow. -/
def numbers (s : PgState Text) : List Int :=
  s.store.sessionRecords.map (·.sequenceNo) ++
    s.inserting.map (·.row.sequenceNo)

/-
  No number is used twice, and every row has been written for
  the record that has been committed with it.
-/
structure Sound
    (format : PayloadFormat Text)
    (s : PgState Text) : Prop where
  distinct : s.numbers.Nodup
  issued : ∀ number ∈ s.numbers,
    0 < number ∧ number ≤ s.store.sequence
  fits : 0 ≤ s.store.sequence ∧ s.store.sequence < 2 ^ 63
  written :
    List.Forall₂ (SqliteMemoryStore.Written format)
      s.store.sessionRecords s.accepted
  prepared : ∀ insert ∈ s.inserting,
    SqliteMemoryStore.Written format insert.row
      insert.stored

theorem sound_start : Sound format {} where
  distinct := .nil
  issued := by simp [numbers]
  fits := ⟨Int.le_refl 0, by norm_num⟩
  written := .nil
  prepared := by simp

/- The inserts without one are some of the inserts. -/
theorem others_sublist (sequenceNo : Int) :
    (s.others sequenceNo).Sublist s.inserting :=
  List.filter_sublist

theorem Sound.starts
    {insert : PgInsert Text}
    (hSound : Sound format s)
    (hStarts : Starts format s s' insert) :
    Sound format s' := by
  have hNext := hStarts.next
  subst hNext
  have hNumbers :
      numbers
          { s with
            store :=
              { s.store with
                sequence := s.store.sequence + 1 }
            inserting := s.inserting ++ [insert] } =
        s.numbers ++ [s.store.sequence + 1] := by
    unfold numbers
    rw [List.map_append, List.map_singleton, hStarts.number,
      ← List.append_assoc]
  have hFits := hSound.fits
  refine
    { distinct := ?_
      issued := ?_
      fits := ⟨by dsimp only; omega, hStarts.fits⟩
      written := hSound.written
      prepared := ?_ }
  · rw [hNumbers, List.nodup_append]
    refine ⟨hSound.distinct, List.nodup_singleton _, ?_⟩
    intro number hNumber next hNext
    have hIssued := hSound.issued number hNumber
    rw [List.mem_singleton.mp hNext]
    omega
  · intro number hMem
    rw [hNumbers] at hMem
    dsimp only
    rcases List.mem_append.mp hMem with hOld | hNew
    · have hIssued := hSound.issued number hOld
      omega
    · rw [List.mem_singleton.mp hNew]
      omega
  · intro other hMem
    rcases List.mem_append.mp hMem with hOld | hNew
    · exact hSound.prepared other hOld
    · rw [List.mem_singleton.mp hNew]
      exact hStarts.written

/- The number of a committed insert moves to the rows. -/
theorem numbers_commit
    {insert : PgInsert Text}
    (hSound : Sound format s)
    (hCommits : Commits s s' insert) :
    s'.numbers.Subperm s.numbers := by
  have hNext := hCommits.next
  subst hNext
  have hDistinct :
      ((insert.row.sequenceNo ::
        (s.others insert.row.sequenceNo).map
          (·.row.sequenceNo))).Subperm
        (s.inserting.map (·.row.sequenceNo)) := by
    apply List.Nodup.subperm
    · refine List.nodup_cons.mpr ⟨?_, ?_⟩
      · intro hMem
        rcases List.mem_map.mp hMem with
          ⟨other, hOther, hSame⟩
        have hApart := (List.mem_filter.mp hOther).2
        simp [hSame] at hApart
      · exact ((others_sublist _).map _).nodup
          (List.nodup_append.mp hSound.distinct).2.1
    · intro number hMem
      rcases List.mem_cons.mp hMem with rfl | hMem
      · exact List.mem_map_of_mem hCommits.begun
      · exact ((others_sublist _).map _).subset hMem
  unfold numbers
  rw [List.map_append, List.map_singleton, List.append_assoc,
    List.singleton_append]
  exact (List.subperm_append_left _).mpr hDistinct

theorem Sound.commits
    {insert : PgInsert Text}
    (hSound : Sound format s)
    (hCommits : Commits s s' insert) :
    Sound format s' := by
  have hNumbers := numbers_commit hSound hCommits
  have hNext := hCommits.next
  subst hNext
  refine
    { distinct := ?_
      issued := fun number hMem =>
        hSound.issued number (hNumbers.subset hMem)
      fits := hSound.fits
      written := List.rel_append hSound.written
        (.cons (hSound.prepared insert hCommits.begun) .nil)
      prepared := fun other hMem =>
        hSound.prepared other
          ((others_sublist _).subset hMem) }
  rcases hNumbers with ⟨some, hSome, hSublist⟩
  exact hSome.nodup_iff.mp (hSublist.nodup hSound.distinct)

/- What every step keeps. -/
theorem Sound.step
    (hSound : Sound format s)
    (hStep : s.step format action = some s') :
    Sound format s' := by
  rcases step_cases hStep with
    rfl | ⟨insert, hStarts⟩ | ⟨insert, _, hCommits⟩ |
      ⟨sequenceNo, rfl⟩
  · exact hSound
  · exact hSound.starts hStarts
  · exact hSound.commits hCommits
  · have hNumbers :
        (numbers
          { s with
            inserting := s.others sequenceNo }).Sublist
          s.numbers :=
      List.Sublist.append (List.Sublist.refl _)
        ((others_sublist sequenceNo).map _)
    exact
      { hSound with
        distinct := hNumbers.nodup hSound.distinct
        issued := fun number hMem =>
          hSound.issued number (hNumbers.subset hMem)
        prepared := fun other hMem =>
          hSound.prepared other
            ((others_sublist _).subset hMem) }

/- The insert that waits under the number is committed. -/
theorem commits_of_waiting
    {insert : PgInsert Text}
    (hWaiting :
      s.waiting insert.row.sequenceNo = some insert)
    (hStep :
      s.step format (.commit insert.row.sequenceNo) =
        some s') :
    Commits s s' insert := by
  refine ⟨hWaiting, ?_⟩
  unfold step at hStep
  dsimp only at hStep
  rw [hWaiting] at hStep
  cases hStep
  rfl

/- Committed rows stay, and one more comes with a commit. -/
theorem rows_grow
    (hStep : s.step format action = some s') :
    s'.store.sessionRecords = s.store.sessionRecords ∨
      ∃ insert, action = .commit insert.row.sequenceNo ∧
        Commits s s' insert := by
  rcases step_cases hStep with
    rfl | ⟨insert, hStarts⟩ | hCommits | ⟨sequenceNo, rfl⟩
  · exact .inl rfl
  · rw [hStarts.next]
    exact .inl rfl
  · exact .inr hCommits
  · exact .inl rfl

theorem rows_prefix
    (hStep : s.step format action = some s') :
    s.store.sessionRecords <+: s'.store.sessionRecords := by
  rcases rows_grow hStep with hSame | ⟨insert, _, hCommits⟩
  · rw [hSame]
  · rw [hCommits.next]
    exact List.prefix_append _ _

/- The numbers of the rows are those of different rows. -/
theorem Sound.keys
    (hSound : Sound format s) :
    (s.store.sessionRecords.map (·.sequenceNo)).Nodup :=
  (List.nodup_append.mp hSound.distinct).1

end PgState

end RainEngine.Stores
