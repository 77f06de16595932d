import RainEngine.Runtime.Streaming
import RainEngine.Stores.Postgres

/-
  This file is about the event stream of a session over a
  Postgres table. Its inserts are committed in any order, so a
  record may come under a smaller number than one that the
  stream has seen. The stream then notices nothing, and what
  is late is sent only with a record that is newer than all
  that was seen.

  Key definitions include:
    * `PgStreamState.step`
    * `PgStreamState.unsent`
    * `Noticed`
    * `PgStreaming`

  Key theorems include:
    * `PgStreaming.step`
    * `PgStreaming.caughtUp_iff`
    * `postgres_stream_catches_up_iff`
-/

namespace RainEngine.Runtime

open Logs (Watcher newestKey)
open Stores
open Tables (orderBy)
open Transitions (Reaches follow follow_reaches)

------------------------------------------------------------
-- Streams Over Postgres
------------------------------------------------------------

/- The inserts into a Postgres table, and one stream. -/
structure PgStreamState (Text : Type) where
  ledger : PgState Text := {}
  stream : SessionStream := {}

inductive PgStreamAction where
  | store (action : PgAction)
  | look

/- A step of an insert, or a round of the stream. -/
def PgStreamState.step
    {Text : Type}
    (format : PayloadFormat Text)
    (sessionId : String)
    (s : PgStreamState Text) :
    PgStreamAction → Option (PgStreamState Text)
| .store action =>
    (s.ledger.step format action).map fun ledger =>
      { s with ledger := ledger }
| .look =>
    some
      { s with
        stream := s.stream.round
          (s.ledger.store.loadSession format sessionId) }

/- The records in the order of their numbers. -/
def recordsByNumber
    (accepted : List StoredSessionRecord) :
    List SessionRecord :=
  (orderBy (·.sequenceNo) accepted).map (·.record)

namespace PgStreamState

variable {Text : Type}

/- The session's records in the order of their commits. -/
def committed
    (s : PgStreamState Text)
    (sessionId : String) :
    List StoredSessionRecord :=
  SqliteMemoryStore.acceptedFor s.ledger.accepted sessionId

/- The records of the session that is streamed. -/
def records
    (s : PgStreamState Text)
    (sessionId : String) :
    List SessionRecord :=
  recordsByNumber (s.committed sessionId)

/- What has been committed since the stream has sent. -/
def unsent
    (s : PgStreamState Text)
    (sessionId : String) :
    List StoredSessionRecord :=
  (s.committed sessionId).drop s.stream.shownRecords.length

/- The rows of the session in the order of their commits. -/
def rows
    (s : PgStreamState Text)
    (sessionId : String) :
    List (SessionRow Text) :=
  s.ledger.store.sessionRecords.filter
    (·.sessionId = sessionId)

/- The rows as a statement selects them. -/
def orderedRows
    (s : PgStreamState Text)
    (sessionId : String) :
    List (SessionRow Text) :=
  orderBy (·.sequenceNo) (s.rows sessionId)

end PgStreamState

/-
  Nothing has come since a number was seen, or something with
  a greater one.
-/
def Noticed
    (seen : Option Int)
    (numbers : List Int) :
    Prop :=
  numbers = [] ∨
    ∃ number ∈ numbers, ∀ newest ∈ seen, newest < number

instance
    (seen : Option Int)
    (numbers : List Int) :
    Decidable (Noticed seen numbers) :=
  inferInstanceAs (Decidable (numbers = [] ∨
    ∃ number ∈ numbers, ∀ newest ∈ seen, newest < number))

section Postgres

variable {Text : Type}
variable {format : PayloadFormat Text}
variable {sessionId : String}
variable {s s' : PgStreamState Text}
variable {action : PgStreamAction}
variable {stream : SessionStream}
variable {w : Watcher (SessionRow Text) Int}
variable {rows : List (SessionRow Text)}
variable {records : List StoredSessionRecord}

/-
  What a stream keeps over Postgres: it has sent the rows that
  were committed first, in the order of their numbers.
-/
structure PgStreaming
    (format : PayloadFormat Text)
    (sessionId : String)
    (s : PgStreamState Text) : Prop where
  sound : s.ledger.Sound format
  tracks :
    ∃ w : Watcher (SessionRow Text) Int,
      Mirrors (ReadFrom format) s.stream w ∧
        w.Oversees (·.sequenceNo) (s.rows sessionId)
          s.stream.shownRecords.length

theorem pgStreaming_start :
    PgStreaming format sessionId {} where
  sound := PgState.sound_start
  tracks := ⟨{}, ⟨rfl, .nil⟩, Logs.oversees_nothing⟩

/- What was sent last was read from what was shown last. -/
theorem Mirrors.shown
    (hMirrors : Mirrors (ReadFrom format) stream w) :
    SqliteMemoryStore.readRecords format
        (w.shown.getLast?.getD []) =
      .ok stream.shownRecords :=
  read_shown (getLast?_related hMirrors.2)

theorem Mirrors.shown_length
    {count : Nat}
    (hMirrors : Mirrors (ReadFrom format) stream w)
    (hOversees : w.Oversees (·.sequenceNo) rows count) :
    stream.shownRecords.length = count :=
  (readRecords_length hMirrors.shown).trans
    hOversees.shown_length

/- What is loaded is read from the rows in their order. -/
theorem PgStreamState.loadSession_eq
    (format : PayloadFormat Text)
    (s : PgStreamState Text)
    (sessionId : String) :
    s.ledger.store.loadSession format sessionId =
      (SqliteMemoryStore.readRecords format
        (s.orderedRows sessionId)).map
        (snapshotOfRows sessionId
          (s.orderedRows sessionId)) := by
  change (SqliteMemoryStore.readRecords format
    (s.orderedRows sessionId) >>= _) = _
  cases SqliteMemoryStore.readRecords format
      (s.orderedRows sessionId) with
  | error error => rfl
  | ok records => rfl

/- A round over a readable session is a look at its rows. -/
theorem Mirrors.look
    {read : List SessionRecord}
    (hMirrors : Mirrors (ReadFrom format) s.stream w)
    (hRead :
      SqliteMemoryStore.readRecords format
          (s.orderedRows sessionId) =
        .ok read) :
    Mirrors (ReadFrom format)
      (s.stream.round
        (s.ledger.store.loadSession format sessionId))
      (w.look (·.sequenceNo) (s.orderedRows sessionId)) := by
  rw [s.loadSession_eq, hRead]
  exact hMirrors.round rfl ⟨hRead, rfl⟩

/- Rows have the numbers of the records they hold. -/
theorem written_numbers
    (hRows :
      List.Forall₂ (SqliteMemoryStore.Written format) rows
        records) :
    rows.map (·.sequenceNo) = records.map (·.sequenceNo) := by
  induction hRows with
  | nil => rfl
  | cons hRow _ ih =>
      rw [List.map_cons, List.map_cons, hRow.sequenceNo, ih]

/- The rows were written for the committed records. -/
theorem PgStreaming.rows_written
    (hStreaming : PgStreaming format sessionId s) :
    List.Forall₂ (SqliteMemoryStore.Written format)
      (s.rows sessionId) (s.committed sessionId) := by
  apply List.rel_filter _ hStreaming.sound.written
  intro row stored hRow
  simp [hRow.sessionId]

/- Rows load in order if and only if they are readable. -/
theorem read_ordered_iff
    (hRows :
      List.Forall₂ (SqliteMemoryStore.Written format) rows
        records) :
    SqliteMemoryStore.readRecords format
          (orderBy (·.sequenceNo) rows) =
        .ok (recordsByNumber records) ↔
      ∀ stored ∈ records,
        format.RoundTrips stored.record := by
  have hOrdered := Tables.orderBy_related
    (fun _ _ hRow => SqliteMemoryStore.Written.sequenceNo hRow)
    hRows
  have hTrips := SqliteMemoryStore.readRecords_ok_iff hOrdered
  simp only [(Logs.orderBy_perm _ _).mem_iff] at hTrips
  exact hTrips

/- The stream has sent the first of the records. -/
theorem PgStreaming.sent
    (hStreaming : PgStreaming format sessionId s)
    (hReadable :
      ∀ stored ∈ s.committed sessionId,
        format.RoundTrips stored.record) :
    ClientHolds s.stream
      (recordsByNumber
        ((s.committed sessionId).take
          s.stream.shownRecords.length)) := by
  rw [clientHolds_iff]
  rcases hStreaming.tracks with ⟨w, hMirrors, hOversees⟩
  have hShown := hMirrors.shown
  rw [hOversees.shown] at hShown
  have hRead :=
    (read_ordered_iff (List.forall₂_take
      s.stream.shownRecords.length
        hStreaming.rows_written)).mpr fun stored hMem =>
          hReadable stored (List.mem_of_mem_take hMem)
  exact Except.ok.inj (hShown.symm.trans hRead)

/- A stream that has caught up has sent all of the rows. -/
theorem PgStreaming.shown_all
    (hStreaming : PgStreaming format sessionId s)
    (hCaught : ClientHolds s.stream (s.records sessionId)) :
    s.stream.shownRecords.length =
        (s.rows sessionId).length ∧
      ∀ stored ∈ s.committed sessionId,
        format.RoundTrips stored.record := by
  rw [clientHolds_iff] at hCaught
  have hRows := hStreaming.rows_written
  have hLength :
      s.stream.shownRecords.length =
        (s.rows sessionId).length := by
    rw [hCaught, hRows.length_eq]
    unfold PgStreamState.records recordsByNumber
    rw [List.length_map, (Logs.orderBy_perm _ _).length_eq]
  refine ⟨hLength, (read_ordered_iff hRows).mp ?_⟩
  rcases hStreaming.tracks with ⟨w, hMirrors, hOversees⟩
  have hShown := hMirrors.shown
  rw [hOversees.shown, hLength, List.take_length,
    hCaught] at hShown
  exact hShown

/- A round keeps what the stream has sent in step. -/
theorem PgStreaming.look
    (hStreaming : PgStreaming format sessionId s)
    (hStep : s.step format sessionId .look = some s') :
    PgStreaming format sessionId s' := by
  cases hStep
  refine ⟨hStreaming.sound, ?_⟩
  rcases hStreaming.tracks with ⟨w, hMirrors, hOversees⟩
  dsimp only
  cases hRead : SqliteMemoryStore.readRecords format
      (s.orderedRows sessionId) with
  | error error =>
      rw [s.loadSession_eq, hRead]
      exact ⟨w, hMirrors, hOversees⟩
  | ok read =>
      have hNext := hMirrors.look hRead
      rcases hOversees.look.1 with ⟨next, hShown⟩
      refine ⟨_, hNext, ?_⟩
      rw [hNext.shown_length hShown]
      exact hShown

/- Everything the stream depends on is kept by each step. -/
theorem PgStreaming.step
    (hStreaming : PgStreaming format sessionId s)
    (hStep : s.step format sessionId action = some s') :
    PgStreaming format sessionId s' := by
  cases action with
  | look => exact hStreaming.look hStep
  | store action =>
      unfold PgStreamState.step at hStep
      rw [Option.map_eq_some_iff] at hStep
      rcases hStep with ⟨ledger, hLedger, rfl⟩
      rcases hStreaming.tracks with ⟨w, hMirrors, hOversees⟩
      exact
        { sound := hStreaming.sound.step hLedger
          tracks := ⟨w, hMirrors, hOversees.extend
            ((PgState.rows_prefix hLedger).filter _)⟩ }

/- A round over a readable session shows it if it notices. -/
theorem PgStreaming.noticed_iff
    (hStreaming : PgStreaming format sessionId s)
    (hStep : s.step format sessionId .look = some s')
    (hReadable :
      ∀ stored ∈ s.committed sessionId,
        format.RoundTrips stored.record) :
    ClientHolds s'.stream (s'.records sessionId) ↔
      Noticed s.stream.lastSeq
        ((s.unsent sessionId).map (·.sequenceNo)) := by
  have hAfter := hStreaming.look hStep
  have hRows := hStreaming.rows_written
  have hRead := (read_ordered_iff hRows).mpr hReadable
  cases hStep
  rcases hStreaming.tracks with ⟨w, hMirrors, hOversees⟩
  have hNext := hMirrors.look hRead
  have hLook := hOversees.look.2
  have hUnsent := written_numbers (List.forall₂_drop
    s.stream.shownRecords.length hRows)
  have hNoticed :
      Noticed s.stream.lastSeq
          ((s.unsent sessionId).map (·.sequenceNo)) ↔
        (s.rows sessionId).drop
            s.stream.shownRecords.length = [] ∨
          ∃ row ∈ (s.rows sessionId).drop
              s.stream.shownRecords.length,
            ∀ newest ∈ w.seen, newest < row.sequenceNo := by
    unfold Noticed PgStreamState.unsent
    rw [← hUnsent, hMirrors.1]
    simp only [List.map_eq_nil_iff, List.mem_map,
      exists_exists_and_eq_and]
  rw [hNoticed, ← hLook]
  constructor
  · intro hCaught
    have hLength := (hAfter.shown_all hCaught).1
    rcases hOversees.look.1 with ⟨next, hShown⟩
    have hAll := hNext.shown_length hShown
    rw [hShown.shown]
    have hCount : next = (s.rows sessionId).length :=
      hAll.symm.trans hLength
    rw [hCount, List.take_length]
  · intro hShown
    have hSent := hNext.shown
    rw [PgStreamState.orderedRows, hShown] at hSent
    rw [clientHolds_iff]
    exact Except.ok.inj (hSent.symm.trans hRead)

theorem PgStreaming.caughtUp_iff
    (hStreaming : PgStreaming format sessionId s)
    (hStep : s.step format sessionId .look = some s') :
    ClientHolds s'.stream (s'.records sessionId) ↔
      (∀ stored ∈ s.committed sessionId,
        format.RoundTrips stored.record) ∧
      Noticed s.stream.lastSeq
        ((s.unsent sessionId).map (·.sequenceNo)) := by
  constructor
  · intro hCaught
    have hSame : s'.ledger = s.ledger := by
      cases hStep
      rfl
    have hReadable :=
      ((hStreaming.look hStep).shown_all hCaught).2
    unfold PgStreamState.committed at hReadable
    rw [hSame] at hReadable
    exact ⟨hReadable,
      (hStreaming.noticed_iff hStep hReadable).mp hCaught⟩
  · intro hBoth
    exact (hStreaming.noticed_iff hStep hBoth.1).mpr hBoth.2

/-
  By the events it has received, a client of a stream over
  Postgres holds the records that were committed first, in
  the order of their numbers. A round catches up with the
  session exactly if every record is read back, and either
  nothing has been committed since, or some of it under a
  greater number than all that was seen.
-/
theorem postgres_stream_catches_up_iff
    {trace : List (PgStreamState Text × PgStreamAction)}
    (hReach :
      Reaches (PgStreamState.step format sessionId) {} trace
        s) :
    ((∀ stored ∈ s.committed sessionId,
        format.RoundTrips stored.record) →
      ClientHolds s.stream
        (recordsByNumber
          ((s.committed sessionId).take
            s.stream.shownRecords.length))) ∧
    ∀ s', s.step format sessionId .look = some s' →
      (ClientHolds s'.stream (s'.records sessionId) ↔
        (∀ stored ∈ s.committed sessionId,
          format.RoundTrips stored.record) ∧
        Noticed s.stream.lastSeq
          ((s.unsent sessionId).map (·.sequenceNo))) := by
  have hStreaming : PgStreaming format sessionId s :=
    hReach.always pgStreaming_start
      fun _ _ _ hHere hStep => hHere.step hStep
  exact ⟨hStreaming.sent,
    fun s' hStep => hStreaming.caughtUp_iff hStep⟩

end Postgres

namespace Sample

/- The second insert is committed first, with a look between. -/
def lateCommit : List PgStreamAction :=
  [.store (.start (Stores.Sample.claim "a")),
    .store (.start (Stores.Sample.claim "b")),
    .store (.commit 2), .look, .store (.commit 1)]

def lateRun
    (more : List PgStreamAction) :
    List (PgStreamState Json × PgStreamAction) ×
      PgStreamState Json :=
  follow (PgStreamState.step (jsonFormat id 128) "session") []
    {} (lateCommit ++ more)

theorem lateRun_reaches
    (more : List PgStreamAction) :
    Reaches (PgStreamState.step (jsonFormat id 128) "session")
      {} (lateRun more).1 (lateRun more).2 :=
  follow_reaches _ .start

/- Another insert, which is committed at once. -/
def newerCommit : List PgStreamAction :=
  [.store (.start (Stores.Sample.claim "c")),
    .store (.commit 3)]

end Sample

set_option maxRecDepth 100000 in
/- What is late is not sent until something newer comes. -/
theorem postgres_stream_late_commit :
    (∃ s',
      (Sample.lateRun []).2.step (jsonFormat id 128) "session"
          .look = some s' ∧
        ¬ClientHolds s'.stream (s'.records "session")) ∧
    ∃ s',
      (Sample.lateRun Sample.newerCommit).2.step
          (jsonFormat id 128) "session" .look = some s' ∧
        ClientHolds s'.stream (s'.records "session") := by
  have hLate := (postgres_stream_catches_up_iff
    (Sample.lateRun_reaches [])).2 _ rfl
  have hNewer := (postgres_stream_catches_up_iff
    (Sample.lateRun_reaches Sample.newerCommit)).2 _ rfl
  refine ⟨⟨_, rfl, ?_⟩, ⟨_, rfl, ?_⟩⟩
  · rw [hLate, not_and_or]
    right
    decide +kernel
  · rw [hNewer]
    simp only [jsonFormat_roundTrips_iff]
    decide +kernel

end RainEngine.Runtime
