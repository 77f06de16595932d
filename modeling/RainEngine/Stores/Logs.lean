import RainEngine.Logs.Views
import RainEngine.Stores.InMemory
import RainEngine.Stores.Sqlite

/-
  This file says what the stores hold: the log of the records
  that have been appended to them, in order. A store in memory
  holds it session by session, a table row by row, and every
  read of either is a function of the log.

  Key definitions include:
    * `sessionLog`
    * `windowLog`
    * `listedSessions`
    * `InMemoryMemoryStore.Holds`
    * `SqliteMemoryStore.Holds`

  Key theorems include:
    * `InMemoryMemoryStore.holds_appendAll`
    * `InMemoryMemoryStore.listSessions_eq`
    * `SqliteMemoryStore.holds_appendAll`
    * `SqliteMemoryStore.listSessions_eq`
-/

namespace RainEngine.Stores

------------------------------------------------------------
-- Logs
------------------------------------------------------------

/- A log whose columns tell what its records hold. -/
def Derived (log : List NewSessionRecord) : Prop :=
  ∀ record ∈ log, record =
    .fromRecord record.sessionId record.occurredAtMs
      record.record

/- The records of one session. -/
def sessionLog
    (log : List NewSessionRecord)
    (sessionId : String) :
    List NewSessionRecord :=
  log.filter (·.sessionId = sessionId)

/- The records of a window of time. -/
def windowLog
    (sinceMs untilMs : Option Int)
    (log : List NewSessionRecord) :
    List NewSessionRecord :=
  log.filter fun record =>
    Tables.within sinceMs untilMs record.occurredAtMs

/- The times a session has recorded in a window. -/
def windowTimes
    (query : SessionListQuery)
    (log : List NewSessionRecord)
    (sessionId : String) :
    List Int :=
  (windowLog query.sinceMs query.untilMs
    (sessionLog log sessionId)).map (·.occurredAtMs)

/- The records on the page a query asks for. -/
def pageLog
    (query : RecordPageQuery)
    (log : List NewSessionRecord) :
    List NewSessionRecord :=
  ((windowLog query.sinceMs query.untilMs
    (sessionLog log query.sessionId)).drop
      query.offset).take query.limit

/- The sessions on the page a query asks for. -/
def listedSessions
    (query : SessionListQuery)
    (log : List NewSessionRecord) :
    List String :=
  ((Tables.orderBy (fun sessionId => sessionId)
    ((windowLog query.sinceMs query.untilMs log).map
      (·.sessionId)).dedup).drop query.offset).take
        query.limit

/- A summary with the first and the last time recorded. -/
def firstAndLast
    (sessionId : String)
    (times : List Int) :
    SessionSummary where
  sessionId := sessionId
  firstRecordedAtMs := times.head?.getD 0
  lastRecordedAtMs := times.getLast?.getD 0
  recordCount := times.length

/- A summary with the earliest and the latest time. -/
def earliestAndLatest
    (sessionId : String)
    (times : List Int) :
    SessionSummary where
  sessionId := sessionId
  firstRecordedAtMs := times.min?.getD 0
  lastRecordedAtMs := times.max?.getD 0
  recordCount := times.length

theorem mem_windowSessions
    {query : SessionListQuery}
    {log : List NewSessionRecord}
    {sessionId : String} :
    sessionId ∈
        ((windowLog query.sinceMs query.untilMs log).map
          (·.sessionId)).dedup ↔
      windowTimes query log sessionId ≠ [] := by
  unfold windowTimes windowLog sessionLog
  rw [List.mem_dedup, List.mem_map, ne_eq,
    List.map_eq_nil_iff, List.filter_eq_nil_iff]
  push Not
  constructor
  · intro hMem
    rcases hMem with ⟨record, hRecord, hSession⟩
    rw [List.mem_filter] at hRecord
    refine ⟨record, ?_, hRecord.2⟩
    rw [List.mem_filter]
    exact ⟨hRecord.1, by simpa using hSession⟩
  · intro hMem
    rcases hMem with ⟨record, hRecord, hWithin⟩
    rw [List.mem_filter] at hRecord
    refine ⟨record, ?_, by simpa using hRecord.2⟩
    rw [List.mem_filter]
    exact ⟨hRecord.1, hWithin⟩

------------------------------------------------------------
-- The Store In Memory
------------------------------------------------------------

namespace InMemoryMemoryStore

/- Append records one after the other. -/
def appendAll
    (store : InMemoryMemoryStore)
    (log : List NewSessionRecord) :
    InMemoryMemoryStore :=
  log.foldl (fun store record => (store.appendRecord record).2)
    store

/- The store holds the log, a session in one place. -/
structure Holds
    (store : InMemoryMemoryStore)
    (log : List NewSessionRecord) : Prop where
  records : ∀ sessionId,
    (store.recordsOf sessionId).map (·.entry) =
      sessionLog log sessionId
  sessions : (store.inner.map (·.1)).Nodup

variable {store : InMemoryMemoryStore}
variable {log : List NewSessionRecord}

theorem holds_empty : Holds {} [] where
  records := fun _ => rfl
  sessions := .nil

theorem Holds.appendRecord
    (record : NewSessionRecord)
    (hHolds : store.Holds log) :
    (store.appendRecord record).2.Holds (log ++ [record]) where
  records := by
    intro sessionId
    have hRecords := recordsOf_insert
      (store.takeNumber record).2 (store.takeNumber record).1
      sessionId
    have hSession :
        (store.takeNumber record).1.sessionId =
          record.sessionId := rfl
    unfold InMemoryMemoryStore.appendRecord
    unfold sessionLog
    rw [hRecords, hSession, List.filter_append]
    have hOld := hHolds.records sessionId
    by_cases hSame : record.sessionId = sessionId
    · rw [if_pos hSame, List.map_append]
      simp only [hSame, decide_true, List.filter_cons_of_pos,
        List.filter_nil]
      exact congrArg (· ++ [record]) hOld
    · rw [if_neg hSame]
      simp only [hSame, decide_false, Bool.false_eq_true,
        not_false_eq_true, List.filter_cons_of_neg,
        List.filter_nil, List.append_nil]
      exact hOld
  sessions := by
    have hKeys := SessionMap.push_keys store.inner
      (record.stored (store.nextSequenceNo + 1))
    unfold InMemoryMemoryStore.appendRecord insert takeNumber
    dsimp only
    rw [hKeys]
    split
    · exact hHolds.sessions
    · rename_i hNew
      exact List.nodup_append.mpr
        ⟨hHolds.sessions, List.nodup_singleton _, by
          intro old hOld new hMem hSame
          rw [List.mem_singleton] at hMem
          subst hMem
          subst hSame
          exact hNew hOld⟩

/- Every sequence of appends is held. -/
theorem holds_appendAll
    (log : List NewSessionRecord) :
    (appendAll {} log).Holds log := by
  induction log using List.reverseRecOn with
  | nil => exact holds_empty
  | append_singleton log record ih =>
      unfold appendAll at ih ⊢
      rw [List.foldl_append]
      exact ih.appendRecord record

/- A read that ignores the numbers reads the log. -/
theorem Holds.map_entry
    {β : Type}
    (hHolds : store.Holds log)
    (f : NewSessionRecord → β)
    (sessionId : String) :
    (store.recordsOf sessionId).map (fun s => f s.entry) =
      (sessionLog log sessionId).map f := by
  rw [← hHolds.records sessionId, List.map_map]
  rfl

theorem Holds.map_record
    (hHolds : store.Holds log)
    (sessionId : String) :
    (store.recordsOf sessionId).map (·.record) =
      (sessionLog log sessionId).map (·.record) :=
  hHolds.map_entry (·.record) sessionId

theorem Holds.window
    (hHolds : store.Holds log)
    (sinceMs untilMs : Option Int)
    (sessionId : String) :
    ((store.recordsOf sessionId).filter fun record =>
      Tables.within sinceMs untilMs
        record.occurredAtMs).map (·.entry) =
      windowLog sinceMs untilMs (sessionLog log sessionId) := by
  unfold windowLog
  rw [← hHolds.records sessionId, List.filter_map]
  rfl

theorem Holds.times
    (hHolds : store.Holds log)
    (query : SessionListQuery)
    (sessionId : String) :
    ((store.recordsOf sessionId).filter fun record =>
      Tables.within query.sinceMs query.untilMs
        record.occurredAtMs).map (·.occurredAtMs) =
      windowTimes query log sessionId := by
  unfold windowTimes
  rw [← hHolds.window, List.map_map]
  rfl

/- The records of a listed session are those it is read by. -/
theorem Holds.recordsOf_of_mem
    {session : String × List StoredSessionRecord}
    (hHolds : store.Holds log)
    (hMem : session ∈ store.inner) :
    store.recordsOf session.1 = session.2 := by
  have hKeys := hHolds.sessions
  unfold recordsOf SessionMap.get
  revert hMem hKeys
  generalize store.inner = sessions
  intro hMem hKeys
  induction sessions with
  | nil => cases hMem
  | cons first rest ih =>
      rcases first with ⟨sessionId, records⟩
      rw [List.map_cons, List.nodup_cons] at hKeys
      rcases List.mem_cons.mp hMem with hFirst | hRest
      · subst hFirst
        simp
      · have hOther : (session.1 == sessionId) = false := by
          rw [beq_eq_false_iff_ne]
          intro hSame
          apply hKeys.1
          exact List.mem_map.mpr ⟨session, hRest, hSame⟩
        simp only [List.lookup_cons, hOther]
        exact ih hRest hKeys.2

/- A summary tells the ends of the session's times. -/
theorem summarize_eq
    (query : SessionListQuery)
    (sessionId : String)
    (records : List StoredSessionRecord) :
    summarize query sessionId records =
      if (records.filter fun record =>
          Tables.within query.sinceMs query.untilMs
            record.occurredAtMs).map (·.occurredAtMs) = []
        then none
      else some (firstAndLast sessionId
        ((records.filter fun record =>
          Tables.within query.sinceMs query.untilMs
            record.occurredAtMs).map (·.occurredAtMs))) := by
  unfold summarize
  split
  · rename_i hNone
    rw [hNone]
    rfl
  · rename_i first rest hSome
    rw [hSome, if_neg (by simp)]
    unfold firstAndLast
    cases hLast : rest.getLast? with
    | none =>
        rw [List.getLast?_eq_none_iff] at hLast
        subst hLast
        rfl
    | some last =>
        simp [List.getLast?_cons, List.getLast?_map, hLast,
          List.getLastD_eq_getLast?]

/- The sessions in the window, in any order. -/
theorem Holds.sessions_perm
    (hHolds : store.Holds log)
    (query : SessionListQuery) :
    ((store.inner.map (·.1)).filter fun sessionId =>
      windowTimes query log sessionId ≠ []).Perm
      ((windowLog query.sinceMs query.untilMs log).map
        (·.sessionId)).dedup := by
  rw [List.perm_ext_iff_of_nodup
    (hHolds.sessions.filter _) (List.nodup_dedup _)]
  intro sessionId
  rw [List.mem_filter, mem_windowSessions]
  constructor
  · intro hMem
    simpa using hMem.2
  · intro hTimes
    refine ⟨?_, by simpa using hTimes⟩
    rw [← hHolds.times query] at hTimes
    by_contra hNone
    apply hTimes
    have hLookup : store.inner.lookup sessionId = none := by
      rw [List.lookup_eq_none_iff]
      intro session hMem
      rw [bne_iff_ne]
      intro hSame
      apply hNone
      rw [hSame]
      exact List.mem_map_of_mem hMem
    unfold recordsOf SessionMap.get
    rw [hLookup]
    rfl

theorem listSessions_eq
    (hHolds : store.Holds log)
    (query : SessionListQuery) :
    store.listSessions query =
      (listedSessions query log).map fun sessionId =>
        firstAndLast sessionId
          (windowTimes query log sessionId) := by
  have hSummaries :
      (store.inner.filterMap fun session =>
        summarize query session.1 session.2) =
      ((store.inner.map (·.1)).filter fun sessionId =>
        windowTimes query log sessionId ≠ []).map
          fun sessionId => firstAndLast sessionId
            (windowTimes query log sessionId) := by
    rw [← List.filterMap_eq_map, List.filterMap_filter,
      List.filterMap_map]
    apply List.filterMap_congr
    intro session hMem
    rw [summarize_eq, ← hHolds.recordsOf_of_mem hMem,
      hHolds.times query]
    by_cases hNil : windowTimes query log session.1 = []
    · simp [hNil]
    · simp [hNil]
  unfold listSessions listedSessions
  dsimp only
  rw [hSummaries, Tables.orderBy_map,
    ← Tables.orderBy_congr (hHolds.sessions_perm query)]
  rw [List.map_take, List.map_drop]
  rfl

theorem listRecords_records
    (hHolds : store.Holds log)
    (query : RecordPageQuery) :
    (store.listRecords query).records.map (·.entry) =
      pageLog query log := by
  unfold listRecords pageLog
  dsimp only
  rw [List.map_take, List.map_drop, hHolds.window]

theorem listRecords_nextOffset
    (hHolds : store.Holds log)
    (query : RecordPageQuery) :
    (store.listRecords query).nextOffset =
      if query.offset + (pageLog query log).length <
          (windowLog query.sinceMs query.untilMs
            (sessionLog log query.sessionId)).length then
        some (query.offset + (pageLog query log).length)
      else none := by
  rw [← listRecords_records hHolds, ← hHolds.window,
    List.length_map, List.length_map]
  rfl

theorem findOutcomeByIdempotencyKey_eq
    (hHolds : store.Holds log)
    (sessionId idempotencyKey : String) :
    store.findOutcomeByIdempotencyKey sessionId
        idempotencyKey =
      RainEngine.findOutcomeByIdempotencyKey
        ((sessionLog log sessionId).map (·.record))
        idempotencyKey := by
  unfold findOutcomeByIdempotencyKey
  rw [hHolds.map_record]

theorem findPendingApprovalByResumeToken_eq
    (hHolds : store.Holds log)
    (sessionId : String)
    (resumeToken : ResumeToken) :
    store.findPendingApprovalByResumeToken sessionId
        resumeToken =
      RainEngine.findPendingApprovalByResumeToken
        ((sessionLog log sessionId).map (·.record))
        resumeToken := by
  unfold findPendingApprovalByResumeToken
  rw [hHolds.map_record]

end InMemoryMemoryStore

------------------------------------------------------------
-- The Table
------------------------------------------------------------

/- The row holds the record, and its text is readable. -/
structure SessionRow.Holds
    {Text : Type}
    (format : PayloadFormat Text)
    (row : SessionRow Text)
    (record : NewSessionRecord) : Prop where
  sessionId : row.sessionId = record.sessionId
  occurredAtMs : row.occurredAtMs = record.occurredAtMs
  recordKind : row.recordKind = record.recordKind.asStr
  triggerId : row.triggerId = record.triggerId
  idempotencyKey :
    row.idempotencyKey = record.idempotencyKey
  payload :
    format.fromText row.payloadJson = .ok record.record

/- A record is read back as it was written. -/
def PayloadFormat.RoundTrips
    {Text : Type}
    (format : PayloadFormat Text)
    (record : SessionRecord) :
    Prop :=
  ∃ text, format.toText record = .ok text ∧
    format.fromText text = .ok record

namespace SqliteMemoryStore

variable {Text : Type}
variable {format : PayloadFormat Text}
variable {store : SqliteMemoryStore Text}
variable {log : List NewSessionRecord}

/- Append records one after the other; a failure ends it. -/
def appendAll
    (format : PayloadFormat Text) :
    SqliteMemoryStore Text → List NewSessionRecord →
      Except MemoryError (SqliteMemoryStore Text)
| store, [] => .ok store
| store, record :: rest =>
    match store.appendRecord format record with
    | .error error => .error error
    | .ok (_, next) => appendAll format next rest

/- The rows are in the order of their numbers. -/
structure Numbered (store : SqliteMemoryStore Text) :
    Prop where
  increasing : store.sessionRecords.Pairwise fun early late =>
    early.sequenceNo < late.sequenceNo
  issued : ∀ row ∈ store.sessionRecords,
    row.sequenceNo ≤ store.sequence

theorem numbered_empty (sequence : Int) :
    Numbered
      ({ sequence := sequence } : SqliteMemoryStore Text) where
  increasing := .nil
  issued := by simp

theorem Numbered.insertRow
    (hNumbered : store.Numbered)
    (record : NewSessionRecord)
    (text : Text) :
    (store.insertRow record text).Numbered where
  increasing := by
    unfold SqliteMemoryStore.insertRow
    rw [List.pairwise_append]
    refine ⟨hNumbered.increasing,
      List.pairwise_singleton _ _, ?_⟩
    intro early hEarly late hLate
    rw [List.mem_singleton] at hLate
    subst hLate
    have hIssued := hNumbered.issued early hEarly
    dsimp only
    omega
  issued := by
    intro row hRow
    unfold SqliteMemoryStore.insertRow at hRow ⊢
    dsimp only at hRow ⊢
    rcases List.mem_append.mp hRow with hOld | hNew
    · have hIssued := hNumbered.issued row hOld
      omega
    · rw [List.mem_singleton] at hNew
      subst hNew
      exact Int.le_refl _

/- Rows in their order are sorted by number already. -/
theorem Numbered.orderBy_filter
    (hNumbered : store.Numbered)
    (keep : SessionRow Text → Bool) :
    Tables.orderBy (·.sequenceNo)
        (store.sessionRecords.filter keep) =
      store.sessionRecords.filter keep := by
  apply Tables.orderBy_of_pairwise
  refine (hNumbered.increasing.filter keep).imp ?_
  intro early late hLess
  omega

/- The rows hold the log, in the order of their numbers. -/
structure Holds
    (format : PayloadFormat Text)
    (store : SqliteMemoryStore Text)
    (log : List NewSessionRecord) : Prop where
  numbered : store.Numbered
  rows :
    List.Forall₂ (SessionRow.Holds format)
      store.sessionRecords log

theorem holds_empty (sequence : Int) :
    Holds format { sequence := sequence } [] where
  numbered := numbered_empty sequence
  rows := .nil

/- A record whose text is readable is held. -/
theorem Holds.insertRow
    {record : NewSessionRecord}
    {text : Text}
    (hHolds : store.Holds format log)
    (hBack : format.fromText text = .ok record.record) :
    (store.insertRow record text).Holds format
      (log ++ [record]) := by
  constructor
  · exact hHolds.numbered.insertRow record text
  · apply List.rel_append hHolds.rows
    exact .cons ⟨rfl, rfl, rfl, rfl, rfl, hBack⟩ .nil

theorem Holds.appendRecord
    {record : NewSessionRecord}
    (hHolds : store.Holds format log)
    (hTrips : format.RoundTrips record.record) :
    ∃ stored next,
      store.appendRecord format record = .ok (stored, next) ∧
        next.Holds format (log ++ [record]) := by
  rcases hTrips with ⟨text, hText, hBack⟩
  refine ⟨record.stored (store.sequence + 1),
    store.insertRow record text, ?_, hHolds.insertRow hBack⟩
  unfold SqliteMemoryStore.appendRecord
  rw [hText]
  rfl

theorem Holds.appendAll
    {more : List NewSessionRecord}
    (hHolds : store.Holds format log)
    (hTrips : ∀ record ∈ more,
      format.RoundTrips record.record) :
    ∃ next, store.appendAll format more = .ok next ∧
      next.Holds format (log ++ more) := by
  induction more generalizing store log with
  | nil =>
      refine ⟨store, rfl, ?_⟩
      rw [List.append_nil]
      exact hHolds
  | cons record rest ih =>
      rcases hHolds.appendRecord
          (hTrips record List.mem_cons_self) with
        ⟨stored, next, hAppend, hNext⟩
      rcases ih hNext fun other hMem =>
          hTrips other (List.mem_cons_of_mem _ hMem) with
        ⟨last, hRest, hLast⟩
      refine ⟨last, ?_, ?_⟩
      · unfold SqliteMemoryStore.appendAll
        rw [hAppend]
        exact hRest
      · rw [List.append_assoc] at hLast
        exact hLast

/- The rows of a session hold its log. -/
theorem Holds.session
    (hHolds : store.Holds format log)
    (sessionId : String) :
    List.Forall₂ (SessionRow.Holds format)
      (store.sessionRecords.filter
        (·.sessionId = sessionId))
      (sessionLog log sessionId) := by
  refine List.rel_filter ?_ hHolds.rows
  intro row record hRow
  simp [hRow.sessionId]

theorem Holds.window
    (hHolds : store.Holds format log)
    (query : RecordPageQuery) :
    List.Forall₂ (SessionRow.Holds format)
      (store.sessionRecords.filter fun row =>
        decide (row.sessionId = query.sessionId) &&
          Tables.within query.sinceMs query.untilMs
            row.occurredAtMs)
      (windowLog query.sinceMs query.untilMs
        (sessionLog log query.sessionId)) := by
  unfold windowLog sessionLog
  rw [List.filter_filter]
  refine List.rel_filter ?_ hHolds.rows
  intro row record hRow
  simp [hRow.sessionId, hRow.occurredAtMs, and_comm]

theorem readRecords_eq
    {rows : List (SessionRow Text)}
    {records : List NewSessionRecord}
    (hRows :
      List.Forall₂ (SessionRow.Holds format) rows records) :
    readRecords format rows =
      .ok (records.map (·.record)) := by
  induction hRows with
  | nil => rfl
  | cons hRow hRest ih =>
      unfold readRecords
      rw [hRow.payload, ih]
      rfl

theorem loadSession_eq
    (hHolds : store.Holds format log)
    (sessionId : String) :
    store.loadSession format sessionId =
      .ok
        { sessionId := sessionId
          records := (sessionLog log sessionId).map (·.record)
          lastSequenceNo :=
            (store.sessionRecords.filter
              (·.sessionId = sessionId)).getLast?.map
                (·.sequenceNo)
          latestOutcome := latestOutcome
            ((sessionLog log sessionId).map (·.record)) } := by
  unfold loadSession
  dsimp only
  rw [hHolds.numbered.orderBy_filter,
    readRecords_eq (hHolds.session sessionId)]
  rfl

theorem readRow_eq
    {row : SessionRow Text}
    {record : NewSessionRecord}
    (hRow : row.Holds format record) :
    readRow format record.sessionId row =
      .ok (record.stored row.sequenceNo) := by
  unfold readRow
  rw [hRow.payload, hRow.recordKind]
  simp only [SessionRecordKind.parse_asStr,
    hRow.occurredAtMs, hRow.triggerId, hRow.idempotencyKey]
  rfl

/- Rows are read back as the records they hold. -/
theorem readRows_eq
    {sessionId : String}
    {rows : List (SessionRow Text)}
    {records : List NewSessionRecord}
    (hRows :
      List.Forall₂ (SessionRow.Holds format) rows records)
    (hSession : ∀ record ∈ records,
      record.sessionId = sessionId) :
    ∃ stored, readRows format sessionId rows = .ok stored ∧
      stored.map (·.entry) = records := by
  induction hRows with
  | nil => exact ⟨[], rfl, rfl⟩
  | @cons row record rows records hRow hRest ih =>
      have hHere := hSession record List.mem_cons_self
      subst hHere
      rcases ih fun other hMem =>
          hSession other (List.mem_cons_of_mem _ hMem) with
        ⟨stored, hRead, hStored⟩
      refine ⟨record.stored row.sequenceNo :: stored, ?_, ?_⟩
      · unfold readRows
        rw [readRow_eq hRow, hRead]
        rfl
      · rw [List.map_cons, hStored]
        rfl

theorem listRecords_eq
    {query : RecordPageQuery}
    (hHolds : store.Holds format log)
    (hOffset : query.offset < 2 ^ 63)
    (hLimit : query.limit < 2 ^ 63) :
    ∃ page, store.listRecords format query = .ok page ∧
      page.sessionId = query.sessionId ∧
      page.records.map (·.entry) = pageLog query log ∧
      page.nextOffset =
        if (pageLog query log).length = query.limit then
          some (query.offset + (pageLog query log).length)
        else none := by
  have hPage := List.forall₂_take query.limit
    (List.forall₂_drop query.offset (hHolds.window query))
  have hSession : ∀ record ∈ pageLog query log,
      record.sessionId = query.sessionId := by
    intro record hMem
    have hLog := List.mem_of_mem_filter
      (List.mem_of_mem_drop (List.mem_of_mem_take hMem))
    simpa using (List.mem_filter.mp hLog).2
  rcases readRows_eq hPage hSession with
    ⟨stored, hRead, hPageLog⟩
  have hStored :
      stored.map (·.entry) = pageLog query log := hPageLog
  have hLength : (pageLog query log).length = stored.length := by
    rw [← hStored, List.length_map]
  rw [hLength]
  refine ⟨{ sessionId := query.sessionId
            records := stored
            nextOffset :=
              if stored.length = query.limit then
                some (query.offset + stored.length)
              else none }, ?_, rfl, hStored, rfl⟩
  unfold listRecords
  dsimp only
  rw [hHolds.numbered.orderBy_filter, asI64_of_lt hLimit,
    asI64_of_lt hOffset, Tables.page_of_nonneg, hRead]
  rfl

/- A column of rows is that of the records they hold. -/
theorem map_column
    {β : Type}
    {rows : List (SessionRow Text)}
    {records : List NewSessionRecord}
    {f : SessionRow Text → β}
    {g : NewSessionRecord → β}
    (hColumn : ∀ {row record},
      row.Holds format record → f row = g record)
    (hRows :
      List.Forall₂ (SessionRow.Holds format) rows records) :
    rows.map f = records.map g := by
  induction hRows with
  | nil => rfl
  | cons hRow hRest ih =>
      rw [List.map_cons, List.map_cons, hColumn hRow, ih]

/- The times of a group are those of its session. -/
theorem Holds.times
    (hHolds : store.Holds format log)
    (query : SessionListQuery)
    (sessionId : String) :
    ((store.sessionRecords.filter fun row =>
      Tables.within query.sinceMs query.untilMs
        row.occurredAtMs).filter
          (·.sessionId = sessionId)).map (·.occurredAtMs) =
      windowTimes query log sessionId := by
  have hRows :
      List.Forall₂ (SessionRow.Holds format)
        ((store.sessionRecords.filter fun row =>
          Tables.within query.sinceMs query.untilMs
            row.occurredAtMs).filter
              (·.sessionId = sessionId))
        (windowLog query.sinceMs query.untilMs
          (sessionLog log sessionId)) := by
    unfold windowLog sessionLog
    rw [List.filter_filter, List.filter_filter]
    refine List.rel_filter ?_ hHolds.rows
    intro row record hRow
    simp [hRow.sessionId, hRow.occurredAtMs, and_comm]
  exact map_column (fun hRow => hRow.occurredAtMs) hRows

theorem Holds.windowSessions
    (hHolds : store.Holds format log)
    (query : SessionListQuery) :
    (store.sessionRecords.filter fun row =>
      Tables.within query.sinceMs query.untilMs
        row.occurredAtMs).map (·.sessionId) =
      (windowLog query.sinceMs query.untilMs log).map
        (·.sessionId) := by
  have hRows :
      List.Forall₂ (SessionRow.Holds format)
        (store.sessionRecords.filter fun row =>
          Tables.within query.sinceMs query.untilMs
            row.occurredAtMs)
        (windowLog query.sinceMs query.untilMs log) := by
    refine List.rel_filter ?_ hHolds.rows
    intro row record hRow
    simp [hRow.occurredAtMs]
  exact map_column (fun hRow => hRow.sessionId) hRows

theorem listSessions_eq
    {query : SessionListQuery}
    (hHolds : store.Holds format log)
    (hOffset : query.offset < 2 ^ 63)
    (hLimit : query.limit < 2 ^ 63) :
    store.listSessions query =
      (listedSessions query log).map fun sessionId =>
        earliestAndLatest sessionId
          (windowTimes query log sessionId) := by
  have hSummary : ∀ sessionId,
      summary (sessionId,
        (store.sessionRecords.filter fun row =>
          Tables.within query.sinceMs query.untilMs
            row.occurredAtMs).filter
              (·.sessionId = sessionId)) =
        earliestAndLatest sessionId
          (windowTimes query log sessionId) := by
    intro sessionId
    rw [← hHolds.times query sessionId]
    unfold summary earliestAndLatest
    rw [List.length_map]
  unfold listSessions listedSessions Tables.groupBy
  rw [asI64_of_lt hLimit, asI64_of_lt hOffset,
    Tables.page_of_nonneg]
  dsimp only
  rw [hHolds.windowSessions, List.map_map]
  simp only [Function.comp_def, hSummary]
  rw [Tables.orderBy_map, List.map_take, List.map_drop]
  rfl

theorem findPendingApprovalByResumeToken_eq
    (hHolds : store.Holds format log)
    (sessionId : String)
    (resumeToken : ResumeToken) :
    store.findPendingApprovalByResumeToken format sessionId
        resumeToken =
      .ok (RainEngine.findPendingApprovalByResumeToken
        ((sessionLog log sessionId).map (·.record))
        resumeToken) := by
  unfold findPendingApprovalByResumeToken
  rw [loadSession_eq hHolds]
  rfl

/- The outcome a record tells for a key. -/
def outcomeFor
    (idempotencyKey : String)
    (record : SessionRecord) :
    Option EngineOutcome :=
  match record with
  | .outcome outcome =>
      if outcome.idempotencyKey = some idempotencyKey then
        some (.fromRecord outcome)
      else none
  | _ => none

/- The newest outcome of a key comes from the last record. -/
theorem newestOutcome_eq
    (records : List NewSessionRecord)
    (idempotencyKey : String) :
    RainEngine.findOutcomeByIdempotencyKey
        (records.map (·.record)) idempotencyKey =
      (records.filter fun record =>
        (outcomeFor idempotencyKey
          record.record).isSome).getLast?.bind fun record =>
            outcomeFor idempotencyKey record.record := by
  have hView :
      (records.findSomeRev? fun record =>
        outcomeFor idempotencyKey record.record) = _ :=
    Logs.findSomeRev?_eq_getLast?
  rw [← hView, List.findSomeRev?_eq_findSome?_reverse]
  unfold RainEngine.findOutcomeByIdempotencyKey
  rw [List.findSomeRev?_eq_findSome?_reverse,
    ← List.map_reverse, List.findSome?_map]
  rfl

/- The columns select the outcomes of a key. -/
theorem outcomeFor_isSome
    {record : NewSessionRecord}
    (hDerived : record =
      .fromRecord record.sessionId record.occurredAtMs
        record.record)
    (idempotencyKey : String) :
    (outcomeFor idempotencyKey record.record).isSome =
      (decide (record.idempotencyKey = some idempotencyKey) &&
        decide (record.recordKind = .outcome)) := by
  rw [hDerived]
  unfold NewSessionRecord.fromRecord outcomeFor
  dsimp only
  cases record.record with
  | outcome outcome =>
      by_cases hKey :
          outcome.idempotencyKey = some idempotencyKey
      · simp [hKey, kind, Stores.idempotencyKey]
      · simp [hKey, kind, Stores.idempotencyKey]
  | _ => simp [kind]

/- The first selected row is read back as an outcome. -/
theorem readOutcome_eq
    {idempotencyKey : String}
    {rows : List (SessionRow Text)}
    {records : List NewSessionRecord}
    (hRows :
      List.Forall₂ (SessionRow.Holds format) rows records)
    (hOutcomes : ∀ record ∈ records,
      (outcomeFor idempotencyKey record.record).isSome) :
    readOutcome format rows.head? =
      .ok (records.head?.bind fun record =>
        outcomeFor idempotencyKey record.record) := by
  cases hRows with
  | nil => rfl
  | @cons row record rows records hRow hRest =>
      have hSome := hOutcomes record List.mem_cons_self
      unfold readOutcome
      simp only [List.head?_cons, hRow.payload,
        Option.bind_some]
      cases hRecord : record.record with
      | outcome outcome =>
          rw [hRecord] at hSome
          unfold outcomeFor at hSome ⊢
          dsimp only at hSome ⊢
          split at hSome
          · rename_i hKey
            rw [if_pos hKey]
          · cases hSome
      | _ =>
          rw [hRecord] at hSome
          cases hSome

/- The records whose columns select an outcome of a key. -/
def outcomeLog
    (log : List NewSessionRecord)
    (sessionId idempotencyKey : String) :
    List NewSessionRecord :=
  (sessionLog log sessionId).filter fun record =>
    decide (record.idempotencyKey = some idempotencyKey) &&
      decide (record.recordKind = .outcome)

theorem outcomeLog_eq
    (hDerived : Derived log)
    (sessionId idempotencyKey : String) :
    outcomeLog log sessionId idempotencyKey =
      (sessionLog log sessionId).filter fun record =>
        (outcomeFor idempotencyKey record.record).isSome := by
  apply List.filter_congr
  intro record hMem
  exact (outcomeFor_isSome
    (hDerived record (List.mem_of_mem_filter hMem)) _).symm

theorem Holds.outcomes
    (hHolds : store.Holds format log)
    (sessionId idempotencyKey : String) :
    List.Forall₂ (SessionRow.Holds format)
      (store.sessionRecords.filter fun row =>
        decide (row.sessionId = sessionId) &&
          decide (row.idempotencyKey =
            some idempotencyKey) &&
          decide (row.recordKind =
            SessionRecordKind.outcome.asStr))
      (outcomeLog log sessionId idempotencyKey) := by
  unfold outcomeLog sessionLog
  rw [List.filter_filter]
  refine List.rel_filter ?_ hHolds.rows
  intro row record hRow
  have hKind :
      row.recordKind = SessionRecordKind.outcome.asStr ↔
        record.recordKind = .outcome := by
    rw [hRow.recordKind]
    exact ⟨SessionRecordKind.asStr_injective, congrArg _⟩
  simp [hRow.sessionId, hRow.idempotencyKey, hKind,
    and_comm, and_left_comm]

theorem findOutcomeByIdempotencyKey_eq
    (hHolds : store.Holds format log)
    (hDerived : Derived log)
    (sessionId idempotencyKey : String) :
    store.findOutcomeByIdempotencyKey format sessionId
        idempotencyKey =
      .ok (RainEngine.findOutcomeByIdempotencyKey
        ((sessionLog log sessionId).map (·.record))
        idempotencyKey) := by
  unfold findOutcomeByIdempotencyKey
  dsimp only
  rw [Tables.orderBy_neg
      (hHolds.numbered.increasing.filter _),
    readOutcome_eq (List.rel_reverse
      (hHolds.outcomes sessionId idempotencyKey)),
    List.head?_reverse, outcomeLog_eq hDerived,
    newestOutcome_eq]
  intro record hMem
  rw [List.mem_reverse, outcomeLog_eq hDerived] at hMem
  exact (List.mem_filter.mp hMem).2

end SqliteMemoryStore

end RainEngine.Stores
