import RainEngine.Stores.Readback

/-
  This file compares the store in memory with the store in an
  SQLite table. After the same appends they give the same
  answers to all reads, up to the sequence numbers, with two
  exceptions: a summary tells the first and the last time in
  one and the extreme times in the other, and a page that ends
  with the last record has a next offset only in the table.

  Key definitions include:
    * `Agree`
    * `Interchangeable`

  Key theorems include:
    * `summaries_eq_iff`
    * `nextOffset_eq_iff`
    * `stores_agree_iff`
-/

namespace RainEngine.Stores

------------------------------------------------------------
-- Answers
------------------------------------------------------------

/- One snapshot, whatever the number of its last record. -/
structure SameSnapshot (left right : SessionSnapshot) :
    Prop where
  sessionId : left.sessionId = right.sessionId
  records : left.records = right.records
  lastSequenceNo :
    left.lastSequenceNo.isSome = right.lastSequenceNo.isSome
  latestOutcome : left.latestOutcome = right.latestOutcome

/- One page, whatever the numbers of its records. -/
structure SamePage (left right : RecordPage) : Prop where
  sessionId : left.sessionId = right.sessionId
  records :
    left.records.map (·.entry) = right.records.map (·.entry)
  nextOffset : left.nextOffset = right.nextOffset

/- Both stores give the same answers. -/
structure Agree
    {Text : Type}
    (format : PayloadFormat Text)
    (table : SqliteMemoryStore Text)
    (memory : InMemoryMemoryStore)
    (sessions : SessionListQuery)
    (records : RecordPageQuery)
    (sessionId idempotencyKey : String)
    (resumeToken : ResumeToken) : Prop where
  loaded : ∃ snapshot,
    table.loadSession format sessionId = .ok snapshot ∧
      SameSnapshot snapshot (memory.loadSession sessionId)
  summaries :
    table.listSessions sessions = memory.listSessions sessions
  page : ∃ page,
    table.listRecords format records = .ok page ∧
      SamePage page (memory.listRecords records)
  outcome :
    table.findOutcomeByIdempotencyKey format sessionId
        idempotencyKey =
      .ok (memory.findOutcomeByIdempotencyKey sessionId
        idempotencyKey)
  pending :
    table.findPendingApprovalByResumeToken format sessionId
        resumeToken =
      .ok (memory.findPendingApprovalByResumeToken sessionId
        resumeToken)

------------------------------------------------------------
-- Where The Stores Differ
------------------------------------------------------------

/- The first time is the earliest, the last the latest. -/
def EndsInOrder (times : List Int) : Prop :=
  times.head? = times.min? ∧ times.getLast? = times.max?

/-
  The listed sessions have their extreme times at their ends,
  and the page does not end exactly with the last record.
-/
structure Interchangeable
    (log : List NewSessionRecord)
    (sessions : SessionListQuery)
    (records : RecordPageQuery) : Prop where
  ordered : ∀ sessionId ∈ listedSessions sessions log,
    EndsInOrder (windowTimes sessions log sessionId)
  unfinished :
    (windowLog records.sinceMs records.untilMs
      (sessionLog log records.sessionId)).length -
        records.offset ≠ records.limit

section Differences

variable {log : List NewSessionRecord}
variable {sessions : SessionListQuery}
variable {records : RecordPageQuery}

theorem summary_eq_iff
    {sessionId : String}
    {times : List Int}
    (hTimes : times ≠ []) :
    earliestAndLatest sessionId times =
        firstAndLast sessionId times ↔
      EndsInOrder times := by
  rcases List.exists_cons_of_ne_nil hTimes with
    ⟨first, rest, hCons⟩
  subst hCons
  have hMin : ∃ low, (first :: rest).min? = some low :=
    ⟨_, rfl⟩
  have hMax : ∃ high, (first :: rest).max? = some high :=
    ⟨_, rfl⟩
  have hLast : ∃ last,
      (first :: rest).getLast? = some last :=
    ⟨_, List.getLast?_cons⟩
  rcases hMin with ⟨low, hMin⟩
  rcases hMax with ⟨high, hMax⟩
  rcases hLast with ⟨last, hLast⟩
  unfold earliestAndLatest firstAndLast EndsInOrder
  rw [hMin, hMax, hLast, SessionSummary.mk.injEq]
  simp [eq_comm]

/- Listed sessions have recorded something in the window. -/
theorem windowTimes_ne_nil
    {sessionId : String}
    (hListed : sessionId ∈ listedSessions sessions log) :
    windowTimes sessions log sessionId ≠ [] := by
  have hOrdered := List.mem_of_mem_drop
    (List.mem_of_mem_take hListed)
  rw [Tables.orderBy, List.mem_insertionSort] at hOrdered
  exact mem_windowSessions.mp hOrdered

theorem summaries_eq_iff :
    ((listedSessions sessions log).map fun sessionId =>
        earliestAndLatest sessionId
          (windowTimes sessions log sessionId)) =
      ((listedSessions sessions log).map fun sessionId =>
        firstAndLast sessionId
          (windowTimes sessions log sessionId)) ↔
      ∀ sessionId ∈ listedSessions sessions log,
        EndsInOrder (windowTimes sessions log sessionId) := by
  rw [List.map_inj_left]
  constructor
  · intro hSame sessionId hListed
    exact (summary_eq_iff (windowTimes_ne_nil hListed)).mp
      (hSame sessionId hListed)
  · intro hOrdered sessionId hListed
    exact (summary_eq_iff (windowTimes_ne_nil hListed)).mpr
      (hOrdered sessionId hListed)

/- A next offset for a full page, or for records left over. -/
theorem nextOffset_eq_iff
    {offset limit total : Nat} :
    ((if min limit (total - offset) = limit then
          some (offset + min limit (total - offset))
        else none) =
      if offset + min limit (total - offset) < total then
        some (offset + min limit (total - offset))
      else none) ↔
      total - offset ≠ limit := by
  by_cases hFull : min limit (total - offset) = limit
  · rw [if_pos hFull]
    by_cases hMore :
        offset + min limit (total - offset) < total
    · rw [if_pos hMore]
      simp only [true_iff]
      omega
    · rw [if_neg hMore]
      simp only [reduceCtorEq, false_iff, not_not]
      omega
  · rw [if_neg hFull]
    by_cases hMore :
        offset + min limit (total - offset) < total
    · rw [if_pos hMore]
      simp only [reduceCtorEq, false_iff, not_not]
      omega
    · rw [if_neg hMore]
      simp only [true_iff]
      omega

end Differences

------------------------------------------------------------
-- The Same Appends
------------------------------------------------------------

/- The new records of appends, as every caller makes them. -/
def newRecords
    (appended : List (String × Int × SessionRecord)) :
    List NewSessionRecord :=
  appended.map fun (sessionId, occurredAtMs, record) =>
    .fromRecord sessionId occurredAtMs record

theorem derived_newRecords
    (appended : List (String × Int × SessionRecord)) :
    Derived (newRecords appended) := by
  intro record hMem
  rcases List.mem_map.mp hMem with ⟨source, _, hRecord⟩
  subst hRecord
  rfl

section Agreement

variable {Text : Type}
variable {format : PayloadFormat Text}
variable {table : SqliteMemoryStore Text}
variable {memory : InMemoryMemoryStore}
variable {log : List NewSessionRecord}
variable {sessions : SessionListQuery}
variable {records : RecordPageQuery}

/- A session loads alike, but for its last number. -/
theorem same_loadSession
    (hTable : table.Holds format log)
    (hMemory : memory.Holds log)
    (sessionId : String) :
    ∃ snapshot,
      table.loadSession format sessionId = .ok snapshot ∧
        SameSnapshot snapshot
          (memory.loadSession sessionId) := by
  refine ⟨_, SqliteMemoryStore.loadSession_eq hTable
    sessionId, rfl, ?_, ?_, ?_⟩
  · exact (hMemory.map_record sessionId).symm
  · have hRows := (hTable.session sessionId).length_eq
    have hRecords := congrArg List.length
      (hMemory.records sessionId)
    rw [List.length_map] at hRecords
    have hBoth := hRows.trans hRecords.symm
    unfold InMemoryMemoryStore.loadSession
    dsimp only
    rw [Option.isSome_map, Option.isSome_map,
      Bool.eq_iff_iff, List.getLast?_isSome,
      List.getLast?_isSome, ← List.length_pos_iff,
      ← List.length_pos_iff, hBoth]
  · unfold InMemoryMemoryStore.loadSession
    dsimp only
    rw [hMemory.map_record]

theorem same_page_iff
    (hTable : table.Holds format log)
    (hMemory : memory.Holds log)
    (hOffset : records.offset < 2 ^ 63)
    (hLimit : records.limit < 2 ^ 63) :
    (∃ page, table.listRecords format records = .ok page ∧
      SamePage page (memory.listRecords records)) ↔
      (windowLog records.sinceMs records.untilMs
        (sessionLog log records.sessionId)).length -
          records.offset ≠ records.limit := by
  have hLength :
      (pageLog records log).length =
        min records.limit
          ((windowLog records.sinceMs records.untilMs
            (sessionLog log records.sessionId)).length -
              records.offset) := by
    rw [pageLog, List.length_take, List.length_drop]
  rcases SqliteMemoryStore.listRecords_eq hTable hOffset
    hLimit with ⟨page, hPage, hSession, hRecords, hNext⟩
  rw [hLength] at hNext
  have hMemoryNext :=
    InMemoryMemoryStore.listRecords_nextOffset hMemory records
  rw [hLength] at hMemoryNext
  rw [← nextOffset_eq_iff, ← hNext, ← hMemoryNext]
  constructor
  · intro hSame
    rcases hSame with ⟨other, hOther, hSame⟩
    rw [hPage] at hOther
    cases hOther
    exact hSame.nextOffset
  · intro hSame
    refine ⟨page, hPage, hSession, ?_, hSame⟩
    rw [hRecords,
      InMemoryMemoryStore.listRecords_records hMemory]

theorem agree_iff
    (hTable : table.Holds format log)
    (hMemory : memory.Holds log)
    (hDerived : Derived log)
    (hSessions :
      sessions.offset < 2 ^ 63 ∧ sessions.limit < 2 ^ 63)
    (hRecords :
      records.offset < 2 ^ 63 ∧ records.limit < 2 ^ 63)
    (sessionId idempotencyKey : String)
    (resumeToken : ResumeToken) :
    Agree format table memory sessions records sessionId
        idempotencyKey resumeToken ↔
      Interchangeable log sessions records := by
  have hPage := same_page_iff hTable hMemory hRecords.1
    hRecords.2
  have hSummaries :
      table.listSessions sessions =
          memory.listSessions sessions ↔
        ∀ sessionId ∈ listedSessions sessions log,
          EndsInOrder (windowTimes sessions log sessionId) := by
    rw [SqliteMemoryStore.listSessions_eq hTable hSessions.1
        hSessions.2,
      InMemoryMemoryStore.listSessions_eq hMemory]
    exact summaries_eq_iff
  constructor
  · intro hAgree
    exact ⟨hSummaries.mp hAgree.summaries,
      hPage.mp hAgree.page⟩
  · intro hSame
    constructor
    · exact same_loadSession hTable hMemory sessionId
    · exact hSummaries.mpr hSame.ordered
    · exact hPage.mpr hSame.unfinished
    · rw [SqliteMemoryStore.findOutcomeByIdempotencyKey_eq
          hTable hDerived,
        InMemoryMemoryStore.findOutcomeByIdempotencyKey_eq
          hMemory]
    · rw [SqliteMemoryStore.findPendingApprovalByResumeToken_eq
          hTable,
        InMemoryMemoryStore.findPendingApprovalByResumeToken_eq
          hMemory]

end Agreement

/-
  After the same appends both stores give the same answers
  exactly when the queries stay clear of the two differences.
-/
theorem stores_agree_iff
    {Text : Type}
    (format : PayloadFormat Text)
    (sequence : Int)
    (appended : List (String × Int × SessionRecord))
    (sessions : SessionListQuery)
    (records : RecordPageQuery)
    (sessionId idempotencyKey : String)
    (resumeToken : ResumeToken)
    (hTrips : ∀ source ∈ appended,
      format.RoundTrips source.2.2)
    (hSessions :
      sessions.offset < 2 ^ 63 ∧ sessions.limit < 2 ^ 63)
    (hRecords :
      records.offset < 2 ^ 63 ∧ records.limit < 2 ^ 63) :
    ∃ table,
      SqliteMemoryStore.appendAll format
          { sequence := sequence } (newRecords appended) =
        .ok table ∧
      (Agree format table
          (InMemoryMemoryStore.appendAll {}
            (newRecords appended))
          sessions records sessionId idempotencyKey
          resumeToken ↔
        Interchangeable (newRecords appended) sessions
          records) := by
  have hReadable : ∀ record ∈ newRecords appended,
      format.RoundTrips record.record := by
    intro record hMem
    rcases List.mem_map.mp hMem with ⟨source, hSource, hEq⟩
    subst hEq
    exact hTrips source hSource
  rcases (SqliteMemoryStore.holds_empty sequence).appendAll
      hReadable with ⟨table, hTable, hHolds⟩
  exact ⟨table, hTable, agree_iff hHolds
    (InMemoryMemoryStore.holds_appendAll _)
    (derived_newRecords appended) hSessions hRecords
    sessionId idempotencyKey resumeToken⟩

/- Two records of one session, the later one first. -/
def laterFirst : List (String × Int × SessionRecord) :=
  [("session", 5, (webhookRecord .null).record),
    ("session", 3, (webhookRecord .null).record)]

theorem stores_agree_iff_laterFirst :
    ∃ table,
      SqliteMemoryStore.appendAll (jsonFormat id 128)
          { sequence := 0 } (newRecords laterFirst) =
        .ok table ∧
      (Agree (jsonFormat id 128) table
          (InMemoryMemoryStore.appendAll {}
            (newRecords laterFirst))
          {} { sessionId := "session" } "session" "key"
          "token" ↔
        Interchangeable (newRecords laterFirst) {}
          { sessionId := "session" }) := by
  have hReadable : ∀ source ∈ laterFirst,
      Readable id 128 source.2.2 := by
    decide +kernel
  exact stores_agree_iff (jsonFormat id 128) 0 laterFirst {}
    { sessionId := "session" } "session" "key" "token"
    (fun source hMem =>
      jsonFormat_roundTrips_iff.mpr (hReadable source hMem))
    (by decide) (by decide)

/-
  The first and last times of the session are swapped, and a
  page of just the two records has a next one in the table.
-/
theorem laterFirst_not_interchangeable :
    ∃ table,
      SqliteMemoryStore.appendAll (jsonFormat id 128) {}
          (newRecords laterFirst) = .ok table ∧
      table.listSessions {} = [⟨"session", 3, 5, 2⟩] ∧
      (table.listRecords (jsonFormat id 128)
          { sessionId := "session", limit := 2 }).map
            (·.nextOffset) = .ok (some 2) ∧
      (InMemoryMemoryStore.appendAll {}
          (newRecords laterFirst)).listSessions {} =
        [⟨"session", 5, 3, 2⟩] ∧
      ((InMemoryMemoryStore.appendAll {}
          (newRecords laterFirst)).listRecords
            { sessionId := "session", limit := 2 }).nextOffset =
        none :=
  ⟨_, rfl, by decide +kernel, rfl, by decide +kernel, rfl⟩

end RainEngine.Stores
