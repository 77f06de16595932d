import RainEngine.Kernel.Host
import RainEngine.Stores.Records
import RainEngine.Tables.Queries

/-
  This file defines the ledger store that keeps its records in
  an SQLite table. A record is one row: its columns, and the
  whole record as text. The reads are queries over the rows;
  the text of every selected row is read back.

  How records are written as text and read back is a parameter
  of the store, and so is the number its table starts from.

  Key definitions include:
    * `PayloadFormat`
    * `SessionRow`
    * `SqliteMemoryStore`
    * `SqliteMemoryStore.appendRecord`
    * `SqliteMemoryStore.loadSession`
    * `SqliteMemoryStore.listSessions`
    * `SqliteMemoryStore.listRecords`
    * `SqliteMemoryStore.findOutcomeByIdempotencyKey`
    * `SqliteMemoryStore.findPendingApprovalByResumeToken`
-/

namespace RainEngine.Stores

------------------------------------------------------------
-- Rows
------------------------------------------------------------

/- How records are written as text and read back. -/
structure PayloadFormat (Text : Type) where
  toText : SessionRecord → Except MemoryError Text
  fromText : Text → Except MemoryError SessionRecord

structure SessionRow (Text : Type) where
  sequenceNo : Int
  sessionId : String
  occurredAtMs : Int
  recordKind : String
  triggerId : Option String
  idempotencyKey : Option String
  payloadJson : Text

/- The rows, and the last number handed out for one. -/
structure SqliteMemoryStore (Text : Type) where
  sessionRecords : List (SessionRow Text) := []
  sequence : Int := 0

/- The conversion of a machine word to a signed one. -/
def asI64 (n : Nat) : Int :=
  Int.bmod n (2 ^ 64)

theorem asI64_of_lt
    {n : Nat}
    (hSmall : n < 2 ^ 63) :
    asI64 n = n := by
  unfold asI64
  rw [Int.bmod_def]
  omega

namespace SqliteMemoryStore

variable {Text : Type}

------------------------------------------------------------
-- Appends
------------------------------------------------------------

/- Insert a row under the next number. -/
def insertRow
    (store : SqliteMemoryStore Text)
    (record : NewSessionRecord)
    (payloadJson : Text) :
    SqliteMemoryStore Text :=
  let row : SessionRow Text :=
    { sequenceNo := store.sequence + 1
      sessionId := record.sessionId
      occurredAtMs := record.occurredAtMs
      recordKind := record.recordKind.asStr
      triggerId := record.triggerId
      idempotencyKey := record.idempotencyKey
      payloadJson := payloadJson }
  { sessionRecords := store.sessionRecords ++ [row]
    sequence := store.sequence + 1 }

def appendRecord
    (format : PayloadFormat Text)
    (store : SqliteMemoryStore Text)
    (record : NewSessionRecord) :
    Except MemoryError
      (StoredSessionRecord × SqliteMemoryStore Text) := do
  let payloadJson ← format.toText record.record
  pure (record.stored (store.sequence + 1),
    store.insertRow record payloadJson)

------------------------------------------------------------
-- Reads
------------------------------------------------------------

/- Read back the records of rows; one failure fails all. -/
def readRecords
    (format : PayloadFormat Text) :
    List (SessionRow Text) →
      Except MemoryError (List SessionRecord)
| [] => pure []
| row :: rest => do
    let record ← format.fromText row.payloadJson
    let records ← readRecords format rest
    pure (record :: records)

def loadSession
    (format : PayloadFormat Text)
    (store : SqliteMemoryStore Text)
    (sessionId : String) :
    Except MemoryError SessionSnapshot := do
  let rows := Tables.orderBy (·.sequenceNo)
    (store.sessionRecords.filter (·.sessionId = sessionId))
  let records ← readRecords format rows
  pure
    { sessionId := sessionId
      records := records
      lastSequenceNo := rows.getLast?.map (·.sequenceNo)
      latestOutcome := latestOutcome records }

/- The summary of a group, which is never empty. -/
def summary
    (group : String × List (SessionRow Text)) :
    SessionSummary where
  sessionId := group.1
  firstRecordedAtMs :=
    (group.2.map (·.occurredAtMs)).min?.getD 0
  lastRecordedAtMs :=
    (group.2.map (·.occurredAtMs)).max?.getD 0
  recordCount := group.2.length

def listSessions
    (store : SqliteMemoryStore Text)
    (query : SessionListQuery) :
    List SessionSummary :=
  let rows := store.sessionRecords.filter fun row =>
    Tables.within query.sinceMs query.untilMs
      row.occurredAtMs
  let groups := Tables.groupBy (·.sessionId) rows
  Tables.page (asI64 query.limit) (asI64 query.offset)
    (Tables.orderBy (·.sessionId) (groups.map summary))

/- Read back a row with its columns. -/
def readRow
    (format : PayloadFormat Text)
    (sessionId : String)
    (row : SessionRow Text) :
    Except MemoryError StoredSessionRecord := do
  let record ← format.fromText row.payloadJson
  match SessionRecordKind.parse row.recordKind with
  | none => .error ⟨"unknown record kind"⟩
  | some recordKind =>
      pure
        { sessionId := sessionId
          sequenceNo := row.sequenceNo
          occurredAtMs := row.occurredAtMs
          recordKind := recordKind
          triggerId := row.triggerId
          idempotencyKey := row.idempotencyKey
          record := record }

def readRows
    (format : PayloadFormat Text)
    (sessionId : String) :
    List (SessionRow Text) →
      Except MemoryError (List StoredSessionRecord)
| [] => pure []
| row :: rest => do
    let record ← readRow format sessionId row
    let records ← readRows format sessionId rest
    pure (record :: records)

def listRecords
    (format : PayloadFormat Text)
    (store : SqliteMemoryStore Text)
    (query : RecordPageQuery) :
    Except MemoryError RecordPage := do
  let rows := store.sessionRecords.filter fun row =>
    decide (row.sessionId = query.sessionId) &&
      Tables.within query.sinceMs query.untilMs
        row.occurredAtMs
  let selected :=
    Tables.page (asI64 query.limit) (asI64 query.offset)
      (Tables.orderBy (·.sequenceNo) rows)
  let records ← readRows format query.sessionId selected
  pure
    { sessionId := query.sessionId
      records := records
      nextOffset :=
        if records.length = query.limit then
          some (query.offset + records.length)
        else none }

/- Read back the outcome of the selected row. -/
def readOutcome
    (format : PayloadFormat Text) :
    Option (SessionRow Text) →
      Except MemoryError (Option EngineOutcome)
| none => .ok none
| some row =>
    match format.fromText row.payloadJson with
    | .error error => .error error
    | .ok (.outcome outcome) =>
        .ok (some (.fromRecord outcome))
    | .ok _ => .ok none

def findOutcomeByIdempotencyKey
    (format : PayloadFormat Text)
    (store : SqliteMemoryStore Text)
    (sessionId idempotencyKey : String) :
    Except MemoryError (Option EngineOutcome) :=
  let rows := store.sessionRecords.filter fun row =>
    decide (row.sessionId = sessionId) &&
      decide (row.idempotencyKey = some idempotencyKey) &&
      decide (row.recordKind = SessionRecordKind.outcome.asStr)
  -- in descending order, at most one row
  readOutcome format
    (Tables.orderBy (fun row => -row.sequenceNo) rows).head?

def findPendingApprovalByResumeToken
    (format : PayloadFormat Text)
    (store : SqliteMemoryStore Text)
    (sessionId : String)
    (resumeToken : ResumeToken) :
    Except MemoryError (Option PendingApprovalRecord) := do
  let snapshot ← store.loadSession format sessionId
  pure (RainEngine.findPendingApprovalByResumeToken
    snapshot.records resumeToken)

end SqliteMemoryStore

end RainEngine.Stores
