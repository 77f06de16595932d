import RainEngine.Stores.Records
import RainEngine.Tables.Queries

/-
  This file defines the ledger store that keeps its records
  in memory. An append takes a number in one section and
  inserts its record in another; the reads scan the records
  of a session in the order they were inserted.

  Key definitions include:
    * `InMemoryMemoryStore`
    * `InMemoryMemoryStore.takeNumber`
    * `InMemoryMemoryStore.insert`
    * `InMemoryMemoryStore.appendRecord`
    * `InMemoryMemoryStore.loadSession`
    * `InMemoryMemoryStore.listSessions`
    * `InMemoryMemoryStore.listRecords`

  Key theorems include:
    * `InMemoryMemoryStore.recordsOf_insert`
-/

namespace RainEngine.Stores

------------------------------------------------------------
-- Records By Session
------------------------------------------------------------

/- The records of the sessions, a session once. -/
abbrev SessionMap : Type :=
  List (String × List StoredSessionRecord)

namespace SessionMap

def get
    (sessions : SessionMap)
    (sessionId : String) :
    List StoredSessionRecord :=
  (sessions.lookup sessionId).getD []

/- Put a record at the end of its session. -/
def push :
    SessionMap → StoredSessionRecord → SessionMap
| [], stored => [(stored.sessionId, [stored])]
| (sessionId, records) :: rest, stored =>
    if sessionId = stored.sessionId then
      (sessionId, records ++ [stored]) :: rest
    else (sessionId, records) :: push rest stored

theorem get_push
    (sessions : SessionMap)
    (stored : StoredSessionRecord)
    (sessionId : String) :
    (sessions.push stored).get sessionId =
      if stored.sessionId = sessionId then
        sessions.get sessionId ++ [stored]
      else sessions.get sessionId := by
  induction sessions with
  | nil =>
      unfold push get
      by_cases hSame : stored.sessionId = sessionId
      · subst hSame
        simp
      · have hOther : (sessionId == stored.sessionId) = false := by
          simpa using Ne.symm hSame
        simp [List.lookup_cons, hSame, hOther]
  | cons session rest ih =>
      rcases session with ⟨id, records⟩
      unfold get at ih ⊢
      unfold push
      by_cases hHere : id = stored.sessionId
      · subst hHere
        by_cases hSame : stored.sessionId = sessionId
        · subst hSame
          simp
        · have hOther :
              (sessionId == stored.sessionId) = false := by
            simpa using Ne.symm hSame
          simp [List.lookup_cons, hSame, hOther]
      · rw [if_neg hHere]
        by_cases hSession : sessionId = id
        · subst hSession
          rw [if_neg (Ne.symm hHere)]
          simp
        · have hOther : (sessionId == id) = false := by
            simpa using hSession
          simp only [List.lookup_cons, hOther]
          exact ih

/- A push opens a session at most once. -/
theorem push_keys
    (sessions : SessionMap)
    (stored : StoredSessionRecord) :
    (sessions.push stored).map (·.1) =
      if stored.sessionId ∈ sessions.map (·.1) then
        sessions.map (·.1)
      else sessions.map (·.1) ++ [stored.sessionId] := by
  induction sessions with
  | nil => rfl
  | cons session rest ih =>
      rcases session with ⟨id, records⟩
      unfold push
      by_cases hHere : id = stored.sessionId
      · simp [hHere]
      · rw [if_neg hHere, List.map_cons, ih]
        by_cases hRest : stored.sessionId ∈ rest.map (·.1)
        · rw [if_pos hRest, if_pos]
          · rfl
          · exact List.mem_cons_of_mem _ hRest
        · rw [if_neg hRest, if_neg]
          · rfl
          · simpa [Ne.symm hHere] using hRest

end SessionMap

------------------------------------------------------------
-- Appends
------------------------------------------------------------

structure InMemoryMemoryStore where
  inner : SessionMap := []
  nextSequenceNo : Int := 0

namespace InMemoryMemoryStore

/- The first section of an append. -/
def takeNumber
    (store : InMemoryMemoryStore)
    (record : NewSessionRecord) :
    StoredSessionRecord × InMemoryMemoryStore :=
  let sequenceNo := store.nextSequenceNo + 1
  (record.stored sequenceNo,
    { store with nextSequenceNo := sequenceNo })

/- The second section of an append. -/
def insert
    (store : InMemoryMemoryStore)
    (stored : StoredSessionRecord) :
    InMemoryMemoryStore :=
  { store with inner := store.inner.push stored }

/- An append that nothing comes between. -/
def appendRecord
    (store : InMemoryMemoryStore)
    (record : NewSessionRecord) :
    StoredSessionRecord × InMemoryMemoryStore :=
  let (stored, store) := store.takeNumber record
  (stored, store.insert stored)

------------------------------------------------------------
-- Reads
------------------------------------------------------------

def recordsOf
    (store : InMemoryMemoryStore)
    (sessionId : String) :
    List StoredSessionRecord :=
  store.inner.get sessionId

def loadSession
    (store : InMemoryMemoryStore)
    (sessionId : String) :
    SessionSnapshot :=
  let records := store.recordsOf sessionId
  { sessionId := sessionId
    records := records.map (·.record)
    lastSequenceNo := records.getLast?.map (·.sequenceNo)
    latestOutcome :=
      latestOutcome (records.map (·.record)) }

/- The summary of a session with records in the window. -/
def summarize
    (query : SessionListQuery)
    (sessionId : String)
    (records : List StoredSessionRecord) :
    Option SessionSummary :=
  match records.filter fun record =>
      Tables.within query.sinceMs query.untilMs
        record.occurredAtMs with
  | [] => none
  | first :: rest =>
      some
        { sessionId := sessionId
          firstRecordedAtMs := first.occurredAtMs
          lastRecordedAtMs :=
            (rest.getLastD first).occurredAtMs
          recordCount := rest.length + 1 }

def listSessions
    (store : InMemoryMemoryStore)
    (query : SessionListQuery) :
    List SessionSummary :=
  let sessions := store.inner.filterMap fun session =>
    summarize query session.1 session.2
  let sorted := Tables.orderBy (·.sessionId) sessions
  (sorted.drop query.offset).take query.limit

def listRecords
    (store : InMemoryMemoryStore)
    (query : RecordPageQuery) :
    RecordPage :=
  let filtered :=
    (store.recordsOf query.sessionId).filter fun record =>
      Tables.within query.sinceMs query.untilMs
        record.occurredAtMs
  let records :=
    (filtered.drop query.offset).take query.limit
  { sessionId := query.sessionId
    records := records
    nextOffset :=
      if query.offset + records.length < filtered.length then
        some (query.offset + records.length)
      else none }

def findOutcomeByIdempotencyKey
    (store : InMemoryMemoryStore)
    (sessionId idempotencyKey : String) :
    Option EngineOutcome :=
  RainEngine.findOutcomeByIdempotencyKey
    ((store.recordsOf sessionId).map (·.record))
    idempotencyKey

def findPendingApprovalByResumeToken
    (store : InMemoryMemoryStore)
    (sessionId : String)
    (resumeToken : ResumeToken) :
    Option PendingApprovalRecord :=
  RainEngine.findPendingApprovalByResumeToken
    ((store.recordsOf sessionId).map (·.record)) resumeToken

theorem recordsOf_insert
    (store : InMemoryMemoryStore)
    (stored : StoredSessionRecord)
    (sessionId : String) :
    (store.insert stored).recordsOf sessionId =
      if stored.sessionId = sessionId then
        store.recordsOf sessionId ++ [stored]
      else store.recordsOf sessionId :=
  store.inner.get_push stored sessionId

end InMemoryMemoryStore

end RainEngine.Stores
