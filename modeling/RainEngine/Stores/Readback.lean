import RainEngine.Serde.Records
import RainEngine.Stores.Logs

/-
  This file determines which records the table store reads
  back. A session can be loaded, with the records that were
  accepted for it, exactly when each of them survives being
  written and read: its floats are read as themselves, and its
  text is not nested too deeply.

  Key definitions include:
    * `SqliteMemoryStore.acceptAll`
    * `SqliteMemoryStore.ReadsBack`
    * `jsonFormat`
    * `Readable`

  Key theorems include:
    * `SqliteMemoryStore.readsBack_iff`
    * `jsonFormat_roundTrips_iff`
    * `readsBack_iff_readable`
-/

namespace RainEngine.Stores

------------------------------------------------------------
-- Accepted Records
------------------------------------------------------------

namespace SqliteMemoryStore

variable {Text : Type}
variable {format : PayloadFormat Text}
variable {store : SqliteMemoryStore Text}

/-
  Append records one after the other. A failed append changes
  nothing; the others return the record they have stored.
-/
def acceptAll
    (format : PayloadFormat Text) :
    SqliteMemoryStore Text → List NewSessionRecord →
      SqliteMemoryStore Text × List StoredSessionRecord
| store, [] => (store, [])
| store, record :: rest =>
    match store.appendRecord format record with
    | .error _ => acceptAll format store rest
    | .ok (stored, next) =>
        let (last, accepted) := acceptAll format next rest
        (last, stored :: accepted)

/- The accepted records of one session. -/
def acceptedFor
    (accepted : List StoredSessionRecord)
    (sessionId : String) :
    List StoredSessionRecord :=
  accepted.filter (·.sessionId = sessionId)

/- The session loads with what was accepted for it. -/
def ReadsBack
    (format : PayloadFormat Text)
    (store : SqliteMemoryStore Text)
    (accepted : List StoredSessionRecord)
    (sessionId : String) :
    Prop :=
  store.loadSession format sessionId =
    .ok
      { sessionId := sessionId
        records :=
          (acceptedFor accepted sessionId).map (·.record)
        lastSequenceNo :=
          (acceptedFor accepted sessionId).getLast?.map
            (·.sequenceNo)
        latestOutcome :=
          latestOutcome ((acceptedFor accepted
            sessionId).map (·.record)) }

------------------------------------------------------------
-- Written Rows
------------------------------------------------------------

/- The row was written for the record. -/
structure Written
    (format : PayloadFormat Text)
    (row : SessionRow Text)
    (stored : StoredSessionRecord) : Prop where
  sequenceNo : row.sequenceNo = stored.sequenceNo
  sessionId : row.sessionId = stored.sessionId
  payload :
    format.toText stored.record = .ok row.payloadJson

theorem appendRecord_ok
    {record : NewSessionRecord}
    {stored : StoredSessionRecord}
    {next : SqliteMemoryStore Text}
    (hAppend :
      store.appendRecord format record =
        .ok (stored, next)) :
    ∃ text, format.toText record.record = .ok text ∧
      stored = record.stored (store.sequence + 1) ∧
      next = store.insertRow record text := by
  unfold appendRecord at hAppend
  cases hText : format.toText record.record with
  | error error =>
      rw [hText] at hAppend
      cases hAppend
  | ok text =>
      rw [hText] at hAppend
      cases hAppend
      exact ⟨text, rfl, rfl, rfl⟩

/- Every row was written for an accepted record, in order. -/
theorem acceptAll_written
    {done : List StoredSessionRecord}
    (hNumbered : store.Numbered)
    (hWritten :
      List.Forall₂ (Written format) store.sessionRecords
        done)
    (appended : List NewSessionRecord) :
    (acceptAll format store appended).1.Numbered ∧
      List.Forall₂ (Written format)
        (acceptAll format store appended).1.sessionRecords
        (done ++ (acceptAll format store appended).2) := by
  induction appended generalizing store done with
  | nil =>
      unfold acceptAll
      rw [List.append_nil]
      exact ⟨hNumbered, hWritten⟩
  | cons record rest ih =>
      unfold acceptAll
      cases hAppend : store.appendRecord format record with
      | error error => exact ih hNumbered hWritten
      | ok result =>
          rcases result with ⟨stored, next⟩
          rcases appendRecord_ok hAppend with
            ⟨text, hText, hStored, hNext⟩
          have hNextNumbered : next.Numbered := by
            rw [hNext]
            exact hNumbered.insertRow record text
          have hNextWritten :
              List.Forall₂ (Written format)
                next.sessionRecords (done ++ [stored]) := by
            rw [hNext, hStored]
            apply List.rel_append hWritten
            exact .cons ⟨rfl, rfl, hText⟩ .nil
          have hRest := ih hNextNumbered hNextWritten
          rw [List.append_assoc] at hRest
          exact hRest

theorem readRecords_ok_iff
    {rows : List (SessionRow Text)}
    {accepted : List StoredSessionRecord}
    (hRows :
      List.Forall₂ (Written format) rows accepted) :
    readRecords format rows =
        .ok (accepted.map (·.record)) ↔
      ∀ stored ∈ accepted,
        format.RoundTrips stored.record := by
  induction hRows with
  | nil => simp [readRecords, pure, Except.pure]
  | @cons row stored rows accepted hRow hRest ih =>
      have hTrips :
          format.RoundTrips stored.record ↔
            format.fromText row.payloadJson =
              .ok stored.record := by
        unfold PayloadFormat.RoundTrips
        rw [hRow.payload]
        simp
      rw [List.forall_mem_cons, ← ih, hTrips]
      rw [readRecords]
      cases hRead : format.fromText row.payloadJson with
      | error error => simp [bind, Except.bind]
      | ok record =>
          cases hOthers : readRecords format rows with
          | error error => simp [bind, Except.bind]
          | ok records =>
              simp [bind, Except.bind, pure, Except.pure]

theorem getLast?_sequenceNo
    {rows : List (SessionRow Text)}
    {accepted : List StoredSessionRecord}
    (hRows :
      List.Forall₂ (Written format) rows accepted) :
    rows.getLast?.map (·.sequenceNo) =
      accepted.getLast?.map (·.sequenceNo) := by
  have hNumbers :
      rows.map (·.sequenceNo) =
        accepted.map (·.sequenceNo) := by
    induction hRows with
    | nil => rfl
    | cons hRow hRest ih =>
        rw [List.map_cons, List.map_cons, hRow.sequenceNo, ih]
  rw [← List.getLast?_map, ← List.getLast?_map, hNumbers]

/- A session loads when each of its records round trips. -/
theorem readsBack_iff
    {accepted : List StoredSessionRecord}
    (hNumbered : store.Numbered)
    (hWritten :
      List.Forall₂ (Written format) store.sessionRecords
        accepted)
    (sessionId : String) :
    ReadsBack format store accepted sessionId ↔
      ∀ stored ∈ accepted, stored.sessionId = sessionId →
        format.RoundTrips stored.record := by
  have hRows :
      List.Forall₂ (Written format)
        (store.sessionRecords.filter
          (·.sessionId = sessionId))
        (acceptedFor accepted sessionId) := by
    apply List.rel_filter _ hWritten
    intro row stored hRow
    simp [hRow.sessionId]
  have hTrips := readRecords_ok_iff hRows
  unfold acceptedFor at hTrips
  simp only [List.mem_filter, decide_eq_true_eq,
    and_imp] at hTrips
  rw [← hTrips]
  unfold ReadsBack loadSession
  rw [hNumbered.orderBy_filter, ← getLast?_sequenceNo hRows]
  dsimp only
  cases hRead : readRecords format
      (store.sessionRecords.filter
        (·.sessionId = sessionId)) with
  | error error => simp [bind, Except.bind]
  | ok records =>
      simp only [bind, Except.bind, pure, Except.pure,
        Except.ok.injEq, SessionSnapshot.mk.injEq, true_and]
      constructor
      · intro hSame
        exact hSame.1
      · intro hSame
        rw [hSame]
        exact ⟨rfl, rfl⟩

end SqliteMemoryStore

------------------------------------------------------------
-- JSON Text
------------------------------------------------------------

/-
  Records are written as JSON. A text that is nested deeper
  than the limit is rejected by the reader, and so is one
  that does not have the fields of a record.
-/
def jsonFormat
    (parse : ℚ → ℚ)
    (limit : Nat) :
    PayloadFormat Json where
  toText := fun record =>
    .ok (Codec.sessionRecord.encode record)
  fromText := fun text =>
    if text.depth ≤ limit then
      match Codec.sessionRecord.decode parse text with
      | none => .error ⟨"invalid record"⟩
      | some record => .ok record
    else .error ⟨"recursion limit exceeded"⟩

/- All floats are read back, and the nesting is allowed. -/
structure Readable
    (parse : ℚ → ℚ)
    (limit : Nat)
    (record : SessionRecord) : Prop where
  exact : Codec.sessionRecord.ExactOn parse record
  nested :
    (Codec.sessionRecord.encode record).depth ≤ limit

instance
    (parse : ℚ → ℚ)
    (limit : Nat) :
    DecidablePred (Readable parse limit) := fun record =>
  decidable_of_iff
    (Codec.sessionRecord.ExactOn parse record ∧
      (Codec.sessionRecord.encode record).depth ≤ limit)
    ⟨fun h => ⟨h.1, h.2⟩, fun h => ⟨h.exact, h.nested⟩⟩

theorem jsonFormat_roundTrips_iff
    {parse : ℚ → ℚ}
    {limit : Nat}
    {record : SessionRecord} :
    (jsonFormat parse limit).RoundTrips record ↔
      Readable parse limit record := by
  have hLaw := Codec.sessionRecord.lawful parse record
  unfold PayloadFormat.RoundTrips jsonFormat
  simp only [Except.ok.injEq, exists_eq_left']
  constructor
  · intro hTrips
    by_cases hNested :
        (Codec.sessionRecord.encode record).depth ≤ limit
    · rw [if_pos hNested] at hTrips
      cases hDecode : Codec.sessionRecord.decode parse
          (Codec.sessionRecord.encode record) with
      | none =>
          rw [hDecode] at hTrips
          cases hTrips
      | some other =>
          rw [hDecode] at hTrips
          cases hTrips
          exact ⟨hLaw.mp hDecode, hNested⟩
    · rw [if_neg hNested] at hTrips
      cases hTrips
  · intro hReadable
    rw [if_pos hReadable.nested,
      hLaw.mpr hReadable.exact]

/- Every append of a record as JSON is accepted. -/
theorem acceptAll_jsonFormat
    {parse : ℚ → ℚ}
    {limit : Nat}
    (store : SqliteMemoryStore Json)
    (appended : List NewSessionRecord) :
    (store.acceptAll (jsonFormat parse limit)
      appended).2.map (·.entry) = appended := by
  induction appended generalizing store with
  | nil => rfl
  | cons record rest ih =>
      have hRest := ih (store.insertRow record
        (Codec.sessionRecord.encode record.record))
      exact congrArg (record :: ·) hRest

/-
  A session loads with what was accepted for it exactly when
  all of its records are readable.
-/
theorem readsBack_iff_readable
    (parse : ℚ → ℚ)
    (limit : Nat)
    (sequence : Int)
    (appended : List NewSessionRecord)
    (sessionId : String) :
    let result :=
      SqliteMemoryStore.acceptAll (jsonFormat parse limit)
        { sequence := sequence } appended
    result.1.ReadsBack (jsonFormat parse limit) result.2
        sessionId ↔
      ∀ record ∈ appended, record.sessionId = sessionId →
        Readable parse limit record.record := by
  intro result
  have hWritten : result.1.Numbered ∧
      List.Forall₂
        (SqliteMemoryStore.Written (jsonFormat parse limit))
        result.1.sessionRecords ([] ++ result.2) :=
    SqliteMemoryStore.acceptAll_written
      (SqliteMemoryStore.numbered_empty sequence) .nil
      appended
  have hEntries : result.2.map (·.entry) = appended :=
    acceptAll_jsonFormat { sequence := sequence } appended
  have hReads := SqliteMemoryStore.readsBack_iff hWritten.1
    hWritten.2 sessionId
  rw [List.nil_append] at hReads
  rw [hReads, ← hEntries, List.forall_mem_map]
  simp only [jsonFormat_roundTrips_iff]
  rfl

/- The value inside `n` arrays. -/
def nested : Nat → Json
| 0 => .null
| n + 1 => .array [nested n]

/- A webhook of a session with a payload. -/
def webhookRecord (payload : Json) : NewSessionRecord :=
  .fromRecord "session" 0
    (.trigger
      { triggerId := "trigger"
        sessionId := "session"
        idempotencyKey := none
        trigger := .webhook "source" payload []
        intent := none })

/- A tuning that was made under an unlimited budget. -/
def unlimitedTuning : NewSessionRecord :=
  let policy : EnginePolicy :=
    { EnginePolicy.default with maxCostPerSession := .posInf }
  .fromRecord "session" 0
    (.policyTuning
      { tuningId := "tuning"
        overlay :=
          { overlayId := "overlay"
            status := .applied
            reason := "reason"
            evidenceWindowRecords := 1
            patch := {}
            confidence := .finite 1
            rollbackCondition := "condition" }
        action := .applied
        priorPolicy := policy
        projectedPolicy := policy })

/- Two appends to a session that is loaded afterwards. -/
def loadAfter (record : NewSessionRecord) :
    Nat × Except MemoryError SessionSnapshot :=
  let result :=
    SqliteMemoryStore.acceptAll (jsonFormat id 128) {}
      [webhookRecord .null, record]
  (result.2.length,
    result.1.loadSession (jsonFormat id 128) "session")

set_option maxRecDepth 100000 in
/- One accepted record makes the session unreadable. -/
theorem accepted_record_unreadable :
    loadAfter (webhookRecord (nested 125)) =
        (2, .error ⟨"recursion limit exceeded"⟩) ∧
      loadAfter unlimitedTuning =
        (2, .error ⟨"invalid record"⟩) := by
  constructor
  · rfl
  · rfl

end RainEngine.Stores
