import RainEngine.Logs.Watching
import RainEngine.Stores.Appenders
import RainEngine.Stores.Readback
import RainEngine.Transitions.Reaches

/-
  This file is about the event stream of a session. The stream
  loads the session again and again, and sends the events of
  its views when the last sequence number is another one than
  before. Over the store in memory it follows the session even
  if appends overtake each other; over a table it catches up
  exactly as long as every record is read back.

  Key definitions include:
    * `streamEvents`
    * `SessionStream.round`
    * `SessionStream.events`
    * `ClientHolds`
    * `SendsNews`
    * `StreamState.step`
    * `Streamed`

  Key theorems include:
    * `clientHolds_iff`
    * `Tracks.round`
    * `stream_follows_session`
    * `table_stream_catches_up_iff`
-/

namespace RainEngine.Runtime

open Logs (Watcher newestKey Outgrown)
open Stores
open Transitions (Reaches follow follow_reaches)

------------------------------------------------------------
-- The Stream Of A Session
------------------------------------------------------------

/-
  The texts of what is sent of a snapshot. What cannot be
  serialized is not sent.
-/
structure StreamTexts where
  sessionView : Stores.SessionSnapshot → Option String
  executionGraph : Stores.SessionSnapshot → Option String
  selfImprovement : Stores.SessionSnapshot → Option String
  pendingApproval : Stores.SessionSnapshot → Option String
  wakeHistory : Stores.SessionSnapshot → Option String
  records : List SessionRecord → Option String

structure StreamEvent where
  event : String
  data : String

/- The views that are sent of a snapshot, in their order. -/
def StreamTexts.views
    (texts : StreamTexts) :
    List (String × (Stores.SessionSnapshot → Option String)) :=
  [("session_view", texts.sessionView),
    ("execution_graph", texts.executionGraph),
    ("learning", texts.selfImprovement),
    ("approval", texts.pendingApproval),
    ("wake", texts.wakeHistory),
    ("records", fun snapshot => texts.records snapshot.records)]

/- The events that are sent of a snapshot. -/
def streamEvents
    (texts : StreamTexts)
    (snapshot : Stores.SessionSnapshot) :
    List StreamEvent :=
  texts.views.filterMap fun view =>
    (view.2 snapshot).map (StreamEvent.mk view.1)

/- The last number, and the snapshots whose events were sent. -/
structure SessionStream where
  lastSeq : Option Int := none
  sent : List Stores.SessionSnapshot := []

namespace SessionStream

/- One round of the loop: what the store answers, and on. -/
def round
    (stream : SessionStream) :
    Except MemoryError Stores.SessionSnapshot → SessionStream
| .error _ => stream
| .ok snapshot =>
    if snapshot.lastSequenceNo = stream.lastSeq then stream
    else
      { lastSeq := snapshot.lastSequenceNo
        sent := stream.sent ++ [snapshot] }

/- What a client of the stream receives. -/
def events
    (texts : StreamTexts)
    (stream : SessionStream) :
    List StreamEvent :=
  stream.sent.flatMap (streamEvents texts)

end SessionStream

/- The records that a client has been sent last. -/
def SessionStream.shownRecords
    (stream : SessionStream) :
    List SessionRecord :=
  (stream.sent.getLast?.map (·.records)).getD []

------------------------------------------------------------
-- What A Client Holds
------------------------------------------------------------

/- The texts of the events of one kind. -/
def textsOf
    (event : String)
    (events : List StreamEvent) :
    List String :=
  (events.filter (·.event = event)).map (·.data)

/- The records of the last event of them, and at first none. -/
def heldText
    (texts : StreamTexts)
    (events : List StreamEvent) :
    Option String :=
  (textsOf "records" events).getLast?.or (texts.records [])

/-
  However records are written, the client holds the text of
  these after the events it has received.
-/
def ClientHolds
    (stream : SessionStream)
    (records : List SessionRecord) :
    Prop :=
  ∀ texts : StreamTexts,
    (∀ others, (texts.records others).isSome) →
      heldText texts (stream.events texts) =
        texts.records records

/-
  A round sends the events of the session if the client does
  not hold its records, and nothing if it does.
-/
structure SendsNews
    (texts : StreamTexts)
    (snapshot : Stores.SessionSnapshot)
    (stream stream' : SessionStream) : Prop where
  held : ClientHolds stream snapshot.records →
    stream'.events texts = stream.events texts
  news : ¬ClientHolds stream snapshot.records →
    stream'.events texts =
      stream.events texts ++ streamEvents texts snapshot

/-
  What was sent are parts of the session, each grown out of
  the parts before it, no more of them than records, and in
  at most six events each.
-/
structure Streamed
    (texts : StreamTexts)
    (stream : SessionStream)
    (records : List SessionRecord) : Prop where
  parts :
    ∀ snapshot ∈ stream.sent, snapshot.records <+: records
  growing :
    stream.sent.Pairwise fun early late =>
      Outgrown early.records late.records
  bounded : stream.sent.length ≤ records.length
  few : (stream.events texts).length ≤ 6 * records.length

section Clients

variable {texts : StreamTexts}
variable {stream : SessionStream}
variable {snapshot : Stores.SessionSnapshot}
variable {records : List SessionRecord}

theorem textsOf_append
    (event : String)
    (early late : List StreamEvent) :
    textsOf event (early ++ late) =
      textsOf event early ++ textsOf event late := by
  unfold textsOf
  rw [List.filter_append, List.map_append]

/- The events of a snapshot have the texts of its views. -/
theorem textsOf_streamEvents
    (event : String)
    (texts : StreamTexts)
    (snapshot : Stores.SessionSnapshot) :
    textsOf event (streamEvents texts snapshot) =
      (texts.views.filter (·.1 = event)).filterMap
        (·.2 snapshot) := by
  unfold textsOf streamEvents
  induction texts.views with
  | nil => rfl
  | cons view rest ih =>
      by_cases hEvent : view.1 = event <;>
        cases hText : view.2 snapshot <;>
          simp_all

theorem textsOf_records
    (texts : StreamTexts)
    (snapshot : Stores.SessionSnapshot) :
    textsOf "records" (streamEvents texts snapshot) =
      (texts.records snapshot.records).toList := by
  rw [textsOf_streamEvents]
  change [_].filterMap _ = _
  cases hText : texts.records snapshot.records <;>
    simp [hText]

theorem streamEvents_length
    (texts : StreamTexts)
    (snapshot : Stores.SessionSnapshot) :
    (streamEvents texts snapshot).length ≤ 6 :=
  List.length_filterMap_le _ texts.views

theorem SessionStream.events_length
    (texts : StreamTexts)
    (stream : SessionStream) :
    (stream.events texts).length ≤ 6 * stream.sent.length := by
  unfold SessionStream.events
  induction stream.sent with
  | nil => exact Nat.zero_le _
  | cons snapshot rest ih =>
      have hFirst := streamEvents_length texts snapshot
      rw [List.flatMap_cons, List.length_append,
        List.length_cons]
      omega

/- The client holds what was sent last. -/
theorem heldText_events
    (hTexts : ∀ others, (texts.records others).isSome) :
    heldText texts (stream.events texts) =
      texts.records stream.shownRecords := by
  unfold heldText SessionStream.events
    SessionStream.shownRecords
  rcases List.eq_nil_or_concat stream.sent with
    hNil | ⟨early, last, hSnoc⟩
  · rw [hNil]
    rfl
  · rcases Option.isSome_iff_exists.mp
      (hTexts last.records) with ⟨text, hText⟩
    rw [hSnoc, List.concat_eq_append, List.flatMap_append,
      textsOf_append, List.flatMap_singleton, textsOf_records,
      hText]
    simp [hText]

/- Texts that tell some records from all other ones. -/
noncomputable def tellingTexts
    (records : List SessionRecord) :
    StreamTexts :=
  open scoped Classical in
  { sessionView := fun _ => none
    executionGraph := fun _ => none
    selfImprovement := fun _ => none
    pendingApproval := fun _ => none
    wakeHistory := fun _ => none
    records := fun others =>
      some (if others = records then "these" else "others") }

/- The client holds exactly the records that were sent last. -/
theorem clientHolds_iff :
    ClientHolds stream records ↔
      stream.shownRecords = records := by
  constructor
  · intro hHolds
    have hTexts :
        ∀ others,
          ((tellingTexts records).records others).isSome :=
      fun _ => rfl
    have hTold := hHolds (tellingTexts records) hTexts
    rw [heldText_events hTexts] at hTold
    by_contra hOther
    unfold tellingTexts at hTold
    simp [hOther] at hTold
  · intro hShown texts hTexts
    rw [heldText_events hTexts, hShown]

end Clients

------------------------------------------------------------
-- The Stream As A Watcher
------------------------------------------------------------

section Tracking

variable {ρ : Type}
variable {Loads : Stores.SessionSnapshot → List ρ → Prop}
variable {number : ρ → Int}
variable {stream : SessionStream}
variable {snapshot : Stores.SessionSnapshot}
variable {rows rows' : List ρ}

/- The stream has sent what a watcher of the rows has shown. -/
def Tracks
    (Loads : Stores.SessionSnapshot → List ρ → Prop)
    (number : ρ → Int)
    (stream : SessionStream)
    (rows : List ρ) :
    Prop :=
  ∃ w : Watcher ρ Int,
    stream.lastSeq = w.seen ∧
      List.Forall₂ Loads stream.sent w.shown ∧
        w.Follows number rows

/- The stream has sent what the watcher has shown. -/
def Mirrors
    (Loads : Stores.SessionSnapshot → List ρ → Prop)
    (stream : SessionStream)
    (w : Watcher ρ Int) :
    Prop :=
  stream.lastSeq = w.seen ∧
    List.Forall₂ Loads stream.sent w.shown

/- A round over a session that loads is a look at its rows. -/
theorem Mirrors.round
    {w : Watcher ρ Int}
    (hMirrors : Mirrors Loads stream w)
    (hNumber :
      snapshot.lastSequenceNo = newestKey number rows)
    (hLoads : Loads snapshot rows) :
    Mirrors Loads (stream.round (.ok snapshot))
      (w.look number rows) := by
  rcases hMirrors with ⟨hSeen, hSent⟩
  unfold SessionStream.round Watcher.look
  dsimp only
  rw [hSeen, hNumber]
  split
  · exact ⟨hSeen, hSent⟩
  · exact ⟨rfl, List.rel_append hSent (.cons hLoads .nil)⟩

/- A snapshot carries the number of its newest row. -/
def TellsNewest
    (Loads : Stores.SessionSnapshot → List ρ → Prop)
    (number : ρ → Int) :
    Prop :=
  ∀ snapshot rows, Loads snapshot rows →
    snapshot.lastSequenceNo = newestKey number rows

/- Lists that are related item by item end alike. -/
theorem getLast?_related
    {snapshots : List Stores.SessionSnapshot}
    {parts : List (List ρ)}
    (hRelated : List.Forall₂ Loads snapshots parts) :
    Option.Rel Loads snapshots.getLast? parts.getLast? := by
  rw [List.getLast?_eq_head?_reverse,
    List.getLast?_eq_head?_reverse]
  have hReversed := List.rel_reverse hRelated
  generalize snapshots.reverse = early at hReversed ⊢
  generalize parts.reverse = late at hReversed ⊢
  cases hReversed with
  | nil => exact .none
  | cons hHead _ => exact .some hHead

theorem tracks_nothing : Tracks Loads number {} rows :=
  ⟨{}, rfl, .nil, Logs.follows_nothing number rows⟩

theorem Tracks.extend
    (hTracks : Tracks Loads number stream rows)
    (hGrows : rows <+: rows') :
    Tracks Loads number stream rows' := by
  rcases hTracks with ⟨w, hSeen, hSent, hFollows⟩
  exact ⟨w, hSeen, hSent, hFollows.extend hGrows⟩

/- A session that loads has been sent after the round. -/
theorem Tracks.round
    (hTracks : Tracks Loads number stream rows)
    (hTells : TellsNewest Loads number)
    (hKeys : (rows.map number).Nodup)
    (hLoads : Loads snapshot rows) :
    Tracks Loads number (stream.round (.ok snapshot)) rows ∧
      ∃ shown,
        Option.Rel Loads
            (stream.round (.ok snapshot)).sent.getLast?
            shown ∧
          shown.getD [] = rows := by
  rcases hTracks with ⟨w, hSeen, hSent, hFollows⟩
  have hNumber := hTells snapshot rows hLoads
  rcases Mirrors.round ⟨hSeen, hSent⟩ hNumber hLoads with
    ⟨hSeenNext, hSentNext⟩
  rcases hFollows.look hKeys with ⟨hNext, hShown⟩
  exact ⟨⟨_, hSeenNext, hSentNext, hNext⟩, _,
    getLast?_related hSentNext, hShown⟩

end Tracking

------------------------------------------------------------
-- Streams Over The Store In Memory
------------------------------------------------------------

/- The appends to a store in memory, and one stream. -/
structure StreamState where
  ledger : LedgerState := {}
  stream : SessionStream := {}

inductive StreamAction where
  | store (action : LedgerAction)
  | look

/- A section of an append, or a round of the stream. -/
def StreamState.step
    (sessionId : String)
    (s : StreamState) :
    StreamAction → Option StreamState
| .store action =>
    (s.ledger.step action).map fun ledger =>
      { s with ledger := ledger }
| .look =>
    some
      { s with
        stream := s.stream.round
          (.ok (s.ledger.store.loadSession sessionId)) }

/- The records of the session that is streamed. -/
def StreamState.records
    (s : StreamState)
    (sessionId : String) :
    List SessionRecord :=
  (s.ledger.store.recordsOf sessionId).map (·.record)

/- No number is used twice in a session. -/
structure Unrepeated (s : LedgerState) : Prop where
  stored : ∀ sessionId,
    ((s.store.recordsOf sessionId).map (·.sequenceNo)).Nodup
  waiting : ∀ sessionId,
    ∀ stored ∈ s.store.recordsOf sessionId,
      ∀ other ∈ s.pending,
        stored.sequenceNo ≠ other.sequenceNo

theorem unrepeated_start : Unrepeated {} where
  stored := fun _ => .nil
  waiting := by simp

theorem Unrepeated.step
    {s s' : LedgerState}
    {action : LedgerAction}
    (hUnrepeated : Unrepeated s)
    (hNumbered : Stores.Numbered s)
    (hStep : s.step action = some s') :
    Unrepeated s' := by
  rcases LedgerState.step_cases hStep with hTake | hInsert
  · rcases hTake with ⟨record, _, hNext⟩
    subst hNext
    refine ⟨hUnrepeated.stored, ?_⟩
    intro sessionId stored hStored other hOther
    rcases List.mem_append.mp hOther with hOld | hNew
    · exact hUnrepeated.waiting sessionId stored hStored
        other hOld
    · rw [List.mem_singleton.mp hNew]
      have hBelow :=
        hNumbered.recorded sessionId stored hStored
      change stored.sequenceNo ≠ s.store.nextSequenceNo + 1
      omega
  · rcases hInsert with ⟨inserted, hInserted, _, _, hNext⟩
    subst hNext
    have hRecords := InMemoryMemoryStore.recordsOf_insert
      s.store inserted
    constructor
    · intro sessionId
      rw [hRecords]
      split
      · rw [List.map_append, List.nodup_append]
        refine ⟨hUnrepeated.stored sessionId,
          List.nodup_singleton _, ?_⟩
        intro early hEarly late hLate
        rcases List.mem_map.mp hEarly with
          ⟨stored, hStored, rfl⟩
        rw [List.map_singleton, List.mem_singleton] at hLate
        rw [hLate]
        exact hUnrepeated.waiting sessionId stored hStored
          inserted hInserted
      · exact hUnrepeated.stored sessionId
    · intro sessionId stored hStored other hOther
      rcases List.mem_filter.mp hOther with ⟨hPending, hApart⟩
      rw [hRecords] at hStored
      split at hStored
      · rcases List.mem_append.mp hStored with hOld | hNew
        · exact hUnrepeated.waiting sessionId stored hOld
            other hPending
        · rw [List.mem_singleton.mp hNew]
          have hOther :
              other.sequenceNo ≠ inserted.sequenceNo := by
            simpa using hApart
          exact hOther.symm
      · exact hUnrepeated.waiting sessionId stored hStored
          other hPending

section Memory

variable {sessionId : String}
variable {s s' : StreamState}
variable {trace : List (StreamState × StreamAction)}
variable {action : StreamAction}

/- The snapshot is that of the rows. -/
def ShowsRows
    (snapshot : Stores.SessionSnapshot)
    (rows : List StoredSessionRecord) :
    Prop :=
  snapshot.records = rows.map (·.record) ∧
    snapshot.lastSequenceNo = newestKey (·.sequenceNo) rows

theorem showsRows_tells :
    TellsNewest ShowsRows (·.sequenceNo) :=
  fun _ _ hShows => hShows.2

/- What a stream keeps over a store in memory. -/
structure Streaming
    (sessionId : String)
    (s : StreamState) : Prop where
  numbered : Stores.Numbered s.ledger
  unrepeated : Unrepeated s.ledger
  tracks : Tracks ShowsRows (·.sequenceNo) s.stream
    (s.ledger.store.recordsOf sessionId)

theorem streaming_start : Streaming sessionId {} where
  numbered := numbered_start
  unrepeated := unrepeated_start
  tracks := tracks_nothing

/- A round over a store in memory catches up. -/
theorem Streaming.look
    (hStreaming : Streaming sessionId s)
    (hStep : s.step sessionId .look = some s') :
    Streaming sessionId s' ∧
      ClientHolds s'.stream (s'.records sessionId) := by
  cases hStep
  have hLoads :
      ShowsRows (s.ledger.store.loadSession sessionId)
        (s.ledger.store.recordsOf sessionId) :=
    ⟨rfl, rfl⟩
  rcases hStreaming.tracks.round showsRows_tells
      (hStreaming.unrepeated.stored sessionId) hLoads with
    ⟨hTracks, hShown⟩
  refine ⟨⟨hStreaming.numbered, hStreaming.unrepeated,
    hTracks⟩, ?_⟩
  rcases hShown with ⟨shown, hRelated, hRows⟩
  rw [clientHolds_iff]
  unfold SessionStream.shownRecords StreamState.records
  dsimp only
  rw [← hRows]
  generalize (s.stream.round _).sent.getLast? = newest
    at hRelated ⊢
  cases hRelated with
  | none => rfl
  | some hShows => exact hShows.1

/- Everything the stream depends on is kept by each step. -/
theorem Streaming.step
    (hStreaming : Streaming sessionId s)
    (hStep : s.step sessionId action = some s') :
    Streaming sessionId s' := by
  cases action with
  | look => exact (hStreaming.look hStep).1
  | store action =>
      unfold StreamState.step at hStep
      rw [Option.map_eq_some_iff] at hStep
      rcases hStep with ⟨ledger, hLedger, rfl⟩
      exact
        { numbered := hStreaming.numbered.step hLedger
          unrepeated :=
            hStreaming.unrepeated.step hStreaming.numbered
              hLedger
          tracks := hStreaming.tracks.extend
            (LedgerState.recordsOf_prefix hLedger sessionId) }

/- Whatever has been sent are parts of the session. -/
theorem Streaming.streamed
    (texts : StreamTexts)
    (hStreaming : Streaming sessionId s) :
    Streamed texts s.stream (s.records sessionId) := by
  rcases hStreaming.tracks with
    ⟨w, _, hSent, hFollows⟩
  have hRecords :
      s.stream.sent.map (·.records) =
        w.shown.map (·.map (·.record)) := by
    rw [← List.forall₂_eq_eq_eq, List.forall₂_map_left_iff,
      List.forall₂_map_right_iff]
    exact hSent.imp fun _ _ hShows => hShows.1
  have hLength := congrArg List.length hRecords
  rw [List.length_map, List.length_map] at hLength
  have hBounded :
      s.stream.sent.length ≤ (s.records sessionId).length := by
    unfold StreamState.records
    rw [hLength, List.length_map]
    exact hFollows.shown_length
  refine
    { parts := ?_
      growing := ?_
      bounded := hBounded
      few := (s.stream.events_length texts).trans
        (Nat.mul_le_mul_left 6 hBounded) }
  · intro snapshot hMem
    have hShown : snapshot.records ∈
        w.shown.map (·.map (·.record)) := by
      rw [← hRecords]
      exact List.mem_map_of_mem hMem
    rcases List.mem_map.mp hShown with ⟨part, hPart, hSame⟩
    rw [← hSame]
    exact (hFollows.parts part hPart).map _
  · have hGrowing :
        (s.stream.sent.map (·.records)).Pairwise Outgrown := by
      rw [hRecords, List.pairwise_map]
      exact hFollows.growing.imp fun hGrown => hGrown.map _
    exact List.pairwise_map.mp hGrowing

/- A round either sends the session as it is, or nothing. -/
theorem SessionStream.round_cases
    (stream : SessionStream)
    (snapshot : Stores.SessionSnapshot) :
    stream.round (.ok snapshot) = stream ∨
      (stream.round (.ok snapshot)).sent =
        stream.sent ++ [snapshot] := by
  unfold SessionStream.round
  dsimp only
  split
  · exact .inl rfl
  · exact .inr rfl

/- Nothing is sent again to a client that holds the session. -/
theorem Streaming.sendsNews
    (texts : StreamTexts)
    (hStreaming : Streaming sessionId s)
    (hStep : s.step sessionId .look = some s') :
    SendsNews texts (s.ledger.store.loadSession sessionId)
      s.stream s'.stream := by
  have hAfter := hStreaming.look hStep
  have hStreamed := hAfter.1.streamed texts
  cases hStep
  dsimp only at hAfter hStreamed ⊢
  rcases s.stream.round_cases
      (s.ledger.store.loadSession sessionId) with hSame | hSent
  · refine ⟨fun _ => by rw [hSame], ?_⟩
    intro hMissing
    rw [hSame] at hAfter
    exact absurd hAfter.2 hMissing
  · constructor
    · -- then the same records would have been sent twice
      intro hHeld
      rw [clientHolds_iff] at hHeld
      exfalso
      have hGrowing := hStreamed.growing
      have hBounded := hStreamed.bounded
      rw [hSent] at hGrowing hBounded
      rcases List.eq_nil_or_concat s.stream.sent with
        hNil | ⟨early, last, hSnoc⟩
      · unfold SessionStream.shownRecords at hHeld
        rw [hNil] at hHeld hBounded
        change [] = s.records sessionId at hHeld
        change 1 ≤ (s.records sessionId).length at hBounded
        rw [← hHeld] at hBounded
        exact absurd hBounded (Nat.not_succ_le_zero 0)
      · rw [List.concat_eq_append] at hSnoc
        have hLast : s.stream.shownRecords = last.records := by
          unfold SessionStream.shownRecords
          simp [hSnoc]
        have hGrown := (List.pairwise_append.mp hGrowing).2.2
          last (by simp [hSnoc]) _ (List.mem_singleton_self _)
        exact hGrown.2 (hLast.symm.trans hHeld)
    · intro _
      unfold SessionStream.events
      rw [hSent, List.flatMap_append, List.flatMap_singleton]

/-
  In whatever order the appends take their numbers and insert,
  a client of the stream has received parts of the session,
  each grown out of the one before, and never more than six
  events a record. When the stream looks at the session, it
  sends the events of the session as it is if the client does
  not hold its records, and nothing if it does; the client
  then holds them.
-/
theorem stream_follows_session
    (texts : StreamTexts)
    (hReach : Reaches (StreamState.step sessionId) {} trace
      s) :
    Streamed texts s.stream (s.records sessionId) ∧
      ∀ s', s.step sessionId .look = some s' →
        SendsNews texts
            (s.ledger.store.loadSession sessionId)
            s.stream s'.stream ∧
          ClientHolds s'.stream (s'.records sessionId) := by
  have hStreaming : Streaming sessionId s :=
    hReach.always streaming_start
      fun _ _ _ hHere hStep => hHere.step hStep
  exact ⟨hStreaming.streamed texts,
    fun s' hStep => ⟨hStreaming.sendsNews texts hStep,
      (hStreaming.look hStep).2⟩⟩

end Memory

namespace Sample

/- The second append overtakes the first, with looks between. -/
def overtaken : List StreamAction :=
  [.store (.takeNumber (Stores.Sample.claim "a")),
    .store (.takeNumber (Stores.Sample.claim "b")),
    .store (.insert 2), .look, .look, .store (.insert 1),
    .look]

def overtakenRun :
    List (StreamState × StreamAction) × StreamState :=
  follow (StreamState.step "session") [] {} overtaken

/- Every view is shown as the number of its records. -/
def countTexts : StreamTexts where
  sessionView := fun s => some (toString s.records.length)
  executionGraph := fun s => some (toString s.records.length)
  selfImprovement := fun s => some (toString s.records.length)
  pendingApproval := fun s => some (toString s.records.length)
  wakeHistory := fun s => some (toString s.records.length)
  records := fun records => some (toString records.length)

end Sample

/- Both records are sent, the overtaken one as well. -/
theorem stream_follows_overtaken :
    Streamed Sample.countTexts Sample.overtakenRun.2.stream
        (Sample.overtakenRun.2.records "session") ∧
      (Sample.overtakenRun.2.stream.events
        Sample.countTexts).length = 12 :=
  ⟨(stream_follows_session Sample.countTexts
    (follow_reaches Sample.overtaken .start)).1, by decide⟩

------------------------------------------------------------
-- Streams Over A Table
------------------------------------------------------------

/-
  A table, the records whose appends it has accepted, and one
  stream.
-/
structure TableStreamState (Text : Type) where
  store : SqliteMemoryStore Text := {}
  accepted : List StoredSessionRecord := []
  stream : SessionStream := {}

inductive TableStreamAction where
  | append (record : NewSessionRecord)
  | look

/- An append that fails changes nothing, as a failed load. -/
def TableStreamState.step
    {Text : Type}
    (format : PayloadFormat Text)
    (sessionId : String)
    (s : TableStreamState Text) :
    TableStreamAction → Option (TableStreamState Text)
| .append record =>
    match s.store.appendRecord format record with
    | .error _ => some s
    | .ok (stored, store) =>
        some
          { s with
            store := store
            accepted := s.accepted ++ [stored] }
| .look =>
    some
      { s with
        stream := s.stream.round
          (s.store.loadSession format sessionId) }

section Tables

variable {Text : Type}
variable {format : PayloadFormat Text}
variable {sessionId : String}
variable {s s' : TableStreamState Text}
variable
  {trace : List (TableStreamState Text × TableStreamAction)}
variable {action : TableStreamAction}

/- The rows of the session that is streamed. -/
def TableStreamState.rows
    (s : TableStreamState Text)
    (sessionId : String) :
    List (SessionRow Text) :=
  s.store.sessionRecords.filter (·.sessionId = sessionId)

/- The accepted records of the session that is streamed. -/
def TableStreamState.records
    (s : TableStreamState Text)
    (sessionId : String) :
    List SessionRecord :=
  (SqliteMemoryStore.acceptedFor s.accepted sessionId).map
    (·.record)

/- The snapshot has been read back from the rows. -/
def ReadFrom
    (format : PayloadFormat Text)
    (snapshot : Stores.SessionSnapshot)
    (rows : List (SessionRow Text)) :
    Prop :=
  SqliteMemoryStore.readRecords format rows =
      .ok snapshot.records ∧
    snapshot.lastSequenceNo = newestKey (·.sequenceNo) rows

theorem readFrom_tells :
    TellsNewest (ReadFrom format) (·.sequenceNo) :=
  fun _ _ hRead => hRead.2

/- What was sent last was read from what was shown last. -/
theorem read_shown
    {stream : SessionStream}
    {shown : Option (List (SessionRow Text))}
    (hRelated :
      Option.Rel (ReadFrom format) stream.sent.getLast?
        shown) :
    SqliteMemoryStore.readRecords format (shown.getD []) =
      .ok stream.shownRecords := by
  unfold SessionStream.shownRecords
  generalize stream.sent.getLast? = newest at hRelated ⊢
  cases hRelated with
  | none => rfl
  | some hRead => exact hRead.1

/- What a stream keeps over a table. -/
structure TableStreaming
    (format : PayloadFormat Text)
    (sessionId : String)
    (s : TableStreamState Text) : Prop where
  numbered : s.store.Numbered
  written :
    List.Forall₂ (SqliteMemoryStore.Written format)
      s.store.sessionRecords s.accepted
  tracks : Tracks (ReadFrom format) (·.sequenceNo) s.stream
    (s.rows sessionId)

theorem tableStreaming_start :
    TableStreaming format sessionId {} where
  numbered := SqliteMemoryStore.numbered_empty 0
  written := .nil
  tracks := tracks_nothing

theorem TableStreaming.keys
    (hStreaming : TableStreaming format sessionId s) :
    ((s.rows sessionId).map (·.sequenceNo)).Nodup := by
  rw [List.Nodup, List.pairwise_map]
  refine (hStreaming.numbered.increasing.filter _).imp ?_
  intro early late hLess
  exact Int.ne_of_lt hLess

/- The snapshot that is read back from the rows. -/
def snapshotOfRows
    (sessionId : String)
    (rows : List (SessionRow Text))
    (records : List SessionRecord) :
    Stores.SessionSnapshot where
  sessionId := sessionId
  records := records
  lastSequenceNo := newestKey (·.sequenceNo) rows
  latestOutcome := latestOutcome records

theorem TableStreaming.loadSession_eq
    (hStreaming : TableStreaming format sessionId s) :
    s.store.loadSession format sessionId =
      (SqliteMemoryStore.readRecords format
        (s.rows sessionId)).map
          (snapshotOfRows sessionId (s.rows sessionId)) := by
  unfold SqliteMemoryStore.loadSession
  rw [hStreaming.numbered.orderBy_filter]
  change (SqliteMemoryStore.readRecords format
    (s.rows sessionId) >>= _) = _
  cases SqliteMemoryStore.readRecords format
      (s.rows sessionId) with
  | error error => rfl
  | ok records => rfl

theorem TableStreaming.append
    {stored : StoredSessionRecord}
    {record : NewSessionRecord}
    {store : SqliteMemoryStore Text}
    (hStreaming : TableStreaming format sessionId s)
    (hAppend :
      s.store.appendRecord format record =
        .ok (stored, store)) :
    TableStreaming format sessionId
      { s with
        store := store
        accepted := s.accepted ++ [stored] } := by
  rcases SqliteMemoryStore.appendRecord_ok hAppend with
    ⟨text, hText, rfl, rfl⟩
  refine
    { numbered := hStreaming.numbered.insertRow record text
      written := ?_
      tracks := hStreaming.tracks.extend ?_ }
  · apply List.rel_append hStreaming.written
    exact .cons ⟨rfl, rfl, hText⟩ .nil
  · unfold TableStreamState.rows SqliteMemoryStore.insertRow
    dsimp only
    rw [List.filter_append]
    exact List.prefix_append _ _

/- A round sends what is read back from all the rows. -/
theorem TableStreaming.look
    (hStreaming : TableStreaming format sessionId s)
    (hStep : s.step format sessionId .look = some s') :
    TableStreaming format sessionId s' ∧
      ∀ records,
        SqliteMemoryStore.readRecords format
            (s.rows sessionId) = .ok records →
          s'.stream.shownRecords = records := by
  cases hStep
  rw [hStreaming.loadSession_eq]
  cases hRead : SqliteMemoryStore.readRecords format
      (s.rows sessionId) with
  | error error =>
      refine ⟨⟨hStreaming.numbered, hStreaming.written,
        hStreaming.tracks⟩, ?_⟩
      rintro records ⟨⟩
  | ok records =>
      have hLoads :
          ReadFrom format
            (snapshotOfRows sessionId (s.rows sessionId)
              records)
            (s.rows sessionId) :=
        ⟨hRead, rfl⟩
      rcases hStreaming.tracks.round readFrom_tells
          hStreaming.keys hLoads with ⟨hTracks, hShown⟩
      refine ⟨⟨hStreaming.numbered, hStreaming.written,
        hTracks⟩, ?_⟩
      rintro _ ⟨⟩
      rcases hShown with ⟨shown, hRelated, hRows⟩
      have hShownRead := read_shown hRelated
      rw [hRows, hRead] at hShownRead
      exact (Except.ok.inj hShownRead).symm

theorem TableStreaming.step
    (hStreaming : TableStreaming format sessionId s)
    (hStep : s.step format sessionId action = some s') :
    TableStreaming format sessionId s' := by
  cases action with
  | look => exact (hStreaming.look hStep).1
  | append record =>
      unfold TableStreamState.step at hStep
      dsimp only at hStep
      cases hAppend : s.store.appendRecord format record with
      | error error =>
          rw [hAppend] at hStep
          cases hStep
          exact hStreaming
      | ok result =>
          rcases result with ⟨stored, store⟩
          rw [hAppend] at hStep
          cases hStep
          exact hStreaming.append hAppend

/- What was sent last has been read from a part of the rows. -/
theorem TableStreaming.shown
    (hStreaming : TableStreaming format sessionId s) :
    ∃ part, part <+: s.rows sessionId ∧
      SqliteMemoryStore.readRecords format part =
        .ok s.stream.shownRecords := by
  rcases hStreaming.tracks with ⟨w, _, hSent, hFollows⟩
  have hLast := getLast?_related hSent
  have hPart : ∀ part ∈ w.shown.getLast?,
      part <+: s.rows sessionId := by
    intro part hMem
    exact hFollows.parts part (List.mem_of_getLast? hMem)
  refine ⟨_, ?_, read_shown hLast⟩
  cases hShown : w.shown.getLast? with
  | none => exact List.nil_prefix
  | some part => exact hPart part hShown

theorem readRecords_length
    {rows : List (SessionRow Text)}
    {records : List SessionRecord}
    (hRead :
      SqliteMemoryStore.readRecords format rows =
        .ok records) :
    records.length = rows.length := by
  induction rows generalizing records with
  | nil =>
      cases hRead
      rfl
  | cons row rest ih =>
      unfold SqliteMemoryStore.readRecords at hRead
      cases hFirst : format.fromText row.payloadJson with
      | error error =>
          rw [hFirst] at hRead
          cases hRead
      | ok record =>
          rw [hFirst] at hRead
          cases hRest : SqliteMemoryStore.readRecords format
              rest with
          | error error =>
              rw [hRest] at hRead
              cases hRead
          | ok others =>
              rw [hRest] at hRead
              cases hRead
              rw [List.length_cons, List.length_cons, ih hRest]

/- A round catches up if all records are read back. -/
theorem TableStreaming.caughtUp_iff
    (hStreaming : TableStreaming format sessionId s)
    (hLook : s.step format sessionId .look = some s') :
    ClientHolds s'.stream (s'.records sessionId) ↔
      ∀ stored ∈ s'.accepted, stored.sessionId = sessionId →
        format.RoundTrips stored.record := by
  rcases hStreaming.look hLook with ⟨hAfter, hSends⟩
  have hRows :
      List.Forall₂ (SqliteMemoryStore.Written format)
        (s.rows sessionId)
        (SqliteMemoryStore.acceptedFor s.accepted
          sessionId) := by
    apply List.rel_filter _ hStreaming.written
    intro row stored hRow
    simp [hRow.sessionId]
  have hTrips := SqliteMemoryStore.readRecords_ok_iff hRows
  unfold SqliteMemoryStore.acceptedFor at hTrips
  simp only [List.mem_filter, decide_eq_true_eq,
    and_imp] at hTrips
  have hAccepted : s'.accepted = s.accepted := by
    cases hLook
    rfl
  rw [hAccepted, ← hTrips, clientHolds_iff]
  unfold TableStreamState.records
  rw [hAccepted]
  constructor
  · intro hShown
    -- all of the rows have been read for what was sent last
    rcases hAfter.shown with ⟨part, hPart, hRead⟩
    have hRowsAfter : s'.rows sessionId = s.rows sessionId := by
      cases hLook
      rfl
    rw [hRowsAfter] at hPart
    rw [hShown] at hRead
    have hLength := readRecords_length hRead
    rw [List.length_map, ← hRows.length_eq] at hLength
    rw [hPart.eq_of_length hLength.symm] at hRead
    exact hRead
  · exact fun hRead => hSends _ hRead

end Tables

/-
  After a round the client holds the session as it is, by the
  events it has received, if and only if each record that the
  table has accepted for the session is readable.
-/
theorem table_stream_catches_up_iff
    {parse : ℚ → ℚ}
    {limit : Nat}
    {sessionId : String}
    {trace : List (TableStreamState Json × TableStreamAction)}
    {s s' : TableStreamState Json}
    (hReach :
      Reaches
        (TableStreamState.step (jsonFormat parse limit)
          sessionId) {} trace s)
    (hLook :
      s.step (jsonFormat parse limit) sessionId .look =
        some s') :
    ClientHolds s'.stream (s'.records sessionId) ↔
      ∀ stored ∈ s'.accepted, stored.sessionId = sessionId →
        Readable parse limit stored.record := by
  have hStreaming :
      TableStreaming (jsonFormat parse limit) sessionId s :=
    hReach.always tableStreaming_start
      fun _ _ _ hHere hStep => hHere.step hStep
  rw [hStreaming.caughtUp_iff hLook]
  simp only [jsonFormat_roundTrips_iff]

namespace Sample

/- A look, and another one after the append of a record. -/
def tableRun
    (record : NewSessionRecord) :
    List (TableStreamState Json × TableStreamAction) ×
      TableStreamState Json :=
  follow
    (TableStreamState.step (jsonFormat id 128) "session") [] {}
    [.look, .append record]

theorem tableRun_reaches
    (record : NewSessionRecord) :
    Reaches
      (TableStreamState.step (jsonFormat id 128) "session") {}
      (tableRun record).1 (tableRun record).2 :=
  follow_reaches _ .start

end Sample

set_option maxRecDepth 100000 in
/- A webhook is sent, but not one that is nested too deeply. -/
theorem table_stream_webhooks :
    (∃ s',
      (Sample.tableRun (Stores.webhookRecord .null)).2.step
          (jsonFormat id 128) "session" .look = some s' ∧
        ClientHolds s'.stream (s'.records "session")) ∧
    ∃ s',
      (Sample.tableRun
          (Stores.webhookRecord (Stores.nested 125))).2.step
          (jsonFormat id 128) "session" .look = some s' ∧
        ¬ClientHolds s'.stream (s'.records "session") := by
  refine ⟨⟨_, rfl, ?_⟩, ⟨_, rfl, ?_⟩⟩
  · apply (table_stream_catches_up_iff
      (Sample.tableRun_reaches _) rfl).mpr
    decide +kernel
  · apply mt (table_stream_catches_up_iff
      (Sample.tableRun_reaches _) rfl).mp
    decide +kernel

end RainEngine.Runtime
