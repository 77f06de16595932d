import RainEngine.Advances.Notes
import RainEngine.Kernel.Script
import RainEngine.Serde.Records
import RainEngine.Tables.Queries

/-
  This file is about what a memory search can find. It reads
  one page from the start of the ledger, while the prompt tells
  the provider that everything before its own window can be
  searched.

  Key definitions include:
    * `firstMatches`
    * `Op.searchObservation`
    * `PageRead`

  Key theorems include:
    * `exec_memorySearch`
    * `memory_search_covers_iff`
-/

namespace RainEngine

open Effects
open Tables (firstOf)

------------------------------------------------------------
-- Matches
------------------------------------------------------------

/- The text of the record contains the query. -/
def recordMatches
    (rendering : Rendering)
    (query : String)
    (record : SessionRecord) :
    Bool :=
  containsText
    (rendering.toLowercase (rendering.debugRecord record))
    (rendering.toLowercase query)

/- The records a search of the given ones is to find. -/
def firstMatches
    (rendering : Rendering)
    (query : String)
    (limit : Nat)
    (records : List SessionRecord) :
    List SessionRecord :=
  firstOf (recordMatches rendering query) (limit.max 1) records

/- The number of records a search reads. -/
def searchedRecords : Nat := 100

/- A list is written as an array with an item for each. -/
def WritesLists (rendering : Rendering) : Prop :=
  ∀ records, ∃ items,
    rendering.recordsValue records = .array items ∧
      items.length = records.length

section Matches

variable {rendering : Rendering}
variable {query : String}
variable {limit : Nat}
variable {records : List SessionRecord}

/- Lists that are written alike are of one length. -/
theorem WritesLists.length_eq
    {more : List SessionRecord}
    (hWrites : WritesLists rendering)
    (hSame :
      rendering.recordsValue records =
        rendering.recordsValue more) :
    records.length = more.length := by
  obtain ⟨items, hItems, hLength⟩ := hWrites records
  obtain ⟨others, hOthers, hOther⟩ := hWrites more
  rw [hItems, hOthers] at hSame
  cases hSame
  omega

theorem firstMatches_nil :
    firstMatches rendering query limit [] = [] := by
  unfold firstMatches firstOf
  rw [List.filter_nil, List.take_nil]

theorem firstMatches_eq_nil :
    firstMatches rendering query limit records = [] ↔
      ∀ record ∈ records,
        recordMatches rendering query record = false := by
  have hCount : limit.max 1 ≠ 0 :=
    Nat.ne_of_gt (Nat.lt_of_lt_of_le Nat.zero_lt_one
      (Nat.le_max_right limit 1))
  unfold firstMatches firstOf
  rw [List.take_eq_nil_iff]
  simp [hCount, List.filter_eq_nil_iff]

end Matches

------------------------------------------------------------
-- The Search
------------------------------------------------------------

/- The content of the observation a memory search appends. -/
def Op.searchObservation : Op → Option Json
| .append (.kernelEvent record) =>
    match record.event with
    | .observationAppended observation =>
        if observation.source = "MemorySearch" then
          some observation.content
        else none
    | _ => none
| _ => none

/- The store has answered the read of the first page. -/
def PageRead (steps : List (Step Op Answer World)) : Prop :=
  ∃ w page,
    ⟨w, .listRecords 0 searchedRecords, .ok page⟩ ∈ steps

/- The ledger was read, or it was not and counts as empty. -/
inductive Searched
    (w : World)
    (steps : List (Step Op Answer World)) :
    List SessionRecord → Prop where
  | page (hRead : PageRead steps) :
      Searched w steps (w.ledger.take searchedRecords)
  | nothing (hFailed : ¬PageRead steps) :
      Searched w steps []

section Search

variable {engine : AgentEngine}
variable {context : AgentContext}
variable {query : String}
variable {limit stepsExecuted : Nat}
variable {emittedEvents : List KernelEventRecord}

/- The events of a memory action carry the given content. -/
theorem uses_searchEvents
    {content : Json} :
    Uses
      (fun op =>
        op ≠ .listRecords 0 searchedRecords ∧
          ∀ observed, op.searchObservation = some observed →
            observed = content)
      (fun _ => True)
      (recordMemoryAction (.memorySearched query limit)
        "MemorySearch" content context emittedEvents) := by
  refine Uses.bind (V := fun _ => True)
    (uses_newUuid ⟨nofun, nofun⟩) ?_
  intro eventId _
  refine Uses.bind (V := fun _ => True)
    (Uses.mono (fun _ h => h) (fun _ _ => trivial)
      (uses_appendAndPush ⟨nofun, nofun⟩)) ?_
  intro context' _
  refine Uses.bind (V := fun _ => True)
    (uses_newUuid ⟨nofun, nofun⟩) ?_
  intro observationEventId _
  refine Uses.bind (V := fun _ => True)
    (uses_newUuid ⟨nofun, nofun⟩) ?_
  intro observationId _
  refine Uses.bind (V := fun _ => True)
    (Uses.mono (fun _ h => h) (fun _ _ => trivial)
      (uses_appendAndPush ⟨nofun, ?_⟩)) fun _ _ => trivial
  intro observed hObserved
  exact (Option.some.inj hObserved).symm

/- What a search observes are the matches of what it read. -/
theorem exec_memorySearch
    {w w' : World}
    {steps : List (Step Op Answer World)}
    {r : Option (Except EngineError AdvanceResult)}
    {content : Json}
    (hExec : Exec host w
      (executeAction engine context
        (.memorySearch query limit) stepsExecuted
        emittedEvents) steps w' r)
    (hObserved : ∃ s ∈ steps,
      s.op.searchObservation = some content) :
    ∃ records, Searched w steps records ∧
      content = engine.rendering.recordsValue
        (firstMatches engine.rendering query limit
          records) := by
  obtain ⟨s, hMem, hContent⟩ := hObserved
  cases Exec.of_request hExec with
  | inl hStopped =>
      rw [hStopped.1] at hMem
      cases hMem
  | inr hGoes =>
      obtain ⟨answer, rest, hAllowed, hSteps, hRest⟩ :=
        hGoes
      have hUses := uses_searchEvents.exec hRest
      have hSource : s ∈ rest := by
        rw [hSteps] at hMem
        cases List.mem_cons.mp hMem with
        | inl hFirst =>
            rw [hFirst] at hContent
            cases hContent
        | inr hLater => exact hLater
      have hEq := (hUses.1 s hSource).2 content hContent
      cases answer with
      | ok page =>
          have hPage : page = w.recordPage 0 100 := hAllowed
          subst hPage
          refine ⟨_, .page ⟨w, w.recordPage 0 100, ?_⟩,
            hEq⟩
          rw [hSteps]
          exact List.mem_cons_self
      | error error =>
          refine ⟨_, .nothing ?_, hEq⟩
          intro hRead
          obtain ⟨v, page, hPage⟩ := hRead
          rw [hSteps] at hPage
          cases List.mem_cons.mp hPage with
          | inl hFirst => cases hFirst
          | inr hLater => exact (hUses.1 _ hLater).1 rfl

end Search

/-
  A search observes the first matches of the whole ledger
  exactly when nothing matches, or its page could be read and
  holds enough matches or all there are.
-/
theorem memory_search_covers_iff
    (engine : AgentEngine)
    (context : AgentContext)
    (query : String)
    (limit stepsExecuted : Nat)
    (emittedEvents : List KernelEventRecord)
    (w w' : World)
    (steps : List (Step Op Answer World))
    (r : Option (Except EngineError AdvanceResult))
    (content : Json)
    (hWrites : WritesLists engine.rendering)
    (hExec : Exec host w
      (executeAction engine context
        (.memorySearch query limit) stepsExecuted
        emittedEvents) steps w' r)
    (hObserved : ∃ s ∈ steps,
      s.op.searchObservation = some content) :
    content = engine.rendering.recordsValue
        (firstMatches engine.rendering query limit
          w.ledger) ↔
      (∀ record ∈ w.ledger,
        recordMatches engine.rendering query record =
          false) ∨
      PageRead steps ∧
        (limit.max 1 ≤
            ((w.ledger.take searchedRecords).filter
              (recordMatches engine.rendering query)).length ∨
          ∀ record ∈ w.ledger.drop searchedRecords,
            recordMatches engine.rendering query record =
              false) := by
  obtain ⟨records, hSearched, hContent⟩ :=
    exec_memorySearch hExec hObserved
  -- What was read is a start of the ledger, and a start is
  -- told from a longer list by its length.
  have hPrefix :
      firstMatches engine.rendering query limit records <+:
        firstMatches engine.rendering query limit
          w.ledger := by
    cases hSearched with
    | page _ => exact Tables.firstOf_take_prefix
    | nothing _ =>
        rw [firstMatches_nil]
        exact List.nil_prefix
  have hSame :
      content = engine.rendering.recordsValue
          (firstMatches engine.rendering query limit
            w.ledger) ↔
        firstMatches engine.rendering query limit records =
          firstMatches engine.rendering query limit
            w.ledger := by
    rw [hContent]
    constructor
    · intro hEq
      exact hPrefix.eq_of_length (hWrites.length_eq hEq)
    · intro hEq
      rw [hEq]
  rw [hSame, ← Tables.firstOf_take_eq_iff]
  cases hSearched with
  | page hRead =>
      constructor
      · intro hEq
        exact .inr ⟨hRead, hEq⟩
      · intro hEither
        cases hEither with
        | inl hNone =>
            rw [firstMatches_eq_nil.mpr hNone] at hPrefix ⊢
            exact List.prefix_nil.mp hPrefix
        | inr hBoth => exact hBoth.2
  | nothing hFailed =>
      constructor
      · intro hEq
        left
        rw [← firstMatches_eq_nil, ← hEq, firstMatches_nil]
      · intro hEither
        cases hEither with
        | inl hNone =>
            rw [firstMatches_eq_nil.mpr hNone,
              firstMatches_nil]
        | inr hBoth => exact absurd hBoth.1 hFailed

------------------------------------------------------------
-- A Message Out Of Reach
------------------------------------------------------------

namespace Sample

/- The recorded messages, as they are printed and written. -/
def searchRendering : Rendering where
  debugRecord record :=
    match record with
    | .trigger trigger =>
        match trigger.trigger with
        | .message userId content _ =>
            "Message \x7b user_id: \"" ++ userId ++
              "\", content: \"" ++ content ++ "\" \x7d"
        | _ => ""
    | _ => ""
  debugTime _ := ""
  toLowercase := String.toLower
  fixed _ _ := ""
  recordsValue records :=
    .array (records.map Codec.sessionRecord.encode)

def searching : AgentEngine :=
  { engine with rendering := searchRendering }

def messageRecord
    (triggerId content : String) :
    SessionRecord :=
  .trigger
    { triggerId := triggerId
      sessionId := "session"
      idempotencyKey := none
      trigger := .message "user" content []
      intent := none }

/- Messages that were accepted and not answered. -/
def greetings (count : Nat) : List SessionRecord :=
  (List.range count).map fun i =>
    messageRecord (toString i) "hello"

theorem greetings_length (count : Nat) :
    (greetings count).length = count := by
  simp [greetings]

theorem greetings_not_match
    (count : Nat) :
    ∀ record ∈ greetings count,
      recordMatches searchRendering "needle" record =
        false := by
  intro record hMem
  obtain ⟨i, _, hRecord⟩ := List.mem_map.mp hMem
  have hText :
      recordMatches searchRendering "needle"
        (messageRecord "" "hello") = false := by
    decide +kernel
  rw [← hRecord]
  exact hText

def haystack (before after : Nat) : World :=
  { World.empty "session" with
    ledger := greetings before ++
      messageRecord "needle" "Needle" :: greetings after }

theorem writesLists_search : WritesLists searchRendering := by
  intro records
  exact ⟨_, rfl, List.length_map _⟩

/- What happens in a search of the kernel for a message. -/
structure Searches
    (w : World)
    (steps : List (Step Op Answer World))
    (content : Json) : Prop where
  exec :
    ∃ w', Exec host w
      (executeAction searching
        (triggerContext message "now" w.snapshot)
        (.memorySearch "needle" 1) 0 []) steps w' none
  observed :
    ∃ s ∈ steps, s.op.searchObservation = some content

/- An answered request, before the rest of an execution. -/
theorem exists_exec_request
    {w : World}
    {op : Op}
    {k : Answer op → EngineM AdvanceResult}
    {answer : Answer op}
    {P : List (Step Op Answer World) → Prop}
    (hAllowed : host.allowed w op answer)
    (hRest :
      ∃ steps w', Exec host (host.next w op answer)
          (k answer) steps w' none ∧
        P (⟨w, op, answer⟩ :: steps)) :
    ∃ steps w', Exec host w (.request op k) steps w' none ∧
      P steps := by
  obtain ⟨steps, w', hExec, hP⟩ := hRest
  exact ⟨_, w', .request hAllowed hExec, hP⟩

/- A search in which the store answers and is then stopped. -/
theorem exists_searches
    (w : World)
    (hIssued : w.issued = []) :
    ∃ steps, PageRead steps ∧
      Searches w steps
        (searchRendering.recordsValue
          (firstMatches searchRendering "needle" 1
            (w.ledger.take searchedRecords))) := by
  have hPage : host.allowed w (.listRecords 0 100)
      (.ok (w.recordPage 0 100)) :=
    rfl
  have hStored : ∀ v record,
      host.allowed v (.append record) (.ok ()) :=
    fun _ _ => trivial
  have hIssues : ∀ v uuid, uuid ∉ World.issued v →
      host.allowed v .newUuid uuid :=
    fun _ _ hNew => hNew
  have hExec :
      ∃ steps w', Exec host w
        (executeAction searching
          (triggerContext message "now" w.snapshot)
          (.memorySearch "needle" 1) 0 []) steps w' none ∧
        (PageRead steps ∧
          ∃ s ∈ steps, s.op.searchObservation =
            some (searchRendering.recordsValue
              (firstMatches searchRendering "needle" 1
                (w.ledger.take searchedRecords)))) := by
    refine exists_exec_request hPage ?_
    refine exists_exec_request (hIssues _ "1" ?_) ?_
    · show "1" ∉ w.issued
      rw [hIssued]
      exact List.not_mem_nil
    refine exists_exec_request (hStored _ _) ?_
    refine exists_exec_request (hIssues _ "2" ?_) ?_
    · show "2" ∉ "1" :: w.issued
      rw [hIssued]
      decide
    refine exists_exec_request (hIssues _ "3" ?_) ?_
    · show "3" ∉ "2" :: "1" :: w.issued
      rw [hIssued]
      decide
    refine exists_exec_request (hStored _ _) ?_
    refine ⟨[], _, .stop, ?_, ?_⟩
    · exact ⟨_, _, List.mem_cons_self⟩
    · exact ⟨_, List.mem_of_getElem? (i := 5) rfl, rfl⟩
  obtain ⟨steps, w', hExec, hRead, hObserved⟩ := hExec
  exact ⟨steps, hRead, ⟨w', hExec⟩, hObserved⟩

end Sample

/- In a short session the message is found. -/
theorem memory_search_covers_short :
    ∃ steps content,
      Sample.Searches (Sample.haystack 2 1) steps content ∧
        content = Sample.searchRendering.recordsValue
          (firstMatches Sample.searchRendering "needle" 1
            (Sample.haystack 2 1).ledger) := by
  obtain ⟨steps, hRead, hSearches⟩ :=
    Sample.exists_searches (Sample.haystack 2 1) rfl
  refine ⟨steps, _, hSearches, ?_⟩
  obtain ⟨w', hExec⟩ := hSearches.exec
  refine (memory_search_covers_iff Sample.searching _ _ _ _
    _ _ _ _ _ _ Sample.writesLists_search hExec
    hSearches.observed).mpr ?_
  right
  refine ⟨hRead, .inr ?_⟩
  intro record hMem
  have hNone :
      (Sample.haystack 2 1).ledger.drop searchedRecords =
        [] := by
    rfl
  rw [hNone] at hMem
  cases hMem

/-
  The message after the first hundred records is no longer
  in the prompt, and the search for it finds nothing.
-/
theorem paged_out_not_found :
    Sample.messageRecord "needle" "Needle" ∈
        (Sample.haystack 100 32).ledger.take
          ((Sample.haystack 100 32).ledger.length -
            maxRecentItems) ∧
      ∃ steps content,
        Sample.Searches (Sample.haystack 100 32) steps
            content ∧
          content ≠ Sample.searchRendering.recordsValue
            (firstMatches Sample.searchRendering "needle" 1
              (Sample.haystack 100 32).ledger) := by
  have hPage :
      (Sample.haystack 100 32).ledger.take searchedRecords =
        Sample.greetings 100 :=
    List.take_left' (Sample.greetings_length 100)
  have hRest :
      (Sample.haystack 100 32).ledger.drop searchedRecords =
        Sample.messageRecord "needle" "Needle" ::
          Sample.greetings 32 :=
    List.drop_left' (Sample.greetings_length 100)
  obtain ⟨steps, _, hSearches⟩ :=
    Sample.exists_searches (Sample.haystack 100 32) rfl
  refine ⟨?_, steps, _, hSearches, ?_⟩
  · simp [Sample.haystack, Sample.greetings_length,
      maxRecentItems, List.take_append]
  · intro hEq
    have hSame := Tables.firstOf_take_eq_iff.mp
      (Tables.firstOf_take_prefix.eq_of_length
        (Sample.writesLists_search.length_eq hEq))
    cases hSame with
    | inl hEnough =>
        rw [hPage, List.filter_eq_nil_iff.mpr] at hEnough
        · cases hEnough
        · intro record hMem
          rw [Sample.greetings_not_match 100 record hMem]
          exact Bool.false_ne_true
    | inr hNone =>
        have hNeedle := hNone
          (Sample.messageRecord "needle" "Needle")
          (by rw [hRest]; exact List.mem_cons_self)
        revert hNeedle
        decide +kernel

end RainEngine
