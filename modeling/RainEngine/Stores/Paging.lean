import RainEngine.Stores.Interchange

/-
  This file is about walking through the records of a session
  page by page, from the first page to one without a next.
  A walk over the store in memory ends unless the limit is
  zero and there is something to find, and it is in order if
  the records were inserted so; a walk over the table ends
  unless the limit is zero.

  Key definitions include:
    * `handleListRecords`
    * `Walks`
    * `PagesExactly`

  Key theorems include:
    * `walks_of_progress`
    * `not_walks_of_stuck`
    * `paging_exact_iff`
-/

namespace RainEngine.Stores

------------------------------------------------------------
-- The Endpoint
------------------------------------------------------------

structure RecordListParams where
  offset : Option Nat := none
  limit : Option Nat := none
  sinceMs : Option Int := none
  untilMs : Option Int := none

/- The query that is made of the parameters. -/
def RecordListParams.query
    (params : RecordListParams)
    (sessionId : String) :
    RecordPageQuery where
  sessionId := sessionId
  offset := params.offset.getD 0
  limit := params.limit.getD 100
  sinceMs := params.sinceMs
  untilMs := params.untilMs

/- The endpoint, over the records of a store. -/
def handleListRecords
    (listRecords :
      RecordPageQuery → Except MemoryError RecordPage)
    (sessionId : String)
    (params : RecordListParams) :
    Except MemoryError RecordPage :=
  listRecords (params.query sessionId)

/- The page of a walk that starts at an offset. -/
def pageAt
    (listRecords :
      RecordPageQuery → Except MemoryError RecordPage)
    (sessionId : String)
    (params : RecordListParams)
    (offset : Nat) :
    Except MemoryError RecordPage :=
  handleListRecords listRecords sessionId
    { params with offset := some offset }

------------------------------------------------------------
-- Walks
------------------------------------------------------------

/- Following the next offset until there is none. -/
inductive Walks
    (fetch : Nat → Except MemoryError RecordPage) :
    Nat → List StoredSessionRecord → Prop where
  | last {offset : Nat} {page : RecordPage}
      (hPage : fetch offset = .ok page)
      (hLast : page.nextOffset = none) :
      Walks fetch offset page.records
  | next {offset next : Nat} {page : RecordPage}
      {rest : List StoredSessionRecord}
      (hPage : fetch offset = .ok page)
      (hNext : page.nextOffset = some next)
      (hRest : Walks fetch next rest) :
      Walks fetch offset (page.records ++ rest)

/-
  The walk from the start ends and finds each of the records
  once, in the order of their numbers.
-/
def PagesExactly
    (fetch : Nat → Except MemoryError RecordPage)
    (records : List StoredSessionRecord) :
    Prop :=
  ∃ found, Walks fetch 0 found ∧ found.Perm records ∧
    found.Pairwise fun early late =>
      early.sequenceNo < late.sequenceNo

/-
  A page holds the records from its offset on, and goes on
  after them unless they were the last.
-/
structure PageAdvances
    (records : List StoredSessionRecord)
    (offset : Nat)
    (page : RecordPage) : Prop where
  window : ∃ count,
    page.records = (records.drop offset).take count
  last : page.nextOffset = none →
    records.length ≤ offset + page.records.length
  next : ∀ next, page.nextOffset = some next →
    next = offset + page.records.length ∧
      page.records ≠ []

section Walks

variable {fetch : Nat → Except MemoryError RecordPage}
variable {records found other : List StoredSessionRecord}
variable {offset : Nat}

/- A part of a list, and what is left after as many. -/
theorem drop_eq_take_append
    {count : Nat}
    {part : List StoredSessionRecord}
    (hPart : part = (records.drop offset).take count) :
    records.drop offset =
      part ++ records.drop (offset + part.length) := by
  have hSplit := List.take_append_drop count
    (records.drop offset)
  rw [← hPart] at hSplit
  rw [← List.drop_drop]
  have hRest :
      (records.drop offset).drop part.length =
        (records.drop offset).drop count := by
    rw [hPart, List.length_take]
    by_cases hShort : count ≤ (records.drop offset).length
    · rw [Nat.min_eq_left hShort]
    · have hLong := Nat.le_of_not_le hShort
      rw [Nat.min_eq_right hLong, List.drop_length,
        List.drop_eq_nil_of_le hLong]
  rw [hRest]
  exact hSplit.symm

/- Pages that advance lead to the end of the records. -/
theorem walks_of_progress
    (hFetch : ∀ offset, offset ≤ records.length →
      ∃ page, fetch offset = .ok page ∧
        PageAdvances records offset page)
    (hOffset : offset ≤ records.length) :
    Walks fetch offset (records.drop offset) := by
  -- by the number of records that are left
  induction hLeft : records.length - offset using
    Nat.strong_induction_on generalizing offset with
  | _ left ih =>
      rcases hFetch offset hOffset with
        ⟨page, hPage, hAdvances⟩
      rcases hAdvances.window with ⟨count, hRecords⟩
      have hSplit := drop_eq_take_append hRecords
      cases hNext : page.nextOffset with
      | none =>
          have hEnd := hAdvances.last hNext
          rw [hSplit, List.drop_eq_nil_of_le hEnd,
            List.append_nil]
          exact .last hPage hNext
      | some next =>
          rcases hAdvances.next next hNext with
            ⟨hSame, hSome⟩
          have hPositive :=
            List.length_pos_iff.mpr hSome
          have hWithin :
              offset + page.records.length ≤
                records.length := by
            have hLength := congrArg List.length hRecords
            rw [List.length_take, List.length_drop] at hLength
            omega
          subst hSame
          rw [hSplit]
          refine .next hPage hNext ?_
          exact ih _ (by omega) hWithin rfl

/- A page that leads back to itself is never left. -/
theorem not_walks_of_stuck
    {page : RecordPage}
    (hPage : fetch offset = .ok page)
    (hStuck : page.nextOffset = some offset) :
    ¬∃ found, Walks fetch offset found := by
  intro hWalks
  rcases hWalks with ⟨found, hFound⟩
  induction hFound with
  | last hHere hLast =>
      rw [hPage] at hHere
      cases hHere
      rw [hStuck] at hLast
      cases hLast
  | next hHere hNext _ ih =>
      rw [hPage] at hHere
      cases hHere
      rw [hStuck] at hNext
      cases hNext
      exact ih hPage hStuck

/- There is one walk at most. -/
theorem Walks.unique
    (hFound : Walks fetch offset found)
    (hOther : Walks fetch offset other) :
    found = other := by
  induction hFound generalizing other with
  | last hPage hLast =>
      cases hOther with
      | last hHere _ =>
          rw [hPage] at hHere
          cases hHere
          rfl
      | next hHere hNext _ =>
          rw [hPage] at hHere
          cases hHere
          rw [hLast] at hNext
          cases hNext
  | next hPage hNext _ ih =>
      cases hOther with
      | last hHere hLast =>
          rw [hPage] at hHere
          cases hHere
          rw [hNext] at hLast
          cases hLast
      | next hHere hSame hRest =>
          rw [hPage] at hHere
          cases hHere
          rw [hNext] at hSame
          cases hSame
          rw [ih hRest]

/- A walk that finds all records finds them in their order. -/
theorem pagesExactly_iff_pairwise
    (hWalks : Walks fetch 0 records) :
    PagesExactly fetch records ↔
      records.Pairwise fun early late =>
        early.sequenceNo < late.sequenceNo := by
  constructor
  · intro hExactly
    rcases hExactly with ⟨found, hFound, _, hOrder⟩
    rw [hFound.unique hWalks] at hOrder
    exact hOrder
  · intro hOrder
    exact ⟨records, hWalks, .refl _, hOrder⟩

end Walks

------------------------------------------------------------
-- The Store In Memory
------------------------------------------------------------

namespace InMemoryMemoryStore

variable {store : InMemoryMemoryStore}
variable {sessionId : String}
variable {params : RecordListParams}

/- The records of a session a query matches. -/
def matching
    (store : InMemoryMemoryStore)
    (sessionId : String)
    (params : RecordListParams) :
    List StoredSessionRecord :=
  (store.recordsOf sessionId).filter fun record =>
    Tables.within params.sinceMs params.untilMs
      record.occurredAtMs

/- The page of a walk over the store. -/
def walkPage
    (store : InMemoryMemoryStore)
    (sessionId : String)
    (params : RecordListParams) :
    Nat → Except MemoryError RecordPage :=
  pageAt (fun query => .ok (store.listRecords query))
    sessionId params

theorem walkPage_eq (offset : Nat) :
    let window :=
      ((store.matching sessionId params).drop offset).take
        (params.limit.getD 100)
    store.walkPage sessionId params offset =
      .ok
        { sessionId := sessionId
          records := window
          nextOffset :=
            if offset + window.length <
                (store.matching sessionId params).length then
              some (offset + window.length)
            else none } :=
  rfl

/- A page goes on while there are records left. -/
theorem walks
    (hLimit : 0 < params.limit.getD 100 ∨
      store.matching sessionId params = []) :
    Walks (store.walkPage sessionId params) 0
      (store.matching sessionId params) := by
  change Walks _ 0
    ((store.matching sessionId params).drop 0)
  refine walks_of_progress ?_ (Nat.zero_le _)
  · intro offset hOffset
    refine ⟨_, store.walkPage_eq offset,
      ⟨params.limit.getD 100, rfl⟩, ?_, ?_⟩
    · intro hNone
      dsimp only at hNone ⊢
      split at hNone
      · cases hNone
      · omega
    · intro next hNext
      dsimp only at hNext ⊢
      split at hNext
      · rename_i hMore
        cases hNext
        refine ⟨rfl, ?_⟩
        rw [← List.length_pos_iff]
        rw [List.length_take, List.length_drop] at hMore ⊢
        rcases hLimit with hPositive | hNil
        · omega
        · rw [hNil] at hMore
          exact absurd hMore (Nat.not_lt_zero _)
      · cases hNext

/- With a limit of zero the first page leads to itself. -/
theorem stuck
    (hLimit : params.limit.getD 100 = 0)
    (hSome : store.matching sessionId params ≠ []) :
    ¬∃ found,
      Walks (store.walkPage sessionId params) 0 found := by
  apply not_walks_of_stuck (store.walkPage_eq 0)
  dsimp only
  rw [hLimit, List.take_zero, List.length_nil, Nat.add_zero,
    if_pos (List.length_pos_iff.mpr hSome)]

end InMemoryMemoryStore

------------------------------------------------------------
-- The Table
------------------------------------------------------------

namespace SqliteMemoryStore

variable {Text : Type}
variable {format : PayloadFormat Text}
variable {store : SqliteMemoryStore Text}
variable {sessionId : String}
variable {params : RecordListParams}
variable {rows : List (SessionRow Text)}
variable {records : List StoredSessionRecord}

/- The rows of a session a query matches. -/
def matchingRows
    (store : SqliteMemoryStore Text)
    (sessionId : String)
    (params : RecordListParams) :
    List (SessionRow Text) :=
  store.sessionRecords.filter fun row =>
    decide (row.sessionId = sessionId) &&
      Tables.within params.sinceMs params.untilMs
        row.occurredAtMs

/- The page of a walk over the table. -/
def walkPage
    (format : PayloadFormat Text)
    (store : SqliteMemoryStore Text)
    (sessionId : String)
    (params : RecordListParams) :
    Nat → Except MemoryError RecordPage :=
  pageAt (store.listRecords format) sessionId params

/- The numbers are in order, and they are 64-bit keys. -/
structure Keyed (store : SqliteMemoryStore Text) : Prop where
  numbered : store.Numbered
  keys : ∀ row ∈ store.sessionRecords,
    0 < row.sequenceNo ∧ row.sequenceNo < 2 ^ 63

/- Increasing numbers in a range are fewer than it is long. -/
theorem length_le_of_increasing
    {low high : Int}
    (hIncreasing : rows.Pairwise fun early late =>
      early.sequenceNo < late.sequenceNo)
    (hRange : ∀ row ∈ rows,
      low < row.sequenceNo ∧ row.sequenceNo < high)
    (hOrder : low < high) :
    low + rows.length < high := by
  induction hIncreasing generalizing low with
  | nil => simpa using hOrder
  | @cons first rest hFirst _ ih =>
      have hHead := hRange first List.mem_cons_self
      have hRest := @ih first.sequenceNo (by
        intro row hMem
        have hRow := hRange row (List.mem_cons_of_mem _ hMem)
        exact ⟨hFirst row hMem, hRow.2⟩) hHead.2
      rw [List.length_cons]
      omega

theorem Keyed.length_lt
    (hKeyed : store.Keyed) :
    (store.matchingRows sessionId params).length < 2 ^ 63 := by
  have hIncreasing :=
    hKeyed.numbered.increasing.filter fun row =>
      decide (row.sessionId = sessionId) &&
        Tables.within params.sinceMs params.untilMs
          row.occurredAtMs
  have hLength :
      (0 : Int) + (store.matchingRows sessionId params).length <
        2 ^ 63 := by
    apply length_le_of_increasing hIncreasing
    · intro row hMem
      exact hKeyed.keys row (List.mem_of_mem_filter hMem)
    · omega
  omega

/- Rows are read back one by one. -/
theorem readRows_eq_ok_iff :
    readRows format sessionId rows = .ok records ↔
      List.Forall₂
        (fun row record =>
          readRow format sessionId row = .ok record)
        rows records := by
  induction rows generalizing records with
  | nil =>
      rw [List.forall₂_nil_left_iff]
      constructor
      · intro hRead
        cases hRead
        rfl
      · intro hNil
        rw [hNil]
        rfl
  | cons row rest ih =>
      rw [List.forall₂_cons_left_iff]
      unfold readRows
      constructor
      · intro hRead
        cases hRow : readRow format sessionId row with
        | error error =>
            rw [hRow] at hRead
            cases hRead
        | ok record =>
            rw [hRow] at hRead
            cases hRest : readRows format sessionId rest with
            | error error =>
                rw [hRest] at hRead
                cases hRead
            | ok more =>
                rw [hRest] at hRead
                cases hRead
                exact ⟨record, more, rfl, ih.mp hRest, rfl⟩
      · intro hRows
        rcases hRows with
          ⟨record, more, hRow, hRest, hRecords⟩
        rw [hRow, ih.mpr hRest, hRecords]
        rfl

/- A limit beyond the signed range selects all rows. -/
theorem page_eq
    {limit offset : Nat}
    (hLimit : limit < 2 ^ 64)
    (hOffset : offset < 2 ^ 63)
    (hRows : rows.length < 2 ^ 63) :
    Tables.page (asI64 limit) (asI64 offset) rows =
      (rows.drop offset).take limit := by
  rw [asI64_of_lt hOffset]
  by_cases hSmall : limit < 2 ^ 63
  · rw [asI64_of_lt hSmall, Tables.page_of_nonneg]
  · have hNegative : asI64 limit < 0 := by
      unfold asI64
      rw [Int.bmod_def]
      omega
    unfold Tables.page
    rw [if_pos hNegative, Int.toNat_natCast]
    symm
    apply List.take_of_length_le
    rw [List.length_drop]
    omega

theorem walkPage_eq
    {offset : Nat}
    (hKeyed : store.Keyed)
    (hRead :
      readRows format sessionId
          (store.matchingRows sessionId params) =
        .ok records)
    (hLimit : params.limit.getD 100 < 2 ^ 64)
    (hOffset : offset ≤ records.length) :
    let window :=
      (records.drop offset).take (params.limit.getD 100)
    store.walkPage format sessionId params offset =
      .ok
        { sessionId := sessionId
          records := window
          nextOffset :=
            if window.length = params.limit.getD 100 then
              some (offset + window.length)
            else none } := by
  have hRows := readRows_eq_ok_iff.mp hRead
  have hLength := hRows.length_eq
  have hBound :
      (store.matchingRows sessionId params).length < 2 ^ 63 :=
    hKeyed.length_lt
  have hSelected : readRows format sessionId
      (((store.matchingRows sessionId params).drop
        offset).take (params.limit.getD 100)) =
      .ok ((records.drop offset).take
        (params.limit.getD 100)) :=
    readRows_eq_ok_iff.mpr
      (List.forall₂_take _ (List.forall₂_drop _ hRows))
  have hPage := page_eq hLimit
    (show offset < 2 ^ 63 by omega) hBound
  have hSorted := hKeyed.numbered.orderBy_filter fun row =>
    decide (row.sessionId = sessionId) &&
      Tables.within params.sinceMs params.untilMs
        row.occurredAtMs
  unfold walkPage pageAt handleListRecords listRecords
    RecordListParams.query
  simp only [Option.getD_some]
  rw [hSorted]
  unfold matchingRows at hPage hSelected
  rw [hPage, hSelected]
  rfl

/- A full page goes on, any other is the last. -/
theorem walks
    (hKeyed : store.Keyed)
    (hRead :
      readRows format sessionId
          (store.matchingRows sessionId params) =
        .ok records)
    (hLimit : params.limit.getD 100 < 2 ^ 64)
    (hPositive : 0 < params.limit.getD 100) :
    Walks (store.walkPage format sessionId params) 0
      records := by
  change Walks _ 0 (records.drop 0)
  refine walks_of_progress ?_ (Nat.zero_le _)
  · intro offset hOffset
    refine ⟨_, walkPage_eq hKeyed hRead hLimit hOffset,
      ⟨params.limit.getD 100, rfl⟩, ?_, ?_⟩
    · intro hNone
      dsimp only at hNone ⊢
      split at hNone
      · cases hNone
      · rename_i hPartial
        rw [List.length_take, List.length_drop] at *
        omega
    · intro next hNext
      dsimp only at hNext ⊢
      split at hNext
      · rename_i hFull
        cases hNext
        refine ⟨rfl, ?_⟩
        rw [← List.length_pos_iff]
        omega
      · cases hNext

/- With a limit of zero the first page leads to itself. -/
theorem stuck
    (hKeyed : store.Keyed)
    (hRead :
      readRows format sessionId
          (store.matchingRows sessionId params) =
        .ok records)
    (hLimit : params.limit.getD 100 = 0) :
    ¬∃ found,
      Walks (store.walkPage format sessionId params) 0
        found := by
  apply not_walks_of_stuck
    (walkPage_eq hKeyed hRead (by omega) (Nat.zero_le _))
  dsimp only
  rw [hLimit, List.take_zero, List.length_nil, if_pos rfl]

end SqliteMemoryStore

------------------------------------------------------------
-- Exact Pages
------------------------------------------------------------

/- The numbers of the records are in increasing order. -/
def InOrder (records : List StoredSessionRecord) : Prop :=
  records.Pairwise fun early late =>
    early.sequenceNo < late.sequenceNo

/- The rows that match can be read back, and are paged. -/
def TablePagesExactly
    {Text : Type}
    (format : PayloadFormat Text)
    (table : SqliteMemoryStore Text)
    (sessionId : String)
    (params : RecordListParams) :
    Prop :=
  ∃ records,
    SqliteMemoryStore.readRows format sessionId
        (table.matchingRows sessionId params) =
      .ok records ∧
    PagesExactly (table.walkPage format sessionId params)
      records

section Exactness

variable {sessionId : String}
variable {params : RecordListParams}

theorem memory_pages_iff
    {memory : InMemoryMemoryStore} :
    PagesExactly (memory.walkPage sessionId params)
        (memory.matching sessionId params) ↔
      (0 < params.limit.getD 100 ∨
          memory.matching sessionId params = []) ∧
        InOrder (memory.matching sessionId params) := by
  by_cases hLimit : 0 < params.limit.getD 100 ∨
      memory.matching sessionId params = []
  · rw [pagesExactly_iff_pairwise
      (InMemoryMemoryStore.walks hLimit)]
    exact (and_iff_right hLimit).symm
  · have hNot := hLimit
    rw [not_or] at hLimit
    have hZero : params.limit.getD 100 = 0 := by omega
    constructor
    · intro hExactly
      rcases hExactly with ⟨found, hFound, _⟩
      exact (InMemoryMemoryStore.stuck hZero hLimit.2
        ⟨found, hFound⟩).elim
    · intro hBoth
      exact (hNot hBoth.1).elim

/- A row is read back with its number. -/
theorem readRow_sequenceNo
    {Text : Type}
    {format : PayloadFormat Text}
    {row : SessionRow Text}
    {record : StoredSessionRecord}
    (hRow :
      SqliteMemoryStore.readRow format sessionId row =
        .ok record) :
    record.sequenceNo = row.sequenceNo := by
  unfold SqliteMemoryStore.readRow at hRow
  cases hText : format.fromText row.payloadJson with
  | error error =>
      rw [hText] at hRow
      cases hRow
  | ok payload =>
      rw [hText] at hRow
      cases hKind : SessionRecordKind.parse row.recordKind with
      | none =>
          rw [hKind] at hRow
          cases hRow
      | some kind =>
          rw [hKind] at hRow
          cases hRow
          rfl

theorem readRows_sequenceNo
    {Text : Type}
    {format : PayloadFormat Text}
    {rows : List (SessionRow Text)}
    {records : List StoredSessionRecord}
    (hRead :
      SqliteMemoryStore.readRows format sessionId rows =
        .ok records) :
    records.map (·.sequenceNo) = rows.map (·.sequenceNo) := by
  have hRows := SqliteMemoryStore.readRows_eq_ok_iff.mp hRead
  clear hRead
  induction hRows with
  | nil => rfl
  | cons hRow _ ih =>
      rw [List.map_cons, List.map_cons,
        readRow_sequenceNo hRow, ih]

theorem inOrder_of_read
    {Text : Type}
    {format : PayloadFormat Text}
    {table : SqliteMemoryStore Text}
    {records : List StoredSessionRecord}
    (hKeyed : table.Keyed)
    (hRead :
      SqliteMemoryStore.readRows format sessionId
          (table.matchingRows sessionId params) =
        .ok records) :
    InOrder records := by
  have hIncreasing :
      ((table.matchingRows sessionId params).map
        (·.sequenceNo)).Pairwise (· < ·) :=
    List.pairwise_map.mpr
      (hKeyed.numbered.increasing.filter _)
  rw [← readRows_sequenceNo hRead] at hIncreasing
  exact List.pairwise_map.mp hIncreasing

theorem table_pages_iff
    {Text : Type}
    {format : PayloadFormat Text}
    {table : SqliteMemoryStore Text}
    (hKeyed : table.Keyed)
    (hLimit : params.limit.getD 100 < 2 ^ 64) :
    TablePagesExactly format table sessionId params ↔
      0 < params.limit.getD 100 ∧
        ∃ records,
          SqliteMemoryStore.readRows format sessionId
              (table.matchingRows sessionId params) =
            .ok records := by
  constructor
  · intro hPages
    rcases hPages with ⟨records, hRead, found, hFound, _⟩
    refine ⟨?_, records, hRead⟩
    by_contra hZero
    have hStuck := SqliteMemoryStore.stuck hKeyed hRead
      (by omega)
    exact hStuck ⟨found, hFound⟩
  · intro hBoth
    rcases hBoth with ⟨hPositive, records, hRead⟩
    have hWalks :=
      SqliteMemoryStore.walks hKeyed hRead hLimit hPositive
    exact ⟨records, hRead,
      (pagesExactly_iff_pairwise hWalks).mpr
        (inOrder_of_read hKeyed hRead)⟩

/-
  Walking through the pages of the endpoint finds each record
  once and in order exactly if the limit is not zero. In
  memory that is no matter if there is nothing to find, but
  the records must have been inserted in the order of their
  numbers; in the table their texts must be readable.
-/
theorem paging_exact_iff
    {Text : Type}
    (format : PayloadFormat Text)
    (memory : InMemoryMemoryStore)
    (table : SqliteMemoryStore Text)
    (sessionId : String)
    (params : RecordListParams)
    (hKeyed : table.Keyed)
    (hLimit : params.limit.getD 100 < 2 ^ 64) :
    (PagesExactly (memory.walkPage sessionId params)
        (memory.matching sessionId params) ↔
      (0 < params.limit.getD 100 ∨
          memory.matching sessionId params = []) ∧
        InOrder (memory.matching sessionId params)) ∧
    (TablePagesExactly format table sessionId params ↔
      0 < params.limit.getD 100 ∧
        ∃ records,
          SqliteMemoryStore.readRows format sessionId
              (table.matchingRows sessionId params) =
            .ok records) :=
  ⟨memory_pages_iff, table_pages_iff hKeyed hLimit⟩

end Exactness

------------------------------------------------------------
-- A Limit Of Zero
------------------------------------------------------------

/- The table after the two records. -/
def pagedTable : SqliteMemoryStore Json :=
  match SqliteMemoryStore.appendAll (jsonFormat id 128) {}
    (newRecords laterFirst) with
  | .ok table => table
  | .error _ => {}

def pagedMemory : InMemoryMemoryStore :=
  .appendAll {} (newRecords laterFirst)

theorem pagedTable_keyed : pagedTable.Keyed where
  numbered :=
    { increasing := by decide +kernel
      issued := by decide +kernel }
  keys := by decide +kernel

theorem paging_exact_iff_single :
    (PagesExactly
        (pagedMemory.walkPage "session" { limit := some 1 })
        (pagedMemory.matching "session"
          { limit := some 1 }) ↔
      (0 < 1 ∨
          pagedMemory.matching "session"
            { limit := some 1 } = []) ∧
        InOrder (pagedMemory.matching "session"
          { limit := some 1 })) ∧
    (TablePagesExactly (jsonFormat id 128) pagedTable
        "session" { limit := some 1 } ↔
      0 < 1 ∧
        ∃ records,
          SqliteMemoryStore.readRows (jsonFormat id 128)
              "session"
              (pagedTable.matchingRows "session"
                { limit := some 1 }) =
            .ok records) :=
  paging_exact_iff (jsonFormat id 128) pagedMemory pagedTable
    "session" { limit := some 1 } pagedTable_keyed (by decide)

/- A walk with a limit of zero does not end in either store. -/
theorem limit_zero_never_ends :
    (¬∃ found,
      Walks
        (pagedMemory.walkPage "session" { limit := some 0 })
        0 found) ∧
    ¬∃ found,
      Walks
        (pagedTable.walkPage (jsonFormat id 128) "session"
          { limit := some 0 }) 0 found := by
  constructor
  · apply InMemoryMemoryStore.stuck rfl
    intro hNone
    have hLength := congrArg List.length hNone
    revert hLength
    decide +kernel
  · have hRead : ∃ records,
        SqliteMemoryStore.readRows (jsonFormat id 128)
            "session"
            (pagedTable.matchingRows "session"
              { limit := some 0 }) =
          .ok records :=
      ⟨_, rfl⟩
    rcases hRead with ⟨records, hRead⟩
    exact SqliteMemoryStore.stuck pagedTable_keyed hRead rfl

end RainEngine.Stores
