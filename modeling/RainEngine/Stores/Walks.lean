import RainEngine.Stores.Appenders
import RainEngine.Stores.Postgres

/-
  This file is about walking through the records of a session
  page by page while records are appended to a Postgres table.
  The pages are counted from the records that were found, so a
  record that is committed below one of them shifts the rest:
  the walk is exact if there is none, and otherwise it misses
  a record and finds another one twice.

  Key definitions include:
    * `PgWalkState.step`
    * `PgWalkState.IsLate`
    * `PgWalking`
    * `Moves`

  Key theorems include:
    * `PgWalking.page`
    * `PgWalking.step`
    * `walked`
    * `postgres_walk_exact`
-/

namespace RainEngine.Stores

open Logs (ordered InPlace Passes nextItems)
open Transitions (Reaches follow follow_reaches)

------------------------------------------------------------
-- Walks Over Postgres
------------------------------------------------------------

/-
  A Postgres table, and a walk: where its next page begins, if
  there is one, and what it has found.
-/
structure PgWalkState (Text : Type) where
  ledger : PgState Text := {}
  offset : Option Nat := some 0
  found : List StoredSessionRecord := []

inductive PgWalkAction where
  | store (action : PgAction)
  | page

/-
  A step of an insert, or a page of the walk. A page that
  fails is asked for again.
-/
def PgWalkState.step
    {Text : Type}
    (format : PayloadFormat Text)
    (refusal : MemoryError)
    (sessionId : String)
    (params : RecordListParams)
    (s : PgWalkState Text) :
    PgWalkAction → Option (PgWalkState Text)
| .store action =>
    (s.ledger.step format action).map fun ledger =>
      { s with ledger := ledger }
| .page =>
    s.offset.map fun offset =>
      match pageAt (s.ledger.store.listRecords format refusal)
          sessionId params offset with
      | .error _ => s
      | .ok page =>
          { s with
            offset := page.nextOffset
            found := s.found ++ page.records }

section Walking

variable {Text : Type}
variable {format : PayloadFormat Text}
variable {refusal : MemoryError}
variable {sessionId : String}
variable {params : RecordListParams}
variable {s s' : PgWalkState Text}
variable {action : PgWalkAction}

/- The rows that the walk is to find. -/
def PgWalkState.rows
    (s : PgWalkState Text)
    (sessionId : String)
    (params : RecordListParams) :
    List (SessionRow Text) :=
  s.ledger.store.table.matchingRows sessionId params

/- The numbers of these rows, as they were committed. -/
def PgWalkState.numbers
    (s : PgWalkState Text)
    (sessionId : String)
    (params : RecordListParams) :
    List Int :=
  (s.rows sessionId params).map (·.sequenceNo)

/- The numbers of what the walk has found. -/
def PgWalkState.foundNumbers
    (s : PgWalkState Text) :
    List Int :=
  s.found.map (·.sequenceNo)

theorem PgWalkState.ordered_numbers
    (s : PgWalkState Text) :
    ordered (s.numbers sessionId params) =
      (Tables.orderBy (·.sequenceNo)
        (s.rows sessionId params)).map (·.sequenceNo) :=
  Logs.ordered_map _ _

/- The query of the walk matches a row. -/
def matchesRow
    (sessionId : String)
    (params : RecordListParams)
    (row : SessionRow Text) :
    Bool :=
  decide (row.sessionId = sessionId) &&
    Tables.within params.sinceMs params.untilMs
      row.occurredAtMs

/-
  The step commits a row that is to be found, below one that
  has been found.
-/
def PgWalkState.IsLate
    (sessionId : String)
    (params : RecordListParams)
    (s : PgWalkState Text)
    (action : PgWalkAction) :
    Prop :=
  ∃ insert,
    action = .store (.commit insert.row.sequenceNo) ∧
      s.ledger.waiting insert.row.sequenceNo = some insert ∧
      matchesRow sessionId params insert.row = true ∧
      ¬∀ old ∈ s.foundNumbers, old < insert.row.sequenceNo

/- What every step of the table and the walk keeps. -/
structure PgWalking
    (format : PayloadFormat Text)
    (sessionId : String)
    (params : RecordListParams)
    (s : PgWalkState Text) : Prop where
  sound : s.ledger.Sound format
  counted : ∀ offset ∈ s.offset, offset = s.found.length
  known : s.foundNumbers ⊆ s.numbers sessionId params
  short :
    s.found.length ≤ (s.numbers sessionId params).length

theorem pgWalking_start :
    PgWalking format sessionId params {} where
  sound := PgState.sound_start
  counted := by
    intro offset hOffset
    cases hOffset
    rfl
  known := List.nil_subset _
  short := Nat.zero_le _

theorem PgWalking.distinct
    (hWalking : PgWalking format sessionId params s) :
    (s.numbers sessionId params).Nodup :=
  (List.filter_sublist.map _).nodup hWalking.sound.keys

/- There are fewer rows than there are numbers. -/
theorem PgWalking.length_lt
    (hWalking : PgWalking format sessionId params s) :
    (s.numbers sessionId params).length < 2 ^ 63 := by
  have hPerm := Logs.orderBy_perm
    (fun row : SessionRow Text => row.sequenceNo)
    (s.rows sessionId params)
  have hIncreasing :
      ((Tables.orderBy (·.sequenceNo)
        (s.rows sessionId params)).map
          (·.sequenceNo)).Pairwise (· < ·) := by
    rw [← s.ordered_numbers]
    exact Logs.ordered_pairwise hWalking.distinct
  have hLength := SqliteMemoryStore.length_le_of_increasing
    (List.pairwise_map.mp hIncreasing)
    (fun row hMem => by
      have hRow : row ∈ s.ledger.store.sessionRecords :=
        List.mem_of_mem_filter (hPerm.mem_iff.mp hMem)
      have hIssued := hWalking.sound.issued row.sequenceNo
        (List.mem_append_left _ (List.mem_map_of_mem hRow))
      exact ⟨hIssued.1, lt_of_le_of_lt hIssued.2
        hWalking.sound.fits.2⟩)
    (show (0 : Int) < 2 ^ 63 by norm_num)
  rw [hPerm.length_eq] at hLength
  unfold PgWalkState.numbers
  rw [List.length_map]
  omega

------------------------------------------------------------
-- Pages
------------------------------------------------------------

/- A page holds the next rows, and goes on if it is full. -/
theorem PgWalking.page
    {offset : Nat}
    {page : RecordPage}
    (hWalking : PgWalking format sessionId params s)
    (hLimit : params.limit.getD 100 < 2 ^ 64)
    (hOffset : s.offset = some offset)
    (hPage :
      pageAt (s.ledger.store.listRecords format refusal)
          sessionId params offset =
        .ok page) :
    page.records.map (·.sequenceNo) =
        nextItems s.foundNumbers
          (s.numbers sessionId params)
          (params.limit.getD 100) ∧
      page.nextOffset =
        if page.records.length = params.limit.getD 100 then
          some (offset + page.records.length)
        else none := by
  have hCounted := hWalking.counted offset hOffset
  have hShort := hWalking.short
  have hBound := hWalking.length_lt
  have hAsOffset : asI64 offset = offset :=
    asI64_of_lt (by omega)
  unfold pageAt handleListRecords RecordListParams.query
    PgMemoryStore.listRecords at hPage
  simp only [Option.getD_some] at hPage
  split at hPage
  · cases hPage
  · rename_i hAccepted
    have hSmall : params.limit.getD 100 < 2 ^ 63 := by
      by_contra hLarge
      apply hAccepted
      left
      unfold asI64
      rw [Int.bmod_def]
      omega
    have hSelected :
        Tables.page (asI64 (params.limit.getD 100))
            (asI64 offset)
            (Tables.orderBy (·.sequenceNo)
              (s.rows sessionId params)) =
          ((Tables.orderBy (·.sequenceNo)
            (s.rows sessionId params)).drop offset).take
              (params.limit.getD 100) := by
      rw [hAsOffset, asI64_of_lt hSmall,
        Tables.page_of_nonneg]
    unfold SqliteMemoryStore.listRecords at hPage
    change (SqliteMemoryStore.readRows format sessionId
      (Tables.page (asI64 (params.limit.getD 100))
        (asI64 offset)
        (Tables.orderBy (·.sequenceNo)
          (s.rows sessionId params))) >>= _) = _ at hPage
    rw [hSelected] at hPage
    cases hRead : SqliteMemoryStore.readRows format sessionId
        (((Tables.orderBy (·.sequenceNo)
          (s.rows sessionId params)).drop offset).take
            (params.limit.getD 100)) with
    | error error =>
        rw [hRead] at hPage
        cases hPage
    | ok records =>
        rw [hRead] at hPage
        cases hPage
        refine ⟨?_, rfl⟩
        dsimp only
        rw [readRows_sequenceNo hRead, List.map_take,
          List.map_drop, ← s.ordered_numbers, hCounted]
        unfold nextItems PgWalkState.foundNumbers
        rw [List.length_map]

------------------------------------------------------------
-- Steps
------------------------------------------------------------

/-
  What a step does to an exact walk, and to one that is past
  a record it has not found.
-/
structure Moves
    (sessionId : String)
    (params : RecordListParams)
    (s : PgWalkState Text)
    (action : PgWalkAction)
    (s' : PgWalkState Text) : Prop where
  inPlace :
    InPlace s.foundNumbers (s.numbers sessionId params) →
      ¬s.IsLate sessionId params action →
        InPlace s'.foundNumbers (s'.numbers sessionId params)
  late :
    InPlace s.foundNumbers (s.numbers sessionId params) →
      s.IsLate sessionId params action →
        Passes s'.foundNumbers (s'.numbers sessionId params)
  passes :
    Passes s.foundNumbers (s.numbers sessionId params) →
      Passes s'.foundNumbers (s'.numbers sessionId params)

theorem not_isLate_page :
    ¬s.IsLate sessionId params .page := by
  rintro ⟨insert, ⟨⟩, _⟩

/- A page that was read holds what is left, up to the limit. -/
theorem PgWalking.page_length
    {offset : Nat}
    {page : RecordPage}
    (hWalking : PgWalking format sessionId params s)
    (hLimit : params.limit.getD 100 < 2 ^ 64)
    (hOffset : s.offset = some offset)
    (hPage :
      pageAt (s.ledger.store.listRecords format refusal)
          sessionId params offset =
        .ok page) :
    page.records.length =
      min (params.limit.getD 100)
        ((s.numbers sessionId params).length -
          s.found.length) := by
  have hItems := (hWalking.page hLimit hOffset hPage).1
  have hCount := congrArg List.length hItems
  unfold nextItems PgWalkState.foundNumbers at hCount
  rw [List.length_map, List.length_take, List.length_drop,
    List.length_map,
    (Logs.ordered_perm _).length_eq] at hCount
  exact hCount

/- The walk after a page that was read. -/
def PgWalkState.turned
    (s : PgWalkState Text)
    (page : RecordPage) :
    PgWalkState Text :=
  { s with
    offset := page.nextOffset
    found := s.found ++ page.records }

/- A page that was read takes the walk on by what it holds. -/
theorem PgWalking.turned
    {offset : Nat}
    {page : RecordPage}
    (hWalking : PgWalking format sessionId params s)
    (hLimit : params.limit.getD 100 < 2 ^ 64)
    (hOffset : s.offset = some offset)
    (hPage :
      pageAt (s.ledger.store.listRecords format refusal)
          sessionId params offset =
        .ok page) :
    PgWalking format sessionId params (s.turned page) ∧
      Moves sessionId params s .page (s.turned page) ∧
        (page.nextOffset = none →
          (s.numbers sessionId params).length ≤
            (s.turned page).foundNumbers.length) := by
  rcases hWalking.page hLimit hOffset hPage with
    ⟨hItems, hOn⟩
  have hLength :=
    hWalking.page_length hLimit hOffset hPage
  have hCounted := hWalking.counted offset hOffset
  have hShort := hWalking.short
  have hAll :
      (s.turned page).found.length =
        s.found.length + page.records.length :=
    List.length_append
  have hFound :
      (s.turned page).foundNumbers =
        s.foundNumbers ++
          nextItems s.foundNumbers
            (s.numbers sessionId params)
            (params.limit.getD 100) := by
    unfold PgWalkState.turned PgWalkState.foundNumbers
    rw [List.map_append, hItems]
    rfl
  refine ⟨⟨hWalking.sound, ?_, ?_, ?_⟩, ⟨?_, ?_, ?_⟩, ?_⟩
  · intro next hNext
    change page.nextOffset = some next at hNext
    rw [hOn] at hNext
    split at hNext
    · cases hNext
      rw [hAll, hCounted]
    · cases hNext
  · rw [hFound]
    exact List.append_subset.mpr
      ⟨hWalking.known, Logs.nextItems_subset⟩
  · rw [hAll]
    change _ ≤ (s.numbers sessionId params).length
    omega
  · intro hInPlace _
    rw [hFound]
    exact hInPlace.fetch
  · intro _ hLate
    exact (not_isLate_page hLate).elim
  · intro hPasses
    rw [hFound]
    exact hPasses.fetch hWalking.distinct
  · intro hNone
    rw [hOn] at hNone
    split at hNone
    · cases hNone
    · rename_i hPartial
      unfold PgWalkState.foundNumbers
      rw [List.length_map, hAll]
      omega

/- After the last page as much was found as there is. -/
theorem PgWalking.turn
    (hWalking : PgWalking format sessionId params s)
    (hLimit : params.limit.getD 100 < 2 ^ 64)
    (hStep :
      s.step format refusal sessionId params .page =
        some s') :
    PgWalking format sessionId params s' ∧
      Moves sessionId params s .page s' ∧
        (s'.offset = none →
          (s'.numbers sessionId params).length ≤
            s'.foundNumbers.length) := by
  unfold PgWalkState.step at hStep
  rw [Option.map_eq_some_iff] at hStep
  rcases hStep with ⟨offset, hOffset, hNext⟩
  cases hPage : pageAt
      (s.ledger.store.listRecords format refusal) sessionId
        params offset with
  | error error =>
      rw [hPage] at hNext
      dsimp only at hNext
      subst hNext
      refine ⟨hWalking, ⟨fun hInPlace _ => hInPlace,
        fun _ hLate => (not_isLate_page hLate).elim,
        fun hPasses => hPasses⟩, ?_⟩
      intro hNone
      rw [hOffset] at hNone
      cases hNone
  | ok page =>
      rw [hPage] at hNext
      dsimp only at hNext
      subst hNext
      exact hWalking.turned hLimit hOffset hPage

/- A commit adds a row that matches to what is to be found. -/
theorem numbers_of_commit
    {ledger : PgState Text}
    {insert : PgInsert Text}
    (hCommits : PgState.Commits s.ledger ledger insert) :
    ({ s with ledger := ledger } :
        PgWalkState Text).numbers sessionId params =
      s.numbers sessionId params ++
        if matchesRow sessionId params insert.row then
          [insert.row.sequenceNo]
        else [] := by
  rw [hCommits.next]
  unfold PgWalkState.numbers PgWalkState.rows
    SqliteMemoryStore.matchingRows PgMemoryStore.table
    matchesRow
  dsimp only
  rw [List.filter_append, List.map_append,
    List.filter_singleton]
  split
  · rename_i hMatches
    rw [hMatches]
    rfl
  · rename_i hOther
    rw [Bool.eq_false_of_not_eq_true hOther]
    rfl

/- A step adds at most one number, which is late or not. -/
theorem numbers_grow
    {ledger : PgState Text}
    {action : PgAction}
    (hLedger : s.ledger.step format action = some ledger) :
    let next : PgWalkState Text := { s with ledger := ledger }
    (next.numbers sessionId params =
        s.numbers sessionId params ∧
      ¬s.IsLate sessionId params (.store action)) ∨
    ∃ number,
      next.numbers sessionId params =
          s.numbers sessionId params ++ [number] ∧
        (s.IsLate sessionId params (.store action) ↔
          ¬∀ old ∈ s.foundNumbers, old < number) := by
  dsimp only
  rcases PgState.rows_grow hLedger with
    hSame | ⟨insert, hAction, hCommits⟩
  · left
    constructor
    · unfold PgWalkState.numbers PgWalkState.rows
        SqliteMemoryStore.matchingRows PgMemoryStore.table
      dsimp only
      rw [hSame]
    · intro hLate
      rcases hLate with ⟨insert, hAction, hWaiting, _⟩
      cases hAction
      have hCommits :=
        PgState.commits_of_waiting hWaiting hLedger
      rw [hCommits.next] at hSame
      simp at hSame
  · have hNumbers :
        ({ s with ledger := ledger } :
            PgWalkState Text).numbers sessionId params =
          s.numbers sessionId params ++
            if matchesRow sessionId params insert.row then
              [insert.row.sequenceNo]
            else [] :=
      numbers_of_commit hCommits
    subst hAction
    by_cases hMatches :
        matchesRow sessionId params insert.row = true
    · right
      rw [if_pos hMatches] at hNumbers
      refine ⟨_, hNumbers, ?_⟩
      constructor
      · intro hLate
        rcases hLate with ⟨other, hAction, _, _, hNot⟩
        injection hAction with hAction
        injection hAction with hNumber
        rw [hNumber]
        exact hNot
      · intro hNot
        exact ⟨insert, rfl, hCommits.waiting, hMatches, hNot⟩
    · left
      rw [if_neg hMatches, List.append_nil] at hNumbers
      refine ⟨hNumbers, ?_⟩
      intro hLate
      rcases hLate with ⟨other, hAction, hWaiting, hOther, _⟩
      injection hAction with hAction
      injection hAction with hNumber
      rw [← hNumber, hCommits.waiting] at hWaiting
      cases hWaiting
      exact hMatches hOther

/- A step of the table leaves what was found as it is. -/
theorem PgWalking.append
    {ledger : PgState Text}
    {action : PgAction}
    (hWalking : PgWalking format sessionId params s)
    (hLedger : s.ledger.step format action = some ledger) :
    PgWalking format sessionId params
        { s with ledger := ledger } ∧
      Moves sessionId params s (.store action)
        { s with ledger := ledger } := by
  have hSound := hWalking.sound.step hLedger
  rcases numbers_grow hLedger with
    ⟨hNumbers, hTimely⟩ | ⟨number, hNumbers, hLate⟩
  · refine ⟨⟨hSound, hWalking.counted, ?_, ?_⟩,
      ⟨?_, ?_, ?_⟩⟩
    · rw [hNumbers]
      exact hWalking.known
    · rw [hNumbers]
      exact hWalking.short
    · intro hInPlace _
      rw [hNumbers]
      exact hInPlace
    · intro _ hLate
      exact (hTimely hLate).elim
    · intro hPasses
      rw [hNumbers]
      exact hPasses
  · have hDistinct :
        (s.numbers sessionId params ++ [number]).Nodup := by
      rw [← hNumbers]
      exact (List.filter_sublist.map _).nodup hSound.keys
    have hNew : number ∉ s.numbers sessionId params := by
      intro hMem
      exact (List.nodup_append.mp hDistinct).2.2 number hMem
        number (List.mem_singleton_self _) rfl
    refine ⟨⟨hSound, hWalking.counted, ?_, ?_⟩,
      ⟨?_, ?_, ?_⟩⟩
    · rw [hNumbers]
      exact List.subset_append_of_subset_left _ hWalking.known
    · rw [hNumbers, List.length_append]
      exact Nat.le_add_right_of_le hWalking.short
    · intro hInPlace hTimely
      rw [hLate, not_not] at hTimely
      rw [hNumbers]
      exact hInPlace.arrive hWalking.distinct hNew hTimely
    · intro hInPlace hIsLate
      rw [hNumbers]
      exact hInPlace.late hWalking.distinct hNew
        (hLate.mp hIsLate)
    · intro hPasses
      rw [hNumbers]
      exact hPasses.arrive hWalking.distinct hNew
        hWalking.known

/- What every step keeps, and what it does to the walk. -/
theorem PgWalking.step
    (hWalking : PgWalking format sessionId params s)
    (hLimit : params.limit.getD 100 < 2 ^ 64)
    (hStep :
      s.step format refusal sessionId params action =
        some s') :
    PgWalking format sessionId params s' ∧
      Moves sessionId params s action s' := by
  cases action with
  | page =>
      rcases hWalking.turn hLimit hStep with
        ⟨hNext, hMoves, _⟩
      exact ⟨hNext, hMoves⟩
  | store action =>
      unfold PgWalkState.step at hStep
      rw [Option.map_eq_some_iff] at hStep
      rcases hStep with ⟨ledger, hLedger, rfl⟩
      exact hWalking.append hLedger

/- A run keeps the walk exact until a step is late. -/
theorem walked
    {trace : List (PgWalkState Text × PgWalkAction)}
    (hLimit : params.limit.getD 100 < 2 ^ 64)
    (hReach :
      Reaches
        (PgWalkState.step format refusal sessionId params) {}
        trace s) :
    PgWalking format sessionId params s ∧
      ((∀ p ∈ trace, ¬p.1.IsLate sessionId params p.2) →
        InPlace s.foundNumbers
          (s.numbers sessionId params)) ∧
      ((∃ p ∈ trace, p.1.IsLate sessionId params p.2) →
        Passes s.foundNumbers
          (s.numbers sessionId params)) := by
  induction hReach with
  | start =>
      refine ⟨pgWalking_start,
        fun _ => Logs.inPlace_nothing, ?_⟩
      intro hLate
      rcases hLate with ⟨p, hMem, _⟩
      cases hMem
  | @step trace s s' action _ hStep ih =>
      rcases ih with ⟨hWalking, hInPlace, hPasses⟩
      rcases hWalking.step hLimit hStep with ⟨hNext, hMoves⟩
      refine ⟨hNext, ?_, ?_⟩
      · intro hTimely
        apply hMoves.inPlace
        · apply hInPlace
          intro p hMem
          exact hTimely p (List.mem_append_left _ hMem)
        · exact hTimely (s, action) (by simp)
      · intro hLate
        by_cases hEarlier :
            ∃ p ∈ trace, p.1.IsLate sessionId params p.2
        · exact hMoves.passes (hPasses hEarlier)
        · -- the last step is the first one that is late
          rcases hLate with ⟨p, hMem, hLate⟩
          apply hMoves.late
          · apply hInPlace
            intro q hOld hIsLate
            exact hEarlier ⟨q, hOld, hIsLate⟩
          · rcases List.mem_append.mp hMem with hOld | hNew
            · exact (hEarlier ⟨p, hOld, hLate⟩).elim
            · rw [List.mem_singleton.mp hNew] at hLate
              exact hLate

/-
  A walk that ends has found the records in the order of their
  numbers, each of them once, if nothing was committed below
  what had been found. Otherwise it has missed a record, and
  found another one twice.
-/
theorem postgres_walk_exact
    {trace : List (PgWalkState Text × PgWalkAction)}
    (hLimit : params.limit.getD 100 < 2 ^ 64)
    (hReach :
      Reaches
        (PgWalkState.step format refusal sessionId params) {}
        trace s)
    (hStep :
      s.step format refusal sessionId params .page = some s')
    (hEnd : s'.offset = none) :
    ((∀ p ∈ trace, ¬p.1.IsLate sessionId params p.2) →
      s'.foundNumbers =
        ordered (s'.numbers sessionId params)) ∧
    ((∃ p ∈ trace, p.1.IsLate sessionId params p.2) →
      (∃ number ∈ s'.numbers sessionId params,
        number ∉ s'.foundNumbers) ∧
      ¬s'.foundNumbers.Nodup) := by
  rcases walked hLimit hReach with
    ⟨hWalking, hInPlace, hPasses⟩
  rcases hWalking.turn hLimit hStep with
    ⟨hNext, hMoves, hLast⟩
  constructor
  · intro hTimely
    exact (hMoves.inPlace (hInPlace hTimely)
      not_isLate_page).complete (hLast hEnd)
  · intro hLate
    exact (hMoves.passes (hPasses hLate)).repeats hNext.known
      (hLast hEnd)

end Walking

namespace Sample

/- The first insert is committed after the first page. -/
def lateWalk : List PgWalkAction :=
  [.store (.start (claim "a")), .store (.start (claim "b")),
    .store (.commit 2), .page, .store (.commit 1), .page]

def lateWalkRun :
    List (PgWalkState Json × PgWalkAction) ×
      PgWalkState Json :=
  follow
    (PgWalkState.step (jsonFormat id 128) ⟨"refused"⟩
      "session" { limit := some 1 })
    [] {} lateWalk

end Sample

set_option maxRecDepth 100000 in
/- The first record is missed, and the second found twice. -/
theorem postgres_walk_late_commit :
    ∃ s' : PgWalkState Json,
      s'.foundNumbers = [2, 2] ∧
        (∃ number ∈ s'.numbers "session" { limit := some 1 },
          number ∉ s'.foundNumbers) ∧
        ¬s'.foundNumbers.Nodup := by
  have hLate : ∃ p ∈ Sample.lateWalkRun.1,
      p.1.IsLate "session" { limit := some 1 } p.2 := by
    refine ⟨Sample.lateWalkRun.1[4], List.getElem_mem _,
      .of (Sample.claim "a") 1 _, rfl, rfl, rfl, ?_⟩
    decide +kernel
  exact ⟨_, by decide +kernel,
    (postgres_walk_exact (by decide)
      (follow_reaches Sample.lateWalk .start) rfl rfl).2
        hLate⟩

end RainEngine.Stores
