import RainEngine.Coordination.InMemory
import RainEngine.Coordination.Redis
import RainEngine.Expiry.Boards

/-
  This file is about the scratchpads of the two coordination
  stores. Both stand for one board of values: the one in
  memory until the time to live of a value has passed, the one
  on a server until that time in whole seconds has. The server
  keeps the text of a value.

  Key definitions include:
    * `InMemoryCoordinationStore.scratchpadCall`
    * `ValkeyCoordinationStore.scratchpadCall`
    * `Apart`

  Key theorems include:
    * `inMemoryAnswer_eq`
    * `redisAnswer_eq`
    * `scratchpads_agree_iff`
-/

namespace RainEngine.Coordination

open Expiry

/- What is put under a namespace and a key, or read there. -/
abbrev ScratchpadCall : Type := BoardCall (String × String) Json

------------------------------------------------------------
-- The Scratchpad In Memory
------------------------------------------------------------

namespace InMemoryCoordinationStore

def pruneExpired
    (store : InMemoryCoordinationStore)
    (now : Nat) :
    InMemoryCoordinationStore :=
  (store.pruneClaims now).pruneScratchpad now

/- What a call leaves of the store. -/
def scratchpadCall
    (now : Nat)
    (store : InMemoryCoordinationStore) :
    ScratchpadCall → InMemoryCoordinationStore
| .read _ => store.pruneExpired now
| .post pair value ttl =>
    (store.pruneExpired now).scratchpadSet pair.1 pair.2 value
      ttl now

end InMemoryCoordinationStore

/- The answer to a get, some time after a run of calls. -/
def inMemoryAnswer
    (calls : List (Nat × ScratchpadCall))
    (wait : Nat)
    (pair : String × String) :
    Option Json :=
  let store :=
    runCalls InMemoryCoordinationStore.scratchpadCall 0 {}
      calls
  (store.pruneExpired (elapsed calls + wait)).scratchpadGet
    pair.1 pair.2

------------------------------------------------------------
-- The Scratchpad On A Server
------------------------------------------------------------

structure CoordinationError where
  message : String
deriving DecidableEq

/- How values are written as text, and read back. -/
structure JsonText where
  toText : Json → String
  fromText : String → Except CoordinationError Json

def nanosPerSecond : Nat := 1000000000

def asSecs (ttl : Nat) : Nat := ttl / nanosPerSecond

/- `SETEX key seconds value`, on a clock of nanoseconds. -/
def Redis.setex
    (db : Redis)
    (now : Nat)
    (key : String)
    (seconds : Nat)
    (value : String) :
    Redis :=
  db.set now key value (seconds * nanosPerSecond)

/- `Option::transpose`. -/
def transpose
    {ε α : Type} :
    Option (Except ε α) → Except ε (Option α)
| none => .ok none
| some (.ok value) => .ok (some value)
| some (.error error) => .error error

structure ValkeyCoordinationStore where
  namespaceName : String

namespace ValkeyCoordinationStore

def scratchpadGet
    (store : ValkeyCoordinationStore)
    (text : JsonText)
    (db : Redis)
    (now : Nat)
    (namespaceName key : String) :
    Except CoordinationError (Option Json) :=
  transpose
    ((db.get now
      (scratchpadKey store.namespaceName namespaceName
        key)).map text.fromText)

def scratchpadSet
    (store : ValkeyCoordinationStore)
    (text : JsonText)
    (db : Redis)
    (now : Nat)
    (namespaceName key : String)
    (value : Json)
    (ttl : Nat) :
    Redis :=
  let ttlSecs := max (asSecs ttl) 1
  db.setex now
    (scratchpadKey store.namespaceName namespaceName key)
    ttlSecs (text.toText value)

/- What a call leaves of the entries of the server. -/
def scratchpadCall
    (store : ValkeyCoordinationStore)
    (text : JsonText)
    (now : Nat)
    (db : Redis) :
    ScratchpadCall → Redis
| .read _ => db
| .post pair value ttl =>
    store.scratchpadSet text db now pair.1 pair.2 value ttl

end ValkeyCoordinationStore

/- The answer to a get, some time after a run of calls. -/
def redisAnswer
    (store : ValkeyCoordinationStore)
    (text : JsonText)
    (calls : List (Nat × ScratchpadCall))
    (wait : Nat)
    (pair : String × String) :
    Except CoordinationError (Option Json) :=
  let db :=
    runCalls (store.scratchpadCall text) 0 (fun _ => none)
      calls
  store.scratchpadGet text db (elapsed calls + wait) pair.1
    pair.2

------------------------------------------------------------
-- The Board Of Both
------------------------------------------------------------

/- What has been set last under every pair. -/
def lastSet
    (calls : List (Nat × ScratchpadCall)) :
    Board (String × String) Json :=
  runCalls Board.call 0 (fun _ => none) calls

/- The time to live in whole seconds, and at least one. -/
def wholeSeconds (ttl : Nat) : Nat :=
  max (asSecs ttl) 1 * nanosPerSecond

/- The keys of the server tell the pairs apart. -/
def Apart
    (store : ValkeyCoordinationStore)
    (pairs : List (String × String)) :
    Prop :=
  ∀ pair ∈ pairs, ∀ other ∈ pairs,
    scratchpadKey store.namespaceName pair.1 pair.2 =
        scratchpadKey store.namespaceName other.1 other.2 →
      pair = other

/- The pairs that are used in a run of calls and a get. -/
def usedPairs
    (calls : List (Nat × ScratchpadCall))
    (pair : String × String) :
    List (String × String) :=
  pair :: calls.map (·.2.key)

/- The entry of the server for what has been set. -/
def entryOf
    (text : JsonText)
    (post : Posted Json) :
    RedisEntry where
  value := text.toText post.value
  expiresAt := post.postedAt + wholeSeconds post.ttl

/- The server holds the text of a board, for some pairs. -/
def Stores
    (store : ValkeyCoordinationStore)
    (text : JsonText)
    (pairs : List (String × String))
    (db : Redis)
    (board : Board (String × String) Json) :
    Prop :=
  ∀ pair ∈ pairs,
    db (scratchpadKey store.namespaceName pair.1 pair.2) =
      (board pair).map (entryOf text)

section Answers

variable {store : ValkeyCoordinationStore}
variable {text : JsonText}
variable {calls : List (Nat × ScratchpadCall)}
variable {call : ScratchpadCall}
variable {wait now later : Nat}
variable {pair : String × String}
variable {pairs : List (String × String)}
variable {db : Redis}
variable {board : Board (String × String) Json}
variable {memory : InMemoryCoordinationStore}

/- The scratchpad in memory stands for a board. -/
abbrev PadOf
    (now : Nat)
    (memory : InMemoryCoordinationStore)
    (board : Board (String × String) Json) :
    Prop :=
  TableOf InMemoryScratchpadValue.pair
    InMemoryScratchpadValue.expiresAt
    InMemoryScratchpadValue.value now memory.scratchpad board

theorem padOf_call
    (hPad : PadOf now memory board)
    (hLater : now ≤ later) :
    PadOf later (memory.scratchpadCall later call)
      (board.call later call) := by
  have hPruned := TableOf.prune hPad hLater
  cases call with
  | read pair => exact hPruned
  | post pair value ttl =>
      exact @TableOf.upsert _ _ _ _ _ _ _ _ _
        ⟨pair.1, pair.2, value, later + ttl⟩ _ ttl hPruned rfl

/- Gets in memory read the board, in exact time. -/
theorem inMemoryAnswer_eq :
    inMemoryAnswer calls wait pair =
      (lastSet calls).readAs id (elapsed calls + wait)
        pair := by
  have hStart : PadOf 0 {} fun _ => none := by
    refine ⟨List.nodup_nil, ?_⟩
    intro later _ target
    rfl
  have hRun : PadOf (0 + elapsed calls)
      (runCalls InMemoryCoordinationStore.scratchpadCall 0 {}
        calls)
      (lastSet calls) :=
    runCalls_simulates (R := PadOf) (P := fun _ => True)
      (fun _ _ _ _ _ hPad _ hLater => padOf_call hPad hLater)
      (fun _ _ => trivial) hStart
  rw [Nat.zero_add] at hRun
  exact TableOf.lookup_prune hRun (Nat.le_add_right _ _)

theorem stores_call
    (hStores : Stores store text pairs db board)
    (hApart : Apart store pairs)
    (hCall : call.key ∈ pairs) :
    Stores store text pairs
      (store.scratchpadCall text now db call)
      (board.call now call) := by
  cases call with
  | read pair => exact hStores
  | post pair value ttl =>
      intro other hOther
      change db.set _ _ _ _ _ =
        (Function.update board pair _ other).map _
      by_cases hSame : other = pair
      · subst hSame
        rw [Function.update_self]
        exact Redis.set_self
      · rw [Function.update_of_ne hSame,
          ← hStores other hOther]
        apply Redis.set_other
        intro hKey
        exact hSame (hApart other hOther pair hCall hKey)

/- Gets on the server read the text of the board. -/
theorem redisAnswer_eq
    (hApart : Apart store (usedPairs calls pair)) :
    redisAnswer store text calls wait pair =
      transpose
        (((lastSet calls).readAs wholeSeconds
          (elapsed calls + wait) pair).map
            fun value => text.fromText (text.toText value)) := by
  have hStart : Stores store text (usedPairs calls pair)
      (fun _ => none) fun _ => none :=
    fun _ _ => rfl
  have hRun : Stores store text (usedPairs calls pair)
      (runCalls (store.scratchpadCall text) 0 (fun _ => none)
        calls)
      (lastSet calls) := by
    apply runCalls_simulates
      (R := fun _ => Stores store text (usedPairs calls pair))
      (P := fun call => call.key ∈ usedPairs calls pair)
    · intro now later db board call hStores hCall _
      exact stores_call hStores hApart hCall
    · intro p hMem
      exact List.mem_cons_of_mem _
        (List.mem_map_of_mem
          (f := fun p : Nat × ScratchpadCall => p.2.key) hMem)
    · exact hStart
  have hEntry := hRun pair List.mem_cons_self
  unfold redisAnswer ValkeyCoordinationStore.scratchpadGet
    Redis.get Redis.entryAt
  simp only
  rw [hEntry]
  unfold lastSet Board.readAs
  cases runCalls Board.call 0 (fun _ => none) calls pair with
  | none => rfl
  | some post =>
      by_cases hStands : post.Stands wholeSeconds
        (elapsed calls + wait)
      · have hNow : elapsed calls + wait <
            (entryOf text post).expiresAt := hStands
        simp only [Option.map_some, Option.filter, hStands,
          hNow, decide_true, if_true]
        rfl
      · have hNow : ¬elapsed calls + wait <
            (entryOf text post).expiresAt := hStands
        simp only [Option.map_some, Option.filter, hStands,
          hNow, decide_false]
        rfl

theorem transpose_injective
    {ε α : Type} :
    Function.Injective (@transpose ε α) := by
  intro a b hSame
  rcases a with _ | _ | _ <;> rcases b with _ | _ | _ <;>
    simp_all [transpose]

end Answers

/-
  For pairs whose keys the server tells apart, both answer the
  same exactly if the last value that was set stands for both
  or for none, and is read back from its text while it stands.
-/
theorem scratchpads_agree_iff
    (store : ValkeyCoordinationStore)
    (text : JsonText)
    (calls : List (Nat × ScratchpadCall))
    (wait : Nat)
    (pair : String × String)
    (hApart : Apart store (usedPairs calls pair)) :
    redisAnswer store text calls wait pair =
        .ok (inMemoryAnswer calls wait pair) ↔
      ∀ post ∈ lastSet calls pair,
        (post.Stands wholeSeconds (elapsed calls + wait) ↔
            post.Stands id (elapsed calls + wait)) ∧
          (post.Stands wholeSeconds (elapsed calls + wait) →
            text.fromText (text.toText post.value) =
              .ok post.value) := by
  have hOk : ∀ answer : Option Json,
      (.ok answer : Except CoordinationError (Option Json)) =
        transpose (answer.map .ok) := by
    intro answer
    cases answer <;> rfl
  rw [redisAnswer_eq hApart, inMemoryAnswer_eq, hOk,
    transpose_injective.eq_iff]
  exact Board.readAs_eq_readAs_iff

------------------------------------------------------------
-- Two Scratchpads
------------------------------------------------------------

namespace Sample

/- The text of the values that are used here. -/
def scalarText : JsonText where
  toText
  | .bool true => "true"
  | .bool false => "false"
  | _ => "null"
  fromText text :=
    if text = "true" then .ok (.bool true)
    else if text = "false" then .ok (.bool false)
    else if text = "null" then .ok .null
    else .error ⟨"expected value"⟩

def engineStore : ValkeyCoordinationStore := ⟨"rain_engine"⟩

/- Two values, for a minute and for a second and a half. -/
def kept : List (Nat × ScratchpadCall) :=
  [(0, .post ("ns", "key") (.bool true) 60000000000),
    (5, .post ("ns", "other") (.bool false) 1500000000)]

/- Two pairs that have one key on the server. -/
def joined : List (Nat × ScratchpadCall) :=
  [(0, .post ("a:b", "c") (.bool true) 60000000000),
    (0, .post ("a", "b:c") (.bool false) 60000000000)]

end Sample

/- The value that is set for a minute is there for both. -/
theorem scratchpads_agree_minute :
    redisAnswer Sample.engineStore Sample.scalarText
        Sample.kept 1200000000 ("ns", "key") =
      .ok (inMemoryAnswer Sample.kept 1200000000
        ("ns", "key")) := by
  apply (scratchpads_agree_iff Sample.engineStore
    Sample.scalarText Sample.kept 1200000000 ("ns", "key")
    (by unfold Apart; decide +kernel)).mpr
  intro post hPost
  cases hPost
  exact ⟨by decide +kernel, fun _ => rfl⟩

/-
  The other value is gone from the server before its time, and
  a value replaces that of another pair.
-/
theorem scratchpads_disagree :
    ¬(∀ store calls wait pair,
      redisAnswer store Sample.scalarText calls wait pair =
        .ok (inMemoryAnswer calls wait pair)) ∧
      redisAnswer Sample.engineStore Sample.scalarText
          Sample.joined 0 ("a:b", "c") =
        .ok (some (.bool false)) := by
  constructor
  · intro hAgree
    have hOther := hAgree Sample.engineStore Sample.kept
      1200000000 ("ns", "other")
    have hRedis :
        redisAnswer Sample.engineStore Sample.scalarText
          Sample.kept 1200000000 ("ns", "other") =
            .ok none :=
      rfl
    rw [hRedis] at hOther
    cases hOther
  · rfl

end RainEngine.Coordination
