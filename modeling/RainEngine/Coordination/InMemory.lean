import RainEngine.Expiry.Tables
import RainEngine.Kernel.Json

/-
  This file models the coordination store in memory: claims on
  trigger keys that expire, and a scratchpad. Each method
  prunes what has expired by its own reading of the clock, and
  then runs a section of its own.

  Key definitions include:
    * `InMemoryCoordinationStore`
    * `InMemoryCoordinationStore.claimTrigger`
    * `InMemoryCoordinationStore.renewClaim`
    * `InMemoryCoordinationStore.releaseClaim`
    * `InMemoryCoordinationStore.scratchpadGet`
    * `InMemoryCoordinationStore.scratchpadSet`
-/

namespace RainEngine.Coordination

/- The claim that is stored under a trigger key. -/
structure InMemoryClaim where
  triggerKey : String
  claimId : String
  expiresAt : Nat
deriving DecidableEq

structure InMemoryScratchpadValue where
  namespaceName : String
  key : String
  value : Json
  expiresAt : Nat

/- The key of an entry of the scratchpad. -/
def InMemoryScratchpadValue.pair
    (entry : InMemoryScratchpadValue) :
    String × String :=
  (entry.namespaceName, entry.key)

structure InMemoryCoordinationStore where
  claims : List InMemoryClaim := []
  scratchpad : List InMemoryScratchpadValue := []

/- What a worker is told of its claim. -/
structure CoordinationClaim where
  claimId : String
  triggerKey : String
deriving DecidableEq

namespace InMemoryCoordinationStore

/- The first half of `prune_expired`. -/
def pruneClaims
    (store : InMemoryCoordinationStore)
    (now : Nat) :
    InMemoryCoordinationStore :=
  { store with
    claims :=
      Expiry.prune InMemoryClaim.expiresAt now store.claims }

/- The second half of `prune_expired`. -/
def pruneScratchpad
    (store : InMemoryCoordinationStore)
    (now : Nat) :
    InMemoryCoordinationStore :=
  { store with
    scratchpad :=
      Expiry.prune InMemoryScratchpadValue.expiresAt now
        store.scratchpad }

def claimTrigger
    (store : InMemoryCoordinationStore)
    (triggerKey : String)
    (ttl : Nat)
    (claimId : String)
    (now : Nat) :
    Option CoordinationClaim × InMemoryCoordinationStore :=
  if store.claims.any (·.triggerKey = triggerKey) then
    (none, store)
  else
    (some ⟨claimId, triggerKey⟩,
      { store with
        claims := store.claims ++
          [⟨triggerKey, claimId, now + ttl⟩] })

def renewClaim
    (store : InMemoryCoordinationStore)
    (claimId : String)
    (ttl : Nat)
    (now : Nat) :
    Option CoordinationClaim × InMemoryCoordinationStore :=
  match Expiry.lookup InMemoryClaim.claimId store.claims
      claimId with
  | none => (none, store)
  | some claim =>
      (some ⟨claimId, claim.triggerKey⟩,
        { store with
          claims := Logs.changeAt InMemoryClaim.claimId
            store.claims claimId fun claim =>
              { claim with expiresAt := now + ttl } })

def releaseClaim
    (store : InMemoryCoordinationStore)
    (claimId : String) :
    InMemoryCoordinationStore :=
  match Expiry.lookup InMemoryClaim.claimId store.claims
      claimId with
  | none => store
  | some claim =>
      { store with
        claims := Expiry.remove InMemoryClaim.triggerKey
          store.claims claim.triggerKey }

def scratchpadGet
    (store : InMemoryCoordinationStore)
    (namespaceName key : String) :
    Option Json :=
  (Expiry.lookup InMemoryScratchpadValue.pair store.scratchpad
    (namespaceName, key)).map (·.value)

def scratchpadSet
    (store : InMemoryCoordinationStore)
    (namespaceName key : String)
    (value : Json)
    (ttl now : Nat) :
    InMemoryCoordinationStore :=
  { store with
    scratchpad := Logs.upsert InMemoryScratchpadValue.pair
      store.scratchpad
        ⟨namespaceName, key, value, now + ttl⟩ }

------------------------------------------------------------
-- What The Sections Do
------------------------------------------------------------

variable {store : InMemoryCoordinationStore}
variable {triggerKey claimId : String}
variable {claim : InMemoryClaim}
variable {ttl now : Nat}

/- A claim is granted when its key has none. -/
theorem claimTrigger_cases :
    (∃ claim ∈ store.claims, claim.triggerKey = triggerKey) ∧
        store.claimTrigger triggerKey ttl claimId now =
          (none, store) ∨
      (∀ claim ∈ store.claims,
          claim.triggerKey ≠ triggerKey) ∧
        store.claimTrigger triggerKey ttl claimId now =
          (some ⟨claimId, triggerKey⟩,
            { store with
              claims := store.claims ++
                [⟨triggerKey, claimId, now + ttl⟩] }) := by
  unfold claimTrigger
  by_cases hTaken : store.claims.any
      (·.triggerKey = triggerKey) = true
  · left
    rw [if_pos hTaken]
    refine ⟨?_, rfl⟩
    simpa using hTaken
  · right
    rw [if_neg hTaken]
    refine ⟨?_, rfl⟩
    simpa using hTaken

/- A claim is renewed when it is still stored. -/
theorem renewClaim_cases :
    (∀ claim ∈ store.claims, claim.claimId ≠ claimId) ∧
        store.renewClaim claimId ttl now = (none, store) ∨
      ∃ claim ∈ store.claims, claim.claimId = claimId ∧
        store.renewClaim claimId ttl now =
          (some ⟨claimId, claim.triggerKey⟩,
            { store with
              claims := Logs.changeAt InMemoryClaim.claimId
                store.claims claimId fun claim =>
                  { claim with expiresAt := now + ttl } }) := by
  unfold renewClaim
  split
  · rename_i hNone
    exact .inl ⟨Expiry.lookup_eq_none.mp hNone, rfl⟩
  · rename_i claim hFound
    have hId := List.find?_some hFound
    exact .inr ⟨claim, List.mem_of_find?_eq_some hFound,
      by simpa using hId, rfl⟩

/- A claim is removed when it is still stored. -/
theorem releaseClaim_cases :
    (∀ claim ∈ store.claims, claim.claimId ≠ claimId) ∧
        store.releaseClaim claimId = store ∨
      ∃ claim ∈ store.claims, claim.claimId = claimId ∧
        store.releaseClaim claimId =
          { store with
            claims := Expiry.remove InMemoryClaim.triggerKey
              store.claims claim.triggerKey } := by
  unfold releaseClaim
  split
  · rename_i hNone
    exact .inl ⟨Expiry.lookup_eq_none.mp hNone, rfl⟩
  · rename_i claim hFound
    have hId := List.find?_some hFound
    exact .inr ⟨claim, List.mem_of_find?_eq_some hFound,
      by simpa using hId, rfl⟩

end InMemoryCoordinationStore

end RainEngine.Coordination
