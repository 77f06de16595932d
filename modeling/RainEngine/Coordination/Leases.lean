import Mathlib.Logic.Function.Basic
import RainEngine.Coordination.InMemory
import RainEngine.Transitions.Reaches

/-
  This file is about workers that share a coordination store
  in memory. The sections of their calls may come in any order,
  and a call prunes by a clock it has read before. A lease that
  is held stays stored until it expires, so no key has two.

  Key definitions include:
    * `CoordinationCall.run`
    * `CoordinationState.step`
    * `SafeLeases`
    * `SafeStep`

  Key theorems include:
    * `Consistent.step`
    * `leases_safe`
-/

namespace RainEngine.Coordination

open Transitions

------------------------------------------------------------
-- Workers
------------------------------------------------------------

inductive CoordinationCall where
  | claimTrigger (triggerKey : String) (ttl : Nat)
  | renewClaim (claimId : String) (ttl : Nat)
  | releaseClaim (claimId : String)
  | scratchpadGet (namespaceName key : String)
  | scratchpadSet (namespaceName key : String) (value : Json)
      (ttl : Nat)

inductive CallResult where
  | claim (claim : Option CoordinationClaim)
  | released
  | value (value : Option Json)
  | stored

/- The last section of a call, after its pruning. -/
def CoordinationCall.run
    (store : InMemoryCoordinationStore)
    (claimId : String)
    (now : Nat) :
    CoordinationCall → CallResult × InMemoryCoordinationStore
| .claimTrigger triggerKey ttl =>
    let (claim, store) :=
      store.claimTrigger triggerKey ttl claimId now
    (.claim claim, store)
| .renewClaim claimId ttl =>
    let (claim, store) := store.renewClaim claimId ttl now
    (.claim claim, store)
| .releaseClaim claimId =>
    (.released, store.releaseClaim claimId)
| .scratchpadGet namespaceName key =>
    (.value (store.scratchpadGet namespaceName key), store)
| .scratchpadSet namespaceName key value ttl =>
    (.stored,
      store.scratchpadSet namespaceName key value ttl now)

/-
  A worker between two sections of a call. It prunes by the
  time at which it has read the clock.
-/
inductive Worker where
  | idle
  | pruneClaims (call : CoordinationCall) (clock : Nat)
  | pruneScratchpad (call : CoordinationCall) (clock : Nat)
  | ready (call : CoordinationCall)
  | answered (result : CallResult)

/-
  The store and its workers, the ids that have been issued,
  and the leases that workers have been granted and have not
  released, with the expiry they were last told.
-/
structure CoordinationState (ι : Type) where
  now : Nat := 0
  store : InMemoryCoordinationStore := {}
  workers : ι → Worker := fun _ => .idle
  issued : List String := []
  held : List InMemoryClaim := []

inductive CoordinationAction (ι : Type) where
  | wait (ms : Nat)
  | call (worker : ι) (call : CoordinationCall)
  | prune (worker : ι)
  | run (worker : ι) (claimId : String)

/- The lease with a new expiry, if it is the one renewed. -/
def extendLease
    (claimId : String)
    (expiresAt : Nat)
    (lease : InMemoryClaim) :
    InMemoryClaim :=
  if lease.claimId = claimId then
    { lease with expiresAt := expiresAt }
  else lease

/- What the result of a call does to the leases. -/
def leasesAfter
    (held : List InMemoryClaim)
    (now : Nat) :
    CoordinationCall → CallResult → List InMemoryClaim
| .claimTrigger _ ttl, .claim (some claim) =>
    held ++ [⟨claim.triggerKey, claim.claimId, now + ttl⟩]
| .renewClaim claimId ttl, .claim (some _) =>
    held.map (extendLease claimId (now + ttl))
| .releaseClaim claimId, _ =>
    held.filter (·.claimId ≠ claimId)
| _, _ => held

namespace CoordinationState

variable {ι : Type} [DecidableEq ι]

def put
    (s : CoordinationState ι)
    (worker : ι)
    (phase : Worker) :
    CoordinationState ι :=
  { s with workers := Function.update s.workers worker phase }

/- One section of one worker. New claim ids are unique. -/
def step
    (s : CoordinationState ι) :
    CoordinationAction ι → Option (CoordinationState ι)
| .wait ms => some { s with now := s.now + ms }
| .call worker call =>
    match s.workers worker with
    | .idle => some (s.put worker (.pruneClaims call s.now))
    | .answered _ =>
        some (s.put worker (.pruneClaims call s.now))
    | _ => none
| .prune worker =>
    match s.workers worker with
    | .pruneClaims call clock =>
        some
          ({ s with store := s.store.pruneClaims clock }.put
            worker (.pruneScratchpad call clock))
    | .pruneScratchpad call clock =>
        some
          ({ s with store := s.store.pruneScratchpad clock }.put
            worker (.ready call))
    | _ => none
| .run worker claimId =>
    match s.workers worker with
    | .ready call =>
        if claimId ∈ s.issued then none
        else
          let (result, store) := call.run s.store claimId s.now
          some
            ({ s with
                store := store
                issued := s.issued ++ [claimId]
                held := leasesAfter s.held s.now call result
              }.put worker (.answered result))
    | _ => none

end CoordinationState

------------------------------------------------------------
-- Safety
------------------------------------------------------------

/-
  Every key has at most one stored claim, and at most one of
  the leases that are held on it has not expired.
-/
structure SafeLeases
    {ι : Type}
    (s : CoordinationState ι) : Prop where
  single : (s.store.claims.map (·.triggerKey)).Nodup
  exclusive :
    ∀ lease ∈ s.held, ∀ other ∈ s.held,
      lease.triggerKey = other.triggerKey →
        s.now < lease.expiresAt → s.now < other.expiresAt →
          lease = other

/- The claim id a call is about. -/
def CoordinationCall.target :
    CoordinationCall → Option String
| .renewClaim claimId _ => some claimId
| .releaseClaim claimId => some claimId
| _ => none

/-
  A claim is granted only when no claim is stored under its
  key and no lease that is held on it is unexpired. To renew
  or release a claim leaves all claims with other ids as they
  are.
-/
structure SafeStep
    {ι : Type}
    (s : CoordinationState ι)
    (action : CoordinationAction ι)
    (s' : CoordinationState ι) : Prop where
  granted :
    ∀ worker claimId triggerKey ttl claim,
      action = .run worker claimId →
        s.workers worker =
            .ready (.claimTrigger triggerKey ttl) →
          s'.workers worker = .answered (.claim (some claim)) →
            (∀ stored ∈ s.store.claims,
              stored.triggerKey ≠ triggerKey) ∧
              ∀ lease ∈ s.held,
                lease.triggerKey = triggerKey →
                  lease.expiresAt ≤ s.now
  untouched :
    ∀ worker newId call claimId,
      action = .run worker newId →
        s.workers worker = .ready call →
          call.target = some claimId →
            ∀ stored : InMemoryClaim, stored.claimId ≠ claimId →
              (stored ∈ s'.store.claims ↔
                stored ∈ s.store.claims)

/-
  What every step keeps: the claims have distinct keys and
  ids, those that are stored are held, and leases that are
  held are stored until they expire. No worker prunes by a
  clock that is ahead.
-/
structure Consistent
    {ι : Type}
    (s : CoordinationState ι) : Prop where
  keys : (s.store.claims.map (·.triggerKey)).Nodup
  ids : (s.store.claims.map (·.claimId)).Nodup
  heldIds : (s.held.map (·.claimId)).Nodup
  issued : ∀ lease ∈ s.held, lease.claimId ∈ s.issued
  stored : ∀ claim ∈ s.store.claims, claim ∈ s.held
  kept :
    ∀ lease ∈ s.held, s.now < lease.expiresAt →
      lease ∈ s.store.claims
  clocks :
    ∀ worker call clock,
      s.workers worker = .pruneClaims call clock →
        clock ≤ s.now

section Sections

variable {ι : Type}
variable {s : CoordinationState ι}
variable {ttl : Nat}
variable {claimId triggerKey : String}
variable {issued : List String}

/- A held lease is the only one with its id. -/
theorem Consistent.held_eq
    {lease other : InMemoryClaim}
    (hState : Consistent s)
    (hLease : lease ∈ s.held)
    (hOther : other ∈ s.held)
    (hId : lease.claimId = other.claimId) :
    lease = other :=
  Expiry.eq_of_key hState.heldIds hLease hOther hId

theorem Consistent.safe
    (hState : Consistent s) :
    SafeLeases s := by
  refine ⟨hState.keys, ?_⟩
  intro lease hLease other hOther hKey hNow hNow'
  exact Expiry.eq_of_key hState.keys
    (hState.kept lease hLease hNow)
    (hState.kept other hOther hNow') hKey

/- Time goes on. -/
theorem Consistent.wait
    {ms : Nat}
    (hState : Consistent s) :
    Consistent { s with now := s.now + ms } := by
  refine ⟨hState.keys, hState.ids, hState.heldIds,
    hState.issued, hState.stored, ?_, ?_⟩
  · intro lease hLease hNow
    apply hState.kept lease hLease
    change s.now + ms < _ at hNow
    omega
  · intro worker call clock hPhase
    have hClock := hState.clocks worker call clock hPhase
    change clock ≤ s.now + ms
    omega

/- A clock that has been read before prunes no live lease. -/
theorem Consistent.pruneClaims
    {clock : Nat}
    (hState : Consistent s)
    (hClock : clock ≤ s.now) :
    Consistent
      { s with store := s.store.pruneClaims clock } := by
  refine ⟨Expiry.nodup_prune hState.keys,
    Expiry.nodup_prune hState.ids, hState.heldIds,
    hState.issued, ?_, ?_, hState.clocks⟩
  · intro claim hClaim
    exact hState.stored claim (Expiry.mem_prune.mp hClaim).1
  · intro lease hLease hNow
    apply Expiry.mem_prune.mpr
    refine ⟨hState.kept lease hLease hNow, ?_⟩
    change s.now < _ at hNow
    omega

/- Ids are issued, and the scratchpad changes. -/
theorem Consistent.issue
    {store : InMemoryCoordinationStore}
    (hState : Consistent s)
    (hClaims : store.claims = s.store.claims)
    (hIssued : ∀ id ∈ s.issued, id ∈ issued) :
    Consistent
      { s with store := store, issued := issued } := by
  constructor
  · exact hClaims ▸ hState.keys
  · exact hClaims ▸ hState.ids
  · exact hState.heldIds
  · exact fun lease hLease =>
      hIssued _ (hState.issued lease hLease)
  · exact hClaims ▸ hState.stored
  · exact hClaims ▸ hState.kept
  · exact hState.clocks

/- A claim with a new id is granted on a free key. -/
theorem Consistent.grant
    (hState : Consistent s)
    (hNew : claimId ∉ s.issued)
    (hFree : ∀ claim ∈ s.store.claims,
      claim.triggerKey ≠ triggerKey) :
    Consistent
      { s with
        store :=
          { s.store with
            claims := s.store.claims ++
              [⟨triggerKey, claimId, s.now + ttl⟩] }
        issued := s.issued ++ [claimId]
        held := s.held ++
          [⟨triggerKey, claimId, s.now + ttl⟩] } := by
  have hUnheld : ∀ lease ∈ s.held, lease.claimId ≠ claimId := by
    intro lease hLease hSame
    apply hNew
    rw [← hSame]
    exact hState.issued lease hLease
  constructor
  · rw [List.map_append]
    apply List.Nodup.append hState.keys
      (List.nodup_singleton _)
    simpa using hFree
  · rw [List.map_append]
    apply List.Nodup.append hState.ids
      (List.nodup_singleton _)
    have hUnstored : ∀ claim ∈ s.store.claims,
        claim.claimId ≠ claimId :=
      fun claim hClaim =>
        hUnheld claim (hState.stored claim hClaim)
    simpa using hUnstored
  · rw [List.map_append]
    apply List.Nodup.append hState.heldIds
      (List.nodup_singleton _)
    simpa using hUnheld
  · intro lease hLease
    rcases List.mem_append.mp hLease with hOld | hLast
    · exact List.mem_append_left _ (hState.issued lease hOld)
    · rw [List.mem_singleton] at hLast
      subst hLast
      exact List.mem_append_right _ (List.mem_singleton_self _)
  · intro claim hClaim
    rcases List.mem_append.mp hClaim with hOld | hLast
    · exact List.mem_append_left _ (hState.stored claim hOld)
    · exact List.mem_append_right _ hLast
  · intro lease hLease hNow
    rcases List.mem_append.mp hLease with hOld | hLast
    · exact List.mem_append_left _
        (hState.kept lease hOld hNow)
    · exact List.mem_append_right _ hLast
  · exact hState.clocks

theorem extendLease_claimId
    {expiresAt : Nat}
    (lease : InMemoryClaim) :
    (extendLease claimId expiresAt lease).claimId =
      lease.claimId := by
  unfold extendLease
  split <;> rfl

/- Renewing a stored claim extends the lease it stands for. -/
theorem Consistent.renew
    {claim : InMemoryClaim}
    (hState : Consistent s)
    (hClaim : claim ∈ s.store.claims)
    (hId : claim.claimId = claimId) :
    Consistent
      { s with
        store :=
          { s.store with
            claims := Logs.changeAt InMemoryClaim.claimId
              s.store.claims claimId fun claim =>
                { claim with expiresAt := s.now + ttl } }
        held :=
          s.held.map (extendLease claimId (s.now + ttl)) } := by
  have hHeldIds :
      (s.held.map (extendLease claimId (s.now + ttl))).map
          (·.claimId) =
        s.held.map (·.claimId) := by
    rw [List.map_map]
    exact List.map_congr_left
      fun lease _ => extendLease_claimId lease
  have hKept : ∀ view : InMemoryClaim → String,
      (∀ claim : InMemoryClaim,
        view { claim with expiresAt := s.now + ttl } =
          view claim) →
        (Logs.changeAt InMemoryClaim.claimId s.store.claims
          claimId fun claim =>
            { claim with expiresAt := s.now + ttl }).map view =
          s.store.claims.map view :=
    fun _ hView => Logs.changeAt_map hView
  constructor
  · exact (hKept (·.triggerKey) fun _ => rfl) ▸ hState.keys
  · exact (hKept (·.claimId) fun _ => rfl) ▸ hState.ids
  · rw [hHeldIds]
    exact hState.heldIds
  · intro lease hLease
    rcases List.mem_map.mp hLease with ⟨old, hOld, hEq⟩
    rw [← hEq, extendLease_claimId]
    exact hState.issued old hOld
  · intro stored hStored
    rcases Logs.mem_changeAt hStored hState.ids with
      ⟨old, hOld, hOldId, hEq⟩ | ⟨hOld, hOther⟩
    · refine List.mem_map.mpr
        ⟨old, hState.stored old hOld, ?_⟩
      unfold extendLease
      rw [if_pos hOldId, hEq]
    · refine List.mem_map.mpr
        ⟨stored, hState.stored stored hOld, ?_⟩
      unfold extendLease
      rw [if_neg hOther]
  · intro lease hLease hNow
    rcases List.mem_map.mp hLease with ⟨old, hOld, hEq⟩
    unfold extendLease at hEq
    by_cases hOldId : old.claimId = claimId
    · rw [if_pos hOldId] at hEq
      have hSame := hState.held_eq hOld
        (hState.stored claim hClaim) (hOldId.trans hId.symm)
      subst hSame
      rw [← hEq]
      exact Logs.mem_changeAt_of_target hClaim hId hState.ids
    · rw [if_neg hOldId] at hEq
      subst hEq
      exact Logs.mem_changeAt_of_other
        (hState.kept old hOld hNow) hOldId
  · exact hState.clocks

/- A released lease is no longer held, stored or not. -/
theorem Consistent.release
    (hState : Consistent s) :
    Consistent
      { s with
        store := s.store.releaseClaim claimId
        held := s.held.filter (·.claimId ≠ claimId) } := by
  have hHeld : ∀ lease,
      lease ∈ s.held.filter (·.claimId ≠ claimId) ↔
        lease ∈ s.held ∧ lease.claimId ≠ claimId := by
    intro lease
    simp
  have hIds :
      ((s.held.filter (·.claimId ≠ claimId)).map
        (·.claimId)).Nodup :=
    hState.heldIds.sublist (List.filter_sublist.map _)
  rcases @InMemoryCoordinationStore.releaseClaim_cases
      s.store claimId with
    ⟨hNone, hEq⟩ | ⟨claim, hClaim, hId, hEq⟩
  · rw [hEq]
    refine ⟨hState.keys, hState.ids, hIds, ?_, ?_, ?_,
      hState.clocks⟩
    · intro lease hLease
      exact hState.issued lease ((hHeld lease).mp hLease).1
    · intro stored hStored
      exact (hHeld stored).mpr
        ⟨hState.stored stored hStored, hNone stored hStored⟩
    · intro lease hLease hNow
      exact hState.kept lease ((hHeld lease).mp hLease).1 hNow
  · rw [hEq]
    refine ⟨Expiry.nodup_remove hState.keys,
      Expiry.nodup_remove hState.ids, hIds, ?_, ?_, ?_,
      hState.clocks⟩
    · intro lease hLease
      exact hState.issued lease ((hHeld lease).mp hLease).1
    · intro stored hStored
      rcases Expiry.mem_remove.mp hStored with ⟨hOld, hKey⟩
      refine (hHeld stored).mpr
        ⟨hState.stored stored hOld, ?_⟩
      intro hSame
      apply hKey
      rw [hState.held_eq (hState.stored stored hOld)
        (hState.stored claim hClaim) (hSame.trans hId.symm)]
    · intro lease hLease hNow
      rcases (hHeld lease).mp hLease with ⟨hOld, hOther⟩
      have hStored := hState.kept lease hOld hNow
      refine Expiry.mem_remove.mpr ⟨hStored, ?_⟩
      intro hKey
      apply hOther
      rw [Expiry.eq_of_key hState.keys hStored hClaim hKey]
      exact hId

/- The last section of a call keeps a state consistent. -/
theorem Consistent.run
    {call : CoordinationCall}
    {claimId : String}
    (hState : Consistent s)
    (hNew : claimId ∉ s.issued) :
    Consistent
      { s with
        store := (call.run s.store claimId s.now).2
        issued := s.issued ++ [claimId]
        held := leasesAfter s.held s.now call
          (call.run s.store claimId s.now).1 } := by
  have hMore : ∀ id ∈ s.issued, id ∈ s.issued ++ [claimId] :=
    fun _ hMem => List.mem_append_left _ hMem
  cases call with
  | claimTrigger triggerKey ttl =>
      simp only [CoordinationCall.run]
      rcases @InMemoryCoordinationStore.claimTrigger_cases
          s.store triggerKey claimId ttl s.now with
        ⟨_, hEq⟩ | ⟨hFree, hEq⟩
      · rw [hEq]
        exact hState.issue rfl hMore
      · rw [hEq]
        exact hState.grant hNew hFree
  | renewClaim renewedId ttl =>
      simp only [CoordinationCall.run]
      rcases @InMemoryCoordinationStore.renewClaim_cases
          s.store renewedId ttl s.now with
        ⟨_, hEq⟩ | ⟨claim, hClaim, hId, hEq⟩
      · rw [hEq]
        exact hState.issue rfl hMore
      · rw [hEq]
        exact (hState.renew hClaim hId).issue rfl hMore
  | releaseClaim releasedId =>
      exact hState.release.issue rfl hMore
  | scratchpadGet namespaceName key =>
      exact hState.issue rfl hMore
  | scratchpadSet namespaceName key value ttl =>
      exact hState.issue rfl hMore

/- A call leaves the claims with other ids as they are. -/
theorem run_untouched
    {call : CoordinationCall}
    {newId claimId : String}
    {stored : InMemoryClaim}
    (hState : Consistent s)
    (hTarget : call.target = some claimId)
    (hOther : stored.claimId ≠ claimId) :
    stored ∈ (call.run s.store newId s.now).2.claims ↔
      stored ∈ s.store.claims := by
  cases call with
  | renewClaim renewedId ttl =>
      cases hTarget
      simp only [CoordinationCall.run]
      rcases @InMemoryCoordinationStore.renewClaim_cases
          s.store claimId ttl s.now with
        ⟨_, hEq⟩ | ⟨claim, _, _, hEq⟩
      · rw [hEq]
      · rw [hEq]
        constructor
        · intro hStored
          rcases Logs.mem_changeAt hStored hState.ids with
            ⟨old, _, hId, hSame⟩ | ⟨hOld, _⟩
          · rw [hSame] at hOther
            exact absurd hId hOther
          · exact hOld
        · intro hStored
          exact Logs.mem_changeAt_of_other hStored hOther
  | releaseClaim releasedId =>
      cases hTarget
      simp only [CoordinationCall.run]
      rcases @InMemoryCoordinationStore.releaseClaim_cases
          s.store claimId with
        ⟨_, hEq⟩ | ⟨claim, hClaim, hId, hEq⟩
      · rw [hEq]
      · rw [hEq]
        change stored ∈ Expiry.remove _ _ _ ↔ _
        rw [Expiry.mem_remove]
        refine ⟨fun hBoth => hBoth.1, ?_⟩
        intro hStored
        refine ⟨hStored, ?_⟩
        intro hKey
        apply hOther
        rw [Expiry.eq_of_key hState.keys hStored hClaim hKey]
        exact hId
  | _ => cases hTarget

end Sections

section Steps

variable {ι : Type} [DecidableEq ι]
variable {s s' : CoordinationState ι}
variable {action : CoordinationAction ι}
variable {worker : ι}
variable {phase : Worker}

/- Moving a worker on leaves a state consistent. -/
theorem Consistent.put
    (hState : Consistent s)
    (hClock : ∀ call clock,
      phase = .pruneClaims call clock → clock ≤ s.now) :
    Consistent (s.put worker phase) := by
  refine ⟨hState.keys, hState.ids, hState.heldIds,
    hState.issued, hState.stored, hState.kept, ?_⟩
  intro other call clock hPhase
  change Function.update s.workers worker phase other = _
    at hPhase
  by_cases hSame : other = worker
  · rw [hSame, Function.update_self] at hPhase
    exact hClock call clock hPhase
  · rw [Function.update_of_ne hSame] at hPhase
    exact hState.clocks other call clock hPhase

/- Every step keeps a state consistent. -/
theorem Consistent.step
    (hState : Consistent s)
    (hStep : s.step action = some s') :
    Consistent s' := by
  cases action with
  | wait ms =>
      cases hStep
      exact hState.wait
  | call worker call =>
      have hCalled : Consistent
          (s.put worker (.pruneClaims call s.now)) := by
        apply hState.put
        rintro _ clock ⟨⟩
        exact Nat.le_refl _
      simp only [CoordinationState.step] at hStep
      split at hStep
      · cases hStep
        exact hCalled
      · cases hStep
        exact hCalled
      · cases hStep
  | prune worker =>
      simp only [CoordinationState.step] at hStep
      split at hStep
      · rename_i call clock hPhase
        cases hStep
        exact (hState.pruneClaims
          (hState.clocks worker call clock hPhase)).put nofun
      · rename_i call clock _
        cases hStep
        have hPruned : Consistent
            { s with store := s.store.pruneScratchpad clock } :=
          hState.issue rfl fun _ hMem => hMem
        exact hPruned.put nofun
      · cases hStep
  | run worker claimId =>
      simp only [CoordinationState.step] at hStep
      split at hStep
      · rename_i call _
        split at hStep
        · cases hStep
        · rename_i hNew
          cases hStep
          exact (hState.run hNew).put nofun
      · cases hStep

/- What the last section of a call has done. -/
theorem run_cases
    {claimId : String}
    {call : CoordinationCall}
    (hPhase : s.workers worker = .ready call)
    (hStep : s.step (.run worker claimId) = some s') :
    s'.store = (call.run s.store claimId s.now).2 ∧
      s'.workers worker =
        .answered (call.run s.store claimId s.now).1 := by
  simp only [CoordinationState.step, hPhase] at hStep
  split at hStep
  · cases hStep
  · cases hStep
    refine ⟨rfl, ?_⟩
    exact Function.update_self _ _ _

theorem Consistent.safeStep
    (hState : Consistent s)
    (hStep : s.step action = some s') :
    SafeStep s action s' := by
  constructor
  · rintro worker claimId triggerKey ttl claim hAction hPhase
      hAnswer
    subst hAction
    rcases run_cases hPhase hStep with ⟨_, hResult⟩
    rw [hResult] at hAnswer
    simp only [CoordinationCall.run] at hAnswer
    rcases @InMemoryCoordinationStore.claimTrigger_cases
        s.store triggerKey claimId ttl s.now with
      ⟨_, hEq⟩ | ⟨hFree, _⟩
    · rw [hEq] at hAnswer
      cases hAnswer
    · refine ⟨hFree, ?_⟩
      intro lease hLease hKey
      by_contra hLive
      exact hFree lease
        (hState.kept lease hLease (by omega)) hKey
  · rintro worker newId call claimId hAction hPhase hTarget
      stored hOther
    subst hAction
    rcases run_cases hPhase hStep with ⟨hStore, _⟩
    rw [hStore]
    exact run_untouched hState hTarget hOther

end Steps

/-
  Whatever the order of their sections is, workers hold at
  most one unexpired lease on a key in every state, and every
  step is safe.
-/
theorem leases_safe
    {ι : Type} [DecidableEq ι]
    (trace :
      List (CoordinationState ι × CoordinationAction ι))
    (s : CoordinationState ι)
    (hReach : Reaches CoordinationState.step {} trace s) :
    SafeLeases s ∧
      ∀ p ∈ trace, SafeLeases p.1 ∧
        ∀ s', p.1.step p.2 = some s' →
          SafeStep p.1 p.2 s' := by
  have hInit : Consistent ({} : CoordinationState ι) := by
    constructor
    · exact List.nodup_nil
    · exact List.nodup_nil
    · exact List.nodup_nil
    all_goals nofun
  have hAll := hReach.invariant (I := Consistent)
    (C := fun _ _ => True) hInit
    (fun _ _ _ hState _ hStep => hState.step hStep)
    (fun _ _ => trivial)
  refine ⟨hAll.1.safe, ?_⟩
  intro p hMem
  exact ⟨(hAll.2 p hMem).safe,
    fun s' hStep => (hAll.2 p hMem).safeStep hStep⟩

------------------------------------------------------------
-- A Lease That Is Claimed Again
------------------------------------------------------------

namespace Sample

/-
  A worker claims a key, its lease expires, another one claims
  the key, and the first tries to renew and to release its
  own.
-/
def reclaimed : List (CoordinationAction Nat) :=
  [.call 0 (.claimTrigger "t" 5), .prune 0, .prune 0,
    .run 0 "a", .wait 5, .call 0 (.renewClaim "a" 5),
    .call 1 (.claimTrigger "t" 5), .prune 1, .prune 1,
    .run 1 "b", .prune 0, .prune 0, .run 0 "c",
    .call 0 (.releaseClaim "a"), .prune 0, .prune 0,
    .run 0 "d"]

def reclaimedRun :
    List (CoordinationState Nat × CoordinationAction Nat) ×
      CoordinationState Nat :=
  follow CoordinationState.step [] {} reclaimed

end Sample

/- All of it is done, and the second claim stays stored. -/
theorem leases_safe_reclaimed :
    Sample.reclaimedRun.1.length = Sample.reclaimed.length ∧
      Sample.reclaimedRun.2.store.claims = [⟨"t", "b", 10⟩] ∧
      SafeLeases Sample.reclaimedRun.2 ∧
      ∀ p ∈ Sample.reclaimedRun.1, SafeLeases p.1 ∧
        ∀ s', p.1.step p.2 = some s' →
          SafeStep p.1 p.2 s' :=
  ⟨by decide +kernel, by decide +kernel,
    leases_safe _ _ (follow_reaches Sample.reclaimed .start)⟩

end RainEngine.Coordination
