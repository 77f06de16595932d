import Mathlib.Data.Fintype.Basic
import RainEngine.Coordination.InMemory
import RainEngine.Coordination.Redis
import RainEngine.Transitions.Reaches

/-
  This file is about workers that share a coordination store
  on a server. A call is a sequence of commands: it looks up
  the key of its claim, checks that the key holds its claim,
  and acts on the key with a later command. Leases are safe as
  long as no call is disturbed between its check and its act.

  Key definitions include:
    * `ValkeyPhase`
    * `ValkeyState.step`
    * `Prompt`
    * `ValkeySafe`
    * `ValkeySafeStep`

  Key theorems include:
    * `Guarded.step`
    * `valkey_leases_safe`
    * `late_release_removes_other_lease`
-/

namespace RainEngine.Coordination

open Transitions

------------------------------------------------------------
-- Workers
------------------------------------------------------------

inductive ValkeyResult where
  | claim (claim : Option CoordinationClaim)
  | released
  | failed
deriving DecidableEq

/-
  Where a worker is in a call: the command it sends next, with
  what it has learned. A call that has checked its claim also
  notes when the claim it has seen expires, which the source
  does not know.
-/
inductive ValkeyPhase where
  | idle
  | claimSet (triggerKey claimId : String) (ttlMs : Nat)
  | claimSetReverse (triggerKey claimId : String) (ttlMs : Nat)
  | renewLookUp (claimId : String) (ttlMs : Nat)
  | renewCheck (claimId : String) (ttlMs : Nat)
      (triggerKey : String)
  | renewExtend (claimId : String) (ttlMs : Nat)
      (triggerKey : String) (seenUntil : Nat)
  | renewExtendReverse (claimId : String) (ttlMs : Nat)
      (triggerKey : String)
  | releaseLookUp (claimId : String)
  | releaseCheck (claimId triggerKey : String)
  | releaseDelete (claimId triggerKey : String)
      (seenUntil : Nat)
  | releaseDeleteReverse (claimId : String)
  | answered (result : ValkeyResult)
deriving DecidableEq

/- A lease as its worker knows it. -/
structure Lease where
  triggerKey : String
  claimId : String
  expiresAt : Nat
deriving DecidableEq

/-
  The server and its workers, the ids that have been issued,
  the leases that have been granted, and the ids of those that
  their calls have released.
-/
structure ValkeyState (ι : Type) where
  now : Nat := 0
  db : Redis := fun _ => none
  workers : ι → ValkeyPhase := fun _ => .idle
  issued : List String := []
  granted : List Lease := []
  released : List String := []

inductive ValkeyAction (ι : Type) where
  | wait (ms : Nat)
  | claim (worker : ι) (triggerKey : String) (ttlMs : Nat)
      (claimId : String)
  | renew (worker : ι) (claimId : String) (ttlMs : Nat)
  | release (worker : ι) (claimId : String)
  | send (worker : ι)
  | fail (worker : ι)

/- The call of a worker has ended. -/
def ValkeyPhase.isIdle : ValkeyPhase → Bool
| .idle => true
| .answered _ => true
| _ => false

/- The milliseconds of a duration, `as usize`. -/
def asUsize (ms : Nat) : Nat := ms % 2 ^ 64

/- The server reads times as signed integers of 64 bits. -/
def readsTtl (ttlMs : Nat) : Bool := decide (ttlMs < 2 ^ 63)

/- A time the server accepts for an entry that is set. -/
def validTtl (ttlMs : Nat) : Bool :=
  decide (0 < ttlMs) && readsTtl ttlMs

def Lease.extend
    (claimId : String)
    (expiresAt : Nat)
    (lease : Lease) :
    Lease :=
  if lease.claimId = claimId then
    { lease with expiresAt := expiresAt }
  else lease

namespace ValkeyState

variable {ι : Type} [DecidableEq ι]

def put
    (s : ValkeyState ι)
    (worker : ι)
    (phase : ValkeyPhase) :
    ValkeyState ι :=
  { s with workers := Function.update s.workers worker phase }

/- The next command of a worker, and where its call goes on. -/
def send
    (name : String)
    (s : ValkeyState ι)
    (worker : ι) :
    ValkeyPhase → Option (ValkeyState ι)
| .claimSet triggerKey claimId ttlMs =>
    if !validTtl ttlMs then
      some (s.put worker (.answered .failed))
    else
      match s.db.setNx s.now (claimKey name triggerKey)
          claimId ttlMs with
      | none => some (s.put worker (.answered (.claim none)))
      | some db =>
          some
            ({ s with
                db := db
                granted :=
                  s.granted ++
                    [Lease.mk triggerKey claimId
                      (s.now + ttlMs)]
              }.put worker
                (.claimSetReverse triggerKey claimId ttlMs))
| .claimSetReverse triggerKey claimId ttlMs =>
    some
      ({ s with
          db := s.db.set s.now (reverseClaimKey name claimId)
            triggerKey ttlMs
        }.put worker
          (.answered (.claim (some ⟨claimId, triggerKey⟩))))
| .renewLookUp claimId ttlMs =>
    match s.db.get s.now (reverseClaimKey name claimId) with
    | none => some (s.put worker (.answered (.claim none)))
    | some triggerKey =>
        some (s.put worker
          (.renewCheck claimId ttlMs triggerKey))
| .renewCheck claimId ttlMs triggerKey =>
    match s.db.entryAt s.now (claimKey name triggerKey) with
    | none => some (s.put worker (.answered (.claim none)))
    | some entry =>
        if entry.value = claimId then
          some (s.put worker
            (.renewExtend claimId ttlMs triggerKey
              entry.expiresAt))
        else some (s.put worker (.answered (.claim none)))
| .renewExtend claimId ttlMs triggerKey _ =>
    if !readsTtl ttlMs then
      some (s.put worker (.answered .failed))
    else
      some
        ({ s with
            db := s.db.pexpire s.now (claimKey name triggerKey)
              ttlMs
            granted :=
              s.granted.map
                (Lease.extend claimId (s.now + ttlMs))
          }.put worker
            (.renewExtendReverse claimId ttlMs triggerKey))
| .renewExtendReverse claimId ttlMs triggerKey =>
    some
      ({ s with
          db := s.db.pexpire s.now
            (reverseClaimKey name claimId) ttlMs
        }.put worker
          (.answered (.claim (some ⟨claimId, triggerKey⟩))))
| .releaseLookUp claimId =>
    match s.db.get s.now (reverseClaimKey name claimId) with
    | none => some (s.put worker (.releaseDeleteReverse claimId))
    | some triggerKey =>
        some (s.put worker (.releaseCheck claimId triggerKey))
| .releaseCheck claimId triggerKey =>
    match s.db.entryAt s.now (claimKey name triggerKey) with
    | none => some (s.put worker (.releaseDeleteReverse claimId))
    | some entry =>
        if entry.value = claimId then
          some (s.put worker
            (.releaseDelete claimId triggerKey
              entry.expiresAt))
        else
          some (s.put worker (.releaseDeleteReverse claimId))
| .releaseDelete claimId triggerKey _ =>
    some
      ({ s with
          db := s.db.del (claimKey name triggerKey)
          released := s.released ++ [claimId]
        }.put worker (.releaseDeleteReverse claimId))
| .releaseDeleteReverse claimId =>
    some
      ({ s with
          db := s.db.del (reverseClaimKey name claimId)
        }.put worker (.answered .released))
| .idle => none
| .answered _ => none

/-
  A worker starts a call, sends its next command or loses its
  connection. The id of a claim is one that is not in use.
-/
def step
    (name : String)
    (s : ValkeyState ι) :
    ValkeyAction ι → Option (ValkeyState ι)
| .wait ms => some { s with now := s.now + ms }
| .claim worker triggerKey ttlMs claimId =>
    if (s.workers worker).isIdle ∧ claimId ∉ s.issued then
      some
        ({ s with issued := s.issued ++ [claimId] }.put worker
          (.claimSet triggerKey claimId (asUsize ttlMs)))
    else none
| .renew worker claimId ttlMs =>
    if (s.workers worker).isIdle then
      some (s.put worker (.renewLookUp claimId (asUsize ttlMs)))
    else none
| .release worker claimId =>
    if (s.workers worker).isIdle then
      some (s.put worker (.releaseLookUp claimId))
    else none
| .send worker => s.send name worker (s.workers worker)
| .fail worker =>
    if (s.workers worker).isIdle then none
    else some (s.put worker (.answered .failed))

end ValkeyState

------------------------------------------------------------
-- Safety
------------------------------------------------------------

/- A lease that has been granted and not released. -/
def ValkeyState.Held
    {ι : Type}
    (s : ValkeyState ι)
    (lease : Lease) :
    Prop :=
  lease ∈ s.granted ∧ lease.claimId ∉ s.released

/- No two unexpired leases are held on one key. -/
def ValkeySafe
    {ι : Type}
    (s : ValkeyState ι) :
    Prop :=
  ∀ lease other, s.Held lease → s.Held other →
    lease.triggerKey = other.triggerKey →
      s.now < lease.expiresAt → s.now < other.expiresAt →
        lease = other

/-
  The call has checked its claim and acts on the key of its
  trigger next. The claim it has seen ends at the given time.
-/
def ValkeyPhase.acting :
    ValkeyPhase → Option Lease
| .renewExtend claimId _ triggerKey seenUntil =>
    some ⟨triggerKey, claimId, seenUntil⟩
| .releaseDelete claimId triggerKey seenUntil =>
    some ⟨triggerKey, claimId, seenUntil⟩
| _ => none

/- The call is about to claim a trigger. -/
def ValkeyPhase.isClaimSet : ValkeyPhase → Bool
| .claimSet _ _ _ => true
| _ => false

/-
  A command that extends or deletes the key of a trigger for a
  claim finds that claim or nothing there.
-/
def ValkeySafeStep
    {ι : Type}
    (name : String)
    (s : ValkeyState ι) :
    ValkeyAction ι → Prop
| .send worker =>
    ∀ seen ∈ (s.workers worker).acting,
      ∀ claimId ∈ s.db.get s.now
          (claimKey name seen.triggerKey),
        claimId = seen.claimId
| _ => True

/-
  A call acts before the claim it has seen expires, and while
  no other call on the same claim is between its check and its
  act.
-/
def Prompt
    {ι : Type}
    (s : ValkeyState ι) :
    ValkeyAction ι → Prop
| .send worker =>
    ∀ seen ∈ (s.workers worker).acting,
      s.now < seen.expiresAt ∧
        ∀ other, other ≠ worker →
          ∀ otherSeen ∈ (s.workers other).acting,
            s.now < otherSeen.expiresAt →
              otherSeen.claimId ≠ seen.claimId
| _ => True

/-
  What every prompt step keeps. An unexpired lease that is
  held is the entry of its key. An entry stands for a lease
  that has been granted. What a call has seen is there until
  it expires, and ids are only used once.
-/
structure Guarded
    {ι : Type}
    (name : String)
    (s : ValkeyState ι) : Prop where
  stored :
    ∀ lease, s.Held lease → s.now < lease.expiresAt →
      s.db (claimKey name lease.triggerKey) =
        some ⟨lease.claimId, lease.expiresAt⟩
  standing :
    ∀ triggerKey entry,
      s.db (claimKey name triggerKey) = some entry →
        ∃ lease ∈ s.granted, lease.triggerKey = triggerKey ∧
          lease.claimId = entry.value
  seen :
    ∀ worker seen, (s.workers worker).acting = some seen →
      s.now < seen.expiresAt →
        s.db (claimKey name seen.triggerKey) =
          some ⟨seen.claimId, seen.expiresAt⟩
  ids : (s.granted.map (·.claimId)).Nodup
  issued : ∀ lease ∈ s.granted, lease.claimId ∈ s.issued
  fresh :
    ∀ worker triggerKey claimId ttlMs,
      s.workers worker = .claimSet triggerKey claimId ttlMs →
        claimId ∈ s.issued ∧
          (∀ lease ∈ s.granted, lease.claimId ≠ claimId) ∧
          ∀ other otherKey otherId otherTtl, other ≠ worker →
            s.workers other =
                .claimSet otherKey otherId otherTtl →
              otherId ≠ claimId

section Sections

variable {ι : Type}
variable {name : String}
variable {s : ValkeyState ι}

theorem Lease.extend_claimId
    {claimId : String}
    {expiresAt : Nat}
    (lease : Lease) :
    (lease.extend claimId expiresAt).claimId =
      lease.claimId := by
  unfold Lease.extend
  split <;> rfl

theorem Lease.extend_triggerKey
    {claimId : String}
    {expiresAt : Nat}
    (lease : Lease) :
    (lease.extend claimId expiresAt).triggerKey =
      lease.triggerKey := by
  unfold Lease.extend
  split <;> rfl

theorem Guarded.safe
    (hState : Guarded name s) :
    ValkeySafe s := by
  intro lease other hLease hOther hKey hNow hNow'
  have hEntry := hState.stored lease hLease hNow
  rw [hKey, hState.stored other hOther hNow'] at hEntry
  cases lease
  cases other
  cases hEntry
  cases hKey
  rfl

/- A prompt step acts on the claim it has seen. -/
theorem Guarded.safeStep
    {action : ValkeyAction ι}
    (hState : Guarded name s)
    (hPrompt : Prompt s action) :
    ValkeySafeStep name s action := by
  cases action with
  | send worker =>
      intro seen hActing claimId hGet
      have hLive := (hPrompt seen hActing).1
      have hEntry := hState.seen worker seen hActing hLive
      change s.db.get _ _ = some claimId at hGet
      unfold Redis.get at hGet
      rw [Redis.entryAt_eq_some.mpr ⟨hEntry, hLive⟩] at hGet
      exact (Option.some.inj hGet).symm
  | _ => trivial

/- Time goes on. -/
theorem Guarded.wait
    {ms : Nat}
    (hState : Guarded name s) :
    Guarded name { s with now := s.now + ms } := by
  refine ⟨?_, hState.standing, ?_, hState.ids,
    hState.issued, hState.fresh⟩
  · intro lease hLease hNow
    apply hState.stored lease hLease
    change s.now + ms < _ at hNow
    omega
  · intro worker seen hActing hNow
    apply hState.seen worker seen hActing
    change s.now + ms < _ at hNow
    omega

/- A live entry is that of every live lease on its key. -/
theorem Guarded.claimId_eq
    {lease : Lease}
    {entry : RedisEntry}
    (hState : Guarded name s)
    (hLease : s.Held lease)
    (hNow : s.now < lease.expiresAt)
    (hEntry :
      s.db (claimKey name lease.triggerKey) = some entry) :
    lease.claimId = entry.value := by
  rw [hState.stored lease hLease hNow] at hEntry
  cases hEntry
  rfl

/- Acting on a key leaves the other keys as they are. -/
theorem claimKey_ne
    {key triggerKey : String}
    (hKey : key ≠ triggerKey) :
    claimKey name key ≠ claimKey name triggerKey :=
  fun hSame => hKey (claimKey_injective hSame)

/-
  The claim of a key is deleted and released, when no other
  call has seen it.
-/
theorem Guarded.delete
    {triggerKey : String}
    {entry : RedisEntry}
    (hState : Guarded name s)
    (hEntry :
      s.db (claimKey name triggerKey) = some entry)
    (hAlone : ∀ worker seen,
      (s.workers worker).acting = some seen →
        s.now < seen.expiresAt →
          seen.triggerKey ≠ triggerKey) :
    Guarded name
      { s with
        db := s.db.del (claimKey name triggerKey)
        released := s.released ++ [entry.value] } := by
  refine ⟨?_, ?_, ?_, hState.ids, hState.issued,
    hState.fresh⟩
  · intro lease hLease hNow
    have hBoth := List.mem_append.not.mp hLease.2
    rw [not_or, List.mem_singleton] at hBoth
    have hHeld : s.Held lease := ⟨hLease.1, hBoth.1⟩
    have hKey : lease.triggerKey ≠ triggerKey := by
      intro hSame
      rw [← hSame] at hEntry
      exact hBoth.2 (hState.claimId_eq hHeld hNow hEntry)
    rw [← hState.stored lease hHeld hNow]
    exact Redis.del_other (claimKey_ne hKey)
  · intro key entry hIn
    by_cases hSame : key = triggerKey
    · subst hSame
      change s.db.del _ _ = _ at hIn
      rw [Redis.del_self] at hIn
      cases hIn
    · apply hState.standing key entry
      rw [← hIn]
      exact (Redis.del_other (claimKey_ne hSame)).symm
  · intro worker seen hActing hNow
    have hKey := hAlone worker seen hActing hNow
    rw [← hState.seen worker seen hActing hNow]
    exact Redis.del_other (claimKey_ne hKey)

/-
  The claim of a key is kept for longer, and so is its lease,
  when no other call has seen it.
-/
theorem Guarded.extend
    {triggerKey : String}
    {entry : RedisEntry}
    {ttlMs : Nat}
    (hState : Guarded name s)
    (hEntry :
      s.db (claimKey name triggerKey) = some entry)
    (hLive : s.now < entry.expiresAt)
    (hAlone : ∀ worker seen,
      (s.workers worker).acting = some seen →
        s.now < seen.expiresAt →
          seen.triggerKey ≠ triggerKey) :
    Guarded name
      { s with
        db := s.db.pexpire s.now (claimKey name triggerKey)
          ttlMs
        granted :=
          s.granted.map
            (Lease.extend entry.value (s.now + ttlMs)) } := by
  have hSelf :
      s.db.pexpire s.now (claimKey name triggerKey) ttlMs
          (claimKey name triggerKey) =
        some ⟨entry.value, s.now + ttlMs⟩ :=
    Redis.pexpire_self
      (Redis.entryAt_eq_some.mpr ⟨hEntry, hLive⟩)
  have hKept : ∀ key, key ≠ triggerKey →
      s.db.pexpire s.now (claimKey name triggerKey) ttlMs
          (claimKey name key) =
        s.db (claimKey name key) :=
    fun _ hKey => Redis.pexpire_other (claimKey_ne hKey)
  rcases hState.standing triggerKey entry hEntry with
    ⟨target, hTarget, hTargetKey, hTargetId⟩
  constructor
  · intro lease hLease hNow
    rcases List.mem_map.mp hLease.1 with ⟨old, hOld, hEq⟩
    have hUnreleased := hLease.2
    rw [← hEq, Lease.extend_claimId] at hUnreleased
    have hHeld : s.Held old := ⟨hOld, hUnreleased⟩
    unfold Lease.extend at hEq
    by_cases hId : old.claimId = entry.value
    · rw [if_pos hId] at hEq
      have hSame := List.inj_on_of_nodup_map hState.ids hOld
        hTarget (hId.trans hTargetId.symm)
      rw [← hEq, hId]
      change s.db.pexpire _ _ _ (claimKey name old.triggerKey)
        = _
      rw [hSame, hTargetKey]
      exact hSelf
    · rw [if_neg hId] at hEq
      subst hEq
      have hKey : old.triggerKey ≠ triggerKey := by
        intro hSame
        rw [← hSame] at hEntry
        exact hId (hState.claimId_eq hHeld hNow hEntry)
      rw [← hState.stored old hHeld hNow]
      exact hKept _ hKey
  · intro key stored hStored
    have hOld : ∃ lease ∈ s.granted,
        lease.triggerKey = key ∧
          lease.claimId = stored.value := by
      by_cases hSame : key = triggerKey
      · subst hSame
        change s.db.pexpire _ _ _ _ = _ at hStored
        rw [hSelf] at hStored
        cases hStored
        exact ⟨target, hTarget, hTargetKey, hTargetId⟩
      · exact hState.standing key stored
          ((hKept key hSame).symm.trans hStored)
    rcases hOld with ⟨lease, hLease, hKey, hId⟩
    refine ⟨_, List.mem_map_of_mem hLease, ?_, ?_⟩
    · rw [Lease.extend_triggerKey]
      exact hKey
    · rw [Lease.extend_claimId]
      exact hId
  · intro worker seen hActing hNow
    rw [← hState.seen worker seen hActing hNow]
    exact hKept _ (hAlone worker seen hActing hNow)
  · change (List.map _ (List.map _ _)).Nodup
    rw [List.map_map]
    have hIds : (Lease.claimId ∘
        Lease.extend entry.value (s.now + ttlMs)) =
          Lease.claimId :=
      funext Lease.extend_claimId
    rw [hIds]
    exact hState.ids
  · intro lease hLease
    rcases List.mem_map.mp hLease with ⟨old, hOld, hEq⟩
    rw [← hEq, Lease.extend_claimId]
    exact hState.issued old hOld
  · intro worker key id ttl hPhase
    rcases hState.fresh worker key id ttl hPhase with
      ⟨hIssued, hNew, hApart⟩
    refine ⟨hIssued, ?_, hApart⟩
    intro lease hLease
    rcases List.mem_map.mp hLease with ⟨old, hOld, hEq⟩
    rw [← hEq, Lease.extend_claimId]
    exact hNew old hOld

/- The keys of the claim ids have no part in it. -/
theorem Guarded.reverse
    {db : Redis}
    (hState : Guarded name s)
    (hSame : ∀ triggerKey,
      db (claimKey name triggerKey) =
        s.db (claimKey name triggerKey)) :
    Guarded name { s with db := db } := by
  refine ⟨?_, ?_, ?_, hState.ids, hState.issued,
    hState.fresh⟩
  · intro lease hLease hNow
    exact (hSame _).trans (hState.stored lease hLease hNow)
  · intro triggerKey entry hEntry
    apply hState.standing triggerKey entry
    exact (hSame _).symm.trans hEntry
  · intro worker seen hActing hNow
    exact (hSame _).trans
      (hState.seen worker seen hActing hNow)

end Sections

section Steps

variable {ι : Type} [DecidableEq ι]
variable {name : String}
variable {s s' : ValkeyState ι}
variable {worker other : ι}
variable {phase : ValkeyPhase}
variable {claimId triggerKey : String}
variable {ttlMs : Nat}

theorem put_self :
    (s.put worker phase).workers worker = phase :=
  Function.update_self _ _ _

theorem put_other
    (hOther : other ≠ worker) :
    (s.put worker phase).workers other = s.workers other :=
  Function.update_of_ne hOther _ _

theorem moves
    {t : ValkeyState ι}
    (hMoved : some (t.put worker phase) = some s')
    (hSame : t.workers = s.workers) :
    ∃ next, s'.workers =
      Function.update s.workers worker next := by
  cases hMoved
  rw [← hSame]
  exact ⟨phase, rfl⟩

/- A command moves the worker that sends it. -/
theorem send_workers
    (hSend : s.send name worker phase = some s') :
    ∃ next, s'.workers =
      Function.update s.workers worker next := by
  cases phase with
  | claimSet triggerKey claimId ttlMs =>
      simp only [ValkeyState.send] at hSend
      split at hSend
      · exact moves hSend rfl
      · split at hSend <;>
          exact moves hSend rfl
  | renewCheck claimId ttlMs triggerKey =>
      simp only [ValkeyState.send] at hSend
      split at hSend
      · exact moves hSend rfl
      · split at hSend <;>
          exact moves hSend rfl
  | releaseCheck claimId triggerKey =>
      simp only [ValkeyState.send] at hSend
      split at hSend
      · exact moves hSend rfl
      · split at hSend <;>
          exact moves hSend rfl
  | renewLookUp claimId ttlMs =>
      simp only [ValkeyState.send] at hSend
      split at hSend <;>
        exact moves hSend rfl
  | releaseLookUp claimId =>
      simp only [ValkeyState.send] at hSend
      split at hSend <;>
        exact moves hSend rfl
  | renewExtend claimId ttlMs triggerKey seenUntil =>
      simp only [ValkeyState.send] at hSend
      split at hSend <;>
        exact moves hSend rfl
  | idle => cases hSend
  | answered result => cases hSend
  | _ => exact moves hSend rfl

/-
  A worker goes on, to a phase that claims nothing and that
  has seen what is there.
-/
theorem Guarded.put
    (hState : Guarded name s)
    (hActing : ∀ seen, phase.acting = some seen →
      s.db (claimKey name seen.triggerKey) =
        some ⟨seen.claimId, seen.expiresAt⟩)
    (hClaims : phase.isClaimSet = false) :
    Guarded name (s.put worker phase) := by
  refine ⟨hState.stored, hState.standing, ?_, hState.ids,
    hState.issued, ?_⟩
  · intro other seen hOther hNow
    by_cases hSame : other = worker
    · rw [hSame, put_self] at hOther
      exact hActing seen hOther
    · rw [put_other hSame] at hOther
      exact hState.seen other seen hOther hNow
  · intro other key id ttl hPhase
    by_cases hSame : other = worker
    · rw [hSame, put_self] at hPhase
      rw [hPhase] at hClaims
      cases hClaims
    · rw [put_other hSame] at hPhase
      rcases hState.fresh other key id ttl hPhase with
        ⟨hIssued, hNew, hApart⟩
      refine ⟨hIssued, hNew, ?_⟩
      intro third thirdKey thirdId thirdTtl hThird hPhase'
      by_cases hWorker : third = worker
      · rw [hWorker, put_self] at hPhase'
        rw [hPhase'] at hClaims
        cases hClaims
      · rw [put_other hWorker] at hPhase'
        exact hApart third thirdKey thirdId thirdTtl hThird
          hPhase'

/- A call to claim a trigger begins with a new id. -/
theorem Guarded.begin
    (hState : Guarded name s)
    (hNew : claimId ∉ s.issued) :
    Guarded name
      ({ s with issued := s.issued ++ [claimId] }.put worker
        (.claimSet triggerKey claimId ttlMs)) := by
  have hUngranted : ∀ lease ∈ s.granted,
      lease.claimId ≠ claimId := by
    intro lease hLease hSame
    apply hNew
    rw [← hSame]
    exact hState.issued lease hLease
  refine ⟨hState.stored, hState.standing, ?_, hState.ids,
    ?_, ?_⟩
  · intro other seen hOther hNow
    by_cases hSame : other = worker
    · rw [hSame, put_self] at hOther
      cases hOther
    · rw [put_other hSame] at hOther
      exact hState.seen other seen hOther hNow
  · intro lease hLease
    exact List.mem_append_left _ (hState.issued lease hLease)
  · intro other key id ttl hPhase
    by_cases hSame : other = worker
    · rw [hSame, put_self] at hPhase
      cases hPhase
      refine ⟨List.mem_append_right _
        (List.mem_singleton_self _), hUngranted, ?_⟩
      intro third thirdKey thirdId thirdTtl hThird hPhase' hEq
      rw [put_other (hSame ▸ hThird)] at hPhase'
      apply hNew
      rw [← hEq]
      exact (hState.fresh third _ _ _ hPhase').1
    · rw [put_other hSame] at hPhase
      rcases hState.fresh other key id ttl hPhase with
        ⟨hIssued, hOld, hApart⟩
      refine ⟨List.mem_append_left _ hIssued, hOld, ?_⟩
      intro third thirdKey thirdId thirdTtl hThird hPhase' hEq
      by_cases hWorker : third = worker
      · rw [hWorker, put_self] at hPhase'
        cases hPhase'
        apply hNew
        rw [hEq]
        exact hIssued
      · rw [put_other hWorker] at hPhase'
        exact hApart third thirdKey thirdId thirdTtl hThird
          hPhase' hEq

/- The key of the trigger was free, and its claim is granted. -/
theorem Guarded.grant
    (hState : Guarded name s)
    (hPhase : s.workers worker =
      .claimSet triggerKey claimId ttlMs)
    (hFree :
      s.db.entryAt s.now (claimKey name triggerKey) = none) :
    Guarded name
      ({ s with
          db := s.db.set s.now (claimKey name triggerKey)
            claimId ttlMs
          granted :=
            s.granted ++
              [Lease.mk triggerKey claimId (s.now + ttlMs)]
        }.put worker
          (.claimSetReverse triggerKey claimId ttlMs)) := by
  rcases hState.fresh worker _ _ _ hPhase with
    ⟨hIssued, hNew, hApart⟩
  -- No live entry is stored under the key.
  have hOtherKey : ∀ key entry,
      s.db (claimKey name key) = some entry →
        s.now < entry.expiresAt → key ≠ triggerKey := by
    intro key entry hEntry hNow hSame
    rw [hSame] at hEntry
    rw [Redis.entryAt_eq_some.mpr ⟨hEntry, hNow⟩] at hFree
    cases hFree
  have hKept : ∀ key, key ≠ triggerKey →
      s.db.set s.now (claimKey name triggerKey) claimId ttlMs
          (claimKey name key) =
        s.db (claimKey name key) := by
    intro key hKey
    apply Redis.set_other
    intro hSame
    exact hKey (claimKey_injective hSame)
  constructor
  · intro lease hLease hNow
    rcases List.mem_append.mp hLease.1 with hOld | hLast
    · have hEntry := hState.stored lease ⟨hOld, hLease.2⟩ hNow
      rw [← hEntry]
      exact hKept _ (hOtherKey _ _ hEntry hNow)
    · rw [List.mem_singleton] at hLast
      rw [hLast]
      exact Redis.set_self
  · intro key entry hEntry
    by_cases hSame : key = triggerKey
    · subst hSame
      refine ⟨Lease.mk key claimId (s.now + ttlMs),
        List.mem_append_right _ (List.mem_singleton_self _),
        rfl, ?_⟩
      change s.db.set _ _ _ _ _ = _ at hEntry
      rw [Redis.set_self] at hEntry
      cases hEntry
      rfl
    · rcases hState.standing key entry
          ((hKept key hSame).symm.trans hEntry) with
        ⟨lease, hLease, hBoth⟩
      exact ⟨lease, List.mem_append_left _ hLease, hBoth⟩
  · intro other seen hOther hNow
    by_cases hSame : other = worker
    · rw [hSame, put_self] at hOther
      cases hOther
    · rw [put_other hSame] at hOther
      have hEntry := hState.seen other seen hOther hNow
      rw [← hEntry]
      exact hKept _ (hOtherKey _ _ hEntry hNow)
  · change (List.map _ (_ ++ _)).Nodup
    rw [List.map_append]
    apply List.Nodup.append hState.ids
      (List.nodup_singleton _)
    simpa using hNew
  · intro lease hLease
    rcases List.mem_append.mp hLease with hOld | hLast
    · exact hState.issued lease hOld
    · rw [List.mem_singleton] at hLast
      rw [hLast]
      exact hIssued
  · intro other key id ttl hOther
    by_cases hSame : other = worker
    · rw [hSame, put_self] at hOther
      cases hOther
    · rw [put_other hSame] at hOther
      rcases hState.fresh other key id ttl hOther with
        ⟨hOld, hOldNew, hOldApart⟩
      refine ⟨hOld, ?_, ?_⟩
      · intro lease hLease
        rcases List.mem_append.mp hLease with hIn | hLast
        · exact hOldNew lease hIn
        · rw [List.mem_singleton] at hLast
          rw [hLast]
          exact (hApart other key id ttl hSame hOther).symm
      · intro third thirdKey thirdId thirdTtl hThird hPhase'
        by_cases hWorker : third = worker
        · rw [hWorker, put_self] at hPhase'
          cases hPhase'
        · rw [put_other hWorker] at hPhase'
          exact hOldApart third thirdKey thirdId thirdTtl
            hThird hPhase'

/-
  When a worker acts promptly, no other call has seen the
  claim it acts on.
-/
theorem Guarded.alone
    {seen : Lease}
    (hState : Guarded name s)
    (hPrompt : Prompt s (.send worker))
    (hActing : (s.workers worker).acting = some seen)
    (hPhase : phase.acting = none) :
    ∀ other otherSeen,
      ((s.put worker phase).workers other).acting =
          some otherSeen →
        s.now < otherSeen.expiresAt →
          otherSeen.triggerKey ≠ seen.triggerKey := by
  intro other otherSeen hOther hNow hSame
  by_cases hWorker : other = worker
  · rw [hWorker, put_self, hPhase] at hOther
    cases hOther
  · rw [put_other hWorker] at hOther
    rcases hPrompt seen hActing with ⟨hLive, hApart⟩
    have hHere := hState.seen worker seen hActing hLive
    have hThere := hState.seen other otherSeen hOther hNow
    rw [hSame, hHere] at hThere
    have hEntry := Option.some.inj hThere
    exact hApart other hWorker otherSeen hOther hNow
      (congrArg RedisEntry.value hEntry).symm

/- Most phases claim nothing and have checked nothing. -/
theorem Guarded.goOn
    (hState : Guarded name s)
    (hActing : phase.acting = none)
    (hClaims : phase.isClaimSet = false) :
    Guarded name (s.put worker phase) := by
  apply hState.put
  · intro seen hSeen
    rw [hActing] at hSeen
    cases hSeen
  · exact hClaims

/- Every command of a prompt run keeps what is guarded. -/
theorem Guarded.send
    (hState : Guarded name s)
    (hPrompt : Prompt s (.send worker))
    (hSend : s.send name worker (s.workers worker) = some s') :
    Guarded name s' := by
  have hReverse : ∀ claimId triggerKey,
      claimKey name triggerKey ≠ reverseClaimKey name claimId :=
    fun _ _ => claimKey_ne_reverseClaimKey
  cases hPhase : s.workers worker with
  | claimSet triggerKey claimId ttlMs =>
      simp only [hPhase, ValkeyState.send] at hSend
      split at hSend
      · cases hSend
        exact hState.goOn rfl rfl
      · rcases @Redis.setNx_cases s.db s.now ttlMs
            (claimKey name triggerKey) claimId with
          ⟨_, hEq⟩ | ⟨hFree, hEq⟩
        · rw [hEq] at hSend
          cases hSend
          exact hState.goOn rfl rfl
        · rw [hEq] at hSend
          cases hSend
          exact hState.grant hPhase hFree
  | claimSetReverse triggerKey claimId ttlMs =>
      simp only [hPhase, ValkeyState.send] at hSend
      cases hSend
      apply Guarded.goOn _ rfl rfl
      exact hState.reverse fun key =>
        Redis.set_other (hReverse claimId key)
  | renewLookUp claimId ttlMs =>
      simp only [hPhase, ValkeyState.send] at hSend
      split at hSend
      · cases hSend
        exact hState.goOn rfl rfl
      · cases hSend
        exact hState.goOn rfl rfl
  | renewCheck claimId ttlMs triggerKey =>
      simp only [hPhase, ValkeyState.send] at hSend
      split at hSend
      · cases hSend
        exact hState.goOn rfl rfl
      · rename_i entry hEntry
        split at hSend
        · rename_i hId
          cases hSend
          apply hState.put _ rfl
          intro seen hSeen
          cases hSeen
          rw [(Redis.entryAt_eq_some.mp hEntry).1, ← hId]
        · cases hSend
          exact hState.goOn rfl rfl
  | renewExtend claimId ttlMs triggerKey seenUntil =>
      simp only [hPhase, ValkeyState.send] at hSend
      split at hSend
      · cases hSend
        exact hState.goOn rfl rfl
      · cases hSend
        have hActing : (s.workers worker).acting =
            some ⟨triggerKey, claimId, seenUntil⟩ := by
          rw [hPhase]
          rfl
        have hLive := (hPrompt _ hActing).1
        have hGone : Guarded name
            (s.put worker
              (.renewExtendReverse claimId ttlMs
                triggerKey)) :=
          hState.goOn rfl rfl
        exact hGone.extend
          (hState.seen worker _ hActing hLive) hLive
          (hState.alone hPrompt hActing rfl)
  | renewExtendReverse claimId ttlMs triggerKey =>
      simp only [hPhase, ValkeyState.send] at hSend
      cases hSend
      apply Guarded.goOn _ rfl rfl
      exact hState.reverse fun key =>
        Redis.pexpire_other (hReverse claimId key)
  | releaseLookUp claimId =>
      simp only [hPhase, ValkeyState.send] at hSend
      split at hSend
      · cases hSend
        exact hState.goOn rfl rfl
      · cases hSend
        exact hState.goOn rfl rfl
  | releaseCheck claimId triggerKey =>
      simp only [hPhase, ValkeyState.send] at hSend
      split at hSend
      · cases hSend
        exact hState.goOn rfl rfl
      · rename_i entry hEntry
        split at hSend
        · rename_i hId
          cases hSend
          apply hState.put _ rfl
          intro seen hSeen
          cases hSeen
          rw [(Redis.entryAt_eq_some.mp hEntry).1, ← hId]
        · cases hSend
          exact hState.goOn rfl rfl
  | releaseDelete claimId triggerKey seenUntil =>
      simp only [hPhase, ValkeyState.send] at hSend
      cases hSend
      have hActing : (s.workers worker).acting =
          some ⟨triggerKey, claimId, seenUntil⟩ := by
        rw [hPhase]
        rfl
      have hLive := (hPrompt _ hActing).1
      have hGone : Guarded name
          (s.put worker (.releaseDeleteReverse claimId)) :=
        hState.goOn rfl rfl
      exact hGone.delete
        (hState.seen worker _ hActing hLive)
        (hState.alone hPrompt hActing rfl)
  | releaseDeleteReverse claimId =>
      simp only [hPhase, ValkeyState.send] at hSend
      cases hSend
      apply Guarded.goOn _ rfl rfl
      exact hState.reverse fun key =>
        Redis.del_other (hReverse claimId key)
  | idle =>
      rw [hPhase] at hSend
      cases hSend
  | answered result =>
      rw [hPhase] at hSend
      cases hSend

theorem Guarded.step
    {action : ValkeyAction ι}
    (hState : Guarded name s)
    (hPrompt : Prompt s action)
    (hStep : s.step name action = some s') :
    Guarded name s' := by
  cases action with
  | wait ms =>
      cases hStep
      exact hState.wait
  | claim worker triggerKey ttlMs claimId =>
      simp only [ValkeyState.step] at hStep
      split at hStep
      · rename_i hBoth
        cases hStep
        exact hState.begin hBoth.2
      · cases hStep
  | renew worker claimId ttlMs =>
      simp only [ValkeyState.step] at hStep
      split at hStep
      · cases hStep
        exact hState.goOn rfl rfl
      · cases hStep
  | release worker claimId =>
      simp only [ValkeyState.step] at hStep
      split at hStep
      · cases hStep
        exact hState.goOn rfl rfl
      · cases hStep
  | send worker => exact hState.send hPrompt hStep
  | fail worker =>
      simp only [ValkeyState.step] at hStep
      split at hStep
      · cases hStep
      · cases hStep
        exact hState.goOn rfl rfl

end Steps

/-
  In every run of prompt steps, workers hold at most one
  unexpired lease on a key in every state, and every command
  acts on the claim of its call.
-/
theorem valkey_leases_safe
    {ι : Type} [DecidableEq ι]
    (name : String)
    (trace : List (ValkeyState ι × ValkeyAction ι))
    (s : ValkeyState ι)
    (hReach : Reaches (ValkeyState.step name) {} trace s)
    (hPrompt : ∀ p ∈ trace, Prompt p.1 p.2) :
    ValkeySafe s ∧
      ∀ p ∈ trace, ValkeySafe p.1 ∧
        ValkeySafeStep name p.1 p.2 := by
  have hInit : Guarded name ({} : ValkeyState ι) := by
    constructor
    · intro lease hLease
      exact absurd hLease.1 List.not_mem_nil
    · intro triggerKey entry hEntry
      cases hEntry
    · intro worker seen hActing
      cases hActing
    · exact List.nodup_nil
    · exact fun lease hLease => absurd hLease List.not_mem_nil
    · intro worker triggerKey claimId ttlMs hPhase
      cases hPhase
  have hAll := hReach.invariant (I := Guarded name)
    (C := Prompt) hInit
    (fun _ _ _ hState hStepPrompt hStep =>
      hState.step hStepPrompt hStep)
    hPrompt
  refine ⟨hAll.1.safe, ?_⟩
  intro p hMem
  have hState := hAll.2 p hMem
  exact ⟨hState.safe, hState.safeStep (hPrompt p hMem)⟩

------------------------------------------------------------
-- A Late Release
------------------------------------------------------------

instance
    {ι : Type} [DecidableEq ι] [Fintype ι]
    (s : ValkeyState ι) :
    DecidablePred (Prompt s) := fun action => by
  unfold Prompt
  cases action <;> infer_instance

instance
    {ι : Type}
    (name : String)
    (s : ValkeyState ι) :
    DecidablePred (ValkeySafeStep name s) := fun action => by
  unfold ValkeySafeStep
  cases action <;> infer_instance

namespace Sample

/-
  A worker claims a key, extends its lease and releases it,
  and another one claims the key after it.
-/
def claimedInTurn : List (ValkeyAction Bool) :=
  [.claim false "t" 5 "a", .send false, .send false,
    .wait 4, .renew false "a" 9, .send false, .send false,
    .send false, .send false, .release false "a",
    .send false, .send false, .send false, .send false,
    .claim true "t" 5 "b", .send true, .send true]

/-
  A worker has checked its claim to release it. It expires,
  another worker claims the key, and the first goes on and
  claims the key itself.
-/
def releasedLate : List (ValkeyAction Bool) :=
  [.claim false "t" 5 "a", .send false, .send false,
    .release false "a", .send false, .send false, .wait 5,
    .claim true "t" 5 "b", .send true, .send true,
    .send false, .send false,
    .claim false "t" 5 "c", .send false, .send false]

def valkeyRun
    (actions : List (ValkeyAction Bool)) :
    List (ValkeyState Bool × ValkeyAction Bool) ×
      ValkeyState Bool :=
  follow (ValkeyState.step "rain_engine") [] {} actions

end Sample

theorem valkey_leases_safe_inTurn :
    (Sample.valkeyRun Sample.claimedInTurn).1.length = 17 ∧
      ValkeySafe (Sample.valkeyRun Sample.claimedInTurn).2 ∧
      ∀ p ∈ (Sample.valkeyRun Sample.claimedInTurn).1,
        ValkeySafe p.1 ∧
          ValkeySafeStep "rain_engine" p.1 p.2 :=
  ⟨by decide +kernel,
    valkey_leases_safe "rain_engine" _ _
      (follow_reaches Sample.claimedInTurn .start)
      (by decide +kernel)⟩

/-
  The late command deletes the claim of the other worker, so
  that two unexpired leases are held on the key.
-/
theorem late_release_removes_other_lease :
    ¬(∀ (name : String)
        (trace :
          List (ValkeyState Bool × ValkeyAction Bool)) s,
      Reaches (ValkeyState.step name) {} trace s →
        ∀ p ∈ trace, ValkeySafeStep name p.1 p.2) ∧
      ¬(∀ (name : String)
          (trace :
            List (ValkeyState Bool × ValkeyAction Bool)) s,
        Reaches (ValkeyState.step name) {} trace s →
          ValkeySafe s) := by
  have hReach : Reaches (ValkeyState.step "rain_engine") {}
      (Sample.valkeyRun Sample.releasedLate).1
      (Sample.valkeyRun Sample.releasedLate).2 :=
    follow_reaches Sample.releasedLate .start
  constructor
  · intro hSafe
    have hSteps := hSafe "rain_engine" _ _ hReach
    revert hSteps
    decide +kernel
  · intro hSafe
    have hSame := hSafe "rain_engine" _ _ hReach
      ⟨"t", "b", 10⟩ ⟨"t", "c", 10⟩
      ⟨by decide +kernel, by decide +kernel⟩
      ⟨by decide +kernel, by decide +kernel⟩ rfl
      (by decide +kernel) (by decide +kernel)
    revert hSame
    decide

end RainEngine.Coordination
