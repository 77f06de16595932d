import Mathlib.Logic.Function.Basic
import Mathlib.Data.List.Basic

/-
  This file models the commands of the key-value server that
  the coordination store of the workers uses, and the keys the
  store gives its entries. A key that has expired counts as
  absent. Times are in the units of the clock.

  Key definitions include:
    * `Redis.get`
    * `Redis.setNx`
    * `Redis.pexpire`
    * `claimKey`

  Key theorems include:
    * `Redis.entryAt_pexpire`
    * `claimKey_injective`
    * `claimKey_ne_reverseClaimKey`
-/

namespace RainEngine.Coordination

structure RedisEntry where
  value : String
  expiresAt : Nat
deriving DecidableEq

/- The entries of a server by their keys. -/
abbrev Redis : Type := String → Option RedisEntry

namespace Redis

/- The entry of a key, until it expires. -/
def entryAt
    (db : Redis)
    (now : Nat)
    (key : String) :
    Option RedisEntry :=
  (db key).filter fun entry => now < entry.expiresAt

/- `GET key`. -/
def get
    (db : Redis)
    (now : Nat)
    (key : String) :
    Option String :=
  (db.entryAt now key).map (·.value)

/- `SET key value PX ttl`. -/
def set
    (db : Redis)
    (now : Nat)
    (key value : String)
    (ttl : Nat) :
    Redis :=
  Function.update db key (some ⟨value, now + ttl⟩)

/- `SET key value NX PX ttl`. -/
def setNx
    (db : Redis)
    (now : Nat)
    (key value : String)
    (ttl : Nat) :
    Option Redis :=
  match db.entryAt now key with
  | some _ => none
  | none => some (db.set now key value ttl)

/- `PEXPIRE key ttl`. -/
def pexpire
    (db : Redis)
    (now : Nat)
    (key : String)
    (ttl : Nat) :
    Redis :=
  match db.entryAt now key with
  | some entry => db.set now key entry.value ttl
  | none => db

/- `DEL key`. -/
def del (db : Redis) (key : String) : Redis :=
  Function.update db key none

section Commands

variable {db : Redis}
variable {now later ttl : Nat}
variable {key other value : String}
variable {entry : RedisEntry}

theorem entryAt_eq_some :
    db.entryAt now key = some entry ↔
      db key = some entry ∧ now < entry.expiresAt := by
  unfold entryAt
  rw [Option.filter_eq_some_iff, decide_eq_true_eq]

@[simp] theorem set_self :
    db.set now key value ttl key =
      some ⟨value, now + ttl⟩ :=
  Function.update_self _ _ _

theorem set_other
    (hOther : other ≠ key) :
    db.set now key value ttl other = db other :=
  Function.update_of_ne hOther _ _

theorem del_other
    (hOther : other ≠ key) :
    db.del key other = db other :=
  Function.update_of_ne hOther _ _

@[simp] theorem del_self : db.del key key = none :=
  Function.update_self _ _ _

theorem pexpire_other
    (hOther : other ≠ key) :
    db.pexpire now key ttl other = db other := by
  unfold pexpire
  cases db.entryAt now key with
  | some entry => exact set_other hOther
  | none => rfl

/- A key that is there is kept for the new time. -/
theorem pexpire_self
    (hEntry : db.entryAt now key = some entry) :
    db.pexpire now key ttl key =
      some ⟨entry.value, now + ttl⟩ := by
  unfold pexpire
  rw [hEntry]
  exact set_self

/- A key that is set only if it is absent. -/
theorem setNx_cases :
    (∃ entry, db.entryAt now key = some entry) ∧
        db.setNx now key value ttl = none ∨
      db.entryAt now key = none ∧
        db.setNx now key value ttl =
          some (db.set now key value ttl) := by
  unfold setNx
  cases hEntry : db.entryAt now key with
  | none => exact .inr ⟨rfl, rfl⟩
  | some entry => exact .inl ⟨⟨entry, rfl⟩, rfl⟩

end Commands

end Redis

------------------------------------------------------------
-- Keys
------------------------------------------------------------

def claimKey
    (namespaceName triggerKey : String) :
    String :=
  namespaceName ++ ":claim:" ++ triggerKey

def reverseClaimKey
    (namespaceName claimId : String) :
    String :=
  namespaceName ++ ":claim_by_id:" ++ claimId

def scratchpadKey
    (storeName namespaceName key : String) :
    String :=
  storeName ++ ":scratchpad:" ++ namespaceName ++ ":" ++ key

theorem claimKey_injective
    {namespaceName triggerKey other : String}
    (hSame :
      claimKey namespaceName triggerKey =
        claimKey namespaceName other) :
    triggerKey = other := by
  have hChars := congrArg String.toList hSame
  unfold claimKey at hChars
  simp only [String.toList_append, List.append_cancel_left_eq]
    at hChars
  exact String.toList_inj.mp hChars

/- The two kinds of keys are told apart after the name. -/
theorem claimKey_ne_reverseClaimKey
    {namespaceName triggerKey claimId : String} :
    claimKey namespaceName triggerKey ≠
      reverseClaimKey namespaceName claimId := by
  intro hSame
  have hChars := congrArg String.toList hSame
  unfold claimKey reverseClaimKey at hChars
  rw [String.toList_append, String.toList_append,
    String.toList_append, String.toList_append,
    List.append_assoc, List.append_assoc,
    List.append_cancel_left_eq] at hChars
  simp at hChars

end RainEngine.Coordination
