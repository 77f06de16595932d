import Mathlib.Logic.Function.Basic
import RainEngine.Expiry.Tables

/-
  This file is about boards: what has been posted under a key
  last, and when. A post is read until its time to live has
  passed, as the reader reckons it. Stores of several kinds
  that are called at the same times stand for one board.

  Key definitions include:
    * `Board`
    * `Board.readAs`
    * `runCalls`

  Key theorems include:
    * `runCalls_simulates`
    * `Board.readAs_eq_readAs_iff`
    * `TableOf.upsert`
-/

namespace Expiry

variable {α β κ S T : Type}

------------------------------------------------------------
-- Boards
------------------------------------------------------------

structure Posted (β : Type) where
  value : β
  postedAt : Nat
  ttl : Nat

/- The last post under every key. -/
abbrev Board (κ β : Type) : Type := κ → Option (Posted β)

inductive BoardCall (κ β : Type) where
  | read (key : κ)
  | post (key : κ) (value : β) (ttl : Nat)

def BoardCall.key : BoardCall κ β → κ
| .read key => key
| .post key _ _ => key

def Board.call
    [DecidableEq κ]
    (now : Nat)
    (board : Board κ β) :
    BoardCall κ β → Board κ β
| .read _ => board
| .post key value ttl =>
    Function.update board key (some ⟨value, now, ttl⟩)

/- A post whose time is reckoned in a way has not ended. -/
def Posted.Stands
    (reckon : Nat → Nat)
    (now : Nat)
    (post : Posted β) :
    Prop :=
  now < post.postedAt + reckon post.ttl

instance
    (reckon : Nat → Nat)
    (now : Nat) :
    DecidablePred (@Posted.Stands β reckon now) :=
  fun _ => Nat.decLt _ _

/- The post under a key, as long as it stands. -/
def Board.readAs
    (reckon : Nat → Nat)
    (board : Board κ β)
    (now : Nat)
    (key : κ) :
    Option β :=
  ((board key).filter fun post => post.Stands reckon now).map
    (·.value)

/- Two ways to reckon time, and to read what is posted. -/
theorem Board.readAs_eq_readAs_iff
    {γ : Type}
    {reckon reckon' : Nat → Nat}
    {board : Board κ β}
    {now : Nat}
    {key : κ}
    {f g : β → γ} :
    (board.readAs reckon now key).map f =
        (board.readAs reckon' now key).map g ↔
      ∀ post ∈ board key,
        (post.Stands reckon now ↔
            post.Stands reckon' now) ∧
          (post.Stands reckon now →
            f post.value = g post.value) := by
  unfold Board.readAs
  cases board key with
  | none => simp
  | some post =>
      by_cases hHere : post.Stands reckon now
      · by_cases hThere : post.Stands reckon' now <;>
          simp [Option.filter, hHere, hThere]
      · by_cases hThere : post.Stands reckon' now <;>
          simp [Option.filter, hHere, hThere]

------------------------------------------------------------
-- Runs
------------------------------------------------------------

/- Calls, each some time after the one before it. -/
def runCalls
    {C : Type}
    (step : Nat → S → C → S) :
    Nat → S → List (Nat × C) → S
| _, s, [] => s
| now, s, (wait, call) :: rest =>
    runCalls step (now + wait) (step (now + wait) s call) rest

/- The time that passes in a run of calls. -/
def elapsed {C : Type} : List (Nat × C) → Nat
| [] => 0
| (wait, _) :: rest => wait + elapsed rest

/- The simulation rule, for calls that meet a condition. -/
theorem runCalls_simulates
    {C : Type}
    {step : Nat → S → C → S}
    {step' : Nat → T → C → T}
    {R : Nat → S → T → Prop}
    {P : C → Prop}
    {now : Nat}
    {s : S}
    {t : T}
    {calls : List (Nat × C)}
    (hStep : ∀ now later s t call, R now s t → P call →
      now ≤ later → R later (step later s call)
        (step' later t call))
    (hCalls : ∀ p ∈ calls, P p.2)
    (hStart : R now s t) :
    R (now + elapsed calls) (runCalls step now s calls)
      (runCalls step' now t calls) := by
  induction calls generalizing now s t with
  | nil => exact hStart
  | cons head rest ih =>
      rcases head with ⟨wait, call⟩
      have hHead := hStep now (now + wait) s t call hStart
        (hCalls (wait, call) List.mem_cons_self)
        (Nat.le_add_right _ _)
      have hRest := ih
        (fun p hMem => hCalls p (List.mem_cons_of_mem _ hMem))
        hHead
      rw [Nat.add_assoc] at hRest
      exact hRest

------------------------------------------------------------
-- Tables That Stand For Boards
------------------------------------------------------------

/-
  From the time on, a table reads like the board, in the exact
  time of its posts.
-/
structure TableOf
    [DecidableEq κ]
    (key : α → κ)
    (expiresAt : α → Nat)
    (value : α → β)
    (now : Nat)
    (items : List α)
    (board : Board κ β) : Prop where
  keys : (items.map key).Nodup
  reads : ∀ later, now ≤ later → ∀ target,
    (readAt key expiresAt later items target).map value =
      board.readAs id later target

section Tables

variable [DecidableEq κ]
variable {key : α → κ}
variable {expiresAt : α → Nat}
variable {value : α → β}
variable {now later : Nat}
variable {items : List α}
variable {item : α}
variable {board : Board κ β}
variable {target : κ}

/- What is left after pruning is current. -/
theorem lookup_prune
    (hNodup : (items.map key).Nodup) :
    lookup key (prune expiresAt now items) target =
      readAt key expiresAt now items target := by
  apply Option.ext
  intro item
  rw [lookup_eq_some (nodup_prune hNodup),
    readAt_eq_some hNodup, mem_prune]
  constructor
  · rintro ⟨⟨hMem, hNow⟩, hKey⟩
    exact ⟨hMem, hKey, hNow⟩
  · rintro ⟨hMem, hKey, hNow⟩
    exact ⟨⟨hMem, hNow⟩, hKey⟩

theorem TableOf.prune
    (hTable : TableOf key expiresAt value now items board)
    (hLater : now ≤ later) :
    TableOf key expiresAt value later
      (prune expiresAt later items) board := by
  refine ⟨nodup_prune hTable.keys, ?_⟩
  intro time hTime target
  rw [readAt_prune hTable.keys hTime]
  exact hTable.reads time (by omega) target

/- A pruned table is looked up like the board. -/
theorem TableOf.lookup_prune
    (hTable : TableOf key expiresAt value now items board)
    (hLater : now ≤ later) :
    (lookup key (Expiry.prune expiresAt later items)
        target).map value =
      board.readAs id later target := by
  rw [Expiry.lookup_prune hTable.keys]
  exact hTable.reads later hLater target

theorem TableOf.upsert
    {ttl : Nat}
    (hTable : TableOf key expiresAt value now items board)
    (hExpires : expiresAt item = now + ttl) :
    TableOf key expiresAt value now
      (Logs.upsert key items item)
      (Function.update board (key item)
        (some ⟨value item, now, ttl⟩)) := by
  refine ⟨nodup_upsert hTable.keys, ?_⟩
  intro later hLater target
  rw [readAt_upsert]
  by_cases hKey : key item = target
  · subst hKey
    rw [if_pos rfl]
    unfold Board.readAs Posted.Stands
    rw [Function.update_self]
    by_cases hNow : later < now + ttl <;>
      simp [Option.filter, hExpires, hNow]
  · have hTarget : target ≠ key item := fun hSame =>
      hKey hSame.symm
    rw [if_neg hKey, hTable.reads later hLater target]
    unfold Board.readAs
    rw [Function.update_of_ne hTarget]

end Tables

end Expiry
