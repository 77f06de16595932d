import Mathlib.Data.List.Basic
import Mathlib.Data.List.Forall2

/-
  This file is about readers that go through a log once: each
  entry is read to an update, or the reading stops with its
  error. The updates are applied to a state of registers.

  Key definitions include:
    * `readThen`
    * `latest`

  Key theorems include:
    * `foldlM_readThen_ok_iff`
    * `exists_reads_iff`
    * `latest_cons`
-/

namespace Logs

variable {ε υ σ κ α : Type}

------------------------------------------------------------
-- Readers
------------------------------------------------------------

/- Read an entry and apply what it says. -/
def readThen
    (read : ε → Except κ υ)
    (apply : σ → υ → σ)
    (s : σ)
    (entry : ε) :
    Except κ σ :=
  (read entry).map (apply s)

section Readers

variable {read : ε → Except κ υ}
variable {apply : σ → υ → σ}
variable {entry : ε}
variable {log : List ε}
variable {update : υ}
variable {updates : List υ}
variable {s s' : σ}
variable {error : κ}

theorem readThen_of_ok
    (hRead : read entry = .ok update) :
    readThen read apply s entry = .ok (apply s update) := by
  unfold readThen
  rw [hRead]
  rfl

theorem readThen_of_error
    (hRead : read entry = .error error) :
    readThen read apply s entry = .error error := by
  unfold readThen
  rw [hRead]
  rfl

/- Entries that are all read apply all that they say. -/
theorem foldlM_of_forall₂
    (hReads :
      List.Forall₂ (fun entry update => read entry = .ok update)
        log updates) :
    log.foldlM (readThen read apply) s =
      .ok (updates.foldl apply s) := by
  induction hReads generalizing s with
  | nil => rfl
  | cons hHead _ ih =>
      rw [List.foldlM_cons, readThen_of_ok hHead]
      exact ih

/- A log is read to its end if each of its entries is. -/
theorem foldlM_readThen_ok_iff :
    log.foldlM (readThen read apply) s = .ok s' ↔
      ∃ updates,
        List.Forall₂
            (fun entry update => read entry = .ok update)
            log updates ∧
          updates.foldl apply s = s' := by
  constructor
  · intro hFold
    induction log generalizing s with
    | nil =>
        cases hFold
        exact ⟨[], .nil, rfl⟩
    | cons entry rest ih =>
        rw [List.foldlM_cons] at hFold
        cases hRead : read entry with
        | error error =>
            rw [readThen_of_error hRead] at hFold
            cases hFold
        | ok update =>
            rw [readThen_of_ok hRead] at hFold
            rcases ih hFold with ⟨updates, hReads, hState⟩
            exact
              ⟨update :: updates, .cons hRead hReads, hState⟩
  · intro hUpdates
    rcases hUpdates with ⟨updates, hReads, hState⟩
    rw [foldlM_of_forall₂ hReads, hState]

/-
  The updates of logs of some kind are those that entries of
  this kind can say.
-/
theorem exists_reads_iff
    {allowed : ε → Prop} :
    (∃ log,
        (∀ entry ∈ log, allowed entry) ∧
          List.Forall₂
            (fun entry update => read entry = .ok update)
            log updates) ↔
      ∀ update ∈ updates,
        ∃ entry, allowed entry ∧ read entry = .ok update := by
  induction updates with
  | nil => exact ⟨fun _ => by simp, fun _ => ⟨[], by simp, .nil⟩⟩
  | cons update rest ih =>
      rw [List.forall_mem_cons, ← ih]
      constructor
      · intro hReads
        rcases hReads with ⟨log, hAllowed, hReads⟩
        cases hReads with
        | cons hHead hRest =>
            rw [List.forall_mem_cons] at hAllowed
            exact
              ⟨⟨_, hAllowed.1, hHead⟩, _, hAllowed.2, hRest⟩
      · intro hReads
        rcases hReads with
          ⟨⟨entry, hEntry, hHead⟩, log, hAllowed, hRest⟩
        refine ⟨entry :: log, ?_, .cons hHead hRest⟩
        rw [List.forall_mem_cons]
        exact ⟨hEntry, hAllowed⟩

end Readers

------------------------------------------------------------
-- Registers
------------------------------------------------------------

/- The last value that an entry of the log gives. -/
def latest
    (read : ε → Option α)
    (log : List ε) :
    Option α :=
  (log.filterMap read).getLast?

section Registers

variable {read : ε → Option α}
variable {log : List ε}
variable {value : α}

/- A later value of the log hides the first. -/
theorem latest_cons
    (read : ε → Option α)
    (entry : ε)
    (rest : List ε) :
    latest read (entry :: rest) =
      (latest read rest).or (read entry) := by
  unfold latest
  cases hEntry : read entry with
  | none =>
      rw [List.filterMap_cons_none hEntry, Option.or_none]
  | some value =>
      rw [List.filterMap_cons_some hEntry, List.getLast?_cons]
      cases (rest.filterMap read).getLast? with
      | none => rfl
      | some last => rfl

theorem mem_of_latest
    (hLatest : latest read log = some value) :
    ∃ entry ∈ log, read entry = some value :=
  List.mem_filterMap.mp (List.mem_of_getLast? hLatest)

end Registers

end Logs
