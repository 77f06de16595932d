import Mathlib.Data.List.Nodup
import RainEngine.Logs.Keyed

/-
  This file is about tables whose items expire. An item counts
  until its time, whether or not it has been pruned since.

  Key definitions include:
    * `prune`
    * `remove`
    * `readAt`

  Key theorems include:
    * `eq_of_key`
    * `readAt_prune`
    * `readAt_upsert`
-/

namespace Expiry

variable {α κ : Type}

/- Drop the items whose time has come. -/
def prune
    (expiresAt : α → Nat)
    (now : Nat)
    (items : List α) :
    List α :=
  items.filter fun item => now < expiresAt item

/- Drop the items with the key. -/
def remove
    [DecidableEq κ]
    (key : α → κ)
    (items : List α)
    (target : κ) :
    List α :=
  items.filter fun item => key item ≠ target

def lookup
    [DecidableEq κ]
    (key : α → κ)
    (items : List α)
    (target : κ) :
    Option α :=
  items.find? fun item => key item = target

/- The item with the key, until its time comes. -/
def readAt
    [DecidableEq κ]
    (key : α → κ)
    (expiresAt : α → Nat)
    (now : Nat)
    (items : List α)
    (target : κ) :
    Option α :=
  (lookup key items target).filter
    fun item => now < expiresAt item

section Items

variable {key : α → κ}
variable {expiresAt : α → Nat}
variable {now earlier : Nat}
variable {items : List α}
variable {item other : α}
variable {target : κ}

theorem mem_prune :
    item ∈ prune expiresAt now items ↔
      item ∈ items ∧ now < expiresAt item := by
  simp [prune]

theorem nodup_prune
    (hNodup : (items.map key).Nodup) :
    ((prune expiresAt now items).map key).Nodup :=
  hNodup.sublist (List.filter_sublist.map key)

/- Items with distinct keys are told apart by them. -/
theorem eq_of_key
    (hNodup : (items.map key).Nodup)
    (hItem : item ∈ items)
    (hOther : other ∈ items)
    (hKey : key item = key other) :
    item = other :=
  List.inj_on_of_nodup_map hNodup hItem hOther hKey

variable [DecidableEq κ]

theorem mem_remove :
    item ∈ remove key items target ↔
      item ∈ items ∧ key item ≠ target := by
  simp [remove]

theorem nodup_remove
    {γ : Type}
    {view : α → γ}
    (hNodup : (items.map view).Nodup) :
    ((remove key items target).map view).Nodup :=
  hNodup.sublist (List.filter_sublist.map view)

theorem lookup_eq_none :
    lookup key items target = none ↔
      ∀ item ∈ items, key item ≠ target := by
  simp [lookup]

/- In a table with distinct keys an item is found by its key. -/
theorem lookup_eq_some
    (hNodup : (items.map key).Nodup) :
    lookup key items target = some item ↔
      item ∈ items ∧ key item = target := by
  constructor
  · intro hFound
    have hMem := List.mem_of_find?_eq_some hFound
    have hKey := List.find?_some hFound
    exact ⟨hMem, by simpa using hKey⟩
  · rintro ⟨hMem, hKey⟩
    cases hFound : lookup key items target with
    | none =>
        exact absurd hKey
          (lookup_eq_none.mp hFound item hMem)
    | some other =>
        have hOther := List.mem_of_find?_eq_some hFound
        have hSame := List.find?_some hFound
        rw [decide_eq_true_eq] at hSame
        rw [eq_of_key hNodup hMem hOther
          (hKey.trans hSame.symm)]

theorem readAt_eq_some
    (hNodup : (items.map key).Nodup) :
    readAt key expiresAt now items target = some item ↔
      item ∈ items ∧ key item = target ∧
        now < expiresAt item := by
  unfold readAt
  rw [Option.filter_eq_some_iff, lookup_eq_some hNodup,
    decide_eq_true_eq, and_assoc]

/- Tables that hold the same current items read the same. -/
theorem readAt_congr
    {items' : List α}
    (hNodup : (items.map key).Nodup)
    (hNodup' : (items'.map key).Nodup)
    (hSame : ∀ item, key item = target →
      now < expiresAt item →
        (item ∈ items ↔ item ∈ items')) :
    readAt key expiresAt now items target =
      readAt key expiresAt now items' target := by
  apply Option.ext
  intro item
  rw [readAt_eq_some hNodup, readAt_eq_some hNodup']
  constructor
  · rintro ⟨hMem, hKey, hNow⟩
    exact ⟨(hSame item hKey hNow).mp hMem, hKey, hNow⟩
  · rintro ⟨hMem, hKey, hNow⟩
    exact ⟨(hSame item hKey hNow).mpr hMem, hKey, hNow⟩

/- Pruning at an earlier time is not seen. -/
theorem readAt_prune
    (hNodup : (items.map key).Nodup)
    (hEarlier : earlier ≤ now) :
    readAt key expiresAt now
        (prune expiresAt earlier items) target =
      readAt key expiresAt now items target := by
  apply readAt_congr (nodup_prune hNodup) hNodup
  intro item _ hNow
  rw [mem_prune]
  constructor
  · exact fun hBoth => hBoth.1
  · intro hMem
    exact ⟨hMem, by omega⟩

/- Putting an item keeps the keys distinct. -/
theorem nodup_upsert
    (hNodup : (items.map key).Nodup) :
    ((Logs.upsert key items item).map key).Nodup := by
  by_cases hMem : key item ∈ items.map key
  · rw [Logs.upsert_keys_of_mem hMem]
    exact hNodup
  · rw [Logs.upsert_of_not_mem hMem, List.map_append]
    apply List.Nodup.append hNodup (List.nodup_singleton _)
    simpa using hMem

theorem lookup_upsert :
    lookup key (Logs.upsert key items item) target =
      if key item = target then some item
      else lookup key items target := by
  unfold lookup
  induction items with
  | nil =>
      unfold Logs.upsert
      by_cases hTarget : key item = target <;> simp [hTarget]
  | cons head rest ih =>
      unfold Logs.upsert
      by_cases hHead : key head = key item
      · by_cases hTarget : key item = target
        · simp [hHead, hTarget]
        · simp [hHead, hTarget]
      · rw [if_neg hHead]
        by_cases hFound : key head = target
        · have hOther : ¬key item = target := by
            intro hTarget
            exact hHead (hFound.trans hTarget.symm)
          simp [hFound, hOther]
        · rw [List.find?_cons, List.find?_cons]
          simp only [hFound, decide_false]
          exact ih

/- What is put is read until its time, in place of the old. -/
theorem readAt_upsert :
    readAt key expiresAt now (Logs.upsert key items item)
        target =
      if key item = target then
        (some item).filter fun item => now < expiresAt item
      else readAt key expiresAt now items target := by
  unfold readAt
  rw [lookup_upsert]
  split <;> rfl

end Items

end Expiry
