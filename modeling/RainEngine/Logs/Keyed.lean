import RainEngine.Logs.Views

/-
  This file is about tables that are kept by folding a log.
  An entry puts an item into the table, in the place of the
  item with its key if there is one, or changes the item with
  a given key, or does neither. The table is a reading of the
  last put of each key and of the changes after it.

  Key definitions include:
    * `upsert`
    * `changeAt`
    * `KeyedLog`
    * `KeyedLog.table`
    * `KeyedLog.WrittenBy`

  Key theorems include:
    * `KeyedLog.table_keys`
    * `KeyedLog.writtenBy_of_mem`
    * `KeyedLog.write_table_of_absent`
    * `KeyedLog.read_foldl_revise`
-/

namespace Logs

variable {ε κ α β : Type}
variable [DecidableEq κ]

------------------------------------------------------------
-- Keyed Items
------------------------------------------------------------

/- Replace the first item with the key, or append the value. -/
def upsert
    (key : α → κ)
    (items : List α)
    (value : α) :
    List α :=
  match items with
  | [] => [value]
  | item :: rest =>
      if key item = key value then value :: rest
      else item :: upsert key rest value

/- Change the first item with the key. -/
def changeAt
    (key : α → κ)
    (items : List α)
    (target : κ)
    (change : α → α) :
    List α :=
  match items with
  | [] => []
  | item :: rest =>
      if key item = target then change item :: rest
      else item :: changeAt key rest target change

/- Append the item if there is one. -/
def push (items : List α) : Option α → List α
| some item => items ++ [item]
| none => items

section Items

variable {key : α → κ}
variable {items : List α}
variable {item value : α}
variable {target : κ}
variable {change : α → α}

theorem upsert_keys_of_mem
    (hMem : key value ∈ items.map key) :
    (upsert key items value).map key = items.map key := by
  induction items with
  | nil => cases hMem
  | cons head rest ih =>
      unfold upsert
      by_cases hHead : key head = key value
      · rw [if_pos hHead, List.map_cons, List.map_cons, hHead]
      · rw [if_neg hHead, List.map_cons, List.map_cons]
        rw [List.map_cons] at hMem
        rcases List.mem_cons.mp hMem with hSame | hRest
        · exact absurd hSame.symm hHead
        · rw [ih hRest]

theorem upsert_of_not_mem
    (hNew : key value ∉ items.map key) :
    upsert key items value = items ++ [value] := by
  induction items with
  | nil => rfl
  | cons head rest ih =>
      rw [List.map_cons, List.mem_cons, not_or] at hNew
      unfold upsert
      rw [if_neg (Ne.symm hNew.1), ih hNew.2]
      rfl

/- A key put again is one that has been seen. -/
theorem upsert_keys
    {seen : List κ}
    (hKeys : items.map key = seen.eraseDups) :
    (upsert key items value).map key =
      (seen ++ [key value]).eraseDups := by
  rw [List.eraseDups_append, ← hKeys]
  by_cases hMem : key value ∈ items.map key
  · have hSeen : key value ∈ seen := by
      rw [hKeys] at hMem
      exact List.mem_eraseDups.mp hMem
    rw [upsert_keys_of_mem hMem]
    simp [List.removeAll, hSeen]
  · have hNew : key value ∉ seen := by
      intro hSeen
      rw [hKeys] at hMem
      exact hMem (List.mem_eraseDups.mpr hSeen)
    rw [upsert_of_not_mem hMem, List.map_append]
    simp [List.removeAll, hNew, List.eraseDups_cons]

theorem mem_upsert
    (hMem : item ∈ upsert key items value)
    (hNodup : (items.map key).Nodup) :
    item = value ∨
      item ∈ items ∧ key item ≠ key value := by
  induction items with
  | nil => exact .inl (List.mem_singleton.mp hMem)
  | cons head rest ih =>
      rw [List.map_cons, List.nodup_cons] at hNodup
      unfold upsert at hMem
      by_cases hHead : key head = key value
      · rw [if_pos hHead] at hMem
        rcases List.mem_cons.mp hMem with hSame | hRest
        · exact .inl hSame
        · refine .inr ⟨List.mem_cons_of_mem _ hRest, ?_⟩
          intro hKey
          apply hNodup.1
          rw [hHead, ← hKey]
          exact List.mem_map_of_mem hRest
      · rw [if_neg hHead] at hMem
        rcases List.mem_cons.mp hMem with hSame | hRest
        · subst hSame
          exact .inr ⟨List.mem_cons_self, hHead⟩
        · rcases ih hRest hNodup.2 with hValue | ⟨hOld, hKey⟩
          · exact .inl hValue
          · exact .inr ⟨List.mem_cons_of_mem _ hOld, hKey⟩

theorem changeAt_keys
    (hKeeps : ∀ item, key (change item) = key item) :
    (changeAt key items target change).map key =
      items.map key := by
  induction items with
  | nil => rfl
  | cons head rest ih =>
      unfold changeAt
      by_cases hHead : key head = target
      · rw [if_pos hHead, List.map_cons, List.map_cons,
          hKeeps]
      · rw [if_neg hHead, List.map_cons, List.map_cons, ih]

theorem changeAt_of_not_mem
    (hNone : target ∉ items.map key) :
    changeAt key items target change = items := by
  induction items with
  | nil => rfl
  | cons head rest ih =>
      rw [List.map_cons, List.mem_cons, not_or] at hNone
      unfold changeAt
      rw [if_neg (Ne.symm hNone.1), ih hNone.2]

theorem mem_changeAt
    (hMem : item ∈ changeAt key items target change)
    (hNodup : (items.map key).Nodup) :
    (∃ old ∈ items, key old = target ∧ item = change old) ∨
      item ∈ items ∧ key item ≠ target := by
  induction items with
  | nil => cases hMem
  | cons head rest ih =>
      rw [List.map_cons, List.nodup_cons] at hNodup
      unfold changeAt at hMem
      by_cases hHead : key head = target
      · rw [if_pos hHead] at hMem
        rcases List.mem_cons.mp hMem with hSame | hRest
        · exact .inl ⟨head, List.mem_cons_self, hHead, hSame⟩
        · refine .inr ⟨List.mem_cons_of_mem _ hRest, ?_⟩
          intro hKey
          apply hNodup.1
          rw [hHead, ← hKey]
          exact List.mem_map_of_mem hRest
      · rw [if_neg hHead] at hMem
        rcases List.mem_cons.mp hMem with hSame | hRest
        · subst hSame
          exact .inr ⟨List.mem_cons_self, hHead⟩
        · rcases ih hRest hNodup.2 with
            ⟨old, hOld, hKey, hItem⟩ | ⟨hOld, hKey⟩
          · exact .inl
              ⟨old, List.mem_cons_of_mem _ hOld, hKey, hItem⟩
          · exact .inr ⟨List.mem_cons_of_mem _ hOld, hKey⟩

/- What a change keeps is kept for all items. -/
theorem changeAt_map
    {γ : Type}
    {view : α → γ}
    (hKeeps : ∀ item, view (change item) = view item) :
    (changeAt key items target change).map view =
      items.map view := by
  induction items with
  | nil => rfl
  | cons head rest ih =>
      unfold changeAt
      by_cases hHead : key head = target
      · rw [if_pos hHead, List.map_cons, List.map_cons,
          hKeeps]
      · rw [if_neg hHead, List.map_cons, List.map_cons, ih]

theorem mem_changeAt_of_other
    (hMem : item ∈ items)
    (hOther : key item ≠ target) :
    item ∈ changeAt key items target change := by
  induction items with
  | nil => cases hMem
  | cons head rest ih =>
      unfold changeAt
      rcases List.mem_cons.mp hMem with hSame | hRest
      · subst hSame
        rw [if_neg hOther]
        exact List.mem_cons_self
      · split
        · exact List.mem_cons_of_mem _ hRest
        · exact List.mem_cons_of_mem _ (ih hRest)

theorem mem_changeAt_of_target
    (hMem : item ∈ items)
    (hTarget : key item = target)
    (hNodup : (items.map key).Nodup) :
    change item ∈ changeAt key items target change := by
  induction items with
  | nil => cases hMem
  | cons head rest ih =>
      rw [List.map_cons, List.nodup_cons] at hNodup
      unfold changeAt
      rcases List.mem_cons.mp hMem with hSame | hRest
      · subst hSame
        rw [if_pos hTarget]
        exact List.mem_cons_self
      · by_cases hHead : key head = target
        · exfalso
          apply hNodup.1
          rw [hHead, ← hTarget]
          exact List.mem_map_of_mem hRest
        · rw [if_neg hHead]
          exact List.mem_cons_of_mem _ (ih hRest hNodup.2)

end Items

omit [DecidableEq κ] in
theorem foldl_push
    {read : ε → Option α}
    {log : List ε}
    {items : List α} :
    log.foldl (fun items entry => push items (read entry))
        items =
      items ++ log.filterMap read := by
  induction log generalizing items with
  | nil => exact (List.append_nil items).symm
  | cons entry rest ih =>
      rw [List.foldl_cons, ih, List.filterMap_cons]
      cases read entry with
      | none => rfl
      | some item => exact List.append_assoc _ _ _

/- The first appearances in a list are distinct. -/
theorem nodup_eraseDups (keys : List κ) :
    keys.eraseDups.Nodup := by
  induction hLength : keys.length using Nat.strongRecOn
    generalizing keys with
  | ind length ih =>
      cases keys with
      | nil => exact List.nodup_nil
      | cons first rest =>
          rw [List.eraseDups_cons, List.nodup_cons]
          constructor
          · rw [List.mem_eraseDups, List.mem_filter]
            simp
          · apply ih _ _ _ rfl
            have hShorter := List.length_filter_le
              (fun b => !b == first) rest
            rw [List.length_cons] at hLength
            omega

------------------------------------------------------------
-- Keyed Logs
------------------------------------------------------------

/-
  How the entries of a log are read as writes to a table: an
  item that is put, or the key of an item that is changed. No
  entry is both, and a change keeps the key of its item.
-/
structure KeyedLog (ε κ α : Type) where
  key : α → κ
  put : ε → Option α
  target : ε → Option κ
  change : ε → α → α
  apart : ∀ entry, target entry ≠ none → put entry = none
  keeps : ∀ entry item, key (change entry item) = key item

namespace KeyedLog

/- A log whose entries put items and change none. -/
def ofPuts
    (key : α → κ)
    (put : ε → Option α) :
    KeyedLog ε κ α where
  key := key
  put := put
  target := fun _ => none
  change := fun _ item => item
  apart := fun _ hTarget => absurd rfl hTarget
  keeps := fun _ _ => rfl

variable (L : KeyedLog ε κ α)

/- The effect of one entry on a table. -/
def write (items : List α) (entry : ε) : List α :=
  match L.put entry with
  | some value => upsert L.key items value
  | none =>
      match L.target entry with
      | some target =>
          changeAt L.key items target (L.change entry)
      | none => items

/- The table a log adds up to. -/
def table (log : List ε) : List α :=
  log.foldl L.write []

/- The keys put, in the order of the log. -/
def putKeys (log : List ε) : List κ :=
  (log.filterMap L.put).map L.key

/- What an entry makes of an item that is in the table. -/
def revise (item : α) (entry : ε) : α :=
  if L.target entry = some (L.key item) then
    L.change entry item
  else item

/-
  The item is the last put of its key, revised by the entries
  after it.
-/
def WrittenBy (log : List ε) (item : α) : Prop :=
  ∃ before entry after value,
    log = before ++ entry :: after ∧
    L.put entry = some value ∧
    L.key value = L.key item ∧
    L.key item ∉ L.putKeys after ∧
    item = after.foldl L.revise value

section Tables

variable {L}
variable {log rest : List ε}
variable {entry : ε}
variable {item : α}

theorem table_snoc :
    L.table (log ++ [entry]) =
      L.write (L.table log) entry := by
  unfold table
  rw [List.foldl_append]
  rfl

omit [DecidableEq κ] in
theorem putKeys_append :
    L.putKeys (log ++ rest) =
      L.putKeys log ++ L.putKeys rest := by
  unfold putKeys
  rw [List.filterMap_append, List.map_append]

/- The keys of a table are in order of first appearance. -/
theorem table_keys :
    (L.table log).map L.key = (L.putKeys log).eraseDups := by
  induction log using List.reverseRecOn with
  | nil => rfl
  | append_singleton log entry ih =>
      rw [table_snoc, putKeys_append]
      unfold write putKeys
      cases hPut : L.put entry with
      | some value =>
          simp only [List.filterMap_cons, hPut]
          exact upsert_keys ih
      | none =>
          simp only [List.filterMap_cons, hPut,
            List.filterMap_nil, List.map_nil, List.append_nil]
          cases L.target entry with
          | none => exact ih
          | some target =>
              dsimp only
              rw [changeAt_keys (L.keeps entry)]
              exact ih

theorem table_nodup :
    ((L.table log).map L.key).Nodup := by
  rw [table_keys]
  exact nodup_eraseDups _

theorem revise_of_target
    (hTarget : L.target entry = some (L.key item)) :
    L.revise item entry = L.change entry item :=
  if_pos hTarget

theorem revise_of_other
    (hOther : L.target entry ≠ some (L.key item)) :
    L.revise item entry = item :=
  if_neg hOther

theorem foldl_revise_ofPuts
    {key : α → κ}
    {put : ε → Option α} :
    log.foldl (ofPuts key put).revise item = item := by
  induction log with
  | nil => rfl
  | cons entry rest ih => exact ih

theorem revise_key :
    L.key (L.revise item entry) = L.key item := by
  unfold revise
  split
  · exact L.keeps entry item
  · rfl

/- A change of a table revises each of its items. -/
theorem mem_write_of_change
    {items : List α}
    (hPut : L.put entry = none)
    (hNodup : (items.map L.key).Nodup)
    (hMem : item ∈ L.write items entry) :
    ∃ old ∈ items, item = L.revise old entry := by
  unfold write at hMem
  rw [hPut] at hMem
  cases hTarget : L.target entry with
  | none =>
      rw [hTarget] at hMem
      refine ⟨item, hMem, ?_⟩
      rw [revise_of_other (by simp [hTarget])]
  | some target =>
      rw [hTarget] at hMem
      rcases mem_changeAt hMem hNodup with
        ⟨old, hOld, hKey, hItem⟩ | ⟨hOld, hKey⟩
      · refine ⟨old, hOld, ?_⟩
        rw [revise_of_target (by rw [hTarget, hKey])]
        exact hItem
      · refine ⟨item, hOld, ?_⟩
        rw [revise_of_other]
        intro hSame
        rw [hTarget] at hSame
        exact hKey (Option.some.inj hSame).symm

/- Every item is the last put of its key, as revised since. -/
theorem writtenBy_of_mem
    (hMem : item ∈ L.table log) :
    L.WrittenBy log item := by
  induction log using List.reverseRecOn generalizing item with
  | nil => cases hMem
  | append_singleton log entry ih =>
      rw [table_snoc] at hMem
      have hNodup := @table_nodup _ _ _ _ L log
      cases hPut : L.put entry with
      | some value =>
          have hUpsert :
              item ∈ upsert L.key (L.table log) value := by
            unfold write at hMem
            rwa [hPut] at hMem
          rcases mem_upsert hUpsert hNodup with
            hSame | ⟨hOld, hKey⟩
          · subst hSame
            exact ⟨log, entry, [], item, rfl, hPut, rfl,
              List.not_mem_nil, rfl⟩
          · rcases ih hOld with ⟨before, first, after, initial,
              hLog, hFirst, hSame, hLast, hItem⟩
            refine ⟨before, first, after ++ [entry], initial,
              by rw [hLog]; simp, hFirst, hSame, ?_, ?_⟩
            · rw [putKeys_append, List.mem_append, not_or]
              refine ⟨hLast, ?_⟩
              unfold putKeys
              simpa [hPut] using hKey
            · have hOther :
                  L.target entry ≠ some (L.key item) := by
                intro hTarget
                have hNone := L.apart entry (by simp [hTarget])
                rw [hPut] at hNone
                cases hNone
              rw [List.foldl_append, ← hItem]
              exact (revise_of_other hOther).symm
      | none =>
          rcases mem_write_of_change hPut hNodup hMem with
            ⟨old, hOld, hItem⟩
          rcases ih hOld with ⟨before, first, after, initial,
            hLog, hFirst, hSame, hLast, hRevised⟩
          have hKey : L.key item = L.key old := by
            rw [hItem, revise_key]
          refine ⟨before, first, after ++ [entry], initial,
            by rw [hLog]; simp, hFirst, by rw [hKey, hSame], ?_,
            ?_⟩
          · rw [putKeys_append, List.mem_append, not_or, hKey]
            refine ⟨hLast, ?_⟩
            unfold putKeys
            simp [hPut]
          · rw [List.foldl_append, ← hRevised]
            exact hItem

/- A change of an item that is not in the table does nothing. -/
theorem write_table_of_absent
    {target : κ}
    (hTarget : L.target entry = some target)
    (hAbsent : target ∉ L.putKeys log) :
    L.write (L.table log) entry = L.table log := by
  have hPut := L.apart entry (by simp [hTarget])
  unfold write
  rw [hPut, hTarget]
  apply changeAt_of_not_mem
  rw [table_keys, List.mem_eraseDups]
  exact hAbsent

theorem foldl_revise_key :
    L.key (log.foldl L.revise item) = L.key item := by
  induction log generalizing item with
  | nil => rfl
  | cons entry rest ih =>
      rw [List.foldl_cons, ih, revise_key]

/-
  A field that a change sets or leaves is set by the last
  change of the item that sets it.
-/
theorem read_foldl_revise
    {field : α → β}
    {read : ε → Option β}
    (hChange : ∀ entry item,
      field (L.change entry item) =
        (read entry).getD (field item)) :
    field (log.foldl L.revise item) =
      (log.findSomeRev? fun entry =>
        if L.target entry = some (L.key item) then read entry
        else none).getD (field item) := by
  induction log using List.reverseRecOn with
  | nil => rfl
  | append_singleton log entry ih =>
      rw [List.foldl_append, findSomeRev?_snoc]
      rw [List.foldl_cons, List.foldl_nil]
      by_cases hTarget : L.target entry = some (L.key item)
      · rw [if_pos hTarget]
        rw [← @foldl_revise_key _ _ _ _ L log] at hTarget
        rw [revise_of_target hTarget, hChange]
        cases read entry with
        | some answer => rfl
        | none => exact ih
      · rw [if_neg hTarget]
        rw [← @foldl_revise_key _ _ _ _ L log] at hTarget
        rw [revise_of_other hTarget]
        exact ih

end Tables

end KeyedLog

end Logs
