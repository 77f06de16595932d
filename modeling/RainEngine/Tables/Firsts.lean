import Mathlib.Data.List.Nodup

/-
  This file is about collecting the items of a list over
  several scans, each of which takes the items it hits whose
  key has not been taken. If a scan hits all items of a key or
  none, what is taken are the first items of their keys.

  Key definitions include:
    * `Collected`
    * `scan`
    * `IsFirst`
    * `Collects`

  Key theorems include:
    * `Collects.scan`
-/

namespace Tables

variable {ε κ : Type}

------------------------------------------------------------
-- Scans
------------------------------------------------------------

structure Collected (ε κ : Type) where
  keys : List κ
  items : List ε

/- Take an item if its key has not been taken. -/
def collect
    [DecidableEq κ]
    (key : ε → κ)
    (collected : Collected ε κ)
    (item : ε) :
    Collected ε κ :=
  if key item ∈ collected.keys then collected
  else
    { keys := key item :: collected.keys
      items := collected.items ++ [item] }

/- Take the items that are hit. -/
def scan
    [DecidableEq κ]
    (key : ε → κ)
    (hit : ε → Bool)
    (collected : Collected ε κ)
    (items : List ε) :
    Collected ε κ :=
  items.foldl
    (fun collected item =>
      if hit item then collect key collected item
      else collected)
    collected

/- The item is the first of its key. -/
def IsFirst
    [DecidableEq κ]
    (key : ε → κ)
    (items : List ε)
    (item : ε) :
    Prop :=
  items.find? (fun other => key other = key item) =
    some item

/- What was taken are the first items that were hit. -/
structure Collects
    [DecidableEq κ]
    (key : ε → κ)
    (items : List ε)
    (hit : ε → Prop)
    (collected : Collected ε κ) :
    Prop where
  taken : ∀ item, item ∈ collected.items ↔
    IsFirst key items item ∧ hit item
  keys : ∀ k, k ∈ collected.keys ↔
    k ∈ collected.items.map key
  distinct : (collected.items.map key).Nodup

section Scans

variable [DecidableEq κ]
variable {key : ε → κ}
variable {items before after : List ε}
variable {item other : ε}
variable {hit : ε → Prop}
variable {collected : Collected ε κ}

theorem collects_nothing :
    Collects key items (fun _ => False) ⟨[], []⟩ where
  taken := by simp
  keys := by simp
  distinct := List.nodup_nil

theorem Collects.congr
    {hit' : ε → Prop}
    (hCollects : Collects key items hit collected)
    (hHit : ∀ item, hit item ↔ hit' item) :
    Collects key items hit' collected where
  taken := by
    intro item
    rw [hCollects.taken, hHit]
  keys := hCollects.keys
  distinct := hCollects.distinct

/- There is one first item of a key. -/
theorem IsFirst.unique
    (hItem : IsFirst key items item)
    (hOther : IsFirst key items other)
    (hKey : key item = key other) :
    item = other := by
  unfold IsFirst at hItem hOther
  rw [hKey, hOther] at hItem
  exact (Option.some.inj hItem).symm

/- If a key was seen before, so was its first item. -/
theorem exists_first
    (hMem : other ∈ before)
    (hKey : key other = key item) :
    ∃ first ∈ before,
      IsFirst key (before ++ after) first ∧
        key first = key item := by
  cases hFind :
      before.find? (fun other => key other = key item) with
  | none =>
      have hNone := List.find?_eq_none.mp hFind other hMem
      exact absurd hKey (by simpa using hNone)
  | some first =>
      have hFirst : key first = key item := by
        simpa using List.find?_some hFind
      refine ⟨first, List.mem_of_find?_eq_some hFind, ?_,
        hFirst⟩
      unfold IsFirst
      rw [hFirst, List.find?_append, hFind]
      rfl

theorem isFirst_of_new
    (hNew : ∀ other ∈ before, key other ≠ key item) :
    IsFirst key (before ++ item :: after) item := by
  have hNone :
      before.find? (fun other => key other = key item) =
        none := by
    apply List.find?_eq_none.mpr
    intro other hMem
    simpa using hNew other hMem
  unfold IsFirst
  rw [List.find?_append, hNone, Option.none_or,
    List.find?_cons]
  simp only [decide_true]

/- An item whose key was taken adds nothing to a scan. -/
theorem Collects.keep
    {hits : ε → Bool}
    (hTaken : key item ∈ collected.keys)
    (hCollects :
      Collects key items
        (fun other =>
          hit other ∨ hits other = true ∧ other ∈ before)
        collected) :
    Collects key items
      (fun other =>
        hit other ∨
          hits other = true ∧ other ∈ before ++ [item])
      collected := by
  refine ⟨?_, hCollects.keys, hCollects.distinct⟩
  intro other
  rw [hCollects.taken]
  constructor
  · intro hOld
    refine ⟨hOld.1, hOld.2.imp_right fun hBefore => ?_⟩
    exact ⟨hBefore.1, List.mem_append_left _ hBefore.2⟩
  · intro hNew
    obtain ⟨hFirst, hCases⟩ := hNew
    cases hCases with
    | inl hOld => exact ⟨hFirst, .inl hOld⟩
    | inr hScan =>
        cases List.mem_append.mp hScan.2 with
        | inl hBefore =>
            exact ⟨hFirst, .inr ⟨hScan.1, hBefore⟩⟩
        | inr hLast =>
            -- The item of this key that was taken is the
            -- first one, so it is this item.
            have hSame := List.mem_singleton.mp hLast
            obtain ⟨first, hMem, hKey⟩ := List.mem_map.mp
              ((hCollects.keys _).mp hTaken)
            obtain ⟨hIsFirst, hWas⟩ :=
              (hCollects.taken first).mp hMem
            rw [← hSame] at hKey
            have hEq := hIsFirst.unique hFirst hKey
            rw [hEq] at hWas
            exact ⟨hFirst, hWas⟩

/- An item is the first of a key that was not taken. -/
theorem Collects.isFirst
    {hits : ε → Bool}
    (hKeyed : ∀ item other, key item = key other →
      hits item = hits other)
    (hItems : items = before ++ item :: after)
    (hHit : hits item = true)
    (hFree : key item ∉ collected.keys)
    (hCollects :
      Collects key items
        (fun other =>
          hit other ∨ hits other = true ∧ other ∈ before)
        collected) :
    IsFirst key items item := by
  have hNew : ∀ other ∈ before, key other ≠ key item := by
    intro other hMem hKey
    obtain ⟨first, hBefore, hFirst, hSame⟩ :=
      @exists_first _ _ _ key before (item :: after) item
        other hMem hKey
    rw [← hItems] at hFirst
    have hFirstHit : hits first = true := by
      rw [hKeyed first item hSame]
      exact hHit
    apply hFree
    rw [hCollects.keys, ← hSame]
    apply List.mem_map_of_mem
    exact (hCollects.taken first).mpr
      ⟨hFirst, .inr ⟨hFirstHit, hBefore⟩⟩
  rw [hItems]
  exact isFirst_of_new hNew

/- The first item of a key that is hit is taken. -/
theorem Collects.take
    {hits : ε → Bool}
    (hIsFirst : IsFirst key items item)
    (hHit : hits item = true)
    (hFree : key item ∉ collected.keys)
    (hCollects :
      Collects key items
        (fun other =>
          hit other ∨ hits other = true ∧ other ∈ before)
        collected) :
    Collects key items
      (fun other =>
        hit other ∨
          hits other = true ∧ other ∈ before ++ [item])
      { keys := key item :: collected.keys
        items := collected.items ++ [item] } := by
  have hKeys : key item ∉ collected.items.map key := by
    rw [← hCollects.keys]
    exact hFree
  refine ⟨?_, ?_, ?_⟩
  · intro other
    rw [List.mem_append, List.mem_singleton,
      hCollects.taken]
    constructor
    · intro hEither
      cases hEither with
      | inl hOld =>
          refine ⟨hOld.1,
            hOld.2.imp_right fun hBefore => ?_⟩
          exact ⟨hBefore.1,
            List.mem_append_left _ hBefore.2⟩
      | inr hEq =>
          rw [hEq]
          refine ⟨hIsFirst, .inr ⟨hHit, ?_⟩⟩
          exact List.mem_append_right _
            List.mem_cons_self
    · intro hBoth
      obtain ⟨hFirst, hCases⟩ := hBoth
      cases hCases with
      | inl hOld => exact .inl ⟨hFirst, .inl hOld⟩
      | inr hScan =>
          cases List.mem_append.mp hScan.2 with
          | inl hBefore =>
              exact .inl ⟨hFirst, .inr ⟨hScan.1, hBefore⟩⟩
          | inr hLast =>
              exact .inr (List.mem_singleton.mp hLast)
  · intro k
    rw [List.mem_cons, List.map_append, List.mem_append,
      hCollects.keys, List.map_singleton,
      List.mem_singleton]
    exact Or.comm
  · rw [List.map_append, List.map_singleton]
    refine List.Nodup.append hCollects.distinct
      (List.nodup_singleton _) ?_
    intro k hMem hLast
    rw [List.mem_singleton.mp hLast] at hMem
    exact hKeys hMem

/- One more item of a scan, the items before it scanned. -/
theorem Collects.collect
    {hits : ε → Bool}
    (hKeyed : ∀ item other, key item = key other →
      hits item = hits other)
    (hItems : items = before ++ item :: after)
    (hHit : hits item = true)
    (hCollects :
      Collects key items
        (fun other =>
          hit other ∨ hits other = true ∧ other ∈ before)
        collected) :
    Collects key items
      (fun other =>
        hit other ∨
          hits other = true ∧ other ∈ before ++ [item])
      (collect key collected item) := by
  unfold Tables.collect
  by_cases hTaken : key item ∈ collected.keys
  · rw [if_pos hTaken]
    exact hCollects.keep hTaken
  · rw [if_neg hTaken]
    exact hCollects.take
      (hCollects.isFirst hKeyed hItems hHit hTaken) hHit
      hTaken

/- The rest of a scan, the items before it scanned. -/
theorem Collects.rest
    {hits : ε → Bool}
    (hKeyed : ∀ item other, key item = key other →
      hits item = hits other)
    (hItems : items = before ++ after)
    (hCollects :
      Collects key items
        (fun other =>
          hit other ∨ hits other = true ∧ other ∈ before)
        collected) :
    Collects key items
      (fun other =>
        hit other ∨ hits other = true ∧ other ∈ items)
      (Tables.scan key hits collected after) := by
  induction after generalizing before collected with
  | nil =>
      rw [List.append_nil] at hItems
      rw [hItems] at hCollects ⊢
      exact hCollects
  | cons item after ih =>
      have hNext : items = before ++ [item] ++ after := by
        rw [hItems, List.append_assoc]
        rfl
      show Collects key items _
        (Tables.scan key hits
          (if hits item then Tables.collect key collected item
            else collected) after)
      apply ih hNext
      by_cases hHit : hits item = true
      · rw [if_pos hHit]
        exact hCollects.collect hKeyed hItems hHit
      · rw [if_neg hHit]
        apply hCollects.congr
        intro other
        rw [List.mem_append, List.mem_singleton]
        constructor
        · intro hOld
          exact hOld.imp_right fun hBefore =>
            ⟨hBefore.1, .inl hBefore.2⟩
        · intro hNew
          refine hNew.imp_right fun hScan =>
            ⟨hScan.1, ?_⟩
          cases hScan.2 with
          | inl hBefore => exact hBefore
          | inr hEq =>
              rw [hEq] at hScan
              exact absurd hScan.1 hHit

/- A scan takes the first items that it hits. -/
theorem Collects.scan
    {hits : ε → Bool}
    (hKeyed : ∀ item other, key item = key other →
      hits item = hits other)
    (hCollects : Collects key items hit collected) :
    Collects key items
      (fun item => hit item ∨ hits item = true)
      (scan key hits collected items) := by
  have hStart :
      Collects key items
        (fun item =>
          hit item ∨ hits item = true ∧ item ∈ ([] : List ε))
        collected :=
    hCollects.congr fun _ => by simp
  have hAll := hStart.rest hKeyed (List.nil_append items).symm
  -- An item that is not listed is not the first of a key.
  refine ⟨?_, hAll.keys, hAll.distinct⟩
  intro item
  rw [hAll.taken]
  constructor
  · intro hTaken
    exact ⟨hTaken.1, hTaken.2.imp_right fun hHit => hHit.1⟩
  · intro hFirst
    refine ⟨hFirst.1, hFirst.2.imp_right fun hHit => ?_⟩
    exact ⟨hHit, List.mem_of_find?_eq_some hFirst.1⟩

end Scans

end Tables
