import Mathlib.Data.List.Forall2
import Mathlib.Data.List.Nodup
import Mathlib.Logic.Relation

/-
  This file is about renaming the nodes of a graph in one pass
  over a list of them. Each entry is a node and the nodes it
  uses, and a use is renamed through the names given so far,
  the node's own included. A use without a name is dropped.

  Key definitions include:
    * `Acyclic`
    * `rename`
    * `nameIn`

  Key theorems include:
    * `names_rename`
    * `acyclic_rename_iff`
    * `rename_exact_iff`
-/

namespace Graphs

variable {α β γ : Type}

------------------------------------------------------------
-- Graphs As Lists
------------------------------------------------------------

/- The node is listed with the other among its uses. -/
def Uses
    (entries : List (γ × List γ))
    (node other : γ) :
    Prop :=
  ∃ uses, (node, uses) ∈ entries ∧ other ∈ uses

/- No node uses itself, over any number of steps. -/
def Acyclic (entries : List (γ × List γ)) : Prop :=
  ∀ node, ¬Relation.TransGen (Uses entries) node node

/- Uses that only go down do not come back. -/
theorem acyclic_of_rank
    {entries : List (γ × List γ)}
    (hRank : ∃ rank : γ → Nat, ∀ node other,
      Uses entries node other → rank other < rank node) :
    Acyclic entries := by
  obtain ⟨rank, hDown⟩ := hRank
  have hPath : ∀ node other,
      Relation.TransGen (Uses entries) node other →
        rank other < rank node := by
    intro node other hPath
    induction hPath with
    | single hUse => exact hDown _ _ hUse
    | tail _ hUse ih =>
        exact Nat.lt_trans (hDown _ _ hUse) ih
  intro node hCycle
  exact Nat.lt_irrefl _ (hPath node node hCycle)

------------------------------------------------------------
-- Renaming
------------------------------------------------------------

/- The names that are known once a node has been named. -/
def learn
    [DecidableEq α]
    (known : α → Option β)
    (id : α)
    (name : β) :
    α → Option β :=
  fun other => if other = id then some name else known other

/- The entries under new names, numbered as they are listed. -/
def rename
    [DecidableEq α]
    (name : Nat → β)
    (known : α → Option β)
    (number : Nat) :
    List (α × List α) → List (β × List β)
| [] => []
| (id, uses) :: rest =>
    let known := learn known id (name number)
    (name number, uses.filterMap known) ::
      rename name known (number + 1) rest

/- The name of a node, by the position it is listed at. -/
def nameIn
    [DecidableEq α] :
    List (α × List α) → List (β × List β) → α → Option β
| (id, _) :: rest, (name, _) :: more, other =>
    if other = id then some name else nameIn rest more other
| _, _, _ => none

/- The uses of an entry under the given names. -/
def RenamedBy
    (full : α → Option β)
    (entry : α × List α)
    (renamed : β × List β) :
    Prop :=
  renamed.2 = entry.2.filterMap full

section Maps

variable {f g : α → Option β}

theorem length_filterMap_le
    (items : List α)
    (hExtends : ∀ item value,
      f item = some value → g item = some value) :
    (items.filterMap f).length ≤
      (items.filterMap g).length := by
  induction items with
  | nil => exact Nat.le_refl _
  | cons item rest ih =>
      cases hItem : f item with
      | some value =>
          rw [List.filterMap_cons_some hItem,
            List.filterMap_cons_some
              (hExtends _ _ hItem)]
          exact Nat.succ_le_succ ih
      | none =>
          rw [List.filterMap_cons_none hItem]
          refine Nat.le_trans ih ?_
          cases hOther : g item with
          | some value =>
              rw [List.filterMap_cons_some hOther]
              exact Nat.le_succ _
          | none =>
              simp only [List.filterMap_cons_none hOther,
                Nat.le_refl]

/- A map and an extension of it read a list differently. -/
theorem filterMap_eq_iff
    (items : List α)
    (hExtends : ∀ item value,
      f item = some value → g item = some value) :
    items.filterMap f = items.filterMap g ↔
      ∀ item ∈ items, f item = g item := by
  constructor
  · intro hSame
    induction items with
    | nil => exact fun _ hMem => absurd hMem List.not_mem_nil
    | cons first rest ih =>
        cases hFirst : f first with
        | some value =>
            have hOther := hExtends _ _ hFirst
            rw [List.filterMap_cons_some hFirst,
              List.filterMap_cons_some hOther] at hSame
            intro item hMem
            cases List.mem_cons.mp hMem with
            | inl hEq => rw [hEq, hFirst, hOther]
            | inr hRest =>
                exact ih (List.cons.inj hSame).2 item hRest
        | none =>
            rw [List.filterMap_cons_none hFirst] at hSame
            cases hOther : g first with
            | some value =>
                rw [List.filterMap_cons_some hOther] at hSame
                have hLength := congrArg List.length hSame
                have hLe := length_filterMap_le rest hExtends
                rw [List.length_cons] at hLength
                omega
            | none =>
                rw [List.filterMap_cons_none hOther] at hSame
                intro item hMem
                cases List.mem_cons.mp hMem with
                | inl hEq => rw [hEq, hFirst, hOther]
                | inr hRest => exact ih hSame item hRest
  · intro hAgree
    exact List.filterMap_congr hAgree

end Maps

------------------------------------------------------------
-- The Names
------------------------------------------------------------

section Names

variable [DecidableEq α]
variable {name : Nat → β}
variable {known : α → Option β}
variable {number : Nat}
variable {entries : List (α × List α)}

theorem names_rename :
    (rename name known number entries).map Prod.fst =
      (List.range' number entries.length).map name := by
  induction entries generalizing known number with
  | nil => rfl
  | cons entry rest ih =>
      show name number :: _ = name number :: _
      rw [ih]

/- New names are distinct if the numbering is injective. -/
theorem names_rename_nodup
    (hName : Function.Injective name) :
    ((rename name known number entries).map
      Prod.fst).Nodup := by
  rw [names_rename]
  exact List.Nodup.map hName List.nodup_range'

theorem mem_names_rename
    {target : β} :
    target ∈ (rename name known number entries).map
        Prod.fst ↔
      ∃ k, number ≤ k ∧ k < number + entries.length ∧
        target = name k := by
  rw [names_rename, List.mem_map]
  simp only [List.mem_range'_1]
  constructor
  · intro hNamed
    obtain ⟨k, hRange, hName⟩ := hNamed
    exact ⟨k, hRange.1, hRange.2, hName.symm⟩
  · intro hNumbered
    obtain ⟨k, hFrom, hTo, hName⟩ := hNumbered
    exact ⟨k, ⟨hFrom, hTo⟩, hName.symm⟩

/- An entry has the names of the numbers up to its own. -/
theorem rename_down
    (hKnown : ∀ id target, known id = some target →
      ∃ k, k < number ∧ target = name k)
    (hSelf : ∀ entry ∈ entries, entry.1 ∉ entry.2)
    {node : β}
    {uses : List β}
    (hMem :
      (node, uses) ∈ rename name known number entries) :
    ∃ k, node = name k ∧
      ∀ other ∈ uses, ∃ j, j < k ∧ other = name j := by
  induction entries generalizing known number with
  | nil => cases hMem
  | cons entry rest ih =>
      have hLearned : ∀ id target,
          learn known entry.1 (name number) id =
              some target →
            ∃ k, k < number + 1 ∧ target = name k := by
        intro id target hTarget
        unfold learn at hTarget
        by_cases hId : id = entry.1
        · rw [if_pos hId] at hTarget
          exact ⟨number, Nat.lt_succ_self _,
            (Option.some.inj hTarget).symm⟩
        · rw [if_neg hId] at hTarget
          obtain ⟨k, hLt, hEq⟩ := hKnown id target hTarget
          exact ⟨k, Nat.lt_succ_of_lt hLt, hEq⟩
      cases List.mem_cons.mp hMem with
      | inl hHead =>
          cases hHead
          refine ⟨number, rfl, ?_⟩
          intro other hOther
          obtain ⟨dep, hDep, hFound⟩ :=
            List.mem_filterMap.mp hOther
          unfold learn at hFound
          by_cases hId : dep = entry.1
          · subst hId
            exact absurd hDep
              (hSelf entry List.mem_cons_self)
          · rw [if_neg hId] at hFound
            exact hKnown dep other hFound
      | inr hTail =>
          exact ih hLearned
            (fun entry hEntry =>
              hSelf entry (List.mem_cons_of_mem _ hEntry))
            hTail

/- A node that uses itself does so under its new name. -/
theorem rename_self
    {entry : α × List α}
    (hMem : entry ∈ entries)
    (hSelf : entry.1 ∈ entry.2) :
    ∃ node, Uses (rename name known number entries)
      node node := by
  induction entries generalizing known number with
  | nil => cases hMem
  | cons first rest ih =>
      cases List.mem_cons.mp hMem with
      | inl hFirst =>
          subst hFirst
          refine ⟨name number, _, List.mem_cons_self, ?_⟩
          refine List.mem_filterMap.mpr ⟨entry.1, hSelf, ?_⟩
          exact if_pos rfl
      | inr hRest =>
          obtain ⟨node, uses, hNode, hUse⟩ := ih hRest
          exact ⟨node, uses,
            List.mem_cons_of_mem _ hNode, hUse⟩

/- Only a node that uses itself makes a cycle. -/
theorem acyclic_rename_iff
    (hName : Function.Injective name) :
    Acyclic
        (rename name (fun _ => none) number entries) ↔
      ∀ entry ∈ entries, entry.1 ∉ entry.2 := by
  constructor
  · intro hAcyclic entry hMem hSelf
    obtain ⟨node, hUse⟩ := rename_self hMem hSelf
    exact hAcyclic node (.single hUse)
  · intro hSelf
    apply acyclic_of_rank
    refine ⟨Function.invFun name, ?_⟩
    intro node other hUse
    obtain ⟨uses, hMem, hOther⟩ := hUse
    obtain ⟨k, hNode, hUses⟩ :=
      rename_down nofun hSelf hMem
    obtain ⟨j, hLt, hEq⟩ := hUses other hOther
    rw [hNode, hEq, Function.leftInverse_invFun hName,
      Function.leftInverse_invFun hName]
    exact hLt

end Names

------------------------------------------------------------
-- Exactness
------------------------------------------------------------

section Exactness

variable [DecidableEq α]
variable {name : Nat → β}
variable {known full : α → Option β}
variable {number : Nat}
variable {entries : List (α × List α)}

theorem nameIn_rename_eq_none
    {id : α} :
    nameIn entries (rename name known number entries) id =
        none ↔
      ∀ entry ∈ entries, entry.1 ≠ id := by
  induction entries generalizing known number with
  | nil =>
      constructor
      · exact fun _ _ hMem => absurd hMem List.not_mem_nil
      · exact fun _ => rfl
  | cons entry rest ih =>
      show (if id = entry.1 then some (name number)
        else nameIn rest _ id) = none ↔ _
      by_cases hId : id = entry.1
      · rw [if_pos hId]
        constructor
        · exact fun hNone => nomatch hNone
        · intro hNone
          exact absurd hId.symm
            (hNone entry List.mem_cons_self)
      · rw [if_neg hId, ih, List.forall_mem_cons]
        constructor
        · exact fun hRest => ⟨fun hEq => hId hEq.symm, hRest⟩
        · exact fun hBoth => hBoth.2

/-
  The uses of a head are exact if none of them is listed
  later. The names known at a node are those of the nodes up
  to it, so what is missing is what comes after.
-/
theorem rename_exact
    (hDistinct : (entries.map Prod.fst).Nodup)
    (hNew : ∀ entry ∈ entries, known entry.1 = none)
    (hFull : ∀ id, full id =
      (known id).or
        (nameIn entries
          (rename name known number entries) id)) :
    List.Forall₂ (RenamedBy full) entries
        (rename name known number entries) ↔
      entries.Pairwise fun entry later =>
        later.1 ∉ entry.2 := by
  induction entries generalizing known number with
  | nil =>
      constructor
      · exact fun _ => List.Pairwise.nil
      · exact fun _ => List.Forall₂.nil
  | cons entry rest ih =>
      obtain ⟨id, uses⟩ := entry
      rw [List.map_cons, List.nodup_cons] at hDistinct
      let learned := learn known id (name number)
      let later :=
        nameIn rest (rename name learned (number + 1) rest)
      have hUnknown : ∀ entry ∈ rest,
          learned entry.1 = none := by
        intro entry hMem
        have hApart : entry.1 ≠ id := by
          intro hEq
          exact hDistinct.1
            (List.mem_map.mpr ⟨entry, hMem, hEq⟩)
        show learn known id (name number) entry.1 = none
        unfold learn
        rw [if_neg hApart]
        exact hNew entry (List.mem_cons_of_mem _ hMem)
      have hSplit : ∀ other, full other =
          (learned other).or (later other) := by
        intro other
        rw [hFull]
        show (known other).or
            (if other = id then some (name number)
              else later other) =
          (if other = id then some (name number)
            else known other).or (later other)
        by_cases hId : other = id
        · rw [if_pos hId, if_pos hId, hId,
            hNew (id, uses) List.mem_cons_self]
          rfl
        · rw [if_neg hId, if_neg hId]
      have hHead :
          uses.filterMap learned = uses.filterMap full ↔
            ∀ entry ∈ rest, entry.1 ∉ uses := by
        rw [filterMap_eq_iff]
        · constructor
          · intro hAgree entry hMem hUse
            have hSame := hAgree entry.1 hUse
            rw [hSplit, hUnknown entry hMem] at hSame
            exact nameIn_rename_eq_none.mp hSame.symm entry
              hMem rfl
          · intro hNone other hUse
            rw [hSplit]
            have hLater : later other = none := by
              apply nameIn_rename_eq_none.mpr
              intro entry hMem hEq
              exact hNone entry hMem (hEq ▸ hUse)
            rw [hLater, Option.or_none]
        · intro other target hTarget
          rw [hSplit, hTarget]
          rfl
      rw [List.pairwise_cons, ← hHead]
      show List.Forall₂ (RenamedBy full) ((id, uses) :: rest)
        ((name number, uses.filterMap learned) ::
          rename name learned (number + 1) rest) ↔ _
      rw [List.forall₂_cons,
        ih hDistinct.2 hUnknown hSplit]
      rfl

/-
  The uses are exactly the renamed ones if no node uses one
  that is listed later.
-/
theorem rename_exact_iff
    (hDistinct : (entries.map Prod.fst).Nodup) :
    List.Forall₂
        (RenamedBy
          (nameIn entries
            (rename name (fun _ => none) number entries)))
        entries
        (rename name (fun _ => none) number entries) ↔
      entries.Pairwise fun entry later =>
        later.1 ∉ entry.2 :=
  rename_exact hDistinct (fun _ _ => rfl) (fun _ => rfl)

end Exactness

end Graphs
