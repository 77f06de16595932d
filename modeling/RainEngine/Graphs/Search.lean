import Mathlib.Data.List.Basic

/-
  This file is about breadth-first search with a bound on the
  depth. A frontier holds the nodes that were seen and not yet
  visited, each with its depth. The depths in it are in order
  and differ by at most one, so a node is seen at its distance
  from the start, and the nodes visited below the bound are
  those at a distance below it.

  Key definitions include:
    * `Frontier`
    * `expandHead`
    * `Walk`
    * `Searched`
    * `Frontier.potential`

  Key theorems include:
    * `Searched.step`
    * `Searched.visited_iff`
    * `expandHead_potential`
-/

namespace Graphs

variable {α : Type}

------------------------------------------------------------
-- Frontiers
------------------------------------------------------------

structure Frontier (α : Type) where
  queue : List (α × Nat)
  seen : List α

def Frontier.start (node : α) : Frontier α where
  queue := [(node, 0)]
  seen := [node]

/- Queue a node that has not been seen. -/
def offer
    [DecidableEq α]
    (depth : Nat)
    (frontier : Frontier α)
    (node : α) :
    Frontier α :=
  if node ∈ frontier.seen then frontier
  else
    { queue := frontier.queue ++ [(node, depth)]
      seen := node :: frontier.seen }

/- Offer what the removed head leads to, below the bound. -/
def expandHead
    [DecidableEq α]
    (expand : α → List α)
    (bound : Nat)
    (head : α × Nat)
    (rest : Frontier α) :
    Frontier α :=
  if bound ≤ head.2 then rest
  else (expand head.1).foldl (offer (head.2 + 1)) rest

/- The node is reached from the start in that many steps. -/
inductive Walk
    (leads : α → α → Prop)
    (start : α) :
    Nat → α → Prop where
  | here : Walk leads start 0 start
  | step {n : Nat} {node next : α}
      (hWalk : Walk leads start n node)
      (hNext : leads node next) :
      Walk leads start (n + 1) next

/- Steps that stay in place only make a walk longer. -/
theorem Walk.shorten
    {leads links : α → α → Prop}
    {start node : α}
    {n : Nat}
    (hLinks : ∀ node next, leads node next →
      next = node ∨ links node next)
    (hWalk : Walk leads start n node) :
    ∃ m, m ≤ n ∧ Walk links start m node := by
  induction hWalk with
  | here => exact ⟨0, Nat.le_refl _, .here⟩
  | @step n node next _ hNext ih =>
      obtain ⟨m, hLe, hShort⟩ := ih
      cases hLinks node next hNext with
      | inl hStays =>
          rw [hStays]
          exact ⟨m, Nat.le_succ_of_le hLe, hShort⟩
      | inr hLink =>
          exact ⟨m + 1, Nat.succ_le_succ hLe,
            .step hShort hLink⟩

theorem Walk.mono
    {leads links : α → α → Prop}
    {start node : α}
    {n : Nat}
    (hLinks : ∀ node next, links node next →
      leads node next)
    (hWalk : Walk links start n node) :
    Walk leads start n node := by
  induction hWalk with
  | here => exact .here
  | step _ hNext ih => exact .step ih (hLinks _ _ hNext)

------------------------------------------------------------
-- Offers
------------------------------------------------------------

section Offers

variable [DecidableEq α]
variable {frontier : Frontier α}
variable {depth : Nat}
variable {node : α}

/- What a list of offers adds to a frontier. -/
structure Adds
    (depth : Nat)
    (nodes : List α)
    (frontier after : Frontier α)
    (added : List α) :
    Prop where
  queue :
    after.queue =
      frontier.queue ++ added.map fun node => (node, depth)
  offered : ∀ node ∈ added, node ∈ nodes
  seen : ∀ node,
    node ∈ after.seen ↔
      node ∈ frontier.seen ∨ node ∈ added
  covers : ∀ node ∈ nodes, node ∈ after.seen

theorem exists_adds
    (nodes : List α)
    (frontier : Frontier α) :
    ∃ added, Adds depth nodes frontier
      (nodes.foldl (offer depth) frontier) added := by
  induction nodes generalizing frontier with
  | nil =>
      refine ⟨[], ?_, ?_, ?_, ?_⟩
      · exact (List.append_nil _).symm
      · exact fun _ hMem => hMem
      · simp
      · exact fun _ hMem => absurd hMem List.not_mem_nil
  | cons node nodes ih =>
      rw [List.foldl_cons]
      by_cases hSeen : node ∈ frontier.seen
      · have hSame : offer depth frontier node = frontier :=
          if_pos hSeen
        rw [hSame]
        obtain ⟨added, hAdds⟩ := ih frontier
        refine ⟨added, hAdds.queue, ?_, hAdds.seen, ?_⟩
        · intro other hMem
          exact List.mem_cons_of_mem _
            (hAdds.offered other hMem)
        · intro other hMem
          cases List.mem_cons.mp hMem with
          | inl hEq =>
              rw [hEq]
              exact (hAdds.seen node).mpr (.inl hSeen)
          | inr hRest => exact hAdds.covers other hRest
      · have hNew : offer depth frontier node =
            { queue := frontier.queue ++ [(node, depth)]
              seen := node :: frontier.seen } :=
          if_neg hSeen
        rw [hNew]
        obtain ⟨added, hAdds⟩ := ih
          { queue := frontier.queue ++ [(node, depth)]
            seen := node :: frontier.seen }
        have hAfter := hAdds.seen
        refine ⟨node :: added, ?_, ?_, ?_, ?_⟩
        · rw [hAdds.queue, List.append_assoc]
          rfl
        · intro other hMem
          cases List.mem_cons.mp hMem with
          | inl hEq =>
              rw [hEq]
              exact List.mem_cons_self
          | inr hRest =>
              exact List.mem_cons_of_mem _
                (hAdds.offered other hRest)
        · intro other
          rw [hAfter, List.mem_cons, List.mem_cons]
          tauto
        · intro other hMem
          cases List.mem_cons.mp hMem with
          | inl hEq =>
              rw [hAfter, hEq]
              exact .inl List.mem_cons_self
          | inr hRest => exact hAdds.covers other hRest

end Offers

------------------------------------------------------------
-- The Search
------------------------------------------------------------

/-
  The nodes that were visited, and the frontier, with depths.
  What was visited below the bound leads to nodes that are at
  most one deeper.
-/
structure Searched
    (expand : α → List α)
    (start : α)
    (bound : Nat)
    (visited : List (α × Nat))
    (frontier : Frontier α) :
    Prop where
  started : (start, 0) ∈ visited ++ frontier.queue
  walks : ∀ p ∈ visited ++ frontier.queue,
    Walk (fun node next => next ∈ expand node) start
      p.2 p.1
  seen : ∀ node ∈ frontier.seen, ∃ depth,
    (node, depth) ∈ visited ++ frontier.queue
  before : ∀ p ∈ visited, ∀ q ∈ frontier.queue, p.2 ≤ q.2
  sorted : frontier.queue.Pairwise fun p q => p.2 ≤ q.2
  near : ∀ p ∈ frontier.queue, ∀ q ∈ frontier.queue,
    q.2 ≤ p.2 + 1
  closed : ∀ p ∈ visited, p.2 < bound →
    ∀ node ∈ expand p.1, ∃ depth, depth ≤ p.2 + 1 ∧
      (node, depth) ∈ visited ++ frontier.queue

section Search

variable {expand : α → List α}
variable {start : α}
variable {bound : Nat}
variable {visited : List (α × Nat)}
variable {head : α × Nat}
variable {queue : List (α × Nat)}
variable {seen : List α}

theorem searched_start :
    Searched expand start bound [] (.start start) where
  started := List.mem_cons_self
  walks := by
    intro p hMem
    cases List.mem_singleton.mp hMem
    exact .here
  seen := by
    intro node hMem
    cases List.mem_singleton.mp hMem
    exact ⟨0, List.mem_cons_self⟩
  before := fun _ hMem => absurd hMem List.not_mem_nil
  sorted := List.pairwise_singleton _ _
  near := by
    intro p hP q hQ
    cases List.mem_singleton.mp hP
    cases List.mem_singleton.mp hQ
    exact Nat.le_succ _
  closed := fun _ hMem => absurd hMem List.not_mem_nil

theorem mem_move_head
    {p : α × Nat} :
    p ∈ visited ++ [head] ++ queue ↔
      p ∈ visited ++ head :: queue := by
  rw [List.append_assoc]
  rfl

/- No depth is more than one above that of the head. -/
theorem Searched.depth_le
    (hSearched :
      Searched expand start bound visited
        ⟨head :: queue, seen⟩)
    {p : α × Nat}
    (hMem : p ∈ visited ++ head :: queue) :
    p.2 ≤ head.2 + 1 := by
  cases List.mem_append.mp hMem with
  | inl hVisited =>
      exact Nat.le_succ_of_le
        (hSearched.before p hVisited head
          List.mem_cons_self)
  | inr hQueue =>
      exact hSearched.near head List.mem_cons_self p hQueue

theorem Searched.head_le
    (hSearched :
      Searched expand start bound visited
        ⟨head :: queue, seen⟩) :
    ∀ p ∈ visited ++ [head], p.2 ≤ head.2 := by
  intro p hMem
  cases List.mem_append.mp hMem with
  | inl hVisited =>
      exact hSearched.before p hVisited head
        List.mem_cons_self
  | inr hHead =>
      have hSame := List.mem_singleton.mp hHead
      exact Nat.le_of_eq (congrArg Prod.snd hSame)

/- At the bound the head is only moved. -/
theorem Searched.move
    (hBound : bound ≤ head.2)
    (hSearched :
      Searched expand start bound visited
        ⟨head :: queue, seen⟩) :
    Searched expand start bound (visited ++ [head])
      ⟨queue, seen⟩ := by
  have hSorted := List.pairwise_cons.mp hSearched.sorted
  refine
    { started := mem_move_head.mpr hSearched.started
      walks := fun p hMem =>
        hSearched.walks p (mem_move_head.mp hMem)
      seen := ?_
      before := ?_
      sorted := hSorted.2
      near := ?_
      closed := ?_ }
  · intro node hSeen
    obtain ⟨depth, hMem⟩ := hSearched.seen node hSeen
    exact ⟨depth, mem_move_head.mpr hMem⟩
  · intro p hP q hQ
    exact Nat.le_trans (hSearched.head_le p hP)
      (hSorted.1 q hQ)
  · intro p hP q hQ
    exact hSearched.near p (List.mem_cons_of_mem _ hP) q
      (List.mem_cons_of_mem _ hQ)
  · intro p hP hLt node hNode
    cases List.mem_append.mp hP with
    | inl hVisited =>
        obtain ⟨depth, hLe, hMem⟩ :=
          hSearched.closed p hVisited hLt node hNode
        exact ⟨depth, hLe, mem_move_head.mpr hMem⟩
    | inr hHead =>
        rw [List.mem_singleton.mp hHead] at hLt
        omega

/- Below the bound what the head expands to is queued. -/
theorem Searched.expands
    {after : Frontier α}
    {added : List α}
    (hAdds :
      Adds (head.2 + 1) (expand head.1) ⟨queue, seen⟩ after
        added)
    (hSearched :
      Searched expand start bound visited
        ⟨head :: queue, seen⟩) :
    Searched expand start bound (visited ++ [head])
      after := by
  have hSorted := List.pairwise_cons.mp hSearched.sorted
  have hOld : ∀ p ∈ visited ++ head :: queue,
      p ∈ visited ++ [head] ++ after.queue := by
    intro p hMem
    rw [hAdds.queue, ← List.append_assoc]
    exact List.mem_append_left _ (mem_move_head.mpr hMem)
  have hAdded : ∀ node ∈ added,
      (node, head.2 + 1) ∈
        visited ++ [head] ++ after.queue := by
    intro node hMem
    rw [hAdds.queue]
    exact List.mem_append_right _ (List.mem_append_right _
      (List.mem_map.mpr ⟨node, hMem, rfl⟩))
  have hCases : ∀ p ∈ after.queue,
      p ∈ queue ∨
        ∃ node ∈ added, p = (node, head.2 + 1) := by
    intro p hMem
    rw [hAdds.queue] at hMem
    cases List.mem_append.mp hMem with
    | inl hQueue => exact .inl hQueue
    | inr hNew =>
        obtain ⟨node, hNode, hEq⟩ := List.mem_map.mp hNew
        exact .inr ⟨node, hNode, hEq.symm⟩
  have hAbove : ∀ p ∈ after.queue, head.2 ≤ p.2 := by
    intro p hMem
    cases hCases p hMem with
    | inl hQueue => exact hSorted.1 p hQueue
    | inr hNew =>
        obtain ⟨node, _, hEq⟩ := hNew
        rw [hEq]
        exact Nat.le_succ _
  have hBelow : ∀ p ∈ after.queue, p.2 ≤ head.2 + 1 := by
    intro p hMem
    cases hCases p hMem with
    | inl hQueue =>
        exact hSearched.near head List.mem_cons_self p
          (List.mem_cons_of_mem _ hQueue)
    | inr hNew =>
        obtain ⟨node, _, hEq⟩ := hNew
        exact Nat.le_of_eq (congrArg Prod.snd hEq)
  refine
    { started := hOld _ hSearched.started
      walks := ?_
      seen := ?_
      before := ?_
      sorted := ?_
      near := ?_
      closed := ?_ }
  · intro p hMem
    cases List.mem_append.mp hMem with
    | inl hVisited =>
        apply hSearched.walks
        apply mem_move_head.mp
        exact List.mem_append_left _ hVisited
    | inr hAfter =>
        cases hCases p hAfter with
        | inl hQueue =>
            apply hSearched.walks
            apply mem_move_head.mp
            exact List.mem_append_right _ hQueue
        | inr hNew =>
            obtain ⟨node, hNode, hEq⟩ := hNew
            rw [hEq]
            refine .step (hSearched.walks head ?_)
              (hAdds.offered node hNode)
            exact List.mem_append_right _ List.mem_cons_self
  · intro node hSeen
    cases (hAdds.seen node).mp hSeen with
    | inl hBefore =>
        obtain ⟨depth, hMem⟩ := hSearched.seen node hBefore
        exact ⟨depth, hOld _ hMem⟩
    | inr hNew => exact ⟨head.2 + 1, hAdded node hNew⟩
  · intro p hP q hQ
    exact Nat.le_trans (hSearched.head_le p hP)
      (hAbove q hQ)
  · rw [hAdds.queue, List.pairwise_append]
    refine ⟨hSorted.2, ?_, ?_⟩
    · rw [List.pairwise_map]
      exact List.pairwise_of_forall fun _ _ =>
        Nat.le_refl _
    · intro p hP q hQ
      obtain ⟨node, _, hEq⟩ := List.mem_map.mp hQ
      rw [← hEq]
      exact hSearched.near head List.mem_cons_self p
        (List.mem_cons_of_mem _ hP)
  · intro p hP q hQ
    have hUp := hBelow q hQ
    have hDown := hAbove p hP
    omega
  · intro p hP hLt node hNode
    cases List.mem_append.mp hP with
    | inl hVisited =>
        obtain ⟨depth, hLe, hMem⟩ :=
          hSearched.closed p hVisited hLt node hNode
        exact ⟨depth, hLe, hOld _ hMem⟩
    | inr hHead =>
        rw [List.mem_singleton.mp hHead] at hNode ⊢
        cases (hAdds.seen node).mp
          (hAdds.covers node hNode) with
        | inl hSeen =>
            obtain ⟨depth, hMem⟩ :=
              hSearched.seen node hSeen
            exact ⟨depth, hSearched.depth_le hMem,
              hOld _ hMem⟩
        | inr hNew =>
            exact ⟨head.2 + 1, Nat.le_refl _,
              hAdded node hNew⟩

/- Visiting the head of the frontier keeps what holds. -/
theorem Searched.step
    [DecidableEq α]
    (hSearched :
      Searched expand start bound visited
        ⟨head :: queue, seen⟩) :
    Searched expand start bound (visited ++ [head])
      (expandHead expand bound head ⟨queue, seen⟩) := by
  unfold expandHead
  by_cases hBound : bound ≤ head.2
  · rw [if_pos hBound]
    exact hSearched.move hBound
  · rw [if_neg hBound]
    obtain ⟨added, hAdds⟩ := @exists_adds α _ (head.2 + 1)
      (expand head.1) ⟨queue, seen⟩
    exact hSearched.expands hAdds

/- A node at a distance within the bound has been visited. -/
theorem Searched.visited_of_walk
    (hSearched :
      Searched expand start bound visited ⟨[], seen⟩)
    {n : Nat}
    {node : α}
    (hWalk :
      Walk (fun node next => next ∈ expand node) start n
        node)
    (hBound : n ≤ bound) :
    ∃ depth, depth ≤ n ∧ (node, depth) ∈ visited := by
  induction hWalk with
  | here =>
      refine ⟨0, Nat.le_refl _, ?_⟩
      have hStart := hSearched.started
      rwa [List.append_nil] at hStart
  | @step n node next hWalk hNext ih =>
      obtain ⟨depth, hLe, hMem⟩ := ih (by omega)
      obtain ⟨after, hAfter, hFound⟩ :=
        hSearched.closed _ hMem
          (Nat.lt_of_le_of_lt hLe hBound) next hNext
      rw [List.append_nil] at hFound
      exact ⟨after, by omega, hFound⟩

/-
  When the frontier is empty, the nodes visited below the
  bound are those that are reached below it.
-/
theorem Searched.visited_iff
    (hSearched :
      Searched expand start bound visited ⟨[], seen⟩)
    (node : α) :
    (∃ p ∈ visited, p.2 < bound ∧ p.1 = node) ↔
      ∃ n, n < bound ∧
        Walk (fun node next => next ∈ expand node) start n
          node := by
  constructor
  · intro hVisited
    obtain ⟨p, hMem, hLt, hNode⟩ := hVisited
    refine ⟨p.2, hLt, ?_⟩
    rw [← hNode]
    exact hSearched.walks p (List.mem_append_left _ hMem)
  · intro hReached
    obtain ⟨n, hLt, hWalk⟩ := hReached
    obtain ⟨depth, hLe, hMem⟩ :=
      hSearched.visited_of_walk hWalk (Nat.le_of_lt hLt)
    exact ⟨(node, depth), hMem,
      Nat.lt_of_le_of_lt hLe hLt, rfl⟩

end Search

------------------------------------------------------------
-- Termination
------------------------------------------------------------

/- How often a head can still be taken, among the nodes. -/
def Frontier.potential
    [DecidableEq α]
    (nodes : List α)
    (frontier : Frontier α) :
    Nat :=
  frontier.queue.length +
    (nodes.filter fun node =>
      node ∉ frontier.seen).length

section Termination

variable [DecidableEq α]
variable {nodes : List α}
variable {frontier : Frontier α}
variable {depth : Nat}

/- A node that is queued is no longer one that is unseen. -/
theorem offer_potential
    {node : α}
    (hNode : node ∈ nodes) :
    (offer depth frontier node).potential nodes ≤
      frontier.potential nodes := by
  unfold offer
  by_cases hSeen : node ∈ frontier.seen
  · simp only [if_pos hSeen, Nat.le_refl]
  · rw [if_neg hSeen]
    unfold Frontier.potential
    have hUnseen :
        (nodes.filter fun other =>
            other ∉ node :: frontier.seen) =
          (nodes.filter fun other =>
            other ∉ frontier.seen).filter fun other =>
              other ≠ node := by
      rw [List.filter_filter]
      apply List.filter_congr
      intro other _
      simp [not_or]
    have hShorter :
        ((nodes.filter fun other =>
          other ∉ frontier.seen).filter fun other =>
            other ≠ node).length <
          (nodes.filter fun other =>
            other ∉ frontier.seen).length := by
      apply List.length_filter_lt_length_iff_exists.mpr
      refine ⟨node, ?_, by simp⟩
      exact List.mem_filter.mpr ⟨hNode, by simpa using hSeen⟩
    rw [hUnseen, List.length_append, List.length_singleton]
    omega

theorem offers_potential
    {offered : List α}
    (hOffered : ∀ node ∈ offered, node ∈ nodes) :
    (offered.foldl (offer depth) frontier).potential nodes ≤
      frontier.potential nodes := by
  induction offered generalizing frontier with
  | nil => exact Nat.le_refl _
  | cons node offered ih =>
      rw [List.forall_mem_cons] at hOffered
      exact Nat.le_trans (ih hOffered.2)
        (offer_potential hOffered.1)

/- Taking the head of a frontier lowers the potential. -/
theorem expandHead_potential
    {expand : α → List α}
    {bound : Nat}
    {head : α × Nat}
    {queue : List (α × Nat)}
    {seen : List α}
    (hNodes : ∀ node ∈ expand head.1, node ∈ nodes) :
    (expandHead expand bound head
        ⟨queue, seen⟩).potential nodes <
      Frontier.potential nodes ⟨head :: queue, seen⟩ := by
  have hRest :
      Frontier.potential nodes ⟨queue, seen⟩ <
        Frontier.potential nodes ⟨head :: queue, seen⟩ := by
    show queue.length + _ < queue.length + 1 + _
    exact Nat.add_lt_add_right (Nat.lt_succ_self _) _
  unfold expandHead
  by_cases hBound : bound ≤ head.2
  · rw [if_pos hBound]
    exact hRest
  · rw [if_neg hBound]
    exact Nat.lt_of_le_of_lt (offers_potential hNodes) hRest

end Termination

end Graphs
