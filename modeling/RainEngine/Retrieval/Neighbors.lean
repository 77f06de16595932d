import RainEngine.Graphs.Search
import RainEngine.Kernel.Host
import RainEngine.Tables.Firsts

/-
  This file models the search for the neighbors of a resource
  in the relationships of a session. The search ends, and it
  returns the first relationship of each kind that touches a
  resource at a distance below the given number of hops.

  Key definitions include:
    * `followEdge`
    * `neighborLoop`
    * `graphNeighbors`
    * `Linked`
    * `Neighborhood`

  Key theorems include:
    * `neighborLoop_returns`
    * `graphNeighbors_exact`
-/

namespace RainEngine.Retrieval

open Graphs (Frontier Walk Searched expandHead offer)
open Tables (Collected Collects IsFirst)

------------------------------------------------------------
-- The Search
------------------------------------------------------------

structure RetrievalError where
  message : String
deriving DecidableEq

/- Two resources and how they are related. -/
abbrev EdgeKey : Type :=
  String × String × String

structure NeighborSearch where
  frontier : List (String × Nat)
  seen : List String
  seenEdges : List EdgeKey
  edges : List RelationshipEdge

def edgeKey (edge : RelationshipEdge) : EdgeKey :=
  (edge.fromResourceId, edge.toResourceId, edge.relation)

def touches
    (node : String)
    (edge : RelationshipEdge) :
    Bool :=
  edge.fromResourceId = node || edge.toResourceId = node

def endpoints (edge : RelationshipEdge) : List String :=
  [edge.fromResourceId, edge.toResourceId]

/- Return an edge unless one of its key was returned. -/
def keepEdge
    (search : NeighborSearch)
    (edge : RelationshipEdge) :
    NeighborSearch :=
  if edgeKey edge ∈ search.seenEdges then search
  else
    { search with
      seenEdges := edgeKey edge :: search.seenEdges
      edges := search.edges ++ [edge] }

/- Queue a resource that has not been seen. -/
def queueNext
    (depth : Nat)
    (search : NeighborSearch)
    (next : String) :
    NeighborSearch :=
  if next ∈ search.seen then search
  else
    { search with
      seen := next :: search.seen
      frontier := search.frontier ++ [(next, depth)] }

def followEdge
    (node : String)
    (depth : Nat)
    (search : NeighborSearch)
    (edge : RelationshipEdge) :
    NeighborSearch :=
  if touches node edge then
    (endpoints edge).foldl (queueNext (depth + 1))
      (keepEdge search edge)
  else search

/- What a resource that leaves the frontier adds. -/
def visitNode
    (relationships : List RelationshipEdge)
    (maxHops : Nat)
    (head : String × Nat)
    (search : NeighborSearch) :
    NeighborSearch :=
  if maxHops ≤ head.2 then search
  else relationships.foldl (followEdge head.1 head.2) search

/- The loop of the search, with a bound on its rounds. -/
def neighborLoop
    (relationships : List RelationshipEdge)
    (maxHops : Nat) :
    Nat → NeighborSearch → Option (List RelationshipEdge)
| 0, _ => none
| fuel + 1, search =>
    match search.frontier with
    | [] => some search.edges
    | head :: rest =>
        neighborLoop relationships maxHops fuel
          (visitNode relationships maxHops head
            { search with frontier := rest })

def NeighborSearch.start
    (resourceId : String) :
    NeighborSearch where
  frontier := [(resourceId, 0)]
  seen := [resourceId]
  seenEdges := []
  edges := []

def graphNeighbors
    (fuel : Nat)
    (loaded : Except MemoryError SessionSnapshot)
    (resourceId : String)
    (maxHops : Nat) :
    Option (Except RetrievalError (List RelationshipEdge)) :=
  match loaded with
  | .error error => some (.error ⟨error.message⟩)
  | .ok snapshot =>
      (neighborLoop
        (agentState snapshot.sessionId
          snapshot.records).relationships maxHops fuel
        (.start resourceId)).map .ok

------------------------------------------------------------
-- Neighborhoods
------------------------------------------------------------

/- A relationship links the resources, either way around. -/
def Linked
    (relationships : List RelationshipEdge)
    (node next : String) :
    Prop :=
  ∃ edge ∈ relationships,
    (edge.fromResourceId = node ∧
        edge.toResourceId = next) ∨
      (edge.fromResourceId = next ∧
        edge.toResourceId = node)

/- The resource is at a distance below the bound. -/
def Within
    (relationships : List RelationshipEdge)
    (resourceId : String)
    (maxHops : Nat)
    (node : String) :
    Prop :=
  ∃ n, n < maxHops ∧
    Walk (Linked relationships) resourceId n node

/-
  The edges are the first ones of their keys that touch a
  resource at a distance below the bound, one for each key.
-/
structure Neighborhood
    (relationships : List RelationshipEdge)
    (resourceId : String)
    (maxHops : Nat)
    (edges : List RelationshipEdge) :
    Prop where
  exact : ∀ edge, edge ∈ edges ↔
    IsFirst edgeKey relationships edge ∧
      ∃ node,
        Within relationships resourceId maxHops node ∧
          touches node edge = true
  distinct : (edges.map edgeKey).Nodup

------------------------------------------------------------
-- The Two Halves Of The Search
------------------------------------------------------------

/- The resources the relationships of a resource name. -/
def related
    (relationships : List RelationshipEdge)
    (node : String) :
    List String :=
  relationships.flatMap fun edge =>
    if touches node edge then endpoints edge else []

namespace NeighborSearch

def nodes (search : NeighborSearch) : Frontier String where
  queue := search.frontier
  seen := search.seen

def found
    (search : NeighborSearch) :
    Collected RelationshipEdge EdgeKey where
  keys := search.seenEdges
  items := search.edges

end NeighborSearch

section Halves

variable {relationships : List RelationshipEdge}
variable {search : NeighborSearch}
variable {node : String}
variable {depth maxHops : Nat}
variable {edge : RelationshipEdge}

theorem keepEdge_nodes :
    (keepEdge search edge).nodes = search.nodes := by
  unfold keepEdge
  split <;> rfl

theorem keepEdge_found :
    (keepEdge search edge).found =
      Tables.collect edgeKey search.found edge := by
  unfold keepEdge Tables.collect
  by_cases hSeen : edgeKey edge ∈ search.seenEdges
  · rw [if_pos hSeen]
    exact (if_pos hSeen).symm
  · rw [if_neg hSeen]
    exact (if_neg hSeen).symm

theorem queueNext_nodes
    {nexts : List String} :
    (nexts.foldl (queueNext depth) search).nodes =
      nexts.foldl (offer depth) search.nodes := by
  induction nexts generalizing search with
  | nil => rfl
  | cons next nexts ih =>
      have hNext :
          (queueNext depth search next).nodes =
            offer depth search.nodes next := by
        unfold queueNext offer
        by_cases hSeen : next ∈ search.seen
        · rw [if_pos hSeen]
          exact (if_pos hSeen).symm
        · rw [if_neg hSeen]
          exact (if_neg hSeen).symm
      rw [List.foldl_cons, List.foldl_cons, ih, hNext]

theorem queueNext_found
    {nexts : List String} :
    (nexts.foldl (queueNext depth) search).found =
      search.found := by
  induction nexts generalizing search with
  | nil => rfl
  | cons next nexts ih =>
      rw [List.foldl_cons, ih]
      unfold queueNext
      split <;> rfl

/- The resources are searched breadth-first. -/
theorem visitNode_nodes
    {head : String × Nat} :
    (visitNode relationships maxHops head search).nodes =
      expandHead (related relationships) maxHops head
        search.nodes := by
  unfold visitNode expandHead
  by_cases hBound : maxHops ≤ head.2
  · rw [if_pos hBound, if_pos hBound]
  · rw [if_neg hBound, if_neg hBound]
    unfold related
    induction relationships generalizing search with
    | nil => rfl
    | cons edge rest ih =>
        rw [List.foldl_cons, ih, List.flatMap_cons,
          List.foldl_append]
        unfold followEdge
        by_cases hTouches : touches head.1 edge = true
        · rw [if_pos hTouches, if_pos hTouches,
            queueNext_nodes, keepEdge_nodes]
        · rw [if_neg hTouches, if_neg hTouches]
          rfl

/- The edges of a resource are scanned. -/
theorem visitNode_found
    {head : String × Nat} :
    (visitNode relationships maxHops head search).found =
      if maxHops ≤ head.2 then search.found
      else
        Tables.scan edgeKey (touches head.1) search.found
          relationships := by
  unfold visitNode
  by_cases hBound : maxHops ≤ head.2
  · rw [if_pos hBound, if_pos hBound]
  · rw [if_neg hBound, if_neg hBound]
    induction relationships generalizing search with
    | nil => rfl
    | cons edge rest ih =>
        rw [List.foldl_cons, ih]
        unfold followEdge Tables.scan
        rw [List.foldl_cons]
        by_cases hTouches : touches head.1 edge = true
        · rw [if_pos hTouches, if_pos hTouches,
            queueNext_found, keepEdge_found]
        · rw [if_neg hTouches, if_neg hTouches]

end Halves

------------------------------------------------------------
-- Rounds Of The Search
------------------------------------------------------------

/- The resource was visited below the bound. -/
def Visited
    (visited : List (String × Nat))
    (maxHops : Nat)
    (edge : RelationshipEdge) :
    Prop :=
  ∃ p ∈ visited, p.2 < maxHops ∧ touches p.1 edge = true

/- What holds after some resources have been visited. -/
structure Explores
    (relationships : List RelationshipEdge)
    (resourceId : String)
    (maxHops : Nat)
    (visited : List (String × Nat))
    (search : NeighborSearch) :
    Prop where
  searched :
    Searched (related relationships) resourceId maxHops
      visited search.nodes
  collects :
    Collects edgeKey relationships
      (Visited visited maxHops) search.found

section Rounds

variable {relationships : List RelationshipEdge}
variable {resourceId node next : String}
variable {maxHops fuel : Nat}
variable {visited : List (String × Nat)}
variable {search : NeighborSearch}
variable {edges : List RelationshipEdge}

/- Edges of one key touch the same resources. -/
theorem touches_congr
    (edge other : RelationshipEdge)
    (hKey : edgeKey edge = edgeKey other) :
    touches node edge = touches node other := by
  have hEnds := Prod.mk.inj hKey
  unfold touches
  rw [hEnds.1, (Prod.mk.inj hEnds.2).1]

theorem mem_related :
    next ∈ related relationships node ↔
      ∃ edge ∈ relationships, touches node edge = true ∧
        next ∈ endpoints edge := by
  unfold related
  rw [List.mem_flatMap]
  refine exists_congr fun edge => and_congr_right fun _ => ?_
  by_cases hTouches : touches node edge = true
  · rw [if_pos hTouches]
    exact ⟨fun hMem => ⟨hTouches, hMem⟩, fun hBoth => hBoth.2⟩
  · rw [if_neg hTouches]
    exact ⟨fun hMem => absurd hMem List.not_mem_nil,
      fun hBoth => absurd hBoth.1 hTouches⟩

theorem touches_iff
    {edge : RelationshipEdge} :
    touches node edge = true ↔
      edge.fromResourceId = node ∨
        edge.toResourceId = node := by
  unfold touches
  rw [Bool.or_eq_true, decide_eq_true_iff,
    decide_eq_true_iff]

/- The resources queued are the linked ones, and itself. -/
theorem related_or_linked
    (node next : String)
    (hRelated : next ∈ related relationships node) :
    next = node ∨ Linked relationships node next := by
  obtain ⟨edge, hEdge, hTouches, hEnd⟩ :=
    mem_related.mp hRelated
  have hTouched := touches_iff.mp hTouches
  unfold endpoints at hEnd
  rw [List.mem_cons, List.mem_singleton] at hEnd
  cases hTouched with
  | inl hFrom =>
      cases hEnd with
      | inl hNext => exact .inl (hNext.trans hFrom)
      | inr hNext =>
          exact .inr ⟨edge, hEdge, .inl ⟨hFrom, hNext.symm⟩⟩
  | inr hTo =>
      cases hEnd with
      | inl hNext =>
          exact .inr ⟨edge, hEdge, .inr ⟨hNext.symm, hTo⟩⟩
      | inr hNext => exact .inl (hNext.trans hTo)

theorem related_of_linked
    (node next : String)
    (hLinked : Linked relationships node next) :
    next ∈ related relationships node := by
  obtain ⟨edge, hEdge, hEnds⟩ := hLinked
  apply mem_related.mpr
  unfold endpoints
  cases hEnds with
  | inl hForth =>
      refine ⟨edge, hEdge, touches_iff.mpr (.inl hForth.1),
        ?_⟩
      rw [← hForth.2]
      exact List.mem_cons_of_mem _ List.mem_cons_self
  | inr hBack =>
      refine ⟨edge, hEdge, touches_iff.mpr (.inr hBack.2),
        ?_⟩
      rw [← hBack.1]
      exact List.mem_cons_self

theorem within_iff :
    (∃ n, n < maxHops ∧
        Walk (fun node next =>
          next ∈ related relationships node) resourceId n
            node) ↔
      Within relationships resourceId maxHops node := by
  constructor
  · intro hWalk
    obtain ⟨n, hLt, hWalk⟩ := hWalk
    obtain ⟨m, hLe, hShort⟩ :=
      hWalk.shorten related_or_linked
    exact ⟨m, Nat.lt_of_le_of_lt hLe hLt, hShort⟩
  · intro hWithin
    obtain ⟨n, hLt, hWalk⟩ := hWithin
    exact ⟨n, hLt, hWalk.mono related_of_linked⟩

theorem explores_start :
    Explores relationships resourceId maxHops []
      (.start resourceId) where
  searched := Graphs.searched_start
  collects := by
    apply Tables.collects_nothing.congr
    intro edge
    constructor
    · exact fun hFalse => hFalse.elim
    · intro hVisited
      obtain ⟨p, hMem, _⟩ := hVisited
      cases hMem

/- A round of the loop keeps what holds. -/
theorem Explores.step
    {head : String × Nat}
    {rest : List (String × Nat)}
    (hExplores :
      Explores relationships resourceId maxHops visited
        search)
    (hFrontier : search.frontier = head :: rest) :
    Explores relationships resourceId maxHops
      (visited ++ [head])
      (visitNode relationships maxHops head
        { search with frontier := rest }) where
  searched := by
    have hSearched := hExplores.searched
    unfold NeighborSearch.nodes at hSearched
    rw [hFrontier] at hSearched
    rw [visitNode_nodes]
    exact hSearched.step
  collects := by
    rw [visitNode_found]
    by_cases hBound : maxHops ≤ head.2
    · rw [if_pos hBound]
      apply hExplores.collects.congr
      intro edge
      unfold Visited
      constructor
      · intro hVisited
        obtain ⟨p, hMem, hRest⟩ := hVisited
        exact ⟨p, List.mem_append_left _ hMem, hRest⟩
      · intro hVisited
        obtain ⟨p, hMem, hLt, hTouches⟩ := hVisited
        cases List.mem_append.mp hMem with
        | inl hOld => exact ⟨p, hOld, hLt, hTouches⟩
        | inr hHead =>
            rw [List.mem_singleton.mp hHead] at hLt
            omega
    · rw [if_neg hBound]
      have hScan := hExplores.collects.scan
        (@touches_congr head.1)
      apply hScan.congr
      intro edge
      unfold Visited
      constructor
      · intro hEither
        cases hEither with
        | inl hVisited =>
            obtain ⟨p, hMem, hRest⟩ := hVisited
            exact ⟨p, List.mem_append_left _ hMem, hRest⟩
        | inr hTouches =>
            exact ⟨head,
              List.mem_append_right _ List.mem_cons_self,
              Nat.lt_of_not_le hBound, hTouches⟩
      · intro hVisited
        obtain ⟨p, hMem, hLt, hTouches⟩ := hVisited
        cases List.mem_append.mp hMem with
        | inl hOld => exact .inl ⟨p, hOld, hLt, hTouches⟩
        | inr hHead =>
            rw [List.mem_singleton.mp hHead] at hTouches
            exact .inr hTouches

/- When the frontier is empty, the edges are the answer. -/
theorem Explores.neighborhood
    (hExplores :
      Explores relationships resourceId maxHops visited
        search)
    (hFrontier : search.frontier = []) :
    Neighborhood relationships resourceId maxHops
      search.edges where
  exact := by
    have hSearched := hExplores.searched
    unfold NeighborSearch.nodes at hSearched
    rw [hFrontier] at hSearched
    intro edge
    refine (hExplores.collects.taken edge).trans
      (and_congr_right fun _ => ?_)
    constructor
    · intro hVisited
      obtain ⟨p, hMem, hLt, hTouches⟩ := hVisited
      refine ⟨p.1, within_iff.mp ?_, hTouches⟩
      exact (hSearched.visited_iff p.1).mp
        ⟨p, hMem, hLt, rfl⟩
    · intro hWithin
      obtain ⟨node, hWithin, hTouches⟩ := hWithin
      obtain ⟨p, hMem, hLt, hNode⟩ :=
        (hSearched.visited_iff node).mpr
          (within_iff.mpr hWithin)
      rw [← hNode] at hTouches
      exact ⟨p, hMem, hLt, hTouches⟩
  distinct := hExplores.collects.distinct

/- All resources that the relationships name. -/
def namedResources
    (relationships : List RelationshipEdge) :
    List String :=
  relationships.flatMap endpoints

theorem related_named
    (hRelated : next ∈ related relationships node) :
    next ∈ namedResources relationships := by
  obtain ⟨edge, hEdge, _, hEnd⟩ := mem_related.mp hRelated
  exact List.mem_flatMap.mpr ⟨edge, hEdge, hEnd⟩

/- With enough rounds the loop returns the answer. -/
theorem neighborLoop_returns
    (hExplores :
      Explores relationships resourceId maxHops visited
        search)
    (hFuel :
      search.nodes.potential
        (namedResources relationships) < fuel) :
    ∃ edges,
      neighborLoop relationships maxHops fuel search =
        some edges ∧
      Neighborhood relationships resourceId maxHops
        edges := by
  induction fuel generalizing visited search with
  | zero => omega
  | succ fuel ih =>
      unfold neighborLoop
      cases hFrontier : search.frontier with
      | nil =>
          exact ⟨_, rfl, hExplores.neighborhood hFrontier⟩
      | cons head rest =>
          apply ih (hExplores.step hFrontier)
          have hLower := @Graphs.expandHead_potential _ _
            (namedResources relationships)
            (related relationships) maxHops head rest
            search.seen fun _ hMem => related_named hMem
          rw [visitNode_nodes]
          unfold NeighborSearch.nodes at hFuel
          rw [hFrontier] at hFuel
          exact Nat.lt_of_lt_of_le hLower
            (Nat.le_of_lt_succ hFuel)

/- More rounds do not change what is returned. -/
theorem neighborLoop_mono
    {more : Nat}
    (hReturns :
      neighborLoop relationships maxHops fuel search =
        some edges)
    (hMore : fuel ≤ more) :
    neighborLoop relationships maxHops more search =
      some edges := by
  induction fuel generalizing search more with
  | zero => cases hReturns
  | succ fuel ih =>
      obtain ⟨rounds, hRounds⟩ : ∃ rounds,
          more = rounds + 1 :=
        ⟨more - 1, by omega⟩
      rw [hRounds]
      unfold neighborLoop at hReturns ⊢
      cases hFrontier : search.frontier with
      | nil =>
          rw [hFrontier] at hReturns
          exact hReturns
      | cons head rest =>
          rw [hFrontier] at hReturns
          exact ih hReturns (by omega)

theorem namedResources_length :
    (namedResources relationships).length =
      2 * relationships.length := by
  induction relationships with
  | nil => rfl
  | cons edge rest ih =>
      unfold namedResources at ih ⊢
      rw [List.flatMap_cons, List.length_append, ih,
        List.length_cons]
      show 2 + _ = _
      omega

end Rounds

/-
  The search for neighbors in a session ends, after at most
  two rounds for each relationship and two more, with the
  first edges of their keys that touch a resource at a
  distance below the bound.
-/
theorem graphNeighbors_exact
    (snapshot : SessionSnapshot)
    (resourceId : String)
    (maxHops : Nat) :
    ∃ edges,
      (∀ fuel,
        2 * (agentState snapshot.sessionId
            snapshot.records).relationships.length + 2 ≤
          fuel →
        graphNeighbors fuel (.ok snapshot) resourceId
            maxHops =
          some (.ok edges)) ∧
      Neighborhood
        (agentState snapshot.sessionId
          snapshot.records).relationships
        resourceId maxHops edges := by
  generalize hRelationships :
    (agentState snapshot.sessionId
      snapshot.records).relationships = relationships
  have hFuel :
      (NeighborSearch.start resourceId).nodes.potential
          (namedResources relationships) <
        2 * relationships.length + 2 := by
    have hUnseen := List.length_filter_le
      (fun node => decide (node ∉
        (NeighborSearch.start resourceId).nodes.seen))
      (namedResources relationships)
    rw [namedResources_length] at hUnseen
    show 1 + _ < _
    omega
  obtain ⟨edges, hReturns, hNeighborhood⟩ :=
    neighborLoop_returns
      (@explores_start relationships resourceId maxHops)
      hFuel
  refine ⟨edges, ?_, hNeighborhood⟩
  intro fuel hEnough
  show (neighborLoop
    (agentState snapshot.sessionId
      snapshot.records).relationships maxHops fuel
    (.start resourceId)).map Except.ok = _
  rw [hRelationships, neighborLoop_mono hReturns hEnough]
  rfl

end RainEngine.Retrieval
