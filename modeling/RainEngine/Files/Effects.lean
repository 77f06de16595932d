import RainEngine.Files.Tree
import Mathlib.Data.List.Infix

/-
  This file determines what the system calls change. Making
  the directories of a path changes nothing when they are
  there already, or when something else is in their place. In
  a place where there is nothing yet, it makes directories
  below that place only.

  Key definitions include:
    * `FileTree.Grown`

  Key theorems include:
    * `FileTree.createDirAll_of_found`
    * `FileTree.createDirAll_blocked`
    * `FileTree.Grown.createDirAll`
    * `FileTree.Grown.write`
-/

namespace RainEngine.Files
namespace FileTree

variable {tree : FileTree}
variable {links : Nat}

------------------------------------------------------------
-- Lookups
------------------------------------------------------------

theorem lookup_append (path names : Path) :
    tree.lookup links (path ++ names) =
      tree.andThen (names.map .name)
        (tree.lookup links path) := by
  unfold lookup
  rw [List.map_append]
  exact resolve_append links _ _ tree.root

/- A longer path goes on from where a shorter one leads. -/
theorem lookup_prefix
    {path names : Path}
    {name : String}
    {result : Resolution}
    (hLookup :
      tree.lookup links (path ++ name :: names) = result)
    (hResult : ∀ error, result ≠ .failed error) :
    ∃ location left,
      tree.lookup links path = .found location left ∧
        tree.node location = some .directory ∧
        tree.resolve left location
          (.name name :: names.map .name) = result := by
  rw [lookup_append] at hLookup
  cases hPath : tree.lookup links path with
  | found location left =>
      rw [hPath] at hLookup
      by_cases hNode : tree.node location = some .directory
      · refine ⟨location, left, rfl, hNode, ?_⟩
        simpa [andThen, hNode] using hLookup
      · refine absurd ?_ (hResult .notDirectory)
        simpa [andThen, hNode] using hLookup.symm
  | absent location =>
      rw [hPath] at hLookup
      exact absurd hLookup.symm (hResult .notFound)
  | failed error =>
      rw [hPath] at hLookup
      exact absurd hLookup.symm (hResult error)

/- What is found is a directory or a file. -/
theorem node_of_found
    {path : Path}
    {location : Location}
    {left : Nat}
    (hLookup : tree.lookup links path = .found location left) :
    tree.node location = some .directory ∨
      ∃ bytes, tree.node location = some (.file bytes) := by
  have hEnds := resolve_ends
    (P := fun result => ∀ location left,
      result = .found location left →
      tree.node location = some .directory ∨
        ∃ bytes, tree.node location = some (.file bytes))
    (by
      intro location links hNode other left hSame
      cases hSame
      exact hNode)
    (by
      intro _ _ _ _ _ _ hSame
      cases hSame)
    (by
      intro _ _ _ hSame
      cases hSame)
    links (path.map .name) tree.root
  exact hEnds location left hLookup

/- What is absent could be put into its directory. -/
theorem writable_of_absent
    {path : Path}
    {location : Location}
    (hLookup : tree.lookup links path = .absent location) :
    tree.Writable location ∧ tree.node location = none := by
  have hEnds := resolve_ends
    (P := fun result => ∀ location,
      result = .absent location →
      tree.Writable location ∧ tree.node location = none)
    (by
      intro _ _ _ _ hSame
      cases hSame)
    (by
      intro parent name hParent hNone other hSame
      cases hSame
      refine ⟨⟨by simp, ?_, ?_⟩, hNone⟩
      · rw [List.dropLast_concat]
        exact hParent
      · rw [hNone]
        simp)
    (by
      intro _ _ hSame
      cases hSame)
    links (path.map .name) tree.root
  exact hEnds location hLookup

theorem put_node
    (location other : Location)
    (node : Node) :
    (tree.put location node).node other =
      if other = location ∧ tree.Writable location then
        some node
      else tree.node other := by
  unfold put
  by_cases hWritable : tree.Writable location
  · rw [dif_pos hWritable]
    simp [hWritable]
  · rw [dif_neg hWritable]
    simp [hWritable]

/- Putting a node changes one location at most. -/
theorem eq_of_put_ne
    {location other : Location}
    {node : Node}
    (hChanged :
      (tree.put location node).node other ≠
        tree.node other) :
    other = location := by
  by_contra hOther
  apply hChanged
  rw [put_node, if_neg (by simp [hOther])]

------------------------------------------------------------
-- Directories That Are There
------------------------------------------------------------

theorem pathExists_of_found
    {path : Path}
    {location : Location}
    {left : Nat}
    (hLookup : tree.lookup links path = .found location left) :
    tree.pathExists links path = true := by
  unfold pathExists
  rw [hLookup]

theorem isDir_eq_false
    {path : Path}
    (hMissing : tree.pathExists links path = false) :
    tree.isDir links path = false := by
  unfold pathExists at hMissing
  unfold isDir
  cases hLookup : tree.lookup links path with
  | found location left =>
      rw [hLookup] at hMissing
      cases hMissing
  | absent location => rfl
  | failed error => rfl

/- A name that leads somewhere has a node in its place. -/
theorem node_ne_none_of_found
    {path : Path}
    {name : String}
    {location found : Location}
    {left spare : Nat}
    (hPath : tree.lookup links path = .found location left)
    (hFound :
      tree.lookup links (path ++ [name]) =
        .found found spare) :
    tree.node location = some .directory ∧
      tree.node (location ++ [name]) ≠ none := by
  rcases lookup_prefix hFound (by simp) with
    ⟨parent, rest, hParent, hNode, hResolve⟩
  rw [hPath] at hParent
  cases hParent
  refine ⟨hNode, ?_⟩
  intro hNone
  cases left with
  | zero => simp [resolve, walk, hNone] at hResolve
  | succ left => simp [resolve, walk, hNone] at hResolve

/- An error other than a lack of directories is final. -/
theorem createDirAll_of_error
    {parents : List String}
    {name : String}
    {error : OsError}
    (hMkdir :
      tree.mkdir links parents.reverse name = .error error)
    (hKind : error ≠ .notFound) :
    createDirAll links tree (name :: parents) =
      if tree.isDir links (name :: parents).reverse then
        (.ok (), tree)
      else (.error error, tree) := by
  rw [createDirAll, hMkdir]
  cases error <;> first | rfl | exact absurd rfl hKind

/- A path that exists already is left as it is. -/
theorem createDirAll_of_found
    {path : Path}
    {location : Location}
    {left : Nat}
    (hFound : tree.lookup links path = .found location left) :
    createDirAll links tree path.reverse =
      if tree.isDir links path then (.ok (), tree)
      else (.error .alreadyExists, tree) := by
  cases path using List.reverseRecOn with
  | nil =>
      have hDir : tree.isDir links [] = true := by
        unfold isDir lookup
        rw [List.map_nil]
        cases links <;> simp [resolve, walk, tree.root]
      rw [hDir]
      rfl
  | append_singleton parents name =>
      rcases lookup_prefix hFound (by simp) with
        ⟨parent, spare, hParents, hNode, _⟩
      have hThere :=
        (node_ne_none_of_found hParents hFound).2
      have hMkdir :
          tree.mkdir links parents.reverse.reverse name =
            .error .alreadyExists := by
        unfold mkdir
        rw [List.reverse_reverse, hParents]
        dsimp only
        rw [if_pos hNode]
        cases hName : tree.node (parent ++ [name]) with
        | none => exact absurd hName hThere
        | some node => rfl
      rw [List.reverse_append, List.reverse_singleton,
        List.singleton_append,
        createDirAll_of_error hMkdir (by simp),
        List.reverse_cons, List.reverse_reverse]

theorem isDir_eq_true
    {path : Path}
    {location : Location}
    {left : Nat}
    (hFound : tree.lookup links path = .found location left)
    (hNode : tree.node location = some .directory) :
    tree.isDir links path = true := by
  unfold isDir
  rw [hFound]
  simpa using hNode

/- A directory or file in a directory is found there. -/
theorem lookup_concat
    {path : Path}
    {name : String}
    {location : Location}
    {left : Nat}
    (hPath : tree.lookup links path = .found location left)
    (hNode : tree.node location = some .directory)
    (hThere : tree.node (location ++ [name]) =
        some .directory ∨
      ∃ bytes,
        tree.node (location ++ [name]) = some (.file bytes)) :
    tree.lookup links (path ++ [name]) =
      .found (location ++ [name]) left := by
  rw [lookup_append, hPath]
  rcases hThere with hThere | ⟨bytes, hThere⟩
  · cases left <;>
      simp [andThen, hNode, resolve, walk, hThere]
  · cases left <;>
      simp [andThen, hNode, resolve, walk, hThere]

/- A location leads to itself. -/
theorem lookup_location
    {location : Location}
    (hNode : tree.node location = some .directory ∨
      ∃ bytes, tree.node location = some (.file bytes)) :
    tree.lookup links location = .found location links := by
  induction location using List.reverseRecOn with
  | nil => cases links <;> rfl
  | append_singleton parents name ih =>
      have hThere : tree.node (parents ++ [name]) ≠ none := by
        rcases hNode with hNode | ⟨bytes, hNode⟩
        · simp [hNode]
        · simp [hNode]
      have hParent := tree.closed parents name hThere
      exact lookup_concat (ih (.inl hParent)) hParent hNode

/- Writing changes what the path leads to. -/
theorem lookup_of_write_ne
    {path : Path}
    {bytes : ByteArray}
    {other : Location}
    (hChanged :
      (tree.write links path bytes).2.node other ≠
        tree.node other) :
    (∃ left, tree.lookup links path = .found other left) ∨
      tree.lookup links path = .absent other := by
  unfold write at hChanged
  cases hLookup : tree.lookup links path with
  | found location left =>
      rw [hLookup] at hChanged
      dsimp only at hChanged
      split at hChanged
      · exact absurd rfl hChanged
      · rw [eq_of_put_ne hChanged]
        exact .inl ⟨left, rfl⟩
  | absent location =>
      rw [hLookup] at hChanged
      rw [eq_of_put_ne hChanged]
      exact .inr rfl
  | failed error =>
      rw [hLookup] at hChanged
      exact absurd rfl hChanged

------------------------------------------------------------
-- Directories That Cannot Be Made
------------------------------------------------------------

/-
  Nothing is made below a path that does not exist although
  something is in its place.
-/
theorem createDirAll_blocked
    {path : Path}
    {name : String}
    {location : Location}
    {left : Nat}
    (hPath : tree.lookup links path = .found location left)
    (hBlocked :
      tree.node location ≠ some .directory ∨
        tree.node (location ++ [name]) ≠ none)
    (names : Path)
    (hMissing : ∀ others, others <+: names →
      tree.pathExists links (path ++ name :: others) =
        false) :
    ∃ error,
      createDirAll links tree (path ++ name :: names).reverse =
        (.error error, tree) := by
  induction names using List.reverseRecOn with
  | nil =>
      have hNotDir := isDir_eq_false
        (hMissing [] List.nil_prefix)
      have hMkdir : ∃ error, error ≠ .notFound ∧
          tree.mkdir links path.reverse.reverse name =
            .error error := by
        unfold mkdir
        rw [List.reverse_reverse, hPath]
        dsimp only
        by_cases hNode : tree.node location = some .directory
        · rw [if_pos hNode]
          refine ⟨.alreadyExists, by simp, ?_⟩
          cases hName : tree.node (location ++ [name]) with
          | none =>
              exact absurd hName
                (hBlocked.resolve_left (by simp [hNode]))
          | some node => rfl
        · rw [if_neg hNode]
          exact ⟨.notDirectory, by simp, rfl⟩
      rcases hMkdir with ⟨error, hKind, hMkdir⟩
      refine ⟨error, ?_⟩
      rw [List.reverse_append, List.reverse_singleton,
        List.singleton_append,
        createDirAll_of_error hMkdir hKind,
        List.reverse_cons, List.reverse_reverse, hNotDir]
      rfl
  | append_singleton names last ih =>
      have hNotDir := isDir_eq_false
        (hMissing (names ++ [last]) (List.prefix_refl _))
      have hParent := hMissing names (List.prefix_append _ _)
      have hAbove : ∃ error,
          createDirAll links tree
              (path ++ name :: names).reverse =
            (.error error, tree) := by
        apply ih
        intro others hOthers
        exact hMissing others
          (hOthers.trans (List.prefix_append _ _))
      have hMkdir : ∃ error,
          tree.mkdir links
              (path ++ name :: names).reverse.reverse last =
            .error error := by
        rw [List.reverse_reverse]
        unfold mkdir
        unfold pathExists at hParent
        cases hLookup :
            tree.lookup links (path ++ name :: names) with
        | found other spare =>
            rw [hLookup] at hParent
            cases hParent
        | absent other => exact ⟨_, rfl⟩
        | failed error => exact ⟨_, rfl⟩
      rcases hAbove with ⟨above, hAbove⟩
      rcases hMkdir with ⟨error, hMkdir⟩
      have hSplit :
          (path ++ name :: (names ++ [last])).reverse =
            last :: (path ++ name :: names).reverse := by
        simp
      by_cases hKind : error = .notFound
      · subst hKind
        refine ⟨above, ?_⟩
        rw [hSplit, createDirAll, hMkdir, hAbove]
      · refine ⟨error, ?_⟩
        rw [hSplit, createDirAll_of_error hMkdir hKind,
          ← hSplit, List.reverse_reverse, hNotDir]
        rfl

------------------------------------------------------------
-- New Directories
------------------------------------------------------------

/-
  A tree has grown below a base where there was nothing:
  whatever was there is there still, what is new is below the
  base, and only directories are.
-/
structure Grown
    (base : Location)
    (old tree : FileTree) : Prop where
  keeps : ∀ location node,
    old.node location = some node →
      tree.node location = some node
  within : ∀ location,
    tree.node location ≠ old.node location →
      base <+: location
  plain : ∀ location, base <+: location →
    tree.node location = none ∨
      tree.node location = some .directory

theorem node_eq_none_of_below
    {base location : Location}
    (hBase : tree.node base = none)
    (hPrefix : base <+: location) :
    tree.node location = none := by
  rcases hPrefix with ⟨names, hPrefix⟩
  subst hPrefix
  induction names using List.reverseRecOn with
  | nil => simpa using hBase
  | append_singleton names name ih =>
      by_contra hThere
      rw [← List.append_assoc] at hThere
      have hParent := tree.closed _ _ hThere
      rw [ih] at hParent
      cases hParent

theorem grown_refl
    {base : Location}
    (hBase : tree.node base = none) :
    Grown base tree tree where
  keeps := fun _ _ hNode => hNode
  within := fun _ hChanged => absurd rfl hChanged
  plain := fun _ hPrefix =>
    .inl (node_eq_none_of_below hBase hPrefix)

/- Where a walk over plain directories can lead. -/
def LeadsTo (location : Location) : Resolution → Prop
| .found other _ => other = location
| .absent other => other = location
| .failed _ => True

theorem walk_plain
    {base location : Location}
    (follow : Location → Target → List Component → Resolution)
    (hPlain : ∀ other, base <+: other →
      tree.node other = none ∨
        tree.node other = some .directory)
    (hBelow : base <+: location)
    (names : Path) :
    LeadsTo (location ++ names)
      (tree.walk follow links location
        (names.map .name)) := by
  induction names generalizing location with
  | nil => simp [walk, LeadsTo]
  | cons name rest ih =>
      have hNext : base <+: location ++ [name] :=
        hBelow.trans (List.prefix_append _ _)
      rw [List.map_cons, walk]
      rcases hPlain _ hNext with hNone | hDirectory
      · rw [hNone]
        cases rest with
        | nil => simp [LeadsTo]
        | cons _ _ => simp [LeadsTo]
      · rw [hDirectory]
        have hRest := ih hNext
        rw [List.append_assoc] at hRest
        exact hRest

namespace Grown

variable {old : FileTree}
variable {path : Path}
variable {name : String}
variable {location : Location}
variable {left : Nat}

/- A resolution that found something finds it again. -/
theorem walk_found
    {base found : Location}
    {spare : Nat}
    {follow again :
      Location → Target → List Component → Resolution}
    (hGrown : Grown base old tree)
    (hFollow : ∀ location target rest,
      follow location target rest = .found found spare →
        again location target rest = .found found spare)
    (components : List Component)
    (hFound :
      old.walk follow links location components =
        .found found spare) :
    tree.walk again links location components =
      .found found spare := by
  induction components generalizing location with
  | nil => exact hFound
  | cons component rest ih =>
      cases component with
      | current => exact ih hFound
      | parent => exact ih hFound
      | name name =>
          rw [walk] at hFound ⊢
          cases hOld : old.node (location ++ [name]) with
          | none =>
              rw [hOld] at hFound
              cases hEmpty : rest.isEmpty <;>
                simp [hEmpty] at hFound
          | some node =>
              rw [hGrown.keeps _ _ hOld]
              rw [hOld] at hFound
              cases node with
              | directory => exact ih hFound
              | file bytes => exact hFound
              | link target =>
                  exact hFollow location target rest hFound

theorem resolve_found
    {base found : Location}
    {spare : Nat}
    (hGrown : Grown base old tree)
    (links : Nat)
    (components : List Component)
    (hFound :
      old.resolve links location components =
        .found found spare) :
    tree.resolve links location components =
      .found found spare := by
  induction links generalizing location components with
  | zero =>
      refine hGrown.walk_found ?_ components hFound
      intro _ _ _ hFailed
      exact hFailed
  | succ links ih =>
      refine hGrown.walk_found ?_ components hFound
      intro location target rest hRest
      exact ih _ hRest

/- A path into the new directories leads straight on. -/
theorem lookup_leads
    (hGrown : Grown (location ++ [name]) old tree)
    (hPath : old.lookup links path = .found location left)
    (hNode : old.node location = some .directory)
    (names : Path) :
    LeadsTo (location ++ name :: names)
      (tree.lookup links (path ++ name :: names)) := by
  have hAgain : tree.lookup links path =
      .found location left :=
    hGrown.resolve_found links _ hPath
  have hBase := hGrown.plain (location ++ [name])
    (List.prefix_refl _)
  have hSplit : location ++ name :: names =
      (location ++ [name]) ++ names := by
    simp
  rw [lookup_append, hAgain, andThen,
    hGrown.keeps _ _ hNode, hSplit]
  rw [if_neg (by simp), if_pos rfl]
  have hWalk : ∀ follow,
      LeadsTo ((location ++ [name]) ++ names)
        (tree.walk follow left location
          ((name :: names).map .name)) := by
    intro follow
    rw [List.map_cons, walk]
    rcases hBase with hNone | hDirectory
    · rw [hNone]
      cases names with
      | nil => simp [LeadsTo]
      | cons _ _ => simp [LeadsTo]
    · rw [hDirectory]
      exact walk_plain follow hGrown.plain
        (List.prefix_refl _) names
  cases left with
  | zero => exact hWalk _
  | succ left => exact hWalk _

/- One more directory below the base. -/
theorem put
    {base : Location}
    (hGrown : Grown base old tree)
    (hBelow : base <+: location)
    (hNone : tree.node location = none) :
    Grown base old (tree.put location .directory) where
  keeps := by
    intro other node hOld
    have hNode := hGrown.keeps other node hOld
    rw [put_node, if_neg]
    · exact hNode
    · intro hHere
      rw [hHere.1, hNone] at hNode
      cases hNode
  within := by
    intro other hChanged
    by_cases hHere : other = location
    · rw [hHere]
      exact hBelow
    · rw [put_node, if_neg (by simp [hHere])] at hChanged
      exact hGrown.within other hChanged
  plain := by
    intro other hOther
    rw [put_node]
    split
    · exact .inr rfl
    · exact hGrown.plain other hOther

theorem mkdir
    {made : FileTree}
    {parent names : Path}
    {last : String}
    (hGrown : Grown (location ++ [name]) old tree)
    (hPath : old.lookup links path = .found location left)
    (hNode : old.node location = some .directory)
    (hParent : parent ++ [last] = path ++ name :: names)
    (hMade : tree.mkdir links parent last = .ok made) :
    Grown (location ++ [name]) old made := by
  have hAgain : tree.lookup links path =
      .found location left :=
    hGrown.resolve_found links _ hPath
  -- the directory that is made is on the path
  have hWhere : ∀ found spare,
      tree.lookup links parent = .found found spare →
      found ++ [last] = location ++ name :: names := by
    intro found spare hFound
    cases names using List.reverseRecOn with
    | nil =>
        rcases List.append_inj' hParent rfl with
          ⟨hSame, hName⟩
        rw [hSame, hAgain] at hFound
        cases hFound
        cases hName
        rfl
    | append_singleton names final =>
        rw [← List.cons_append, ← List.append_assoc] at hParent
        rcases List.append_inj' hParent rfl with
          ⟨hSame, hLast⟩
        cases hLast
        have hLeads := hGrown.lookup_leads hPath hNode names
        rw [← hSame, hFound] at hLeads
        rw [← List.cons_append, ← List.append_assoc, ← hLeads]
  unfold FileTree.mkdir at hMade
  cases hLookup : tree.lookup links parent with
  | found found spare =>
      rw [hLookup] at hMade
      dsimp only at hMade
      by_cases hDirectory : tree.node found = some .directory
      · rw [if_pos hDirectory] at hMade
        cases hThere : tree.node (found ++ [last]) with
        | none =>
            rw [hThere] at hMade
            cases hMade
            apply hGrown.put _ hThere
            rw [hWhere found spare hLookup]
            exact ⟨names, by simp⟩
        | some node =>
            rw [hThere] at hMade
            cases hMade
      · rw [if_neg hDirectory] at hMade
        cases hMade
  | absent found =>
      rw [hLookup] at hMade
      cases hMade
  | failed error =>
      rw [hLookup] at hMade
      cases hMade

/- The first new directory does not lack a directory above. -/
theorem mkdir_ne_notFound
    (hGrown : Grown (location ++ [name]) old tree)
    (hPath : old.lookup links path = .found location left)
    (hNode : old.node location = some .directory) :
    tree.mkdir links path name ≠ .error .notFound := by
  have hAgain : tree.lookup links path =
      .found location left :=
    hGrown.resolve_found links _ hPath
  unfold FileTree.mkdir
  rw [hAgain]
  dsimp only
  rw [if_pos (hGrown.keeps _ _ hNode)]
  cases tree.node (location ++ [name]) <;> simp

/- Directories are made below the base only. -/
theorem createDirAll
    (hGrown : Grown (location ++ [name]) old tree)
    (hPath : old.lookup links path = .found location left)
    (hNode : old.node location = some .directory)
    (names : Path) :
    Grown (location ++ [name]) old
      (FileTree.createDirAll links tree
        (path ++ name :: names).reverse).2 := by
  induction names using List.reverseRecOn with
  | nil =>
      have hKind :=
        hGrown.mkdir_ne_notFound hPath hNode
      rw [List.reverse_append, List.reverse_singleton,
        List.singleton_append]
      cases hMkdir :
          tree.mkdir links path.reverse.reverse name with
      | ok made =>
          rw [FileTree.createDirAll, hMkdir]
          rw [List.reverse_reverse] at hMkdir
          exact hGrown.mkdir hPath hNode rfl hMkdir
      | error error =>
          have hFinal : error ≠ .notFound := by
            intro hSame
            rw [List.reverse_reverse, hSame] at hMkdir
            exact hKind hMkdir
          rw [createDirAll_of_error hMkdir hFinal]
          split <;> exact hGrown
  | append_singleton names last ih =>
      have hSplit :
          (path ++ name :: (names ++ [last])).reverse =
            last :: (path ++ name :: names).reverse := by
        simp
      have hParent : (path ++ name :: names) ++ [last] =
          path ++ name :: (names ++ [last]) := by
        simp
      rw [hSplit]
      cases hMkdir : tree.mkdir links
          (path ++ name :: names).reverse.reverse last with
      | ok made =>
          rw [FileTree.createDirAll, hMkdir]
          rw [List.reverse_reverse] at hMkdir
          exact hGrown.mkdir hPath hNode hParent hMkdir
      | error error =>
          by_cases hKind : error = .notFound
          · subst hKind
            rw [FileTree.createDirAll, hMkdir,
              List.reverse_reverse]
            rcases hAbove : FileTree.createDirAll links tree
                (path ++ name :: names).reverse with
              ⟨result, above⟩
            rw [hAbove] at ih
            cases result with
            | error error => exact ih
            | ok _ =>
                dsimp only
                cases hAgain : above.mkdir links
                    (path ++ name :: names) last with
                | ok made =>
                    exact ih.mkdir hPath hNode hParent hAgain
                | error error =>
                    dsimp only
                    split <;> exact ih
          · rw [createDirAll_of_error hMkdir hKind]
            split <;> exact hGrown

/- A file on the way down is written below the base. -/
theorem write
    (hGrown : Grown (location ++ [name]) old tree)
    (hPath : old.lookup links path = .found location left)
    (hNode : old.node location = some .directory)
    (names : Path)
    (bytes : ByteArray)
    (other : Location)
    (hChanged :
      (tree.write links (path ++ name :: names)
        bytes).2.node other ≠ old.node other) :
    location ++ [name] <+: other := by
  have hLeads := hGrown.lookup_leads hPath hNode names
  have hBelow :
      location ++ [name] <+: location ++ name :: names :=
    ⟨names, by simp⟩
  by_cases hSame : tree.node other = old.node other
  · rw [← hSame] at hChanged
    rcases lookup_of_write_ne hChanged with
      ⟨spare, hFound⟩ | hAbsent
    · rw [hFound] at hLeads
      rw [hLeads]
      exact hBelow
    · rw [hAbsent] at hLeads
      rw [hLeads]
      exact hBelow
  · exact hGrown.within other hSame

end Grown

end FileTree
end RainEngine.Files
