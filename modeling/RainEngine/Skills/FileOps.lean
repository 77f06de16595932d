import RainEngine.Files.Effects
import RainEngine.Kernel.Schema
import RainEngine.Kernel.Types

/-
  This file models the skills that read and write files in a
  workspace. Reading stays in the workspace. Writing leaves it
  in one case only: the last name of the path is a dangling
  link out of the workspace.

  Key definitions include:
    * `safeRelativePath`
    * `nearestExistingAncestor`
    * `FileReadSkill.execute`
    * `FileWriteSkill.execute`
    * `Workspace`
    * `WritesThroughLink`

  Key theorems include:
    * `readConfined`
    * `workspace_confined_iff`
-/

namespace RainEngine.Skills

open Files

------------------------------------------------------------
-- Paths
------------------------------------------------------------

/- The pieces of a relative path that name something. -/
def cleanComponents :
    List String → Except SkillFailure Path
| [] => .ok []
| component :: rest =>
    if component = "" ∨ component = "." then
      cleanComponents rest
    else if component = ".." then
      .error
        ⟨.permissionDenied,
          "path traversal outside workspace"⟩
    else (cleanComponents rest).map (component :: ·)

/- The pieces of a path between slashes. -/
def components (path : String) : List String :=
  (path.toList.splitOnP (· == '/')).map String.ofList

def safeRelativePath
    (relative : String) :
    Except SkillFailure Path :=
  if relative.toList.head? = some '/' then
    .error
      ⟨.permissionDenied, "path traversal outside workspace"⟩
  else
    match cleanComponents (components relative) with
    | .error failure => .error failure
    | .ok [] =>
        .error ⟨.invalidResponse, "path must not be empty"⟩
    | .ok cleaned => .ok cleaned

/- The names of the path come in reverse order. -/
def nearestExistingAncestor
    (links : Nat)
    (tree : FileTree) :
    List String → Option Path
| [] => if tree.pathExists links [] then some [] else none
| name :: parents =>
    if tree.pathExists links (name :: parents).reverse then
      some (name :: parents).reverse
    else nearestExistingAncestor links tree parents

def osErrorText : OsError → String
| .notFound => "No such file or directory (os error 2)"
| .alreadyExists => "File exists (os error 17)"
| .notDirectory => "Not a directory (os error 20)"
| .isDirectory => "Is a directory (os error 21)"
| .linkLoop =>
    "Too many levels of symbolic links (os error 40)"

def displayPath (path : Path) : String :=
  "/" ++ String.intercalate "/" path

------------------------------------------------------------
-- The Skills
------------------------------------------------------------

/- An existing directory, by its canonical path. -/
structure Workspace (tree : FileTree) where
  root : Location
  isDirectory : tree.node root = some .directory

namespace FileReadSkill

def resolvePath
    (links : Nat)
    (tree : FileTree)
    (workspaceRoot : Location)
    (relative : String) :
    Except SkillFailure Path :=
  match safeRelativePath relative with
  | .error failure => .error failure
  | .ok cleaned =>
      match tree.canonicalize links
          (workspaceRoot ++ cleaned) with
      | .error error =>
          .error
            ⟨.internal, "path error: " ++ osErrorText error⟩
      | .ok canonical =>
          if workspaceRoot <+: canonical then .ok canonical
          else
            .error
              ⟨.permissionDenied,
                "path traversal outside workspace"⟩

def execute
    (links : Nat)
    (tree : FileTree)
    (workspaceRoot : Location)
    (args : Json) :
    Except SkillFailure Json :=
  match (args.get "path").bind Json.asStr with
  | none => .error ⟨.invalidResponse, "missing 'path' arg"⟩
  | some relative =>
      match resolvePath links tree workspaceRoot relative with
      | .error failure => .error failure
      | .ok path =>
          match tree.readFile links path with
          | .error error =>
              .error
                ⟨.internal,
                  "read failed: " ++ osErrorText error⟩
          | .ok bytes =>
              match String.fromUTF8? bytes with
              | none =>
                  .error
                    ⟨.internal, "read failed: " ++
                      "stream did not contain valid UTF-8"⟩
              | some content =>
                  .ok (.object
                    [("path", .string (displayPath path)),
                      ("content", .string content),
                      ("size_bytes",
                        .nat content.utf8ByteSize)])

end FileReadSkill

namespace FileWriteSkill

def resolvePath
    (links : Nat)
    (tree : FileTree)
    (workspaceRoot : Location)
    (relative : String) :
    Except SkillFailure Path :=
  match safeRelativePath relative with
  | .error failure => .error failure
  | .ok cleaned =>
      match nearestExistingAncestor links tree
          (workspaceRoot ++ cleaned).reverse with
      | none => .error ⟨.internal, "invalid path"⟩
      | some existing =>
          match tree.canonicalize links existing with
          | .error error =>
              .error
                ⟨.internal,
                  "path error: " ++ osErrorText error⟩
          | .ok canonical =>
              if workspaceRoot <+: canonical then
                .ok (workspaceRoot ++ cleaned)
              else
                .error
                  ⟨.permissionDenied,
                    "path traversal outside workspace"⟩

/- Make the directories above a path, and write the file. -/
def writeFile
    (links : Nat)
    (tree : FileTree)
    (path : Path)
    (content : String) :
    Except SkillFailure Json × FileTree :=
  match tree.createDirAll links path.dropLast.reverse with
  | (.error error, made) =>
      (.error
        ⟨.internal, "mkdir failed: " ++ osErrorText error⟩,
        made)
  | (.ok (), made) =>
      match made.write links path content.toUTF8 with
      | (.error error, written) =>
          (.error
            ⟨.internal,
              "write failed: " ++ osErrorText error⟩,
            written)
      | (.ok (), written) =>
          (.ok (.object
            [("path", .string (displayPath path)),
              ("bytes_written",
                .nat content.utf8ByteSize)]),
            written)

/- The answer of the skill, and the tree it leaves behind. -/
def execute
    (links : Nat)
    (tree : FileTree)
    (workspaceRoot : Location)
    (args : Json) :
    Except SkillFailure Json × FileTree :=
  match (args.get "path").bind Json.asStr with
  | none =>
      (.error ⟨.invalidResponse, "missing 'path' arg"⟩, tree)
  | some relative =>
      match (args.get "content").bind Json.asStr with
      | none =>
          (.error
            ⟨.invalidResponse, "missing 'content' arg"⟩,
            tree)
      | some content =>
          match resolvePath links tree workspaceRoot
              relative with
          | .error failure => (.error failure, tree)
          | .ok path => writeFile links tree path content

end FileWriteSkill

------------------------------------------------------------
-- Confinement
------------------------------------------------------------

/- Only files in the workspace are read. -/
def ReadConfined
    (links : Nat)
    {tree : FileTree}
    (workspace : Workspace tree)
    (args : Json) : Prop :=
  ∀ answer,
    FileReadSkill.execute links tree workspace.root args =
      .ok answer →
    ∃ location bytes content,
      workspace.root <+: location ∧
        tree.node location = some (.file bytes) ∧
        String.fromUTF8? bytes = some content ∧
        answer.get "content" = some (.string content)

/- Only what is in the workspace is created or changed. -/
def WriteConfined
    (links : Nat)
    {tree : FileTree}
    (workspace : Workspace tree)
    (args : Json) : Prop :=
  ∀ location,
    (FileWriteSkill.execute links tree workspace.root
        args).2.node location ≠ tree.node location →
      workspace.root <+: location

/-
  The last name of a path is a link, its directory is in the
  workspace, and the link leads beside what exists outside.
-/
def EscapesThroughLink
    (links : Nat)
    (tree : FileTree)
    (root : Location)
    (names : Path) : Prop :=
  ∃ parents last directory left target outside,
    names = parents ++ [last] ∧
      tree.lookup links (root ++ parents) =
        .found directory left ∧
      root <+: directory ∧
      tree.node (directory ++ [last]) = some (.link target) ∧
      tree.lookup links (root ++ names) = .absent outside ∧
      ¬ root <+: outside

/- The arguments ask for a write through such a link. -/
def WritesThroughLink
    (links : Nat)
    {tree : FileTree}
    (workspace : Workspace tree)
    (args : Json) : Prop :=
  ∃ relative content names,
    (args.get "path").bind Json.asStr = some relative ∧
      (args.get "content").bind Json.asStr = some content ∧
      safeRelativePath relative = .ok names ∧
      EscapesThroughLink links tree workspace.root names

section Confinement

variable {links : Nat}
variable {tree : FileTree}

theorem found_of_canonicalize
    {path location : Path}
    (hCanonical :
      tree.canonicalize links path = .ok location) :
    ∃ left,
      tree.lookup links path = .found location left := by
  unfold FileTree.canonicalize at hCanonical
  cases hLookup : tree.lookup links path with
  | found other left =>
      rw [hLookup] at hCanonical
      cases hCanonical
      exact ⟨left, rfl⟩
  | absent other =>
      rw [hLookup] at hCanonical
      cases hCanonical
  | failed error =>
      rw [hLookup] at hCanonical
      cases hCanonical

theorem found_of_pathExists
    {path : Path}
    (hExists : tree.pathExists links path = true) :
    ∃ location left,
      tree.lookup links path = .found location left := by
  unfold FileTree.pathExists at hExists
  cases hLookup : tree.lookup links path with
  | found location left => exact ⟨location, left, rfl⟩
  | absent location =>
      rw [hLookup] at hExists
      cases hExists
  | failed error =>
      rw [hLookup] at hExists
      cases hExists

theorem canonicalize_of_found
    {path : Path}
    {location : Location}
    {left : Nat}
    (hFound :
      tree.lookup links path = .found location left) :
    tree.canonicalize links path = .ok location := by
  unfold FileTree.canonicalize
  rw [hFound]

/- A path that may be read is canonical, in the workspace. -/
theorem FileReadSkill.resolvePath_ok
    {root : Location}
    {relative : String}
    {path : Path}
    (hResolve :
      FileReadSkill.resolvePath links tree root relative =
        .ok path) :
    root <+: path ∧
      tree.lookup links path = .found path links := by
  unfold FileReadSkill.resolvePath at hResolve
  cases hSafe : safeRelativePath relative with
  | error failure =>
      rw [hSafe] at hResolve
      cases hResolve
  | ok cleaned =>
      rw [hSafe] at hResolve
      dsimp only at hResolve
      cases hCanonical :
          tree.canonicalize links (root ++ cleaned) with
      | error error =>
          rw [hCanonical] at hResolve
          cases hResolve
      | ok location =>
          rw [hCanonical] at hResolve
          dsimp only at hResolve
          by_cases hInside : root <+: location
          · rw [if_pos hInside] at hResolve
            cases hResolve
            rcases found_of_canonicalize hCanonical with
              ⟨left, hFound⟩
            exact ⟨hInside, FileTree.lookup_location
              (FileTree.node_of_found hFound)⟩
          · rw [if_neg hInside] at hResolve
            cases hResolve

/- The skill answers with the content of the file it reads. -/
theorem FileReadSkill.execute_ok
    {root : Location}
    {args answer : Json}
    (hAnswer :
      FileReadSkill.execute links tree root args =
        .ok answer) :
    ∃ relative path bytes content,
      FileReadSkill.resolvePath links tree root relative =
          .ok path ∧
        tree.readFile links path = .ok bytes ∧
        String.fromUTF8? bytes = some content ∧
        answer.get "content" = some (.string content) := by
  unfold FileReadSkill.execute at hAnswer
  split at hAnswer
  · cases hAnswer
  · rename_i relative _
    split at hAnswer
    · cases hAnswer
    · rename_i path hPath
      split at hAnswer
      · cases hAnswer
      · rename_i bytes hBytes
        split at hAnswer
        · cases hAnswer
        · rename_i content hContent
          cases hAnswer
          exact ⟨relative, path, bytes, content, hPath, hBytes,
            hContent, rfl⟩

theorem readConfined
    (workspace : Workspace tree)
    (args : Json) :
    ReadConfined links workspace args := by
  intro answer hAnswer
  rcases FileReadSkill.execute_ok hAnswer with
    ⟨relative, path, bytes, content, hPath, hBytes, hContent,
      hGet⟩
  rcases FileReadSkill.resolvePath_ok hPath with
    ⟨hInside, hFound⟩
  refine ⟨path, bytes, content, hInside, ?_, hContent, hGet⟩
  unfold FileTree.readFile at hBytes
  rw [hFound] at hBytes
  dsimp only at hBytes
  split at hBytes
  · rename_i other hNode
    cases hBytes
    exact hNode
  · cases hBytes

------------------------------------------------------------
-- Writing
------------------------------------------------------------

/- Nothing below the nearest existing ancestor exists. -/
theorem nearestExistingAncestor_eq
    {path existing : Path}
    (hNearest :
      nearestExistingAncestor links tree path.reverse =
        some existing) :
    ∃ more, path = existing ++ more ∧
      tree.pathExists links existing = true ∧
      ∀ others, others <+: more → others ≠ [] →
        tree.pathExists links (existing ++ others) =
          false := by
  induction path using List.reverseRecOn with
  | nil =>
      rw [List.reverse_nil, nearestExistingAncestor] at hNearest
      split at hNearest
      · rename_i hExists
        cases hNearest
        refine ⟨[], rfl, hExists, ?_⟩
        intro others hOthers hSome
        exact absurd (List.prefix_nil.mp hOthers) hSome
      · cases hNearest
  | append_singleton parents name ih =>
      rw [List.reverse_append, List.reverse_singleton,
        List.singleton_append, nearestExistingAncestor,
        List.reverse_cons, List.reverse_reverse] at hNearest
      by_cases hExists :
          tree.pathExists links (parents ++ [name]) = true
      · rw [if_pos hExists] at hNearest
        cases hNearest
        refine ⟨[], by simp, hExists, ?_⟩
        intro others hOthers hSome
        exact absurd (List.prefix_nil.mp hOthers) hSome
      · rw [if_neg hExists] at hNearest
        rcases ih hNearest with
          ⟨more, hPath, hThere, hMissing⟩
        refine ⟨more ++ [name], by simp [hPath], hThere, ?_⟩
        intro others hOthers hSome
        rcases List.prefix_concat_iff.mp hOthers with
          hAll | hBefore
        · rw [hAll, ← List.append_assoc, ← hPath]
          simpa using hExists
        · exact hMissing others hBefore hSome

/- The nearest existing ancestor of a path without its file. -/
theorem nearestExistingAncestor_parent
    {parents : Path}
    {last : String}
    (hParents : tree.pathExists links parents = true)
    (hMissing :
      tree.pathExists links (parents ++ [last]) = false) :
    nearestExistingAncestor links tree
        (parents ++ [last]).reverse = some parents := by
  have hHere :
      nearestExistingAncestor links tree parents.reverse =
        some parents := by
    cases parents using List.reverseRecOn with
    | nil =>
        rw [List.reverse_nil, nearestExistingAncestor,
          if_pos hParents]
    | append_singleton above name =>
        rw [List.reverse_append, List.reverse_singleton,
          List.singleton_append, nearestExistingAncestor,
          List.reverse_cons, List.reverse_reverse,
          if_pos hParents]
  rw [List.reverse_append, List.reverse_singleton,
    List.singleton_append, nearestExistingAncestor,
    List.reverse_cons, List.reverse_reverse, hMissing]
  exact hHere

theorem FileWriteSkill.resolvePath_ok
    {root : Location}
    {relative : String}
    {path : Path}
    (hResolve :
      FileWriteSkill.resolvePath links tree root relative =
        .ok path) :
    ∃ cleaned existing location left,
      safeRelativePath relative = .ok cleaned ∧
        path = root ++ cleaned ∧
        nearestExistingAncestor links tree path.reverse =
          some existing ∧
        tree.lookup links existing = .found location left ∧
        root <+: location := by
  unfold FileWriteSkill.resolvePath at hResolve
  cases hSafe : safeRelativePath relative with
  | error failure =>
      rw [hSafe] at hResolve
      cases hResolve
  | ok cleaned =>
      rw [hSafe] at hResolve
      dsimp only at hResolve
      cases hNearest : nearestExistingAncestor links tree
          (root ++ cleaned).reverse with
      | none =>
          rw [hNearest] at hResolve
          cases hResolve
      | some existing =>
          rw [hNearest] at hResolve
          dsimp only at hResolve
          cases hCanonical :
              tree.canonicalize links existing with
          | error error =>
              rw [hCanonical] at hResolve
              cases hResolve
          | ok location =>
              rw [hCanonical] at hResolve
              dsimp only at hResolve
              by_cases hInside : root <+: location
              · rw [if_pos hInside] at hResolve
                cases hResolve
                rcases found_of_canonicalize hCanonical with
                  ⟨left, hFound⟩
                exact ⟨cleaned, existing, location, left, rfl,
                  rfl, hNearest, hFound, hInside⟩
              · rw [if_neg hInside] at hResolve
                cases hResolve

theorem cleaned_ne_nil
    {relative : String}
    {cleaned : Path}
    (hSafe : safeRelativePath relative = .ok cleaned) :
    cleaned ≠ [] := by
  unfold safeRelativePath at hSafe
  split at hSafe
  · cases hSafe
  · split at hSafe
    · cases hSafe
    · cases hSafe
    · rename_i hNil hCleaned
      cases hSafe
      exact hNil

/- Without the directories nothing is written. -/
theorem FileWriteSkill.writeFile_of_error
    {path : Path}
    {content : String}
    {error : OsError}
    {made : FileTree}
    (hCreate :
      tree.createDirAll links path.dropLast.reverse =
        (.error error, made)) :
    (FileWriteSkill.writeFile links tree path content).2 =
      made := by
  unfold FileWriteSkill.writeFile
  rw [hCreate]

theorem FileWriteSkill.writeFile_of_ok
    {path : Path}
    {content : String}
    {made : FileTree}
    (hCreate :
      tree.createDirAll links path.dropLast.reverse =
        (.ok (), made)) :
    (FileWriteSkill.writeFile links tree path content).2 =
      (made.write links path content.toUTF8).2 := by
  unfold FileWriteSkill.writeFile
  rw [hCreate]
  rcases hWrite : made.write links path content.toUTF8 with
    ⟨result, written⟩
  cases result with
  | error error =>
      dsimp only
      rw [hWrite]
  | ok _ =>
      dsimp only
      rw [hWrite]

section Writing

variable {root directory : Location}
variable {left : Nat}
variable {parents : Path}
variable {last name : String}
variable {content : String}
variable {other : Location}

/- The directories above a file exist already. -/
theorem createDirAll_above
    (last : String)
    (hFound :
      tree.lookup links parents = .found directory left) :
    tree.createDirAll links
        (parents ++ [last]).dropLast.reverse =
      if tree.isDir links parents then (.ok (), tree)
      else (.error .alreadyExists, tree) := by
  rw [List.dropLast_concat]
  exact FileTree.createDirAll_of_found hFound

/- Into a directory that exists only the file is written. -/
theorem changed_of_isDir
    (hDir : tree.isDir links parents = true)
    (hChanged :
      (FileWriteSkill.writeFile links tree
        (parents ++ [last]) content).2.node other ≠
          tree.node other) :
    (∃ left,
        tree.lookup links (parents ++ [last]) =
          .found other left) ∨
      tree.lookup links (parents ++ [last]) =
        .absent other := by
  have hFound : ∃ location left,
      tree.lookup links parents = .found location left := by
    apply found_of_pathExists
    by_contra hMissing
    rw [Bool.not_eq_true] at hMissing
    rw [FileTree.isDir_eq_false hMissing] at hDir
    cases hDir
  rcases hFound with ⟨location, left, hFound⟩
  have hCreate := createDirAll_above last hFound
  rw [if_pos hDir] at hCreate
  rw [FileWriteSkill.writeFile_of_ok hCreate] at hChanged
  exact FileTree.lookup_of_write_ne hChanged

/- A file that is there is changed where it is. -/
theorem changed_of_found
    (hFound :
      tree.lookup links (parents ++ [last]) =
        .found directory left)
    (hChanged :
      (FileWriteSkill.writeFile links tree
        (parents ++ [last]) content).2.node other ≠
          tree.node other) :
    other = directory := by
  rcases FileTree.lookup_prefix hFound (by simp) with
    ⟨parent, spare, hParents, hNode, _⟩
  have hDir := FileTree.isDir_eq_true hParents hNode
  rcases changed_of_isDir hDir hChanged with
    ⟨_, hOther⟩ | hOther
  · rw [hFound] at hOther
    cases hOther
    rfl
  · rw [hFound] at hOther
    cases hOther

/- In a new place everything is made below that place. -/
theorem changed_of_fresh
    {existing more : Path}
    (hExisting :
      tree.lookup links existing = .found directory left)
    (hNode : tree.node directory = some .directory)
    (hNone : tree.node (directory ++ [name]) = none)
    (hChanged :
      (FileWriteSkill.writeFile links tree
        (existing ++ name :: more) content).2.node other ≠
          tree.node other) :
    directory ++ [name] <+: other := by
  have hGrown := FileTree.grown_refl hNone
  cases more using List.reverseRecOn with
  | nil =>
      have hDir := FileTree.isDir_eq_true hExisting hNode
      have hCreate := createDirAll_above name hExisting
      rw [if_pos hDir] at hCreate
      rw [FileWriteSkill.writeFile_of_ok hCreate] at hChanged
      exact hGrown.write hExisting hNode [] _ other hChanged
  | append_singleton names final =>
      have hSplit : existing ++ name :: (names ++ [final]) =
          (existing ++ name :: names) ++ [final] := by
        simp
      have hMade :=
        hGrown.createDirAll hExisting hNode names
      have hParent :
          (existing ++ name :: (names ++ [final])).dropLast =
            existing ++ name :: names := by
        rw [hSplit, List.dropLast_concat]
      rw [← hParent] at hMade
      rcases hCreate : tree.createDirAll links
          (existing ++ name :: (names ++ [final])).dropLast.reverse
        with ⟨result, made⟩
      rw [hCreate] at hMade
      cases result with
      | error error =>
          rw [FileWriteSkill.writeFile_of_error hCreate]
            at hChanged
          exact hMade.within other hChanged
      | ok _ =>
          rw [FileWriteSkill.writeFile_of_ok hCreate]
            at hChanged
          exact hMade.write hExisting hNode _ _ other hChanged

/- Below a file or a dangling link nothing is made. -/
theorem unchanged_of_blocked
    {existing names : Path}
    (hExisting :
      tree.lookup links existing = .found directory left)
    (hBlocked : tree.node directory ≠ some .directory ∨
      tree.node (directory ++ [name]) ≠ none)
    (hMissing : ∀ others, others <+: name :: names →
      others ≠ [] →
        tree.pathExists links (existing ++ others) = false) :
    (FileWriteSkill.writeFile links tree
      (existing ++ name :: (names ++ [last]))
        content).2 = tree := by
  have hSplit : existing ++ name :: (names ++ [last]) =
      (existing ++ name :: names) ++ [last] := by
    simp
  rcases FileTree.createDirAll_blocked hExisting hBlocked names
      (fun others hOthers =>
        hMissing (name :: others)
          (List.cons_prefix_cons.mpr ⟨rfl, hOthers⟩)
          (by simp)) with ⟨error, hCreate⟩
  have hParent :
      (existing ++ name :: (names ++ [last])).dropLast =
        existing ++ name :: names := by
    rw [hSplit, List.dropLast_concat]
  rw [← hParent] at hCreate
  exact FileWriteSkill.writeFile_of_error hCreate

/- A file cannot be written into a file. -/
theorem unchanged_of_file
    {existing : Path}
    (hExisting :
      tree.lookup links existing = .found directory left)
    (hNode : tree.node directory ≠ some .directory) :
    (FileWriteSkill.writeFile links tree
      (existing ++ [last]) content).2 = tree := by
  have hNotDir : tree.isDir links existing = false := by
    unfold FileTree.isDir
    rw [hExisting]
    simpa using hNode
  have hCreate := createDirAll_above last hExisting
  rw [hNotDir] at hCreate
  exact FileWriteSkill.writeFile_of_error hCreate

end Writing

/- What stands in the place of a name that leads nowhere. -/
theorem link_of_missing
    {existing : Path}
    {name : String}
    {directory : Location}
    {left : Nat}
    (hExisting :
      tree.lookup links existing = .found directory left)
    (hNode : tree.node directory = some .directory)
    (hThere : tree.node (directory ++ [name]) ≠ none)
    (hMissing :
      tree.pathExists links (existing ++ [name]) = false) :
    ∃ target,
      tree.node (directory ++ [name]) = some (.link target) := by
  have hNotFound : ¬ (tree.node (directory ++ [name]) =
        some .directory ∨
      ∃ bytes,
        tree.node (directory ++ [name]) =
          some (.file bytes)) := by
    intro hFound
    have hLookup :=
      FileTree.lookup_concat hExisting hNode hFound
    rw [FileTree.pathExists_of_found hLookup] at hMissing
    cases hMissing
  cases hHere : tree.node (directory ++ [name]) with
  | none => exact absurd hHere hThere
  | some node =>
      cases node with
      | directory => exact absurd (.inl hHere) hNotFound
      | file bytes =>
          exact absurd (.inr ⟨bytes, hHere⟩) hNotFound
      | link target => exact ⟨target, rfl⟩

/- A write that is allowed stays inside but for one case. -/
theorem writeFile_within
    {root directory other : Location}
    {names existing : Path}
    {left : Nat}
    {content : String}
    (hNames : names ≠ [])
    (hNearest :
      nearestExistingAncestor links tree
          (root ++ names).reverse = some existing)
    (hExisting :
      tree.lookup links existing = .found directory left)
    (hInside : root <+: directory)
    (hNoEscape : ¬ EscapesThroughLink links tree root names)
    (hChanged :
      (FileWriteSkill.writeFile links tree (root ++ names)
        content).2.node other ≠ tree.node other) :
    root <+: other := by
  rcases nearestExistingAncestor_eq hNearest with
    ⟨more, hPath, _, hMissing⟩
  rcases List.eq_nil_or_concat names with
    hNil | ⟨parents, last, hConcat⟩
  · exact absurd hNil hNames
  rw [List.concat_eq_append] at hConcat
  rcases List.eq_nil_or_concat more with
    hNone | ⟨before, final, hMore⟩
  · -- the file exists
    rw [hNone, List.append_nil] at hPath
    rw [← hPath, hConcat, ← List.append_assoc] at hExisting
    rw [hConcat, ← List.append_assoc] at hChanged
    rw [changed_of_found hExisting hChanged]
    exact hInside
  rw [List.concat_eq_append] at hMore
  rw [hPath, hMore] at hChanged
  cases before with
  | nil =>
      rw [List.nil_append] at hMore hChanged
      by_cases hNode : tree.node directory = some .directory
      · by_cases hThere : tree.node (directory ++ [final]) = none
        · -- the file is new
          exact hInside.trans ((List.prefix_append _ _).trans
            (changed_of_fresh hExisting hNode hThere hChanged))
        · -- a link in the place of the file leads nowhere
          have hGone := hMissing [final] (by simp [hMore])
            (by simp)
          rcases link_of_missing hExisting hNode hThere hGone
            with ⟨target, hLink⟩
          have hDir := FileTree.isDir_eq_true hExisting hNode
          rcases changed_of_isDir hDir hChanged with
            ⟨_, hFound⟩ | hAbsent
          · rw [FileTree.pathExists_of_found hFound] at hGone
            cases hGone
          · by_contra hOutside
            apply hNoEscape
            have hSame : (root ++ parents) ++ [last] =
                existing ++ [final] := by
              rw [List.append_assoc, ← hConcat, hPath, hMore]
            rcases List.append_inj' hSame rfl with
              ⟨hParents, hLast⟩
            cases hLast
            refine ⟨parents, last, directory, left, target,
              other, hConcat, ?_, hInside, hLink, ?_, hOutside⟩
            · rw [hParents]
              exact hExisting
            · rw [hPath, hMore]
              exact hAbsent
      · rw [unchanged_of_file hExisting hNode] at hChanged
        exact absurd rfl hChanged
  | cons name rest =>
      rw [List.cons_append] at hMore hChanged
      by_cases hFresh :
          tree.node directory = some .directory ∧
            tree.node (directory ++ [name]) = none
      · exact hInside.trans ((List.prefix_append _ _).trans
          (changed_of_fresh hExisting hFresh.1 hFresh.2
            hChanged))
      · have hBlocked :
            tree.node directory ≠ some .directory ∨
              tree.node (directory ++ [name]) ≠ none := by
          by_contra hNot
          push Not at hNot
          exact hFresh hNot
        rw [unchanged_of_blocked hExisting hBlocked]
          at hChanged
        · exact absurd rfl hChanged
        · intro others hOthers hSome
          apply hMissing others _ hSome
          rw [hMore]
          exact hOthers.trans ⟨[final], by simp⟩

theorem FileWriteSkill.execute_changes
    {root other : Location}
    {args : Json}
    (hChanged :
      (FileWriteSkill.execute links tree root
        args).2.node other ≠ tree.node other) :
    ∃ relative content path,
      (args.get "path").bind Json.asStr = some relative ∧
        (args.get "content").bind Json.asStr =
          some content ∧
        FileWriteSkill.resolvePath links tree root relative =
          .ok path ∧
        (FileWriteSkill.writeFile links tree path
          content).2.node other ≠ tree.node other := by
  unfold FileWriteSkill.execute at hChanged
  cases hRelative : (args.get "path").bind Json.asStr with
  | none =>
      rw [hRelative] at hChanged
      exact absurd rfl hChanged
  | some relative =>
      rw [hRelative] at hChanged
      dsimp only at hChanged
      cases hContent :
          (args.get "content").bind Json.asStr with
      | none =>
          rw [hContent] at hChanged
          exact absurd rfl hChanged
      | some content =>
          rw [hContent] at hChanged
          dsimp only at hChanged
          cases hResolve : FileWriteSkill.resolvePath links
              tree root relative with
          | error failure =>
              rw [hResolve] at hChanged
              exact absurd rfl hChanged
          | ok path =>
              rw [hResolve] at hChanged
              exact ⟨relative, content, path, rfl, rfl, hResolve,
                hChanged⟩

/- A dangling link out of the workspace is written through. -/
theorem execute_of_writesThroughLink
    {workspace : Workspace tree}
    {args : Json}
    (hWrites : WritesThroughLink links workspace args) :
    ∃ outside,
      ¬ workspace.root <+: outside ∧
        (FileWriteSkill.execute links tree workspace.root
          args).2.node outside ≠ tree.node outside := by
  rcases hWrites with ⟨relative, content, names, hRelative,
    hContent, hSafe, parents, last, directory, left, target,
    outside, hNames, hParents, hInside, hLink, hAbsent,
    hOutside⟩
  refine ⟨outside, hOutside, ?_⟩
  have hNode : tree.node directory = some .directory := by
    apply tree.closed directory last
    rw [hLink]
    simp
  have hMissing :
      tree.pathExists links
        ((workspace.root ++ parents) ++ [last]) = false := by
    unfold FileTree.pathExists
    rw [List.append_assoc, ← hNames, hAbsent]
  have hNearest :=
    nearestExistingAncestor_parent
      (FileTree.pathExists_of_found hParents) hMissing
  rw [List.append_assoc, ← hNames] at hNearest
  have hResolve :
      FileWriteSkill.resolvePath links tree workspace.root
        relative = .ok (workspace.root ++ names) := by
    unfold FileWriteSkill.resolvePath
    rw [hSafe]
    dsimp only
    rw [hNearest]
    dsimp only
    rw [canonicalize_of_found hParents]
    dsimp only
    rw [if_pos hInside]
  have hCreate := createDirAll_above last hParents
  rw [if_pos (FileTree.isDir_eq_true hParents hNode),
    List.append_assoc, ← hNames] at hCreate
  rcases FileTree.writable_of_absent hAbsent with
    ⟨hWritable, hNone⟩
  unfold FileWriteSkill.execute
  rw [hRelative]
  dsimp only
  rw [hContent]
  dsimp only
  rw [hResolve]
  dsimp only
  rw [FileWriteSkill.writeFile_of_ok hCreate]
  unfold FileTree.write
  rw [hAbsent]
  dsimp only
  rw [FileTree.put_node, if_pos ⟨rfl, hWritable⟩, hNone]
  simp

end Confinement

/-
  The skills stay in the workspace exactly when the arguments
  do not ask for a write through a dangling link out of it.
-/
theorem workspace_confined_iff
    (links : Nat)
    {tree : FileTree}
    (workspace : Workspace tree)
    (args : Json) :
    ReadConfined links workspace args ∧
        WriteConfined links workspace args ↔
      ¬ WritesThroughLink links workspace args := by
  constructor
  · intro hConfined hWrites
    rcases execute_of_writesThroughLink hWrites with
      ⟨outside, hOutside, hChanged⟩
    exact hOutside (hConfined.2 outside hChanged)
  · intro hNoLink
    refine ⟨readConfined workspace args, ?_⟩
    intro other hChanged
    rcases FileWriteSkill.execute_changes hChanged with
      ⟨relative, content, path, hRelative, hContent, hResolve,
        hWritten⟩
    rcases FileWriteSkill.resolvePath_ok hResolve with
      ⟨names, existing, directory, left, hSafe, hPath,
        hNearest, hExisting, hInside⟩
    subst hPath
    apply writeFile_within (cleaned_ne_nil hSafe) hNearest
      hExisting hInside _ hWritten
    intro hEscapes
    exact hNoLink ⟨relative, content, names, hRelative,
      hContent, hSafe, hEscapes⟩

/- A link in the workspace that leads beside the workspace. -/
def danglingTree : FileTree where
  node := fun location =>
    if location = [] then some .directory
    else if location = ["workspace"] then some .directory
    else if location = ["workspace", "notes"] then
      some (.link ⟨true, [.name "secret"]⟩)
    else none
  root := rfl
  closed := by
    intro location name hThere
    by_cases hRoot : location = []
    · simp [hRoot]
    · by_cases hWorkspace : location = ["workspace"]
      · simp [hWorkspace]
      · exfalso
        apply hThere
        rcases location with _ | ⟨first, _ | ⟨second, rest⟩⟩
        · exact absurd rfl hRoot
        · have hFirst : first ≠ "workspace" := by
            simpa using hWorkspace
          simp [hFirst]
        · simp

/- The file is created outside of the workspace. -/
theorem notes_written_outside :
    let written :=
      (FileWriteSkill.execute 40 danglingTree ["workspace"]
        (.object [("path", .string "notes"),
          ("content", .string "text")])).2
    danglingTree.node ["workspace"] = some .directory ∧
      danglingTree.node ["secret"] = none ∧
      written.node ["secret"] =
        some (.file "text".toUTF8) ∧
      ¬ ["workspace"] <+: ["secret"] := by
  refine ⟨rfl, rfl, rfl, by decide⟩
end RainEngine.Skills
