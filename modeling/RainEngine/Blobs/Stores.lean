import RainEngine.Kernel.Contents
import RainEngine.Skills.FileOps
import RainEngine.Texts.Paths

/-
  This file models the two stores of attachments. The store in
  memory gives back what was put. The store in a directory
  keeps the data of an attachment alone: what it gives back
  never has the mime type and file name that were put.

  Key definitions include:
    * `BlobStore`
    * `inMemoryBlobStore`
    * `LocalFileBlobStore`
    * `storedPath`
    * `Faithful`

  Key theorems include:
    * `inMemory_faithful_iff`
    * `local_get_ne`
    * `blob_stores_faithful_iff`
-/

namespace RainEngine.Blobs

open Files (FileTree Location Resolution Component OsError)
open Paths (segments isAbsolute push fileName setFileName)

------------------------------------------------------------
-- Stores
------------------------------------------------------------

structure BlobStoreError where
  message : String
deriving DecidableEq

/- What is put, with the identifiers that are drawn for it. -/
structure Upload where
  attachmentId : String
  payload : MultimodalPayload
  pathUuid : String
  nameUuid : String

/- `AttachmentRef::blob`. -/
def blobRef
    (upload : Upload)
    (descriptor : BlobDescriptor) :
    AttachmentRef where
  attachmentId := upload.attachmentId
  mimeType := upload.payload.mimeType
  fileName := upload.payload.fileName
  sizeBytes := descriptor.sizeBytes
  content := .blob descriptor

/-
  A store with states in `S`, and when one state has nothing
  changed outside of the store.
-/
structure BlobStore (S : Type) where
  put : S → Upload → Except BlobStoreError AttachmentRef × S
  get :
    S → BlobDescriptor → Except BlobStoreError MultimodalPayload
  spares : S → S → Prop

------------------------------------------------------------
-- The Store In Memory
------------------------------------------------------------

abbrev BlobValues : Type :=
  String → Option MultimodalPayload

def memoryUri (upload : Upload) : String :=
  "memory://" ++ upload.pathUuid

def inMemoryBlobStore : BlobStore BlobValues where
  put values upload :=
    let uri := memoryUri upload
    (.ok (blobRef upload
        { uri := uri
          sizeBytes := upload.payload.data.length }),
      fun other =>
        if other = uri then some upload.payload
        else values other)
  get values descriptor :=
    match values descriptor.uri with
    | some payload => .ok payload
    | none => .error ⟨"blob not found"⟩
  spares _ _ := True

------------------------------------------------------------
-- The Store In A Directory
------------------------------------------------------------

/- The store's directory, and where its paths start from. -/
structure LocalFileBlobStore where
  root : List Char
  links : Nat
  workingDirectory : Location

/- A segment of a path, as it is followed. -/
def component (segment : List Char) : Component :=
  if Paths.isBlank segment then .current
  else if segment = ['.', '.'] then .parent
  else .name (String.ofList segment)

namespace LocalFileBlobStore

variable (store : LocalFileBlobStore)

def resolve
    (tree : FileTree)
    (path : List Char) :
    Resolution :=
  if path = [] then .failed .notFound
  else
    tree.resolve store.links
      (if isAbsolute path then []
        else store.workingDirectory)
      ((segments path).map component)

def nulByteText : String :=
  "file name contained an unexpected NUL byte"

/- `fs::write`. -/
def writePath
    (tree : FileTree)
    (path : List Char)
    (data : List UInt8) :
    Except String Unit × FileTree :=
  if '\x00' ∈ path then (.error nulByteText, tree)
  else
    match store.resolve tree path with
    | .found location _ =>
        if tree.node location = some .directory then
          (.error (Skills.osErrorText .isDirectory), tree)
        else
          (.ok (), tree.put location (.file ⟨data.toArray⟩))
    | .absent location =>
        (.ok (), tree.put location (.file ⟨data.toArray⟩))
    | .failed error => (.error (Skills.osErrorText error), tree)

/- `fs::read`. -/
def readPath
    (tree : FileTree)
    (path : List Char) :
    Except String (List UInt8) :=
  if '\x00' ∈ path then .error nulByteText
  else
    match store.resolve tree path with
    | .found location _ =>
        match tree.node location with
        | some (.file bytes) => .ok bytes.data.toList
        | _ => .error (Skills.osErrorText .isDirectory)
    | .absent _ => .error (Skills.osErrorText .notFound)
    | .failed error => .error (Skills.osErrorText error)

def uriForPath (path : List Char) : String :=
  "file://" ++ String.ofList path

def pathFromUri
    (uri : String) :
    Except BlobStoreError (List Char) :=
  if "file://".toList <+: uri.toList then
    .ok (uri.toList.drop "file://".toList.length)
  else .error ⟨"unsupported local blob uri"⟩

/- The path of what is put, under one name or another. -/
def storedPath (upload : Upload) : List Char :=
  let path := push store.root
    (upload.attachmentId ++ "_" ++ upload.pathUuid).toList
  match upload.payload.fileName with
  | none => path
  | some name =>
      setFileName path
        (upload.attachmentId ++ "_" ++ upload.nameUuid ++
          "_" ++ name).toList

def put
    (tree : FileTree)
    (upload : Upload) :
    Except BlobStoreError AttachmentRef × FileTree :=
  let path := store.storedPath upload
  match store.writePath tree path upload.payload.data with
  | (.error message, tree) => (.error ⟨message⟩, tree)
  | (.ok (), tree) =>
      (.ok (blobRef upload
        { uri := uriForPath path
          sizeBytes := upload.payload.data.length }), tree)

def get
    (tree : FileTree)
    (descriptor : BlobDescriptor) :
    Except BlobStoreError MultimodalPayload :=
  match pathFromUri descriptor.uri with
  | .error error => .error error
  | .ok path =>
      match store.readPath tree path with
      | .error message => .error ⟨message⟩
      | .ok data =>
          .ok
            { mimeType := "application/octet-stream"
              fileName := (fileName path).map String.ofList
              data := data }

/- What is not below the directory of the store is kept. -/
def Spares (before after : FileTree) : Prop :=
  ∀ location,
    (∀ root left,
      store.resolve before store.root = .found root left →
        ¬root <+: location) →
      after.node location = before.node location

def blobStore : BlobStore FileTree where
  put := store.put
  get := store.get
  spares := store.Spares

end LocalFileBlobStore

------------------------------------------------------------
-- Faithful Stores
------------------------------------------------------------

section Runs

variable {S : Type}
variable (store : BlobStore S)

/- The state after a sequence of puts. -/
def BlobStore.after (s : S) (uploads : List Upload) : S :=
  uploads.foldl (fun s upload => (store.put s upload).2) s

/- The put of an upload in a state returns the descriptor. -/
def BlobStore.Returns
    (s : S)
    (upload : Upload)
    (descriptor : BlobDescriptor) :
    Prop :=
  ∃ reference, (store.put s upload).1 = .ok reference ∧
    reference.content = .blob descriptor

/- Some put of a sequence returns the descriptor. -/
def BlobStore.Returned
    (s : S)
    (uploads : List Upload)
    (descriptor : BlobDescriptor) :
    Prop :=
  ∃ before upload rest,
    uploads = before ++ upload :: rest ∧
      store.Returns (store.after s before) upload descriptor

/-
  Over a sequence of puts each one succeeds, and its payload
  is given back for its descriptor from then on; nothing is
  changed outside of the store; and a descriptor that was not
  returned is not answered.
-/
structure Faithful
    (s : S)
    (uploads : List Upload)
    (query : BlobDescriptor) :
    Prop where
  puts : ∀ before upload rest,
    uploads = before ++ upload :: rest →
      ∃ descriptor,
        store.Returns (store.after s before) upload
          descriptor ∧
        ∀ more, more <+: rest →
          store.get
              (store.after s (before ++ upload :: more))
              descriptor =
            .ok upload.payload
  spares : store.spares s (store.after s uploads)
  others : ¬store.Returned s uploads query →
    ∃ error,
      store.get (store.after s uploads) query = .error error

end Runs

/- `Uuid::new_v4`, as it is printed. -/
def IsUuid (text : String) : Prop :=
  text.toList.length = 36 ∧
    ∀ c ∈ text.toList, c ∈ "0123456789abcdef-".toList

/- The identifiers that are drawn are well formed and new. -/
structure FreshUuids (uploads : List Upload) : Prop where
  wellFormed : ∀ upload ∈ uploads,
    IsUuid upload.pathUuid ∧ IsUuid upload.nameUuid
  distinct :
    (uploads.flatMap fun upload =>
      [upload.pathUuid, upload.nameUuid]).Nodup

------------------------------------------------------------
-- Puts In Memory
------------------------------------------------------------

section Memory

variable {values : BlobValues}
variable {uploads : List Upload}
variable {upload other : Upload}

def memoryDescriptor (upload : Upload) : BlobDescriptor where
  uri := memoryUri upload
  sizeBytes := upload.payload.data.length

theorem after_append
    {S : Type}
    (store : BlobStore S)
    (s : S)
    (before rest : List Upload) :
    store.after s (before ++ rest) =
      store.after (store.after s before) rest :=
  List.foldl_append

/- A value changes only if its name is drawn again. -/
theorem memory_unchanged
    {uri : String}
    (hOther : ∀ upload ∈ uploads, memoryUri upload ≠ uri) :
    inMemoryBlobStore.after values uploads uri =
      values uri := by
  induction uploads generalizing values with
  | nil => rfl
  | cons upload rest ih =>
      rw [List.forall_mem_cons] at hOther
      show inMemoryBlobStore.after _ rest uri = _
      rw [ih hOther.2]
      exact if_neg (Ne.symm hOther.1)

theorem memoryUri_inj
    (hSame : memoryUri upload = memoryUri other) :
    upload.pathUuid = other.pathUuid :=
  (String.append_right_inj "memory://").mp hSame

/- Later uploads have other names. -/
theorem memoryUri_ne
    {before rest : List Upload}
    (hFresh : FreshUuids (before ++ upload :: rest))
    (hMem : other ∈ rest) :
    memoryUri other ≠ memoryUri upload := by
  intro hSame
  have hDistinct := hFresh.distinct
  rw [List.flatMap_append, List.flatMap_cons] at hDistinct
  have hTail := (List.nodup_append.mp hDistinct).2.1
  apply (List.nodup_cons.mp hTail).1
  rw [← memoryUri_inj hSame]
  apply List.mem_cons_of_mem
  exact List.mem_flatMap.mpr
    ⟨other, hMem, List.mem_cons_self⟩

/- A payload is there as long as its name is not drawn. -/
theorem memory_kept
    {before rest more : List Upload}
    (hFresh : FreshUuids (before ++ upload :: rest))
    (hMore : more <+: rest) :
    inMemoryBlobStore.after values
        (before ++ upload :: more) (memoryUri upload) =
      some upload.payload := by
  rw [after_append]
  show inMemoryBlobStore.after _ more _ = _
  rw [memory_unchanged]
  · exact if_pos rfl
  · intro other hMem
    exact memoryUri_ne hFresh (hMore.subset hMem)

theorem memory_returns_iff
    {descriptor : BlobDescriptor} :
    inMemoryBlobStore.Returns values upload descriptor ↔
      descriptor = memoryDescriptor upload := by
  constructor
  · intro hReturns
    obtain ⟨reference, hPut, hContent⟩ := hReturns
    rw [← Except.ok.inj hPut] at hContent
    exact (AttachmentContent.blob.inj hContent).symm
  · intro hSame
    rw [hSame]
    exact ⟨_, rfl, rfl⟩

theorem memory_get
    {descriptor : BlobDescriptor}
    {payload : MultimodalPayload}
    (hValue : values descriptor.uri = some payload) :
    inMemoryBlobStore.get values descriptor =
      .ok payload := by
  unfold inMemoryBlobStore
  simp only [hValue]

/-
  The store in memory is faithful, but for descriptors that
  were returned with another size.
-/
theorem inMemory_faithful_iff
    {query : BlobDescriptor}
    (hFresh : FreshUuids uploads) :
    Faithful inMemoryBlobStore (fun _ => none) uploads
        query ↔
      ∀ upload ∈ uploads, query.uri = memoryUri upload →
        query.sizeBytes = upload.payload.data.length := by
  have hKept : ∀ before upload rest,
      uploads = before ++ upload :: rest →
      ∀ more, more <+: rest →
        inMemoryBlobStore.after (fun _ => none)
            (before ++ upload :: more) (memoryUri upload) =
          some upload.payload := by
    intro before upload rest hUploads more hMore
    rw [hUploads] at hFresh
    exact memory_kept hFresh hMore
  constructor
  · intro hFaithful upload hMem hUri
    obtain ⟨before, rest, hUploads⟩ :=
      List.append_of_mem hMem
    have hValue := hKept before upload rest hUploads rest
      (List.prefix_refl _)
    rw [← hUploads, ← hUri] at hValue
    by_cases hReturned :
        inMemoryBlobStore.Returned (fun _ => none) uploads
          query
    · obtain ⟨front, other, back, hSplit, hReturns⟩ :=
        hReturned
      have hOther := hKept front other back hSplit back
        (List.prefix_refl _)
      have hQuery := memory_returns_iff.mp hReturns
      have hName : query.uri = memoryUri other := by
        rw [hQuery]
        rfl
      rw [← hSplit, ← hName, hValue] at hOther
      rw [Option.some.inj hOther, hQuery]
      rfl
    · obtain ⟨error, hError⟩ := hFaithful.others hReturned
      rw [memory_get hValue] at hError
      cases hError
  · intro hSizes
    refine ⟨?_, trivial, ?_⟩
    · intro before upload rest hUploads
      refine ⟨memoryDescriptor upload,
        memory_returns_iff.mpr rfl, ?_⟩
      intro more hMore
      exact memory_get
        (hKept before upload rest hUploads more hMore)
    · intro hReturned
      have hNone : ∀ upload ∈ uploads,
          memoryUri upload ≠ query.uri := by
        intro upload hMem hUri
        obtain ⟨before, rest, hUploads⟩ :=
          List.append_of_mem hMem
        apply hReturned
        refine ⟨before, upload, rest, hUploads, ?_⟩
        apply memory_returns_iff.mpr
        unfold memoryDescriptor
        rw [hUri, ← hSizes upload hMem hUri.symm]
      refine ⟨⟨"blob not found"⟩, ?_⟩
      have hMissing := @memory_unchanged (fun _ => none)
        uploads query.uri hNone
      unfold inMemoryBlobStore at hMissing ⊢
      simp only [hMissing]

end Memory

------------------------------------------------------------
-- Puts In A Directory
------------------------------------------------------------

section Directory

variable {store : LocalFileBlobStore}
variable {tree later : FileTree}
variable {uploads : List Upload}
variable {upload : Upload}
variable {descriptor query : BlobDescriptor}

theorem pathFromUri_uriForPath
    (path : List Char) :
    LocalFileBlobStore.pathFromUri
        (LocalFileBlobStore.uriForPath path) =
      .ok path := by
  unfold LocalFileBlobStore.pathFromUri
    LocalFileBlobStore.uriForPath
  rw [String.toList_append, String.toList_ofList,
    if_pos (List.prefix_append _ _), List.drop_left,
    String.toList_ofList]

theorem uuid_noslash
    {text : String}
    (hUuid : IsUuid text) :
    '/' ∉ text.toList := by
  intro hMem
  have hDigit := hUuid.2 _ hMem
  revert hDigit
  decide

/- A name with an underscore is neither blank nor a parent. -/
theorem name_of_underscore
    {segment : List Char}
    (hMem : '_' ∈ segment) :
    Paths.isBlank segment = false ∧ segment ≠ ['.', '.'] := by
  constructor
  · unfold Paths.isBlank
    rw [Bool.or_eq_false_iff, decide_eq_false_iff_not,
      decide_eq_false_iff_not]
    constructor
    · intro hEmpty
      rw [hEmpty] at hMem
      cases hMem
    · intro hDot
      rw [hDot] at hMem
      revert hMem
      decide
  · intro hDots
    rw [hDots] at hMem
    revert hMem
    decide

theorem toList_underscore
    (front tail : String) :
    (front ++ "_" ++ tail).toList =
      front.toList ++ '_' :: tail.toList := by
  rw [String.toList_append, String.toList_append,
    List.append_assoc]
  rfl

/-
  A pushed text ending in an underscore and a text without a
  slash has them in its file name.
-/
theorem fileName_push
    {base text tail : List Char}
    (hTail : '/' ∉ tail) :
    ∃ last,
      fileName (push base (text ++ '_' :: tail)) =
        some (last ++ '_' :: tail) := by
  have hNoSlash : '/' ∉ '_' :: tail := by
    rw [List.mem_cons, not_or]
    exact ⟨by decide, hTail⟩
  obtain ⟨others, last, hText⟩ :=
    @Paths.segments_append_tail text _ hNoSlash
  obtain ⟨before, hPush⟩ :=
    @Paths.segments_push (text ++ '_' :: tail) base
  rw [hText, ← List.append_assoc] at hPush
  have hName := @name_of_underscore (last ++ '_' :: tail)
    (List.mem_append_right _ List.mem_cons_self)
  exact ⟨last,
    Paths.fileName_of_segments hPush hName.1 hName.2⟩

/- What is stored never has the name that was uploaded. -/
theorem fileName_storedPath
    (hUuids :
      IsUuid upload.pathUuid ∧ IsUuid upload.nameUuid) :
    (fileName (store.storedPath upload)).map String.ofList ≠
      upload.payload.fileName := by
  have hFirst : ∃ name,
      fileName (push store.root
        (upload.attachmentId ++ "_" ++
          upload.pathUuid).toList) = some name := by
    obtain ⟨last, hName⟩ := @fileName_push store.root
      upload.attachmentId.toList _ (uuid_noslash hUuids.1)
    rw [toList_underscore]
    exact ⟨_, hName⟩
  obtain ⟨name, hName⟩ := hFirst
  intro hSame
  unfold LocalFileBlobStore.storedPath at hSame
  cases hUploaded : upload.payload.fileName with
  | none =>
      rw [hUploaded] at hSame
      simp only [hName] at hSame
      cases hSame
  | some uploaded =>
      rw [hUploaded] at hSame
      simp only [setFileName, hName] at hSame
      obtain ⟨stored, hStored, hText⟩ :=
        Option.map_eq_some_iff.mp hSame
      have hChars : stored = uploaded.toList := by
        rw [← hText, String.toList_ofList]
      have hNoSlash := Paths.fileName_noslash hStored
      rw [hChars] at hNoSlash hStored
      obtain ⟨last, hLast⟩ := @fileName_push
        (Paths.parent (push store.root
          (upload.attachmentId ++ "_" ++
            upload.pathUuid).toList))
        (upload.attachmentId ++ "_" ++
          upload.nameUuid).toList _ hNoSlash
      rw [toList_underscore _ uploaded] at hStored
      have hLonger := Option.some.inj
        (hLast.symm.trans hStored)
      have hLength := congrArg List.length hLonger
      rw [List.length_append, List.length_cons] at hLength
      omega

/- A descriptor that is returned has the path in its URI. -/
theorem local_returns
    (hReturns :
      store.blobStore.Returns tree upload descriptor) :
    descriptor.uri =
      LocalFileBlobStore.uriForPath
        (store.storedPath upload) := by
  obtain ⟨reference, hPut, hContent⟩ := hReturns
  have hResult : (store.put tree upload).1 =
      .ok reference :=
    hPut
  unfold LocalFileBlobStore.put at hResult
  cases hWrite :
      store.writePath tree (store.storedPath upload)
        upload.payload.data with
  | mk outcome written =>
      dsimp only at hResult
      rw [hWrite] at hResult
      cases outcome with
      | error message => cases hResult
      | ok done =>
          cases hResult
          cases hContent
          rfl

/- No put of the directory store is given back as it was. -/
theorem local_get_ne
    (hUuids :
      IsUuid upload.pathUuid ∧ IsUuid upload.nameUuid)
    (hReturns :
      store.blobStore.Returns tree upload descriptor) :
    store.get later descriptor ≠ .ok upload.payload := by
  intro hGet
  unfold LocalFileBlobStore.get at hGet
  rw [local_returns hReturns,
    pathFromUri_uriForPath] at hGet
  cases hRead :
      store.readPath later (store.storedPath upload) with
  | error message =>
      simp only [hRead] at hGet
      cases hGet
  | ok data =>
      simp only [hRead] at hGet
      have hName := congrArg MultimodalPayload.fileName
        (Except.ok.inj hGet)
      exact fileName_storedPath hUuids hName

/- No file can be read under the URI. -/
def Unreadable
    (store : LocalFileBlobStore)
    (tree : FileTree)
    (uri : String) :
    Prop :=
  ∀ path, LocalFileBlobStore.pathFromUri uri = .ok path →
    ∃ message, store.readPath tree path = .error message

theorem local_get_error_iff :
    (∃ error, store.get tree query = .error error) ↔
      Unreadable store tree query.uri := by
  unfold LocalFileBlobStore.get Unreadable
  cases hPath : LocalFileBlobStore.pathFromUri query.uri with
  | error error =>
      constructor
      · intro _ path hOk
        cases hOk
      · exact fun _ => ⟨error, rfl⟩
  | ok path =>
      cases hRead : store.readPath tree path with
      | error message =>
          constructor
          · intro _ other hOk
            rw [← Except.ok.inj hOk]
            exact ⟨message, hRead⟩
          · intro _
            refine ⟨⟨message⟩, ?_⟩
            simp only [hRead]
      | ok data =>
          constructor
          · intro hError
            obtain ⟨error, hError⟩ := hError
            simp only [hRead] at hError
            cases hError
          · intro hUnreadable
            obtain ⟨message, hError⟩ := hUnreadable path rfl
            rw [hRead] at hError
            cases hError

/-
  The store in a directory is faithful as long as nothing is
  put and nothing can be read.
-/
theorem local_faithful_iff
    (hFresh : FreshUuids uploads) :
    Faithful store.blobStore tree uploads query ↔
      uploads = [] ∧ Unreadable store tree query.uri := by
  constructor
  · intro hFaithful
    cases uploads with
    | nil =>
        refine ⟨rfl, local_get_error_iff.mp ?_⟩
        apply hFaithful.others
        intro hReturned
        obtain ⟨before, upload, rest, hUploads, _⟩ :=
          hReturned
        cases before <;> cases hUploads
    | cons upload rest =>
        obtain ⟨descriptor, hReturns, hGets⟩ :=
          hFaithful.puts [] upload rest rfl
        exact absurd (hGets [] List.nil_prefix)
          (local_get_ne
            (hFresh.wellFormed upload List.mem_cons_self)
            hReturns)
  · intro hBoth
    obtain ⟨hNone, hUnreadable⟩ := hBoth
    subst hNone
    refine ⟨?_, fun _ _ => rfl, fun _ =>
      local_get_error_iff.mpr hUnreadable⟩
    intro before upload rest hUploads
    cases before <;> cases hUploads

end Directory

/-
  Puts to the store in memory are given back, and only what
  was put is, sizes of descriptors aside. The store in a
  directory gives nothing back as it was put, and it answers
  for every file that can be read.
-/
theorem blob_stores_faithful_iff
    (uploads : List Upload)
    (query : BlobDescriptor)
    (hFresh : FreshUuids uploads) :
    (Faithful inMemoryBlobStore (fun _ => none) uploads
        query ↔
      ∀ upload ∈ uploads, query.uri = memoryUri upload →
        query.sizeBytes = upload.payload.data.length) ∧
      ∀ (store : LocalFileBlobStore) (tree : FileTree),
        Faithful store.blobStore tree uploads query ↔
          uploads = [] ∧
            Unreadable store tree query.uri :=
  ⟨inMemory_faithful_iff hFresh,
    fun _ _ => local_faithful_iff hFresh⟩

namespace Sample

def photo : Upload where
  attachmentId := "photo"
  payload :=
    { mimeType := "image/png"
      fileName := some "cat.png"
      data := [1, 2, 3] }
  pathUuid := "00000000-0000-4000-8000-000000000001"
  nameUuid := "00000000-0000-4000-8000-000000000002"

theorem photo_fresh : FreshUuids [photo] where
  wellFormed := by
    intro upload hMem
    rw [List.mem_singleton.mp hMem]
    unfold IsUuid photo
    simp
  distinct := by
    decide

def blobTree : FileTree where
  node location :=
    if location = [] then some .directory
    else if location = ["blobs"] then some .directory
    else none
  root := rfl
  closed := by
    intro location name hThere
    by_cases hRoot : location = []
    · rw [if_pos hRoot]
    · rw [if_neg (by simp)] at hThere
      exfalso
      apply hThere
      rw [if_neg]
      intro hEq
      apply hRoot
      cases location with
      | nil => rfl
      | cons first rest => simp at hEq

def blobDirectory : LocalFileBlobStore where
  root := "/blobs".toList
  links := 40
  workingDirectory := []

def photoName : String :=
  "photo_" ++ photo.nameUuid ++ "_cat.png"

def photoPath : List Char :=
  ("/blobs/" ++ photoName).toList

def photoDescriptor : BlobDescriptor where
  uri := LocalFileBlobStore.uriForPath photoPath
  sizeBytes := 3

def photoTree : FileTree :=
  blobTree.put ["blobs", photoName] (.file ⟨#[1, 2, 3]⟩)

/- The path of the photo, before and after it is stored. -/
theorem photo_places :
    ('\x00' ∉ photoPath ∧
      blobDirectory.storedPath photo = photoPath ∧
      (fileName photoPath).map String.ofList =
        some photoName) ∧
      blobDirectory.resolve blobTree photoPath =
        .absent ["blobs", photoName] ∧
      blobDirectory.resolve photoTree photoPath =
        .found ["blobs", photoName] 40 ∧
      photoTree.node ["blobs", photoName] =
        some (.file ⟨#[1, 2, 3]⟩) := by
  decide +kernel

end Sample

/- One upload is given back by the store in memory. -/
theorem blob_stores_faithful_photo :
    Faithful inMemoryBlobStore (fun _ => none)
        [Sample.photo] (memoryDescriptor Sample.photo) ∧
      ¬Faithful Sample.blobDirectory.blobStore
        Sample.blobTree [Sample.photo]
        (memoryDescriptor Sample.photo) := by
  have hBoth := blob_stores_faithful_iff [Sample.photo]
    (memoryDescriptor Sample.photo) Sample.photo_fresh
  constructor
  · apply hBoth.1.mpr
    intro upload hMem _
    rw [List.mem_singleton.mp hMem]
    rfl
  · intro hFaithful
    have hNone := ((hBoth.2 _ _).mp hFaithful).1
    cases hNone

/- The photo is stored and comes back as something else. -/
theorem photo_comes_back_changed :
    Sample.blobDirectory.blobStore.Returns Sample.blobTree
        Sample.photo Sample.photoDescriptor ∧
      Sample.blobDirectory.get
          (Sample.blobDirectory.blobStore.after
            Sample.blobTree [Sample.photo])
          Sample.photoDescriptor =
        .ok
          { mimeType := "application/octet-stream"
            fileName := some Sample.photoName
            data := [1, 2, 3] } ∧
      ∀ query,
        ¬Faithful Sample.blobDirectory.blobStore
          Sample.blobTree [Sample.photo] query := by
  rcases Sample.photo_places with
    ⟨⟨hNul, hPath, hName⟩, hAbsent, hFound, hNode⟩
  have hPut :
      Sample.blobDirectory.put Sample.blobTree Sample.photo =
        (.ok (blobRef Sample.photo Sample.photoDescriptor),
          Sample.photoTree) := by
    unfold LocalFileBlobStore.put LocalFileBlobStore.writePath
    rw [hPath]
    simp only [if_neg hNul, hAbsent]
    rfl
  refine ⟨?_, ?_, ?_⟩
  · exact ⟨blobRef Sample.photo Sample.photoDescriptor,
      congrArg Prod.fst hPut, rfl⟩
  · show Sample.blobDirectory.get
      (Sample.blobDirectory.put Sample.blobTree
        Sample.photo).2 _ = _
    rw [hPut]
    have hUri : Sample.photoDescriptor.uri =
        LocalFileBlobStore.uriForPath Sample.photoPath :=
      rfl
    have hRead :
        Sample.blobDirectory.readPath Sample.photoTree
            Sample.photoPath =
          .ok [1, 2, 3] := by
      unfold LocalFileBlobStore.readPath
      simp only [if_neg hNul, hFound, hNode]
    unfold LocalFileBlobStore.get
    rw [hUri, pathFromUri_uriForPath]
    simp only [hRead, hName]
  · intro query hFaithful
    obtain ⟨hNone, _⟩ :=
      (local_faithful_iff Sample.photo_fresh).mp hFaithful
    cases hNone

end RainEngine.Blobs
