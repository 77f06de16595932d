import RainEngine.Kernel.Tools
import RainEngine.Serde.Manifests
import RainEngine.Tables.WriteThrough
import RainEngine.Transitions.Reaches

/-
  This file is about skills that are installed while a server
  runs. An install stores the skill first and registers it
  then; other installs may come in between, and a restart
  forgets the registered skills and reads them from the table.

  What a restart brings back under a name is what was stored
  last, if the table can be read: one manifest that cannot be
  read keeps all the others from being registered again. What
  is registered is what was stored last since a restart, or
  else what the restart has brought back.

  Key definitions include:
    * `handleInstallSkill`
    * `SkillInstallerSkill.execute`
    * `SkillTable`
    * `LiveSkills`
    * `reloadSkills`
    * `InstallState.step`

  Key theorems include:
    * `reloadSkills_get`
    * `Kept.reload_iff`
    * `restart_keeps_skill_iff`
-/

namespace RainEngine.Runtime

open Tables Transitions

------------------------------------------------------------
-- Modules
------------------------------------------------------------

inductive DownloadError where
  | send (message : String)
  | read (message : String)

/- What the network, the libraries and the files give. -/
structure Sources where
  download : String → Except DownloadError (List UInt8)
  decodeBase64 : String → Except String (List UInt8)
  readFile : String → Except String (List UInt8)

inductive InstallError where
  | missing
  | download (error : DownloadError)
  | decode (message : String)
  | file (message : String)
  | init (message : String)
  | storage (message : String)

/- The first source that is given counts. -/
def wasmBytes
    (sources : Sources)
    (wasmUrl wasmBase64 filePath : Option String) :
    Except InstallError (List UInt8) :=
  match wasmUrl, wasmBase64, filePath with
  | some url, _, _ => (sources.download url).mapError .download
  | none, some text, _ =>
      (sources.decodeBase64 text).mapError .decode
  | none, none, some path =>
      (sources.readFile path).mapError .file
  | none, none, none => .error .missing

/- A skill whose module compiles. -/
structure StoredSkill where
  manifest : SkillManifest
  wasmBytes : List UInt8

/- The compiler of modules, and how manifests are read. -/
structure InstallConfig where
  compile : List UInt8 → Except String Unit
  parse : ℚ → ℚ
  limit : Nat

def InstallConfig.compiles
    (config : InstallConfig)
    (wasmBytes : List UInt8) :
    Bool :=
  match config.compile wasmBytes with
  | .ok _ => true
  | .error _ => false

/- A skill is stored and registered if its module compiles. -/
def newSkill
    (config : InstallConfig)
    (manifest : SkillManifest)
    (wasmBytes : List UInt8) :
    Except InstallError StoredSkill :=
  match config.compile wasmBytes with
  | .ok _ => .ok ⟨manifest, wasmBytes⟩
  | .error message => .error (.init message)

------------------------------------------------------------
-- Direct Installs
------------------------------------------------------------

structure InstallSkillRequest where
  manifest : SkillManifest
  wasmUrl : Option String
  wasmBase64 : Option String
  filePath : Option String

def InstallError.status : InstallError → Nat
| .missing => 400
| .download _ => 502
| .decode _ => 400
| .file _ => 400
| .init _ => 500
| .storage _ => 500

def InstallError.text (missing : String) :
    InstallError → String
| .missing => missing
| .download (.send message) => "Download failed: " ++ message
| .download (.read message) => "Read failed: " ++ message
| .decode message => "Base64 decode failed: " ++ message
| .file message => "File read failed: " ++ message
| .init message => "Init failed: " ++ message
| .storage message => "Storage failed: " ++ message

/- A request is only heard where direct installs are on. -/
def handleInstallSkill
    (config : InstallConfig)
    (enabled : Bool)
    (sources : Sources)
    (request : InstallSkillRequest) :
    Except (Nat × String) StoredSkill :=
  if enabled then
    (wasmBytes sources request.wasmUrl request.wasmBase64
        request.filePath >>=
      newSkill config request.manifest).mapError fun error =>
        (error.status, error.text
          "Must provide wasm_url, wasm_base64, or file_path")
  else
    .error (403,
      "direct skill install is disabled; use operator " ++
        "tooling or set RAIN_ENABLE_DIRECT_SKILL_INSTALL=true")

------------------------------------------------------------
-- Installs By A Skill
------------------------------------------------------------

def InstallError.kind : InstallError → SkillFailureKind
| .missing => .invalidArguments
| .download _ => .internal
| .decode _ => .invalidArguments
| .file _ => .invalidArguments
| .init _ => .internal
| .storage _ => .internal

def InstallError.failure (error : InstallError) :
    SkillExecutionError where
  kind := error.kind
  message :=
    error.text "missing wasm_url, wasm_base64, or file_path"

def invalidArgument (message : String) :
    SkillExecutionError where
  kind := .invalidArguments
  message := message

/- What a skill may do is not up to the call. -/
def SkillInstallerSkill.manifest
    (name description : String)
    (inputSchema : Json) :
    SkillManifest where
  name := name
  description := description
  inputSchema := inputSchema
  requiredScopes := ["tool:run"]
  capabilityGrants := [.httpOutbound [], .structuredLog]
  resourcePolicy := .defaultForTools
  approvalRequired := false
  circuitBreakerThreshold := .finite (1 / 2)

def SkillInstallerSkill.execute
    (config : InstallConfig)
    (sources : Sources)
    (args : Json) :
    Except SkillExecutionError StoredSkill :=
  match (args.get "name").bind Json.asStr,
      (args.get "description").bind Json.asStr with
  | none, _ => .error (invalidArgument "missing name")
  | some _, none =>
      .error (invalidArgument "missing description")
  | some name, some description =>
      let wasmUrl := (args.get "wasm_url").bind Json.asStr
      let wasmBase64 :=
        (args.get "wasm_base64").bind Json.asStr
      let filePath := (args.get "file_path").bind Json.asStr
      if wasmUrl.isNone ∧ wasmBase64.isNone ∧
          filePath.isNone then
        .error InstallError.missing.failure
      else
        match args.get "input_schema" with
        | none =>
            .error (invalidArgument "missing input_schema")
        | some inputSchema =>
            (wasmBytes sources wasmUrl wasmBase64 filePath >>=
              newSkill config (SkillInstallerSkill.manifest
                name description inputSchema)).mapError
                  InstallError.failure

/- An install is asked for by a request or by a call. -/
inductive Install where
  | direct (enabled : Bool) (request : InstallSkillRequest)
  | called (args : Json)

/- The skill of an install that gets as far as the store. -/
def Install.skill
    (config : InstallConfig)
    (sources : Sources) :
    Install → Option StoredSkill
| .direct enabled request =>
    (handleInstallSkill config enabled sources request).toOption
| .called args =>
    (SkillInstallerSkill.execute config sources args).toOption

------------------------------------------------------------
-- The Table Of Skills
------------------------------------------------------------

structure SkillRow where
  name : String
  manifestJson : Json
  wasmBytes : List UInt8

def StoredSkill.row (skill : StoredSkill) : SkillRow where
  name := skill.manifest.name
  manifestJson := Codec.skillManifest.encode skill.manifest
  wasmBytes := skill.wasmBytes

/- A put under a key keeps the keys apart. -/
theorem nodup_upsert
    {α : Type}
    {key : α → String}
    {items : List α}
    (hNodup : (items.map key).Nodup)
    (value : α) :
    ((Logs.upsert key items value).map key).Nodup := by
  by_cases hMem : key value ∈ items.map key
  · rw [Logs.upsert_keys_of_mem hMem]
    exact hNodup
  · rw [Logs.upsert_of_not_mem hMem, List.map_append]
    exact List.nodup_append.mpr
      ⟨hNodup, List.nodup_singleton _, by
        intro k hOld k' hNew hSame
        rw [List.map_singleton, List.mem_singleton] at hNew
        rw [hSame, hNew] at hOld
        exact hMem hOld⟩

/- The name is the primary key of a row. -/
structure SkillTable where
  rows : List SkillRow := []
  nodup : (rows.map (·.name)).Nodup := by exact List.nodup_nil

namespace SkillTable

def storeSkill
    (table : SkillTable)
    (skill : StoredSkill) :
    SkillTable where
  rows := Logs.upsert (·.name) table.rows skill.row
  nodup := nodup_upsert table.nodup _

def readRow
    (config : InstallConfig)
    (row : SkillRow) :
    Except String StoredSkill :=
  match Codec.skillManifest.readText config.parse config.limit
      row.manifestJson with
  | .error error =>
      .error ("Manifest deserialization failed: " ++ error)
  | .ok manifest => .ok ⟨manifest, row.wasmBytes⟩

/- One manifest that cannot be read fails the whole list. -/
def listSkills
    (config : InstallConfig)
    (table : SkillTable) :
    Except String (List StoredSkill) :=
  table.rows.mapM (readRow config)

end SkillTable

------------------------------------------------------------
-- The Registered Skills
------------------------------------------------------------

inductive LiveBackend where
  | native (executorKind : String)
  | wasm (wasmBytes : List UInt8)

structure LiveSkill where
  manifest : SkillManifest
  backend : LiveBackend

def StoredSkill.live (skill : StoredSkill) : LiveSkill where
  manifest := skill.manifest
  backend := .wasm skill.wasmBytes

structure LiveSkills where
  entries : List LiveSkill := []
  nodup : (entries.map (·.manifest.name)).Nodup := by
    exact List.nodup_nil

namespace LiveSkills

def get
    (skills : LiveSkills)
    (name : String) :
    Option LiveSkill :=
  skills.entries.find? (·.manifest.name = name)

def register
    (skills : LiveSkills)
    (skill : LiveSkill) :
    LiveSkills where
  entries :=
    Logs.upsert (·.manifest.name) skills.entries skill
  nodup := nodup_upsert skills.nodup _

end LiveSkills

def installSkillManifest : SkillManifest where
  name := "install_skill"
  description := "Installs a new WASM-based skill from a URL."
  inputSchema := .object
    [("type", .string "object"),
      ("properties", .object
        [("name", .object [("type", .string "string")]),
          ("description",
            .object [("type", .string "string")]),
          ("wasm_url", .object [("type", .string "string")]),
          ("input_schema",
            .object [("type", .string "object")])]),
      ("required", .strings
        ["name", "description", "wasm_url", "input_schema"])]
  requiredScopes := ["operator:skills"]
  capabilityGrants := []
  resourcePolicy := .defaultForTools
  approvalRequired := true
  circuitBreakerThreshold := .finite (1 / 2)

def baseManifest
    (name description : String)
    (inputSchema : Json) :
    SkillManifest where
  name := name
  description := description
  inputSchema := inputSchema
  requiredScopes := ["tool:run"]
  capabilityGrants := []
  resourcePolicy :=
    { timeoutMs := 30000
      maxMemoryBytes := 16 * 1024 * 1024
      maxFuel := none
      priorityClass := 0
      retryPolicy := .default
      dryRunSupported := false }
  approvalRequired := false
  circuitBreakerThreshold := .finite (1 / 2)

def webReaderManifest : SkillManifest :=
  baseManifest "web_reader"
    ("Browse a URL using a headless browser to handle " ++
      "dynamic (JavaScript-rendered) content. Returns the " ++
      "page HTML.")
    (.object
      [("type", .string "object"),
        ("properties", .object
          [("url", .object
              [("type", .string "string"),
                ("description", .string "The URL to browse")]),
            ("wait_for_selector", .object
              [("type", .string "string"),
                ("description", .string
                  ("Optional CSS selector to wait for (e.g. " ++
                    "'.content-ready') before returning"))])]),
        ("required", .strings ["url"])])

def installerSkill : LiveSkill where
  manifest := installSkillManifest
  backend := .native "native"

def webReaderSkill : LiveSkill where
  manifest := webReaderManifest
  backend := .native "native:web_reader"

/- A table that cannot be read has no skills. -/
def persistedSkills
    (config : InstallConfig)
    (table : SkillTable) :
    List StoredSkill :=
  match table.listSkills config with
  | .error _ => []
  | .ok skills => skills

/- A skill whose module does not compile is left out. -/
def registerPersisted
    (config : InstallConfig)
    (live : LiveSkills)
    (skills : List StoredSkill) :
    LiveSkills :=
  skills.foldl
    (fun live skill =>
      if config.compiles skill.wasmBytes then
        LiveSkills.register live skill.live
      else live)
    live

/- The native skills come last, and win under their names. -/
def reloadSkills
    (config : InstallConfig)
    (table : SkillTable) :
    LiveSkills :=
  ((registerPersisted config {}
    (persistedSkills config table)).register
      installerSkill).register webReaderSkill

/- The native skill of a name. -/
def nativeSkill (name : String) : Option LiveSkill :=
  if name = "web_reader" then some webReaderSkill
  else if name = "install_skill" then some installerSkill
  else none

------------------------------------------------------------
-- Installs And Restarts
------------------------------------------------------------

/-
  The table, the registered skills, and the skills of the
  installs that have been stored and not registered yet. All
  skills that were ever stored are remembered in `accepted`,
  those stored since the last restart in `recent`, and what
  that restart has registered in `loaded`.
-/
structure InstallState where
  table : SkillTable
  skills : LiveSkills
  underway : Nat → Option StoredSkill
  accepted : List StoredSkill
  recent : List StoredSkill
  loaded : LiveSkills

inductive InstallAction where
  | store (number : Nat) (install : Install) (sources : Sources)
  | register (number : Nat)
  | restart

namespace InstallState

/- A server on an empty table. -/
def fresh (config : InstallConfig) : InstallState where
  table := {}
  skills := reloadSkills config {}
  underway := fun _ => none
  accepted := []
  recent := []
  loaded := reloadSkills config {}

def restarted
    (config : InstallConfig)
    (s : InstallState) :
    InstallState :=
  { s with
    skills := reloadSkills config s.table
    underway := fun _ => none
    recent := []
    loaded := reloadSkills config s.table }

/-
  An install that is refused changes nothing. The skill of the
  others is stored, and registered in a later step.
-/
def step
    (config : InstallConfig)
    (s : InstallState) :
    InstallAction → Option InstallState
| .store number install sources =>
    if (s.underway number).isSome then none
    else
      match install.skill config sources with
      | none => some s
      | some skill => some
          { s with
            table := s.table.storeSkill skill
            underway :=
              Function.update s.underway number (some skill)
            accepted := s.accepted ++ [skill]
            recent := s.recent ++ [skill] }
| .register number =>
    (s.underway number).map fun skill =>
      { s with
        skills := s.skills.register skill.live
        underway := Function.update s.underway number none }
| .restart => some (s.restarted config)

/- The skill that was stored last under a name. -/
def newest
    (s : InstallState)
    (name : String) :
    Option StoredSkill :=
  lastOf (s.accepted.map fun skill =>
    (skill.manifest.name, skill)) name

/- The skill stored last since the last restart. -/
def latest
    (s : InstallState)
    (name : String) :
    Option StoredSkill :=
  lastOf (s.recent.map fun skill =>
    (skill.manifest.name, skill)) name

/- No install of the name is underway. -/
def Idle (s : InstallState) (name : String) : Prop :=
  ∀ number skill, s.underway number = some skill →
    skill.manifest.name ≠ name

end InstallState

------------------------------------------------------------
-- Reading The Table
------------------------------------------------------------

/- The name of a manifest is read as it was written. -/
theorem skillManifest_name
    {parse : ℚ → ℚ}
    {manifest other : SkillManifest}
    (hRead :
      Codec.skillManifest.decode parse
        (Codec.skillManifest.encode manifest) = some other) :
    other.name = manifest.name := by
  simp only [Codec.skillManifest, Codec.struct, Codec.object,
    Fields.field, Fields.fieldOr, Json.asObject,
    Option.bind_some, Option.map_eq_some_iff] at hRead
  rcases hRead with ⟨values, hValues, hMade⟩
  rcases Option.bind_eq_some_iff.mp hValues with
    ⟨name, hName, hRest⟩
  rcases Option.map_eq_some_iff.mp hRest with
    ⟨rest, _, hPair⟩
  subst hPair hMade
  cases hName
  rfl

section Reading

variable {config : InstallConfig}
variable {table : SkillTable}
variable {name : String}

namespace LiveSkills

theorem get_register
    (skills : LiveSkills)
    (skill : LiveSkill)
    (name : String) :
    (skills.register skill).get name =
      if skill.manifest.name = name then some skill
      else skills.get name :=
  find?_upsert _ _ _ _

end LiveSkills

theorem readRow_row_iff
    {skill : StoredSkill} :
    SkillTable.readRow config skill.row = .ok skill ↔
      Codec.skillManifest.Survives config.parse config.limit
        skill.manifest := by
  rcases skill with ⟨manifest, wasmBytes⟩
  rw [← Codec.readText_encode_iff]
  unfold SkillTable.readRow StoredSkill.row
  dsimp only
  split
  · rename_i error hError
    rw [hError]
    simp
  · rename_i other hRead
    rw [hRead]
    constructor
    · intro hSame
      cases hSame
      rfl
    · intro hSame
      cases hSame
      rfl

/- A row is read under the name it was stored under. -/
theorem readRow_name
    {skill other : StoredSkill}
    (hRead : SkillTable.readRow config skill.row = .ok other) :
    other.manifest.name = skill.manifest.name := by
  unfold SkillTable.readRow StoredSkill.row at hRead
  dsimp only at hRead
  split at hRead
  · cases hRead
  · rename_i manifest hText
    cases hRead
    unfold Codec.readText at hText
    split at hText
    · split at hText
      · cases hText
      · rename_i hDecode
        cases hText
        exact skillManifest_name hDecode
    · cases hText

theorem mapM_ok_iff
    {α β ε : Type}
    {read : α → Except ε β}
    {items : List α}
    {values : List β} :
    items.mapM read = .ok values ↔
      List.Forall₂ (fun item value => read item = .ok value)
        items values := by
  induction items generalizing values with
  | nil =>
      rw [List.mapM_nil, List.forall₂_nil_left_iff]
      constructor
      · intro hSame
        cases hSame
        rfl
      · rintro rfl
        rfl
  | cons item rest ih =>
      rw [List.mapM_cons, List.forall₂_cons_left_iff]
      cases hItem : read item with
      | error error => simp [bind, Except.bind]
      | ok value =>
          cases hRest : rest.mapM read with
          | error error =>
              simp [bind, Except.bind, ← ih, hRest]
          | ok others =>
              simp [bind, Except.bind, pure, Except.pure,
                ← ih, hRest, eq_comm]

theorem registerPersisted_get
    {skills : List StoredSkill}
    {live : LiveSkills}
    (hNames : (skills.map (·.manifest.name)).Nodup)
    (hCompile : ∀ skill ∈ skills,
      config.compiles skill.wasmBytes = true) :
    (registerPersisted config live skills).get name =
      ((skills.find? (·.manifest.name = name)).map
        StoredSkill.live).or (live.get name) := by
  induction skills generalizing live with
  | nil => rfl
  | cons skill rest ih =>
      rw [List.map_cons, List.nodup_cons] at hNames
      rw [List.forall_mem_cons] at hCompile
      unfold registerPersisted at ih ⊢
      rw [List.foldl_cons, if_pos hCompile.1,
        ih hNames.2 hCompile.2, LiveSkills.get_register,
        List.find?_cons]
      by_cases hName : skill.manifest.name = name
      · have hNone :
            rest.find? (·.manifest.name = name) = none := by
          rw [List.find?_eq_none]
          intro other hMem hOther
          apply hNames.1
          rw [hName, ← of_decide_eq_true hOther]
          exact List.mem_map_of_mem hMem
        have hLive : skill.live.manifest.name = name := hName
        rw [hNone, if_pos hLive, decide_eq_true hName]
        rfl
      · have hLive : ¬skill.live.manifest.name = name := hName
        rw [if_neg hLive, decide_eq_false hName]

/- Items can be read together if each can be read. -/
theorem exists_mapM_ok_iff
    {α β ε : Type}
    {read : α → Except ε β}
    {items : List α} :
    (∃ values, items.mapM read = .ok values) ↔
      ∀ item ∈ items, ∃ value, read item = .ok value := by
  induction items with
  | nil => exact ⟨fun _ _ hMem => absurd hMem List.not_mem_nil,
      fun _ => ⟨[], rfl⟩⟩
  | cons item rest ih =>
      rw [List.forall_mem_cons, ← ih]
      simp only [mapM_ok_iff]
      constructor
      · rintro ⟨_, hItem | ⟨hItem, hRest⟩⟩
        exact ⟨⟨_, hItem⟩, _, hRest⟩
      · rintro ⟨⟨value, hItem⟩, values, hRest⟩
        exact ⟨value :: values, .cons hItem hRest⟩

/- Every row was written for a skill that compiles. -/
def SkillTable.Sound
    (config : InstallConfig)
    (table : SkillTable) :
    Prop :=
  ∀ row ∈ table.rows, ∃ skill : StoredSkill,
    row = skill.row ∧ config.compiles skill.wasmBytes = true

section Persisted

variable {rows : List SkillRow}
variable {skills : List StoredSkill}

/- What is read of rows stands in their places. -/
theorem readRows_names
    (name : String)
    (hRows : ∀ row ∈ rows, ∃ skill : StoredSkill,
      row = skill.row)
    (hRead :
      List.Forall₂
        (fun row skill =>
          SkillTable.readRow config row = .ok skill)
        rows skills) :
    skills.map (·.manifest.name) = rows.map (·.name) ∧
      skills.map (·.wasmBytes) = rows.map (·.wasmBytes) ∧
        skills.find? (·.manifest.name = name) =
          (rows.find? (·.name = name)).bind fun row =>
            (SkillTable.readRow config row).toOption := by
  induction hRead with
  | nil => exact ⟨rfl, rfl, rfl⟩
  | @cons row skill rows skills hRow hRest ih =>
      rw [List.forall_mem_cons] at hRows
      rcases hRows.1 with ⟨stored, hStored⟩
      rcases ih hRows.2 with ⟨hNames, hBytes, hFind⟩
      have hName : skill.manifest.name = row.name := by
        subst hStored
        exact readRow_name hRow
      have hOwn : skill.wasmBytes = row.wasmBytes := by
        unfold SkillTable.readRow at hRow
        split at hRow
        · cases hRow
        · cases hRow
          rfl
      refine ⟨?_, ?_, ?_⟩
      · rw [List.map_cons, List.map_cons, hName, hNames]
      · rw [List.map_cons, List.map_cons, hOwn, hBytes]
      · rw [List.find?_cons, List.find?_cons, hName, hFind]
        by_cases hSame : row.name = name
        · rw [decide_eq_true hSame]
          dsimp only
          rw [Option.bind_some, hRow]
          rfl
        · rw [decide_eq_false hSame]

end Persisted

theorem reloadSkills_get
    (hSound : table.Sound config) :
    (reloadSkills config table).get name =
      (nativeSkill name).or
        (((persistedSkills config table).find?
          (·.manifest.name = name)).map StoredSkill.live) := by
  have hPersisted :
      (registerPersisted config {}
          (persistedSkills config table)).get name =
        ((persistedSkills config table).find?
          (·.manifest.name = name)).map StoredSkill.live := by
    unfold persistedSkills
    cases hList : table.listSkills config with
    | error error => rfl
    | ok skills =>
        have hRead := mapM_ok_iff.mp hList
        rcases readRows_names name
            (fun row hMem => (hSound row hMem).imp
              fun _ h => h.1) hRead with
          ⟨hNames, hBytes, _⟩
        dsimp only
        rw [registerPersisted_get]
        · exact Option.or_none
        · rw [hNames]
          exact table.nodup
        · intro skill hMem
          have hOwn := List.mem_map_of_mem
            (f := (·.wasmBytes)) hMem
          rw [hBytes] at hOwn
          rcases List.mem_map.mp hOwn with
            ⟨row, hRow, hSame⟩
          rcases hSound row hRow with
            ⟨stored, hStored, hCompiles⟩
          rw [← hSame, hStored]
          exact hCompiles
  unfold reloadSkills nativeSkill
  rw [LiveSkills.get_register, LiveSkills.get_register,
    hPersisted]
  by_cases hReader : name = "web_reader"
  · have hOwn : webReaderSkill.manifest.name = name :=
      hReader.symm
    rw [if_pos hReader, if_pos hOwn]
    rfl
  · have hOther :
        ¬webReaderSkill.manifest.name = name :=
      fun hSame => hReader hSame.symm
    rw [if_neg hReader, if_neg hOther]
    by_cases hInstall : name = "install_skill"
    · have hOwn : installerSkill.manifest.name = name :=
        hInstall.symm
      rw [if_pos hInstall, if_pos hOwn]
      rfl
    · have hNot : ¬installerSkill.manifest.name = name :=
        fun hSame => hInstall hSame.symm
      rw [if_neg hInstall, if_neg hNot]
      rfl

end Reading

------------------------------------------------------------
-- What A Restart Brings Back
------------------------------------------------------------

section Restarts

variable {config : InstallConfig}
variable {name : String}
variable {s s' : InstallState}
variable {action : InstallAction}
variable {trace : List (InstallState × InstallAction)}

/- The manifest is read as one, of whatever content. -/
def Loads (config : InstallConfig) (skill : StoredSkill) : Prop :=
  ∃ manifest,
    Codec.skillManifest.readText config.parse config.limit
        (Codec.skillManifest.encode skill.manifest) =
      .ok manifest

/-
  All skills can be loaded, and the one under the name is read
  as it was stored, if there is one.
-/
def ReadsBack
    (config : InstallConfig)
    (s : InstallState)
    (name : String) :
    Prop :=
  ∀ skill, s.newest name = some skill →
    Codec.skillManifest.Survives config.parse config.limit
        skill.manifest ∧
      ∀ n other, s.newest n = some other → Loads config other

/- The table and the ledger of stores belong together. -/
structure Kept
    (config : InstallConfig)
    (s : InstallState) : Prop where
  sound : s.table.Sound config
  found : ∀ n,
    s.table.rows.find? (·.name = n) =
      (s.newest n).map StoredSkill.row

theorem lastOf_live
    (skills : List StoredSkill)
    (name : String) :
    lastOf (skills.map fun skill =>
        (skill.manifest.name, skill.live)) name =
      (lastOf (skills.map fun skill =>
        (skill.manifest.name, skill)) name).map
          StoredSkill.live := by
  induction skills using List.reverseRecOn with
  | nil => rfl
  | append_singleton skills skill ih =>
      rw [List.map_append, List.map_append, List.map_singleton,
        List.map_singleton, lastOf_concat, lastOf_concat, ih]
      split <;> rfl

theorem newest_store
    (s : InstallState)
    (skill : StoredSkill)
    (name : String) :
    lastOf ((s.accepted ++ [skill]).map fun skill =>
        (skill.manifest.name, skill)) name =
      if skill.manifest.name = name then some skill
      else s.newest name := by
  rw [List.map_append, List.map_singleton, lastOf_concat]
  rfl

theorem Kept.store
    {skill : StoredSkill}
    {underway : Nat → Option StoredSkill}
    (hKept : Kept config s)
    (hCompiles : config.compiles skill.wasmBytes = true) :
    Kept config
      { s with
        table := s.table.storeSkill skill
        underway := underway
        accepted := s.accepted ++ [skill]
        recent := s.recent ++ [skill] } := by
  constructor
  · intro row hMem
    rcases Logs.mem_upsert hMem s.table.nodup with
      hNew | ⟨hOld, _⟩
    · exact ⟨skill, hNew, hCompiles⟩
    · exact hKept.sound row hOld
  · intro n
    have hFind := find?_upsert SkillRow.name s.table.rows
      skill.row n
    refine hFind.trans ?_
    refine Eq.trans ?_ (congrArg (Option.map StoredSkill.row)
      (newest_store s skill n)).symm
    rw [hKept.found n]
    have hName : skill.row.name = skill.manifest.name := rfl
    rw [hName]
    split <;> rfl

/- The table can be read if all that it holds can be. -/
theorem Kept.listSkills_ok_iff
    (hKept : Kept config s) :
    (∃ skills, s.table.listSkills config = .ok skills) ↔
      ∀ n other, s.newest n = some other →
        Loads config other := by
  constructor
  · intro hList n other hNewest
    have hFind := hKept.found n
    rw [hNewest] at hFind
    rcases exists_mapM_ok_iff.mp hList other.row
        (List.mem_of_find?_eq_some hFind) with
      ⟨skill, hRow⟩
    unfold SkillTable.readRow at hRow
    split at hRow
    · cases hRow
    · rename_i manifest hText
      exact ⟨manifest, hText⟩
  · intro hLoads
    apply exists_mapM_ok_iff.mpr
    intro row hMem
    have hOwn : s.table.rows.find? (·.name = row.name) =
        some row :=
      find?_own s.table.nodup hMem
    rw [hKept.found] at hOwn
    rcases Option.map_eq_some_iff.mp hOwn with
      ⟨other, hOther, hRow⟩
    rcases hLoads row.name other hOther with
      ⟨manifest, hManifest⟩
    refine ⟨⟨manifest, row.wasmBytes⟩, ?_⟩
    unfold SkillTable.readRow
    rw [← hRow]
    unfold StoredSkill.row
    dsimp only
    rw [hManifest]

theorem live_injective :
    Function.Injective StoredSkill.live := by
  rintro ⟨manifest, wasmBytes⟩ ⟨other, bytes⟩ hSame
  cases hSame
  rfl

/- A restart brings back what is read as it was stored. -/
theorem Kept.reload_iff
    (hKept : Kept config s)
    (hOther : nativeSkill name = none) :
    (reloadSkills config s.table).get name =
        (s.newest name).map StoredSkill.live ↔
      ReadsBack config s name := by
  have hLoads := hKept.listSkills_ok_iff
  rw [reloadSkills_get hKept.sound, hOther, Option.none_or]
  unfold ReadsBack persistedSkills
  cases hList : s.table.listSkills config with
  | error error =>
      rw [hList] at hLoads
      have hNot : ¬∀ n other, s.newest n = some other →
          Loads config other := by
        intro hAll
        rcases hLoads.mpr hAll with ⟨skills, hOk⟩
        cases hOk
      cases hNewest : s.newest name with
      | none => simp
      | some skill => simp [hNot]
  | ok skills =>
      have hAll := hLoads.mp ⟨skills, hList⟩
      rcases readRows_names name
          (fun row hMem => (hKept.sound row hMem).imp
            fun _ h => h.1) (mapM_ok_iff.mp hList) with
        ⟨_, _, hFind⟩
      dsimp only
      rw [hFind, hKept.found]
      cases hNewest : s.newest name with
      | none => simp
      | some skill =>
          rw [Option.map_some, Option.bind_some,
            Option.map_some]
          have hRow :
              SkillTable.readRow config skill.row =
                  .ok skill ↔
                Codec.skillManifest.Survives config.parse
                  config.limit skill.manifest :=
            readRow_row_iff
          simp only [Option.some.injEq, forall_eq']
          rw [← hRow]
          cases hRead : SkillTable.readRow config skill.row with
          | error error =>
              simp [Except.toOption]
          | ok other =>
              simp only [Except.toOption, Option.map_some,
                Option.some.injEq, live_injective.eq_iff,
                Except.ok.injEq]
              exact ⟨fun hSame => ⟨hSame, hAll⟩, fun h => h.1⟩

------------------------------------------------------------
-- Runs Of Installs
------------------------------------------------------------

namespace InstallState

/- The stores since the restart, and the registered skills. -/
def mirror (s : InstallState) : Mirror Nat String LiveSkill where
  base := s.loaded.get
  written := s.recent.map fun skill =>
    (skill.manifest.name, skill.live)
  live := s.skills.get
  underway := fun number =>
    (s.underway number).map fun skill =>
      (skill.manifest.name, skill.live)

/-
  An install of the name is stored when no other one of the
  name is underway.
-/
def Apart
    (config : InstallConfig)
    (name : String)
    (s : InstallState) :
    InstallAction → Prop
| .store _ install sources =>
    ∀ skill, install.skill config sources = some skill →
      skill.manifest.name = name → s.Idle name
| .register _ => True
| .restart => True

end InstallState

theorem mirror_current
    (s : InstallState)
    (name : String) :
    s.mirror.current name =
      ((s.latest name).map StoredSkill.live).or
        (s.loaded.get name) := by
  unfold Mirror.current InstallState.mirror
    InstallState.latest
  dsimp only
  rw [lastOf_live]

theorem mirror_idle_iff :
    s.mirror.Idle name ↔ s.Idle name := by
  constructor
  · intro hIdle number skill hUnderway hName
    apply hIdle number skill.live
    change (s.underway number).map _ = _
    rw [hUnderway, ← hName]
    rfl
  · intro hIdle number live hUnderway
    rcases Option.map_eq_some_iff.mp hUnderway with
      ⟨skill, hSkill, hPair⟩
    cases hPair
    exact hIdle number skill hSkill rfl

theorem map_update
    {number : Nat}
    {entry : Option StoredSkill}
    {f : Nat → Option StoredSkill}
    {g : StoredSkill → String × LiveSkill} :
    (fun n => (Function.update f number entry n).map g) =
      Function.update (fun n => (f n).map g) number
        (entry.map g) := by
  funext n
  by_cases hSame : n = number
  · rw [hSame, Function.update_self, Function.update_self]
  · rw [Function.update_of_ne hSame,
      Function.update_of_ne hSame]

theorem mirror_store
    {number : Nat}
    {table : SkillTable}
    (skill : StoredSkill)
    (hFree : ¬(s.underway number).isSome = true) :
    s.mirror.step
        (.store number skill.manifest.name skill.live) =
      some (InstallState.mirror
        { s with
          table := table
          underway :=
            Function.update s.underway number (some skill)
          accepted := s.accepted ++ [skill]
          recent := s.recent ++ [skill] }) := by
  have hIdle : ¬(s.mirror.underway number).isSome = true := by
    change ¬((s.underway number).map _).isSome = true
    rw [Option.isSome_map]
    exact hFree
  dsimp only [Mirror.step]
  rw [if_neg hIdle]
  unfold InstallState.mirror
  dsimp only
  rw [map_update, List.map_append]
  rfl

theorem mirror_register
    {number : Nat}
    {skill : StoredSkill}
    (hSkill : s.underway number = some skill) :
    s.mirror.step (.publish number) =
      some (InstallState.mirror
        { s with
          skills := s.skills.register skill.live
          underway :=
            Function.update s.underway number none }) := by
  have hUnderway : s.mirror.underway number =
      some (skill.manifest.name, skill.live) := by
    change (s.underway number).map _ = _
    rw [hSkill]
    rfl
  have hLive :
      (s.skills.register skill.live).get =
        Function.update s.skills.get skill.manifest.name
          (some skill.live) := by
    funext n
    rw [LiveSkills.get_register]
    by_cases hSame : n = skill.manifest.name
    · rw [hSame, Function.update_self]
      exact if_pos rfl
    · rw [Function.update_of_ne hSame]
      exact if_neg (Ne.symm hSame)
  dsimp only [Mirror.step]
  rw [hUnderway]
  unfold InstallState.mirror
  dsimp only [Option.map_some]
  rw [map_update, hLive]
  rfl

/- An install that gets as far as the store compiles. -/
theorem newSkill_compiles
    {manifest : SkillManifest}
    {fetched : Except InstallError (List UInt8)}
    {skill : StoredSkill}
    (hNew :
      fetched >>= newSkill config manifest = .ok skill) :
    config.compiles skill.wasmBytes = true := by
  cases fetched with
  | error error => cases hNew
  | ok wasmBytes =>
      change newSkill config manifest wasmBytes = _ at hNew
      unfold newSkill at hNew
      unfold InstallConfig.compiles
      split at hNew
      · rename_i hCompile
        cases hNew
        rw [hCompile]
      · cases hNew

theorem ok_of_mapError
    {ε δ α : Type}
    {result : Except ε α}
    {name : ε → δ}
    {value : α}
    (hOk :
      (result.mapError name).toOption = some value) :
    result = .ok value := by
  cases result with
  | error error => cases hOk
  | ok other =>
      cases hOk
      rfl

theorem Install.skill_compiles
    {install : Install}
    {sources : Sources}
    {skill : StoredSkill}
    (hSkill : install.skill config sources = some skill) :
    config.compiles skill.wasmBytes = true := by
  cases install with
  | direct enabled request =>
      unfold Install.skill handleInstallSkill at hSkill
      dsimp only at hSkill
      split at hSkill
      · exact newSkill_compiles (ok_of_mapError hSkill)
      · cases hSkill
  | called args =>
      unfold Install.skill SkillInstallerSkill.execute at hSkill
      dsimp only at hSkill
      split at hSkill
      · cases hSkill
      · cases hSkill
      · split at hSkill
        · cases hSkill
        · split at hSkill
          · cases hSkill
          · exact newSkill_compiles (ok_of_mapError hSkill)

theorem kept_fresh (config : InstallConfig) :
    Kept config (InstallState.fresh config) := by
  constructor
  · intro row hMem
    exact absurd hMem List.not_mem_nil
  · intro n
    rfl

theorem Kept.step
    (hKept : Kept config s)
    (hStep : s.step config action = some s') :
    Kept config s' := by
  cases action with
  | store number install sources =>
      dsimp only [InstallState.step] at hStep
      split at hStep
      · cases hStep
      · split at hStep
        · cases hStep
          exact hKept
        · rename_i skill hSkill
          cases hStep
          exact hKept.store (Install.skill_compiles hSkill)
  | register number =>
      dsimp only [InstallState.step] at hStep
      rcases Option.map_eq_some_iff.mp hStep with
        ⟨skill, hSkill, hNext⟩
      subst hNext
      exact ⟨hKept.sound, hKept.found⟩
  | restart =>
      cases hStep
      exact ⟨hKept.sound, hKept.found⟩

theorem settled_fresh (config : InstallConfig) :
    (InstallState.fresh config).mirror.Settled name := by
  constructor
  · intro number live hUnderway
    cases hUnderway
  · intro one other live live' hOne
    cases hOne
  · intro _
    rfl

theorem settled_step
    (hSettled : s.mirror.Settled name)
    (hApart : InstallState.Apart config name s action)
    (hStep : s.step config action = some s') :
    s'.mirror.Settled name := by
  cases action with
  | store number install sources =>
      dsimp only [InstallState.step] at hStep
      split at hStep
      · cases hStep
      · rename_i hFree
        split at hStep
        · cases hStep
          exact hSettled
        · rename_i skill hSkill
          cases hStep
          refine hSettled.step ?_ (mirror_store skill hFree)
          intro hName
          exact mirror_idle_iff.mpr
            (hApart skill hSkill hName)
  | register number =>
      dsimp only [InstallState.step] at hStep
      rcases Option.map_eq_some_iff.mp hStep with
        ⟨skill, hSkill, hNext⟩
      subst hNext
      refine hSettled.step ?_ (mirror_register hSkill)
      trivial
  | restart =>
      cases hStep
      have hMirror :
          s.mirror.step
              (.reload (reloadSkills config s.table).get) =
            some (s.restarted config).mirror := rfl
      refine hSettled.step ?_ hMirror
      trivial

/- One manifest that cannot be read drops all skills. -/
theorem Kept.reload_none
    {n : String}
    {other : StoredSkill}
    (hKept : Kept config s)
    (hNewest : s.newest n = some other)
    (hUnread : ¬Loads config other) :
    (reloadSkills config s.table).get name =
      nativeSkill name := by
  have hNone : persistedSkills config s.table = [] := by
    unfold persistedSkills
    cases hList : s.table.listSkills config with
    | error error => rfl
    | ok skills =>
        have hAll := hKept.listSkills_ok_iff.mp
          ⟨skills, hList⟩
        exact absurd (hAll n other hNewest) hUnread
  rw [reloadSkills_get hKept.sound, hNone]
  exact Option.or_none

/-
  A restart brings back under a name what was stored last
  exactly if all skills can be loaded and this one reads as it
  was stored; it always restores the native skills, and only
  them if some skill cannot be loaded. As long as installs of
  a name do not overlap, the skill registered under it is the
  one stored last since the last restart, or else the one this
  restart has brought back.
-/
theorem restart_keeps_skill_iff
    (hReach :
      Reaches (InstallState.step config)
        (InstallState.fresh config) trace s) :
    (∀ name, nativeSkill name = none →
      ((s.restarted config).skills.get name =
          (s.newest name).map StoredSkill.live ↔
        ReadsBack config s name)) ∧
      (∀ name skill, nativeSkill name = some skill →
        (s.restarted config).skills.get name = some skill) ∧
      (∀ n other, s.newest n = some other →
        ¬Loads config other →
          ∀ name, (s.restarted config).skills.get name =
            nativeSkill name) ∧
      ∀ name,
        (∀ p ∈ trace,
          InstallState.Apart config name p.1 p.2) →
        s.Idle name →
          s.skills.get name =
            ((s.latest name).map StoredSkill.live).or
              (s.loaded.get name) := by
  have hKept : Kept config s :=
    hReach.always (kept_fresh config)
      fun _ _ _ hHere hStep => hHere.step hStep
  refine ⟨?_, ?_, ?_, ?_⟩
  · intro name hOther
    exact hKept.reload_iff hOther
  · intro name skill hNative
    change (reloadSkills config s.table).get name = _
    rw [reloadSkills_get hKept.sound, hNative]
    rfl
  · intro n other hNewest hUnread name
    exact hKept.reload_none hNewest hUnread
  · intro name hApart hIdle
    have hSettled : s.mirror.Settled name :=
      (hReach.invariant
        (I := fun s => s.mirror.Settled name)
        (C := InstallState.Apart config name)
        (settled_fresh config)
        (fun _ _ _ hHere hHolds hStep =>
          settled_step hHere hHolds hStep) hApart).1
    rw [← mirror_current]
    exact hSettled.agrees (mirror_idle_iff.mpr hIdle)

end Restarts

------------------------------------------------------------
-- One Skill
------------------------------------------------------------

/- All modules compile, and floats are read as they are. -/
def compiling : InstallConfig where
  compile := fun _ => .ok ()
  parse := id
  limit := 128

def weatherSkill : StoredSkill where
  manifest := SkillInstallerSkill.manifest "weather"
    "Tells the weather." (.object [("type", .string "object")])
  wasmBytes := [0, 97, 115, 109]

def weatherInstall : Install :=
  .called
    (.object
      [("name", .string "weather"),
        ("description", .string "Tells the weather."),
        ("wasm_url", .string "https://skills/weather"),
        ("input_schema",
          .object [("type", .string "object")])])

def weatherSources : Sources where
  download := fun _ => .ok weatherSkill.wasmBytes
  decodeBase64 := fun _ => .error "no base64"
  readFile := fun _ => .error "no file"

def weatherStored : InstallState :=
  { InstallState.fresh compiling with
    table := ({} : SkillTable).storeSkill weatherSkill
    underway := Function.update (fun _ => none) 0
      (some weatherSkill)
    accepted := [weatherSkill]
    recent := [weatherSkill] }

def weatherRegistered : InstallState :=
  { weatherStored with
    skills := weatherStored.skills.register weatherSkill.live
    underway := Function.update weatherStored.underway 0 none }

theorem weather_reads
    {s : InstallState}
    (hAccepted : s.accepted = [weatherSkill]) :
    ReadsBack compiling s "weather" := by
  have hOnly : ∀ n other, s.newest n = some other →
      other = weatherSkill := by
    intro n other hNewest
    unfold InstallState.newest at hNewest
    rw [hAccepted] at hNewest
    have hMem := mem_of_lastOf hNewest
    simp only [List.map_singleton, List.mem_singleton,
      Prod.mk.injEq] at hMem
    exact hMem.2
  have hSurvives :
      Codec.skillManifest.Survives id 128
        weatherSkill.manifest := by
    decide +kernel
  intro skill hNewest
  rw [hOnly _ _ hNewest]
  refine ⟨hSurvives, ?_⟩
  intro n other hOther
  rw [hOnly _ _ hOther]
  exact ⟨_, Codec.readText_encode_iff.mpr hSurvives⟩

/- An installed skill is there again after two restarts. -/
theorem restart_keeps_weather :
    ((weatherRegistered.restarted compiling).restarted
        compiling).skills.get "weather" =
      some weatherSkill.live := by
  have hStored :
      (InstallState.fresh compiling).step compiling
          (.store 0 weatherInstall weatherSources) =
        some weatherStored := by
    rfl
  have hRegistered :
      weatherStored.step compiling (.register 0) =
        some weatherRegistered := by
    rfl
  have hRestarted :
      weatherRegistered.step compiling .restart =
        some (weatherRegistered.restarted compiling) := rfl
  have hReads : ReadsBack compiling
      (weatherRegistered.restarted compiling) "weather" :=
    weather_reads rfl
  have hKeeps := restart_keeps_skill_iff
    (((Reaches.start.step hStored).step hRegistered).step
      hRestarted)
  rw [(hKeeps.1 "weather" (by decide)).mpr hReads]
  rfl

end RainEngine.Runtime
