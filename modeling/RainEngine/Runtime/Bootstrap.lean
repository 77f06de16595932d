import RainEngine.Kernel.Engine
import RainEngine.Skills.ShellExec

/-
  This file models how a server is put together from its
  configuration, and the settings it keeps: the policies of its
  skills, and the engine policy and provider configuration that
  runs are started with.

  Key definitions include:
    * `RuntimeBootstrapConfig`
    * `RuntimeMutableSettings.apply`
    * `buildRuntimeState`

  Key theorems include:
    * `buildRuntimeState_eq_ok`
-/

namespace RainEngine.Runtime

open Skills

------------------------------------------------------------
-- Configuration
------------------------------------------------------------

structure RuntimeServerConfig where
  defaultPolicy : EnginePolicy
  allowPolicyOverrides : Bool
  allowProviderOverrides : Bool
  defaultProvider : ProviderRequestConfig
  asyncIngress : Bool := false

inductive StoreBootstrapConfig where
  | inMemory
  | sqlite (databaseUrl : String)
  | postgres (databaseUrl : String)
deriving DecidableEq

structure CacheBootstrapConfig where
  valkeyUrl : Option String
deriving DecidableEq

inductive BlobBackendConfig where
  | inMemory
  | localDirectory (path : String)
  | s3
  | gcs
deriving DecidableEq

inductive ProviderBootstrapConfig where
  | mock
  | openAiCompatible (baseUrl apiKey : String)
  | gemini (baseUrl credential : String)
deriving DecidableEq

structure RuntimeBootstrapConfig where
  server : RuntimeServerConfig
  store : StoreBootstrapConfig
  cache : Option CacheBootstrapConfig := none
  blob : BlobBackendConfig
  provider : ProviderBootstrapConfig

inductive RuntimeConfigError where
  | invalid (message : String)
deriving DecidableEq

/- What opening the resources of a server comes to. -/
structure Resources where
  connectSqlite : String → Except String Unit
  connectPostgres : String → Except String Unit
  createDirectory : String → Except String Unit
  openCache : String → Except String Unit

------------------------------------------------------------
-- Settings
------------------------------------------------------------

/- `str::trim`. -/
def trim (text : String) : String :=
  String.ofList
    (((text.toList.dropWhile isWhitespace).reverse.dropWhile
      isWhitespace).reverse)

def normalizeAllowlist
    (values : List String) :
    Finset String :=
  ((values.map trim).filter (!·.isEmpty)).toFinset

structure MutableSkillPolicyUpdate where
  permissive : Option Bool := none
  allowlist : Option (List String) := none

structure ManagedSkillPolicy where
  access : AccessPolicy
  timeoutSecs : Nat

def ManagedSkillPolicy.apply
    (policy : ManagedSkillPolicy)
    (update : MutableSkillPolicyUpdate) :
    ManagedSkillPolicy :=
  { policy with
    access :=
      { permissive :=
          update.permissive.getD policy.access.permissive
        allowlist :=
          (update.allowlist.map normalizeAllowlist).getD
            policy.access.allowlist } }

structure RuntimeSettingsUpdateRequest where
  shellExec : Option MutableSkillPolicyUpdate := none
  httpFetch : Option MutableSkillPolicyUpdate := none
  webReader : Option MutableSkillPolicyUpdate := none
  enginePolicy : Option EnginePolicy := none
  providerConfig : Option ProviderRequestConfig := none

structure RuntimeMutableSettings where
  shellExec : ManagedSkillPolicy
  httpFetch : ManagedSkillPolicy
  webReader : ManagedSkillPolicy
  enginePolicy : EnginePolicy
  providerConfig : ProviderRequestConfig

namespace RuntimeMutableSettings

def defaults
    (enginePolicy : EnginePolicy)
    (providerConfig : ProviderRequestConfig) :
    RuntimeMutableSettings :=
  let skill : ManagedSkillPolicy :=
    { access := { allowlist := ∅, permissive := false }
      timeoutSecs := 30 }
  { shellExec := skill
    httpFetch := skill
    webReader := skill
    enginePolicy := enginePolicy
    providerConfig := providerConfig }

/- An update sets what it names. -/
def apply
    (settings : RuntimeMutableSettings)
    (update : RuntimeSettingsUpdateRequest) :
    RuntimeMutableSettings where
  shellExec :=
    (update.shellExec.map settings.shellExec.apply).getD
      settings.shellExec
  httpFetch :=
    (update.httpFetch.map settings.httpFetch.apply).getD
      settings.httpFetch
  webReader :=
    (update.webReader.map settings.webReader.apply).getD
      settings.webReader
  enginePolicy :=
    update.enginePolicy.getD settings.enginePolicy
  providerConfig :=
    update.providerConfig.getD settings.providerConfig

end RuntimeMutableSettings

------------------------------------------------------------
-- The State Of A Server
------------------------------------------------------------

/- `ingress` tells whether there is a stream to publish on. -/
structure RuntimeState where
  config : RuntimeServerConfig
  providerKind : String
  defaultScopes : List String
  settings : RuntimeMutableSettings
  ingress : Bool

def RuntimeState.new
    (config : RuntimeServerConfig)
    (settings : RuntimeMutableSettings) :
    RuntimeState where
  config := config
  providerKind := "custom"
  defaultScopes := ["tool:run"]
  settings := settings
  ingress := false

def ProviderBootstrapConfig.kind :
    ProviderBootstrapConfig → String
| .mock => "mock"
| .openAiCompatible _ _ => "openai_compatible"
| .gemini _ _ => "gemini"

/- The error of a resource as an error of the configuration. -/
def orInvalid
    (opened : Except String Unit) :
    Except RuntimeConfigError Unit :=
  opened.mapError .invalid

def openStore
    (resources : Resources) :
    StoreBootstrapConfig → Except RuntimeConfigError Unit
| .inMemory => pure ()
| .sqlite databaseUrl =>
    if (trim databaseUrl).isEmpty then
      throw (.invalid "sqlite database_url must not be empty")
    else orInvalid (resources.connectSqlite databaseUrl)
| .postgres databaseUrl =>
    if (trim databaseUrl).isEmpty then
      throw
        (.invalid "postgres database_url must not be empty")
    else orInvalid (resources.connectPostgres databaseUrl)

def buildBlobStore
    (resources : Resources) :
    BlobBackendConfig → Except String Unit
| .inMemory => pure ()
| .localDirectory path => resources.createDirectory path
| .s3 =>
    throw
      ("S3 blob backend is not implemented in this " ++
        "workspace build")
| .gcs =>
    throw
      ("GCS blob backend is not implemented in this " ++
        "workspace build")

/- The checks of the configurations of the providers. -/
def ProviderBootstrapConfig.validated :
    ProviderBootstrapConfig → Except String Unit
| .mock => pure ()
| .openAiCompatible baseUrl apiKey =>
    if (trim baseUrl).isEmpty then
      throw "base_url must not be empty"
    else if (trim apiKey).isEmpty then
      throw "api_key must not be empty"
    else pure ()
| .gemini baseUrl credential =>
    if (trim baseUrl).isEmpty then
      throw "base_url must not be empty"
    else if (trim credential).isEmpty then
      throw "auth credential must not be empty"
    else pure ()

def openCache
    (resources : Resources)
    (cache : Option CacheBootstrapConfig) :
    Except RuntimeConfigError Unit :=
  match cache.bind (·.valkeyUrl) with
  | none => pure ()
  | some valkeyUrl =>
      orInvalid
        ((resources.openCache valkeyUrl).mapError
          ("Valkey cache error: " ++ ·))

def buildRuntimeState
    (resources : Resources)
    (config : RuntimeBootstrapConfig) :
    Except RuntimeConfigError RuntimeState := do
  openStore resources config.store
  orInvalid (buildBlobStore resources config.blob)
  orInvalid config.provider.validated
  openCache resources config.cache
  let settings := RuntimeMutableSettings.defaults .default {}
  pure
    { RuntimeState.new config.server settings with
      providerKind := config.provider.kind }

/- What follows a computation has a result if the whole has. -/
theorem of_bind_eq_ok
    {ε α β : Type}
    {x : Except ε α}
    {f : α → Except ε β}
    {b : β}
    (hBind : (x >>= f) = .ok b) :
    ∃ a, f a = .ok b := by
  cases x with
  | error error => cases hBind
  | ok a => exact ⟨a, hBind⟩

/- A server that is built has the settings of a fresh one. -/
theorem buildRuntimeState_eq_ok
    {resources : Resources}
    {config : RuntimeBootstrapConfig}
    {state : RuntimeState}
    (hBuild : buildRuntimeState resources config = .ok state) :
    state =
      { RuntimeState.new config.server
          (RuntimeMutableSettings.defaults .default {}) with
        providerKind := config.provider.kind } := by
  unfold buildRuntimeState at hBuild
  obtain ⟨_, hStored⟩ := of_bind_eq_ok hBuild
  obtain ⟨_, hBlobs⟩ := of_bind_eq_ok hStored
  obtain ⟨_, hProvided⟩ := of_bind_eq_ok hBlobs
  obtain ⟨_, hCached⟩ := of_bind_eq_ok hProvided
  exact (Except.ok.inj hCached).symm

end RainEngine.Runtime
