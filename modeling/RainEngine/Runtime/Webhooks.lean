import Mathlib.Data.Finset.Sort
import RainEngine.Logs.Registers
import RainEngine.Runtime.Ingress
import RainEngine.Runtime.Multipart

/-
  This file is about the bodies that webhooks are sent with. A
  form is read field by field: a later field of a name replaces
  an earlier one, the scopes and the attachments add up, and
  the first field that cannot be read ends the request.

  Key definitions include:
    * `WebhookDraft.take`
    * `parseMultipartWebhook`
    * `FormField.read`
    * `Says`
    * `Carried`

  Key theorems include:
    * `WebhookDraft.take_eq`
    * `foldl_apply`
    * `multipart_reads_iff`
    * `form_carries_iff`
-/

namespace RainEngine.Runtime

open Logs

variable {Mime : Type}

------------------------------------------------------------
-- Formats
------------------------------------------------------------

/- What can go wrong with the request of a webhook. -/
inductive WebhookError where
  | unsupportedContentType
  | malformed (message : String)
  | blob (message : String)
deriving DecidableEq

/-
  How bodies are taken apart, and how media types are printed
  and texts are read at the types of a request.
-/
structure WebhookFormat (Mime : Type) where
  boundary : String → Except String String
  form : String → List UInt8 → Form Mime
  mimeText : Mime → String
  text : Option Mime → List UInt8 → String
  value : String → Except String Json
  scopes : String → Except String (List String)
  provider : String → Except String ProviderRequestConfig
  policy : String → Except String EnginePolicy

/- `serde_json::from_str`, with the name of the field. -/
def parseJsonValue
    {α : Type}
    (read : String → Except String α)
    (text fieldName : String) :
    Except WebhookError α :=
  (read text).mapError fun error =>
    .malformed ("invalid " ++ fieldName ++ ": " ++ error)

def isBlank (text : String) : Bool :=
  (trim text).isEmpty

------------------------------------------------------------
-- Parsing
------------------------------------------------------------

/- The variables of the loop over the fields. -/
structure WebhookDraft where
  sessionId : Option String := none
  payload : Option Json := none
  attachments : List MultimodalPayload := []
  grantedScopes : Finset String := ∅
  idempotencyKey : Option String := none
  provider : Option ProviderRequestConfig := none
  policyOverride : Option EnginePolicy := none

/- What the loop does with a text, under the field's name. -/
def WebhookDraft.takeText
    (format : WebhookFormat Mime)
    (draft : WebhookDraft)
    (text : String) :
    String → Except WebhookError WebhookDraft
| "session_id" => .ok { draft with sessionId := some text }
| "payload" => do
    let payload ← parseJsonValue format.value text "payload"
    pure { draft with payload := some payload }
| "granted_scope" =>
    if isBlank text then .ok draft
    else
      .ok
        { draft with
          grantedScopes := insert text draft.grantedScopes }
| "granted_scopes" => do
    let scopes ←
      parseJsonValue format.scopes text "granted_scopes"
    pure
      { draft with
        grantedScopes :=
          draft.grantedScopes ∪ scopes.toFinset }
| "idempotency_key" =>
    if isBlank text then .ok draft
    else .ok { draft with idempotencyKey := some text }
| "provider" => do
    let provider ←
      parseJsonValue format.provider text "provider"
    pure { draft with provider := some provider }
| "policy_override" => do
    let policy ←
      parseJsonValue format.policy text "policy_override"
    pure { draft with policyOverride := some policy }
| _ => .ok draft

/- A field with the name of a file is an attachment. -/
def WebhookDraft.take
    (format : WebhookFormat Mime)
    (draft : WebhookDraft)
    (field : FormField Mime) :
    Except WebhookError WebhookDraft := do
  let name := field.name.getD ""
  let mimeType :=
    (field.contentType.map format.mimeText).getD
      "application/octet-stream"
  let bytes ← field.bytes.mapError .malformed
  if field.fileName.isSome then
    pure
      { draft with
        attachments := draft.attachments ++
          [{ mimeType := mimeType
             fileName := field.fileName
             data := bytes }] }
  else
    draft.takeText format
      (format.text field.contentType bytes) name

/- What is left to do when the fields have been read. -/
def WebhookDraft.close
    (draft : WebhookDraft) :
    Except WebhookError WebhookIngressRequest :=
  match draft.sessionId with
  | none => .error (.malformed "missing session_id")
  | some sessionId =>
      .ok
        { sessionId := sessionId
          payload := draft.payload.getD .null
          attachments := draft.attachments
          grantedScopes := draft.grantedScopes.sort
          idempotencyKey := draft.idempotencyKey
          provider := draft.provider
          policyOverride := draft.policyOverride }

def parseForm
    (format : WebhookFormat Mime)
    (form : Form Mime) :
    Except WebhookError WebhookIngressRequest := do
  let draft ← form.fields.foldlM (WebhookDraft.take format) {}
  match form.broken with
  | some error => .error (.malformed error)
  | none => draft.close

def parseMultipartWebhook
    (format : WebhookFormat Mime)
    (contentType : String)
    (body : List UInt8) :
    Except WebhookError WebhookIngressRequest := do
  let boundary ←
    (format.boundary contentType).mapError .malformed
  parseForm format (format.form boundary body)

------------------------------------------------------------
-- Updates
------------------------------------------------------------

/- What a field says about the request. -/
inductive FormUpdate where
  | attachment (payload : MultimodalPayload)
  | sessionId (text : String)
  | payload (value : Json)
  | scopes (scopes : List String)
  | idempotencyKey (key : String)
  | provider (provider : ProviderRequestConfig)
  | policyOverride (policy : EnginePolicy)
  | nothing

namespace FormUpdate

def attachment? : FormUpdate → Option MultimodalPayload
| .attachment file => some file
| _ => none

def sessionId? : FormUpdate → Option String
| .sessionId text => some text
| _ => none

def payload? : FormUpdate → Option Json
| .payload json => some json
| _ => none

def granted : FormUpdate → List String
| .scopes names => names
| _ => []

def idempotencyKey? : FormUpdate → Option String
| .idempotencyKey key => some key
| _ => none

def provider? : FormUpdate → Option ProviderRequestConfig
| .provider config => some config
| _ => none

def policyOverride? : FormUpdate → Option EnginePolicy
| .policyOverride policy => some policy
| _ => none

end FormUpdate

/- What a field that is no attachment says with its text. -/
def readText
    (format : WebhookFormat Mime)
    (text : String) :
    String → Except WebhookError FormUpdate
| "session_id" => .ok (.sessionId text)
| "payload" =>
    (parseJsonValue format.value text "payload").map .payload
| "granted_scope" =>
    .ok (if isBlank text then .nothing else .scopes [text])
| "granted_scopes" =>
    (parseJsonValue format.scopes text "granted_scopes").map
      .scopes
| "idempotency_key" =>
    .ok (if isBlank text then .nothing else .idempotencyKey text)
| "provider" =>
    (parseJsonValue format.provider text "provider").map
      .provider
| "policy_override" =>
    (parseJsonValue format.policy text "policy_override").map
      .policyOverride
| _ => .ok .nothing

def FormField.read
    (format : WebhookFormat Mime)
    (field : FormField Mime) :
    Except WebhookError FormUpdate := do
  let bytes ← field.bytes.mapError .malformed
  match field.fileName with
  | some fileName =>
      .ok
        (.attachment
          { mimeType :=
              (field.contentType.map format.mimeText).getD
                "application/octet-stream"
            fileName := some fileName
            data := bytes })
  | none =>
      readText format (format.text field.contentType bytes)
        (field.name.getD "")

def WebhookDraft.apply
    (draft : WebhookDraft) :
    FormUpdate → WebhookDraft
| .attachment payload =>
    { draft with attachments := draft.attachments ++ [payload] }
| .sessionId text => { draft with sessionId := some text }
| .payload value => { draft with payload := some value }
| .scopes scopes =>
    { draft with
      grantedScopes := draft.grantedScopes ∪ scopes.toFinset }
| .idempotencyKey key =>
    { draft with idempotencyKey := some key }
| .provider provider => { draft with provider := some provider }
| .policyOverride policy =>
    { draft with policyOverride := some policy }
| .nothing => draft

/- The loop does with a text what the text says. -/
theorem WebhookDraft.takeText_eq
    (format : WebhookFormat Mime)
    (draft : WebhookDraft)
    (text name : String) :
    draft.takeText format text name =
      (readText format text name).map draft.apply := by
  unfold WebhookDraft.takeText readText
  split
  · rfl
  · cases parseJsonValue format.value text "payload" <;> rfl
  · by_cases hBlank : isBlank text
    · rw [if_pos hBlank, if_pos hBlank]
      rfl
    · rw [if_neg hBlank, if_neg hBlank]
      simp [Except.map, WebhookDraft.apply,
        Finset.union_comm draft.grantedScopes]
  · cases parseJsonValue format.scopes text
      "granted_scopes" <;> rfl
  · by_cases hBlank : isBlank text
    · rw [if_pos hBlank, if_pos hBlank]
      rfl
    · rw [if_neg hBlank, if_neg hBlank]
      rfl
  · cases parseJsonValue format.provider text
      "provider" <;> rfl
  · cases parseJsonValue format.policy text
      "policy_override" <;> rfl
  · rfl

/- The loop applies what each field says. -/
theorem WebhookDraft.take_eq
    (format : WebhookFormat Mime) :
    WebhookDraft.take format =
      readThen (FormField.read format) WebhookDraft.apply := by
  funext draft field
  unfold WebhookDraft.take readThen FormField.read
  cases field.bytes with
  | error error => rfl
  | ok bytes =>
      cases field.fileName with
      | some fileName => rfl
      | none =>
          exact draft.takeText_eq format
            (format.text field.contentType bytes)
            (field.name.getD "")

------------------------------------------------------------
-- Requests
------------------------------------------------------------

/-
  What the updates of a form say about a request: the last of
  a kind counts, attachments and scopes are all kept, and the
  scopes are in order.
-/
structure Says
    (updates : List FormUpdate)
    (request : WebhookIngressRequest) : Prop where
  sessionId :
    latest FormUpdate.sessionId? updates =
      some request.sessionId
  payload :
    request.payload =
      (latest FormUpdate.payload? updates).getD .null
  attachments :
    request.attachments =
      updates.filterMap FormUpdate.attachment?
  ordered : request.grantedScopes.SortedLT
  granted : ∀ scope,
    scope ∈ request.grantedScopes ↔
      ∃ update ∈ updates, scope ∈ update.granted
  idempotencyKey :
    request.idempotencyKey =
      latest FormUpdate.idempotencyKey? updates
  provider :
    request.provider = latest FormUpdate.provider? updates
  policyOverride :
    request.policyOverride =
      latest FormUpdate.policyOverride? updates

section Requests

variable {updates : List FormUpdate}
variable {request : WebhookIngressRequest}
variable {format : WebhookFormat Mime}
variable {form : Form Mime}

/- The registers of the loop when it has ended. -/
theorem foldl_apply
    (draft : WebhookDraft) :
    updates.foldl WebhookDraft.apply draft =
      { sessionId :=
          (latest FormUpdate.sessionId? updates).or
            draft.sessionId
        payload :=
          (latest FormUpdate.payload? updates).or draft.payload
        attachments :=
          draft.attachments ++
            updates.filterMap FormUpdate.attachment?
        grantedScopes :=
          draft.grantedScopes ∪
            (updates.flatMap FormUpdate.granted).toFinset
        idempotencyKey :=
          (latest FormUpdate.idempotencyKey? updates).or
            draft.idempotencyKey
        provider :=
          (latest FormUpdate.provider? updates).or
            draft.provider
        policyOverride :=
          (latest FormUpdate.policyOverride? updates).or
            draft.policyOverride } := by
  induction updates generalizing draft with
  | nil => simp [latest]
  | cons update rest ih =>
      rw [List.foldl_cons, ih]
      cases update <;>
        simp [WebhookDraft.apply, latest_cons,
          List.filterMap_cons,
          FormUpdate.sessionId?, FormUpdate.payload?,
          FormUpdate.attachment?, FormUpdate.granted,
          FormUpdate.idempotencyKey?, FormUpdate.provider?,
          FormUpdate.policyOverride?, Finset.union_assoc]

/- A draft of updates is closed as the request they say. -/
theorem close_foldl_ok_iff :
    (updates.foldl WebhookDraft.apply {}).close = .ok request ↔
      Says updates request := by
  rw [foldl_apply]
  unfold WebhookDraft.close
  simp only [Option.or_none, List.nil_append,
    Finset.empty_union]
  cases hSession : latest FormUpdate.sessionId? updates with
  | none =>
      constructor
      · intro hClosed
        cases hClosed
      · intro hSays
        have hSome := hSays.sessionId
        rw [hSession] at hSome
        cases hSome
  | some sessionId =>
      constructor
      · intro hClosed
        cases hClosed
        exact
          { sessionId := hSession
            payload := rfl
            attachments := rfl
            ordered :=
              Finset.sortedLT_sort
                (updates.flatMap FormUpdate.granted).toFinset
            granted := by simp
            idempotencyKey := rfl
            provider := rfl
            policyOverride := rfl }
      · intro hSays
        have hSession' := hSays.sessionId
        rw [hSession] at hSession'
        have hScopes :
            (updates.flatMap FormUpdate.granted).toFinset.sort =
              request.grantedScopes := by
          apply (Finset.sortedLT_sort _).eq_of_mem_iff
            hSays.ordered
          intro scope
          rw [hSays.granted]
          simp
        rw [hScopes, Option.some.inj hSession',
          ← hSays.payload, ← hSays.attachments,
          ← hSays.idempotencyKey, ← hSays.provider,
          ← hSays.policyOverride]

theorem parseForm_eq :
    parseForm format form =
      (form.fields.foldlM
          (readThen (FormField.read format) WebhookDraft.apply)
          {}).bind fun draft =>
        match form.broken with
        | some error => .error (.malformed error)
        | none => draft.close := by
  unfold parseForm
  rw [WebhookDraft.take_eq]
  rfl

/- Each field of a form is read to one of the updates. -/
def Form.Updates
    (format : WebhookFormat Mime)
    (form : Form Mime)
    (updates : List FormUpdate) : Prop :=
  List.Forall₂
    (fun field update => field.read format = .ok update)
    form.fields updates

theorem parseForm_ok_iff :
    parseForm format form = .ok request ↔
      form.broken = none ∧
        ∃ updates,
          form.Updates format updates ∧
            Says updates request := by
  rw [parseForm_eq]
  constructor
  · intro hParsed
    cases hFold : form.fields.foldlM
        (readThen (FormField.read format) WebhookDraft.apply)
        {} with
    | error error =>
        rw [hFold] at hParsed
        cases hParsed
    | ok draft =>
        rw [hFold] at hParsed
        rcases foldlM_readThen_ok_iff.mp hFold with
          ⟨updates, hReads, hDraft⟩
        cases hBroken : form.broken with
        | some error =>
            rw [hBroken] at hParsed
            cases hParsed
        | none =>
            rw [hBroken, ← hDraft] at hParsed
            exact
              ⟨rfl, updates, hReads,
                close_foldl_ok_iff.mp hParsed⟩
  · intro hSays
    rcases hSays with ⟨hBroken, updates, hReads, hRequest⟩
    rw [foldlM_readThen_ok_iff.mpr ⟨updates, hReads, rfl⟩,
      hBroken]
    exact close_foldl_ok_iff.mpr hRequest

/- A body with a boundary is parsed as the form it holds. -/
theorem parseMultipartWebhook_ok_iff
    {contentType : String}
    {body : List UInt8} :
    parseMultipartWebhook format contentType body =
        .ok request ↔
      ∃ boundary,
        format.boundary contentType = .ok boundary ∧
          parseForm format (format.form boundary body) =
            .ok request := by
  unfold parseMultipartWebhook
  cases hBoundary : format.boundary contentType with
  | error error =>
      constructor
      · intro hParsed
        cases hParsed
      · intro hReads
        rcases hReads with ⟨boundary, hSome, _⟩
        cases hSome
  | ok boundary =>
      change parseForm format (format.form boundary body) =
        .ok request ↔ _
      constructor
      · intro hParsed
        exact ⟨boundary, rfl, hParsed⟩
      · intro hParsed
        rcases hParsed with ⟨other, hSame, hParsed⟩
        cases hSame
        exact hParsed

end Requests

/-
  A multipart body is a request if and only if it has a
  boundary and is not broken off, all its fields can be read,
  and they say the request.
-/
theorem multipart_reads_iff
    (format : WebhookFormat Mime)
    (contentType : String)
    (body : List UInt8)
    (request : WebhookIngressRequest) :
    parseMultipartWebhook format contentType body =
        .ok request ↔
      ∃ boundary,
        format.boundary contentType = .ok boundary ∧
          (format.form boundary body).broken = none ∧
            ∃ updates,
              (format.form boundary body).Updates format
                  updates ∧
                Says updates request := by
  rw [parseMultipartWebhook_ok_iff]
  simp only [parseForm_ok_iff]

------------------------------------------------------------
-- What Forms Carry
------------------------------------------------------------

/-
  A file with a name that is read, of the type that is taken
  for want of one or of a media type as it is printed.
-/
structure Attachable
    (format : WebhookFormat Mime)
    (named : String → Prop)
    (file : MultimodalPayload) : Prop where
  fileName :
    ∃ fileName, file.fileName = some fileName ∧ named fileName
  mimeType :
    file.mimeType = "application/octet-stream" ∨
      ∃ mime, format.mimeText mime = file.mimeType

/-
  The requests that forms can carry. Attachments have the name
  of a file and a media type, the key is not blank, and what
  is written as JSON has a text. A blank scope has to come in
  a list.
-/
structure Carried
    (format : WebhookFormat Mime)
    (named : String → Prop)
    (request : WebhookIngressRequest) : Prop where
  payload :
    request.payload = .null ∨
      ∃ text, format.value text = .ok request.payload
  attachments :
    ∀ file ∈ request.attachments,
      Attachable format named file
  ordered : request.grantedScopes.SortedLT
  granted :
    ∀ scope ∈ request.grantedScopes,
      isBlank scope = false ∨
        ∃ text scopes,
          format.scopes text = .ok scopes ∧
            scope ∈ scopes ∧ scopes ⊆ request.grantedScopes
  idempotencyKey :
    ∀ key, request.idempotencyKey = some key →
      isBlank key = false
  provider :
    ∀ provider, request.provider = some provider →
      ∃ text, format.provider text = .ok provider
  policyOverride :
    ∀ policy, request.policyOverride = some policy →
      ∃ text, format.policy text = .ok policy

/- What a field can say, whatever its texts are. -/
def FormUpdate.Written
    (format : WebhookFormat Mime)
    (named : String → Prop) :
    FormUpdate → Prop
| .attachment file => Attachable format named file
| .sessionId _ => True
| .payload json => ∃ text, format.value text = .ok json
| .scopes names =>
    (∃ text, names = [text] ∧ isBlank text = false) ∨
      ∃ text, format.scopes text = .ok names
| .idempotencyKey key => isBlank key = false
| .provider config => ∃ text, format.provider text = .ok config
| .policyOverride policy =>
    ∃ text, format.policy text = .ok policy
| .nothing => True

section Carrying

variable {format : WebhookFormat Mime}
variable {named : String → Prop}
variable {field : FormField Mime}
variable {update : FormUpdate}
variable {updates : List FormUpdate}
variable {request : WebhookIngressRequest}

theorem parseJsonValue_map_ok_iff
    {α : Type}
    {read : String → Except String α}
    {text fieldName : String}
    {say : α → FormUpdate} :
    (parseJsonValue read text fieldName).map say = .ok update ↔
      ∃ value, read text = .ok value ∧ say value = update := by
  unfold parseJsonValue
  cases read text with
  | error error => simp [Except.mapError, Except.map]
  | ok value => simp [Except.mapError, Except.map]

theorem written_of_readText
    {text name : String}
    (hRead : readText format text name = .ok update) :
    update.Written format named := by
  unfold readText at hRead
  split at hRead
  · cases hRead
    trivial
  · rcases parseJsonValue_map_ok_iff.mp hRead with
      ⟨json, hText, rfl⟩
    exact ⟨text, hText⟩
  · by_cases hBlank : isBlank text
    · rw [if_pos hBlank] at hRead
      cases hRead
      trivial
    · rw [if_neg hBlank] at hRead
      cases hRead
      exact .inl ⟨text, rfl, by simpa using hBlank⟩
  · rcases parseJsonValue_map_ok_iff.mp hRead with
      ⟨names, hText, rfl⟩
    exact .inr ⟨text, hText⟩
  · by_cases hBlank : isBlank text
    · rw [if_pos hBlank] at hRead
      cases hRead
      trivial
    · rw [if_neg hBlank] at hRead
      cases hRead
      simpa [FormUpdate.Written] using hBlank
  · rcases parseJsonValue_map_ok_iff.mp hRead with
      ⟨config, hText, rfl⟩
    exact ⟨text, hText⟩
  · rcases parseJsonValue_map_ok_iff.mp hRead with
      ⟨policy, hText, rfl⟩
    exact ⟨text, hText⟩
  · cases hRead
    trivial

theorem written_of_read
    (hNamed : ∀ fileName ∈ field.fileName, named fileName)
    (hRead : field.read format = .ok update) :
    update.Written format named := by
  unfold FormField.read at hRead
  cases hBytes : field.bytes with
  | error error =>
      rw [hBytes] at hRead
      cases hRead
  | ok bytes =>
      rw [hBytes] at hRead
      cases hFile : field.fileName with
      | some fileName =>
          rw [hFile] at hRead
          cases hRead
          refine ⟨⟨fileName, rfl, hNamed fileName hFile⟩, ?_⟩
          cases field.contentType with
          | none => exact .inl rfl
          | some mime => exact .inr ⟨mime, rfl⟩
      | none =>
          rw [hFile] at hRead
          exact written_of_readText hRead

/- Some text under some name says the update. -/
theorem exists_readText
    (hWritten : update.Written format named)
    (hText : update.attachment? = none) :
    ∃ text, ∃ name ∈ fieldNames,
      readText format text name = .ok update := by
  cases update with
  | attachment file => cases hText
  | sessionId text =>
      exact ⟨text, "session_id", by decide, rfl⟩
  | payload json =>
      rcases hWritten with ⟨text, hRead⟩
      exact ⟨text, "payload", by decide,
        parseJsonValue_map_ok_iff.mpr ⟨json, hRead, rfl⟩⟩
  | scopes names =>
      rcases hWritten with ⟨text, rfl, hBlank⟩ | ⟨text, hRead⟩
      · refine ⟨text, "granted_scope", by decide, ?_⟩
        simp [readText, hBlank]
      · exact ⟨text, "granted_scopes", by decide,
          parseJsonValue_map_ok_iff.mpr ⟨names, hRead, rfl⟩⟩
  | idempotencyKey key =>
      refine ⟨key, "idempotency_key", by decide, ?_⟩
      have hBlank : isBlank key = false := hWritten
      simp [readText, hBlank]
  | provider config =>
      rcases hWritten with ⟨text, hRead⟩
      exact ⟨text, "provider", by decide,
        parseJsonValue_map_ok_iff.mpr ⟨config, hRead, rfl⟩⟩
  | policyOverride policy =>
      rcases hWritten with ⟨text, hRead⟩
      exact ⟨text, "policy_override", by decide,
        parseJsonValue_map_ok_iff.mpr ⟨policy, hRead, rfl⟩⟩
  | nothing => exact ⟨"", "attachment", by decide, rfl⟩

/- Every text is the text of some bytes. -/
def WebhookFormat.Spells (format : WebhookFormat Mime) : Prop :=
  ∀ text, ∃ bytes, format.text none bytes = text

theorem exists_read
    (hSpells : format.Spells)
    (hWritten : update.Written format named) :
    ∃ field : FormField Mime,
      field.Plain named ∧ field.read format = .ok update := by
  cases hKind : update.attachment? with
  | some file =>
      cases update with
      | attachment other =>
          rcases other with ⟨mimeType, name, data⟩
          rcases hWritten with ⟨⟨fileName, hName, hNamed⟩, hType⟩
          have hText :
              ∃ contentType : Option Mime,
                (contentType.map format.mimeText).getD
                    "application/octet-stream" =
                  mimeType := by
            rcases hType with hDefault | ⟨mime, hMime⟩
            · exact ⟨none, hDefault.symm⟩
            · exact ⟨some mime, hMime⟩
          rcases hText with ⟨contentType, hText⟩
          refine
            ⟨{ name := some "attachment"
               fileName := some fileName
               contentType := contentType
               bytes := .ok data },
              { name := ⟨"attachment", by decide, rfl⟩
                fileName := ?_
                arrives := ⟨data, rfl⟩ }, ?_⟩
          · rintro _ ⟨⟩
            exact hNamed
          · cases hName
            rw [← hText]
            rfl
      | _ => cases hKind
  | none =>
      rcases exists_readText hWritten hKind with
        ⟨text, name, hName, hRead⟩
      rcases hSpells text with ⟨bytes, hBytes⟩
      refine
        ⟨{ name := some name, bytes := .ok bytes },
          { name := ⟨name, hName, rfl⟩
            fileName := by rintro _ ⟨⟩
            arrives := ⟨bytes, rfl⟩ }, ?_⟩
      rw [← hRead, ← hBytes]
      rfl

/- A body carries what some written updates say. -/
theorem exists_body_iff
    (hMulter : Multer format.boundary format.form named)
    (hSpells : format.Spells) :
    (∃ contentType body,
        parseMultipartWebhook format contentType body =
          .ok request) ↔
      ∃ updates,
        (∀ update ∈ updates, update.Written format named) ∧
          Says updates request := by
  simp only [parseMultipartWebhook_ok_iff]
  constructor
  · intro hBody
    rcases hBody with
      ⟨contentType, body, boundary, hBoundary, hParsed⟩
    rcases parseForm_ok_iff.mp hParsed with
      ⟨_, updates, hReads, hSays⟩
    refine ⟨updates, ?_, hSays⟩
    have hRead := exists_reads_iff.mp
      ⟨_, hMulter.reads boundary body, hReads⟩
    intro update hMem
    rcases hRead update hMem with ⟨field, hNamed, hField⟩
    exact written_of_read hNamed hField
  · intro hUpdates
    rcases hUpdates with ⟨updates, hWritten, hSays⟩
    have hFields : ∀ update ∈ updates,
        ∃ field : FormField Mime,
          field.Plain named ∧
            field.read format = .ok update :=
      fun update hMem =>
        exists_read hSpells (hWritten update hMem)
    rcases exists_reads_iff.mpr hFields with
      ⟨fields, hPlain, hReads⟩
    rcases hMulter.writes fields hPlain with
      ⟨contentType, separator, body, hBoundary, hForm⟩
    refine ⟨contentType, body, separator, hBoundary, ?_⟩
    rw [hForm]
    exact parseForm_ok_iff.mpr ⟨rfl, updates, hReads, hSays⟩

------------------------------------------------------------
-- Writing Forms
------------------------------------------------------------

theorem Says.carried
    (hSays : Says updates request)
    (hWritten : ∀ update ∈ updates, update.Written format named) :
    Carried format named request where
  payload := by
    rw [hSays.payload]
    cases hLatest : latest FormUpdate.payload? updates with
    | none => exact .inl rfl
    | some json =>
        rcases mem_of_latest hLatest with
          ⟨update, hMem, hPayload⟩
        have hUpdate := hWritten update hMem
        cases update with
        | payload other =>
            cases hPayload
            exact .inr hUpdate
        | _ => cases hPayload
  attachments := by
    intro file hFile
    rw [hSays.attachments] at hFile
    rcases List.mem_filterMap.mp hFile with
      ⟨update, hMem, hAttached⟩
    have hUpdate := hWritten update hMem
    cases update with
    | attachment other =>
        cases hAttached
        exact hUpdate
    | _ => cases hAttached
  ordered := hSays.ordered
  granted := by
    intro scope hScope
    rcases (hSays.granted scope).mp hScope with
      ⟨update, hMem, hGranted⟩
    have hUpdate := hWritten update hMem
    cases update with
    | scopes names =>
        rcases hUpdate with ⟨text, rfl, hBlank⟩ | ⟨text, hRead⟩
        · cases List.mem_singleton.mp hGranted
          exact .inl hBlank
        · refine .inr ⟨text, names, hRead, hGranted, ?_⟩
          intro other hOther
          exact (hSays.granted other).mpr
            ⟨_, hMem, hOther⟩
    | _ => cases hGranted
  idempotencyKey := by
    intro key hKey
    rw [hSays.idempotencyKey] at hKey
    rcases mem_of_latest hKey with ⟨update, hMem, hSaid⟩
    have hUpdate := hWritten update hMem
    cases update with
    | idempotencyKey other =>
        cases hSaid
        exact hUpdate
    | _ => cases hSaid
  provider := by
    intro config hConfig
    rw [hSays.provider] at hConfig
    rcases mem_of_latest hConfig with ⟨update, hMem, hSaid⟩
    have hUpdate := hWritten update hMem
    cases update with
    | provider other =>
        cases hSaid
        exact hUpdate
    | _ => cases hSaid
  policyOverride := by
    intro policy hPolicy
    rw [hSays.policyOverride] at hPolicy
    rcases mem_of_latest hPolicy with ⟨update, hMem, hSaid⟩
    have hUpdate := hWritten update hMem
    cases update with
    | policyOverride other =>
        cases hSaid
        exact hUpdate
    | _ => cases hSaid

/- Lists of scopes that together grant what is granted. -/
theorem Carried.exists_scopes
    (hCarried : Carried format named request) :
    ∃ lists : List (List String),
      (∀ names ∈ lists,
          (FormUpdate.scopes names).Written format named) ∧
        ∀ scope,
          scope ∈ request.grantedScopes ↔
            ∃ names ∈ lists, scope ∈ names := by
  have hEach : ∀ scope ∈ request.grantedScopes,
      ∃ names,
        (FormUpdate.scopes names).Written format named ∧
          scope ∈ names ∧ names ⊆ request.grantedScopes := by
    intro scope hScope
    rcases hCarried.granted scope hScope with
      hBlank | ⟨text, names, hRead, hMem, hGranted⟩
    · refine ⟨[scope], .inl ⟨scope, rfl, hBlank⟩, by simp, ?_⟩
      intro other hOther
      cases List.mem_singleton.mp hOther
      exact hScope
    · exact ⟨names, .inr ⟨text, hRead⟩, hMem, hGranted⟩
  choose! names hNames using hEach
  refine ⟨request.grantedScopes.map names, ?_, ?_⟩
  · intro list hList
    rcases List.mem_map.mp hList with ⟨scope, hScope, rfl⟩
    exact (hNames scope hScope).1
  · intro scope
    constructor
    · intro hScope
      exact
        ⟨names scope, List.mem_map_of_mem hScope,
          (hNames scope hScope).2.1⟩
    · intro hGranted
      rcases hGranted with ⟨list, hList, hMem⟩
      rcases List.mem_map.mp hList with ⟨other, hOther, rfl⟩
      exact (hNames other hOther).2.2 hMem

/- The updates of a form that carries the request. -/
def updatesOf
    (request : WebhookIngressRequest)
    (payloads : List Json)
    (lists : List (List String)) :
    List FormUpdate :=
  .sessionId request.sessionId ::
    (payloads.map .payload ++
      (request.attachments.map .attachment ++
        (lists.map .scopes ++
          (request.idempotencyKey.toList.map .idempotencyKey ++
            (request.provider.toList.map .provider ++
              request.policyOverride.toList.map
                .policyOverride)))))

theorem getLast?_toList
    {α : Type}
    (value : Option α) :
    value.toList.getLast? = value := by
  cases value <;> rfl

theorem says_updatesOf
    {payloads : List Json}
    {lists : List (List String)}
    (hPayload : request.payload = payloads.getLast?.getD .null)
    (hOrdered : request.grantedScopes.SortedLT)
    (hGranted : ∀ scope,
      scope ∈ request.grantedScopes ↔
        ∃ names ∈ lists, scope ∈ names) :
    Says (updatesOf request payloads lists) request where
  sessionId := by
    simp only [updatesOf, latest, List.filterMap_cons,
      List.filterMap_append, List.filterMap_map,
      Function.comp_def, List.filterMap_none,
      FormUpdate.sessionId?, List.append_nil,
      List.getLast?_singleton]
  payload := by
    simp only [updatesOf, latest, List.filterMap_cons,
      List.filterMap_append, List.filterMap_map,
      Function.comp_def, List.filterMap_some,
      List.filterMap_none, FormUpdate.payload?,
      List.append_nil, hPayload]
  attachments := by
    simp only [updatesOf, List.filterMap_cons,
      List.filterMap_append, List.filterMap_map,
      Function.comp_def, List.filterMap_some,
      List.filterMap_none, FormUpdate.attachment?,
      List.append_nil, List.nil_append]
  ordered := hOrdered
  granted := by
    intro scope
    rw [hGranted]
    simp [updatesOf, FormUpdate.granted, or_and_right,
      exists_or]
  idempotencyKey := by
    simp only [updatesOf, latest, List.filterMap_cons,
      List.filterMap_append, List.filterMap_map,
      Function.comp_def, List.filterMap_some,
      List.filterMap_none, FormUpdate.idempotencyKey?,
      List.append_nil, List.nil_append, getLast?_toList]
  provider := by
    simp only [updatesOf, latest, List.filterMap_cons,
      List.filterMap_append, List.filterMap_map,
      Function.comp_def, List.filterMap_some,
      List.filterMap_none, FormUpdate.provider?,
      List.append_nil, List.nil_append, getLast?_toList]
  policyOverride := by
    simp only [updatesOf, latest, List.filterMap_cons,
      List.filterMap_append, List.filterMap_map,
      Function.comp_def, List.filterMap_some,
      List.filterMap_none, FormUpdate.policyOverride?,
      List.nil_append, getLast?_toList]

theorem Carried.exists_updates
    (hCarried : Carried format named request) :
    ∃ updates,
      (∀ update ∈ updates, update.Written format named) ∧
        Says updates request := by
  rcases hCarried.exists_scopes with
    ⟨lists, hLists, hGranted⟩
  have hPayloads : ∃ payloads : List Json,
      (∀ json ∈ payloads,
          (FormUpdate.payload json).Written format named) ∧
        request.payload = payloads.getLast?.getD .null := by
    rcases hCarried.payload with hNull | hText
    · exact ⟨[], by simp, hNull⟩
    · refine ⟨[request.payload], ?_, rfl⟩
      intro json hJson
      rw [List.mem_singleton.mp hJson]
      exact hText
  rcases hPayloads with ⟨payloads, hWritten, hPayload⟩
  refine ⟨updatesOf request payloads lists, ?_,
    says_updatesOf hPayload hCarried.ordered hGranted⟩
  simp only [updatesOf, List.forall_mem_cons,
    List.forall_mem_append, List.forall_mem_map,
    Option.mem_toList]
  exact
    ⟨trivial, hWritten, hCarried.attachments, hLists,
      hCarried.idempotencyKey, hCarried.provider,
      hCarried.policyOverride⟩

end Carrying

/-
  A multipart body can be written that is parsed to the
  request if and only if forms can carry what the request has.
-/
theorem form_carries_iff
    (format : WebhookFormat Mime)
    (named : String → Prop)
    (request : WebhookIngressRequest)
    (hMulter : Multer format.boundary format.form named)
    (hSpells : format.Spells) :
    (∃ contentType body,
        parseMultipartWebhook format contentType body =
          .ok request) ↔
      Carried format named request := by
  rw [exists_body_iff hMulter hSpells]
  constructor
  · intro hUpdates
    rcases hUpdates with ⟨updates, hWritten, hSays⟩
    exact hSays.carried hWritten
  · intro hCarried
    exact hCarried.exists_updates

------------------------------------------------------------
-- A Form
------------------------------------------------------------

namespace Sample

inductive Media where
  | textPlain
deriving DecidableEq

def mimeText : Media → String
| .textPlain => "text/plain"

/- The heads of fields that may have a file of one name. -/
def formHeads : HeadTable Media :=
  fieldNames.flatMap fun name =>
    [none, some "a.txt"].flatMap fun fileName =>
      [none, some Media.textPlain].map fun contentType =>
        let head : FormHead Media :=
          { name := some name
            fileName := fileName
            contentType := contentType }
        (head, head.bytes mimeText)

/- Texts are UTF-8, and a few of them are JSON. -/
def webhookFormat : WebhookFormat Media where
  boundary := boundaryOf
  form := formHeads.form
  mimeText := mimeText
  text := fun _ bytes =>
    (String.fromUTF8? ⟨bytes.toArray⟩).getD "\uFFFD"
  value := fun text =>
    if text = "1" then .ok (.nat 1) else .error "expected value"
  scopes := fun text =>
    if text = "[\"tool:run\"]" then .ok ["tool:run"]
    else .error "expected value"
  provider := fun _ => .error "expected value"
  policy := fun _ => .error "expected value"

theorem webhookFormat_spells : webhookFormat.Spells := by
  intro text
  refine ⟨text.toUTF8.data.toList, ?_⟩
  change (String.fromUTF8?
    ⟨text.toUTF8.data.toList.toArray⟩).getD "\uFFFD" = text
  rw [Array.toArray_toList]
  change (String.fromUTF8? text.toByteArray).getD "\uFFFD" =
    text
  unfold String.fromUTF8?
  rw [dif_pos text.isValidUTF8]
  rfl

theorem formHeads_lawful :
    formHeads.Lawful (· = "a.txt") where
  apart := by decide +kernel
  begins := by decide +kernel
  files := by decide +kernel
  complete := by
    intro field hPlain
    rcases field with ⟨fieldName, fileName, contentType, bytes⟩
    rcases hPlain with ⟨⟨name, hName, hSame⟩, hFile, data, hData⟩
    dsimp only at hSame hFile hData
    subst hSame hData
    have hFiles : fileName ∈ [none, some "a.txt"] := by
      cases fileName with
      | none => exact List.mem_cons_self
      | some other => simp [hFile other rfl]
    have hTypes : contentType ∈ [none, some .textPlain] := by
      rcases contentType with _ | _ | _ <;> decide
    refine
      ⟨_, List.mem_flatMap.mpr ⟨name, hName,
        List.mem_flatMap.mpr ⟨fileName, hFiles,
          List.mem_map_of_mem hTypes⟩⟩, data, rfl⟩

def webhookRequest : WebhookIngressRequest where
  sessionId := "session"
  payload := .nat 1
  attachments :=
    [{ mimeType := "text/plain"
       fileName := some "a.txt"
       data := [97] }]
  grantedScopes := ["tool:read", "tool:run"]
  idempotencyKey := some "key"
  provider := none
  policyOverride := none

end Sample

theorem form_carries_sample :
    ∃ contentType body,
      parseMultipartWebhook Sample.webhookFormat contentType
          body =
        .ok Sample.webhookRequest :=
  (form_carries_iff Sample.webhookFormat (· = "a.txt")
      Sample.webhookRequest Sample.formHeads_lawful.multer
      Sample.webhookFormat_spells).mpr
    { payload := .inr ⟨"1", rfl⟩
      attachments := by
        intro file hFile
        cases List.mem_singleton.mp hFile
        exact ⟨⟨"a.txt", rfl, rfl⟩, .inr ⟨.textPlain, rfl⟩⟩
      ordered := by decide
      granted := by
        intro scope hScope
        have hBlank : ∀ scope ∈ ["tool:read", "tool:run"],
            isBlank scope = false := by
          decide
        exact .inl (hBlank scope hScope)
      idempotencyKey := by decide
      provider := by
        intro provider hProvider
        cases hProvider
      policyOverride := by
        intro policy hPolicy
        cases hPolicy }

end RainEngine.Runtime
