import RainEngine.Kernel.Script
import RainEngine.Skills.HttpFetch

/-
  This file models the capabilities that a WASM guest reaches
  through its host, and the host calls that send requests. The
  grants of the manifest are asked for the host of the guest's
  URL, as the native skill asks its allowlist.

  Key definitions include:
    * `ensureCapability`
    * `CapabilityHost.httpFetch`
    * `hostHttpFetch`
    * `Granted`

  Key theorems include:
    * `hostHttpFetch_within_iff`
    * `requests_allowed_iff`
    * `redirect_leaves_allowlist`
-/

namespace RainEngine.Wasm

open Web
open Skills (HttpFetchSkill.execute HttpFetchSkill.Admits)

------------------------------------------------------------
-- Capabilities
------------------------------------------------------------

structure CapabilityError where
  kind : SkillFailureKind
  message : String
deriving DecidableEq

namespace CapabilityError

def denied (message : String) : CapabilityError where
  kind := .capabilityDenied
  message := message

end CapabilityError

inductive CapabilityKind where
  | log
  | kv (namespaceName : String)
  | http (url : String)

def logGranted (capability : SkillCapability) : Bool :=
  match capability with
  | .structuredLog => true
  | _ => false

def kvGranted
    (namespaceName : String)
    (capability : SkillCapability) :
    Bool :=
  match capability with
  | .keyValueRead namespaces => namespaces.contains namespaceName
  | _ => false

def httpGranted
    (host : String)
    (capability : SkillCapability) :
    Bool :=
  match capability with
  | .httpOutbound allowHosts => allowHosts.contains host
  | _ => false

variable {U : Type}

def ensureCapability
    (client : HttpClient U)
    (manifest : SkillManifest) :
    CapabilityKind → Except CapabilityError Unit
| .log =>
    if manifest.capabilityGrants.any logGranted then .ok ()
    else
      .error (.denied "structured log capability not granted")
| .kv namespaceName =>
    if manifest.capabilityGrants.any
        (kvGranted namespaceName) then
      .ok ()
    else
      .error (.denied
        ("key/value capability not granted for namespace `" ++
          namespaceName ++ "`"))
| .http url =>
    match client.parse url with
    | .error e => .error ⟨.invalidResponse, e⟩
    | .ok parsed =>
        let host := (client.hostStr parsed).getD ""
        if manifest.capabilityGrants.any (httpGranted host) then
          .ok ()
        else
          .error (.denied
            ("http capability not granted for host `" ++
              host ++ "`"))

------------------------------------------------------------
-- Requests Of A Guest
------------------------------------------------------------

structure HttpCapabilityRequest where
  url : String
  method : String := "GET"
  headers : List (String × String) := []
  body : Option String := none

structure HttpCapabilityResponse where
  status : Nat
  body : String
  headers : List (String × String)

structure WasmSkillResponse where
  ok : Bool
  value : Json
  error : Option String

/- What a guest reads back from a host call. -/
inductive GuestAnswer where
  | http (response : HttpCapabilityResponse)
  | failure (response : WasmSkillResponse)

/- The hosts that come with the executor. -/
inductive CapabilityHost where
  | noop
  | inMemory (httpEnabled : Bool)

def HttpCapabilityRequest.toRequest
    (request : HttpCapabilityRequest) :
    HttpRequest where
  method := request.method
  url := request.url
  headers := request.headers
  body := request.body

def toCapabilityResponse :
    Except String Response →
      Except CapabilityError HttpCapabilityResponse
| .error e => .error ⟨.internal, e⟩
| .ok response =>
    match response.body with
    | .error e => .error ⟨.internal, e⟩
    | .ok body =>
        .ok
          { status := response.status
            body := body
            headers := Skills.responseHeaders response }

def CapabilityHost.httpFetch
    (client : HttpClient U)
    (servers : Servers U)
    (request : HttpCapabilityRequest) :
    CapabilityHost →
      List U × Except CapabilityError HttpCapabilityResponse
| .noop =>
    ([],
      .error (.denied "http capability host is not configured"))
| .inMemory false =>
    ([], .error (.denied "http client is disabled"))
| .inMemory true =>
    match client.methodError request.method with
    | some e => ([], .error ⟨.invalidResponse, e⟩)
    | none =>
        let (sent, answer) :=
          client.request servers request.toRequest
        (sent, toCapabilityResponse answer)

def serializeErrorResponse
    (message : String) :
    WasmSkillResponse where
  ok := false
  value := .null
  error := some message

/-
  The URLs a host call sends requests to, and what the guest
  reads or the text of the trap it ends in.
-/
def hostHttpFetch
    (client : HttpClient U)
    (servers : Servers U)
    (manifest : SkillManifest)
    (capabilities : CapabilityHost)
    (request : HttpCapabilityRequest) :
    List U × Except String GuestAnswer :=
  match ensureCapability client manifest
      (.http request.url) with
  | .error e =>
      ([], .ok (.failure (serializeErrorResponse e.message)))
  | .ok _ =>
      let (sent, answer) :=
        capabilities.httpFetch client servers request
      match answer with
      | .error e => (sent, .error e.message)
      | .ok response => (sent, .ok (.http response))

/- The hosts that the grants of a manifest allow. -/
def Granted
    (manifest : SkillManifest)
    (host : String) :
    Prop :=
  ∃ allowHosts,
    .httpOutbound allowHosts ∈ manifest.capabilityGrants ∧
      host ∈ allowHosts

/- A host call that sends a request to the URL. -/
structure Admits
    (client : HttpClient U)
    (manifest : SkillManifest)
    (capabilities : CapabilityHost)
    (request : HttpCapabilityRequest)
    (url : U) : Prop where
  granted :
    ensureCapability client manifest (.http request.url) =
      .ok ()
  enabled : capabilities = .inMemory true
  known : client.methodError request.method = none
  sends : client.Sends request.toRequest url

section Requests

variable {client : HttpClient U}
variable {servers : Servers U}
variable {manifest : SkillManifest}
variable {capabilities : CapabilityHost}
variable {request : HttpCapabilityRequest}
variable {allowed : String → Prop}

/- A host call sends what its capability host sends. -/
theorem hostHttpFetch_sent
    (hGranted :
      ensureCapability client manifest (.http request.url) =
        .ok ()) :
    (hostHttpFetch client servers manifest capabilities
        request).1 =
      (capabilities.httpFetch client servers request).1 := by
  unfold hostHttpFetch
  rw [hGranted]
  dsimp only
  cases (capabilities.httpFetch client servers request).2 with
  | error e => rfl
  | ok response => rfl

/-
  A host call keeps to the granted hosts exactly when the
  servers of an admitted request lead to no other host.
-/
theorem hostHttpFetch_within_iff :
    client.Within (Granted manifest)
        (hostHttpFetch client servers manifest capabilities
          request).1 ↔
      ∀ url, Admits client manifest capabilities request url →
        client.StaysWithin servers (Granted manifest) url := by
  -- nothing is sent when nothing is admitted
  have hIdle :
      (∀ url,
        ¬Admits client manifest capabilities request url) →
        (client.Within (Granted manifest) [] ↔
          ∀ url,
            Admits client manifest capabilities request url →
              client.StaysWithin servers (Granted manifest)
                url) := by
    intro hNone
    refine ⟨?_, fun _ => Skills.HttpFetchSkill.within_nil⟩
    intro _ url hAdmits
    exact absurd hAdmits (hNone url)
  cases hGranted : ensureCapability client manifest
      (.http request.url) with
  | error e =>
      have hSent : (hostHttpFetch client servers manifest
          capabilities request).1 = [] := by
        unfold hostHttpFetch
        rw [hGranted]
      rw [hSent]
      apply hIdle
      intro url hAdmits
      rw [hAdmits.granted] at hGranted
      cases hGranted
  | ok granted =>
      rw [hostHttpFetch_sent hGranted]
      unfold CapabilityHost.httpFetch
      split
      · apply hIdle
        intro url hAdmits
        cases hAdmits.enabled
      · apply hIdle
        intro url hAdmits
        cases hAdmits.enabled
      · split
        · rename_i e hMethod
          apply hIdle
          intro url hAdmits
          rw [hAdmits.known] at hMethod
          cases hMethod
        · rename_i hMethod
          rw [request_within_iff]
          constructor
          · intro hStays url hAdmits
            exact hStays url hAdmits.sends
          · intro hStays url hSends
            exact hStays url ⟨hGranted, rfl, hMethod, hSends⟩

end Requests

/-
  Both ways to send a request keep to the hosts they are given
  exactly when no admitted request is led to another host by
  as many redirects as a client follows.
-/
theorem requests_allowed_iff
    (client : HttpClient U)
    (servers : Servers U)
    (allowlist : Finset String)
    (args : Json)
    (manifest : SkillManifest)
    (capabilities : CapabilityHost)
    (request : HttpCapabilityRequest) :
    (client.Within (· ∈ allowlist)
        (HttpFetchSkill.execute client servers
          ⟨allowlist, false⟩ args).1 ↔
      ∀ text method url,
        HttpFetchSkill.Admits client allowlist args text
            method url →
          client.StaysWithin servers (· ∈ allowlist) url) ∧
    (client.Within (Granted manifest)
        (hostHttpFetch client servers manifest capabilities
          request).1 ↔
      ∀ url, Admits client manifest capabilities request url →
        client.StaysWithin servers (Granted manifest) url) :=
  ⟨Skills.HttpFetchSkill.execute_within_iff,
    hostHttpFetch_within_iff⟩

------------------------------------------------------------
-- A Redirect To Another Host
------------------------------------------------------------

namespace Sample

/- URLs of the form `http://host/path`. -/
def addresses : Addresses String where
  parse text :=
    if text.startsWith "http://" then .ok text
    else .error "relative URL without a base"
  hostStr url :=
    some (String.ofList
      ((url.toList.drop 7).takeWhile (· ≠ '/')))
  join _ location :=
    if location.startsWith "http://" then some location
    else none

def client : HttpClient String where
  toAddresses := addresses
  methodError _ := none
  buildError _ := none

/- The first server sends its client on to another one. -/
def redirecting : Servers String
| ["http://public/"] =>
    .ok
      { status := 302
        headers := [("location", some "http://internal/")]
        body := .ok "" }
| _ => .ok { status := 200, headers := [], body := .ok "" }

def granting : SkillManifest :=
  { RainEngine.Sample.manifest "fetcher" with
    capabilityGrants := [.httpOutbound ["public"]] }

end Sample

/-
  A listed server redirects to a host that is not listed, and
  the client sends a request there, for the native skill and
  for a guest.
-/
theorem redirect_leaves_allowlist :
    ¬(∀ (servers : Servers String) allowlist args,
      Sample.client.Within (· ∈ allowlist)
        (HttpFetchSkill.execute Sample.client servers
          ⟨allowlist, false⟩ args).1) ∧
    ¬(∀ (servers : Servers String) manifest capabilities
        request,
      Sample.client.Within (Granted manifest)
        (hostHttpFetch Sample.client servers manifest
          capabilities request).1) := by
  constructor
  · intro hWithin
    have hHost := hWithin Sample.redirecting {"public"}
      (.object [("url", .string "http://public/")])
      "http://internal/" (by decide +kernel) "internal"
      (by decide +kernel)
    revert hHost
    decide
  · intro hWithin
    have hHost := hWithin Sample.redirecting Sample.granting
      (.inMemory true) { url := "http://public/" }
      "http://internal/" (by decide +kernel) "internal"
      (by decide +kernel)
    rcases hHost with ⟨allowHosts, hGrant, hMem⟩
    have hHosts : allowHosts = ["public"] := by
      simpa [Sample.granting] using hGrant
    subst hHosts
    revert hMem
    decide

end RainEngine.Wasm
