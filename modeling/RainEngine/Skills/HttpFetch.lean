import RainEngine.Skills.ShellExec
import RainEngine.Web.Redirects

/-
  This file models the skill that makes HTTP requests. It asks
  its allowlist for the host of the URL it is given, and leaves
  what happens to the request after that to its client.

  Key definitions include:
    * `HttpFetchSkill.isAllowed`
    * `HttpFetchSkill.execute`
    * `HttpFetchSkill.Admits`

  Key theorems include:
    * `HttpFetchSkill.execute_within_iff`
-/

namespace RainEngine.Skills

open Web

/- The entries of a map that is filled one by one. -/
def collectMap
    {β : Type} :
    List (String × β) → List (String × β)
| [] => []
| entry :: rest =>
    let kept := collectMap rest
    if kept.any (·.1 = entry.1) then kept else entry :: kept

/- The headers of a response with their texts. -/
def responseHeaders
    (response : Response) :
    List (String × String) :=
  collectMap (response.headers.map fun header =>
    (header.1, header.2.getD ""))

namespace HttpFetchSkill

variable {U : Type}

def isAllowed
    (client : HttpClient U)
    (policy : AccessPolicy)
    (url : String) :
    Bool :=
  if policy.permissive then true
  else
    match client.parse url with
    | .error _ => false
    | .ok parsed =>
        match client.hostStr parsed with
        | none => false
        | some host => host ∈ policy.allowlist

/- The request that the arguments describe. -/
def buildRequest
    (url method : String)
    (args : Json) :
    HttpRequest where
  method := method
  url := url
  headers :=
    (((args.get "headers").bind Json.asObject).getD
      []).filterMap fun header =>
        header.2.asStr.map fun value => (header.1, value)
  body := (args.get "body").bind Json.asStr

/- What the skill makes of a response. -/
def toOutput :
    Except String Response → Except SkillFailure Json
| .error e => .error ⟨.internal, "request failed: " ++ e⟩
| .ok response =>
    match response.body with
    | .error e => .error ⟨.internal, "body read failed: " ++ e⟩
    | .ok body =>
        .ok (.object
          [("status", .nat response.status),
            ("headers", .object
              ((responseHeaders response).map fun header =>
                (header.1, .string header.2))),
            ("body", .string body)])

/- The URLs the skill sends requests to, and its result. -/
def execute
    (client : HttpClient U)
    (servers : Servers U)
    (policy : AccessPolicy)
    (args : Json) :
    List U × Except SkillFailure Json :=
  match (args.get "url").bind Json.asStr with
  | none =>
      ([], .error ⟨.invalidResponse, "missing 'url' arg"⟩)
  | some url =>
      if !isAllowed client policy url then
        ([], .error ⟨.permissionDenied, "host not allowed"⟩)
      else
        let method :=
          ((args.get "method").bind Json.asStr).getD "GET"
        match client.methodError method with
        | some _ =>
            ([],
              .error
                ⟨.invalidResponse,
                  "invalid method: " ++ method⟩)
        | none =>
            let (sent, answer) := client.request servers
              (buildRequest url method args)
            (sent, toOutput answer)

/-
  The arguments make the skill send a request to the URL: it
  is the one they name, its host is on the allowlist, and the
  request can be built.
-/
structure Admits
    (client : HttpClient U)
    (allowlist : Finset String)
    (args : Json)
    (text method : String)
    (url : U) : Prop where
  named : (args.get "url").bind Json.asStr = some text
  asks :
    ((args.get "method").bind Json.asStr).getD "GET" = method
  listed : isAllowed client ⟨allowlist, false⟩ text = true
  known : client.methodError method = none
  sends : client.Sends (buildRequest text method args) url

variable {client : HttpClient U}
variable {servers : Servers U}
variable {allowlist : Finset String}
variable {args : Json}
variable {allowed : String → Prop}

theorem within_nil : client.Within allowed [] := by
  intro url hMem
  cases hMem

/-
  The skill keeps to its allowlist exactly when the servers of
  an admitted request lead to no other host.
-/
theorem execute_within_iff :
    client.Within (· ∈ allowlist)
        (execute client servers ⟨allowlist, false⟩ args).1 ↔
      ∀ text method url,
        Admits client allowlist args text method url →
          client.StaysWithin servers (· ∈ allowlist) url := by
  -- nothing is sent when nothing is admitted
  have hIdle :
      (∀ text method url,
        ¬Admits client allowlist args text method url) →
        (client.Within (· ∈ allowlist) [] ↔
          ∀ text method url,
            Admits client allowlist args text method url →
              client.StaysWithin servers (· ∈ allowlist)
                url) := by
    intro hNone
    refine ⟨?_, fun _ => within_nil⟩
    intro _ text method url hAdmits
    exact absurd hAdmits (hNone text method url)
  unfold execute
  split
  · rename_i hNamed
    apply hIdle
    intro text method url hAdmits
    rw [hAdmits.named] at hNamed
    cases hNamed
  · rename_i text hNamed
    split
    · rename_i hListed
      apply hIdle
      intro other method url hAdmits
      have hSame := hAdmits.named
      rw [hNamed] at hSame
      cases hSame
      rw [hAdmits.listed] at hListed
      cases hListed
    · rename_i hListed
      dsimp only
      split
      · rename_i e hMethod
        apply hIdle
        intro other method url hAdmits
        have hKnown := hAdmits.known
        rw [← hAdmits.asks, hMethod] at hKnown
        cases hKnown
      · rename_i hMethod
        rw [request_within_iff]
        constructor
        · intro hStays other method url hAdmits
          have hSame := hAdmits.named
          rw [hNamed] at hSame
          cases hSame
          apply hStays url
          rw [hAdmits.asks]
          exact hAdmits.sends
        · intro hStays url hSends
          exact hStays text _ url
            ⟨hNamed, rfl, by simpa using hListed, hMethod,
              hSends⟩

end HttpFetchSkill

end RainEngine.Skills
