import Mathlib.Logic.Relation

/-
  This file models an HTTP client that follows redirects. The
  servers decide where a request goes after its first URL, so
  all hosts of a request are allowed exactly when no chain of
  redirects leads away from them.

  Key definitions include:
    * `Addresses`
    * `send`
    * `Hop`
    * `HttpClient.request`

  Key theorems include:
    * `mem_send_iff`
    * `request_within_iff`
-/

namespace Web

------------------------------------------------------------
-- Redirects
------------------------------------------------------------

/-
  URLs, how their texts are read, the hosts they name, and the
  URL that a location given at another URL leads to.
-/
structure Addresses (U : Type) where
  parse : String → Except String U
  hostStr : U → Option String
  join : U → String → Option U

/- A header has no text if its bytes are not readable. -/
structure Response where
  status : Nat
  headers : List (String × Option String)
  body : Except String String

def Response.location (response : Response) : Option String :=
  (response.headers.lookup "location").join

/- Where a response tells the client to go on, if it does. -/
def Response.redirect
    {U : Type}
    (addresses : Addresses U)
    (url : U)
    (response : Response) :
    Option U :=
  if response.status ∈ [301, 302, 303, 307, 308] then
    response.location.bind (addresses.join url)
  else none

/- What is answered to the last of the URLs sent so far. -/
abbrev Servers (U : Type) : Type :=
  List U → Except String Response

/- Send a request and follow its redirects, up to a number. -/
def send
    {U : Type}
    (addresses : Addresses U)
    (servers : Servers U) :
    Nat → List U → U → List U × Except String Response
| hops, sent, url =>
    match servers (sent ++ [url]) with
    | .error e => (sent ++ [url], .error e)
    | .ok response =>
        match response.redirect addresses url, hops with
        | none, _ => (sent ++ [url], .ok response)
        | some _, 0 =>
            (sent ++ [url],
              .error "error following redirect")
        | some next, hops + 1 =>
            send addresses servers hops (sent ++ [url]) next

/-
  One redirect: the URLs sent so far and the one to be sent
  now, before and after it.
-/
inductive Hop
    {U : Type}
    (addresses : Addresses U)
    (servers : Servers U) :
    List U × U → List U × U → Prop where
  | redirect
      {sent : List U}
      {url next : U}
      {response : Response}
      (hAnswer : servers (sent ++ [url]) = .ok response)
      (hNext :
        response.redirect addresses url = some next) :
      Hop addresses servers (sent, url)
        (sent ++ [url], next)

/- Any number of redirects. -/
def Hops
    {U : Type}
    (addresses : Addresses U)
    (servers : Servers U) :
    List U × U → List U × U → Prop :=
  Relation.ReflTransGen (Hop addresses servers)

section Redirects

variable {U : Type}
variable {addresses : Addresses U}
variable {servers : Servers U}
variable {hops : Nat}
variable {sent : List U}
variable {url other : U}
variable {start stop : List U × U}

theorem Hop.length
    (hHop : Hop addresses servers start stop) :
    stop.1.length = start.1.length + 1 := by
  cases hHop with
  | redirect _ _ => exact List.length_append

theorem Hops.length_le
    (hHops : Hops addresses servers start stop) :
    start.1.length ≤ stop.1.length := by
  induction hHops with
  | refl => exact Nat.le_refl _
  | tail _ hHop ih =>
      have hLength := hHop.length
      omega

/- A URL that a number of redirects at most lead to. -/
def Reached
    (addresses : Addresses U)
    (servers : Servers U)
    (hops : Nat)
    (sent : List U)
    (url other : U) :
    Prop :=
  ∃ before,
    Hops addresses servers (sent, url) (before, other) ∧
      before.length ≤ sent.length + hops

theorem Hop.unique
    {stop' : List U × U}
    (hHop : Hop addresses servers start stop)
    (hHop' : Hop addresses servers start stop') :
    stop = stop' := by
  cases hHop with
  | redirect hAnswer hNext =>
      cases hHop' with
      | redirect hAnswer' hNext' =>
          rw [hAnswer] at hAnswer'
          cases hAnswer'
          rw [hNext] at hNext'
          cases hNext'
          rfl

/- Without a redirect there is nowhere to go on. -/
theorem reached_iff_of_stay
    (hStay : ∀ next, ¬Hop addresses servers (sent, url) next) :
    Reached addresses servers hops sent url other ↔
      other = url := by
  constructor
  · rintro ⟨before, hHops, _⟩
    rcases hHops.cases_head with hEq | ⟨next, hHop, _⟩
    · exact (Prod.mk.inj hEq).2.symm
    · exact absurd hHop (hStay next)
  · intro hSame
    subst hSame
    exact ⟨sent, .refl, by omega⟩

theorem reached_zero_iff :
    Reached addresses servers 0 sent url other ↔
      other = url := by
  constructor
  · rintro ⟨before, hHops, hLength⟩
    rcases hHops.cases_head with hEq | ⟨next, hHop, hRest⟩
    · exact (Prod.mk.inj hEq).2.symm
    · have hOne := hHop.length
      have hMore := Hops.length_le hRest
      dsimp only at hOne hMore
      omega
  · intro hSame
    subst hSame
    exact ⟨sent, .refl, by omega⟩

/- After a redirect one less may be followed. -/
theorem reached_succ_iff
    {next : U}
    (hHop : Hop addresses servers (sent, url)
      (sent ++ [url], next)) :
    Reached addresses servers (hops + 1) sent url other ↔
      other = url ∨
        Reached addresses servers hops (sent ++ [url]) next
          other := by
  have hLength : (sent ++ [url]).length = sent.length + 1 :=
    List.length_append
  constructor
  · rintro ⟨before, hHops, hBefore⟩
    rcases hHops.cases_head with hEq | ⟨after, hFirst, hRest⟩
    · exact .inl (Prod.mk.inj hEq).2.symm
    · have hSame := hFirst.unique hHop
      subst hSame
      exact .inr ⟨before, hRest, by omega⟩
  · rintro (hSame | ⟨before, hRest, hBefore⟩)
    · subst hSame
      exact ⟨sent, .refl, by omega⟩
    · exact ⟨before, .head hHop hRest, by omega⟩

/-
  The client sends what it has sent before and every URL it is
  led to by as many redirects as it follows.
-/
theorem mem_send_iff :
    other ∈ (send addresses servers hops sent url).1 ↔
      other ∈ sent ∨
        Reached addresses servers hops sent url other := by
  induction hops generalizing sent url with
  | zero =>
      rw [reached_zero_iff]
      unfold send
      split
      · simp
      · split <;> simp_all
  | succ hops ih =>
      unfold send
      split
      · rename_i e hAnswer
        rw [reached_iff_of_stay]
        · simp
        · intro next hHop
          cases hHop with
          | redirect hOk _ =>
              rw [hAnswer] at hOk
              cases hOk
      · rename_i response hAnswer
        split
        · rename_i hNone
          rw [reached_iff_of_stay]
          · simp
          · intro next hHop
            cases hHop with
            | redirect hOk hNext =>
                rw [hAnswer] at hOk
                cases hOk
                rw [hNone] at hNext
                cases hNext
        · simp_all
        · rename_i next hops' hNext hEq
          cases hEq
          rw [ih, reached_succ_iff (.redirect hAnswer hNext),
            List.mem_append, List.mem_singleton, or_assoc]

end Redirects

------------------------------------------------------------
-- Requests
------------------------------------------------------------

structure HttpRequest where
  method : String
  url : String
  headers : List (String × String)
  body : Option String

/-
  A client: its URLs, what it says of a text that is not a
  method, and of a request that it cannot build.
-/
structure HttpClient (U : Type) extends Addresses U where
  methodError : String → Option String
  buildError : HttpRequest → Option String

/- The redirects a client follows by default. -/
def maxRedirects : Nat := 10

/- The URLs a request is sent to, and what comes back. -/
def HttpClient.request
    {U : Type}
    (client : HttpClient U)
    (servers : Servers U)
    (request : HttpRequest) :
    List U × Except String Response :=
  match client.parse request.url with
  | .error e => ([], .error e)
  | .ok url =>
      if client.hostStr url = none then
        ([], .error "builder error for url")
      else
        match client.buildError request with
        | some e => ([], .error e)
        | none =>
            send client.toAddresses servers maxRedirects []
              url

/- A request that is sent, and its URL. -/
structure HttpClient.Sends
    {U : Type}
    (client : HttpClient U)
    (request : HttpRequest)
    (url : U) : Prop where
  parsed : client.parse request.url = .ok url
  hosted : client.hostStr url ≠ none
  built : client.buildError request = none

/- All hosts of the URLs are among the given ones. -/
def Addresses.Within
    {U : Type}
    (addresses : Addresses U)
    (allowed : String → Prop)
    (urls : List U) :
    Prop :=
  ∀ url ∈ urls, ∀ host,
    addresses.hostStr url = some host → allowed host

/-
  No redirects, as many as a client follows, lead from the URL
  to a host that is not among the given ones.
-/
def Addresses.StaysWithin
    {U : Type}
    (addresses : Addresses U)
    (servers : Servers U)
    (allowed : String → Prop)
    (url : U) :
    Prop :=
  ∀ other, Reached addresses servers maxRedirects [] url other →
    ∀ host, addresses.hostStr other = some host → allowed host

section Requests

variable {U : Type}
variable {client : HttpClient U}
variable {servers : Servers U}
variable {request : HttpRequest}
variable {allowed : String → Prop}

/-
  A request keeps to the allowed hosts exactly when it is not
  sent or its servers lead to no other host.
-/
theorem request_within_iff :
    client.Within allowed
        (client.request servers request).1 ↔
      ∀ url, client.Sends request url →
        client.StaysWithin servers allowed url := by
  unfold HttpClient.request
  split
  · rename_i e hParse
    constructor
    · intro _ url hSends
      rw [hSends.parsed] at hParse
      cases hParse
    · intro _ url hMem
      cases hMem
  · rename_i first hParse
    have hUrl : ∀ url, client.Sends request url →
        url = first := by
      intro url hSends
      have hEq := hSends.parsed
      rw [hParse] at hEq
      cases hEq
      rfl
    split
    · rename_i hHost
      constructor
      · intro _ url hSends
        have hSame := hUrl url hSends
        subst hSame
        exact absurd hHost hSends.hosted
      · intro _ url hMem
        cases hMem
    · rename_i hHost
      split
      · rename_i e hBuild
        constructor
        · intro _ url hSends
          rw [hSends.built] at hBuild
          cases hBuild
        · intro _ url hMem
          cases hMem
      · rename_i hBuild
        constructor
        · intro hWithin url hSends other hReached
          have hSame := hUrl url hSends
          subst hSame
          exact hWithin other
            (mem_send_iff.mpr (.inr hReached))
        · intro hStays other hMem
          rcases mem_send_iff.mp hMem with hOld | hReached
          · cases hOld
          · exact hStays first ⟨hParse, hHost, hBuild⟩ other
              hReached

end Requests

end Web
