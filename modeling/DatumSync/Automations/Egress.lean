import DatumSync.Proxy.Confinement
import DatumSync.Proxy.Egress

/-!
# Where HTTP actions connect to

`_fetch` with a resolver that may answer every lookup anew.  The guard of a hop, `_resolve_public`,
inspects the answer of its own lookup; the HTTP client looks the host up again when it connects.
The guard lets through what is global and not multicast, so a reserved IPv6 address passes, and a
multicast or shared IPv4 address in its mapped form.
-/

namespace DatumSync.Automations

open Foundation Python

/-- The URL type of the HTTP client and `repr`, as `_fetch` uses them. -/
structure Web where
  /-- Scheme, host and port of `httpx.URL(url)`. -/
  parse : Str → Except Exc (Str × Str × Option ℕ)
  /-- `str(response.next_request.url)` -/
  nextUrl : Str → Str → Except Exc Str
  reprOf : Str → Str

/-- The arguments of `_fetch`, as a hop leaves them. -/
structure Fetch where
  url : Str
  method : Str
  headers : Dict
  body : Option Str

def httpMaxRedirects : ℕ := 3

def fetchError (message : Str) : Exc := .raised .automationError message

/-- `address.is_global and not address.is_multicast` -/
def isPublic (address : IpAddress) : Bool := address.isGlobal && !address.isMulticast

/-- A public address is globally routable unless, in its IPv4 or its unmapped IPv6 form, it is
reserved, multicast or shared. -/
theorem globallyRoutable_iff_of_public {a : IpAddress} (h : isPublic a = true) :
    a.globallyRoutable = true ↔ ¬ (a.unmapped.isReserved = true ∨
      a.unmapped.isMulticast = true ∨ a.isShared = true) := by
  simp only [isPublic, Bool.and_eq_true, Bool.not_eq_true'] at h
  obtain ⟨hglobal, hmulticast⟩ := h
  have hfour {n : BitVec 32} (hn : isPrivate4 n = false) :
      (IpAddress.v4 n).globallyRoutable = true ↔
        ¬ (isReserved4 n = true ∨ isMulticast4 n = true ∨ isShared4 n = true) := by
    have hreserved : ¬ isReserved4 n = true := by
      intro hreserved
      rw [isPrivate4_of_special (.inr (.inr hreserved))] at hn
      cases hn
    rw [globallyRoutable_v4, hn, or_iff_right hreserved, not_or, Bool.not_eq_true,
      Bool.not_eq_true, Bool.not_false, Bool.true_and, Bool.and_eq_true, Bool.not_eq_true',
      Bool.not_eq_true', and_comm]
  cases a with
  | v4 n =>
    simp only [IpAddress.isGlobal, Bool.and_eq_true, Bool.not_eq_true'] at hglobal
    exact hfour hglobal.2
  | v6 n =>
    simp only [IpAddress.isGlobal, Bool.not_eq_true'] at hglobal
    cases hmapped : IpAddress.ipv4Mapped n with
    | some m =>
      have hunmapped : (IpAddress.v6 n).unmapped = .v4 m := by
        simp only [IpAddress.unmapped, hmapped]
      have hshared : (IpAddress.v6 n).isShared = isShared4 m := by
        simp only [IpAddress.isShared, hmapped, Option.any_some]
      simp only [IpAddress.isPrivate, hmapped] at hglobal
      rw [globallyRoutable_mapped hmapped, hunmapped, hshared]
      exact hfour hglobal
    | none =>
      have hunmapped : (IpAddress.v6 n).unmapped = .v6 n := by
        simp only [IpAddress.unmapped, hmapped]
      have hshared : (IpAddress.v6 n).isShared = false := by
        simp only [IpAddress.isShared, hmapped, Option.any_none]
      rw [globallyRoutable_v6 hmapped, hunmapped, hglobal, hmulticast, hshared]
      simp only [IpAddress.isReserved, Bool.not_false, Bool.true_and, Bool.and_true,
        Bool.false_eq_true, or_false, Bool.not_eq_true, Bool.not_eq_true']

variable (web : Web) (texts : Proxy.Texts)

/-- The loop of `_resolve_public` over what its lookup has found. -/
def checkPublic (host : Str) : List Str → Except Exc Unit
  | [] => .ok ()
  | text :: rest =>
    if isPublic (texts.ipAddress text) then checkPublic host rest
    else .error (fetchError (host ++ str " resolves to " ++ texts.strOf (texts.ipAddress text) ++
      str ", which is not a public address"))

def resolvePublic (host : Str) : Proxy.Lookup → Except Exc Unit
  | .addresses found => checkPublic texts host found
  | .unresolved reason =>
    .error (fetchError (str "cannot resolve " ++ host ++ str ": " ++ reason))
  | .raised e => .error e

/-- A hop of `_fetch` up to its request; the lookup is that of the host and the port of the URL. -/
def fetchGuard (hop : ℕ) (fetch : Fetch) (answer : Proxy.Lookup) : Except Exc Fetch :=
  if httpMaxRedirects < hop then
    .error (fetchError (str "more than " ++ decimal httpMaxRedirects ++ str " redirects"))
  else match web.parse fetch.url with
    | .error e => .error e
    | .ok (scheme, host, _) =>
      if scheme ≠ str "http" ∧ scheme ≠ str "https" then
        .error (fetchError (str "refusing scheme " ++ web.reprOf scheme))
      else (resolvePublic texts host answer).map fun _ ↦ fetch

/-- What follows a response: the redirect it asks for, or nothing. -/
def fetchFollow (fetch : Fetch) : Except Exc Proxy.Response → Option Fetch
  | .error _ => none
  | .ok response =>
    let location := response.location.getD []
    if !response.isRedirect || location.isEmpty then none
    else
      let method := if response.status ∈ [301, 302, 303] then str "GET" else fetch.method
      (web.nextUrl fetch.url location).toOption.map fun url ↦
        { fetch with
          url := url
          method := method
          body := if method = str "GET" then none else fetch.body }

variable {web texts}

theorem checkPublic_ok {host : Str} {found : List Str}
    (h : checkPublic texts host found = .ok ()) :
    ∀ text ∈ found, isPublic (texts.ipAddress text) = true := by
  induction found with
  | nil => exact fun text htext ↦ absurd htext List.not_mem_nil
  | cons first rest ih =>
    rw [checkPublic] at h
    split at h
    · next hpublic =>
      intro text htext
      rcases List.mem_cons.mp htext with hhead | hrest
      · rw [hhead]
        exact hpublic
      · exact ih h text hrest
    · cases h

theorem found_of_fetchGuard {hop : ℕ} {fetch request : Fetch} {answer : Proxy.Lookup}
    (h : fetchGuard web texts hop fetch answer = .ok request) :
    ∀ a ∈ answer.found texts, isPublic a = true := by
  unfold fetchGuard at h
  split at h
  · cases h
  · split at h
    · cases h
    · next host _ _ =>
      split at h
      · cases h
      · cases answer with
        | addresses found =>
          cases hcheck : checkPublic texts host found with
          | error e =>
            rw [resolvePublic, hcheck] at h
            cases h
          | ok _ =>
            intro a ha
            obtain ⟨text, htext, rfl⟩ := List.mem_map.mp ha
            exact checkPublic_ok hcheck text htext
        | unresolved reason => exact fun a ha ↦ absurd ha List.not_mem_nil
        | raised e => exact fun a ha ↦ absurd ha List.not_mem_nil

variable (web texts)

def fetchLoop : HopLoop Fetch Fetch Proxy.Lookup (Except Exc Proxy.Response) IpAddress where
  guard hop fetch answer := (fetchGuard web texts hop fetch answer).toOption
  inspected := Proxy.Lookup.found texts
  admits := isPublic
  follow _ := fetchFollow web
  guard_admits := by
    intro hop fetch answer request h a ha
    cases hguard : fetchGuard web texts hop fetch answer with
    | error e =>
      rw [hguard] at h
      cases h
    | ok _ => exact found_of_fetchGuard hguard a ha

/-! ## Both loops -/

variable {web texts} {outside : Proxy.Outside}

/-- Every address `_fetch` and `proxy_request` open a connection to was inspected for its hop and is
globally routable exactly when each request opens only addresses the guard's lookup of the hop has
answered with, none of them reserved, multicast or shared in an action and none of them shared in a
proxied request. -/
theorem egress_pinned_iff {fetch : Fetch}
    {actions : List (HopLoop.Action Proxy.Lookup (Except Exc Proxy.Response) IpAddress)}
    {s : HopLoop.State Fetch Fetch IpAddress}
    (hfetch : (fetchLoop web texts).machine.run (.start fetch) actions = some s)
    {call : Proxy.Call}
    {hops : List (HopLoop.Action Proxy.Lookup (Except Exc Proxy.Response) IpAddress)}
    {t : HopLoop.State Proxy.Upcoming Proxy.Outgoing IpAddress}
    (hproxy : (Proxy.egressLoop outside texts).machine.run (.start (.first call)) hops = some t) :
    ((fetchLoop web texts).machine.Always
        (HopLoop.Pinned fun a ↦ a.globallyRoutable = true) (.start fetch) actions ↔
      (fetchLoop web texts).machine.Meets
        (HopLoop.Steady fun a ↦ a.unmapped.isReserved = true ∨ a.unmapped.isMulticast = true ∨
          a.isShared = true)
        (.start fetch) actions) ∧
    ((Proxy.egressLoop outside texts).machine.Always
        (HopLoop.Pinned fun a ↦ a.globallyRoutable = true) (.start (.first call)) hops ↔
      (Proxy.egressLoop outside texts).machine.Meets
        (HopLoop.Steady fun a ↦ a.isShared = true) (.start (.first call)) hops) := by
  refine ⟨HopLoop.pinned_iff_steady (fun _ ↦ globallyRoutable_iff_of_public) hfetch,
    HopLoop.pinned_iff_steady (fun a ha ↦ ?_) hproxy⟩
  rw [Proxy.globallyRoutable_iff_of_not_blocked (Bool.not_eq_true' _ ▸ ha), Bool.not_eq_true]

/-! ## A name that is answered anew -/

def sampleWeb : Web where
  parse _ := .ok (str "https", str "hooks.example.com", none)
  nextUrl _ location := .ok location
  reprOf := id

/-- Dotted IPv4 addresses are read as `ipaddress` reads them. -/
def sampleTexts : Proxy.Texts where
  ipAddress text :=
    match (split (cp '.') text).map digitsValue with
    | [a, b, c, d] => .v4 (BitVec.ofNat 32 (((a * 256 + b) * 256 + c) * 256 + d))
    | _ => .v4 0
  strOf _ := []

def sampleFetch : Fetch where
  url := str "https://hooks.example.com/in"
  method := str "POST"
  headers := .empty
  body := some (str "done")

/-- One request: what the guard's lookup answers, and what the client connects to. -/
def oneRequest (answer opened : String) :
    List (HopLoop.Action Proxy.Lookup (Except Exc Proxy.Response) IpAddress) :=
  [.guard (.addresses [str answer]), .connect [sampleTexts.ipAddress (str opened)]]

theorem egress_pinned_iff_steadyName :
    ((fetchLoop sampleWeb sampleTexts).machine.Always
        (HopLoop.Pinned fun a ↦ a.globallyRoutable = true) (.start sampleFetch)
        (oneRequest "93.184.216.34" "93.184.216.34") ↔
      (fetchLoop sampleWeb sampleTexts).machine.Meets
        (HopLoop.Steady fun a ↦ a.unmapped.isReserved = true ∨ a.unmapped.isMulticast = true ∨
          a.isShared = true)
        (.start sampleFetch) (oneRequest "93.184.216.34" "93.184.216.34")) ∧
    ((Proxy.egressLoop (Proxy.redirectingApi Proxy.bearerRule) sampleTexts).machine.Always
        (HopLoop.Pinned fun a ↦ a.globallyRoutable = true) (.start (.first Proxy.agentCall))
        (oneRequest "93.184.216.34" "93.184.216.34") ↔
      (Proxy.egressLoop (Proxy.redirectingApi Proxy.bearerRule) sampleTexts).machine.Meets
        (HopLoop.Steady fun a ↦ a.isShared = true) (.start (.first Proxy.agentCall))
        (oneRequest "93.184.216.34" "93.184.216.34")) := by
  have hfetch : ((fetchLoop sampleWeb sampleTexts).machine.run (.start sampleFetch)
      (oneRequest "93.184.216.34" "93.184.216.34")).isSome = true := by decide +kernel
  have hproxy : ((Proxy.egressLoop (Proxy.redirectingApi Proxy.bearerRule) sampleTexts).machine.run
      (.start (.first Proxy.agentCall)) (oneRequest "93.184.216.34" "93.184.216.34")).isSome =
      true := by decide +kernel
  obtain ⟨s, hs⟩ := Option.isSome_iff_exists.mp hfetch
  obtain ⟨t, ht⟩ := Option.isSome_iff_exists.mp hproxy
  exact egress_pinned_iff hs ht

def opened {Pending Request : Type} (s : HopLoop.State Pending Request IpAddress) :
    List (IpAddress × List IpAddress) :=
  s.openings.map fun o ↦ (o.address, o.inspected)

/-- An address that is opened and not inspected, or not routable, is not pinned. -/
theorem not_pinned {Pending Request : Type} {s : HopLoop.State Pending Request IpAddress}
    {a : IpAddress} {inspected : List IpAddress} (hopened : (a, inspected) ∈ opened s)
    (hnot : a ∉ inspected ∨ a.globallyRoutable = false) :
    ¬ HopLoop.Pinned (fun a ↦ a.globallyRoutable = true) s := by
  intro hpinned
  obtain ⟨o, ho, heq⟩ := List.mem_map.mp hopened
  obtain ⟨rfl, rfl⟩ := Prod.mk.inj heq
  obtain ⟨hmem, hroutable⟩ := hpinned o ho
  rcases hnot with hnot | hnot
  · exact hnot hmem
  · rw [hnot] at hroutable
    cases hroutable

/-- The name of a webhook is answered with a public address for the guard and with the loopback
address for the client; a proxied request goes to a shared address that both lookups answer with. -/
theorem anewAnswered_not_pinned :
    (∃ s, (fetchLoop sampleWeb sampleTexts).machine.run (.start sampleFetch)
        (oneRequest "93.184.216.34" "127.0.0.1") = some s ∧
      ¬ HopLoop.Pinned (fun a ↦ a.globallyRoutable = true) s) ∧
    ∃ t, (Proxy.egressLoop (Proxy.redirectingApi Proxy.bearerRule) sampleTexts).machine.run
        (.start (.first Proxy.agentCall)) (oneRequest "100.64.0.1" "100.64.0.1") = some t ∧
      ¬ HopLoop.Pinned (fun a ↦ a.globallyRoutable = true) t := by
  have hfetch : ((fetchLoop sampleWeb sampleTexts).machine.run (.start sampleFetch)
      (oneRequest "93.184.216.34" "127.0.0.1")).map opened =
      some [(.v4 0x7f000001, [.v4 0x5db8d822])] := by decide +kernel
  have hproxy : ((Proxy.egressLoop (Proxy.redirectingApi Proxy.bearerRule) sampleTexts).machine.run
      (.start (.first Proxy.agentCall)) (oneRequest "100.64.0.1" "100.64.0.1")).map opened =
      some [(.v4 0x64400001, [.v4 0x64400001])] := by decide +kernel
  obtain ⟨s, hs, hopened⟩ := Option.map_eq_some_iff.mp hfetch
  obtain ⟨t, ht, hshared⟩ := Option.map_eq_some_iff.mp hproxy
  refine ⟨⟨s, hs, not_pinned (hopened ▸ List.mem_cons_self) (.inl ?_)⟩,
    ⟨t, ht, not_pinned (hshared ▸ List.mem_cons_self) (.inr ?_)⟩⟩
  · decide
  · decide +kernel

end DatumSync.Automations
