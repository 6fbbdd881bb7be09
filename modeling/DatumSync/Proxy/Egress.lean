import DatumSync.Foundation.CheckThenUse
import DatumSync.Proxy.Request
import DatumSync.Python.IpAddress

/-!
# Where proxied requests connect to

`proxy_request` with a resolver that may answer every lookup anew.  The guard of a hop,
`validate_upstream_url`, inspects the answer of its own lookup; the HTTP client looks the host up
again when it connects.  The guard is a list of what is blocked, and the shared address space of
carriers is not on it.
-/

namespace DatumSync.Proxy

open Foundation Python

inductive Lookup where
  | addresses (found : List Str)
  | unresolved (reason : Str)
  | raised (e : Exc)

/-- How `ipaddress` reads and writes addresses. -/
structure Texts where
  /-- `ipaddress.ip_address` -/
  ipAddress : Str → IpAddress
  strOf : IpAddress → Str

def Lookup.found (texts : Texts) : Lookup → List IpAddress
  | addresses found => found.map texts.ipAddress
  | _ => []

def ipIsBlocked (address : IpAddress) : Bool :=
  address.isPrivate || address.isLoopback || address.isLinkLocal || address.isReserved ||
    address.isMulticast || address.isUnspecified

/-- An address that is not blocked is globally routable unless it is shared. -/
theorem globallyRoutable_iff_of_not_blocked {a : IpAddress} (h : ipIsBlocked a = false) :
    a.globallyRoutable = true ↔ a.isShared = false := by
  simp only [ipIsBlocked, Bool.or_eq_false_iff] at h
  obtain ⟨⟨⟨⟨⟨hprivate, -⟩, -⟩, hreserved⟩, hmulticast⟩, -⟩ := h
  cases a with
  | v4 n =>
    have hprivate : isPrivate4 n = false := hprivate
    have hmulticast : isMulticast4 n = false := hmulticast
    rw [globallyRoutable_v4, hprivate, hmulticast, Bool.not_false, Bool.true_and, Bool.and_true,
      Bool.not_eq_true']
    rfl
  | v6 n =>
    have hreserved : isReserved6 n = false := hreserved
    cases hmapped : IpAddress.ipv4Mapped n with
    | some m =>
      rw [isReserved6_of_mapped hmapped] at hreserved
      cases hreserved
    | none =>
      have hshared : (IpAddress.v6 n).isShared = false := by
        rw [IpAddress.isShared, hmapped]
        rfl
      rw [globallyRoutable_v6 hmapped, hprivate, hreserved, hmulticast, hshared]
      exact ⟨fun _ ↦ rfl, fun _ ↦ rfl⟩

variable (outside : Outside) (texts : Texts)

def Outside.answering (answer : Lookup) : Outside :=
  { outside with
    getaddrinfo := fun _ _ ↦
      match answer with
      | .addresses found => .ok (some found)
      | .unresolved _ => .ok none
      | .raised e => .error e
    ipIsBlocked := fun text ↦ Proxy.ipIsBlocked (texts.ipAddress text) }

/-- What the proxy is about to request: the first hop of a call, or where a redirect leads.  The
headers are those of the first hop. -/
inductive Upcoming where
  | first (call : Call)
  | redirect (headers : Dict) (request : Request) (location : Str)

/-- A request that is to be sent, with the headers of the first hop. -/
structure Outgoing where
  headers : Dict
  request : Request

/-- Steps 1 to 6 of the call, or the validation of a redirect. -/
def egressGuard (hop : ℕ) (upcoming : Upcoming) (answer : Lookup) : Except Exc Outgoing :=
  match upcoming with
  | .first call => (prepare (outside.answering texts answer) call).map fun request ↦
      ⟨request.headers, request⟩
  | .redirect headers request location =>
    match redirectUrl (outside.answering texts answer) request location with
    | .error e => .error e
    | .ok url =>
      if hop ≤ maxRedirects then .ok ⟨headers, redirectRequest headers url⟩
      else .error (apiError 502 "TOO_MANY_REDIRECTS" (str "upstream redirect loop"))

/-- Step 7 after a response. -/
def egressFollow (outgoing : Outgoing) : Except Exc Response → Option Upcoming
  | .error _ => none
  | .ok response =>
    if !response.isRedirect then none
    else if response.location.getD [] = [] then none
    else some (.redirect outgoing.headers outgoing.request (response.location.getD []))

variable {outside texts}

/-- A URL is let through only when its host resolves and no address of it is blocked. -/
theorem resolves_of_valid {url : Str} (h : validateUpstreamUrl outside url = .ok ()) :
    ∃ host number addresses, outside.getaddrinfo host number = .ok (some addresses) ∧
      addresses.any outside.ipIsBlocked = false := by
  unfold validateUpstreamUrl at h
  dsimp only at h
  split at h
  · cases h
  · split at h
    · cases h
    · split at h
      · cases h
      · split at h
        · cases h
        · split at h
          · cases h
          · cases h
          · next haddresses =>
            split at h
            · cases h
            · next hblocked => exact ⟨_, _, _, haddresses, Bool.not_eq_true _ ▸ hblocked⟩

theorem found_of_valid {answer : Lookup} {url : Str}
    (h : validateUpstreamUrl (outside.answering texts answer) url = .ok ()) :
    ∀ a ∈ answer.found texts, Proxy.ipIsBlocked a = false := by
  obtain ⟨host, number, addresses, haddresses, hblocked⟩ := resolves_of_valid h
  cases answer with
  | unresolved _ | raised _ => cases haddresses
  | addresses found =>
    obtain rfl : found = addresses := Option.some.inj (Except.ok.inj haddresses)
    intro a ha
    obtain ⟨text, htext, rfl⟩ := List.mem_map.mp ha
    exact Bool.not_eq_true _ ▸ List.any_eq_false.mp hblocked text htext

theorem valid_of_prepare {call : Call} {request : Request} (h : prepare outside call = .ok request) :
    ∃ url, validateUpstreamUrl outside url = .ok () := by
  unfold prepare at h
  split at h
  · cases h
  · split at h
    · cases h
    · split at h
      · cases h
      · next base hbase =>
        split at h
        · cases h
        · next hvalid => exact ⟨_, hvalid⟩

theorem valid_of_redirectUrl {request : Request} {location url : Str}
    (h : redirectUrl outside request location = .ok url) :
    validateUpstreamUrl outside url = .ok () := by
  unfold redirectUrl at h
  split at h
  · cases h
  · split at h
    · cases h
    · next hvalid =>
      rw [← Except.ok.inj h]
      exact hvalid

theorem found_of_egressGuard {hop : ℕ} {upcoming : Upcoming} {answer : Lookup}
    {outgoing : Outgoing} (h : egressGuard outside texts hop upcoming answer = .ok outgoing) :
    ∀ a ∈ answer.found texts, Proxy.ipIsBlocked a = false := by
  cases upcoming with
  | first call =>
    simp only [egressGuard] at h
    cases hprepare : prepare (outside.answering texts answer) call with
    | error e =>
      rw [hprepare] at h
      cases h
    | ok request =>
      obtain ⟨url, hvalid⟩ := valid_of_prepare hprepare
      exact found_of_valid hvalid
  | redirect headers request location =>
    simp only [egressGuard] at h
    split at h
    · cases h
    · next url hurl => exact found_of_valid (valid_of_redirectUrl hurl)

variable (outside texts)

def egressLoop : HopLoop Upcoming Outgoing Lookup (Except Exc Response) IpAddress where
  guard hop upcoming answer := (egressGuard outside texts hop upcoming answer).toOption
  inspected := Lookup.found texts
  admits a := !ipIsBlocked a
  follow _ := egressFollow
  guard_admits := by
    intro hop upcoming answer outgoing h a ha
    cases hguard : egressGuard outside texts hop upcoming answer with
    | error e =>
      rw [hguard] at h
      cases h
    | ok outgoing' => rw [found_of_egressGuard hguard a ha, Bool.not_false]

end DatumSync.Proxy
