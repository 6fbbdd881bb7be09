import DatumSync.Proxy.Url
import DatumSync.Python.Urlencode

/-!
# Redirect URIs

Which URIs a client may register, and the URL a browser is sent to with the answer in its query.
The URL goes where the registered URI goes.  The client finds the answer there unless the URI ends
with a bare question mark or hash, which `urlparse` does not tell from none.
-/

namespace DatumSync.OAuth

open Python Proxy

/-! ## `urllib.parse` -/

structure SplitUrl where
  scheme : Str
  netloc : Str
  path : Str
  query : Str
  fragment : Str
  deriving DecidableEq

/-- What follows the authority. -/
def afterNetloc (rest : Str) : Str :=
  if startsWith rest (str "//") then (rest.drop 2).dropWhile fun c ↦ !isDelimiter c else rest

/-- Path, query and fragment of what follows the authority. -/
def splitRest (rest : Str) : Str × Str × Str :=
  let (front, fragment) := partition (cp '#') rest
  let (path, query) := partition (cp '?') front
  (path, query.getD [], fragment.getD [])

def urlsplit (url : Str) : SplitUrl :=
  let (scheme, rest) := splitScheme (cleaned url)
  let (path, query, fragment) := splitRest (afterNetloc rest)
  ⟨scheme, splitNetloc rest, path, query, fragment⟩

/-! ## `_valid_redirect_uri` and the redirect -/

/-- The hosts on which a redirect need not be encrypted. -/
def loopbackNames : List Str := [str "localhost", str "127.0.0.1", str "::1"]

/-- `_valid_redirect_uri`; `urlsplit` raises a `ValueError` for an authority that it refuses. -/
def validRedirectUri (refuses : Str → Bool) (raw : Str) : Bool :=
  let u := urlsplit raw
  if refuses u.netloc then false
  else if u.fragment ≠ [] then false
  else if u.scheme = str "https" then !u.netloc.isEmpty
  else if u.scheme = str "http" then (hostname u.netloc).any loopbackNames.contains
  else false

/-- What joins a URI and an answer. -/
def joiner (uri : Str) : CodePoint := if (urlsplit uri).query ≠ [] then cp '&' else cp '?'

/-- The URL of `_error_redirect` and of the redirect with a code; undefined where `urlencode`
raises. -/
def redirectUrl (uri : Str) (params : List (Str × Str)) : Option Str :=
  (urlencode params).map fun query ↦ uri ++ joiner uri :: query

/-! ## What a valid URI is made of -/

/-- A cleaned URL with an authority: what is behind it starts with a delimiter. -/
structure Anatomy (text front netloc rest : Str) : Prop where
  named : isScheme front = true
  inhabited : netloc ≠ []
  undelimited : ∀ c ∈ netloc, isDelimiter c = false
  delimited : ∀ c tail, rest = c :: tail → isDelimiter c = true
  eq : text = front ++ cp ':' :: cp '/' :: cp '/' :: (netloc ++ rest)

variable {refuses : Str → Bool} {uri url query text front netloc rest : Str}
  {params : List (Str × Str)}

theorem forall_ne_of_not_mem {sep : CodePoint} {l : Str} (h : sep ∉ l) :
    ∀ c ∈ l, (c != sep) = true := by
  intro c hc
  rw [bne_iff_ne]
  exact fun heq ↦ h (heq ▸ hc)

theorem not_mem_scheme {c : CodePoint} (h : isScheme front = true) (hc : isSchemeChar c = false) :
    c ∉ front := by
  intro hmem
  rw [isScheme_all h c hmem] at hc
  cases hc

theorem splitScheme_colon (h : isScheme front = true) (back : Str) :
    splitScheme (front ++ cp ':' :: back) = (asciiLower front, back) := by
  have hhead : (front ++ cp ':' :: back).takeWhile (· != cp ':') = front := by
    rw [List.takeWhile_append_of_pos (forall_ne_of_not_mem (not_mem_scheme h (by decide))),
      List.takeWhile_cons_of_neg (by decide), List.append_nil]
  unfold splitScheme
  dsimp only
  rw [hhead, if_pos ⟨List.mem_append_right _ List.mem_cons_self, h⟩]
  have hdrop : (front ++ cp ':' :: back).drop (front.length + 1) = back := by
    rw [List.drop_append, Nat.add_sub_cancel_left, List.drop_eq_nil_of_le (Nat.le_succ _)]
    rfl
  rw [hdrop]

theorem partition_of_not_mem {sep : CodePoint} {l : Str} (h : sep ∉ l) :
    partition sep l = (l, none) := by
  rw [partition, List.dropWhile_eq_nil_iff.mpr (forall_ne_of_not_mem h)]

theorem partition_append_cons {sep : CodePoint} {l : Str} (h : sep ∉ l) (back : Str) :
    partition sep (l ++ sep :: back) = (l, some back) := by
  have hdrop : (l ++ sep :: back).dropWhile (· != sep) = sep :: back := by
    rw [List.dropWhile_append_of_pos (forall_ne_of_not_mem h), List.dropWhile_cons_of_neg (by simp)]
  have htake : (l ++ sep :: back).takeWhile (· != sep) = l := by
    rw [List.takeWhile_append_of_pos (forall_ne_of_not_mem h), List.takeWhile_cons_of_neg (by simp),
      List.append_nil]
  rw [partition, hdrop, htake]

/-- The parts of a URL are read off its anatomy. -/
theorem Anatomy.urlsplit_eq (h : Anatomy (cleaned url) front netloc rest) :
    urlsplit url = ⟨asciiLower front, netloc, (splitRest rest).1, (splitRest rest).2.1,
      (splitRest rest).2.2⟩ := by
  have hslashes : startsWith (cp '/' :: cp '/' :: (netloc ++ rest)) (str "//") = true :=
    startsWith_iff.mpr ⟨netloc ++ rest, rfl⟩
  have hnetloc : ∀ c ∈ netloc, (!isDelimiter c) = true := fun c hc ↦ by rw [h.undelimited c hc]; rfl
  have hhead : (netloc ++ rest).takeWhile (fun c ↦ !isDelimiter c) = netloc := by
    rw [List.takeWhile_append_of_pos hnetloc]
    cases hrest : rest with
    | nil => exact List.append_nil _
    | cons c tail =>
      rw [List.takeWhile_cons_of_neg (by simp [h.delimited c tail hrest]), List.append_nil]
  have htail : (netloc ++ rest).dropWhile (fun c ↦ !isDelimiter c) = rest := by
    rw [List.dropWhile_append_of_pos hnetloc]
    cases hrest : rest with
    | nil => rfl
    | cons c tail => rw [List.dropWhile_cons_of_neg (by simp [h.delimited c tail hrest])]
  unfold urlsplit
  rw [h.eq, splitScheme_colon h.named]
  dsimp only
  rw [splitNetloc, if_pos hslashes, afterNetloc, if_pos hslashes]
  change SplitUrl.mk _ ((netloc ++ rest).takeWhile _) (splitRest ((netloc ++ rest).dropWhile _)).1
    (splitRest ((netloc ++ rest).dropWhile _)).2.1 (splitRest ((netloc ++ rest).dropWhile _)).2.2 = _
  rw [hhead, htail]

/-- Every URL with a scheme and an authority has an anatomy. -/
theorem exists_anatomy (hscheme : (urlsplit url).scheme ≠ []) (hnetloc : (urlsplit url).netloc ≠ []) :
    ∃ front netloc rest, Anatomy (cleaned url) front netloc rest := by
  unfold urlsplit at hscheme hnetloc
  dsimp only at hscheme hnetloc
  have hboth : cp ':' ∈ cleaned url ∧
      isScheme ((cleaned url).takeWhile (· != cp ':')) = true := by
    by_contra hnot
    apply hscheme
    unfold splitScheme
    exact congrArg Prod.fst (if_neg hnot)
  obtain ⟨front, back, htext, hcolon⟩ := List.eq_append_cons_of_mem hboth.1
  have hhead : (cleaned url).takeWhile (· != cp ':') = front := by
    rw [htext, List.takeWhile_append_of_pos (forall_ne_of_not_mem hcolon),
      List.takeWhile_cons_of_neg (by decide), List.append_nil]
  rw [hhead] at hboth
  rw [htext, splitScheme_colon hboth.2] at hnetloc
  dsimp only at hnetloc
  have hslashes : startsWith back (str "//") = true := by
    by_contra hnot
    apply hnetloc
    rw [splitNetloc, if_neg hnot]
  obtain ⟨tail, rfl⟩ := startsWith_iff.mp hslashes
  rw [splitNetloc, if_pos hslashes] at hnetloc
  refine ⟨front, tail.takeWhile fun c ↦ !isDelimiter c, tail.dropWhile fun c ↦ !isDelimiter c,
    hboth.2, hnetloc, fun c hc ↦ ?_, fun c rest hrest ↦ ?_, ?_⟩
  · have hnot := List.mem_takeWhile_imp (p := fun c ↦ !isDelimiter c) hc
    rwa [Bool.not_eq_true'] at hnot
  · have hfirst := List.head?_dropWhile_not (fun c ↦ !isDelimiter c) tail
    rw [hrest] at hfirst
    simpa using hfirst
  · rw [List.takeWhile_append_dropWhile]
    exact htext

theorem mem_cleaned_iff {c : CodePoint} (hc : isControlOrSpace c = false) :
    c ∈ cleaned url ↔ c ∈ url := by
  have hkept : (!isRemoved c) = true := by
    rw [Bool.not_eq_true', isRemoved]
    by_contra hremoved
    rw [Bool.not_eq_false, Bool.or_eq_true, Bool.or_eq_true, beq_iff_eq, beq_iff_eq,
      beq_iff_eq] at hremoved
    obtain (rfl | rfl) | rfl := hremoved <;> exact absurd hc (by decide)
  have hsplit := List.takeWhile_append_dropWhile (p := isControlOrSpace) (l := url)
  rw [cleaned, List.mem_filter, and_iff_left hkept]
  constructor
  · exact fun hmem ↦ (List.dropWhile_sublist _).mem hmem
  · intro hmem
    rw [← hsplit] at hmem
    cases List.mem_append.mp hmem with
    | inl hfront => exact absurd (List.mem_takeWhile_imp hfront) (by rw [hc]; exact Bool.false_ne_true)
    | inr hback => exact hback

namespace Anatomy

variable (h : Anatomy (cleaned uri) front netloc rest)
include h

/-- A delimiter that is not a slash stands behind the authority. -/
theorem mem_iff {c : CodePoint} (hdelimiter : isDelimiter c = true) (hslash : c ≠ cp '/')
    (hcontrol : isControlOrSpace c = false) (hscheme : isSchemeChar c = false)
    (hcolon : c ≠ cp ':') : c ∈ uri ↔ c ∈ rest := by
  have hfront : c ∉ front := not_mem_scheme h.named hscheme
  have hnetloc : c ∉ netloc := fun hmem ↦ by
    rw [h.undelimited c hmem] at hdelimiter
    cases hdelimiter
  rw [← mem_cleaned_iff hcontrol, h.eq]
  simp only [List.mem_append, List.mem_cons, hfront, hcolon, hslash, hnetloc, false_or]

/-- A text behind a URI goes to what is behind its authority. -/
theorem append {c : CodePoint} {s : Str} (hs : ∀ x ∈ c :: s, isRemoved x = false)
    (hstop : rest ≠ [] ∨ isDelimiter c = true) :
    Anatomy (cleaned (uri ++ c :: s)) front netloc (rest ++ c :: s) := by
  have hcolon : cp ':' ∈ uri := by
    rw [← mem_cleaned_iff (by decide), h.eq]
    exact List.mem_append_right _ List.mem_cons_self
  have hcleaned : cleaned (uri ++ c :: s) = cleaned uri ++ c :: s := by
    rw [cleaned_append _ ⟨cp ':', hcolon, by decide⟩, List.filter_eq_self.mpr]
    exact fun x hx ↦ by rw [hs x hx]; rfl
  refine ⟨h.named, h.inhabited, h.undelimited, fun x tail htail ↦ ?_, ?_⟩
  · cases hrest : rest with
    | nil =>
      rw [hrest, List.nil_append] at htail
      rw [← (List.cons.inj htail).1]
      exact hstop.resolve_left (not_not.mpr hrest)
    | cons y more =>
      rw [hrest, List.cons_append] at htail
      rw [← (List.cons.inj htail).1]
      exact h.delimited y more hrest
  · rw [hcleaned, h.eq]
    simp only [List.append_assoc, List.cons_append]

end Anatomy

theorem splitRest_hash {before : Str} (h : cp '#' ∉ before) (after : Str) :
    splitRest (before ++ cp '#' :: after) =
      ((splitRest before).1, (splitRest before).2.1, after) := by
  unfold splitRest
  rw [partition_append_cons h, partition_of_not_mem h]
  rfl

theorem splitRest_question {before after : Str} (h : cp '?' ∉ before)
    (hhash : cp '#' ∉ before ++ cp '?' :: after) :
    splitRest (before ++ cp '?' :: after) = (before, after, []) := by
  unfold splitRest
  rw [partition_of_not_mem hhash]
  dsimp only
  rw [partition_append_cons h]
  rfl

theorem splitRest_plain (h : cp '?' ∉ rest) (hhash : cp '#' ∉ rest) :
    splitRest rest = (rest, [], []) := by
  unfold splitRest
  rw [partition_of_not_mem hhash]
  dsimp only
  rw [partition_of_not_mem h]
  rfl

/-! ## Where the answer goes, and whether it is found -/

/-- What `_valid_redirect_uri` accepts has a scheme, an authority and no fragment. -/
theorem validRedirectUri_spec (h : validRedirectUri refuses uri = true) :
    ((urlsplit uri).scheme = str "https" ∨ (urlsplit uri).scheme = str "http" ∧
      ∃ name ∈ loopbackNames, hostname (urlsplit uri).netloc = some name) ∧
    (urlsplit uri).netloc ≠ [] ∧ (urlsplit uri).fragment = [] := by
  unfold validRedirectUri at h
  dsimp only at h
  split at h
  · cases h
  · split at h
    · cases h
    · next hfragment =>
      rw [not_not] at hfragment
      split at h
      · next hhttps =>
        refine ⟨.inl hhttps, ?_, hfragment⟩
        rintro hnil
        rw [hnil] at h
        cases h
      · split at h
        · next hhttp =>
          obtain ⟨name, hname, hloopback⟩ := (Option.any_eq_true _ _).mp h
          refine ⟨.inr ⟨hhttp, name, by simpa using hloopback, hname⟩, ?_, hfragment⟩
          rintro hnil
          rw [hnil] at hname
          cases hname
        · cases h

/-- Nothing that is written as an answer is removed from a URL. -/
theorem answer_not_removed (h : urlencode params = some query) :
    ∀ c ∈ joiner uri :: query, isRemoved c = false ∧ c ≠ cp '#' := by
  intro c hc
  cases List.mem_cons.mp hc with
  | inl heq =>
    rw [heq, joiner]
    split <;> decide
  | inr hquery =>
    constructor
    · rw [isRemoved, Bool.or_eq_false_iff, Bool.or_eq_false_iff]
      refine ⟨⟨?_, ?_⟩, ?_⟩ <;>
        exact beq_eq_false_iff_ne.mpr fun heq ↦ absurd (urlencode_chars h c hquery)
          (by rw [heq]; decide)
    · exact fun heq ↦ absurd (urlencode_chars h c hquery) (by rw [heq]; decide)

/-- The URL goes where the registered URI goes, and the pairs of the answer are found behind those
of the URI's own query exactly when it has no hash, and no question mark without a query. -/
theorem redirectUrl_exact (hvalid : validRedirectUri refuses uri = true)
    (hurl : redirectUrl uri params = some url) (hparams : params ≠ []) :
    (urlsplit url).scheme = (urlsplit uri).scheme ∧ (urlsplit url).netloc = (urlsplit uri).netloc ∧
    (urlsplit url).path = (urlsplit uri).path ∧
    (parseQsl (urlsplit url).query = parseQsl (urlsplit uri).query ++ params ↔
      cp '#' ∉ uri ∧ (cp '?' ∈ uri → (urlsplit uri).query ≠ [])) := by
  obtain ⟨query, hquery, rfl⟩ := Option.map_eq_some_iff.mp hurl
  obtain ⟨hscheme, hnetloc, hfragment⟩ := validRedirectUri_spec hvalid
  have hnamed : (urlsplit uri).scheme ≠ [] := by
    rcases hscheme with h | h
    · rw [h]
      decide
    · rw [h.1]
      decide
  obtain ⟨front, netloc, rest, hanatomy⟩ := exists_anatomy hnamed hnetloc
  have hhash : cp '#' ∈ uri ↔ cp '#' ∈ rest := hanatomy.mem_iff (by decide) (by decide) (by decide)
    (by decide) (by decide)
  have hquestion : cp '?' ∈ uri ↔ cp '?' ∈ rest := hanatomy.mem_iff (by decide) (by decide)
    (by decide) (by decide) (by decide)
  have hsplit := hanatomy.urlsplit_eq
  have hremoved : ∀ c ∈ joiner uri :: query, isRemoved c = false :=
    fun c hc ↦ (answer_not_removed hquery c hc).1
  have hown : (urlsplit uri).query = (splitRest rest).2.1 := by rw [hsplit]
  have hstop : rest ≠ [] ∨ isDelimiter (joiner uri) = true := by
    by_cases hrest : rest = []
    · rw [hrest] at hown
      exact .inr (by rw [joiner, hown]; decide)
    · exact .inl hrest
  have hlonger := (hanatomy.append hremoved hstop).urlsplit_eq
  rw [hhash, hquestion, hown]
  rw [hsplit] at hfragment
  rw [hlonger, hsplit]
  refine ⟨rfl, rfl, ?_⟩
  dsimp only at hfragment ⊢
  by_cases hin : cp '#' ∈ rest
  · obtain ⟨before, after, rfl, hbefore⟩ := List.eq_append_cons_of_mem hin
    rw [splitRest_hash hbefore] at hfragment ⊢
    rw [List.append_assoc, List.cons_append, splitRest_hash hbefore]
    refine ⟨rfl, iff_of_false (fun heq ↦ hparams ?_) fun hand ↦ hand.1 hin⟩
    exact List.self_eq_append_right.mp heq
  · have hanswer : cp '#' ∉ rest ++ joiner uri :: query := by
      rw [List.mem_append, not_or]
      exact ⟨hin, fun hmem ↦ (answer_not_removed hquery _ hmem).2 rfl⟩
    by_cases hasked : cp '?' ∈ rest
    · obtain ⟨path, own, rfl, hpath⟩ := List.eq_append_cons_of_mem hasked
      rw [List.append_assoc, List.cons_append] at hanswer ⊢
      rw [splitRest_question hpath hin] at hown ⊢
      rw [splitRest_question hpath hanswer]
      refine ⟨rfl, ?_⟩
      dsimp only at hown ⊢
      by_cases hempty : own = []
      · refine iff_of_false (fun heq ↦ ?_) fun hand ↦ hand.2 hasked hempty
        rw [hempty, joiner, hown, hempty, if_neg (by simp), List.nil_append] at heq
        cases params with
        | nil => exact hparams rfl
        | cons pair pairs =>
          rw [parseQsl_question hquery] at heq
          have hkey : cp '?' :: pair.1 = pair.1 := congrArg Prod.fst (List.cons.inj heq).1
          exact List.cons_ne_self _ _ hkey
      · refine iff_of_true ?_ ⟨hin, fun _ ↦ hempty⟩
        rw [joiner, hown, if_pos hempty]
        exact parseQsl_append own hquery hparams
    · have hbare : joiner uri = cp '?' := by
        rw [joiner, hown, splitRest_plain hasked hin]
        rfl
      rw [hbare] at hanswer ⊢
      rw [splitRest_question hasked hanswer, splitRest_plain hasked hin]
      refine ⟨rfl, iff_of_true ?_ ⟨hin, fun hmem ↦ absurd hmem hasked⟩⟩
      exact parseQsl_urlencode hquery hparams

/-- A callback with a query of its own. -/
theorem redirectUrl_exact_callback :
    validRedirectUri (fun _ ↦ false) (str "https://claude.ai/api/callback?app=1") = true ∧
    redirectUrl (str "https://claude.ai/api/callback?app=1")
      [(str "code", str "c0"), (str "state", str "a b&c")] =
        some (str "https://claude.ai/api/callback?app=1&code=c0&state=a+b%26c") ∧
    (parseQsl (urlsplit (str "https://claude.ai/api/callback?app=1&code=c0&state=a+b%26c")).query =
      parseQsl (urlsplit (str "https://claude.ai/api/callback?app=1")).query ++
        [(str "code", str "c0"), (str "state", str "a b&c")] ↔
      cp '#' ∉ str "https://claude.ai/api/callback?app=1" ∧
        (cp '?' ∈ str "https://claude.ai/api/callback?app=1" →
          (urlsplit (str "https://claude.ai/api/callback?app=1")).query ≠ [])) := by
  have hvalid : validRedirectUri (fun _ ↦ false) (str "https://claude.ai/api/callback?app=1") =
      true := by decide +kernel
  have hurl : redirectUrl (str "https://claude.ai/api/callback?app=1")
      [(str "code", str "c0"), (str "state", str "a b&c")] =
        some (str "https://claude.ai/api/callback?app=1&code=c0&state=a+b%26c") := by decide +kernel
  exact ⟨hvalid, hurl, (redirectUrl_exact hvalid hurl (List.cons_ne_nil _ _)).2.2.2⟩

/-- With a hash at its end a URI is accepted, and the answer goes where no server sees it. -/
example : validRedirectUri (fun _ ↦ false) (str "https://claude.ai/cb#") = true ∧
    (redirectUrl (str "https://claude.ai/cb#") [(str "code", str "c0")]).map
      (fun url ↦ (urlsplit url).fragment) = some (str "?code=c0") := by
  decide +kernel

end DatumSync.OAuth
