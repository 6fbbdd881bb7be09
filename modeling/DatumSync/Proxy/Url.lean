import DatumSync.Errors

/-!
# The target of a URL

The part of `urllib.parse.urlparse` that says where a request goes: scheme, host name and port.
Leading control characters and blanks are dropped, and tabs and newlines anywhere; the authority
ends at the first slash, question mark or hash.
-/

namespace DatumSync.Proxy

open Python

/-- Characters `urlsplit` strips from the front. -/
def isControlOrSpace (c : CodePoint) : Bool := decide (c.val ≤ 0x20)

def isRemoved (c : CodePoint) : Bool := c == cp '\t' || c == cp '\r' || c == cp '\n'

/-- The text `urlsplit` splits. -/
def cleaned (url : Str) : Str :=
  (url.dropWhile isControlOrSpace).filter fun c ↦ !isRemoved c

def isAlpha (c : CodePoint) : Bool :=
  decide (0x41 ≤ c.val ∧ c.val ≤ 0x5A) || decide (0x61 ≤ c.val ∧ c.val ≤ 0x7A)

def isSchemeChar (c : CodePoint) : Bool :=
  isAlpha c || isDigit c || c == cp '+' || c == cp '-' || c == cp '.'

/-- The text in front of the first colon is a scheme. -/
def isScheme (s : Str) : Bool :=
  match s with
  | [] => false
  | c :: _ => isAlpha c && s.all isSchemeChar

/-- Scheme and rest of a cleaned URL. -/
def splitScheme (url : Str) : Str × Str :=
  let head := url.takeWhile (· != cp ':')
  if cp ':' ∈ url ∧ isScheme head = true then (asciiLower head, url.drop (head.length + 1))
  else ([], url)

def isDelimiter (c : CodePoint) : Bool := c == slash || c == cp '?' || c == cp '#'
where slash := cp '/'

/-- `netloc` of what follows the scheme. -/
def splitNetloc (rest : Str) : Str :=
  if startsWith rest (str "//") then (rest.drop 2).takeWhile fun c ↦ !isDelimiter c else []

/-- `s.partition(sep)`: what is in front, and what is behind if `sep` occurs. -/
def partition (sep : CodePoint) (s : Str) : Str × Option Str :=
  match s.dropWhile (· != sep) with
  | [] => (s, none)
  | _ :: rest => (s.takeWhile (· != sep), some rest)

/-- `netloc.rpartition("@")[2]` -/
def hostInfo (netloc : Str) : Str := (netloc.reverse.takeWhile (· != cp '@')).reverse

/-- Host and port texts of a `netloc`. -/
def hostPort (netloc : Str) : Str × Option Str :=
  match partition (cp '[') (hostInfo netloc) with
  | (_, some bracketed) =>
    let (host, after) := partition (cp ']') bracketed
    (host, (partition (cp ':') (after.getD [])).2)
  | (plain, none) => partition (cp ':') plain

/-- `.hostname`, lowered as far as ASCII goes; a zone is not lowered. -/
def hostname (netloc : Str) : Option Str :=
  let host := (hostPort netloc).1
  if host.isEmpty then none
  else match partition (cp '%') host with
    | (name, some zone) => some (asciiLower name ++ [cp '%'] ++ zone)
    | (name, none) => some (asciiLower name)

def port (netloc : Str) : Except Exc (Option ℕ) :=
  match (hostPort netloc).2 with
  | none => .ok none
  | some [] => .ok none
  | some digits =>
    if digits.all isDigit then
      if digitsValue digits ≤ 65535 then .ok (some (digitsValue digits))
      else .error (.raised .valueError (str "Port out of range 0-65535"))
    else .error (.raised .valueError
      (str "Port could not be cast to integer value as " ++ digits))

/-- Where a request for a URL goes. -/
structure Target where
  scheme : Str
  netloc : Str
  deriving DecidableEq

/-- `urlparse(url)`, as far as it says where a request goes. -/
def target (url : Str) : Target :=
  let (scheme, rest) := splitScheme (cleaned url)
  ⟨scheme, splitNetloc rest⟩

/-- Scheme, host name and port. -/
def Target.address (t : Target) : Str × Option Str × Except Exc (Option ℕ) :=
  (t.scheme, hostname t.netloc, port t.netloc)

/-! ## What follows the authority does not change the target -/

/-- Nothing, or a text that starts with a slash. -/
def IsPath (s : Str) : Prop := s = [] ∨ ∃ rest, s = cp '/' :: rest

theorem takeWhile_append_stop {α : Type*} {p : α → Bool} (l : List α) {s : List α}
    (h : ∀ c rest, s = c :: rest → p c = false) :
    (l ++ s).takeWhile p = l.takeWhile p := by
  induction l with
  | nil =>
    cases s with
    | nil => rfl
    | cons c rest => exact List.takeWhile_cons_of_neg (by simp [h c rest rfl])
  | cons x rest ih =>
    rw [List.cons_append, List.takeWhile_cons, List.takeWhile_cons, ih]

theorem takeWhile_append_of_mem {α : Type*} {p : α → Bool} {l : List α} {c : α} (hc : c ∈ l)
    (hp : p c = false) (s : List α) : (l ++ s).takeWhile p = l.takeWhile p := by
  induction l with
  | nil => exact absurd hc List.not_mem_nil
  | cons x rest ih =>
    rw [List.cons_append, List.takeWhile_cons, List.takeWhile_cons]
    by_cases hx : p x = true
    · rcases List.mem_cons.mp hc with rfl | hc
      · rw [hp] at hx
        cases hx
      · rw [if_pos hx, if_pos hx, ih hc]
    · rw [if_neg hx, if_neg hx]

theorem IsPath.stops {s : Str} (h : IsPath s) (c : CodePoint) (rest : Str) (hs : s = c :: rest) :
    (!isDelimiter c) = false := by
  rcases h with rfl | ⟨tail, rfl⟩
  · cases hs
  · obtain ⟨rfl, -⟩ := List.cons.inj hs
    decide

theorem isScheme_all {s : Str} (h : isScheme s = true) : ∀ c ∈ s, isSchemeChar c = true := by
  cases s with
  | nil => exact nofun
  | cons c rest => exact List.all_eq_true.mp (Bool.and_eq_true_iff.mp h).2

/-- A path adds nothing to the scheme. -/
theorem splitScheme_append (url : Str) {s : Str} (hs : IsPath s) :
    splitScheme (url ++ s) = ((splitScheme url).1, (splitScheme url).2 ++ s) := by
  unfold splitScheme
  dsimp only
  by_cases hcolon : cp ':' ∈ url
  · rw [takeWhile_append_of_mem hcolon (by decide)]
    have hlength : (url.takeWhile (· != cp ':')).length + 1 ≤ url.length := by
      refine Nat.succ_le_of_lt ((List.takeWhile_prefix _).length_le.lt_of_ne fun h ↦ ?_)
      have hall := List.takeWhile_eq_self_iff.mp
        ((List.takeWhile_prefix (· != cp ':')).eq_of_length h) _ hcolon
      exact absurd hall (by decide)
    by_cases hscheme : isScheme (url.takeWhile (· != cp ':')) = true
    · rw [if_pos ⟨List.mem_append_left s hcolon, hscheme⟩, if_pos ⟨hcolon, hscheme⟩,
        List.drop_append_of_le_length hlength]
    · rw [if_neg fun h ↦ hscheme h.2, if_neg fun h ↦ hscheme h.2]
  · have hlonger : ¬ (cp ':' ∈ url ++ s ∧
        isScheme ((url ++ s).takeWhile (· != cp ':')) = true) := by
      rintro ⟨hmem, hscheme⟩
      rcases hs with rfl | ⟨rest, rfl⟩
      · rw [List.append_nil] at hmem
        exact hcolon hmem
      · have hslash : cp '/' ∈ (url ++ cp '/' :: rest).takeWhile (· != cp ':') := by
          have hurl : ∀ c ∈ url, (c != cp ':') = true := fun c hc ↦ by
            rw [bne_iff_ne]
            rintro rfl
            exact hcolon hc
          rw [List.takeWhile_append_of_pos hurl, List.takeWhile_cons_of_pos (by decide)]
          exact List.mem_append_right _ List.mem_cons_self
        exact absurd (isScheme_all hscheme _ hslash) (by decide)
    rw [if_neg hlonger, if_neg fun h ↦ hcolon h.1]

theorem splitNetloc_append {rest s : Str} (hs : IsPath s) (hstart : startsWith rest (str "//")) :
    splitNetloc (rest ++ s) = splitNetloc rest := by
  obtain ⟨tail, rfl⟩ := startsWith_iff.mp hstart
  rw [splitNetloc, splitNetloc, if_pos hstart, List.append_assoc,
    if_pos (startsWith_iff.mpr (List.prefix_append _ _))]
  exact takeWhile_append_stop tail hs.stops

theorem isPath_slashes (n : ℕ) : IsPath (List.replicate n (cp '/')) := by
  cases n with
  | zero => exact .inl rfl
  | succ k => exact .inr ⟨_, rfl⟩

/-- Slashes alone hold no authority, so one that is found before trailing slashes starts in the text
in front of them. -/
theorem startsWith_of_netloc {rest : Str} {n : ℕ}
    (h : splitNetloc (rest ++ List.replicate n (cp '/')) ≠ []) :
    startsWith rest (str "//") = true := by
  by_contra hstart
  apply h
  unfold splitNetloc
  split
  · next hlonger =>
    obtain ⟨tail, htail⟩ := startsWith_iff.mp hlonger
    have htwo : (str "//").length = 2 := rfl
    have hshort : rest.length < 2 := by
      by_contra hlong
      refine hstart (startsWith_iff.mpr ?_)
      exact List.prefix_of_prefix_length_le (startsWith_iff.mp hlonger)
        (List.prefix_append rest _) (htwo.trans_le (not_lt.mp hlong))
    have hdrop : (rest ++ List.replicate n (cp '/')).drop 2 =
        List.replicate (n - (2 - rest.length)) (cp '/') := by
      rw [List.drop_append, List.drop_eq_nil_of_le (Nat.le_of_lt hshort), List.drop_replicate,
        List.nil_append]
    rw [hdrop]
    cases n - (2 - rest.length) with
    | zero => rfl
    | succ k => exact List.takeWhile_cons_of_neg (by decide)
  · rfl

/-- A path in the place of trailing slashes leaves the authority as it is. -/
theorem splitNetloc_replace {rest s : Str} {n : ℕ} (hs : IsPath s)
    (h : splitNetloc (rest ++ List.replicate n (cp '/')) ≠ []) :
    splitNetloc (rest ++ s) = splitNetloc (rest ++ List.replicate n (cp '/')) := by
  have hstart := startsWith_of_netloc h
  rw [splitNetloc_append hs hstart, splitNetloc_append (isPath_slashes n) hstart]

/-- Cleaning works on the parts of a text once its front is past the control characters. -/
theorem cleaned_append {url : Str} (s : Str) (h : ∃ c ∈ url, isControlOrSpace c = false) :
    cleaned (url ++ s) = cleaned url ++ s.filter fun c ↦ !isRemoved c := by
  obtain ⟨c, hc, hcontrol⟩ := h
  have hdrop : (url ++ s).dropWhile isControlOrSpace = url.dropWhile isControlOrSpace ++ s := by
    rw [List.dropWhile_append, if_neg]
    intro hempty
    rw [List.isEmpty_iff, List.dropWhile_eq_nil_iff] at hempty
    rw [hempty c hc] at hcontrol
    cases hcontrol
  rw [cleaned, hdrop, List.filter_append, cleaned]

theorem IsPath.filter {s : Str} (h : IsPath s) : IsPath (s.filter fun c ↦ !isRemoved c) := by
  rcases h with rfl | ⟨rest, rfl⟩
  · exact .inl rfl
  · exact .inr ⟨_, List.filter_cons_of_pos (by decide)⟩

/-- Control characters and slashes hold no authority. -/
theorem netloc_of_control {url : Str} (h : ∀ c ∈ url, isControlOrSpace c = true) (n : ℕ) :
    (target (url ++ List.replicate n (cp '/'))).netloc = [] := by
  have hcleaned : cleaned (url ++ List.replicate n (cp '/')) =
      [] ++ List.replicate n (cp '/') := by
    rw [cleaned, List.dropWhile_append_of_pos h]
    cases n with
    | zero => rfl
    | succ k =>
      rw [List.replicate_succ, List.dropWhile_cons_of_neg (by decide)]
      exact List.filter_eq_self.mpr fun c hc ↦ by
        rw [← List.replicate_succ] at hc
        rw [List.eq_of_mem_replicate hc]
        decide
  unfold target
  rw [hcleaned, splitScheme_append [] (isPath_slashes n)]
  by_contra hnetloc
  have hstart : startsWith (splitScheme []).2 (str "//") = true := startsWith_of_netloc hnetloc
  exact absurd hstart (by decide)

/-- A URL with a path in the place of its trailing slashes goes where the URL goes. -/
theorem target_replace {url s : Str} {n : ℕ} (hs : IsPath s)
    (h : (target (url ++ List.replicate n (cp '/'))).netloc ≠ []) :
    target (url ++ s) = target (url ++ List.replicate n (cp '/')) := by
  by_cases hcontrol : ∃ c ∈ url, isControlOrSpace c = false
  · have hslashes : (List.replicate n (cp '/')).filter (fun c ↦ !isRemoved c) =
        List.replicate n (cp '/') :=
      List.filter_eq_self.mpr fun c hc ↦ by
        rw [List.eq_of_mem_replicate hc]
        decide
    have hbase : cleaned (url ++ List.replicate n (cp '/')) =
        cleaned url ++ List.replicate n (cp '/') := by
      rw [cleaned_append _ hcontrol, hslashes]
    unfold target at h ⊢
    rw [hbase, splitScheme_append _ (isPath_slashes n)] at h ⊢
    rw [cleaned_append s hcontrol, splitScheme_append _ hs.filter]
    exact congrArg (Target.mk _) (splitNetloc_replace hs.filter h)
  · refine absurd (netloc_of_control (fun c hc ↦ ?_) n) h
    by_contra hc'
    exact hcontrol ⟨c, hc, Bool.eq_false_iff.mpr hc'⟩

/-- `url.rstrip("/")` with a path behind it goes where the URL goes, if that is anywhere. -/
theorem target_rstrip {url s : Str} (hs : IsPath s) (h : (target url).netloc ≠ []) :
    target (rstripChar (cp '/') url ++ s) = target url := by
  have hslashes : url.rtakeWhile (· == cp '/') =
      List.replicate (url.rtakeWhile (· == cp '/')).length (cp '/') :=
    List.eq_replicate_iff.mpr
      ⟨rfl, fun c hc ↦ eq_of_beq (List.mem_rtakeWhile_imp (p := (· == cp '/')) hc)⟩
  have hurl : rstripChar (cp '/') url ++
      List.replicate (url.rtakeWhile (· == cp '/')).length (cp '/') = url := by
    rw [← hslashes]
    exact List.rdropWhile_append_rtakeWhile
  rw [← hurl] at h
  calc
    _ = target (rstripChar (cp '/') url ++
        List.replicate (url.rtakeWhile (· == cp '/')).length (cp '/')) := target_replace hs h
    _ = target url := congrArg target hurl

end DatumSync.Proxy
