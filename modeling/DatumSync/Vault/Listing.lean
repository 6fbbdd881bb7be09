import DatumSync.Vault.Scope

/-!
# Listing a vault directory

`list_dir` opens the directory of the normalised path and checks each child under the path the
caller wrote.  The listing is what the scope allows exactly when the two spellings cannot be told
apart by a pattern, and over all scopes and directories that means that they are the same text.
-/

namespace DatumSync.Vault

open Python

/-- A name a directory entry can have. -/
def NameOk (name : Str) : Prop :=
  name ≠ [] ∧ slash ∉ name ∧ 0 ∉ name ∧ name ≠ str "." ∧ name ≠ str ".."

instance (name : Str) : Decidable (NameOk name) := inferInstanceAs (Decidable (_ ∧ _))

/-- An entry of a directory, as `iterdir` and `is_dir` show it. -/
structure Child where
  name : Str
  isDir : Bool
  nameOk : NameOk name
  deriving DecidableEq

/-- The directories under the vault root, by normalised path. -/
abbrev Tree := Str → Option (List Child)

/-- What `list_dir` returns: the entries and the path it was given. -/
structure Listing where
  entries : List Child
  path : Str
  deriving DecidableEq

def Child.line (child : Child) : Str :=
  if child.isDir then str "[dir] " ++ child.name else child.name

/-- The dictionary `list_dir` returns. -/
def Listing.toJson (listing : Listing) : Json :=
  let lines := join (cp '\n') (listing.entries.map Child.line)
  let text := if lines = [] then str "(empty)" else lines
  .obj [(str "content", .arr [.obj [(str "type", .text (str "text")), (str "text", .text text)]]),
    (str "isError", .bool false),
    (str "_meta", .obj [(str "path", .text listing.path),
      (str "count", .int listing.entries.length)])]

/-- The part of a pattern before its first star, without slashes at the end. -/
def literalPrefix (pattern : Str) : Str := rstripChar slash (pattern.takeWhile (· != starChar))

/-- The tests `_scope_covers_dir` makes for one pattern. -/
def patternCoversDir (dirPath pattern : Str) : Bool :=
  pattern == str "**" ||
    (startsWith pattern (dirPath ++ str "/") || startsWith pattern (dirPath ++ str "/**")) ||
    startsWith pattern (str "**/") ||
    (startsWith dirPath (literalPrefix pattern ++ str "/") || dirPath == literalPrefix pattern)

def scopeCoversDir (scope : Option Scope) (dirPath : Str) : Bool :=
  match scope with
  | none => false
  | some scope =>
    if scope.fields.isEmpty then false
    else (scope.patterns (str "read")).any (patternCoversDir dirPath)

def childPath (path name : Str) : Str := path ++ slash :: name

def listDir (scope : Option Scope) (path : Str) (tree : Tree) : Except Exc Listing :=
  match normalise path with
  | .error e => .error e
  | .ok normalised =>
    if scopeCoversDir scope normalised then
      match tree normalised with
      | none => .error (.api 404 (str "NOT_FOUND") (str "no such directory: " ++ path) [])
      | some children =>
        let sorted := children.mergeSort fun a b ↦ decide (a.name ≤ b.name)
        .ok ⟨sorted.filter fun child ↦ permits scope .read (childPath path child.name), path⟩
    else .error (.api 403 (str "FORBIDDEN") (str "this account may not list " ++ normalised)
      (detailOf normalised .read))

/-- The listing shows exactly the children readable under the normalised path. -/
def ShowsReadable (scope : Option Scope) (normalised : Str) (children : List Child)
    (listing : Listing) : Prop :=
  ∀ child, child ∈ listing.entries ↔
    child ∈ children ∧ permits scope .read (childPath normalised child.name) = true

theorem listDir_eq_ok {scope : Option Scope} {raw n : Str} {tree : Tree} {listing : Listing}
    (hn : normalise raw = .ok n) (h : listDir scope raw tree = .ok listing) :
    scopeCoversDir scope n = true ∧ ∃ children, tree n = some children ∧
      ∀ child, child ∈ listing.entries ↔
        child ∈ children ∧ permits scope .read (childPath raw child.name) = true := by
  rw [listDir, hn] at h
  dsimp only at h
  split at h
  · next hcovers =>
    cases hchildren : tree n with
    | none =>
      rw [hchildren] at h
      cases h
    | some children =>
      rw [hchildren] at h
      cases h
      refine ⟨hcovers, children, rfl, fun child ↦ ?_⟩
      rw [List.mem_filter, List.mem_mergeSort]
  · cases h

/-- For one scope and one directory: the two spellings must be told apart for no child. -/
theorem showsReadable_iff {scope : Option Scope} {raw n : Str} {tree : Tree} {listing : Listing}
    {children : List Child} (hn : normalise raw = .ok n) (hchildren : tree n = some children)
    (h : listDir scope raw tree = .ok listing) :
    ShowsReadable scope n children listing ↔
      ∀ child ∈ children, permits scope .read (childPath raw child.name) =
        permits scope .read (childPath n child.name) := by
  obtain ⟨_, children', hchildren', hentries⟩ := listDir_eq_ok hn h
  obtain rfl : children = children' := Option.some.inj (hchildren.symm.trans hchildren')
  unfold ShowsReadable
  constructor
  · intro hshows child hmem
    have hboth := (hentries child).symm.trans (hshows child)
    rw [Bool.eq_iff_iff]
    simpa only [hmem, true_and] using hboth
  · intro hagree child
    rw [hentries]
    exact and_congr_right fun hmem ↦ by rw [hagree child hmem]

/-! ## A scope that tells two spellings apart -/

/-- The pattern of question marks and slashes that only texts of one length match. -/
def shape (path : Str) : Str := path.map fun c ↦ if c = slash then slash else questionChar

theorem length_shape (path : Str) : (shape path).length = path.length := List.length_map _

theorem mem_shape {path : Str} {c : CodePoint} (h : c ∈ shape path) :
    c = slash ∨ c = questionChar := by
  obtain ⟨d, _, rfl⟩ := List.mem_map.mp h
  split
  · exact .inl rfl
  · exact .inr rfl

theorem star_not_mem_shape (path : Str) : starChar ∉ shape path := by
  intro h
  rcases mem_shape h with h | h
  · exact absurd h (by decide)
  · exact absurd h (by decide)

theorem shape_ne_nil {path : Str} (h : path ≠ []) : shape path ≠ [] := by
  simpa [shape] using h

theorem validatePattern_shape (key path : Str) : validatePattern key (shape path) = .ok () := by
  rw [validatePattern_eq_ok]
  intro segment hmem
  have hdot : cp '.' ∉ segment := by
    intro hdot
    rcases mem_shape (mem_of_mem_split hmem hdot) with h | h
    · exact absurd h (by decide)
    · exact absurd h (by decide)
  refine ⟨?_, ?_, fun hstar ↦ absurd (mem_of_mem_split hmem hstar) (star_not_mem_shape path)⟩
  · rintro rfl
    exact hdot (by decide)
  · rintro rfl
    exact hdot (by decide)

theorem charMatches_shape (c : CodePoint) :
    charMatches (if c = slash then slash else questionChar) c = true := by
  have hslash : slash ≠ questionChar := by decide
  unfold charMatches
  by_cases h : c = slash
  · rw [if_pos h, if_neg hslash, h]
    exact beq_self_eq_true _
  · rw [if_neg h, if_pos rfl, bne_iff_ne]
    exact h

theorem matchesPattern_shape_self (path : Str) : matchesPattern (shape path) path = true := by
  rw [matchesPattern_of_no_star (star_not_mem_shape path), Bool.and_eq_true, beq_iff_eq]
  refine ⟨length_shape path, ?_⟩
  induction path with
  | nil => rfl
  | cons c rest ih =>
    rw [shape, List.map_cons, List.zip_cons_cons, List.all_cons, Bool.and_eq_true]
    exact ⟨charMatches_shape c, ih⟩

theorem matchesPattern_shape_of_length_ne {path other : Str} (h : path.length ≠ other.length) :
    matchesPattern (shape path) other = false := by
  rw [Bool.eq_false_iff, Ne, matchesPattern_of_no_star (star_not_mem_shape path), Bool.and_eq_true,
    beq_iff_eq, length_shape]
  exact fun hand ↦ h hand.1

/-- `normalise` keeps a text of which it removes nothing. -/
theorem eq_of_length_eq {raw n : Str} (hn : normalise raw = .ok n) (h : raw.length = n.length) :
    raw = n := by
  obtain ⟨front, slashes, back, hraw, _⟩ := exists_affixes hn
  have hlength := congrArg List.length hraw
  simp only [List.length_append] at hlength
  have hfront : front = [] := List.length_eq_zero_iff.mp (by omega)
  have hslashes : slashes = [] := List.length_eq_zero_iff.mp (by omega)
  have hback : back = [] := List.length_eq_zero_iff.mp (by omega)
  rw [hraw, hfront, hslashes, hback, List.nil_append, List.append_nil, List.append_nil]

theorem patternCoversDir_globstar (dirPath : Str) :
    patternCoversDir dirPath (str "**") = true := rfl

/-- A scope and a directory on which a text that is not in normal form lists a child that is
denied under the normal form. -/
theorem exists_not_showsReadable {raw n : Str} (hn : normalise raw = .ok n) (hne : raw ≠ n) :
    ∃ scope tree children listing, tree n = some children ∧ listDir scope raw tree = .ok listing ∧
      ¬ ShowsReadable scope n children listing := by
  have hname : NameOk (str "x") := by decide
  let child : Child := ⟨str "x", false, hname⟩
  let written := childPath raw child.name
  let meant := childPath n child.name
  have hlength : meant.length ≠ written.length := by
    intro heq
    refine hne (eq_of_length_eq hn ?_)
    simpa [meant, written, childPath] using heq.symm
  have hwrittenNe : written ≠ [] := by simp [written, childPath]
  have hmeantNe : meant ≠ [] := by simp [meant, childPath]
  have hread : ∀ p ∈ [str "**", shape written],
      p ≠ [] ∧ validatePattern (str "read") p = .ok () := by
    intro p hp
    rcases List.mem_cons.mp hp with rfl | hp
    · decide +kernel
    · rw [List.mem_singleton.mp hp]
      exact ⟨shape_ne_nil hwrittenNe, validatePattern_shape _ written⟩
  have hdeny : ∀ p ∈ [shape meant], p ≠ [] ∧ validatePattern denyKey p = .ok () := by
    intro p hp
    rw [List.mem_singleton.mp hp]
    exact ⟨shape_ne_nil hmeantNe, validatePattern_shape _ meant⟩
  have hdisjoint : ∀ p ∈ [shape meant], p ∉ [str "**", shape written] := by
    intro p hp hmem
    rw [List.mem_singleton.mp hp] at hmem
    rcases List.mem_cons.mp hmem with heq | hmem
    · exact star_not_mem_shape meant (heq ▸ by decide)
    · have hlengths := congrArg List.length (List.mem_singleton.mp hmem)
      rw [length_shape, length_shape] at hlengths
      exact hlength hlengths
  let scope := readDenyScope [str "**", shape written] [shape meant] hread hdeny hdisjoint
  have hwritten : permits (some scope) .read written = true := by
    rw [permits_readDenyScope]
    refine ⟨fun p hp ↦ ?_, shape written, by simp, matchesPattern_shape_self written⟩
    rw [List.mem_singleton.mp hp]
    exact matchesPattern_shape_of_length_ne hlength
  have hmeant : permits (some scope) .read meant = false := by
    have hmem : shape meant ∈ scope.patterns denyKey := by
      rw [patterns_readDenyScope_deny]
      exact List.mem_singleton_self _
    exact permits_eq_false_of_deny hmem (matchesPattern_shape_self meant)
  have hcovers : scopeCoversDir (some scope) n = true := by
    have hany : (scope.patterns (str "read")).any (patternCoversDir n) = true := by
      rw [patterns_readDenyScope_read, List.any_cons, patternCoversDir_globstar, Bool.true_or]
    exact hany
  have hlist : listDir (some scope) raw (fun _ ↦ some [child]) = .ok ⟨[child], raw⟩ := by
    rw [listDir, hn]
    dsimp only
    rw [if_pos hcovers, List.mergeSort_singleton, List.filter_singleton]
    have hkeep : (bif permits (some scope) .read (childPath raw child.name) then [child] else []) =
        [child] := congrArg (cond · [child] []) hwritten
    rw [hkeep]
  refine ⟨some scope, fun _ ↦ some [child], [child], _, rfl, hlist, fun hshows ↦ ?_⟩
  have hpermits := ((hshows child).mp List.mem_cons_self).2
  rw [show permits (some scope) .read (childPath n child.name) = false from hmeant] at hpermits
  exact Bool.false_ne_true hpermits

/-- Over all scopes and directories the listing of a path is right exactly when the path is
written in its normal form; for one scope and one directory, exactly when each child is readable
under the written path if and only if it is under the normalised one. -/
theorem listDir_showsReadable_iff {raw n : Str} (hn : normalise raw = .ok n) :
    ((∀ scope tree children listing, tree n = some children →
        listDir scope raw tree = .ok listing → ShowsReadable scope n children listing) ↔
      raw = n) ∧
    ∀ scope tree children listing, tree n = some children →
      listDir scope raw tree = .ok listing →
      (ShowsReadable scope n children listing ↔
        ∀ child ∈ children, permits scope .read (childPath raw child.name) =
          permits scope .read (childPath n child.name)) := by
  refine ⟨⟨fun hall ↦ ?_, ?_⟩, fun scope tree children listing hchildren hlist ↦
    showsReadable_iff hn hchildren hlist⟩
  · by_contra hne
    obtain ⟨scope, tree, children, listing, hchildren, hlist, hnot⟩ :=
      exists_not_showsReadable hn hne
    exact hnot (hall scope tree children listing hchildren hlist)
  · rintro rfl scope tree children listing hchildren hlist
    exact (showsReadable_iff hn hchildren hlist).mpr fun _ _ ↦ rfl

theorem listDir_showsReadable_iff_spaced :
    ((∀ scope tree children listing, tree (str "dev") = some children →
        listDir scope (str " dev/") tree = .ok listing →
        ShowsReadable scope (str "dev") children listing) ↔ str " dev/" = str "dev") ∧
    ∀ scope tree children listing, tree (str "dev") = some children →
      listDir scope (str " dev/") tree = .ok listing →
      (ShowsReadable scope (str "dev") children listing ↔
        ∀ child ∈ children, permits scope .read (childPath (str " dev/") child.name) =
          permits scope .read (childPath (str "dev") child.name)) :=
  listDir_showsReadable_iff (by decide +kernel)

/-- An account that may read `dev/**` but not `dev/secret`. -/
def devScope : Scope :=
  readDenyScope [str "dev/**"] [str "dev/secret"] (by decide +kernel) (by decide +kernel)
    (by decide +kernel)

def secretFile : Child := ⟨str "secret", false, by decide⟩

/-- Listing `dev/` shows the file that listing `dev` hides. -/
theorem listDir_trailing_slash :
    normalise (str "dev/") = .ok (str "dev") ∧
      listDir (some devScope) (str "dev/") (fun _ ↦ some [secretFile]) =
        .ok ⟨[secretFile], str "dev/"⟩ ∧
      listDir (some devScope) (str "dev") (fun _ ↦ some [secretFile]) = .ok ⟨[], str "dev"⟩ ∧
      ¬ ShowsReadable (some devScope) (str "dev") [secretFile] ⟨[secretFile], str "dev/"⟩ := by
  have hdenied : permits (some devScope) .read (childPath (str "dev") secretFile.name) = false := by
    decide +kernel
  refine ⟨by decide +kernel, by decide +kernel, by decide +kernel, fun hshows ↦ ?_⟩
  have hpermits := ((hshows secretFile).mp List.mem_cons_self).2
  rw [hdenied] at hpermits
  exact Bool.false_ne_true hpermits

end DatumSync.Vault
