import DatumSync.Vault.Listing
import DatumSync.Vault.Reach

/-!
# The directories a scope covers

`_scope_covers_dir` compares the text of a pattern with that of the directory.  Whether the pattern
can match anything below the directory depends on what is left of it when its segments are laid
along those of the directory.
-/

namespace DatumSync.Vault

open Python

/-! ## Paths below a directory -/

/-- A vault path strictly below a directory. -/
def Below (dir path : Str) : Prop := Normalised path ∧ startsWith path (dir ++ str "/") = true

theorem endsWithSpace_append_slash (s rest : Str) :
    endsWithSpace (s ++ slash :: rest) = endsWithSpace rest := by
  rw [endsWithSpace, endsWithSpace, List.getLast?_append]
  cases rest with
  | nil => rfl
  | cons c rest =>
    rw [List.getLast?_cons_cons, List.getLast?_eq_some_getLast (List.cons_ne_nil c rest)]
    rfl

theorem spelledLength_append_slash (s rest : Str) :
    spelledLength (s ++ slash :: rest) = s.length + 1 + spelledLength rest := by
  rw [spelledLength, endsWithSpace_append_slash, spelledLength, List.length_append,
    List.length_cons]
  omega

theorem taken_split (path : Str) : taken (split slash path) = 1 + spelledLength path := by
  have hjoin : ∀ segments : List Str, segments ≠ [] →
      taken segments = 1 + spelledLength (join slash segments) := by
    intro segments hne
    induction segments with
    | nil => exact absurd rfl hne
    | cons s rest ih =>
      cases rest with
      | nil => rw [join_singleton]; rfl
      | cons t others =>
        rw [taken_cons, ih (List.cons_ne_nil t others), join_cons_cons, spelledLength_append_slash,
          List.isEmpty_cons, if_neg Bool.false_ne_true]
        omega
  rw [hjoin _ (split_ne_nil slash path), join_split]

theorem split_append_slash (dir rest : Str) :
    split slash (dir ++ slash :: rest) = split slash dir ++ split slash rest :=
  List.splitOn_append_cons_self dir rest

/-- What may stand below a directory is what continues it within the length of paths. -/
theorem normalForm_append_iff {dir rest : Str} (hdir : NormalForm dir) :
    NormalForm (dir ++ slash :: rest) ↔ Continues (maxPath - dir.length) (split slash rest) := by
  have hspelled := spelledLength_append_slash dir rest
  have htaken := taken_split rest
  constructor
  · intro h
    have hshort := h.short
    refine ⟨split_ne_nil slash rest, fun s hs ↦ ⟨h.segments s ?_, not_mem_of_mem_split hs,
      fun hmem ↦ h.noNull ?_, fun hmem ↦ h.noBackslash ?_⟩, ?_⟩
    · rw [split_append_slash]
      exact List.mem_append_right _ hs
    · exact List.mem_append_right _ (List.mem_cons_of_mem _ (mem_of_mem_split hs hmem))
    · exact List.mem_append_right _ (List.mem_cons_of_mem _ (mem_of_mem_split hs hmem))
    · omega
  · intro h
    have hshort := h.short
    have habsent : ∀ c, c ≠ slash → c ∉ dir → (∀ s ∈ split slash rest, c ∉ s) →
        c ∉ dir ++ slash :: rest := by
      intro c hc hcdir hcrest hmem
      rw [List.mem_append, List.mem_cons] at hmem
      rcases hmem with hmem | hmem | hmem
      · exact hcdir hmem
      · exact hc hmem
      · obtain ⟨s, hs, hcs⟩ := mem_split hmem hc
        exact hcrest s hs hcs
    refine ⟨?_, habsent 0 (by decide) hdir.noNull fun s hs ↦ (h.segments s hs).2.2.1,
      habsent _ (by decide) hdir.noBackslash fun s hs ↦ (h.segments s hs).2.2.2, ?_, ?_⟩
    · omega
    · rw [startsWithSpace_append _ hdir.ne_nil]
      exact hdir.front
    · intro s hs
      rw [split_append_slash, List.mem_append] at hs
      exact hs.elim (hdir.segments s) fun hs ↦ (h.segments s hs).1

theorem split_join {segments : List Str} (hfree : ∀ s ∈ segments, slash ∉ s)
    (hne : segments ≠ []) : split slash (join slash segments) = segments :=
  List.splitOn_intercalate slash hfree hne

theorem Continues.split_join {room : ℕ} {segments : List Str} (h : Continues room segments) :
    split slash (join slash segments) = segments :=
  Vault.split_join (fun s hs ↦ (h.segments s hs).2.1) h.nonempty

theorem below_iff {dir path : Str} (hdir : NormalForm dir) :
    Below dir path ↔ ∃ segments, Continues (maxPath - dir.length) segments ∧
      path = dir ++ slash :: join slash segments := by
  unfold Below
  rw [normalised_iff, startsWith_iff]
  constructor
  · rintro ⟨hform, rest, rfl⟩
    rw [List.append_assoc] at hform ⊢
    exact ⟨split slash rest, (normalForm_append_iff hdir).mp hform, by rw [join_split]; rfl⟩
  · rintro ⟨segments, h, rfl⟩
    have hform := (normalForm_append_iff hdir).mpr (h.split_join.symm ▸ h)
    exact ⟨hform, join slash segments, List.append_assoc _ _ _⟩

/-- For a validated pattern and a directory in normal form, reaching below the directory is
matching a path there. -/
theorem reaches_iff_matches {key pattern dir : Str}
    (hpattern : validatePattern key pattern = .ok ()) (hdir : NormalForm dir) :
    reaches (maxPath - dir.length) (split slash pattern) (split slash dir) = true ↔
      ∃ path, Below dir path ∧ matchesPattern pattern path = true := by
  have hvalid : ∀ p ∈ split slash pattern, PatternSegmentOk p ∧ slash ∉ p := fun p hp ↦
    ⟨validatePattern_eq_ok.mp hpattern p hp, not_mem_of_mem_split hp⟩
  have hmatches : ∀ segments, Continues (maxPath - dir.length) segments →
      matchesPattern pattern (dir ++ slash :: join slash segments) =
        segmentsMatch oneLineSegments (split slash pattern) (split slash dir ++ segments) := by
    intro segments h
    have hbelow := (below_iff hdir).mpr ⟨segments, h, rfl⟩
    obtain ⟨raw, hraw⟩ := hbelow.1
    rw [matchesPattern_eq_oneLine hpattern hraw, globMatchesOneLine, split_append_slash,
      h.split_join]
  rw [reaches_iff hvalid]
  constructor
  · rintro ⟨segments, h, hmatch⟩
    exact ⟨_, (below_iff hdir).mpr ⟨segments, h, rfl⟩, (hmatches segments h).trans hmatch⟩
  · rintro ⟨path, hbelow, hmatch⟩
    obtain ⟨segments, h, rfl⟩ := (below_iff hdir).mp hbelow
    exact ⟨segments, h, (hmatches segments h).symm.trans hmatch⟩

/-! ## What the tests look at -/

/-- The segments of a pattern before its first star. -/
def beforeStar (pattern : List Str) : List Str := pattern.takeWhile fun p ↦ !p.contains starChar

/-- The same without empty ones at their end. -/
def literalSegments (pattern : List Str) : List Str := (beforeStar pattern).rdropWhile (·.isEmpty)

/-- The pattern begins with `**`, or spells out the directory and goes on, or spells out the
directory or one above it up to its first star. -/
def Names (dir pattern : List Str) : Prop :=
  [str "**"] <+: pattern ∨ (∃ rest, rest ≠ [] ∧ pattern = dir ++ rest) ∨
    literalSegments pattern ≠ [] ∧ literalSegments pattern <+: dir

theorem join_append {first rest : List Str} (hfirst : first ≠ []) (hrest : rest ≠ []) :
    join slash (first ++ rest) = join slash first ++ slash :: join slash rest := by
  induction first with
  | nil => exact absurd rfl hfirst
  | cons s others ih =>
    cases others with
    | nil =>
      obtain ⟨t, more, rfl⟩ := List.exists_cons_of_ne_nil hrest
      rw [List.singleton_append, join_cons_cons, join_singleton]
    | cons t others =>
      rw [List.cons_append, List.cons_append, join_cons_cons, join_cons_cons, ← List.cons_append,
        ih (List.cons_ne_nil t others), List.append_assoc]
      rfl

/-- A text goes on behind joined segments exactly when its segments do. -/
theorem join_slash_prefix_iff {segments : List Str} {s : Str}
    (hfree : ∀ t ∈ segments, slash ∉ t) (hne : segments ≠ []) :
    startsWith s (join slash segments ++ str "/") = true ↔
      ∃ rest, rest ≠ [] ∧ split slash s = segments ++ rest := by
  rw [startsWith_iff]
  constructor
  · rintro ⟨rest, rfl⟩
    refine ⟨split slash rest, split_ne_nil slash rest, ?_⟩
    rw [List.append_assoc, show str "/" ++ rest = slash :: rest from rfl, split_append_slash,
      split_join hfree hne]
  · rintro ⟨rest, hrest, hsplit⟩
    rw [← join_split slash s, hsplit, join_append hne hrest]
    exact ⟨join slash rest, List.append_assoc _ _ _⟩

theorem prefix_split_iff {segments : List Str} {s : Str} (hfree : ∀ t ∈ segments, slash ∉ t)
    (hne : segments ≠ []) :
    segments <+: split slash s ↔
      startsWith s (join slash segments ++ str "/") = true ∨ s = join slash segments := by
  rw [join_slash_prefix_iff hfree hne]
  constructor
  · rintro ⟨rest, hrest⟩
    by_cases hnil : rest = []
    · rw [hnil, List.append_nil] at hrest
      exact .inr (by rw [hrest, join_split])
    · exact .inl ⟨rest, hnil, hrest.symm⟩
  · rintro (⟨rest, _, hrest⟩ | rfl)
    · exact ⟨rest, hrest.symm⟩
    · rw [split_join hfree hne]

theorem beforeStar_cons (p : Str) (rest : List Str) :
    beforeStar (p :: rest) = if starChar ∈ p then [] else p :: beforeStar rest := by
  rw [beforeStar, List.takeWhile_cons]
  by_cases hstar : starChar ∈ p
  · simp [hstar]
  · simp [hstar, beforeStar]

/-- The text before the first star is made of the segments before it and slashes. -/
theorem takeWhile_join {segments : List Str} (hvalid : ∀ p ∈ segments, PatternSegmentOk p) :
    ∃ slashes : Str, (∀ c ∈ slashes, c = slash) ∧
      (join slash segments).takeWhile (· != starChar) =
        join slash (beforeStar segments) ++ slashes := by
  induction segments with
  | nil => exact ⟨[], fun c hc ↦ absurd hc List.not_mem_nil, rfl⟩
  | cons p rest ih =>
    rw [List.forall_mem_cons] at hvalid
    rw [beforeStar_cons]
    by_cases hstar : starChar ∈ p
    · rw [if_pos hstar]
      refine ⟨[], fun c hc ↦ absurd hc List.not_mem_nil, ?_⟩
      cases rest with
      | nil => rcases hvalid.1.2.2 hstar with rfl | rfl <;> rfl
      | cons q others =>
        rw [join_cons_cons]
        rcases hvalid.1.2.2 hstar with rfl | rfl <;> rfl
    · rw [if_neg hstar]
      have hall : ∀ c ∈ p, (c != starChar) = true := by
        intro c hc
        rw [bne_iff_ne]
        exact fun heq ↦ hstar (heq ▸ hc)
      cases rest with
      | nil =>
        refine ⟨[], fun c hc ↦ absurd hc List.not_mem_nil, ?_⟩
        rw [join_singleton, List.takeWhile_eq_self_iff.mpr hall, List.append_nil]
        exact (join_singleton p).symm
      | cons q others =>
        obtain ⟨slashes, hslashes, htake⟩ := ih hvalid.2
        have hslash : (slash != starChar) = true := by decide
        rw [join_cons_cons, List.takeWhile_append_of_pos hall, List.takeWhile_cons, if_pos hslash,
          htake]
        cases hmore : beforeStar (q :: others) with
        | nil =>
          refine ⟨slash :: slashes, ?_, by rw [join_singleton]; rfl⟩
          rw [List.forall_mem_cons]
          exact ⟨rfl, hslashes⟩
        | cons t ts =>
          refine ⟨slashes, hslashes, ?_⟩
          rw [join_cons_cons, List.append_assoc]
          rfl

theorem rstripChar_join {segments : List Str} (hfree : ∀ s ∈ segments, slash ∉ s) :
    rstripChar slash (join slash segments) = join slash (segments.rdropWhile (·.isEmpty)) := by
  induction segments using List.reverseRecOn with
  | nil => rfl
  | append_singleton before s ih =>
    have hbefore := ih fun t ht ↦ hfree t (List.mem_append_left _ ht)
    rw [List.rdropWhile_concat]
    by_cases hnil : s = []
    · rw [if_pos (by rw [hnil]; rfl), ← hbefore, hnil]
      by_cases hfirst : before = []
      · rw [hfirst]
        rfl
      · rw [join_append hfirst (List.cons_ne_nil _ _), join_singleton, rstripChar,
          List.rdropWhile_concat, if_pos (beq_self_eq_true slash), ← rstripChar]
    · rw [if_neg (by simpa using hnil)]
      obtain ⟨front, c, rfl⟩ := exists_concat hnil
      have hc : ¬(c == slash) = true := by
        intro heq
        refine hfree _ (List.mem_append_right _ (List.mem_singleton_self _)) ?_
        exact List.mem_append_right _ (List.mem_singleton.mpr (eq_of_beq heq).symm)
      by_cases hfirst : before = []
      · rw [hfirst, List.nil_append, join_singleton, rstripChar, List.rdropWhile_concat, if_neg hc]
      · rw [join_append hfirst (List.cons_ne_nil _ _), join_singleton, rstripChar,
          ← List.cons_append, ← List.append_assoc, List.rdropWhile_concat, if_neg hc]

theorem literalPrefix_eq {key pattern : Str} (hpattern : validatePattern key pattern = .ok ()) :
    literalPrefix pattern = join slash (literalSegments (split slash pattern)) := by
  obtain ⟨slashes, hslashes, htake⟩ := takeWhile_join (validatePattern_eq_ok.mp hpattern)
  have hfree : ∀ s ∈ beforeStar (split slash pattern), slash ∉ s :=
    fun s hs ↦ not_mem_of_mem_split (List.takeWhile_subset _ hs)
  rw [join_split] at htake
  rw [literalPrefix, htake, rstripChar,
    rdropWhile_append_of_all fun c hc ↦ beq_of_eq (hslashes c hc)]
  exact rstripChar_join hfree

/-- The tests of `_scope_covers_dir` in terms of segments. -/
theorem patternCoversDir_iff {key pattern dir : Str}
    (hpattern : validatePattern key pattern = .ok ()) (hdir : NormalForm dir) :
    patternCoversDir dir pattern = true ↔ Names (split slash dir) (split slash pattern) := by
  have hfree : ∀ s ∈ literalSegments (split slash pattern), slash ∉ s := fun s hs ↦
    not_mem_of_mem_split (List.takeWhile_subset _ ((List.rdropWhile_prefix _ _).subset hs))
  have hglob : [str "**"] <+: split slash pattern ↔
      startsWith pattern (str "**/") = true ∨ pattern = str "**" := by
    rw [prefix_split_iff (by decide) (List.cons_ne_nil _ _)]
    rfl
  have hspelled : startsWith pattern (dir ++ str "/") = true ↔
      ∃ rest, rest ≠ [] ∧ split slash pattern = split slash dir ++ rest := by
    have h := @join_slash_prefix_iff (split slash dir) pattern
      (fun t ht ↦ not_mem_of_mem_split ht) (split_ne_nil slash dir)
    rwa [join_split] at h
  have hmore : startsWith pattern (dir ++ str "/**") = true →
      startsWith pattern (dir ++ str "/") = true := by
    rw [startsWith_iff, startsWith_iff]
    exact fun h ↦ ((List.prefix_append_right_inj dir).mpr (by decide)).trans h
  have hliteral : (startsWith dir (literalPrefix pattern ++ str "/") = true ∨
      dir = literalPrefix pattern) ↔ literalSegments (split slash pattern) ≠ [] ∧
        literalSegments (split slash pattern) <+: split slash dir := by
    rw [literalPrefix_eq hpattern]
    by_cases hnil : literalSegments (split slash pattern) = []
    · rw [hnil]
      refine iff_of_false ?_ fun h ↦ h.1 rfl
      rintro (h | h)
      · exact ne_true_of_eq_false hdir.relative h
      · exact hdir.ne_nil h
    · rw [prefix_split_iff hfree hnil]
      exact (and_iff_right hnil).symm
  unfold patternCoversDir Names
  simp only [Bool.or_eq_true, beq_iff_eq]
  rw [hglob, ← hspelled, ← hliteral]
  constructor
  · rintro (((h | h | h) | h) | h)
    · exact .inl (.inr h)
    · exact .inr (.inl h)
    · exact .inr (.inl (hmore h))
    · exact .inl (.inl h)
    · exact .inr (.inr h)
  · rintro ((h | h) | h | h)
    · exact .inl (.inr h)
    · exact .inl (.inl (.inl h))
    · exact .inl (.inl (.inr (.inl h)))
    · exact .inr h

/-! ## When the tests are right -/

/-- The pattern begins with `*`, or there is a `?` before its first star. -/
def WildStart (pattern : List Str) : Prop :=
  [str "*"] <+: pattern ∨ ∃ p ∈ beforeStar pattern, questionChar ∈ p

theorem eq_of_segmentMatches {p s : Str} (hquestion : questionChar ∉ p) (hstar : p ≠ str "*")
    (h : segmentMatches p s = true) : p = s := by
  have hall := (segmentMatches_iff hstar).mp h
  clear h hstar
  induction hall with
  | nil => rfl
  | @cons a b p' s' hab hrest ih =>
    rw [List.mem_cons, not_or] at hquestion
    rw [charMatches, if_neg (Ne.symm hquestion.1)] at hab
    rw [eq_of_beq hab, ih hquestion.2]

/-- Without a `?` before its first star a pattern that reaches below a directory agrees with it up
to there. -/
theorem beforeStar_prefix_of_reaches {room : ℕ} {pattern dir : List Str}
    (h : reaches room pattern dir = true)
    (hquestion : ∀ p ∈ beforeStar pattern, questionChar ∉ p) :
    beforeStar pattern <+: dir ∨ ∃ rest, rest ≠ [] ∧ pattern = dir ++ rest := by
  induction pattern generalizing dir with
  | nil => cases h
  | cons p rest ih =>
    rw [beforeStar_cons] at hquestion ⊢
    by_cases hstar : starChar ∈ p
    · rw [if_pos hstar]
      exact .inl List.nil_prefix
    · rw [if_neg hstar, List.forall_mem_cons] at hquestion
      rw [if_neg hstar]
      have hglob : p ≠ str "**" := by
        rintro rfl
        exact hstar (by decide)
      have hone : p ≠ str "*" := by
        rintro rfl
        exact hstar (by decide)
      cases dir with
      | nil => exact .inr ⟨p :: rest, List.cons_ne_nil p rest, rfl⟩
      | cons s others =>
        rw [reaches_cons, if_neg hglob, Bool.and_eq_true] at h
        obtain rfl := eq_of_segmentMatches hquestion.1 hone h.1
        rcases ih h.2 hquestion.2 with hbegins | ⟨more, hmore, heq⟩
        · exact .inl ((List.prefix_cons_inj p).mpr hbegins)
        · exact .inr ⟨more, hmore, by rw [heq]; rfl⟩

/-- Only patterns that begin with a wildcard can reach below a directory that the tests do not
find in them. -/
theorem names_of_reaches {room : ℕ} {pattern dir : List Str}
    (hvalid : ∀ p ∈ pattern, PatternSegmentOk p) (hdir : ∀ s ∈ dir, s ≠ [])
    (h : reaches room pattern dir = true) (hwild : ¬ WildStart pattern) : Names dir pattern := by
  rw [WildStart, not_or] at hwild
  have hquestion : ∀ p ∈ beforeStar pattern, questionChar ∉ p := fun p hp hmem ↦
    hwild.2 ⟨p, hp, hmem⟩
  rcases beforeStar_prefix_of_reaches h hquestion with hbegins | hspelled
  · have hliteral : literalSegments pattern = beforeStar pattern := by
      rw [literalSegments, List.rdropWhile_eq_self_iff]
      intro hne hempty
      exact hdir _ (hbegins.subset (List.getLast_mem hne)) (List.isEmpty_iff.mp hempty)
    by_cases hnil : beforeStar pattern = []
    · cases pattern with
      | nil => cases h
      | cons p rest =>
        have hstar : starChar ∈ p := by
          by_contra hnot
          rw [beforeStar_cons, if_neg hnot] at hnil
          cases hnil
        rcases (hvalid p List.mem_cons_self).2.2 hstar with rfl | rfl
        · exact absurd ⟨rest, rfl⟩ hwild.1
        · exact .inl ⟨rest, rfl⟩
    · exact .inr (.inr (hliteral.symm ▸ ⟨hnil, hbegins⟩))
  · exact .inr (.inl hspelled)

/-- Some path below the directory is matched by a read pattern. -/
def Covered (scope : Scope) (dir : Str) : Prop :=
  ∃ path, Below dir path ∧ ∃ pattern ∈ scope.patterns (str "read"),
    matchesPattern pattern path = true

/-- `_scope_covers_dir` says whether anything below the directory is covered, and `list_dir`
forbids exactly the directories below which nothing is. -/
structure CoverageExact (scope : Scope) (dir : Str) : Prop where
  covers : scopeCoversDir (some scope) dir = true ↔ Covered scope dir
  refuses : ∀ raw tree, normalise raw = .ok dir →
    ((∃ message details, listDir (some scope) raw tree =
      .error (.api 403 (str "FORBIDDEN") message details)) ↔ ¬ Covered scope dir)

/-- No read pattern that names the directory is a dead end unless another is none, and none that
begins with a wildcard goes on below the directory unless another names it. -/
structure NoBlindSpot (scope : Scope) (dir : Str) : Prop where
  deadEnds : ∀ pattern ∈ scope.patterns (str "read"),
    Names (split slash dir) (split slash pattern) →
      DeadEnd (maxPath - dir.length) (split slash dir) (split slash pattern) →
        ∃ other ∈ scope.patterns (str "read"),
          ¬ DeadEnd (maxPath - dir.length) (split slash dir) (split slash other)
  wildStarts : ∀ pattern ∈ scope.patterns (str "read"), WildStart (split slash pattern) →
    ¬ DeadEnd (maxPath - dir.length) (split slash dir) (split slash pattern) →
      ∃ other ∈ scope.patterns (str "read"), Names (split slash dir) (split slash other)

theorem scopeCoversDir_iff {scope : Scope} {dir : Str} (hdir : NormalForm dir) :
    scopeCoversDir (some scope) dir = true ↔ ∃ pattern ∈ scope.patterns (str "read"),
      Names (split slash dir) (split slash pattern) := by
  have hany : scopeCoversDir (some scope) dir = true ↔
      ∃ pattern ∈ scope.patterns (str "read"), patternCoversDir dir pattern = true := by
    unfold scopeCoversDir
    dsimp only
    split_ifs with hempty
    · refine iff_of_false not_false ?_
      rintro ⟨pattern, hpattern, _⟩
      rw [Scope.patterns, List.isEmpty_iff.mp hempty] at hpattern
      exact absurd hpattern List.not_mem_nil
    · exact List.any_eq_true
  rw [hany]
  refine exists_congr fun pattern ↦ and_congr_right fun hpattern ↦ ?_
  exact patternCoversDir_iff (scope.validatePattern_eq_ok (by decide) hpattern) hdir

theorem covered_iff_reaches {scope : Scope} {dir : Str} (hdir : NormalForm dir) :
    Covered scope dir ↔ ∃ pattern ∈ scope.patterns (str "read"),
      reaches (maxPath - dir.length) (split slash pattern) (split slash dir) = true := by
  have hreaches : ∀ pattern ∈ scope.patterns (str "read"),
      (reaches (maxPath - dir.length) (split slash pattern) (split slash dir) = true ↔
        ∃ path, Below dir path ∧ matchesPattern pattern path = true) := fun pattern hpattern ↦
    reaches_iff_matches (scope.validatePattern_eq_ok (by decide) hpattern) hdir
  constructor
  · rintro ⟨path, hbelow, pattern, hpattern, hmatch⟩
    exact ⟨pattern, hpattern, (hreaches pattern hpattern).mpr ⟨path, hbelow, hmatch⟩⟩
  · rintro ⟨pattern, hpattern, h⟩
    obtain ⟨path, hbelow, hmatch⟩ := (hreaches pattern hpattern).mp h
    exact ⟨path, hbelow, pattern, hpattern, hmatch⟩

/-- The segments of a directory are segments of a path. -/
theorem pathText_of_mem_split {dir s : Str} (hdir : NormalForm dir) (hs : s ∈ split slash dir) :
    s ≠ [] ∧ PathText s :=
  ⟨(hdir.segments s hs).2.2, fun h ↦ hdir.noNull (mem_of_mem_split hs h),
    fun h ↦ hdir.noBackslash (mem_of_mem_split hs h)⟩

theorem covered_iff {scope : Scope} {dir : Str} (hdir : NormalForm dir) :
    Covered scope dir ↔ ∃ pattern ∈ scope.patterns (str "read"),
      ¬ DeadEnd (maxPath - dir.length) (split slash dir) (split slash pattern) := by
  rw [covered_iff_reaches hdir]
  exact exists_congr fun pattern ↦ and_congr_right fun _ ↦
    reaches_iff_not_deadEnd fun s hs ↦ pathText_of_mem_split hdir hs

theorem listDir_forbidden_iff {scope : Option Scope} {raw dir : Str} {tree : Tree}
    (hn : normalise raw = .ok dir) :
    (∃ message details, listDir scope raw tree =
      .error (.api 403 (str "FORBIDDEN") message details)) ↔ scopeCoversDir scope dir = false := by
  rw [listDir, hn]
  dsimp only
  cases scopeCoversDir scope dir with
  | false => exact iff_of_true ⟨_, _, rfl⟩ rfl
  | true =>
    refine iff_of_false ?_ Bool.true_eq_false.mp
    rintro ⟨message, details, h⟩
    rw [if_pos rfl] at h
    split at h
    · cases h
    · cases h

/-- Directory coverage is exact for the directories that are no blind spot of the read patterns. -/
theorem coverageExact_iff {scope : Scope} {dir : Str} (hdir : Normalised dir) :
    CoverageExact scope dir ↔ NoBlindSpot scope dir := by
  have hform := normalised_iff.mp hdir
  have hexact : CoverageExact scope dir ↔
      (scopeCoversDir (some scope) dir = true ↔ Covered scope dir) := by
    refine ⟨CoverageExact.covers, fun h ↦ ⟨h, fun raw tree hraw ↦ ?_⟩⟩
    rw [listDir_forbidden_iff hraw, ← h, Bool.not_eq_true]
  rw [hexact, scopeCoversDir_iff hform, covered_iff hform]
  constructor
  · intro h
    exact ⟨fun pattern hpattern hnames _ ↦ h.mp ⟨pattern, hpattern, hnames⟩,
      fun pattern hpattern _ halive ↦ h.mpr ⟨pattern, hpattern, halive⟩⟩
  · intro h
    constructor
    · rintro ⟨pattern, hpattern, hnames⟩
      by_cases hdead : DeadEnd (maxPath - dir.length) (split slash dir) (split slash pattern)
      · exact h.deadEnds pattern hpattern hnames hdead
      · exact ⟨pattern, hpattern, hdead⟩
    · rintro ⟨pattern, hpattern, halive⟩
      by_cases hwild : WildStart (split slash pattern)
      · exact h.wildStarts pattern hpattern hwild halive
      · have hvalid := scope.validatePattern_eq_ok (by decide) hpattern
        have hreaches := (reaches_iff_not_deadEnd fun s hs ↦ pathText_of_mem_split hform hs).mpr
          halive
        exact ⟨pattern, hpattern, names_of_reaches (Vault.validatePattern_eq_ok.mp hvalid)
          (fun s hs ↦ (hform.segments s hs).2.2) hreaches hwild⟩

theorem coverageExact_iff_dev :
    CoverageExact devScope (str "dev") ↔ NoBlindSpot devScope (str "dev") :=
  coverageExact_iff ⟨str "dev", by decide +kernel⟩

/-- Notes in every directory of the vault. -/
def notesScope : Scope :=
  readDenyScope [str "*/notes.md"] [] (by decide +kernel) (by decide +kernel) (by decide +kernel)

def filesScope : Scope :=
  readDenyScope [str "dev/*"] [] (by decide +kernel) (by decide +kernel) (by decide +kernel)

/-- `dev` may not be listed although `dev/notes.md` may be read, and `dev/a` may be listed although
nothing below it may be read. -/
theorem notesScope_not_exact :
    scopeCoversDir (some notesScope) (str "dev") = false ∧
      Below (str "dev") (str "dev/notes.md") ∧
      permits (some notesScope) .read (str "dev/notes.md") = true ∧
      scopeCoversDir (some filesScope) (str "dev/a") = true ∧ ¬ Covered filesScope (str "dev/a") ∧
      ¬ CoverageExact notesScope (str "dev") ∧ ¬ CoverageExact filesScope (str "dev/a") := by
  have hdir : NormalForm (str "dev/a") := @normalForm_of_ok (str "dev/a") _ (by decide +kernel)
  have hhidden : scopeCoversDir (some notesScope) (str "dev") = false := by decide +kernel
  have hbelow : Below (str "dev") (str "dev/notes.md") :=
    ⟨⟨str "dev/notes.md", by decide +kernel⟩, by decide +kernel⟩
  have hshown : scopeCoversDir (some filesScope) (str "dev/a") = true := by decide +kernel
  have hnothing : ¬ Covered filesScope (str "dev/a") := by
    have hshort : ∀ pattern ∈ filesScope.patterns (str "read"),
        str "**" ∉ split slash pattern ∧
          (split slash pattern).length ≤ (split slash (str "dev/a")).length := by
      decide +kernel
    rw [covered_iff hdir]
    rintro ⟨pattern, hpattern, halive⟩
    exact halive (.short (hshort pattern hpattern).1 (hshort pattern hpattern).2)
  refine ⟨hhidden, hbelow, by decide +kernel, hshown, hnothing, fun h ↦ ?_, fun h ↦ ?_⟩
  · have hcovered : Covered notesScope (str "dev") :=
      ⟨_, hbelow, str "*/notes.md", by decide +kernel, by decide +kernel⟩
    rw [h.covers.mpr hcovered] at hhidden
    cases hhidden
  · exact hnothing (h.covers.mp hshown)

end DatumSync.Vault
