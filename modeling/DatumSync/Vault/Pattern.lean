import DatumSync.Foundation.RegularExpression
import DatumSync.Vault.Path

/-!
# Vault glob patterns

A pattern is translated character by character into a regular expression that has to match the
whole path.  The translation writes `.*` for a `**` that no slash follows, and Python's `.` is
every character but the newline.

Patterns accepted by `_validate_pattern` have `*` and `**` as whole segments only.  On those the
translation has a meaning in terms of the segments of the path, given by `segmentsMatch`: it takes
the condition a final `**` puts on the segments it is matched with as a parameter, since that is
the one place where the regular expression and the documented semantics can differ.
-/

namespace DatumSync.Vault

open Python Foundation

def starChar : CodePoint := cp '*'

def questionChar : CodePoint := cp '?'

def newline : CodePoint := 10

/-! ## The translation -/

def rxNonSlash : Rx CodePoint := .cls (· != slash)

def rxDirectories : Rx CodePoint :=
  .star (.seq (.seq rxNonSlash (.star rxNonSlash)) (.cls (· == slash)))

def rxAnything : Rx CodePoint := .star (.cls (· != newline))

def rxRun : Rx CodePoint := .star rxNonSlash

/-- `[^/]` for `?`, and the escaped character for every other one. -/
def rxAtom (c : CodePoint) : Rx CodePoint :=
  if c = questionChar then rxNonSlash else .cls (· == c)

/-- The loop of `vault._compiled`: the pieces appended to `out` from the index on. -/
def translate : Str → List (Rx CodePoint)
  | [] => []
  | c :: rest =>
    if c = starChar then
      match rest with
      | [] => [rxRun]
      | d :: rest' =>
        if d = starChar then
          match rest' with
          | [] => [rxAnything]
          | e :: rest'' =>
            if e = slash then rxDirectories :: translate rest''
            else rxAnything :: translate (e :: rest'')
        else rxRun :: translate (d :: rest')
    else rxAtom c :: translate rest

def compiled (pattern : Str) : Rx CodePoint := Rx.concat (translate pattern)

def matchesPattern (pattern path : Str) : Bool := (compiled pattern).accepts path

/-- Why a scope document is refused: the cases of `VaultScopeError`. -/
inductive ScopeError where
  | notAnObject
  | unknownKeys (keys : List Str)
  | notAList (key : Str)
  | notAPattern (key : Str)
  | traversal (key pattern : Str)
  | currentDirectory (key pattern : Str)
  | partialWildcard (key pattern segment : Str)
  | writeNotInRead (patterns : List Str)
  | alsoDenied (action : Str) (patterns : List Str)
  deriving DecidableEq

def checkPatternSegments (key pattern : Str) : List Str → Except ScopeError Unit
  | [] => .ok ()
  | segment :: rest =>
    if segment = str ".." then .error (.traversal key pattern)
    else if segment = str "." then .error (.currentDirectory key pattern)
    else if starChar ∈ segment ∧ ¬(segment = str "*" ∨ segment = str "**") then
      .error (.partialWildcard key pattern segment)
    else checkPatternSegments key pattern rest

def validatePattern (key pattern : Str) : Except ScopeError Unit :=
  checkPatternSegments key pattern (split slash pattern)

/-- A segment `_validate_pattern` lets through. -/
def PatternSegmentOk (segment : Str) : Prop :=
  segment ≠ str ".." ∧ segment ≠ str "." ∧
    (starChar ∈ segment → segment = str "*" ∨ segment = str "**")

theorem checkPatternSegments_eq_ok {key pattern : Str} {segments : List Str} :
    checkPatternSegments key pattern segments = .ok () ↔
      ∀ segment ∈ segments, PatternSegmentOk segment := by
  induction segments with
  | nil => simp [checkPatternSegments]
  | cons segment rest ih =>
    rw [List.forall_mem_cons, checkPatternSegments]
    split_ifs with h1 h2 h3
    · simp [PatternSegmentOk, h1]
    · simp [PatternSegmentOk, h2]
    · simp [PatternSegmentOk, h3]
    · rw [ih]
      exact (and_iff_right ⟨h1, h2, fun hstar ↦ by_contra fun hnot ↦ h3 ⟨hstar, hnot⟩⟩).symm

theorem validatePattern_eq_ok {key pattern : Str} :
    validatePattern key pattern = .ok () ↔
      ∀ segment ∈ split slash pattern, PatternSegmentOk segment :=
  checkPatternSegments_eq_ok

/-! ## Segment-level semantics -/

/-- One character of a pattern segment against one character of a path segment. -/
def charMatches (p c : CodePoint) : Bool := if p = questionChar then c != slash else c == p

/-- A pattern segment other than `**` against a path segment. -/
def segmentMatches (pattern segment : Str) : Bool :=
  if pattern = str "*" then true
  else pattern.length == segment.length && (pattern.zip segment).all fun pair ↦
    charMatches pair.1 pair.2

/-- Pattern segments against path segments.  A non-final `**` takes any number of segments; a
final one takes all that are left, provided `tail` accepts them. -/
def segmentsMatch (tail : List Str → Bool) : List Str → List Str → Bool
  | [], path => path.isEmpty
  | p :: rest, path =>
    if p = str "**" then
      if rest.isEmpty then tail path else path.tails.any (segmentsMatch tail rest)
    else match path with
      | [] => false
      | segment :: others => segmentMatches p segment && segmentsMatch tail rest others

def someSegments (rest : List Str) : Bool := !rest.isEmpty

/-- One or more segments, none of which holds a newline. -/
def oneLineSegments (rest : List Str) : Bool :=
  !rest.isEmpty && rest.all fun segment ↦ !segment.contains newline

/-- The documented semantics: a final `**` takes one or more whole segments. -/
def globMatches (pattern path : Str) : Bool :=
  segmentsMatch someSegments (split slash pattern) (split slash path)

/-- The same with a final `**` that takes no newline, which is what `.*` can take. -/
def globMatchesOneLine (pattern path : Str) : Bool :=
  segmentsMatch oneLineSegments (split slash pattern) (split slash path)

/-! ## The language of one segment -/

theorem translate_cons_of_ne {c : CodePoint} {rest : Str} (h : c ≠ starChar) :
    translate (c :: rest) = rxAtom c :: translate rest := by
  rw [translate.eq_def]
  simp [h]

/-- A segment without stars is translated character by character. -/
theorem translate_append_of_no_star {segment rest : Str} (h : starChar ∉ segment) :
    translate (segment ++ rest) = segment.map rxAtom ++ translate rest := by
  induction segment with
  | nil => rfl
  | cons c cs ih =>
    rw [List.mem_cons, not_or] at h
    rw [List.cons_append, translate_cons_of_ne (Ne.symm h.1), ih h.2, List.map_cons,
      List.cons_append]

theorem translate_star_slash (rest : Str) :
    translate (str "*" ++ slash :: rest) = rxRun :: rxAtom slash :: translate rest := by
  have hslash : slash ≠ starChar := by decide
  rw [show str "*" ++ slash :: rest = starChar :: slash :: rest from rfl, translate.eq_def]
  simp [hslash, translate_cons_of_ne hslash]

theorem translate_globstar_slash (rest : Str) :
    translate (str "**" ++ slash :: rest) = rxDirectories :: translate rest := by
  rw [show str "**" ++ slash :: rest = starChar :: starChar :: slash :: rest from rfl,
    translate.eq_def]
  simp

theorem translate_globstar : translate (str "**") = [rxAnything] := rfl

/-- The pieces of a segment other than `**`. -/
def segmentRx (segment : Str) : Rx CodePoint :=
  Rx.concat (if segment = str "*" then [rxRun] else segment.map rxAtom)

theorem mem_rxRun {w : Str} : w ∈ rxRun.language ↔ slash ∉ w := by
  rw [rxRun, rxNonSlash, Rx.mem_star_cls]
  constructor
  · intro h hmem
    simpa using h slash hmem
  · intro h c hc
    rw [bne_iff_ne]
    exact fun heq ↦ h (heq ▸ hc)

theorem cons_mem_rxAtom_mul {p c : CodePoint} {l : Language CodePoint} {w : Str} :
    c :: w ∈ (rxAtom p).language * l ↔ charMatches p c = true ∧ w ∈ l := by
  unfold rxAtom charMatches rxNonSlash
  split
  · exact Rx.cons_mem_cls_mul
  · exact Rx.cons_mem_cls_mul

theorem nil_not_mem_rxAtom_mul {p : CodePoint} {l : Language CodePoint} :
    [] ∉ (rxAtom p).language * l := by
  unfold rxAtom rxNonSlash
  split
  · exact Rx.nil_not_mem_cls_mul
  · exact Rx.nil_not_mem_cls_mul

theorem mem_concat_atoms {pattern w : Str} :
    w ∈ (Rx.concat (pattern.map rxAtom)).language ↔
      (pattern.length == w.length && (pattern.zip w).all fun pair ↦
        charMatches pair.1 pair.2) = true := by
  induction pattern generalizing w with
  | nil =>
    cases w with
    | nil => simp [Language.mem_one]
    | cons c cs => simp [Language.mem_one]
  | cons p ps ih =>
    rw [List.map_cons, Rx.language_concat_cons]
    cases w with
    | nil => exact iff_of_false nil_not_mem_rxAtom_mul (by simp)
    | cons c cs =>
      rw [cons_mem_rxAtom_mul, ih]
      simp only [List.length_cons, List.zip_cons_cons, List.all_cons, Bool.and_eq_true, beq_iff_eq,
        Nat.add_right_cancel_iff]
      exact and_left_comm

theorem mem_segmentRx {pattern w : Str} (hw : slash ∉ w) :
    w ∈ (segmentRx pattern).language ↔ segmentMatches pattern w = true := by
  unfold segmentRx segmentMatches
  split
  · rw [Rx.language_concat_cons, Rx.language_concat_nil, mul_one, mem_rxRun]
    exact iff_of_true hw rfl
  · exact mem_concat_atoms

theorem slash_not_mem_of_mem_atoms {pattern w : Str} (hpattern : slash ∉ pattern)
    (h : w ∈ (Rx.concat (pattern.map rxAtom)).language) : slash ∉ w := by
  induction pattern generalizing w with
  | nil =>
    rw [List.map_nil, Rx.language_concat_nil, Language.mem_one] at h
    simp [h]
  | cons p ps ih =>
    rw [List.map_cons, Rx.language_concat_cons] at h
    rw [List.mem_cons, not_or] at hpattern
    cases w with
    | nil => exact List.not_mem_nil
    | cons c cs =>
      obtain ⟨hc, hcs⟩ := cons_mem_rxAtom_mul.mp h
      rw [List.mem_cons, not_or]
      refine ⟨fun heq ↦ ?_, ih hpattern.2 hcs⟩
      unfold charMatches at hc
      split at hc
      · simp [heq] at hc
      · exact hpattern.1 (heq.trans (by simpa using hc))

/-- The words of a slash-free pattern segment are slash-free. -/
theorem slash_not_mem_of_mem_segmentRx {pattern w : Str} (hpattern : slash ∉ pattern)
    (h : w ∈ (segmentRx pattern).language) : slash ∉ w := by
  unfold segmentRx at h
  split at h
  · rw [Rx.language_concat_cons, Rx.language_concat_nil, mul_one] at h
    exact mem_rxRun.mp h
  · exact slash_not_mem_of_mem_atoms hpattern h

/-! ## Joined segments -/

theorem join_cons_cons (s t : Str) (rest : List Str) :
    join slash (s :: t :: rest) = s ++ slash :: join slash (t :: rest) := by
  simp [join, List.intercalate_cons_cons]

theorem join_singleton (s : Str) : join slash [s] = s := by simp [join]

/-- The first slash divides a text in one way only. -/
theorem append_slash_inj {u v s r : Str} (hu : slash ∉ u) (hs : slash ∉ s)
    (h : u ++ slash :: v = s ++ slash :: r) : u = s ∧ v = r := by
  have hsplit : u :: split slash v = s :: split slash r := by
    rw [← split_append_cons hu, h, split_append_cons hs]
  obtain ⟨hus, hvr⟩ := List.cons.inj hsplit
  exact ⟨hus, by rw [← join_split slash v, hvr, join_split]⟩

/-- The segments of a normalised path: no slash inside, and none of them empty. -/
def PathSegments (path : List Str) : Prop := ∀ segment ∈ path, slash ∉ segment ∧ segment ≠ []

/-- Words over slash-free words, a slash, and a continuation: the first segment and the rest. -/
theorem join_mem_mul_slash_mul {first rest : Language CodePoint} {path : List Str}
    (hfirst : ∀ w ∈ first, slash ∉ w) (hpath : PathSegments path) :
    join slash path ∈ first * ((Rx.cls (· == slash)).language * rest) ↔
      ∃ s t others, path = s :: t :: others ∧ s ∈ first ∧ join slash (t :: others) ∈ rest := by
  rw [Language.mem_mul]
  constructor
  · rintro ⟨u, hu, v, hv, huv⟩
    cases v with
    | nil => exact absurd hv Rx.nil_not_mem_cls_mul
    | cons c v =>
      obtain ⟨hc, hrest⟩ := Rx.cons_mem_cls_mul.mp hv
      obtain rfl : c = slash := eq_of_beq hc
      match path, hpath, huv with
      | [], _, huv => simp [join] at huv
      | [s], hpath, huv =>
        rw [join_singleton] at huv
        exact absurd (huv ▸ List.mem_append_right u List.mem_cons_self)
          (hpath s List.mem_cons_self).1
      | s :: t :: others, hpath, huv =>
        rw [join_cons_cons] at huv
        obtain ⟨rfl, rfl⟩ :=
          append_slash_inj (hfirst u hu) (hpath s List.mem_cons_self).1 huv
        exact ⟨u, t, others, rfl, hu, hrest⟩
  · rintro ⟨s, t, others, rfl, hs, ht⟩
    refine ⟨s, hs, slash :: join slash (t :: others), ?_, (join_cons_cons s t others).symm⟩
    exact Rx.cons_mem_cls_mul.mpr ⟨beq_self_eq_true _, ht⟩

theorem PathSegments.tail {s : Str} {rest : List Str} (h : PathSegments (s :: rest)) :
    PathSegments rest := fun segment hmem ↦ h segment (List.mem_cons_of_mem s hmem)

theorem PathSegments.suffix {path rest : List Str} (h : PathSegments path) (hrest : rest <:+ path) :
    PathSegments rest := fun segment hmem ↦ h segment (hrest.subset hmem)

/-- A nonempty run of characters other than the slash. -/
theorem mem_rxNonSlash_mul_rxRun {w : Str} :
    w ∈ rxNonSlash.language * (Rx.star rxNonSlash).language ↔ w ≠ [] ∧ slash ∉ w := by
  cases w with
  | nil => exact iff_of_false Rx.nil_not_mem_cls_mul (fun h ↦ h.1 rfl)
  | cons c cs =>
    rw [rxNonSlash, Rx.cons_mem_cls_mul]
    have hrun : cs ∈ (Rx.star (.cls (· != slash))).language ↔ slash ∉ cs := mem_rxRun
    rw [hrun, List.mem_cons, not_or, bne_iff_ne, ne_comm]
    simp

/-- `(?:[^/]+/)*` in front of an expression drops whole segments. -/
theorem join_mem_directories_mul {rest : Language CodePoint} {path : List Str} (hne : path ≠ [])
    (hpath : PathSegments path) :
    join slash path ∈ rxDirectories.language * rest ↔
      ∃ suffix, suffix <:+ path ∧ suffix ≠ [] ∧ join slash suffix ∈ rest := by
  have hunfold : rxDirectories.language * rest =
      rest + (rxNonSlash.language * (Rx.star rxNonSlash).language) *
        ((Rx.cls (· == slash)).language * (rxDirectories.language * rest)) := by
    have hstar : rxDirectories.language = 1 + rxNonSlash.language *
        (Rx.star rxNonSlash).language * (Rx.cls (· == slash)).language * rxDirectories.language :=
      (Language.one_add_self_mul_kstar_eq_kstar _).symm
    conv_lhs => rw [hstar, add_mul, one_mul]
    simp only [mul_assoc]
  have hfirst : ∀ w ∈ rxNonSlash.language * (Rx.star rxNonSlash).language, slash ∉ w :=
    fun w hw ↦ (mem_rxNonSlash_mul_rxRun.mp hw).2
  induction path with
  | nil => exact absurd rfl hne
  | cons s others ih =>
    rw [hunfold, Language.mem_add, join_mem_mul_slash_mul hfirst hpath]
    constructor
    · rintro (hrest | ⟨s', t, others', heq, hs, ht⟩)
      · exact ⟨s :: others, List.suffix_rfl, hne, hrest⟩
      · obtain ⟨rfl, rfl⟩ := List.cons.inj heq
        obtain ⟨suffix, hsuffix, hsuffixNe, hmem⟩ :=
          (ih (List.cons_ne_nil t others') hpath.tail).mp ht
        exact ⟨suffix, hsuffix.trans (List.suffix_cons s _), hsuffixNe, hmem⟩
    · rintro ⟨suffix, hsuffix, hsuffixNe, hmem⟩
      rcases List.suffix_cons_iff.mp hsuffix with rfl | hsuffix
      · exact .inl hmem
      · cases others with
        | nil => exact absurd (List.suffix_nil.mp hsuffix) hsuffixNe
        | cons t others =>
          refine .inr ⟨s, t, others, rfl, ?_, ?_⟩
          · exact mem_rxNonSlash_mul_rxRun.mpr (hpath s List.mem_cons_self).symm
          · exact (ih (List.cons_ne_nil t others) hpath.tail).mpr
              ⟨suffix, hsuffix, hsuffixNe, hmem⟩

/-- `.*` takes the rest of a path exactly when that holds no newline. -/
theorem join_mem_rxAnything {path : List Str} (hne : path ≠ []) :
    join slash path ∈ rxAnything.language ↔ oneLineSegments path = true := by
  have hslash : slash ≠ newline := by decide
  have hchars : join slash path ∈ rxAnything.language ↔ newline ∉ join slash path := by
    rw [rxAnything, Rx.mem_star_cls]
    constructor
    · intro h hmem
      simpa using h newline hmem
    · intro h c hc
      rw [bne_iff_ne]
      exact fun heq ↦ h (heq ▸ hc)
  have hjoin : ∀ segments : List Str,
      newline ∉ join slash segments ↔ ∀ segment ∈ segments, newline ∉ segment := by
    intro segments
    induction segments with
    | nil => simp [join]
    | cons s rest ih =>
      cases rest with
      | nil => simp [join_singleton]
      | cons t others =>
        rw [join_cons_cons, List.mem_append, List.mem_cons, List.forall_mem_cons, ← ih, not_or,
          not_or]
        exact and_congr_right fun _ ↦ and_iff_right (Ne.symm hslash)
  rw [hchars, hjoin, oneLineSegments]
  simp [hne]

/-! ## The translation meets the segment semantics -/

theorem segmentsMatch_cons {tail : List Str → Bool} {p : Str} {rest path : List Str} :
    segmentsMatch tail (p :: rest) path =
      if p = str "**" then
        if rest.isEmpty then tail path else path.tails.any (segmentsMatch tail rest)
      else match path with
        | [] => false
        | segment :: others => segmentMatches p segment && segmentsMatch tail rest others := by
  cases path <;> rfl

theorem segmentsMatch_nil (tail : List Str → Bool) (path : List Str) :
    segmentsMatch tail [] path = path.isEmpty := rfl

theorem segmentsMatch_cons_nil {tail : List Str → Bool} {p : Str} {rest : List Str}
    (hp : p ≠ str "**") : segmentsMatch tail (p :: rest) [] = false := by
  rw [segmentsMatch_cons, if_neg hp]

theorem segmentsMatch_cons_cons {tail : List Str → Bool} {p segment : Str}
    {rest others : List Str} (hp : p ≠ str "**") :
    segmentsMatch tail (p :: rest) (segment :: others) =
      (segmentMatches p segment && segmentsMatch tail rest others) := by
  rw [segmentsMatch_cons, if_neg hp]

theorem segmentsMatch_last_globstar (tail : List Str → Bool) (path : List Str) :
    segmentsMatch tail [str "**"] path = tail path := rfl

theorem segmentsMatch_globstar_cons {tail : List Str → Bool} {rest path : List Str}
    (hrest : rest ≠ []) :
    segmentsMatch tail (str "**" :: rest) path = true ↔
      ∃ suffix, suffix <:+ path ∧ segmentsMatch tail rest suffix = true := by
  rw [segmentsMatch_cons, if_pos rfl, if_neg (by simpa using hrest), List.any_eq_true]
  simp only [List.mem_tails]

/-- A nonempty pattern does not match the empty path. -/
theorem segmentsMatch_nil_path {tail : List Str → Bool} (htail : tail [] = false)
    {segments : List Str} (hne : segments ≠ []) : segmentsMatch tail segments [] = false := by
  induction segments with
  | nil => exact absurd rfl hne
  | cons p rest ih =>
    by_cases hp : p = str "**"
    · subst hp
      by_cases hrest : rest = []
      · rw [hrest, segmentsMatch_last_globstar, htail]
      · rw [Bool.eq_false_iff, Ne, segmentsMatch_globstar_cons hrest]
        rintro ⟨suffix, hsuffix, hmatch⟩
        rw [List.suffix_nil.mp hsuffix, ih hrest] at hmatch
        exact Bool.false_ne_true hmatch
    · exact segmentsMatch_cons_nil hp

theorem rxAtom_slash : rxAtom slash = .cls (· == slash) := by
  have hslash : slash ≠ questionChar := by decide
  rw [rxAtom, if_neg hslash]

/-- The translation of a last segment other than `**`. -/
theorem language_translate_segment {p : Str} (hp : PatternSegmentOk p) (hne : p ≠ str "**") :
    (Rx.concat (translate p)).language = (segmentRx p).language := by
  by_cases hstar : starChar ∈ p
  · rcases hp.2.2 hstar with rfl | rfl
    · rfl
    · exact absurd rfl hne
  · have hne1 : p ≠ str "*" := by
      rintro rfl
      exact hstar (by decide)
    have htranslate : translate (p ++ []) = p.map rxAtom ++ translate [] :=
      translate_append_of_no_star hstar
    rw [List.append_nil, translate, List.append_nil] at htranslate
    rw [htranslate, segmentRx, if_neg hne1]

/-- The translation of a segment other than `**`, the slash after it, and the rest. -/
theorem language_translate_append {p rest : Str} (hp : PatternSegmentOk p)
    (hne : p ≠ str "**") :
    (Rx.concat (translate (p ++ slash :: rest))).language =
      (segmentRx p).language *
        ((Rx.cls (· == slash)).language * (Rx.concat (translate rest)).language) := by
  have hslash : slash ≠ starChar := by decide
  by_cases hstar : starChar ∈ p
  · rcases hp.2.2 hstar with rfl | rfl
    · rw [translate_star_slash, Rx.language_concat_cons, Rx.language_concat_cons, rxAtom_slash,
        segmentRx, if_pos rfl, Rx.language_concat_cons, Rx.language_concat_nil, mul_one]
    · exact absurd rfl hne
  · have hne1 : p ≠ str "*" := by
      rintro rfl
      exact hstar (by decide)
    rw [translate_append_of_no_star hstar, translate_cons_of_ne hslash, Rx.language_concat_append,
      Rx.language_concat_cons, rxAtom_slash, segmentRx, if_neg hne1]

/-- By induction on the pattern segments: on the segments of a normalised path the translated
pattern matches what `segmentsMatch` says with newline-free final tails. -/
theorem join_mem_translate {segments path : List Str} (hne : segments ≠ [])
    (hfree : ∀ p ∈ segments, slash ∉ p) (hvalid : ∀ p ∈ segments, PatternSegmentOk p)
    (hpathNe : path ≠ []) (hpath : PathSegments path) :
    join slash path ∈ (Rx.concat (translate (join slash segments))).language ↔
      segmentsMatch oneLineSegments segments path = true := by
  have htail : oneLineSegments [] = false := rfl
  induction segments generalizing path with
  | nil => exact absurd rfl hne
  | cons p rest ih =>
    have hp : PatternSegmentOk p := hvalid p List.mem_cons_self
    have hpfree : slash ∉ p := hfree p List.mem_cons_self
    cases rest with
    | nil =>
      rw [join_singleton]
      by_cases hglob : p = str "**"
      · rw [hglob, translate_globstar, Rx.language_concat_cons, Rx.language_concat_nil, mul_one,
          segmentsMatch_last_globstar]
        exact join_mem_rxAnything hpathNe
      · rw [language_translate_segment hp hglob]
        match path, hpathNe with
        | [s], _ =>
          rw [join_singleton, segmentsMatch_cons_cons hglob, segmentsMatch_nil, List.isEmpty_nil,
            Bool.and_true]
          exact mem_segmentRx (hpath s List.mem_cons_self).1
        | s :: t :: others, _ =>
          rw [segmentsMatch_cons_cons hglob, segmentsMatch_nil, List.isEmpty_cons, Bool.and_false]
          refine iff_of_false (fun hmem ↦ ?_) Bool.false_ne_true
          have hnot := slash_not_mem_of_mem_segmentRx hpfree hmem
          rw [join_cons_cons] at hnot
          exact hnot (List.mem_append_right s List.mem_cons_self)
    | cons q ps =>
      have hrest : q :: ps ≠ [] := List.cons_ne_nil q ps
      have ih' : ∀ path : List Str, path ≠ [] → PathSegments path →
          (join slash path ∈ (Rx.concat (translate (join slash (q :: ps)))).language ↔
            segmentsMatch oneLineSegments (q :: ps) path = true) := fun path hne' hpath' ↦
        ih hrest (fun r hr ↦ hfree r (List.mem_cons_of_mem p hr))
          (fun r hr ↦ hvalid r (List.mem_cons_of_mem p hr)) hne' hpath'
      rw [join_cons_cons]
      by_cases hglob : p = str "**"
      · rw [hglob, translate_globstar_slash, Rx.language_concat_cons,
          segmentsMatch_globstar_cons hrest, join_mem_directories_mul hpathNe hpath]
        constructor
        · rintro ⟨suffix, hsuffix, hsuffixNe, hmem⟩
          exact ⟨suffix, hsuffix, (ih' suffix hsuffixNe (hpath.suffix hsuffix)).mp hmem⟩
        · rintro ⟨suffix, hsuffix, hmatch⟩
          have hsuffixNe : suffix ≠ [] := by
            rintro rfl
            rw [segmentsMatch_nil_path htail hrest] at hmatch
            exact Bool.false_ne_true hmatch
          exact ⟨suffix, hsuffix, hsuffixNe,
            (ih' suffix hsuffixNe (hpath.suffix hsuffix)).mpr hmatch⟩
      · rw [language_translate_append hp hglob, join_mem_mul_slash_mul
          (fun w hw ↦ slash_not_mem_of_mem_segmentRx hpfree hw) hpath]
        match path, hpathNe with
        | [s], _ =>
          rw [segmentsMatch_cons_cons hglob, segmentsMatch_nil_path htail hrest, Bool.and_false]
          refine iff_of_false ?_ Bool.false_ne_true
          rintro ⟨s', t, others, heq, _⟩
          exact List.cons_ne_nil t others (List.cons.inj heq).2.symm
        | s :: t :: others, _ =>
          rw [segmentsMatch_cons_cons hglob, Bool.and_eq_true,
            ← mem_segmentRx (hpath s List.mem_cons_self).1,
            ← ih' (t :: others) (List.cons_ne_nil t others) hpath.tail]
          constructor
          · rintro ⟨s', t', others', heq, hs, ht⟩
            obtain ⟨rfl, hothers⟩ := List.cons.inj heq
            rw [hothers]
            exact ⟨hs, ht⟩
          · rintro ⟨hs, ht⟩
            exact ⟨s, t, others, rfl, hs, ht⟩

/-- The matcher is the segment semantics with a final `**` that takes no newline. -/
theorem matchesPattern_eq_oneLine {key pattern raw path : Str}
    (hpattern : validatePattern key pattern = .ok ()) (hpath : normalise raw = .ok path) :
    matchesPattern pattern path = globMatchesOneLine pattern path := by
  have hvalid : ∀ p ∈ split slash pattern, PatternSegmentOk p :=
    validatePattern_eq_ok.mp hpattern
  have hsegments : PathSegments (split slash path) := fun segment hmem ↦
    ⟨not_mem_of_mem_split hmem, segment_ne_nil hpath hmem⟩
  have hmain := join_mem_translate (split_ne_nil slash pattern)
    (fun p hp ↦ not_mem_of_mem_split hp) hvalid (split_ne_nil slash path) hsegments
  rw [join_split, join_split] at hmain
  rw [Bool.eq_iff_iff, matchesPattern, Rx.accepts_iff, compiled, hmain, globMatchesOneLine]

/-- A pattern without stars matches character by character. -/
theorem matchesPattern_of_no_star {pattern path : Str} (hstar : starChar ∉ pattern) :
    matchesPattern pattern path = true ↔
      (pattern.length == path.length && (pattern.zip path).all fun pair ↦
        charMatches pair.1 pair.2) = true := by
  have htranslate : translate (pattern ++ []) = pattern.map rxAtom ++ translate [] :=
    translate_append_of_no_star hstar
  rw [List.append_nil, translate, List.append_nil] at htranslate
  rw [matchesPattern, Rx.accepts_iff, compiled, htranslate, mem_concat_atoms]

/-- Fewer final tails, fewer matches. -/
theorem segmentsMatch_mono {tail tail' : List Str → Bool} {segments path : List Str}
    (himp : ∀ rest, rest <:+ path → tail rest = true → tail' rest = true)
    (h : segmentsMatch tail segments path = true) : segmentsMatch tail' segments path = true := by
  induction segments generalizing path with
  | nil => exact h
  | cons p rest ih =>
    by_cases hp : p = str "**"
    · subst hp
      by_cases hrest : rest = []
      · subst hrest
        rw [segmentsMatch_last_globstar] at h ⊢
        exact himp path List.suffix_rfl h
      · rw [segmentsMatch_globstar_cons hrest] at h ⊢
        obtain ⟨suffix, hsuffix, hmatch⟩ := h
        exact ⟨suffix, hsuffix, ih (fun r hr ↦ himp r (hr.trans hsuffix)) hmatch⟩
    · cases path with
      | nil =>
        rw [segmentsMatch_cons_nil hp] at h
        exact absurd h Bool.false_ne_true
      | cons s others =>
        rw [segmentsMatch_cons_cons hp, Bool.and_eq_true] at h ⊢
        exact ⟨h.1, ih (fun r hr ↦ himp r (hr.trans (List.suffix_cons s others))) h.2⟩

theorem globMatches_of_oneLine {pattern path : Str} (h : globMatchesOneLine pattern path = true) :
    globMatches pattern path = true := by
  refine segmentsMatch_mono (fun rest _ hrest ↦ ?_) h
  rw [oneLineSegments, Bool.and_eq_true] at hrest
  exact hrest.1

/-- On a path without a newline the two semantics agree. -/
theorem globMatchesOneLine_of_no_newline {pattern path : Str} (hline : newline ∉ path)
    (h : globMatches pattern path = true) : globMatchesOneLine pattern path = true := by
  refine segmentsMatch_mono (fun rest hsuffix hrest ↦ ?_) h
  rw [oneLineSegments, Bool.and_eq_true]
  refine ⟨hrest, List.all_eq_true.mpr fun segment hmem ↦ ?_⟩
  have hsegment : newline ∉ segment := fun hnewline ↦
    hline (mem_of_mem_split (hsuffix.subset hmem) hnewline)
  simpa using hsegment

/-- `matches` agrees with the documented semantics exactly where a path that matches it also
matches with a final `**` that takes no newline. -/
theorem matchesPattern_eq_globMatches_iff {key pattern raw path : Str}
    (hpattern : validatePattern key pattern = .ok ()) (hpath : normalise raw = .ok path) :
    matchesPattern pattern path = globMatches pattern path ↔
      (globMatches pattern path = true → globMatchesOneLine pattern path = true) := by
  rw [matchesPattern_eq_oneLine hpattern hpath, Bool.eq_iff_iff]
  exact ⟨fun h ↦ h.mpr, fun h ↦ ⟨globMatches_of_oneLine, h⟩⟩

theorem matchesPattern_eq_globMatches_iff_directory :
    matchesPattern (str "dev/**") (str "dev/a\n/b") = globMatches (str "dev/**") (str "dev/a\n/b") ↔
      (globMatches (str "dev/**") (str "dev/a\n/b") = true →
        globMatchesOneLine (str "dev/**") (str "dev/a\n/b") = true) :=
  matchesPattern_eq_globMatches_iff
    (show validatePattern (str "read") (str "dev/**") = .ok () by decide +kernel)
    (show normalise (str " dev/a\n/b/") = .ok (str "dev/a\n/b") by decide +kernel)

/-- `dev/**` does not cover a file of `dev` whose name holds a newline. -/
theorem matchesPattern_newline :
    validatePattern (str "deny") (str "dev/**") = .ok () ∧
      normalise (str "dev/a\nb") = .ok (str "dev/a\nb") ∧
      globMatches (str "dev/**") (str "dev/a\nb") = true ∧
      matchesPattern (str "dev/**") (str "dev/a\nb") = false := by
  decide +kernel

end DatumSync.Vault
