import DatumSync.Vault.Canonical
import DatumSync.Vault.Pattern

/-!
# Patterns below a directory

The segments of a directory use up some of a pattern, and what is left has to be filled with
segments a vault path can have, within the length that paths are allowed.
-/

namespace DatumSync.Vault

open Python

/-! ## Filling the rest of a pattern -/

/-- A text without the characters that no vault path has. -/
def PathText (s : Str) : Prop := 0 ∉ s ∧ cp '\\' ∉ s

instance (s : Str) : Decidable (PathText s) := inferInstanceAs (Decidable (_ ∧ _))

/-- A pattern segment that some path segment matches. -/
def Fillable (p : Str) : Prop := p ≠ [] ∧ PathText p

instance (p : Str) : Decidable (Fillable p) := inferInstanceAs (Decidable (_ ∧ _))

/-- What segments take of the length of a path, each with the slash before it. -/
def taken : List Str → ℕ
  | [] => 0
  | s :: rest => 1 + (if rest.isEmpty then spelledLength s else s.length) + taken rest

/-- The least that segments matching a pattern take. -/
def needed : List Str → ℕ
  | [] => 0
  | p :: rest =>
    if p = str "**" then if rest.isEmpty then 2 else needed rest
    else 1 + (if rest.isEmpty then spelledLength p else p.length) + needed rest

/-- There are path segments that the pattern segments match, and they take no more than the
room. -/
def fits (room : ℕ) (pattern : List Str) : Bool :=
  decide ((∀ p ∈ pattern, Fillable p) ∧ needed pattern ≤ room)

/-- Segments that may follow a directory when the room is left. -/
structure Continues (room : ℕ) (path : List Str) : Prop where
  nonempty : path ≠ []
  segments : ∀ s ∈ path, SegmentOk s ∧ slash ∉ s ∧ PathText s
  short : taken path ≤ room

/-- One character in place of a wildcard. -/
def fillChar (c : CodePoint) : CodePoint := if c = questionChar ∨ c = starChar then cp 'a' else c

/-- The shortest segments that a pattern matches. -/
def fill : List Str → List Str
  | [] => []
  | p :: rest =>
    if p = str "**" then if rest.isEmpty then [str "a"] else fill rest
    else p.map fillChar :: fill rest

theorem taken_cons (s : Str) (rest : List Str) :
    taken (s :: rest) = 1 + (if rest.isEmpty then spelledLength s else s.length) + taken rest := rfl

theorem needed_cons (p : Str) (rest : List Str) :
    needed (p :: rest) =
      if p = str "**" then if rest.isEmpty then 2 else needed rest
      else 1 + (if rest.isEmpty then spelledLength p else p.length) + needed rest := rfl

theorem fill_cons (p : Str) (rest : List Str) :
    fill (p :: rest) =
      if p = str "**" then if rest.isEmpty then [str "a"] else fill rest
      else p.map fillChar :: fill rest := rfl

theorem segmentMatches_iff {p s : Str} (hp : p ≠ str "*") :
    segmentMatches p s = true ↔ List.Forall₂ (fun a b ↦ charMatches a b = true) p s := by
  rw [segmentMatches, if_neg hp, List.forall₂_iff_zip, Bool.and_eq_true, beq_iff_eq,
    List.all_eq_true]
  exact and_congr_right fun _ ↦ ⟨fun h _ _ hmem ↦ h _ hmem, fun h pair hmem ↦ h hmem⟩

theorem charMatches_fillChar {c : CodePoint} (hc : c ≠ starChar) :
    charMatches c (fillChar c) = true := by
  unfold charMatches fillChar
  by_cases h : c = questionChar
  · rw [if_pos h, if_pos (.inl h)]
    rfl
  · rw [if_neg h, if_neg (not_or.mpr ⟨h, hc⟩)]
    exact beq_self_eq_true c

theorem segmentMatches_fill {p : Str} (hp : PatternSegmentOk p) (hglob : p ≠ str "**") :
    segmentMatches p (p.map fillChar) = true := by
  by_cases hstar : p = str "*"
  · rw [segmentMatches, if_pos hstar]
  · have hfree : starChar ∉ p := fun hmem ↦ (hp.2.2 hmem).elim hstar hglob
    rw [segmentMatches_iff hstar, List.forall₂_map_right_iff, List.forall₂_same]
    exact fun c hc ↦ charMatches_fillChar fun heq ↦ hfree (heq ▸ hc)

theorem isSpace_fillChar (c : CodePoint) : isSpace (fillChar c) = isSpace c := by
  unfold fillChar
  split_ifs with h
  · rcases h with rfl | rfl
    · rfl
    · rfl
  · rfl

theorem spelledLength_fill (p : Str) : spelledLength (p.map fillChar) = spelledLength p := by
  rw [spelledLength, spelledLength, List.length_map, endsWithSpace, endsWithSpace,
    List.getLast?_map]
  cases p.getLast? with
  | none => rfl
  | some c => rw [Option.map_some, Option.any_some, Option.any_some, isSpace_fillChar]

theorem fill_eq_nil {pattern : List Str} : fill pattern = [] ↔ pattern = [] := by
  induction pattern with
  | nil => exact iff_of_true rfl rfl
  | cons p rest ih =>
    refine iff_of_false ?_ (List.cons_ne_nil p rest)
    rw [fill_cons]
    split_ifs with hglob hrest
    · exact not_false
    · exact fun h ↦ hrest (List.isEmpty_iff.mpr (ih.mp h))
    · exact not_false

theorem taken_fill (pattern : List Str) : taken (fill pattern) = needed pattern := by
  induction pattern with
  | nil => rfl
  | cons p rest ih =>
    rw [fill_cons, needed_cons]
    split_ifs with hglob hrest hrest
    · rfl
    · exact ih
    · rw [taken_cons, ih, List.isEmpty_iff.mp hrest, spelledLength_fill]
      rfl
    · have hfill : (fill rest).isEmpty = false := by
        rw [List.isEmpty_eq_false_iff, Ne, fill_eq_nil]
        simpa using hrest
      rw [taken_cons, ih, hfill, if_neg Bool.false_ne_true, List.length_map]

theorem fillChar_ne_dot {c : CodePoint} (h : c ≠ cp '.') : fillChar c ≠ cp '.' := by
  unfold fillChar
  split_ifs
  · decide
  · exact h

/-- No filled segment is one of the refused names, since no pattern segment is. -/
theorem fill_ne_dots {p : Str} {n : ℕ} (h : p ≠ List.replicate n (cp '.')) :
    p.map fillChar ≠ List.replicate n (cp '.') := by
  intro heq
  refine h (List.eq_replicate_iff.mpr ⟨?_, fun c hc ↦ ?_⟩)
  · rw [← List.length_map fillChar, heq, List.length_replicate]
  · by_contra hne
    have hmem := List.mem_map_of_mem (f := fillChar) hc
    rw [heq] at hmem
    exact fillChar_ne_dot hne (List.eq_of_mem_replicate hmem)

theorem not_mem_fill {p : Str} {c : CodePoint} (hc : c ≠ cp 'a') (h : c ∉ p) :
    c ∉ p.map fillChar := by
  rw [List.mem_map]
  rintro ⟨d, hd, heq⟩
  unfold fillChar at heq
  split_ifs at heq
  · exact hc heq.symm
  · exact h (heq ▸ hd)

/-- The filled segments are segments of a path. -/
theorem fill_segments {pattern : List Str}
    (hvalid : ∀ p ∈ pattern, PatternSegmentOk p ∧ slash ∉ p)
    (hfillable : ∀ p ∈ pattern, Fillable p) :
    ∀ s ∈ fill pattern, SegmentOk s ∧ slash ∉ s ∧ PathText s := by
  induction pattern with
  | nil => exact fun s hs ↦ absurd hs List.not_mem_nil
  | cons p rest ih =>
    rw [List.forall_mem_cons] at hvalid hfillable
    have hrest := ih hvalid.2 hfillable.2
    rw [fill_cons]
    split_ifs
    · rw [List.forall_mem_singleton]
      exact ⟨⟨by decide, by decide, by decide⟩, by decide, by decide⟩
    · exact hrest
    · rw [List.forall_mem_cons]
      refine ⟨⟨⟨fill_ne_dots (n := 2) hvalid.1.1.1, fill_ne_dots (n := 1) hvalid.1.1.2.1, ?_⟩,
        not_mem_fill (by decide) hvalid.1.2, not_mem_fill (by decide) hfillable.1.2.1,
        not_mem_fill (by decide) hfillable.1.2.2⟩, hrest⟩
      simpa using hfillable.1.1

theorem segmentsMatch_fill {pattern : List Str}
    (hvalid : ∀ p ∈ pattern, PatternSegmentOk p ∧ slash ∉ p) :
    segmentsMatch oneLineSegments pattern (fill pattern) = true := by
  induction pattern with
  | nil => rfl
  | cons p rest ih =>
    rw [List.forall_mem_cons] at hvalid
    have hrest := ih hvalid.2
    rw [fill_cons]
    split_ifs with hglob hlast
    · rw [hglob, List.isEmpty_iff.mp hlast]
      rfl
    · rw [hglob, segmentsMatch_globstar_cons (by simpa using hlast)]
      exact ⟨fill rest, List.suffix_rfl, hrest⟩
    · rw [segmentsMatch_cons_cons hglob, segmentMatches_fill hvalid.1.1 hglob, hrest]
      rfl

/-! ## What a match takes -/

theorem endsWithSpace_of_forall₂ {p s : Str}
    (h : List.Forall₂ (fun a b ↦ charMatches a b = true) p s) (hp : endsWithSpace p = true) :
    endsWithSpace s = true := by
  induction h with
  | nil => exact hp
  | @cons a b p' s' hab hrest ih =>
    cases hrest with
    | nil =>
      have ha : isSpace a = true := hp
      have hne : a ≠ questionChar := by
        rintro rfl
        exact absurd ha (by decide)
      rw [charMatches, if_neg hne] at hab
      rw [eq_of_beq hab]
      exact hp
    | cons hcd hmore =>
      rw [endsWithSpace, List.getLast?_cons_cons] at hp ⊢
      exact ih hp

theorem length_le_of_segmentMatches {p s : Str} (hs : s ≠ [])
    (h : segmentMatches p s = true) : p.length ≤ s.length := by
  by_cases hstar : p = str "*"
  · rw [hstar]
    exact List.length_pos_of_ne_nil hs
  · exact ((segmentMatches_iff hstar).mp h).length_eq.le

theorem spelledLength_le_of_segmentMatches {p s : Str} (hs : s ≠ [])
    (h : segmentMatches p s = true) : spelledLength p ≤ spelledLength s := by
  have hlength := length_le_of_segmentMatches hs h
  unfold spelledLength
  by_cases hspace : endsWithSpace p = true
  · have hstar : p ≠ str "*" := by
      rintro rfl
      exact absurd hspace (by decide)
    rw [if_pos hspace, if_pos (endsWithSpace_of_forall₂ ((segmentMatches_iff hstar).mp h) hspace)]
    exact Nat.add_le_add_right hlength 1
  · rw [if_neg hspace]
    exact le_trans hlength (Nat.le_add_right _ _)

theorem mem_of_forall₂ {p s : Str} {c : CodePoint}
    (h : List.Forall₂ (fun a b ↦ charMatches a b = true) p s) (hc : c ∈ p)
    (hne : c ≠ questionChar) : c ∈ s := by
  induction h with
  | nil => exact hc
  | @cons a b p' s' hab hrest ih =>
    rcases List.mem_cons.mp hc with rfl | hmem
    · rw [charMatches, if_neg hne] at hab
      rw [eq_of_beq hab]
      exact List.mem_cons_self
    · exact List.mem_cons_of_mem b (ih hmem)

/-- A pattern segment that a path segment matches can be filled. -/
theorem fillable_of_segmentMatches {p s : Str} (hs : s ≠ []) (htext : PathText s)
    (h : segmentMatches p s = true) : Fillable p := by
  by_cases hstar : p = str "*"
  · rw [hstar]
    decide
  · have hall := (segmentMatches_iff hstar).mp h
    refine ⟨?_, fun hmem ↦ htext.1 (mem_of_forall₂ hall hmem (by decide)),
      fun hmem ↦ htext.2 (mem_of_forall₂ hall hmem (by decide))⟩
    rintro rfl
    exact hs (List.forall₂_nil_left_iff.mp hall)

theorem length_le_spelledLength (s : Str) : s.length ≤ spelledLength s := Nat.le_add_right _ _

theorem length_lt_taken (s : Str) (rest : List Str) : s.length < taken (s :: rest) := by
  have h := length_le_spelledLength s
  rw [taken_cons]
  split_ifs
  · omega
  · omega

theorem taken_suffix {path suffix : List Str} (h : suffix <:+ path) :
    taken suffix ≤ taken path := by
  induction path with
  | nil => rw [List.suffix_nil.mp h]
  | cons s rest ih =>
    rcases List.suffix_cons_iff.mp h with rfl | h
    · exact le_rfl
    · exact (ih h).trans (Nat.le_add_left _ _)

/-- Only patterns that can be filled match, and what they match takes no less than they need. -/
theorem needed_le_taken {pattern path : List Str}
    (hsegments : ∀ s ∈ path, SegmentOk s ∧ slash ∉ s ∧ PathText s)
    (h : segmentsMatch oneLineSegments pattern path = true) :
    (∀ p ∈ pattern, Fillable p) ∧ needed pattern ≤ taken path := by
  induction pattern generalizing path with
  | nil => exact ⟨fun p hp ↦ absurd hp List.not_mem_nil, Nat.zero_le _⟩
  | cons p rest ih =>
    rw [List.forall_mem_cons, needed_cons]
    by_cases hglob : p = str "**"
    · rw [if_pos hglob]
      rw [hglob] at h ⊢
      have hfillable : Fillable (str "**") := by decide
      by_cases hlast : rest = []
      · subst hlast
        rw [segmentsMatch_last_globstar, oneLineSegments, Bool.and_eq_true] at h
        obtain ⟨s, others, rfl⟩ := List.exists_cons_of_ne_nil (l := path) (by simpa using h.1)
        have hlength := List.length_pos_of_ne_nil (hsegments s List.mem_cons_self).1.2.2
        have htaken := length_lt_taken s others
        refine ⟨⟨hfillable, fun q hq ↦ absurd hq List.not_mem_nil⟩, ?_⟩
        rw [List.isEmpty_nil, if_pos rfl]
        omega
      · rw [if_neg (by simpa using hlast)]
        obtain ⟨suffix, hsuffix, hmatch⟩ := (segmentsMatch_globstar_cons hlast).mp h
        have hrest := ih (fun s hs ↦ hsegments s (hsuffix.subset hs)) hmatch
        exact ⟨⟨hfillable, hrest.1⟩, hrest.2.trans (taken_suffix hsuffix)⟩
    · rw [if_neg hglob]
      cases path with
      | nil =>
        rw [segmentsMatch_cons_nil hglob] at h
        cases h
      | cons s others =>
        rw [segmentsMatch_cons_cons hglob, Bool.and_eq_true] at h
        rw [List.forall_mem_cons] at hsegments
        have hne : s ≠ [] := hsegments.1.1.2.2
        have hrest := ih hsegments.2 h.2
        refine ⟨⟨fillable_of_segmentMatches hne hsegments.1.2.2 h.1, hrest.1⟩, ?_⟩
        have hspelled := spelledLength_le_of_segmentMatches hne h.1
        have hlength := length_le_of_segmentMatches hne h.1
        have hle := length_le_spelledLength s
        have htaken := hrest.2
        rw [taken_cons]
        by_cases hlast : rest = []
        · subst hlast
          rw [segmentsMatch_nil] at h
          rw [h.2, List.isEmpty_nil, if_pos rfl, if_pos rfl]
          omega
        · rw [if_neg (by simpa using hlast)]
          split_ifs
          · omega
          · omega

/-- A pattern that fits matches some segments that the room is enough for, and no other does. -/
theorem fits_iff {room : ℕ} {pattern : List Str} (hne : pattern ≠ [])
    (hvalid : ∀ p ∈ pattern, PatternSegmentOk p ∧ slash ∉ p) :
    fits room pattern = true ↔
      ∃ path, Continues room path ∧ segmentsMatch oneLineSegments pattern path = true := by
  rw [fits, decide_eq_true_eq]
  constructor
  · rintro ⟨hfillable, hroom⟩
    refine ⟨fill pattern, ⟨fun hnil ↦ hne (fill_eq_nil.mp hnil), fill_segments hvalid hfillable,
      ?_⟩, segmentsMatch_fill hvalid⟩
    rw [taken_fill]
    exact hroom
  · rintro ⟨path, hpath, hmatch⟩
    have hneeded := needed_le_taken hpath.segments hmatch
    exact ⟨hneeded.1, hneeded.2.trans hpath.short⟩

/-! ## Patterns and directories -/

/-- A pattern matches something below a directory: its segments are used up along those of the
directory, `**` taking any number of them, and what is left fits into the room. -/
def reaches (room : ℕ) : List Str → List Str → Bool
  | [], _ => false
  | p :: rest, dir =>
    if p = str "**" then
      if rest.isEmpty then (dir.all fun s ↦ !s.contains newline) && fits room [p]
      else dir.tails.any (reaches room rest)
    else match dir with
      | [] => fits room (p :: rest)
      | s :: others => segmentMatches p s && reaches room rest others

theorem Continues.of_suffix {room : ℕ} {path suffix : List Str} (h : Continues room path)
    (hsuffix : suffix <:+ path) (hne : suffix ≠ []) : Continues room suffix where
  nonempty := hne
  segments := fun s hs ↦ h.segments s (hsuffix.subset hs)
  short := (taken_suffix hsuffix).trans h.short

theorem reaches_cons (room : ℕ) (p : Str) (rest dir : List Str) :
    reaches room (p :: rest) dir =
      if p = str "**" then
        if rest.isEmpty then (dir.all fun s ↦ !s.contains newline) && fits room [p]
        else dir.tails.any (reaches room rest)
      else match dir with
        | [] => fits room (p :: rest)
        | s :: others => segmentMatches p s && reaches room rest others := by
  cases dir <;> rfl

theorem oneLineSegments_append {dir path : List Str} (hne : path ≠ []) :
    oneLineSegments (dir ++ path) =
      ((dir.all fun s ↦ !s.contains newline) && oneLineSegments path) := by
  have hempty : (dir ++ path).isEmpty = false := by simp [hne]
  have hpath : path.isEmpty = false := by simp [hne]
  rw [oneLineSegments, oneLineSegments, hempty, hpath, List.all_append]
  rfl

/-- A part of a directory and its continuation that `**` leaves either begins in the directory or
is a continuation itself. -/
theorem suffix_append_cases {dir path suffix : List Str} (h : suffix <:+ dir ++ path) :
    suffix <:+ path ∨ ∃ rest, rest <:+ dir ∧ suffix = rest ++ path := by
  rcases List.suffix_or_suffix_of_suffix h (List.suffix_append dir path) with hsuffix | hpath
  · exact .inl hsuffix
  · obtain ⟨rest, rfl⟩ := hpath
    obtain ⟨front, hfront⟩ := h
    rw [← List.append_assoc, List.append_cancel_right_eq] at hfront
    exact .inr ⟨rest, ⟨front, hfront⟩, rfl⟩

/-- By induction on the pattern. -/
theorem reaches_iff {room : ℕ} {pattern dir : List Str}
    (hvalid : ∀ p ∈ pattern, PatternSegmentOk p ∧ slash ∉ p) :
    reaches room pattern dir = true ↔
      ∃ path, Continues room path ∧ segmentsMatch oneLineSegments pattern (dir ++ path) = true := by
  induction pattern generalizing dir with
  | nil =>
    refine iff_of_false Bool.false_ne_true ?_
    rintro ⟨path, hpath, hmatch⟩
    rw [segmentsMatch_nil, List.isEmpty_iff] at hmatch
    exact hpath.nonempty (List.append_eq_nil_iff.mp hmatch).2
  | cons p rest ih =>
    have hrest := fun q hq ↦ hvalid q (List.mem_cons_of_mem p hq)
    rw [reaches_cons]
    by_cases hglob : p = str "**"
    · rw [if_pos hglob]
      by_cases hlast : rest = []
      · subst hlast
        rw [List.isEmpty_nil, if_pos rfl, Bool.and_eq_true,
          fits_iff (List.cons_ne_nil p []) hvalid, hglob]
        simp only [segmentsMatch_last_globstar]
        constructor
        · rintro ⟨hdir, path, hpath, hmatch⟩
          exact ⟨path, hpath, by rw [oneLineSegments_append hpath.nonempty, hdir, hmatch]; rfl⟩
        · rintro ⟨path, hpath, hmatch⟩
          rw [oneLineSegments_append hpath.nonempty, Bool.and_eq_true] at hmatch
          exact ⟨hmatch.1, path, hpath, hmatch.2⟩
      · rw [if_neg (by simpa using hlast), List.any_eq_true, hglob]
        simp only [segmentsMatch_globstar_cons hlast, List.mem_tails, ih hrest]
        constructor
        · rintro ⟨tail, htail, path, hpath, hmatch⟩
          obtain ⟨front, rfl⟩ := htail
          exact ⟨path, hpath, tail ++ path, ⟨front, (List.append_assoc _ _ _).symm⟩, hmatch⟩
        · rintro ⟨path, hpath, suffix, hsuffix, hmatch⟩
          rcases suffix_append_cases hsuffix with hsuffix | ⟨tail, htail, rfl⟩
          · have hne : suffix ≠ [] := by
              rintro rfl
              rw [segmentsMatch_nil_path rfl hlast] at hmatch
              cases hmatch
            exact ⟨[], List.nil_suffix, suffix, hpath.of_suffix hsuffix hne, hmatch⟩
          · exact ⟨tail, htail, path, hpath, hmatch⟩
    · rw [if_neg hglob]
      cases dir with
      | nil => exact fits_iff (List.cons_ne_nil p rest) hvalid
      | cons s others =>
        simp only [List.cons_append, segmentsMatch_cons_cons hglob, Bool.and_eq_true, ih hrest]
        exact ⟨fun ⟨hs, path, hpath, hmatch⟩ ↦ ⟨path, hpath, hs, hmatch⟩,
          fun ⟨path, hpath, hs, hmatch⟩ ↦ ⟨hs, path, hpath, hmatch⟩⟩

/-! ## Dead ends -/

/-- What is left of a pattern when its segments are laid along those of a directory, for each way to
do so. -/
def remainders : List Str → List Str → List (List Str)
  | [], _ => []
  | p :: rest, dir =>
    if p = str "**" then
      if rest.isEmpty then if dir.all fun s ↦ !s.contains newline then [[p]] else []
      else dir.tails.flatMap (remainders rest)
    else match dir with
      | [] => [p :: rest]
      | s :: others => if segmentMatches p s then remainders rest others else []

/-- The segments of a pattern before its first `**`. -/
def beforeGlob (pattern : List Str) : List Str := pattern.takeWhile (· != str "**")

/-- Why a pattern matches nothing below a directory. -/
inductive DeadEnd (room : ℕ) (dir pattern : List Str) : Prop where
  /-- It ends at the directory or above it. -/
  | short (hglob : str "**" ∉ pattern) (h : pattern.length ≤ dir.length)
  /-- A segment before its first `**` does not match the one of the directory. -/
  | mismatch (p s : Str) (hmem : (p, s) ∈ (beforeGlob pattern).zip dir)
      (h : segmentMatches p s = false)
  /-- Its `**`, at the end, has to take a segment with a newline. -/
  | newline (s : Str) (hlast : pattern = beforeGlob pattern ++ [str "**"])
      (hmem : s ∈ dir.drop (beforeGlob pattern).length) (h : newline ∈ s)
  /-- One of its segments is empty, or has a character that no vault path has. -/
  | unfillable (p : Str) (hmem : p ∈ pattern) (h : ¬ Fillable p)
  /-- It goes on below the directory, but only with paths that are too long. -/
  | long (hne : remainders pattern dir ≠ [])
      (h : ∀ rest ∈ remainders pattern dir, room < needed rest)

theorem remainders_cons (p : Str) (rest dir : List Str) :
    remainders (p :: rest) dir =
      if p = str "**" then
        if rest.isEmpty then if dir.all fun s ↦ !s.contains newline then [[p]] else []
        else dir.tails.flatMap (remainders rest)
      else match dir with
        | [] => [p :: rest]
        | s :: others => if segmentMatches p s then remainders rest others else [] := by
  cases dir <;> rfl

theorem reaches_eq_any (room : ℕ) (pattern dir : List Str) :
    reaches room pattern dir = (remainders pattern dir).any (fits room) := by
  induction pattern generalizing dir with
  | nil => rfl
  | cons p rest ih =>
    rw [reaches_cons, remainders_cons]
    split_ifs with hglob hlast hline
    · rw [hline, Bool.true_and, List.any_cons, List.any_nil, Bool.or_false]
    · rw [Bool.not_eq_true] at hline
      rw [hline, Bool.false_and, List.any_nil]
    · rw [List.any_flatMap]
      exact congrArg _ (funext fun tail ↦ ih tail)
    · cases dir with
      | nil => exact (Bool.or_false _).symm
      | cons s others =>
        dsimp only
        cases segmentMatches p s with
        | false => rfl
        | true => exact ih others

/-- What is left of a pattern can be filled when the pattern can: the segments of a path have filled
the others. -/
theorem fillable_remainder {pattern dir rest : List Str} (hdir : ∀ s ∈ dir, s ≠ [] ∧ PathText s)
    (h : rest ∈ remainders pattern dir) :
    (∀ p ∈ rest, Fillable p) ↔ ∀ p ∈ pattern, Fillable p := by
  induction pattern generalizing dir with
  | nil => cases h
  | cons p others ih =>
    rw [remainders_cons] at h
    rw [List.forall_mem_cons]
    split_ifs at h with hglob hlast hline
    · rw [List.mem_singleton.mp h, List.isEmpty_iff.mp hlast, List.forall_mem_singleton]
      exact (and_iff_left (List.forall_mem_nil _)).symm
    · cases h
    · obtain ⟨tail, htail, h⟩ := List.mem_flatMap.mp h
      have hsuffix := ((List.mem_tails _ _).mp htail).subset
      rw [ih (fun s hs ↦ hdir s (hsuffix hs)) h]
      exact (and_iff_right (hglob ▸ (by decide : Fillable (str "**")))).symm
    · cases dir with
      | nil => rw [List.mem_singleton.mp h, List.forall_mem_cons]
      | cons s more =>
        dsimp only at h
        split_ifs at h with hmatch
        · rw [List.forall_mem_cons] at hdir
          rw [ih hdir.2 h]
          exact (and_iff_right (fillable_of_segmentMatches hdir.1.1 hdir.1.2 hmatch)).symm
        · cases h

theorem beforeGlob_globstar (rest : List Str) : beforeGlob (str "**" :: rest) = [] := rfl

theorem beforeGlob_cons {p : Str} (hglob : p ≠ str "**") (rest : List Str) :
    beforeGlob (p :: rest) = p :: beforeGlob rest :=
  List.takeWhile_cons_of_pos (bne_iff_ne.mpr hglob)

/-- With nothing left of the directory all of a pattern is left. -/
theorem remainders_nil_ne_nil {pattern : List Str} (hne : pattern ≠ []) :
    remainders pattern [] ≠ [] := by
  induction pattern with
  | nil => exact absurd rfl hne
  | cons p rest ih =>
    rw [remainders_cons]
    split_ifs with hglob hlast hline
    · exact List.cons_ne_nil _ _
    · exact absurd List.all_nil hline
    · change List.flatMap (remainders rest) [[]] ≠ []
      rw [List.flatMap_singleton]
      exact ih (by simpa using hlast)
    · exact List.cons_ne_nil _ _

/-- A `**` that is not the last segment can take all of the directory. -/
theorem remainders_globstar_ne_nil {rest : List Str} (hrest : rest ≠ []) (dir : List Str) :
    dir.tails.flatMap (remainders rest) ≠ [] := by
  obtain ⟨left, hleft⟩ := List.exists_mem_of_ne_nil _ (remainders_nil_ne_nil hrest)
  exact List.ne_nil_of_mem
    (List.mem_flatMap.mpr ⟨[], (List.mem_tails _ _).mpr List.nil_suffix, hleft⟩)

/-- A pattern that cannot be laid along a directory is a dead end, of one of the first kinds. -/
theorem deadEnd_of_remainders {room : ℕ} {pattern dir : List Str}
    (h : remainders pattern dir = []) : DeadEnd room dir pattern := by
  induction pattern generalizing dir with
  | nil => exact .short List.not_mem_nil (Nat.zero_le _)
  | cons p rest ih =>
    rw [remainders_cons] at h
    split_ifs at h with hglob hlast hline
    · obtain ⟨s, hs, hnewline⟩ := List.all_eq_false.mp ((Bool.not_eq_true _).mp hline)
      rw [hglob, List.isEmpty_iff.mp hlast]
      exact .newline s rfl hs (by simpa using hnewline)
    · exact absurd h (remainders_globstar_ne_nil (by simpa using hlast) dir)
    · cases dir with
      | nil => cases h
      | cons s others =>
        have hcons := beforeGlob_cons hglob rest
        cases hmatch : segmentMatches p s with
        | false => exact .mismatch p s (by rw [hcons]; exact List.mem_cons_self) hmatch
        | true =>
          simp only [hmatch, if_true] at h
          -- A dead end stays one when a segment that matches comes before.
          have hnone := ih h
          cases hnone with
          | short hfree hlength =>
            exact .short (List.not_mem_cons_of_ne_of_not_mem (Ne.symm hglob) hfree)
              (Nat.succ_le_succ hlength)
          | mismatch q t hmem hno =>
            exact .mismatch q t (by rw [hcons]; exact List.mem_cons_of_mem _ hmem) hno
          | newline t hlast hmem hnewline =>
            exact .newline t (by rw [hcons, List.cons_append, ← hlast]) (by rw [hcons]; exact hmem)
              hnewline
          | unfillable q hmem hno => exact .unfillable q (List.mem_cons_of_mem p hmem) hno
          | long hne _ => exact absurd h hne

/-- The first kinds of dead ends leave nothing of the pattern. -/
theorem remainders_of_short {pattern dir : List Str} (hglob : str "**" ∉ pattern)
    (h : pattern.length ≤ dir.length) : remainders pattern dir = [] := by
  induction pattern generalizing dir with
  | nil => rfl
  | cons p rest ih =>
    rw [List.mem_cons, not_or] at hglob
    rw [remainders_cons, if_neg (Ne.symm hglob.1)]
    cases dir with
    | nil => cases h
    | cons s others =>
      dsimp only
      rw [ih hglob.2 (Nat.le_of_succ_le_succ h), ite_self]

theorem remainders_of_mismatch {pattern dir : List Str} {p s : Str}
    (hmem : (p, s) ∈ (beforeGlob pattern).zip dir) (h : segmentMatches p s = false) :
    remainders pattern dir = [] := by
  induction pattern generalizing dir with
  | nil => rfl
  | cons q rest ih =>
    by_cases hglob : q = str "**"
    · rw [hglob, beforeGlob_globstar] at hmem
      cases hmem
    · rw [beforeGlob_cons hglob] at hmem
      cases dir with
      | nil => cases hmem
      | cons t others =>
        rw [remainders_cons, if_neg hglob]
        rw [List.zip_cons_cons, List.mem_cons, Prod.mk.injEq] at hmem
        rcases hmem with ⟨rfl, rfl⟩ | hmem
        · exact if_neg (by rw [h]; exact Bool.false_ne_true)
        · exact (ite_congr rfl (fun _ ↦ ih hmem) fun _ ↦ rfl).trans (ite_self _)

theorem remainders_of_newline {pattern dir : List Str} {s : Str}
    (hlast : pattern = beforeGlob pattern ++ [str "**"])
    (hmem : s ∈ dir.drop (beforeGlob pattern).length) (h : newline ∈ s) :
    remainders pattern dir = [] := by
  induction pattern generalizing dir with
  | nil => rfl
  | cons p rest ih =>
    by_cases hglob : p = str "**"
    · subst hglob
      rw [beforeGlob_globstar] at hlast hmem
      obtain rfl : rest = [] := List.tail_eq_of_cons_eq hlast
      refine (if_pos rfl).trans ((if_pos rfl).trans (if_neg fun hall ↦ ?_))
      have hfree := List.all_eq_true.mp hall s hmem
      rw [List.contains_iff_mem.mpr h] at hfree
      cases hfree
    · rw [beforeGlob_cons hglob] at hlast hmem
      cases dir with
      | nil => cases hmem
      | cons t others =>
        rw [remainders_cons, if_neg hglob]
        exact (ite_congr rfl (fun _ ↦ ih (List.tail_eq_of_cons_eq hlast) hmem)
          fun _ ↦ rfl).trans (ite_self _)

/-- A pattern reaches below the directories to which it is no dead end. -/
theorem reaches_iff_not_deadEnd {room : ℕ} {pattern dir : List Str}
    (hdir : ∀ s ∈ dir, s ≠ [] ∧ PathText s) :
    reaches room pattern dir = true ↔ ¬ DeadEnd room dir pattern := by
  rw [reaches_eq_any, List.any_eq_true]
  constructor
  · rintro ⟨rest, hrest, hfits⟩ hdead
    rw [fits, decide_eq_true_eq, fillable_remainder hdir hrest] at hfits
    have hnone : remainders pattern dir ≠ [] := List.ne_nil_of_mem hrest
    cases hdead with
    | short hglob h => exact hnone (remainders_of_short hglob h)
    | mismatch p s hmem h => exact hnone (remainders_of_mismatch hmem h)
    | newline s hlast hmem h => exact hnone (remainders_of_newline hlast hmem h)
    | unfillable p hmem h => exact h (hfits.1 p hmem)
    | long _ h => exact absurd hfits.2 (Nat.not_le.mpr (h rest hrest))
  · intro halive
    have hfillable : ∀ p ∈ pattern, Fillable p := fun p hp ↦
      by_contra fun h ↦ halive (.unfillable p hp h)
    have hne : remainders pattern dir ≠ [] := fun h ↦ halive (deadEnd_of_remainders h)
    have hshort : ∃ rest ∈ remainders pattern dir, needed rest ≤ room := by
      by_contra hlong
      exact halive (.long hne fun rest hrest ↦ Nat.lt_of_not_le fun h ↦ hlong ⟨rest, hrest, h⟩)
    obtain ⟨rest, hrest, hroom⟩ := hshort
    refine ⟨rest, hrest, ?_⟩
    rw [fits, decide_eq_true_eq]
    exact ⟨(fillable_remainder hdir hrest).mpr hfillable, hroom⟩

end DatumSync.Vault
