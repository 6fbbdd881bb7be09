import DatumSync.Vault.Path

/-!
# Normal forms of vault paths

Every text that `normalise` returns has the form a path below the vault root needs.  It is returned
unchanged only if it ends in no whitespace: the slashes at the end of the written path are removed
after the whitespace around it, and what stood before them is not looked at again.
-/

namespace DatumSync.Vault

open Python

/-- A text that `normalise` returns. -/
def Normalised (path : Str) : Prop := ∃ raw, normalise raw = .ok path

/-- `path[-1:].isspace()` -/
def endsWithSpace (path : Str) : Bool := path.getLast?.any isSpace

/-- The length of the shortest text with this normal form: whitespace at the end is kept by a
slash only. -/
def spelledLength (path : Str) : ℕ := path.length + if endsWithSpace path then 1 else 0

/-- What can be said of every text that `normalise` returns. -/
structure NormalForm (path : Str) : Prop where
  short : spelledLength path ≤ maxPath
  noNull : 0 ∉ path
  noBackslash : cp '\\' ∉ path
  front : startsWithSpace path = false
  segments : ∀ segment ∈ split slash path, SegmentOk segment

/-! ## Stripped texts -/

theorem endsWithSpace_concat (s : Str) (c : CodePoint) : endsWithSpace (s ++ [c]) = isSpace c := by
  rw [endsWithSpace, List.getLast?_concat, Option.any_some]

theorem endsWithSpace_strip (s : Str) : endsWithSpace (strip s) = false := by
  unfold endsWithSpace
  by_cases hnil : strip s = []
  · rw [hnil]
    rfl
  · rw [List.getLast?_eq_some_getLast hnil, Option.any_some, Bool.eq_false_iff]
    exact List.rdropWhile_last_not _ _ hnil

theorem startsWithSpace_of_prefix {s t : Str} (h : s <+: t) (ht : startsWithSpace t = false) :
    startsWithSpace s = false := by
  cases s with
  | nil => rfl
  | cons c rest =>
    obtain ⟨back, rfl⟩ := h
    exact ht

theorem startsWithSpace_lstrip (s : Str) : startsWithSpace (lstrip s) = false := by
  have hhead := List.head?_dropWhile_not isSpace s
  unfold lstrip
  cases hrest : s.dropWhile isSpace with
  | nil => rfl
  | cons c rest =>
    rw [hrest, List.head?_cons] at hhead
    exact hhead

theorem startsWithSpace_strip (s : Str) : startsWithSpace (strip s) = false :=
  startsWithSpace_of_prefix (List.rdropWhile_prefix _ _) (startsWithSpace_lstrip s)

theorem strip_eq_self_of_ends {s : Str} (hfront : startsWithSpace s = false)
    (hback : endsWithSpace s = false) : strip s = s := by
  rw [strip, lstrip_eq_self hfront, rstrip, List.rdropWhile_eq_self_iff]
  intro hne
  rw [endsWithSpace, List.getLast?_eq_some_getLast hne, Option.any_some] at hback
  exact ne_true_of_eq_false hback

theorem Accepted.of_stripped {raw : Str} (hstrip : strip raw = raw) (hne : raw ≠ [])
    (hshort : raw.length ≤ maxPath) (hnull : 0 ∉ raw) (hbackslash : cp '\\' ∉ raw)
    (hrelative : startsWith raw [slash] = false)
    (hsegments : ∀ segment ∈ split slash (rstripChar slash raw), SegmentOk segment) :
    Accepted raw := by
  constructor
  all_goals
    rw [hstrip]
    assumption

/-! ## What `normalise` returns -/

theorem normalForm_of_ok {raw n : Str} (h : normalise raw = .ok n) : NormalForm n := by
  obtain ⟨hacc, rfl⟩ := normalise_eq_ok.mp h
  have hbegins : rstripChar slash (strip raw) <+: strip raw := List.rdropWhile_prefix _ _
  refine ⟨?_, fun hmem ↦ hacc.noNull (hbegins.subset hmem),
    fun hmem ↦ hacc.noBackslash (hbegins.subset hmem),
    startsWithSpace_of_prefix hbegins (startsWithSpace_strip raw), hacc.segments⟩
  have hle := hbegins.length_le
  have hshort := hacc.short
  unfold spelledLength
  split_ifs with hspace
  · have hne : (rstripChar slash (strip raw)).length ≠ (strip raw).length := by
      intro heq
      rw [hbegins.eq_of_length heq, endsWithSpace_strip] at hspace
      exact Bool.false_ne_true hspace
    omega
  · omega

theorem NormalForm.ne_nil {path : Str} (h : NormalForm path) : path ≠ [] := by
  rintro rfl
  exact (h.segments [] (by rw [split, List.splitOn_nil]; exact List.mem_singleton_self _)).2.2 rfl

theorem NormalForm.relative {path : Str} (h : NormalForm path) :
    startsWith path [slash] = false := by
  rw [Bool.eq_false_iff, Ne, startsWith_iff]
  rintro ⟨rest, rfl⟩
  refine (h.segments [] ?_).2.2 rfl
  rw [List.singleton_append, ← List.nil_append (slash :: rest),
    split_append_cons List.not_mem_nil]
  exact List.mem_cons_self

theorem NormalForm.rstripChar_eq_self {path : Str} (h : NormalForm path) :
    rstripChar slash path = path := by
  rw [rstripChar, List.rdropWhile_eq_self_iff]
  intro hne hslash
  refine (h.segments [] ?_).2.2 rfl
  rw [← List.dropLast_append_getLast hne, eq_of_beq hslash, split, List.splitOn_append_cons_self,
    List.splitOn_nil]
  exact List.mem_append_right _ (List.mem_singleton_self _)

/-- A text of this form that ends in no whitespace is returned unchanged. -/
theorem NormalForm.normalise_eq {path : Str} (h : NormalForm path)
    (hspace : endsWithSpace path = false) : normalise path = .ok path := by
  have hstrip : strip path = path := strip_eq_self_of_ends h.front hspace
  have hshort := h.short
  rw [spelledLength, hspace] at hshort
  rw [normalise_eq_ok, hstrip, h.rstripChar_eq_self]
  refine ⟨.of_stripped hstrip h.ne_nil hshort h.noNull h.noBackslash h.relative ?_, rfl⟩
  rw [h.rstripChar_eq_self]
  exact h.segments

/-- A slash behind the whitespace keeps it. -/
theorem NormalForm.normalise_slash {path : Str} (h : NormalForm path)
    (hspace : endsWithSpace path = true) : normalise (path ++ [slash]) = .ok path := by
  have hstrip : strip (path ++ [slash]) = path ++ [slash] := by
    refine strip_eq_self_of_ends ?_ (endsWithSpace_concat path slash)
    rw [startsWithSpace_append _ h.ne_nil]
    exact h.front
  have hrstrip : rstripChar slash (path ++ [slash]) = path := by
    rw [rstripChar, List.rdropWhile_concat, if_pos (beq_self_eq_true slash)]
    exact h.rstripChar_eq_self
  have hshort := h.short
  rw [spelledLength, hspace] at hshort
  have hrelative : startsWith (path ++ [slash]) [slash] = false := by
    obtain ⟨c, rest, rfl⟩ := List.exists_cons_of_ne_nil h.ne_nil
    exact h.relative
  rw [normalise_eq_ok, hstrip, hrstrip]
  refine ⟨.of_stripped hstrip (List.append_ne_nil_of_left_ne_nil h.ne_nil _) ?_ ?_ ?_
    hrelative ?_, rfl⟩
  · rw [List.length_append]
    exact hshort
  · rw [List.mem_append, not_or]
    exact ⟨h.noNull, by decide⟩
  · rw [List.mem_append, not_or]
    exact ⟨h.noBackslash, by decide⟩
  · rw [hrstrip]
    exact h.segments

theorem normalised_iff {path : Str} : Normalised path ↔ NormalForm path := by
  constructor
  · rintro ⟨raw, hraw⟩
    exact normalForm_of_ok hraw
  · intro h
    cases hspace : endsWithSpace path with
    | false => exact ⟨path, h.normalise_eq hspace⟩
    | true => exact ⟨path ++ [slash], h.normalise_slash hspace⟩

/-- Of the texts that `normalise` returns it keeps those that end in no whitespace. -/
theorem normalise_self_iff {path : Str} (h : NormalForm path) :
    normalise path = .ok path ↔ endsWithSpace path = false := by
  refine ⟨fun hself ↦ ?_, h.normalise_eq⟩
  obtain ⟨_, heq⟩ := normalise_eq_ok.mp hself
  have hbegins : rstripChar slash (strip path) <+: strip path := List.rdropWhile_prefix _ _
  rw [← heq] at hbegins
  have hstrip : strip path <+: path := by
    rw [strip, lstrip_eq_self h.front]
    exact List.rdropWhile_prefix _ _
  rw [hbegins.eq_of_length_le hstrip.length_le]
  exact endsWithSpace_strip path

/-! ## Whitespace before the last slashes -/

/-- The text ends in whitespace, slashes behind it, and perhaps more whitespace. -/
def SpaceBeforeSlashes (raw : Str) : Prop :=
  ∃ front c slashes back, raw = front ++ c :: (slashes ++ back) ∧ isSpace c = true ∧
    slashes ≠ [] ∧ (∀ d ∈ slashes, d = slash) ∧ ∀ d ∈ back, isSpace d = true

theorem rdropWhile_append_of_all {p : CodePoint → Bool} {s back : Str}
    (h : ∀ c ∈ back, p c = true) : (s ++ back).rdropWhile p = s.rdropWhile p := by
  rw [List.rdropWhile, List.rdropWhile, List.reverse_append,
    List.dropWhile_append_of_pos fun c hc ↦ h c (List.mem_reverse.mp hc)]

theorem exists_concat {s : Str} (h : s ≠ []) : ∃ before c, s = before ++ [c] :=
  ⟨_, _, (List.dropLast_append_getLast h).symm⟩

theorem strip_affixes {front middle back : Str} (hfront : ∀ c ∈ front, isSpace c = true)
    (hback : ∀ c ∈ back, isSpace c = true) (hne : middle ≠ [])
    (hstart : startsWithSpace middle = false) (hend : endsWithSpace middle = false) :
    strip (front ++ middle ++ back) = middle := by
  have hlstrip : lstrip (front ++ middle ++ back) = middle ++ back := by
    rw [List.append_assoc, lstrip, List.dropWhile_append_of_pos hfront]
    exact lstrip_eq_self (by rw [startsWithSpace_append _ hne, hstart])
  have hstrip := strip_eq_self_of_ends hstart hend
  rw [strip, lstrip_eq_self hstart, rstrip] at hstrip
  rw [strip, hlstrip, rstrip, rdropWhile_append_of_all hback, hstrip]

/-- Whitespace before the last slashes is what the normal form ends in. -/
theorem endsWithSpace_iff {raw n : Str} (h : normalise raw = .ok n) :
    endsWithSpace n = true ↔ SpaceBeforeSlashes raw := by
  have hne : n ≠ [] := normalise_ne_nil h
  obtain ⟨hacc, rfl⟩ := normalise_eq_ok.mp h
  constructor
  · intro hspace
    have hback : strip raw ++ (lstrip raw).rtakeWhile isSpace = lstrip raw :=
      List.rdropWhile_append_rtakeWhile
    have hslashes : rstripChar slash (strip raw) ++ (strip raw).rtakeWhile (· == slash) =
        strip raw := List.rdropWhile_append_rtakeWhile
    have hraw : raw.takeWhile isSpace ++ lstrip raw = raw := List.takeWhile_append_dropWhile
    obtain ⟨before, c, hlast⟩ := exists_concat hne
    rw [hlast] at hslashes hspace
    refine ⟨raw.takeWhile isSpace ++ before, c, (strip raw).rtakeWhile (· == slash),
      (lstrip raw).rtakeWhile isSpace, ?_, ?_, fun hnil ↦ ?_, fun d hd ↦ ?_, fun d hd ↦ ?_⟩
    · calc
        raw = raw.takeWhile isSpace ++ ((before ++ [c] ++ (strip raw).rtakeWhile (· == slash)) ++
            (lstrip raw).rtakeWhile isSpace) := by rw [hslashes, hback, hraw]
        _ = _ := by simp only [List.append_assoc, List.cons_append, List.nil_append]
    · rw [endsWithSpace_concat] at hspace
      exact hspace
    · rw [hnil, List.append_nil] at hslashes
      rw [hslashes, endsWithSpace_strip] at hspace
      exact Bool.false_ne_true hspace
    · exact eq_of_beq (List.mem_rtakeWhile_imp (p := fun x ↦ x == slash) hd)
    · exact List.mem_rtakeWhile_imp hd
  · rintro ⟨front, c, slashes, back, rfl, hc, hnil, hslashes, hback⟩
    have hstart : startsWithSpace slashes = false := by
      obtain ⟨first, rest, rfl⟩ := List.exists_cons_of_ne_nil hnil
      rw [hslashes first List.mem_cons_self]
      rfl
    have hend : ∀ s, endsWithSpace (s ++ slashes) = false := by
      intro s
      obtain ⟨before, last, rfl⟩ := exists_concat hnil
      rw [← List.append_assoc, endsWithSpace_concat,
        hslashes last (List.mem_append_right _ (List.mem_singleton_self _))]
      rfl
    by_cases hfront : front.dropWhile isSpace = []
    · -- Nothing but whitespace stands before the slashes, and such a text is refused.
      have hspaces : ∀ d ∈ front ++ [c], isSpace d = true := by
        intro d hd
        rcases List.mem_append.mp hd with hd | hd
        · exact List.dropWhile_eq_nil_iff.mp hfront d hd
        · exact List.mem_singleton.mp hd ▸ hc
      have hstrip := strip_affixes hspaces hback hnil hstart (hend [])
      rw [List.append_assoc, List.append_assoc, List.singleton_append] at hstrip
      have hrelative := hacc.relative
      obtain ⟨first, rest, rfl⟩ := List.exists_cons_of_ne_nil hnil
      rw [hstrip, hslashes first List.mem_cons_self] at hrelative
      exact absurd hrelative (by simp [startsWith])
    · have hstrip : strip (front ++ c :: (slashes ++ back)) =
          front.dropWhile isSpace ++ [c] ++ slashes := by
        have hkept : startsWithSpace (front.dropWhile isSpace ++ [c] ++ slashes) = false := by
          rw [List.append_assoc, startsWithSpace_append _ hfront]
          exact startsWithSpace_lstrip front
        have hmiddle := @strip_affixes (front.takeWhile isSpace) _ back
          (fun d hd ↦ List.mem_takeWhile_imp hd) hback
          (List.append_ne_nil_of_right_ne_nil _ hnil) hkept (hend _)
        rw [← hmiddle]
        conv_lhs => rw [← @List.takeWhile_append_dropWhile _ isSpace front]
        simp only [List.append_assoc, List.cons_append, List.nil_append]
      have hc' : ¬(c == slash) = true := by
        intro heq
        rw [eq_of_beq heq] at hc
        exact absurd hc (by decide)
      rw [hstrip, rstripChar, rdropWhile_append_of_all fun d hd ↦ beq_of_eq (hslashes d hd),
        List.rdropWhile_concat, if_neg hc', endsWithSpace_concat]
      exact hc

/-! ## Joined to the vault root -/

/-- The parts of `VAULT_PATH / path`, where `root` are those of the absolute vault root. -/
def joinedParts (root : List Str) (path : Str) : List Str :=
  (if startsWith path [slash] then [] else root) ++
    (split slash path).filter fun part ↦ part ≠ [] ∧ part ≠ str "."

/-- Where the parts of an absolute path lead when no link is followed: `..` takes the last part
away. -/
def collapse (parts : List Str) : List Str :=
  parts.foldl (fun found part ↦ if part = str ".." then found.dropLast else found ++ [part]) []

theorem collapse_append {root parts : List Str} (h : str ".." ∉ parts) :
    collapse (root ++ parts) = collapse root ++ parts := by
  induction parts using List.reverseRecOn with
  | nil => simp
  | append_singleton before part ih =>
    rw [List.mem_append, not_or, List.mem_singleton] at h
    have hbegins := ih h.1
    rw [collapse, ← List.append_assoc, List.foldl_append, ← collapse, hbegins, List.foldl_cons,
      List.foldl_nil, if_neg (Ne.symm h.2), List.append_assoc]

theorem NormalForm.collapse_joinedParts {path : Str} (h : NormalForm path) (root : List Str) :
    collapse (joinedParts root path) = collapse root ++ split slash path := by
  have hkept : (split slash path).filter (fun part ↦ part ≠ [] ∧ part ≠ str ".") =
      split slash path := by
    rw [List.filter_eq_self]
    intro part hpart
    rw [decide_eq_true_eq]
    exact ⟨(h.segments part hpart).2.2, (h.segments part hpart).2.1⟩
  rw [joinedParts, h.relative, hkept, if_neg Bool.false_ne_true]
  exact collapse_append fun hmem ↦ (h.segments _ hmem).1 rfl

/-- What a normalised path is to be. -/
structure Canonical (path : Str) : Prop where
  fixed : normalise path = .ok path
  nonempty : path ≠ []
  short : path.length ≤ maxPath
  relative : startsWith path [slash] = false
  noBackslash : cp '\\' ∉ path
  noNull : 0 ∉ path
  segments : ∀ segment ∈ split slash path, SegmentOk segment
  inside : ∀ root, collapse (joinedParts root path) = collapse root ++ split slash path

/-- All but one of the demands are met by everything that `normalise` returns. -/
theorem canonical_iff_fixed {path : Str} (h : NormalForm path) :
    Canonical path ↔ normalise path = .ok path := by
  have hshort : path.length ≤ maxPath := le_trans (Nat.le_add_right _ _) h.short
  exact ⟨Canonical.fixed, fun hfixed ↦ ⟨hfixed, h.ne_nil, hshort, h.relative, h.noBackslash,
    h.noNull, h.segments, h.collapse_joinedParts⟩⟩

/-- The result of `normalise` is canonical exactly when no whitespace stands before the slashes at
the end of what was written. -/
theorem canonical_iff_no_space {raw n : Str} (h : normalise raw = .ok n) :
    Canonical n ↔ ¬ SpaceBeforeSlashes raw := by
  have hform := normalForm_of_ok h
  rw [canonical_iff_fixed hform, normalise_self_iff hform, ← endsWithSpace_iff h,
    Bool.not_eq_true]

theorem canonical_iff_no_space_plain :
    Canonical (str "dev/config") ↔ ¬ SpaceBeforeSlashes (str " dev/config/ ") :=
  canonical_iff_no_space (by decide +kernel)

/-- `.. /` becomes a text that `normalise` refuses, and `dev /` one that it changes. -/
theorem spaced_not_canonical :
    normalise (str ".. /") = .ok (str ".. ") ∧
      normalise (str ".. ") = .error (pathError "path contains a parent-directory segment") ∧
      normalise (str "dev /") = .ok (str "dev ") ∧ normalise (str "dev ") = .ok (str "dev") ∧
      ¬ ∀ raw n, normalise raw = .ok n → Canonical n := by
  have hspaced : normalise (str "dev /") = .ok (str "dev ") := by decide +kernel
  have hagain : normalise (str "dev ") = .ok (str "dev") := by decide +kernel
  refine ⟨by decide +kernel, by decide +kernel, hspaced, hagain, fun hall ↦ ?_⟩
  have hfixed := (hall _ _ hspaced).fixed
  rw [hagain] at hfixed
  exact absurd hfixed (by decide +kernel)

end DatumSync.Vault
