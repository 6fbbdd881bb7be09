import DatumSync.Automations.Template
import DatumSync.Foundation.LeftmostScan

/-!
# Rendering a template

`render` goes through a text once.  The pieces that it cuts the text into are read off the text
alone: the placeholders are all the words of the text that `_PLACEHOLDER` matches, and what a
context puts in their place is not looked at again.
-/

namespace DatumSync.Automations

open Python Foundation

/-- What `_context` reads of a job. -/
structure FinishedJob where
  /-- `str(job[field])`, none for a null. -/
  column : Str → Option Str
  params : List (Str × Json)

/-- `"" if value is None else str(value)` -/
def paramText (strOf : Json → Str) : Json → Str
  | .null => []
  | value => strOf value

def context (strOf : Json → Str) (job : FinishedJob) : List (Str × Str) :=
  job.params.foldl
    (fun values param ↦ setItem values (str "params." ++ param.1) (paramText strOf param.2))
    (jobFields.map fun field ↦ (str "job." ++ field, (job.column field).getD []))

def contextGet (context : List (Str × Str)) (name : Str) : Option Str :=
  (context.find? fun entry ↦ entry.1 == name).map Prod.snd

/-- `_PLACEHOLDER.sub`; `fuel` is the length of the text. -/
def renderFrom (context : List (Str × Str)) : ℕ → Str → Str
  | 0, _ => []
  | _, [] => []
  | fuel + 1, c :: rest =>
    match placeholderAt (c :: rest) with
    | some (name, after) =>
      (contextGet context (strip name)).getD [] ++ renderFrom context fuel after
    | none => c :: renderFrom context fuel rest

def render (text : Str) (context : List (Str × Str)) : Str :=
  renderFrom context text.length text

/-- `\x7b\x7b\s*([a-zA-Z0-9_.]+)\s*\x7d\x7d` matches the word, with the name for its group. -/
def IsPlaceholder (source name : Str) : Prop :=
  ∃ left right : Str, (∀ c ∈ left, isSpace c = true) ∧ name ≠ [] ∧
    (∀ c ∈ name, isNameChar c = true) ∧ (∀ c ∈ right, isSpace c = true) ∧
    source = str "\x7b\x7b" ++ (left ++ (name ++ (right ++ str "\x7d\x7d")))

/-! ## The three classes of characters -/

theorem isSpace_of_isNameChar {c : CodePoint} (h : isNameChar c = true) : isSpace c = false := by
  have hval : 46 ≤ c.val ∧ c.val ≤ 122 := by
    simp only [isNameChar, isDigit, Bool.or_eq_true, decide_eq_true_eq, beq_iff_eq] at h
    rcases h with (((h | h) | h) | rfl) | rfl
    · omega
    · omega
    · omega
    · decide
    · decide
  simp only [isSpace, Bool.or_eq_false_iff, decide_eq_false_iff_not, beq_eq_false_iff_ne]
  omega

theorem isNameChar_of_isSpace {c : CodePoint} (h : isSpace c = true) : isNameChar c = false := by
  cases hname : isNameChar c with
  | false => rfl
  | true =>
    rw [isSpace_of_isNameChar hname] at h
    cases h

theorem dropWhile_stop {p : CodePoint → Bool} {s : Str}
    (h : ∀ c rest, s = c :: rest → p c = false) : s.dropWhile p = s := by
  cases s with
  | nil => rfl
  | cons c rest => exact List.dropWhile_cons_of_neg (by simp [h c rest rfl])

theorem takeWhile_stop {p : CodePoint → Bool} {s : Str}
    (h : ∀ c rest, s = c :: rest → p c = false) : s.takeWhile p = [] := by
  cases s with
  | nil => rfl
  | cons c rest => exact List.takeWhile_cons_of_neg (by simp [h c rest rfl])

/-- Closing braces end both spaces and names. -/
theorem closing_stop {p : CodePoint → Bool} (hp : p (cp '\x7d') = false) (after : Str) :
    ∀ c rest, str "\x7d\x7d" ++ after = c :: rest → p c = false := by
  intro c rest h
  obtain ⟨rfl, -⟩ := List.cons.inj h
  exact hp

/-- The test at the front of a text finds what the expression matches. -/
theorem placeholderAt_iff {s name after : Str} :
    placeholderAt s = some (name, after) ↔
      ∃ source, IsPlaceholder source name ∧ s = source ++ after := by
  constructor
  · intro h
    unfold placeholderAt at h
    split at h
    · next hopen =>
      obtain ⟨tail, rfl⟩ := startsWith_iff.mp hopen
      have htail : (str "\x7b\x7b" ++ tail).drop 2 = tail := rfl
      rw [htail] at h
      dsimp only at h
      split at h
      · next hclose =>
        obtain ⟨hname, hclose⟩ := hclose
        obtain ⟨final, hfinal⟩ := startsWith_iff.mp hclose
        obtain ⟨rfl, hafter⟩ := Prod.mk.inj (Option.some.inj h)
        rw [← hfinal] at hafter
        obtain rfl : final = after := hafter
        refine ⟨_, ⟨tail.takeWhile isSpace,
          ((tail.dropWhile isSpace).dropWhile isNameChar).takeWhile isSpace,
          fun c hc ↦ List.mem_takeWhile_imp hc, hname, fun c hc ↦ List.mem_takeWhile_imp hc,
          fun c hc ↦ List.mem_takeWhile_imp hc, rfl⟩, ?_⟩
        simp only [List.append_assoc]
        rw [hfinal, List.takeWhile_append_dropWhile, List.takeWhile_append_dropWhile,
          List.takeWhile_append_dropWhile]
      · cases h
    · cases h
  · rintro ⟨source, ⟨left, right, hleft, hname, hnamed, hright, rfl⟩, rfl⟩
    have hnameStop : ∀ c rest, name ++ (right ++ (str "\x7d\x7d" ++ after)) = c :: rest →
        isSpace c = false := by
      intro c rest h
      cases name with
      | nil => exact absurd rfl hname
      | cons d name =>
        obtain ⟨rfl, -⟩ := List.cons.inj h
        exact isSpace_of_isNameChar (hnamed d List.mem_cons_self)
    have hrightStop : ∀ c rest, right ++ (str "\x7d\x7d" ++ after) = c :: rest →
        isNameChar c = false := by
      intro c rest h
      cases right with
      | nil => exact closing_stop (by decide) after c rest h
      | cons d right =>
        obtain ⟨rfl, -⟩ := List.cons.inj h
        exact isNameChar_of_isSpace (hright d List.mem_cons_self)
    have hcloseStop := @closing_stop isSpace (by decide) after
    have hopen : startsWith (str "\x7b\x7b" ++ (left ++ (name ++ (right ++
        (str "\x7d\x7d" ++ after))))) (str "\x7b\x7b") = true :=
      startsWith_iff.mpr (List.prefix_append _ _)
    have hclose : startsWith (str "\x7d\x7d" ++ after) (str "\x7d\x7d") = true :=
      startsWith_iff.mpr (List.prefix_append _ _)
    have htail (tail : Str) : (str "\x7b\x7b" ++ tail).drop 2 = tail := rfl
    have hrest : (str "\x7d\x7d" ++ after).drop 2 = after := rfl
    simp only [List.append_assoc]
    unfold placeholderAt
    rw [if_pos hopen, htail]
    simp only [List.dropWhile_append_of_pos hleft, dropWhile_stop hnameStop,
      List.takeWhile_append_of_pos hnamed, takeWhile_stop hrightStop,
      List.dropWhile_append_of_pos hnamed, dropWhile_stop hrightStop,
      List.dropWhile_append_of_pos hright, dropWhile_stop hcloseStop,
      List.append_nil]
    rw [if_pos ⟨hname, hclose⟩, hrest]

theorem IsPlaceholder.ne_nil {source name : Str} (h : IsPlaceholder source name) :
    source ≠ [] := by
  obtain ⟨left, right, _, _, _, _, rfl⟩ := h
  exact List.cons_ne_nil _ _

/-- After its two opening braces a placeholder has no opening brace. -/
theorem IsPlaceholder.opening {source name : Str} (h : IsPlaceholder source name) :
    ∃ c body, source = cp '\x7b' :: cp '\x7b' :: c :: body ∧ cp '\x7b' ∉ c :: body := by
  obtain ⟨left, right, hleft, hname, hnamed, hright, rfl⟩ := h
  have hopen : cp '\x7b' ∉ left ++ (name ++ (right ++ str "\x7d\x7d")) := by
    intro hmem
    rcases List.mem_append.mp hmem with hmem | hmem
    · exact absurd (hleft _ hmem) (by decide)
    rcases List.mem_append.mp hmem with hmem | hmem
    · exact absurd (hnamed _ hmem) (by decide)
    rcases List.mem_append.mp hmem with hmem | hmem
    · exact absurd (hright _ hmem) (by decide)
    · exact absurd hmem (by decide)
  cases hinner : left ++ (name ++ (right ++ str "\x7d\x7d")) with
  | nil => exact absurd (List.append_eq_nil_iff.mp (List.append_eq_nil_iff.mp hinner).2).1 hname
  | cons c body => exact ⟨c, body, rfl, hinner ▸ hopen⟩

/-- Two placeholders of a text do not overlap: an opening brace inside the first is its second
character, and no opening brace follows that one. -/
theorem IsPlaceholder.disjoint {first name rest before second name' rest' : Str}
    (hfirst : IsPlaceholder first name) (hsecond : IsPlaceholder second name')
    (heq : first ++ rest = before ++ (second ++ rest')) (hbefore : before ≠ []) :
    ∃ more, before = first ++ more := by
  obtain ⟨c, body, rfl, hbody⟩ := hfirst.opening
  obtain ⟨d, body', rfl, -⟩ := hsecond.opening
  rcases List.append_eq_append_iff.mp heq with ⟨more, hmore, -⟩ | ⟨inside, hinside, hrest⟩
  · exact ⟨more, hmore⟩
  · cases inside with
    | nil => exact ⟨[], by rw [hinside, List.append_nil, List.append_nil]⟩
    | cons e inside =>
      exfalso
      obtain ⟨rfl, hsecond⟩ := List.cons.inj hrest
      cases before with
      | nil => exact hbefore rfl
      | cons b before =>
        obtain ⟨-, htail⟩ := List.cons.inj hinside
        cases before with
        | nil =>
          obtain ⟨-, rfl⟩ := List.cons.inj htail
          obtain ⟨hbrace, -⟩ := List.cons.inj hsecond
          exact hbody (hbrace ▸ List.mem_cons_self)
        | cons b' before =>
          obtain ⟨-, hmore⟩ := List.cons.inj htail
          exact hbody (hmore ▸ List.mem_append_right _ List.mem_cons_self)

def placeholderMatcher : Matcher CodePoint Str where
  matchAt := placeholderAt
  Occurs := IsPlaceholder
  matchAt_iff := placeholderAt_iff
  ne_nil := IsPlaceholder.ne_nil
  disjoint := IsPlaceholder.disjoint

def pieces (text : Str) : List (Piece CodePoint Str) :=
  placeholderMatcher.scan text.length text

/-- `_PLACEHOLDER.findall` finds the names of the pieces. -/
theorem findPlaceholders_eq (fuel : ℕ) (s : Str) :
    findPlaceholders fuel s = (placeholderMatcher.scan fuel s).filterMap Piece.value := by
  induction fuel generalizing s with
  | zero => rfl
  | succ fuel ih =>
    cases s with
    | nil => rfl
    | cons c rest =>
      rw [findPlaceholders, Matcher.scan]
      cases hmatch : placeholderAt (c :: rest) with
      | none =>
        have hnone : placeholderMatcher.matchAt (c :: rest) = none := hmatch
        simp only [hnone]
        exact ih rest
      | some found =>
        have hsome : placeholderMatcher.matchAt (c :: rest) = some found := hmatch
        simp only [hsome]
        exact congrArg (found.1 :: ·) (ih found.2)

theorem placeholders_eq (text : Str) : placeholders text = (pieces text).filterMap Piece.value :=
  findPlaceholders_eq _ _

/-- A name has no spaces to strip. -/
theorem strip_name {source name : Str} (h : IsPlaceholder source name) : strip name = name := by
  obtain ⟨left, right, _, hname, hnamed, _, _⟩ := h
  exact strip_eq_self fun c hc ↦ isSpace_of_isNameChar (hnamed c hc)

/-- `_PLACEHOLDER.sub` fills the pieces. -/
theorem renderFrom_eq (context : List (Str × Str)) {fuel : ℕ} {s : Str} (hfuel : s.length ≤ fuel) :
    renderFrom context fuel s = (placeholderMatcher.scan fuel s).flatMap
      (Piece.fill fun name ↦ (contextGet context name).getD []) := by
  refine Matcher.scan_induction placeholderMatcher (P := fun fuel s ↦ renderFrom context fuel s =
    (placeholderMatcher.scan fuel s).flatMap
      (Piece.fill fun name ↦ (contextGet context name).getD [])) ?_ ?_ ?_ fuel s hfuel
  · intro fuel
    cases fuel <;> rfl
  · intro fuel c rest hmatch ih
    rw [Matcher.scan_plain hmatch, List.flatMap_cons, ← ih, renderFrom]
    have hnone : placeholderAt (c :: rest) = none := hmatch
    simp only [hnone]
    rfl
  · intro fuel source rest name hoccurs ih
    have hsome : placeholderAt (source ++ rest) = some (name, rest) :=
      placeholderAt_iff.mpr ⟨source, hoccurs, rfl⟩
    rw [Matcher.scan_hit hoccurs, List.flatMap_cons, ← ih]
    cases hs : source ++ rest with
    | nil => exact absurd (List.append_eq_nil_iff.mp hs).1 (IsPlaceholder.ne_nil hoccurs)
    | cons c tail =>
      rw [hs] at hsome
      rw [renderFrom]
      simp only [hsome, strip_name hoccurs]
      rfl

/-- A text has pieces that do not depend on a context: they put together are the text, those that
are replaced are its placeholders, all of them and no others, with the names that
`_check_template` looks at; and rendering puts the value of a name for its placeholder and leaves
the rest as it is. -/
def SinglePass : Prop :=
  ∀ text : Str, ∃ pieces : List (Piece CodePoint Str),
    pieces.flatMap Piece.source = text ∧
    (∀ source name, .hit source name ∈ pieces → IsPlaceholder source name) ∧
    (∀ before source name after, IsPlaceholder source name → text = before ++ (source ++ after) →
      ∃ front back, pieces = front ++ .hit source name :: back ∧
        front.flatMap Piece.source = before) ∧
    pieces.filterMap Piece.value = placeholders text ∧
    ∀ context, render text context =
      pieces.flatMap (Piece.fill fun name ↦ (contextGet context name).getD [])

theorem render_singlePass : SinglePass := fun text ↦
  ⟨pieces text, Matcher.scan_source le_rfl, fun _ _ h ↦ Matcher.scan_sound le_rfl h,
    fun _ _ _ _ hoccurs heq ↦ Matcher.scan_complete le_rfl hoccurs heq,
    (placeholders_eq text).symm, fun context ↦ renderFrom_eq context le_rfl⟩

end DatumSync.Automations
