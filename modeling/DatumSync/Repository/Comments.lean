import DatumSync.Python.Dict
import DatumSync.Repository.Gate

/-!
# Comments in the documentation

`checkDocs` looks for headings in the text as it stands and deletes comments from each section body
by itself.  Here that is compared with deleting the comments of the whole text first.
-/

namespace DatumSync.Repository

open Python Foundation

/-! ## Deleting comments -/

/-- The text with every comment deleted. -/
def withoutComments (text : Str) : Str := dropComments text.length text

/-- What follows the comment that a text begins with. -/
def afterComment (text : Str) : Option Str :=
  if startsWith text (str "<!--") then
    ((text.drop 4).tails.find? fun after ↦ startsWith after (str "-->")).map (·.drop 3)
  else none

theorem dropComments_succ_cons (fuel : ℕ) (c : CodePoint) (rest : Str) :
    dropComments (fuel + 1) (c :: rest) = match afterComment (c :: rest) with
      | some after => dropComments fuel after
      | none => c :: dropComments fuel rest := by
  simp only [dropComments, afterComment, List.drop_succ_cons]
  by_cases hopen : startsWith (c :: rest) (str "<!--") = true
  · simp only [hopen, if_true]
    cases (rest.drop 3).tails.find? fun after ↦ startsWith after (str "-->") <;> rfl
  · simp only [hopen, Bool.false_eq_true, if_false]

theorem length_afterComment {c : CodePoint} {rest after : Str}
    (h : afterComment (c :: rest) = some after) : after.length ≤ rest.length := by
  unfold afterComment at h
  split at h
  · obtain ⟨found, hfound, rfl⟩ := Option.map_eq_some_iff.mp h
    have hsuffix := List.mem_tails _ _ |>.mp (List.mem_of_find?_eq_some hfound)
    have hlength := hsuffix.length_le
    rw [List.drop_succ_cons, List.length_drop] at hlength
    rw [List.length_drop]
    omega
  · exact absurd h (by simp)

/-- Fuel for every character is fuel enough. -/
theorem dropComments_eq {fuel fuel' : ℕ} {text : Str} (h : text.length ≤ fuel)
    (h' : text.length ≤ fuel') : dropComments fuel text = dropComments fuel' text := by
  induction fuel generalizing fuel' text with
  | zero =>
    rw [List.length_eq_zero_iff.mp (Nat.le_zero.mp h)]
    cases fuel' <;> rfl
  | succ fuel ih =>
    cases text with
    | nil => cases fuel' <;> rfl
    | cons c rest =>
      obtain ⟨fuel', rfl⟩ := Nat.exists_eq_add_one_of_ne_zero
        (Nat.ne_of_gt (Nat.lt_of_lt_of_le (Nat.succ_pos _) h'))
      rw [List.length_cons, Nat.add_le_add_iff_right] at h h'
      rw [dropComments_succ_cons, dropComments_succ_cons]
      cases hafter : afterComment (c :: rest) with
      | none => exact congrArg (c :: ·) (ih h h')
      | some after =>
        have hlength := length_afterComment hafter
        exact ih (hlength.trans h) (hlength.trans h')

theorem withoutComments_of_comment {text after : Str} (h : afterComment text = some after) :
    withoutComments text = withoutComments after := by
  cases text with
  | nil => exact absurd h (by simp [afterComment, startsWith, str])
  | cons c rest =>
    rw [withoutComments, List.length_cons, dropComments_succ_cons, h]
    exact dropComments_eq (length_afterComment h) le_rfl

theorem withoutComments_cons {c : CodePoint} {rest : Str} (h : afterComment (c :: rest) = none) :
    withoutComments (c :: rest) = c :: withoutComments rest := by
  rw [withoutComments, List.length_cons, dropComments_succ_cons, h]
  rfl

/-- A text is empty, or begins with a comment, or with a character that stays. -/
theorem comment_induction {motive : Str → Prop} (nil : motive [])
    (comment : ∀ text after, afterComment text = some after → motive after → motive text)
    (kept : ∀ c rest, afterComment (c :: rest) = none → motive rest → motive (c :: rest))
    (text : Str) : motive text := by
  induction hlength : text.length using Nat.strong_induction_on generalizing text with
  | _ n ih =>
    cases text with
    | nil => exact nil
    | cons c rest =>
      rw [List.length_cons] at hlength
      cases hafter : afterComment (c :: rest) with
      | none => exact kept c rest hafter (ih rest.length (by omega) rest rfl)
      | some after =>
        have hshorter := length_afterComment hafter
        exact comment _ after hafter (ih after.length (by omega) after rfl)

/-! ## Comments and line breaks -/

/-- The text with a line feed for every line break. -/
def lineFeeds (text : Str) : Str := text.map fun c ↦ if isLineBreak c then cp '\n' else c

theorem isLineBreak_lineFeed : isLineBreak (cp '\n') = true := by decide

theorem startsWith_lineFeeds {word : Str} (hword : word.any isLineBreak = false) (text : Str) :
    startsWith (lineFeeds text) word = startsWith text word := by
  induction word generalizing text with
  | nil => rfl
  | cons w word ih =>
    rw [List.any_cons, Bool.or_eq_false_iff] at hword
    cases text with
    | nil => rfl
    | cons c text =>
      have hfirst : (w == if isLineBreak c then cp '\n' else c) = (w == c) := by
        split
        · next hbreak =>
          rw [beq_eq_false_iff_ne.mpr, beq_eq_false_iff_ne.mpr]
          · rintro rfl
            exact absurd (hbreak.symm.trans hword.1) (by decide)
          · rintro rfl
            exact absurd (isLineBreak_lineFeed.symm.trans hword.1) (by decide)
        · rfl
      exact congrArg₂ (· && ·) hfirst (ih hword.2 text)

/-- A break at the end is no part of a word. -/
theorem startsWith_append_break {word : Str} (hword : word.any isLineBreak = false) {b : CodePoint}
    (hb : isLineBreak b = true) (text : Str) :
    startsWith (text ++ [b]) word = startsWith text word := by
  induction word generalizing text with
  | nil => rfl
  | cons w word ih =>
    rw [List.any_cons, Bool.or_eq_false_iff] at hword
    cases text with
    | nil =>
      have hne : (w == b) = false := by
        rw [beq_eq_false_iff_ne]
        rintro rfl
        exact absurd (hb.symm.trans hword.1) (by decide)
      exact (congrArg (· && _) hne).trans (Bool.false_and _)
    | cons c text => exact congrArg (w == c && ·) (ih hword.2 text)

theorem afterComment_lineFeeds (text : Str) :
    afterComment (lineFeeds text) = (afterComment text).map lineFeeds := by
  have hclose (after : Str) : startsWith (lineFeeds after) (str "-->") =
      startsWith after (str "-->") := startsWith_lineFeeds (by decide) after
  unfold afterComment
  rw [startsWith_lineFeeds (by decide)]
  split
  · have htails : ((lineFeeds text).drop 4).tails = (text.drop 4).tails.map lineFeeds := by
      rw [lineFeeds, ← List.map_drop, List.map_tails]
      rfl
    rw [htails, List.find?_map, Option.map_map, Option.map_map]
    have hsame : ((fun after ↦ startsWith after (str "-->")) ∘ lineFeeds) =
        fun after ↦ startsWith after (str "-->") := funext hclose
    rw [hsame]
    congr 1
    funext after
    exact List.map_drop.symm
  · rfl

theorem afterComment_append_break {b : CodePoint} (hb : isLineBreak b = true) (text : Str) :
    afterComment (text ++ [b]) = (afterComment text).map (· ++ [b]) := by
  unfold afterComment
  rw [startsWith_append_break (by decide) hb]
  split
  · next hopen =>
    obtain ⟨rest, rfl⟩ := startsWith_iff.mp hopen
    have hdrop (tail : Str) : (str "<!--" ++ tail).drop 4 = tail := rfl
    rw [List.append_assoc, hdrop, hdrop, List.tails_append, List.find?_append, List.find?_map]
    have hsame : ((fun after ↦ startsWith after (str "-->")) ∘ fun tail ↦ tail ++ [b]) =
        fun after ↦ startsWith after (str "-->") :=
      funext fun after ↦ startsWith_append_break (by decide) hb after
    have hnil : [b].tails.tail.find? (fun after ↦ startsWith after (str "-->")) = none := rfl
    rw [hsame, hnil, Option.or_none, Option.map_map, Option.map_map]
    cases hfound : rest.tails.find? fun after ↦ startsWith after (str "-->") with
    | none => rfl
    | some after =>
      have hcloses : startsWith after (str "-->") = true := by simpa using List.find?_some hfound
      obtain ⟨tail, rfl⟩ := startsWith_iff.mp hcloses
      rfl
  · rfl

theorem withoutComments_lineFeeds (text : Str) :
    withoutComments (lineFeeds text) = lineFeeds (withoutComments text) := by
  induction text using comment_induction with
  | nil => rfl
  | comment text after hafter ih =>
    have hfeeds := afterComment_lineFeeds text
    rw [hafter] at hfeeds
    rw [withoutComments_of_comment hfeeds, withoutComments_of_comment hafter, ih]
  | kept c rest hafter ih =>
    have hfeeds := afterComment_lineFeeds (c :: rest)
    rw [hafter] at hfeeds
    rw [withoutComments_cons hafter]
    exact (withoutComments_cons hfeeds).trans (congrArg _ ih)

/-- The break that ends a text is in no comment. -/
theorem withoutComments_append_break {b : CodePoint} (hb : isLineBreak b = true) (text : Str) :
    withoutComments (text ++ [b]) = withoutComments text ++ [b] := by
  induction text using comment_induction with
  | nil => exact withoutComments_cons (afterComment_append_break hb [])
  | comment text after hafter ih =>
    have happend := afterComment_append_break hb text
    rw [hafter] at happend
    rw [withoutComments_of_comment happend, withoutComments_of_comment hafter, ih]
  | kept c rest hafter ih =>
    have happend := afterComment_append_break hb (c :: rest)
    rw [hafter] at happend
    rw [withoutComments_cons hafter]
    exact (withoutComments_cons happend).trans (congrArg _ ih)

/-! ## Lines -/

/-- The lines between the breaks of a text. -/
def lines (text : Str) : List Str := text.splitOnP isLineBreak

/-- A text of these lines, each with its line feed. -/
def unlines (ls : List Str) : Str := ls.flatMap fun line ↦ line ++ [cp '\n']

theorem lines_append_break {b : CodePoint} (hb : isLineBreak b = true) (text rest : Str) :
    lines (text ++ b :: rest) = lines text ++ lines rest :=
  List.splitOnP_append_cons text rest hb

theorem lines_cons_break {b : CodePoint} (hb : isLineBreak b = true) (rest : Str) :
    lines (b :: rest) = [] :: lines rest := lines_append_break hb [] rest

theorem lines_cons_char {c : CodePoint} (hc : isLineBreak c = false) (rest : Str) :
    lines (c :: rest) = (lines rest).modifyHead (List.cons c) := by
  rw [lines, List.splitOnP_cons_eq_if_modifyHead, hc]
  rfl

theorem lines_line {line : Str} (h : line.any isLineBreak = false) : lines line = [line] :=
  List.splitOnP_eq_singleton fun c hc ↦ by simpa using List.any_eq_false.mp h c hc

theorem lines_lineFeeds (text : Str) : lines (lineFeeds text) = lines text := by
  induction text with
  | nil => rfl
  | cons c rest ih =>
    cases hc : isLineBreak c with
    | true =>
      rw [lines_cons_break hc, ← ih]
      exact (congrArg lines (congrArg (· :: lineFeeds rest) (if_pos hc))).trans
        (lines_cons_break isLineBreak_lineFeed _)
    | false =>
      have hkeep : lineFeeds (c :: rest) = c :: lineFeeds rest :=
        congrArg (· :: lineFeeds rest) (if_neg (by rw [hc]; exact Bool.false_ne_true))
      rw [hkeep, lines_cons_char hc, lines_cons_char hc, ih]

theorem unlines_lines (text : Str) : unlines (lines text) = lineFeeds text ++ [cp '\n'] := by
  induction text with
  | nil => rfl
  | cons c rest ih =>
    cases hc : isLineBreak c with
    | true =>
      have hfeed : lineFeeds (c :: rest) = cp '\n' :: lineFeeds rest :=
        congrArg (· :: lineFeeds rest) (if_pos hc)
      rw [lines_cons_break hc, hfeed, List.cons_append, ← ih]
      rfl
    | false =>
      have hkeep : lineFeeds (c :: rest) = c :: lineFeeds rest :=
        congrArg (· :: lineFeeds rest) (if_neg (by rw [hc]; exact Bool.false_ne_true))
      rw [lines_cons_char hc, hkeep, List.cons_append, ← ih]
      cases hlines : lines rest with
      | nil => exact absurd hlines (List.splitOnP_ne_nil _ _)
      | cons line others => rfl

/-- No line of a text has a break in it. -/
theorem line_of_mem_lines {text line : Str} (h : line ∈ lines text) :
    line.any isLineBreak = false := by
  induction text generalizing line with
  | nil => rw [List.mem_singleton.mp h]; rfl
  | cons c rest ih =>
    cases hc : isLineBreak c with
    | true =>
      rw [lines_cons_break hc] at h
      rcases List.mem_cons.mp h with rfl | h
      · rfl
      · exact ih h
    | false =>
      rw [lines_cons_char hc] at h
      cases hlines : lines rest with
      | nil => exact absurd hlines (List.splitOnP_ne_nil _ _)
      | cons first others =>
        rw [hlines, List.modifyHead_cons] at h
        rcases List.mem_cons.mp h with rfl | h
        · rw [List.any_cons, hc, ih (by rw [hlines]; exact List.mem_cons_self)]
          rfl
        · exact ih (by rw [hlines]; exact List.mem_cons_of_mem _ h)

/-- `join` leaves out the line feed of the last line. -/
theorem unlines_eq_join {ls : List Str} (h : ls ≠ []) :
    unlines ls = join (cp '\n') ls ++ [cp '\n'] := by
  induction ls with
  | nil => exact absurd rfl h
  | cons line rest ih =>
    cases rest with
    | nil => simp [unlines, join]
    | cons next rest =>
      have hrest := ih (List.cons_ne_nil _ _)
      rw [unlines, List.flatMap_cons]
      rw [unlines] at hrest
      rw [hrest]
      simp [join, List.intercalate]

/-- A text is empty or ends with a line feed. -/
def Ended (text : Str) : Prop := text = [] ∨ ∃ start, text = start ++ [cp '\n']

theorem lines_append {text : Str} (h : Ended text) (rest : Str) :
    lines (text ++ rest) = (lines text).dropLast ++ lines rest := by
  obtain rfl | ⟨start, rfl⟩ := h
  · rfl
  · have hlast : lines (start ++ [cp '\n']) = lines start ++ [[]] :=
      lines_append_break isLineBreak_lineFeed start []
    rw [hlast, List.dropLast_concat, List.append_assoc]
    exact lines_append_break isLineBreak_lineFeed start rest

theorem unlines_dropLast_lines {text : Str} (h : Ended text) :
    unlines (lines text).dropLast = lineFeeds text := by
  obtain rfl | ⟨start, rfl⟩ := h
  · rfl
  · have hlast : lines (start ++ [cp '\n']) = lines start ++ [[]] :=
      lines_append_break isLineBreak_lineFeed start []
    rw [hlast, List.dropLast_concat, unlines_lines, lineFeeds, lineFeeds, List.map_append]
    rfl

/-! ## What a section says -/

/-- A line that `isEmptySection` passes over. -/
def saysNothing (line : Str) : Bool := strip line = [] || isEmptyProse (strip line)

/-- Every line says nothing. -/
def blank (text : Str) : Bool := (lines text).all saysNothing

/-- What lines show: their text with its comments deleted. -/
def shown (body : List Str) : Str := withoutComments (unlines body)

/-- `str.splitlines` makes no line of what follows the last break when nothing follows it. -/
theorem lines_eq_splitLines (text : Str) :
    lines text = splitLines text ∨ lines text = splitLines text ++ [[]] := by
  unfold splitLines
  dsimp only
  split
  · next hlast => exact .inr (List.dropLast_append_getLast? [] hlast).symm
  · exact .inl rfl

theorem isEmptySection_eq_blank (body : Str) :
    isEmptySection body = blank (withoutComments body) := by
  have hsplit : isEmptySection body = (splitLines (withoutComments body)).all saysNothing := by
    rw [isEmptySection, List.all_map]
    rfl
  rw [hsplit, blank]
  rcases lines_eq_splitLines (withoutComments body) with h | h
  · rw [h]
  · rw [h, List.all_append]
    exact (Bool.and_true _).symm

theorem blank_append_break (text : Str) : blank (text ++ [cp '\n']) = blank text := by
  rw [blank, lines_append_break isLineBreak_lineFeed, List.all_append]
  exact Bool.and_true _

theorem blank_lineFeeds (text : Str) : blank (lineFeeds text) = blank text := by
  rw [blank, lines_lineFeeds, blank]

theorem isEmptySection_join (body : List Str) :
    isEmptySection (join (cp '\n') body) = blank (shown body) := by
  cases body with
  | nil => rfl
  | cons line rest =>
    rw [isEmptySection_eq_blank, shown, unlines_eq_join (List.cons_ne_nil _ _),
      withoutComments_append_break isLineBreak_lineFeed, blank_append_break]

/-- An empty line more says nothing more. -/
theorem blank_shown_concat_nil (body : List Str) :
    blank (shown (body ++ [[]])) = blank (shown body) := by
  have hunlines : unlines (body ++ [[]]) = unlines body ++ [cp '\n'] := by
    rw [unlines, List.flatMap_append]
    rfl
  rw [shown, hunlines, withoutComments_append_break isLineBreak_lineFeed, blank_append_break, shown]

theorem ended_shown (body : List Str) : Ended (shown body) := by
  by_cases hbody : body = []
  · exact .inl (by rw [hbody]; rfl)
  · exact .inr ⟨_, by rw [shown, unlines_eq_join hbody,
      withoutComments_append_break isLineBreak_lineFeed]⟩

/-- The lines that a body shows. -/
def shownLines (body : List Str) : List Str := (lines (shown body)).dropLast

/-- When no comment is left, deleting the comments again changes no answer. -/
theorem blank_shown_shownLines {body : List Str} (h : withoutComments (shown body) = shown body) :
    blank (shown (shownLines body)) = blank (shown body) := by
  rw [shown, shownLines, unlines_dropLast_lines (ended_shown body), withoutComments_lineFeeds, h,
    blank_lineFeeds]

/-! ## The sections found -/

/-- Of each section found, whether it is empty. -/
def answers (found : List (Str × Str)) : List (Str × Bool) :=
  found.map fun entry ↦ (entry.1, isEmptySection entry.2)

theorem answers_setItem (found : List (Str × Str)) (name : Str) (body : List Str) :
    answers (setItem found name (join (cp '\n') body)) =
      setItem (answers found) name (blank (shown body)) := by
  rw [← isEmptySection_join]
  exact setItem_map isEmptySection found name _

theorem sectionsFrom_line {line : Str} (h : sectionHeading line = none) (found : List (Str × Str))
    (current : Option (Str × List Str)) (rest : List Str) :
    sectionsFrom found current (line :: rest) =
      sectionsFrom found (current.map fun entry ↦ (entry.1, entry.2 ++ [line])) rest := by
  cases current <;> simp only [sectionsFrom, h]

theorem sectionsFrom_first {line heading : Str} (h : sectionHeading line = some heading)
    (found : List (Str × Str)) (rest : List Str) :
    sectionsFrom found none (line :: rest) = sectionsFrom found (some (heading, [])) rest := by
  simp only [sectionsFrom, h]

theorem sectionsFrom_heading {line heading : Str} (h : sectionHeading line = some heading)
    (found : List (Str × Str)) (name : Str) (body rest : List Str) :
    sectionsFrom found (some (name, body)) (line :: rest) =
      sectionsFrom (setItem found name (join (cp '\n') body)) (some (heading, [])) rest := by
  simp only [sectionsFrom, h]

/-- Lines without a heading go to the section that is open. -/
theorem sectionsFrom_append {above : List Str} (h : ∀ line ∈ above, sectionHeading line = none)
    (found : List (Str × Str)) (current : Option (Str × List Str)) (rest : List Str) :
    sectionsFrom found current (above ++ rest) =
      sectionsFrom found (current.map fun entry ↦ (entry.1, entry.2 ++ above)) rest := by
  induction above generalizing current with
  | nil => cases current <;> simp
  | cons line above ih =>
    rw [List.cons_append, sectionsFrom_line (h line List.mem_cons_self),
      ih fun other hother ↦ h other (List.mem_cons_of_mem _ hother)]
    cases current <;> simp

/-- An empty line at the end changes no answer about a section. -/
theorem answers_sectionsFrom_concat_nil (found : List (Str × Str))
    (current : Option (Str × List Str)) (ls : List Str) :
    answers (sectionsFrom found current (ls ++ [[]])) =
      answers (sectionsFrom found current ls) := by
  induction ls generalizing found current with
  | nil =>
    rw [List.nil_append, sectionsFrom_line rfl]
    cases current with
    | none => rfl
    | some entry =>
      rw [Option.map_some, sectionsFrom, sectionsFrom, answers_setItem, answers_setItem,
        blank_shown_concat_nil]
  | cons line ls ih =>
    rw [List.cons_append]
    cases hheading : sectionHeading line with
    | none => rw [sectionsFrom_line hheading, sectionsFrom_line hheading, ih]
    | some heading =>
      cases current with
      | none => rw [sectionsFrom_first hheading, sectionsFrom_first hheading, ih]
      | some entry => rw [sectionsFrom_heading hheading, sectionsFrom_heading hheading, ih]

theorem answers_sections (text : Str) :
    answers (sections text) = answers (sectionsFrom [] none (lines text)) := by
  rcases lines_eq_splitLines text with h | h
  · rw [sections, h]
  · rw [sections, h, answers_sectionsFrom_concat_nil]

/-! ## Stretches between the headings -/

/-- The lines above the first heading, and each heading line with the lines below it. -/
def cut : List Str → List Str × List (Str × List Str)
  | [] => ([], [])
  | line :: rest =>
    match sectionHeading line with
    | some _ => ([], (line, (cut rest).1) :: (cut rest).2)
    | none => (line :: (cut rest).1, (cut rest).2)

/-- The lines of the stretches, one stretch after the other. -/
def glue (above : List Str) (stretches : List (Str × List Str)) : List Str :=
  above ++ stretches.flatMap fun stretch ↦ stretch.1 :: stretch.2

/-- The stretches are cut at the headings and nowhere else. -/
structure AtHeadings (above : List Str) (stretches : List (Str × List Str)) : Prop where
  above : ∀ line ∈ above, sectionHeading line = none
  heading : ∀ stretch ∈ stretches, sectionHeading stretch.1 ≠ none
  body : ∀ stretch ∈ stretches, ∀ line ∈ stretch.2, sectionHeading line = none

theorem glue_cut (ls : List Str) : glue (cut ls).1 (cut ls).2 = ls := by
  induction ls with
  | nil => rfl
  | cons line rest ih =>
    rw [cut]
    split
    · exact congrArg (line :: ·) ih
    · exact congrArg (line :: ·) ih

theorem atHeadings_cut (ls : List Str) : AtHeadings (cut ls).1 (cut ls).2 := by
  induction ls with
  | nil => exact ⟨by simp [cut], by simp [cut], by simp [cut]⟩
  | cons line rest ih =>
    rw [cut]
    split
    · next heading hheading =>
      refine ⟨by simp, ?_, ?_⟩
      · exact List.forall_mem_cons.mpr ⟨by rw [hheading]; exact Option.some_ne_none _, ih.heading⟩
      · exact List.forall_mem_cons.mpr ⟨ih.above, ih.body⟩
    · next hheading => exact ⟨List.forall_mem_cons.mpr ⟨hheading, ih.above⟩, ih.heading, ih.body⟩

/-- One section more, with whether its body is empty. -/
def answer (found : List (Str × Bool)) (stretch : Str × List Str) : List (Str × Bool) :=
  setItem found ((sectionHeading stretch.1).getD []) (blank (shown stretch.2))

theorem answers_sectionsFrom_open {stretches : List (Str × List Str)} {above : List Str}
    (h : AtHeadings above stretches) (found : List (Str × Str)) (name : Str) :
    answers (sectionsFrom found (some (name, [])) (glue above stretches)) =
      stretches.foldl answer (setItem (answers found) name (blank (shown above))) := by
  induction stretches generalizing above found name with
  | nil =>
    rw [glue, sectionsFrom_append h.above]
    exact answers_setItem found name _
  | cons stretch stretches ih =>
    obtain ⟨hhead, htail⟩ := List.forall_mem_cons.mp h.heading
    obtain ⟨hbody, hbodies⟩ := List.forall_mem_cons.mp h.body
    obtain ⟨heading, hheading⟩ := Option.ne_none_iff_exists'.mp hhead
    have hglue : glue above (stretch :: stretches) =
        above ++ stretch.1 :: glue stretch.2 stretches := rfl
    rw [hglue, sectionsFrom_append h.above]
    refine (congrArg answers (sectionsFrom_heading hheading found name _ _)).trans ?_
    rw [ih ⟨hbody, htail, hbodies⟩, answers_setItem, List.foldl_cons, answer, hheading]
    rfl

/-- What a text of these stretches answers. -/
theorem answers_sectionsFrom_glue {above : List Str} {stretches : List (Str × List Str)}
    (h : AtHeadings above stretches) :
    answers (sectionsFrom [] none (glue above stretches)) = stretches.foldl answer [] := by
  rw [glue, sectionsFrom_append h.above]
  cases stretches with
  | nil => rfl
  | cons stretch stretches =>
    obtain ⟨hhead, htail⟩ := List.forall_mem_cons.mp h.heading
    obtain ⟨hbody, hbodies⟩ := List.forall_mem_cons.mp h.body
    obtain ⟨heading, hheading⟩ := Option.ne_none_iff_exists'.mp hhead
    refine (congrArg answers (sectionsFrom_first hheading [] _)).trans ?_
    refine (answers_sectionsFrom_open ⟨hbody, htail, hbodies⟩ [] heading).trans ?_
    rw [List.foldl_cons, answer, hheading]
    rfl

/-- Comments keep to the stretch they are in: deleting those of each stretch deletes those of the
text, and leaves neither a new heading nor a comment. -/
structure CommentsApart (text : Str) : Prop where
  apart : shown (lines text) = shown (cut (lines text)).1 ++
    (cut (lines text)).2.flatMap fun stretch ↦ stretch.1 ++ cp '\n' :: shown stretch.2
  above : ∀ line ∈ shownLines (cut (lines text)).1, sectionHeading line = none
  body : ∀ stretch ∈ (cut (lines text)).2, ∀ line ∈ shownLines stretch.2,
    sectionHeading line = none
  settled : ∀ stretch ∈ (cut (lines text)).2,
    withoutComments (shown stretch.2) = shown stretch.2

instance (text : Str) : Decidable (CommentsApart text) :=
  decidable_of_iff
    ((shown (lines text) = shown (cut (lines text)).1 ++
        (cut (lines text)).2.flatMap fun stretch ↦ stretch.1 ++ cp '\n' :: shown stretch.2) ∧
      (∀ line ∈ shownLines (cut (lines text)).1, sectionHeading line = none) ∧
      (∀ stretch ∈ (cut (lines text)).2, ∀ line ∈ shownLines stretch.2,
        sectionHeading line = none) ∧
      ∀ stretch ∈ (cut (lines text)).2, withoutComments (shown stretch.2) = shown stretch.2)
    ⟨fun ⟨apart, above, body, settled⟩ ↦ ⟨apart, above, body, settled⟩,
      fun ⟨apart, above, body, settled⟩ ↦ ⟨apart, above, body, settled⟩⟩

/-- The stretch as it is shown, under its heading line. -/
def shownStretch (stretch : Str × List Str) : Str × List Str := (stretch.1, shownLines stretch.2)

theorem lines_flatMap_stretches {stretches : List (Str × List Str)}
    (h : ∀ stretch ∈ stretches, stretch.1.any isLineBreak = false) :
    lines (stretches.flatMap fun stretch ↦ stretch.1 ++ cp '\n' :: shown stretch.2) =
      glue [] (stretches.map shownStretch) ++ [[]] := by
  induction stretches with
  | nil => rfl
  | cons stretch stretches ih =>
    obtain ⟨hline, hrest⟩ := List.forall_mem_cons.mp h
    rw [List.flatMap_cons, List.append_assoc, List.cons_append,
      lines_append_break isLineBreak_lineFeed, lines_line hline, lines_append (ended_shown _),
      ih hrest]
    simp [glue, shownStretch, shownLines]

/-- The text without comments has the lines that its stretches show. -/
theorem lines_withoutComments {text : Str} (h : CommentsApart text) :
    lines (withoutComments text) = glue (shownLines (cut (lines text)).1)
      ((cut (lines text)).2.map shownStretch) := by
  have hheadings : ∀ stretch ∈ (cut (lines text)).2, stretch.1.any isLineBreak = false := by
    intro stretch hstretch
    have hmem : stretch.1 ∈ lines text := by
      rw [← glue_cut (lines text), glue]
      exact List.mem_append_right _ (List.mem_flatMap.mpr ⟨stretch, hstretch, List.mem_cons_self⟩)
    exact line_of_mem_lines hmem
  have hwhole : shown (lines text) = lineFeeds (withoutComments text) ++ [cp '\n'] := by
    rw [shown, unlines_lines, withoutComments_append_break isLineBreak_lineFeed,
      withoutComments_lineFeeds]
  have hlines := congrArg lines (hwhole.symm.trans h.apart)
  rw [lines_append_break isLineBreak_lineFeed, lines_lineFeeds, lines_append (ended_shown _),
    lines_flatMap_stretches hheadings] at hlines
  refine List.append_cancel_right (hlines.trans ?_)
  rw [glue, List.nil_append, glue, List.append_assoc]
  rfl

/-- Both texts answer the same about their sections. -/
theorem answers_sections_withoutComments {text : Str} (h : CommentsApart text) :
    answers (sections (withoutComments text)) = answers (sections text) := by
  have hcut := atHeadings_cut (lines text)
  have hshown : AtHeadings (shownLines (cut (lines text)).1)
      ((cut (lines text)).2.map shownStretch) :=
    ⟨h.above, List.forall_mem_map.mpr hcut.heading, List.forall_mem_map.mpr h.body⟩
  rw [answers_sections, answers_sections, lines_withoutComments h, answers_sectionsFrom_glue hshown,
    List.foldl_map]
  conv_rhs => rw [← glue_cut (lines text), answers_sectionsFrom_glue hcut]
  refine List.foldl_ext _ _ _ fun found stretch hstretch ↦ ?_
  rw [answer, answer]
  exact congrArg _ (blank_shown_shownLines (h.settled stretch hstretch))

/-! ## The check -/

/-- The sections found, under their names in lower case. -/
def lowerKeys {α : Type*} (found : List (Str × α)) : List (Str × α) :=
  found.foldl (fun lowered entry ↦ setItem lowered (asciiLower entry.1) entry.2) []

theorem answers_lowerKeys (found : List (Str × Str)) :
    answers (lowerKeys found) = lowerKeys (answers found) := by
  have hfrom : ∀ lowered : List (Str × Str),
      answers (found.foldl (fun lowered entry ↦ setItem lowered (asciiLower entry.1) entry.2)
          lowered) =
        (answers found).foldl (fun lowered entry ↦ setItem lowered (asciiLower entry.1) entry.2)
          (answers lowered) := by
    induction found with
    | nil => exact fun lowered ↦ rfl
    | cons entry found ih =>
      intro lowered
      rw [List.foldl_cons, ih]
      exact congrArg (List.foldl _ · _) (setItem_map isEmptySection lowered _ _)
  exact hfrom []

theorem lookup_answers (found : List (Str × Str)) (key : Str) :
    (answers found).lookup key = (found.lookup key).map isEmptySection := by
  induction found with
  | nil => rfl
  | cons entry found ih =>
    rw [answers, List.map_cons, List.lookup_cons, List.lookup_cons]
    cases key == entry.1 with
    | true => rfl
    | false => exact ih

/-- The check reads of each section only whether it is empty. -/
theorem checkDocs_congr {display : Display} {doc doc' : FileState} {text text' : Str}
    (hdoc : readText doc = .ok text) (hdoc' : readText doc' = .ok text')
    (h : answers (sections text') = answers (sections text)) :
    checkDocs display doc' = checkDocs display doc := by
  have hlookup (key : Str) : ((lowerKeys (sections text')).lookup key).map isEmptySection =
      ((lowerKeys (sections text)).lookup key).map isEmptySection := by
    rw [← lookup_answers, ← lookup_answers, answers_lowerKeys, answers_lowerKeys, h]
  have hmissing : (requiredSections.filter fun s ↦
        ((lowerKeys (sections text')).lookup (asciiLower s)).isNone) =
      requiredSections.filter fun s ↦
        ((lowerKeys (sections text)).lookup (asciiLower s)).isNone :=
    List.filter_congr fun s _ ↦ by
      have hsame := congrArg Option.isNone (hlookup (asciiLower s))
      rwa [Option.isNone_map, Option.isNone_map] at hsame
  have hblank : (requiredSections.filter fun s ↦
        ((lowerKeys (sections text')).lookup (asciiLower s)).any isEmptySection) =
      requiredSections.filter fun s ↦
        ((lowerKeys (sections text)).lookup (asciiLower s)).any isEmptySection :=
    List.filter_congr fun s _ ↦ by
      have hsame := congrArg (Option.any id) (hlookup (asciiLower s))
      rwa [Option.any_map, Option.any_map] at hsame
  unfold lowerKeys at hmissing hblank
  simp only [checkDocs, hdoc, hdoc', recast, bind, Except.bind, hmissing, hblank]

/-- When comments keep to their stretches, a documentation passes the check exactly when it passes
without its comments. -/
theorem checkDocs_withoutComments (display : Display) {doc doc' : FileState} {text : Str}
    (hdoc : readText doc = .ok text) (hdoc' : readText doc' = .ok (withoutComments text))
    (h : CommentsApart text) :
    checkDocs display doc = .ok () ↔ checkDocs display doc' = .ok () := by
  rw [checkDocs_congr hdoc hdoc' (answers_sections_withoutComments h)]

/-- A documentation on disk, in ASCII. -/
def docOf (text : String) : FileState := .content (text.toList.map fun c ↦ c.toNat.toUInt8)

/-- A display that finds nothing printable. -/
def bareDisplay : Display where
  reprFloat _ := []
  printable _ := false

/-- A documentation with comments within two of its sections. -/
def annotatedDoc : String :=
  "## Purpose\nx <!-- y\n -->\n## Dependencies\n<!-- -->x\n" ++
    "## Dependents\nx\n## Failure modes\nx\n## Behavioral contracts\nx"

def annotatedDocShown : String :=
  "## Purpose\nx \n## Dependencies\nx\n" ++
    "## Dependents\nx\n## Failure modes\nx\n## Behavioral contracts\nx"

theorem checkDocs_withoutComments_annotated :
    readText (docOf annotatedDoc) = .ok (str annotatedDoc) ∧
      readText (docOf annotatedDocShown) = .ok (withoutComments (str annotatedDoc)) ∧
      CommentsApart (str annotatedDoc) ∧ checkDocs bareDisplay (docOf annotatedDoc) = .ok () :=
  have hdoc : readText (docOf annotatedDoc) = .ok (str annotatedDoc) := by decide +kernel
  have hdoc' : readText (docOf annotatedDocShown) = .ok (withoutComments (str annotatedDoc)) := by
    decide +kernel
  have hapart : CommentsApart (str annotatedDoc) := by decide +kernel
  have hshown : checkDocs bareDisplay (docOf annotatedDocShown) = .ok () := by decide +kernel
  ⟨hdoc, hdoc', hapart, (checkDocs_withoutComments bareDisplay hdoc hdoc' hapart).mpr hshown⟩

/-- All of this documentation is one comment. -/
def hiddenDoc : String :=
  "<!--\n## Purpose\nx\n## Dependencies\nx\n## Dependents\nx\n## Failure modes\nx\n" ++
    "## Behavioral contracts\nx\n-->"

/-- Nothing is left of it without comments, and it passes. -/
theorem checkDocs_reads_hidden_headings :
    ¬ ∀ (display : Display) (doc doc' : FileState) (text : Str), readText doc = .ok text →
      readText doc' = .ok (withoutComments text) →
      (checkDocs display doc = .ok () ↔ checkDocs display doc' = .ok ()) := by
  intro h
  have hdoc : readText (docOf hiddenDoc) = .ok (str hiddenDoc) := by decide +kernel
  have hdoc' : readText (docOf "") = .ok (withoutComments (str hiddenDoc)) := by decide +kernel
  have hpasses : checkDocs bareDisplay (docOf hiddenDoc) = .ok () := by decide +kernel
  have hrefused : checkDocs bareDisplay (docOf "") ≠ .ok () := by decide +kernel
  exact hrefused ((h bareDisplay _ _ _ hdoc hdoc').mp hpasses)

end DatumSync.Repository
