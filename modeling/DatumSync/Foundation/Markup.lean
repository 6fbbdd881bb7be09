import DatumSync.Python.Text

/-!
# Reading markup

The tags of an HTML text and their attributes, as a browser's tokenizer finds them, one character
after the other.  Text that is escaped stays text wherever it is put, and an escaped attribute value
is read back.  A declaration is read to its end, and of the character references those are known that
escaping writes.
-/

namespace DatumSync.Foundation.Markup

open Python

/-- A tag with its attributes in order, their values as they stand. -/
structure Tag where
  closing : Bool
  name : Str
  attributes : List (Str × Str) := []
  deriving DecidableEq

inductive Mode where
  | text
  | tagOpen
  | endTagOpen
  | declaration
  | tagName (tag : Tag)
  /-- before the name of an attribute -/
  | between (tag : Tag)
  | attributeName (tag : Tag) (name : Str)
  | afterName (tag : Tag) (name : Str)
  | beforeValue (tag : Tag) (name : Str)
  | quoted (quote : CodePoint) (tag : Tag) (name value : Str)
  | unquoted (tag : Tag) (name value : Str)
  | afterValue (tag : Tag)
  deriving DecidableEq

/-- White space in a tag. -/
def isBlank (c : CodePoint) : Bool :=
  c == cp ' ' || c == cp '\t' || c == cp '\n' || c == cp '\r' || c.val == 12

def isLetter (c : CodePoint) : Bool :=
  decide (0x41 ≤ c.val ∧ c.val ≤ 0x5A) || decide (0x61 ≤ c.val ∧ c.val ≤ 0x7A)

def Tag.with (tag : Tag) (name value : Str) : Tag :=
  { tag with attributes := tag.attributes ++ [(asciiLower name, value)] }

/-- What is in front of an attribute. -/
def stepBetween (tag : Tag) (c : CodePoint) : Mode × List Tag :=
  if isBlank c || c == cp '/' then (.between tag, [])
  else if c = cp '>' then (.text, [tag])
  else (.attributeName tag [c], [])

/-- One character: where the reader then is, and the tag that it completes. -/
def step (mode : Mode) (c : CodePoint) : Mode × List Tag :=
  match mode with
  | .text => if c = cp '<' then (.tagOpen, []) else (.text, [])
  | .tagOpen =>
    if c = cp '!' ∨ c = cp '?' then (.declaration, [])
    else if c = cp '/' then (.endTagOpen, [])
    else if isLetter c then (.tagName ⟨false, asciiLower [c], []⟩, [])
    else if c = cp '<' then (.tagOpen, []) else (.text, [])
  | .endTagOpen =>
    if isLetter c then (.tagName ⟨true, asciiLower [c], []⟩, [])
    else if c = cp '>' then (.text, []) else (.declaration, [])
  | .declaration => if c = cp '>' then (.text, []) else (.declaration, [])
  | .tagName tag =>
    if isBlank c || c == cp '/' then (.between tag, [])
    else if c = cp '>' then (.text, [tag])
    else (.tagName { tag with name := tag.name ++ asciiLower [c] }, [])
  | .between tag => stepBetween tag c
  | .attributeName tag name =>
    if isBlank c then (.afterName tag name, [])
    else if c = cp '/' then (.between (tag.with name []), [])
    else if c = cp '>' then (.text, [tag.with name []])
    else if c = cp '=' then (.beforeValue tag name, [])
    else (.attributeName tag (name ++ [c]), [])
  | .afterName tag name =>
    if isBlank c then (.afterName tag name, [])
    else if c = cp '=' then (.beforeValue tag name, [])
    else stepBetween (tag.with name []) c
  | .beforeValue tag name =>
    if isBlank c then (.beforeValue tag name, [])
    else if c = cp '"' ∨ c = cp '\'' then (.quoted c tag name [], [])
    else if c = cp '>' then (.text, [tag.with name []])
    else (.unquoted tag name [c], [])
  | .quoted quote tag name value =>
    if c = quote then (.afterValue (tag.with name value), [])
    else (.quoted quote tag name (value ++ [c]), [])
  | .unquoted tag name value =>
    if isBlank c then (.between (tag.with name value), [])
    else if c = cp '>' then (.text, [tag.with name value])
    else (.unquoted tag name (value ++ [c]), [])
  | .afterValue tag => stepBetween tag c

/-- A text: where the reader then is, and the tags that it has completed. -/
def read : Mode → Str → Mode × List Tag
  | mode, [] => (mode, [])
  | mode, c :: rest =>
    match step mode c with
    | (next, found) =>
      match read next rest with
      | (last, more) => (last, found ++ more)

def tags (text : Str) : List Tag := (read .text text).2

variable {mode next last : Mode} {first second : Str} {found more : List Tag} {s : Str}

theorem read_cons (mode : Mode) (c : CodePoint) (rest : Str) : read mode (c :: rest) =
    ((read (step mode c).1 rest).1, (step mode c).2 ++ (read (step mode c).1 rest).2) := rfl

theorem read_append (mode : Mode) (first second : Str) :
    read mode (first ++ second) = ((read (read mode first).1 second).1,
      (read mode first).2 ++ (read (read mode first).1 second).2) := by
  induction first generalizing mode with
  | nil => rfl
  | cons c rest ih =>
    rw [List.cons_append, read_cons, ih, read_cons]
    exact congrArg (Prod.mk _) (List.append_assoc ..).symm

/-- Pieces that are read one after the other. -/
theorem read_both (h : read mode first = (next, found)) (h' : read next second = (last, more)) :
    read mode (first ++ second) = (last, found ++ more) := by
  rw [read_append, h, h']

/-- A literal is read as the list of its characters, without its bytes. -/
theorem read_str {l : List Char} (h : read .text (l.map cp) = (.text, found)) :
    read .text (str (String.ofList l)) = (.text, found) := by
  rw [str, String.toList_ofList]
  exact h

theorem not_mem_str {c : CodePoint} {l : List Char} (h : c ∉ l.map cp) :
    c ∉ str (String.ofList l) := by
  rw [str, String.toList_ofList]
  exact h

/-! ## Escaping -/

def escapeChar (c : CodePoint) : Str :=
  if c = cp '&' then str "&amp;"
  else if c = cp '<' then str "&lt;"
  else if c = cp '>' then str "&gt;"
  else if c = cp '"' then str "&quot;"
  else if c = cp '\'' then str "&#x27;"
  else [c]

/-- Text for the places of markup where text may stand, as Python's `html.escape` writes it: there the
ampersand is replaced first, so that one pass does the same. -/
def escape (s : Str) : Str := s.flatMap escapeChar

/-- The references that escaping writes, without the ampersand, and what they stand for. -/
def references : List (Str × CodePoint) :=
  [(str "amp;", cp '&'), (str "lt;", cp '<'), (str "gt;", cp '>'), (str "quot;", cp '"'),
    (str "#x27;", cp '\'')]

/-- A text with its references replaced, behind the given number of characters. -/
def unescapeFrom : ℕ → Str → Str
  | _, [] => []
  | skip + 1, _ :: rest => unescapeFrom skip rest
  | 0, c :: rest =>
    if c = cp '&' then
      match references.find? fun reference ↦ startsWith rest reference.1 with
      | some (name, meaning) => meaning :: unescapeFrom name.length rest
      | none => c :: unescapeFrom 0 rest
    else c :: unescapeFrom 0 rest

def unescape (s : Str) : Str := unescapeFrom 0 s

theorem unescapeFrom_length (name rest : Str) :
    unescapeFrom name.length (name ++ rest) = unescapeFrom 0 rest := by
  induction name with
  | nil => rfl
  | cons c name ih => exact ih

theorem unescape_reference {name : Str} {meaning : CodePoint} (h : (name, meaning) ∈ references)
    (rest : Str) : unescape (cp '&' :: name ++ rest) = meaning :: unescape rest := by
  have hfound : references.find? (fun reference ↦ startsWith (name ++ rest) reference.1) =
      some (name, meaning) := by
    simp only [references, List.mem_cons, List.not_mem_nil, or_false] at h
    rcases h with h | h | h | h | h <;> obtain ⟨rfl, rfl⟩ := Prod.mk.inj h <;> rfl
  rw [unescape, List.cons_append, unescapeFrom, if_pos rfl, hfound]
  exact congrArg (meaning :: ·) (unescapeFrom_length name rest)

theorem unescape_escapeChar (c : CodePoint) (rest : Str) :
    unescape (escapeChar c ++ rest) = c :: unescape rest := by
  unfold escapeChar
  split_ifs with hamp hlt hgt hquot happ
  · exact hamp ▸ unescape_reference (by decide) rest
  · exact hlt ▸ unescape_reference (by decide) rest
  · exact hgt ▸ unescape_reference (by decide) rest
  · exact hquot ▸ unescape_reference (by decide) rest
  · exact happ ▸ unescape_reference (by decide) rest
  · rw [List.singleton_append, unescape, unescapeFrom, if_neg hamp]
    rfl

/-- Escaped text is read back. -/
theorem unescape_escape (s : Str) : unescape (escape s) = s := by
  induction s with
  | nil => rfl
  | cons c rest ih =>
    rw [escape, List.flatMap_cons, unescape_escapeChar, ← escape, ih]

/-- Escaped text has nothing that markup is made of. -/
theorem not_mem_escape {c : CodePoint} (hc : c ∈ [cp '<', cp '>', cp '"', cp '\'']) :
    c ∉ escape s := by
  intro hmem
  obtain ⟨x, -, hx⟩ := List.mem_flatMap.mp hmem
  unfold escapeChar at hx
  simp only [List.mem_cons, List.not_mem_nil, or_false] at hc
  split_ifs at hx with h₁ h₂ h₃ h₄ h₅
  · rcases hc with rfl | rfl | rfl | rfl <;> exact absurd hx (by decide)
  · rcases hc with rfl | rfl | rfl | rfl <;> exact absurd hx (by decide)
  · rcases hc with rfl | rfl | rfl | rfl <;> exact absurd hx (by decide)
  · rcases hc with rfl | rfl | rfl | rfl <;> exact absurd hx (by decide)
  · rcases hc with rfl | rfl | rfl | rfl <;> exact absurd hx (by decide)
  · rw [List.mem_singleton] at hx
    rcases hc with rfl | rfl | rfl | rfl
    · exact h₂ hx.symm
    · exact h₃ hx.symm
    · exact h₄ hx.symm
    · exact h₅ hx.symm

/-- Escaped text between tags adds no tag. -/
theorem read_text (h : cp '<' ∉ s) : read .text s = (.text, []) := by
  induction s with
  | nil => rfl
  | cons c rest ih =>
    rw [List.mem_cons, not_or] at h
    rw [read_cons, step, if_neg (Ne.symm h.1), ih h.2]
    rfl

/-- Escaped text in quotes is the value of its attribute. -/
theorem read_quoted {quote : CodePoint} (tag : Tag) (name value : Str) (h : quote ∉ s) :
    read (.quoted quote tag name value) s = (.quoted quote tag name (value ++ s), []) := by
  induction s generalizing value with
  | nil => rw [List.append_nil, read]
  | cons c rest ih =>
    rw [List.mem_cons, not_or] at h
    rw [read_cons, step, if_neg (Ne.symm h.1), ih _ h.2, List.append_assoc, List.singleton_append]
    rfl

end DatumSync.Foundation.Markup
