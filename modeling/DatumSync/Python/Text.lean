import Mathlib.Algebra.GroupWithZero.Nat
import Mathlib.Data.List.DropRight
import Mathlib.Data.List.Lex
import Mathlib.Data.List.SplitBy
import Mathlib.Order.Fin.Basic

/-!
# Python text

A `str` is a list of code points.  Lone surrogates are code points too: JSON escapes and file
names bring them in, and they are what an encoder refuses, so `Char` would be too small.

The string methods used by the service are defined here on code-point lists.  Encoding is strict
UTF-8 and fails on surrogates; decoding replaces every maximal ill-formed part by U+FFFD, as the
`replace` error handler does.
-/

namespace DatumSync.Python

abbrev CodePoint := Fin 0x110000

abbrev Str := List CodePoint

instance codePoint_neZero : NeZero 0x110000 := inferInstance

instance : LawfulBEq CodePoint := inferInstance

instance : LawfulBEq Str := inferInstance

/-- The code point of a character. -/
def cp (c : Char) : CodePoint :=
  ⟨c.toNat, by
    rcases c.valid with h | ⟨_, h⟩
    · exact Nat.lt_trans h (by decide)
    · exact h⟩

def str (s : String) : Str := s.toList.map cp

/-- `str.isspace` of one code point: the characters `str.strip` removes. -/
def isSpace (c : CodePoint) : Bool :=
  decide (9 ≤ c.val ∧ c.val ≤ 13) || decide (28 ≤ c.val ∧ c.val ≤ 32) || c.val == 0x85 ||
    c.val == 0xA0 || c.val == 0x1680 || decide (0x2000 ≤ c.val ∧ c.val ≤ 0x200A) ||
    c.val == 0x2028 || c.val == 0x2029 || c.val == 0x202F || c.val == 0x205F || c.val == 0x3000

def startsWithSpace : Str → Bool
  | [] => false
  | c :: _ => isSpace c

def lstrip (s : Str) : Str := s.dropWhile isSpace

def rstrip (s : Str) : Str := s.rdropWhile isSpace

def strip (s : Str) : Str := rstrip (lstrip s)

def rstripChar (c : CodePoint) (s : Str) : Str := s.rdropWhile (· == c)

def startsWith (s p : Str) : Bool := p.isPrefixOf s

/-- `s.split(sep)` for a one-character separator. -/
def split (sep : CodePoint) (s : Str) : List Str := s.splitOn sep

/-- `sep.join(parts)` for a one-character separator. -/
def join (sep : CodePoint) (parts : List Str) : Str := [sep].intercalate parts

def sortTexts (texts : List Str) : List Str := texts.mergeSort fun a b ↦ decide (a ≤ b)

def commaSorted (texts : List Str) : Str := (str ", ").intercalate (sortTexts texts)

/-- `str(n)` of an integer. -/
def decimal (n : ℤ) : Str := str (toString n)

/-- `s.lower()` on the ASCII letters.  Every use compares against an ASCII word, and no other
character lowers to an ASCII letter of such a word. -/
def asciiLower (s : Str) : Str :=
  s.map fun c ↦ if h : 0x41 ≤ c.val ∧ c.val ≤ 0x5A then ⟨c.val + 32, by omega⟩ else c

/-- `s.upper()` on the characters whose upper case has ASCII letters only; the others are not
changed.  The one use compares against ASCII words. -/
def asciiUpper (s : Str) : Str :=
  s.flatMap fun c ↦
    if h : 0x61 ≤ c.val ∧ c.val ≤ 0x7A then [⟨c.val - 32, by omega⟩]
    else match c.val with
      | 0xDF => str "SS"
      | 0x131 => str "I"
      | 0x17F => str "S"
      | 0xFB00 => str "FF"
      | 0xFB01 => str "FI"
      | 0xFB02 => str "FL"
      | 0xFB03 => str "FFI"
      | 0xFB04 => str "FFL"
      | 0xFB05 => str "ST"
      | 0xFB06 => str "ST"
      | _ => [c]

/-- `d[key] = value` of a dict with text keys; a key that is present keeps its position. -/
def setItem {α : Type*} (entries : List (Str × α)) (key : Str) (value : α) : List (Str × α) :=
  match entries with
  | [] => [(key, value)]
  | entry :: rest =>
    if entry.1 = key then (key, value) :: rest else entry :: setItem rest key value

theorem startsWith_iff {s p : Str} : startsWith s p = true ↔ p <+: s :=
  List.isPrefixOf_iff_prefix

theorem startsWithSpace_append {s : Str} (rest : Str) (h : s ≠ []) :
    startsWithSpace (s ++ rest) = startsWithSpace s := by
  cases s with
  | nil => exact absurd rfl h
  | cons c s => rfl

/-- What no character of a text satisfies is dropped from neither end. -/
theorem dropWhile_rdropWhile_of_forall {p : CodePoint → Bool} {s : Str}
    (h : ∀ c ∈ s, p c = false) : (s.dropWhile p).rdropWhile p = s := by
  have hfront : s.dropWhile p = s := by
    cases s with
    | nil => rfl
    | cons c rest => exact List.dropWhile_cons_of_neg (by simp [h c List.mem_cons_self])
  rw [hfront, List.rdropWhile_eq_self_iff]
  intro hne
  rw [h _ (List.getLast_mem hne)]
  exact Bool.false_ne_true

/-- A text without white space has nothing to strip. -/
theorem strip_eq_self {s : Str} (h : ∀ c ∈ s, isSpace c = false) : strip s = s :=
  dropWhile_rdropWhile_of_forall h

theorem join_split (sep : CodePoint) (s : Str) : join sep (split sep s) = s :=
  List.intercalate_splitOn sep

theorem split_ne_nil (sep : CodePoint) (s : Str) : split sep s ≠ [] := List.splitOn_ne_nil sep s

theorem split_append_cons {sep : CodePoint} {s rest : Str} (h : sep ∉ s) :
    split sep (s ++ sep :: rest) = s :: split sep rest :=
  List.splitOn_append_cons_self_of_not_mem h rest

/-- No part of a split contains the separator. -/
theorem not_mem_of_mem_split {sep : CodePoint} {s part : Str} (h : part ∈ split sep s) :
    sep ∉ part := by
  induction s generalizing part with
  | nil =>
    rw [split, List.splitOn_nil, List.mem_singleton] at h
    simp [h]
  | cons c rest ih =>
    rw [split, List.splitOn_cons_eq_if_modifyHead] at h
    split at h
    · rcases List.mem_cons.mp h with hnil | hrest
      · simp [hnil]
      · exact ih hrest
    · next hsep =>
      cases hparts : rest.splitOn sep with
      | nil => exact absurd hparts (List.splitOn_ne_nil sep rest)
      | cons first others =>
        rw [hparts, List.modifyHead_cons] at h
        have hfirst : sep ∉ first := ih (by rw [split, hparts]; exact List.mem_cons_self)
        rcases List.mem_cons.mp h with heq | hothers
        · rw [heq, List.mem_cons, not_or]
          exact ⟨fun hc ↦ hsep (by rw [hc]; exact beq_self_eq_true _), hfirst⟩
        · exact ih (by rw [split, hparts]; exact List.mem_cons_of_mem _ hothers)

/-- The characters of the parts are characters of the text. -/
theorem mem_of_mem_split {sep c : CodePoint} {s part : Str} (h : part ∈ split sep s)
    (hc : c ∈ part) : c ∈ s := by
  rw [← join_split sep s]
  generalize split sep s = parts at h
  induction parts with
  | nil => exact absurd h List.not_mem_nil
  | cons first others ih =>
    cases others with
    | nil =>
      rw [List.mem_singleton] at h
      simpa [join, ← h] using hc
    | cons second others =>
      rw [join, List.intercalate_cons_cons]
      rcases List.mem_cons.mp h with rfl | hothers
      · exact List.mem_append_left _ (List.mem_append_left _ hc)
      · exact List.mem_append_right _ (ih hothers)

/-- A character of a text is in some part of its split, or is the separator. -/
theorem mem_split {sep c : CodePoint} {s : Str} (hc : c ∈ s) (hne : c ≠ sep) :
    ∃ part ∈ split sep s, c ∈ part := by
  rw [← join_split sep s] at hc
  generalize split sep s = parts at hc
  induction parts with
  | nil => exact absurd hc List.not_mem_nil
  | cons first others ih =>
    cases others with
    | nil => exact ⟨first, List.mem_cons_self, by simpa [join] using hc⟩
    | cons second others =>
      rw [join, List.intercalate_cons_cons, List.mem_append, List.mem_append] at hc
      rcases hc with (hfirst | hsep) | hrest
      · exact ⟨first, List.mem_cons_self, hfirst⟩
      · exact absurd (List.mem_singleton.mp hsep) hne
      · obtain ⟨part, hpart, hmem⟩ := ih hrest
        exact ⟨part, List.mem_cons_of_mem _ hpart, hmem⟩

/-! ## UTF-8 -/

/-- A surrogate code point, which strict UTF-8 does not encode. -/
def isSurrogate (c : CodePoint) : Bool := decide (0xD800 ≤ c.val ∧ c.val ≤ 0xDFFF)

/-- The bytes of one code point that is not a surrogate. -/
def encodeCodePoint (c : CodePoint) : List UInt8 :=
  let n := c.val
  let bytes : List ℕ :=
    if n < 0x80 then [n]
    else if n < 0x800 then [0xC0 + n / 64, 0x80 + n % 64]
    else if n < 0x10000 then [0xE0 + n / 4096, 0x80 + n / 64 % 64, 0x80 + n % 64]
    else [0xF0 + n / 262144, 0x80 + n / 4096 % 64, 0x80 + n / 64 % 64, 0x80 + n % 64]
  bytes.map UInt8.ofNat

/-- `s.encode()`: strict UTF-8, undefined when the text holds a surrogate. -/
def encodeUtf8 (s : Str) : Option (List UInt8) :=
  if s.any isSurrogate then none else some (s.flatMap encodeCodePoint)

/-- U+FFFD, what an ill-formed part is replaced by. -/
def replacement : CodePoint := 0xFFFD

/-- The range of the second byte that a lead byte allows, and how many bytes follow that one. -/
def leadByte (b : UInt8) : Option (ℕ × ℕ × ℕ) :=
  let n := b.toNat
  if 0xC2 ≤ n ∧ n ≤ 0xDF then some (0x80, 0xBF, 0)
  else if n = 0xE0 then some (0xA0, 0xBF, 1)
  else if n = 0xED then some (0x80, 0x9F, 1)
  else if 0xE1 ≤ n ∧ n ≤ 0xEF then some (0x80, 0xBF, 1)
  else if n = 0xF0 then some (0x90, 0xBF, 2)
  else if 0xF1 ≤ n ∧ n ≤ 0xF3 then some (0x80, 0xBF, 2)
  else if n = 0xF4 then some (0x80, 0x8F, 2)
  else none

/-- The payload bits of a lead byte. -/
def leadBits (b : UInt8) : ℕ :=
  let n := b.toNat
  if n < 0xE0 then n % 32 else if n < 0xF0 then n % 16 else n % 8

/-- Where the decoder stands: between characters, or inside one with its bits so far, the range
of the next byte and the number of bytes after that one. -/
inductive DecodeState where
  | start
  | inside (bits low high more : ℕ)

/-- One byte between characters. -/
def decodeStart (b : UInt8) : Str × DecodeState :=
  if b.toNat < 0x80 then ([Fin.ofNat _ b.toNat], .start)
  else match leadByte b with
    | some (low, high, more) => ([], .inside (leadBits b) low high more)
    | none => ([replacement], .start)

/-- One byte: the code points it completes, and the state after it.  A byte out of range ends the
ill-formed part before it and is then read between characters. -/
def decodeByte (state : DecodeState) (b : UInt8) : Str × DecodeState :=
  match state with
  | .start => decodeStart b
  | .inside bits low high more =>
    if low ≤ b.toNat ∧ b.toNat ≤ high then
      let bits := bits * 64 + b.toNat % 64
      match more with
      | 0 => ([Fin.ofNat _ bits], .start)
      | left + 1 => ([], .inside bits 0x80 0xBF left)
    else
      let (out, next) := decodeStart b
      (replacement :: out, next)

/-- `bytes.decode("utf-8", "replace")` -/
def decodeFrom : DecodeState → List UInt8 → Str
  | .start, [] => []
  | .inside .., [] => [replacement]
  | state, b :: rest =>
    let (out, next) := decodeByte state b
    out ++ decodeFrom next rest

def decodeUtf8 (bytes : List UInt8) : Str := decodeFrom .start bytes

end DatumSync.Python
