import DatumSync.Errors

/-!
# Placeholders in action texts

`{{name}}` with a name of letters, digits, underscores and dots.  The characters a name may have,
whitespace and braces are disjoint, so the regular expression has at most one match from a position
and scanning for it needs no backtracking.
-/

namespace DatumSync.Automations

open Python

def automationError (message : Str) : Exc := .raised .automationError message

/-- `[a-zA-Z0-9_.]` -/
def isNameChar (c : CodePoint) : Bool :=
  isDigit c || decide (0x41 ≤ c.val ∧ c.val ≤ 0x5A) || decide (0x61 ≤ c.val ∧ c.val ≤ 0x7A) ||
    c == cp '_' || c == cp '.'

/-- The match of `_PLACEHOLDER` from the front of a text: the name, and what follows. -/
def placeholderAt (s : Str) : Option (Str × Str) :=
  if startsWith s (str "\x7b\x7b") then
    let inner := (s.drop 2).dropWhile isSpace
    let name := inner.takeWhile isNameChar
    let rest := (inner.dropWhile isNameChar).dropWhile isSpace
    if name ≠ [] ∧ startsWith rest (str "\x7d\x7d") then some (name, rest.drop 2) else none
  else none

/-- `_PLACEHOLDER.findall`; `fuel` is the length of the text. -/
def findPlaceholders : ℕ → Str → List Str
  | 0, _ => []
  | _, [] => []
  | fuel + 1, c :: rest =>
    match placeholderAt (c :: rest) with
    | some (name, after) => name :: findPlaceholders fuel after
    | none => findPlaceholders fuel rest

def placeholders (text : Str) : List Str := findPlaceholders text.length text

def jobFields : List Str :=
  [str "id", str "repository", str "workspace", str "status", str "error", str "submitted_by",
    str "submitted_at", str "completed_at"]

/-- A name `_context` can hold. -/
def isKnownName (name : Str) : Bool :=
  startsWith name (str "params.") ||
    (startsWith name (str "job.") && decide (name.drop 4 ∈ jobFields))

def checkNames (origin : Str) : List Str → Except Exc Unit
  | [] => .ok ()
  | name :: rest =>
    if isKnownName name then checkNames origin rest
    else .error (automationError (origin ++ str ": \x7b\x7b" ++ name ++
      str "\x7d\x7d is not a value an automation can use; use params.<NAME> or job.<" ++
      join (cp '|') jobFields ++ str ">"))

def checkTemplate (text origin : Str) : Except Exc Unit := checkNames origin (placeholders text)

end DatumSync.Automations
