import DatumSync.Python.JsonDumps
import DatumSync.Python.Numbers

/-!
# Values as text, and compared

`str(v)`, `repr(v)` and `==` of the values that JSON gives.  An integer of more digits than the
interpreter's limit has no text.  What Python looks up is a parameter: the shortest text of a float
and the characters that Unicode counts as printable.
-/

namespace DatumSync.Python

/-- What `repr` looks up. -/
structure Display where
  reprFloat : PyFloat → Str
  printable : CodePoint → Bool

/-! ## Text -/

/-- A character inside a text's `repr`. -/
def Display.reprChar (display : Display) (quote c : CodePoint) : Str :=
  if c = quote ∨ c = cp '\\' then [cp '\\', c]
  else if c = cp '\t' then str "\\t"
  else if c = cp '\n' then str "\\n"
  else if c = cp '\r' then str "\\r"
  else if c.val < 0x20 ∨ c.val = 0x7F then str "\\x" ++ lowerHexDigits 2 c.val
  else if c.val < 0x7F ∨ display.printable c = true then [c]
  else if c.val ≤ 0xFF then str "\\x" ++ lowerHexDigits 2 c.val
  else if c.val ≤ 0xFFFF then str "\\u" ++ lowerHexDigits 4 c.val
  else str "\\U" ++ lowerHexDigits 8 c.val

/-- `repr(s)`: double quotes only around a text that has single quotes and no double ones. -/
def Display.reprText (display : Display) (s : Str) : Str :=
  let quote := if cp '\'' ∈ s ∧ cp '"' ∉ s then cp '"' else cp '\''
  quote :: (s.flatMap (display.reprChar quote) ++ [quote])

/-- `repr(texts)` of a list of texts. -/
def Display.reprTexts (display : Display) (texts : List Str) : Str :=
  [cp '['] ++ (str ", ").intercalate (texts.map display.reprText) ++ [cp ']']

/-- `repr(v)` where every integer has a text. -/
def Display.reprValue (display : Display) : Json → Str
  | .null => str "None"
  | .bool true => str "True"
  | .bool false => str "False"
  | .int n => decimal n
  | .float x => display.reprFloat x
  | .text s => display.reprText s
  | .arr items => cp '[' :: ((str ", ").intercalate (reprItems items) ++ [cp ']'])
  | .obj fields => cp '\x7b' :: ((str ", ").intercalate (reprFields fields) ++ [cp '\x7d'])
where
  reprItems : List Json → List Str
    | [] => []
    | v :: rest => Display.reprValue display v :: reprItems rest
  reprFields : List (Str × Json) → List Str
    | [] => []
    | (k, v) :: rest =>
      (display.reprText k ++ str ": " ++ Display.reprValue display v) :: reprFields rest

/-- Whether an integer is within the limit on digits. -/
def hasText (n : ℤ) : Bool := decide ((digitsOf n.natAbs).length ≤ intMaxStrDigits)

namespace Json

/-- Whether every integer of a value is within the limit on digits. -/
def hasText : Json → Bool
  | int n => Python.hasText n
  | arr items => hasTextItems items
  | obj fields => hasTextFields fields
  | _ => true
where
  hasTextItems : List Json → Bool
    | [] => true
    | v :: rest => hasText v && hasTextItems rest
  hasTextFields : List (Str × Json) → Bool
    | [] => true
    | (_, v) :: rest => hasText v && hasTextFields rest

/-- `repr(v)`; undefined where it raises `ValueError`. -/
def reprOf (display : Display) (v : Json) : Option Str :=
  if v.hasText then some (display.reprValue v) else none

/-- `str(v)`; undefined where it raises `ValueError`. -/
def strOf (display : Display) (v : Json) : Option Str :=
  match v with
  | text s => some s
  | v => v.reprOf display

/-- The text of a value that is no text is its `repr`. -/
theorem strOf_eq_some {display : Display} {v : Json} {s : Str} (hv : v.isText = false) :
    v.strOf display = some s ↔ v.hasText = true ∧ display.reprValue v = s := by
  have hrepr : v.strOf display = v.reprOf display := by
    cases v with
    | text s => cases hv
    | _ => rfl
  rw [hrepr, reprOf]
  split
  · next hlimit => simp [hlimit]
  · next hlimit => simp [hlimit]

/-! ## Equality -/

/-- The number that a bool, an int or a finite float is. -/
def number : Json → Option ℚ
  | bool b => some (if b then 1 else 0)
  | int n => some n
  | float x => x.value
  | _ => none

def equals : Json → Json → Bool
  | null, null => true
  | text s, text t => s == t
  | float (.infinite s), float (.infinite t) => s == t
  | arr as, arr bs => equalsItems as bs
  | obj as, obj bs => as.length == bs.length && equalsFields as bs
  | a, b =>
    match a.number, b.number with
    | some x, some y => x == y
    | _, _ => false
where
  equalsItems : List Json → List Json → Bool
    | [], [] => true
    | a :: as, b :: bs => equals a b && equalsItems as bs
    | _, _ => false
  equalsFields : List (Str × Json) → List (Str × Json) → Bool
    | [], _ => true
    | (k, a) :: as, bs =>
      (match bs.lookup k with
        | some b => equals a b
        | none => false) && equalsFields as bs

/-- What equals a number is that number. -/
theorem equals_number {a b : Json} {q : ℚ} (hb : b.number = some q) :
    a.equals b = true ↔ a.number = some q := by
  have hmatch : (match a.number, b.number with
      | some x, some y => x == y
      | _, _ => false) = true ↔ a.number = some q := by
    rw [hb]
    cases a.number with
    | none => simp
    | some x => simp
  cases b with
  | null => cases hb
  | text s => cases hb
  | arr items => cases hb
  | obj fields => cases hb
  | bool b =>
    cases a with
    | float x => cases x <;> exact hmatch
    | _ => exact hmatch
  | int n =>
    cases a with
    | float x => cases x <;> exact hmatch
    | _ => exact hmatch
  | float y =>
    cases y with
    | nan => cases hb
    | infinite s => cases hb
    | finite s m e =>
      cases a with
      | float x => cases x <;> exact hmatch
      | _ => exact hmatch

theorem equalsFields_iff {as bs : List (Str × Json)} :
    equals.equalsFields as bs = true ↔
      ∀ entry ∈ as, ∃ b, bs.lookup entry.1 = some b ∧ entry.2.equals b = true := by
  induction as with
  | nil => exact iff_of_true rfl (List.forall_mem_nil _)
  | cons entry as ih =>
    obtain ⟨k, a⟩ := entry
    rw [equals.equalsFields, Bool.and_eq_true, ih, List.forall_mem_cons]
    refine and_congr_left fun _ ↦ ?_
    dsimp only
    cases bs.lookup k with
    | none => simp
    | some b => simp

end Json

/-! ## Texts that are no numbers -/

theorem startsNoNumber_bracket : startsNoNumber (cp '[') = true := by decide

theorem startsNoNumber_brace : startsNoNumber (cp '\x7b') = true := by decide

/-- The text of a list or a dict is a bracket and more. -/
theorem strip_container {c : CodePoint} (hc : startsNoNumber c = true) (rest : Str) :
    ∃ after, strip (c :: rest) = c :: after ∧ scanFloat (c :: after) = none ∧
      parseInt (c :: after) = none := by
  have hspace : isSpace c = false := by
    simp only [startsNoNumber, Bool.and_eq_true, Bool.not_eq_true'] at hc
    exact hc.1.1.1.1.1
  obtain ⟨after, hafter⟩ := strip_cons hspace rest
  exact ⟨after, hafter, scanFloat_of_startsNoNumber hc after, parseInt_of_startsNoNumber hc after⟩

namespace Json

/-- A value that is neither a number nor a text. -/
def isOther : Json → Bool
  | null => true
  | bool _ => true
  | arr _ => true
  | obj _ => true
  | _ => false

/-- Its text spells no number. -/
theorem strOf_isOther {display : Display} {v : Json} {s : Str} (hv : v.isOther = true)
    (h : v.strOf display = some s) : scanFloat (strip s) = none ∧ parseInt (strip s) = none := by
  have htext : v.isText = false := by
    cases v <;> first | rfl | cases hv
  obtain ⟨-, rfl⟩ := (strOf_eq_some htext).mp h
  cases v with
  | null =>
    rw [Display.reprValue]
    decide
  | bool b =>
    cases b with
    | false =>
      rw [Display.reprValue]
      decide
    | true =>
      rw [Display.reprValue]
      decide
  | int n => cases hv
  | float x => cases hv
  | text s => cases hv
  | arr items =>
    obtain ⟨after, hafter, hfloat, hint⟩ := strip_container startsNoNumber_bracket
      ((str ", ").intercalate (Display.reprValue.reprItems display items) ++ [cp ']'])
    rw [Display.reprValue, hafter]
    exact ⟨hfloat, hint⟩
  | obj fields =>
    obtain ⟨after, hafter, hfloat, hint⟩ := strip_container startsNoNumber_brace
      ((str ", ").intercalate (Display.reprValue.reprFields display fields) ++ [cp '\x7d'])
    rw [Display.reprValue, hafter]
    exact ⟨hfloat, hint⟩

end Json

end DatumSync.Python
