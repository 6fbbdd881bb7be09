import DatumSync.Python.JsonLoads

/-!
# Integers and base64 in text

`int(text)` takes the decimal digits of every script, an underscore between two digits, a sign and
white space around the number.  `base64.urlsafe_b64decode` skips characters outside its alphabet and
stops at the padding that completes a group.
-/

namespace DatumSync.Python

/-- The zeros of the decimal digits (category `Nd`), each followed by the digits up to nine. -/
def decimalZeros : List ℕ :=
  [0x30, 0x660, 0x6F0, 0x7C0, 0x966, 0x9E6, 0xA66, 0xAE6, 0xB66, 0xBE6, 0xC66, 0xCE6, 0xD66, 0xDE6,
    0xE50, 0xED0, 0xF20, 0x1040, 0x1090, 0x17E0, 0x1810, 0x1946, 0x19D0, 0x1A80, 0x1A90, 0x1B50,
    0x1BB0, 0x1C40, 0x1C50, 0xA620, 0xA8D0, 0xA900, 0xA9D0, 0xA9F0, 0xAA50, 0xABF0, 0xFF10, 0x104A0,
    0x10D30, 0x11066, 0x110F0, 0x11136, 0x111D0, 0x112F0, 0x11450, 0x114D0, 0x11650, 0x116C0,
    0x11730, 0x118E0, 0x11950, 0x11C50, 0x11D50, 0x11DA0, 0x11F50, 0x16A60, 0x16AC0, 0x16B50,
    0x1D7CE, 0x1D7D8, 0x1D7E2, 0x1D7EC, 0x1D7F6, 0x1E140, 0x1E2F0, 0x1E4F0, 0x1E950, 0x1FBF0]

/-- `unicodedata.decimal(c)`, which is also what `\d` matches. -/
def decimalValue (c : CodePoint) : Option ℕ :=
  (decimalZeros.find? fun base ↦ decide (base ≤ c.val ∧ c.val < base + 10)).map (c.val - ·)

/-- `int(digits)` of a text of decimal digits. -/
def decimalsValue (digits : Str) : ℕ :=
  digits.foldl (fun n c ↦ n * 10 + (decimalValue c).getD 0) 0

/-- The white space that `int` skips once the text is ASCII. -/
def isNumberSpace (c : CodePoint) : Bool := c == cp ' ' || decide (9 ≤ c.val ∧ c.val ≤ 13)

/-- A character as `int` reads it: white space and decimal digits of any script in ASCII, and a
question mark for what is in no number. -/
def asciiNumeral (c : CodePoint) : CodePoint :=
  if c.val < 127 then c
  else if isSpace c then cp ' '
  else match decimalValue c with
    | some d => Fin.ofNat _ (0x30 + d)
    | none => cp '?'

/-- Digits in groups that underscores separate. -/
def isNumeral (s : Str) : Bool := (split (cp '_') s).all fun part ↦ part ≠ [] && part.all isDigit

/-- `int(text)`; undefined where it raises `ValueError`. -/
def parseInt (text : Str) : Option ℤ :=
  let s := ((text.map asciiNumeral).dropWhile isNumberSpace).rdropWhile isNumberSpace
  let (negative, numeral) := match s with
    | sign :: rest =>
      if sign = cp '-' then (true, rest) else if sign = cp '+' then (false, rest) else (false, s)
    | [] => (false, s)
  let digits := numeral.filter (· ≠ cp '_')
  if isNumeral numeral && decide (digits.length ≤ intMaxStrDigits) then
    some (if negative then -(digitsValue digits : ℤ) else digitsValue digits)
  else none

/-- `ValueError` and the two `binascii.Error`s of base64. -/
inductive Base64Error where
  | notAscii
  | oneMore (characters : ℕ)
  | padding
  deriving DecidableEq

def Base64Error.message : Base64Error → Str
  | notAscii => str "string argument should contain only ASCII characters"
  | oneMore characters =>
    str "Invalid base64-encoded string: number of data characters (" ++ decimal characters ++
      str ") cannot be 1 more than a multiple of 4"
  | padding => str "Incorrect padding"

/-- The six bits of a character of either alphabet. -/
def base64Value (c : CodePoint) : Option ℕ :=
  if 0x41 ≤ c.val ∧ c.val ≤ 0x5A then some (c.val - 0x41)
  else if 0x61 ≤ c.val ∧ c.val ≤ 0x7A then some (c.val - 0x61 + 26)
  else if isDigit c then some (c.val - 0x30 + 52)
  else if c = cp '+' ∨ c = cp '-' then some 62
  else if c = cp '/' ∨ c = cp '_' then some 63
  else none

/-- `binascii.a2b_base64`: the place in the group of four, the bits left over from the character
before, the padding since then, and the bytes so far. -/
def decodeGroups : (place left pads : ℕ) → List UInt8 → Str → Except Base64Error (List UInt8)
  | place, _, _, bytes, [] =>
    if place = 0 then .ok bytes
    else if place = 1 then .error (.oneMore (bytes.length / 3 * 4 + 1))
    else .error .padding
  | place, left, pads, bytes, c :: rest =>
    if c = cp '=' then
      if 2 ≤ place then
        if 4 ≤ place + (pads + 1) then .ok bytes else decodeGroups place left (pads + 1) bytes rest
      else decodeGroups place left pads bytes rest
    else match base64Value c with
      | none => decodeGroups place left pads bytes rest
      | some v =>
        match place with
        | 0 => decodeGroups 1 v 0 bytes rest
        | 1 => decodeGroups 2 (v % 16) 0 (bytes ++ [UInt8.ofNat (left * 4 + v / 16)]) rest
        | 2 => decodeGroups 3 (v % 4) 0 (bytes ++ [UInt8.ofNat (left * 16 + v / 4)]) rest
        | _ => decodeGroups 0 0 0 (bytes ++ [UInt8.ofNat (left * 64 + v)]) rest

def urlsafeB64decode (text : Str) : Except Base64Error (List UInt8) :=
  if text.all fun c ↦ decide (c.val < 0x80) then decodeGroups 0 0 0 [] text else .error .notAscii

end DatumSync.Python
