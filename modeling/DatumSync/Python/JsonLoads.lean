import DatumSync.Python.Json
import Mathlib.Data.Nat.Log

/-!
# `json.loads`

The scanner of Python's `json` module on text that is already decoded.  Besides a value it has
three ways to end: `JSONDecodeError`, the `ValueError` of an integer literal over the digit limit,
and the `RecursionError` of containers nested deeper than the interpreter's limit.  Only the first
is a `JSONDecodeError`, so a caller that catches that class alone lets the other two through.
-/

namespace DatumSync.Python

inductive LoadError where
  | jsonDecodeError
  | digitLimit
  | recursionLimit
  deriving DecidableEq

/-- `sys.get_int_max_str_digits()` -/
def intMaxStrDigits : ℕ := 4300

def skipSpace (s : Str) : Str :=
  s.dropWhile fun c ↦ c == cp ' ' || c == cp '\t' || c == cp '\n' || c == cp '\r'

def isDigit (c : CodePoint) : Bool := decide (0x30 ≤ c.val ∧ c.val ≤ 0x39)

def hexDigit (c : CodePoint) : Option ℕ :=
  if isDigit c then some (c.val - 0x30)
  else if 0x61 ≤ c.val ∧ c.val ≤ 0x66 then some (c.val - 0x57)
  else if 0x41 ≤ c.val ∧ c.val ≤ 0x46 then some (c.val - 0x37)
  else none

/-- The four digits of a `\u` escape. -/
def hexFour : Str → Option (ℕ × Str)
  | a :: b :: c :: d :: rest => do
    let a ← hexDigit a
    let b ← hexDigit b
    let c ← hexDigit c
    let d ← hexDigit d
    some (((a * 16 + b) * 16 + c) * 16 + d, rest)
  | _ => none

/-- The character a one-letter escape stands for. -/
def escaped (c : CodePoint) : Option CodePoint :=
  if c = cp '"' ∨ c = cp '\\' ∨ c = cp '/' then some c
  else if c = cp 'b' then some 8
  else if c = cp 'f' then some 12
  else if c = cp 'n' then some 10
  else if c = cp 'r' then some 13
  else if c = cp 't' then some 9
  else none

/-- A `\u` escape after its `u`; a high and a low surrogate escape in a row make one character. -/
def unicodeEscape (s : Str) : Except LoadError (CodePoint × Str) :=
  match hexFour s with
  | none => .error .jsonDecodeError
  | some (high, rest) =>
    if 0xD800 ≤ high ∧ high ≤ 0xDBFF ∧ startsWith rest (str "\\u") then
      match hexFour (rest.drop 2) with
      | none => .error .jsonDecodeError
      | some (low, after) =>
        if 0xDC00 ≤ low ∧ low ≤ 0xDFFF then
          .ok (Fin.ofNat _ (0x10000 + (high - 0xD800) * 1024 + (low - 0xDC00)), after)
        else .ok (Fin.ofNat _ high, rest)
    else .ok (Fin.ofNat _ high, rest)

/-- A string after its opening quote.  `fuel` bounds the characters left. -/
def scanString : ℕ → Str → Except LoadError (Str × Str)
  | 0, _ => .error .jsonDecodeError
  | _ + 1, [] => .error .jsonDecodeError
  | fuel + 1, c :: rest =>
    if c = cp '"' then .ok ([], rest)
    else if c = cp '\\' then
      match rest with
      | [] => .error .jsonDecodeError
      | e :: after =>
        if e = cp 'u' then do
          let (decoded, after) ← unicodeEscape after
          let (tail, after) ← scanString fuel after
          .ok (decoded :: tail, after)
        else match escaped e with
          | none => .error .jsonDecodeError
          | some decoded => do
            let (tail, after) ← scanString fuel after
            .ok (decoded :: tail, after)
    else if c.val < 0x20 then .error .jsonDecodeError
    else do
      let (tail, after) ← scanString fuel rest
      .ok (c :: tail, after)

def digitsValue (digits : Str) : ℕ := digits.foldl (fun n c ↦ n * 10 + (c.val - 0x30)) 0

/-- The double nearest to `num / den`, ties to even, for positive `num` and `den`. -/
def nearestDouble (negative : Bool) (num den : ℕ) : PyFloat :=
  let scaled (k : ℤ) : ℕ × ℕ :=
    if 0 ≤ k then (num, den * 2 ^ k.toNat) else (num * 2 ^ (-k).toNat, den)
  let k₀ : ℤ := max (-1074) ((Nat.log2 num : ℤ) - Nat.log2 den - 53)
  let k : ℤ := if 2 ^ 53 ≤ (scaled k₀).1 / (scaled k₀).2 then k₀ + 1 else k₀
  let (n, d) := scaled k
  let down := n / d
  let twice := 2 * (n % d)
  let m := if twice < d then down else if d < twice then down + 1 else down + down % 2
  if m = 2 ^ 53 then
    if 971 ≤ k then .infinite negative else .finite negative (2 ^ 52) (k + 1)
  else if 971 < k then .infinite negative else .finite negative m k

/-- `float(text)` of `digits · 10 ^ exponent`. -/
def decimalFloat (negative : Bool) (digits : ℕ) (exponent : ℤ) : PyFloat :=
  let magnitude : ℤ := exponent + (Nat.log 10 digits : ℤ)
  if digits = 0 then .finite negative 0 0
  else if magnitude > 400 then .infinite negative
  else if magnitude < -400 then .finite negative 0 0
  else if 0 ≤ exponent then nearestDouble negative (digits * 10 ^ exponent.toNat) 1
  else nearestDouble negative digits (10 ^ (-exponent).toNat)

/-- The fraction digits after a point, or nothing where no digit follows it. -/
def scanFraction (s : Str) : Option Str × Str :=
  match s with
  | c :: rest =>
    if c = cp '.' ∧ (rest.takeWhile isDigit) ≠ [] then
      (some (rest.takeWhile isDigit), rest.dropWhile isDigit)
    else (none, s)
  | [] => (none, s)

/-- The exponent after `e`, with its sign, or nothing where no digit follows. -/
def scanExponent (s : Str) : Option ℤ × Str :=
  match s with
  | c :: rest =>
    if c = cp 'e' ∨ c = cp 'E' then
      let (negative, digits) := match rest with
        | sign :: after =>
          if sign = cp '-' then (true, after) else if sign = cp '+' then (false, after)
          else (false, rest)
        | [] => (false, rest)
      if digits.takeWhile isDigit = [] then (none, s)
      else
        let value : ℤ := digitsValue (digits.takeWhile isDigit)
        (some (if negative then -value else value), digits.dropWhile isDigit)
    else (none, s)
  | [] => (none, s)

/-- A number after its optional sign: `(0|[1-9]\d*)(\.\d+)?([eE][-+]?\d+)?`. -/
def scanNumber (negative : Bool) (s : Str) : Except LoadError (Json × Str) :=
  match s with
  | [] => .error .jsonDecodeError
  | c :: rest =>
    if !isDigit c then .error .jsonDecodeError
    else
      let (digits, after) :=
        if c = cp '0' then ([c], rest) else (c :: rest.takeWhile isDigit, rest.dropWhile isDigit)
      let (fraction, after) := scanFraction after
      let (exponent, after) := scanExponent after
      match fraction, exponent with
      | none, none =>
        if intMaxStrDigits < digits.length then .error .digitLimit
        else
          let n : ℤ := digitsValue digits
          .ok (.int (if negative then -n else n), after)
      | _, _ =>
        let places := (fraction.getD []).length
        let value := digitsValue (digits ++ fraction.getD [])
        .ok (.float (decimalFloat negative value (exponent.getD 0 - places)), after)

/-- A value that is neither a container nor a string. -/
def scanScalar (s : Str) : Except LoadError (Json × Str) :=
  if startsWith s (str "null") then .ok (.null, s.drop 4)
  else if startsWith s (str "true") then .ok (.bool true, s.drop 4)
  else if startsWith s (str "false") then .ok (.bool false, s.drop 5)
  else if startsWith s (str "NaN") then .ok (.float .nan, s.drop 3)
  else if startsWith s (str "Infinity") then .ok (.float (.infinite false), s.drop 8)
  else if startsWith s (str "-Infinity") then .ok (.float (.infinite true), s.drop 9)
  else match s with
    | c :: rest => if c = cp '-' then scanNumber true rest else scanNumber false s
    | [] => .error .jsonDecodeError

mutual

/-- One value.  `fuel` bounds the calls and is never the reason to stop when it starts above twice
the length of the text; `depth` is the number of containers that may still be opened. -/
def scanValue : (fuel depth : ℕ) → Str → Except LoadError (Json × Str)
  | 0, _, _ => .error .jsonDecodeError
  | _ + 1, _, [] => .error .jsonDecodeError
  | fuel + 1, depth, c :: rest =>
    if c = cp '"' then do
      let (s, after) ← scanString (rest.length + 1) rest
      .ok (.text s, after)
    else if c = cp '[' then
      match depth with
      | 0 => .error .recursionLimit
      | depth + 1 =>
        match skipSpace rest with
        | [] => .error .jsonDecodeError
        | d :: after =>
          if d = cp ']' then .ok (.arr [], after)
          else do
            let (items, after) ← scanItems fuel depth (d :: after)
            .ok (.arr items, after)
    else if c = cp '{' then
      match depth with
      | 0 => .error .recursionLimit
      | depth + 1 =>
        match skipSpace rest with
        | [] => .error .jsonDecodeError
        | d :: after =>
          if d = cp '}' then .ok (.obj [], after)
          else do
            let (fields, after) ← scanFields fuel depth [] (d :: after)
            .ok (.obj fields, after)
    else scanScalar (c :: rest)

/-- The items of an array from the first of them to the closing bracket. -/
def scanItems : (fuel depth : ℕ) → Str → Except LoadError (List Json × Str)
  | 0, _, _ => .error .jsonDecodeError
  | fuel + 1, depth, s => do
    let (item, after) ← scanValue fuel depth s
    match skipSpace after with
    | [] => .error .jsonDecodeError
    | c :: rest =>
      if c = cp ']' then .ok ([item], rest)
      else if c = cp ',' then do
        let (items, after) ← scanItems fuel depth (skipSpace rest)
        .ok (item :: items, after)
      else .error .jsonDecodeError

/-- The fields of an object from the first key to the closing brace; a repeated key keeps its
first position and its last value. -/
def scanFields : (fuel depth : ℕ) → List (Str × Json) → Str →
    Except LoadError (List (Str × Json) × Str)
  | 0, _, _, _ => .error .jsonDecodeError
  | _ + 1, _, _, [] => .error .jsonDecodeError
  | fuel + 1, depth, fields, c :: rest =>
    if c = cp '"' then do
      let (key, after) ← scanString (rest.length + 1) rest
      match skipSpace after with
      | [] => .error .jsonDecodeError
      | colon :: after =>
        if colon = cp ':' then do
          let (value, after) ← scanValue fuel depth (skipSpace after)
          let fields := Json.assign fields key value
          match skipSpace after with
          | [] => .error .jsonDecodeError
          | d :: rest =>
            if d = cp '}' then .ok (fields, rest)
            else if d = cp ',' then scanFields fuel depth fields (skipSpace rest)
            else .error .jsonDecodeError
        else .error .jsonDecodeError
    else .error .jsonDecodeError

end

/-- `json.loads(text)` under an interpreter that nests at most `depth` containers. -/
def jsonLoads (depth : ℕ) (text : Str) : Except LoadError Json :=
  if startsWith text [0xFEFF] then .error .jsonDecodeError
  else do
    let (value, after) ← scanValue (2 * text.length + 2) depth (skipSpace text)
    if skipSpace after = [] then .ok value else .error .jsonDecodeError

end DatumSync.Python
