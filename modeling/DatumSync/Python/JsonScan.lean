import DatumSync.Python.JsonDumps
import DatumSync.Python.JsonLoads

/-!
# The scanner of `json.loads` on strings and integers

What the scanner reads from the text `json.dumps` writes for a character, a string and an integer.
A string is read back as it was unless it has a high surrogate in front of a low one, which the
scanner takes for one character.  An integer is read back within the digit limit.
-/

namespace DatumSync.Python

open List

/-! ## Texts -/

def isHigh (c : CodePoint) : Bool := decide (0xD800 ≤ c.val ∧ c.val ≤ 0xDBFF)

def isLow (c : CodePoint) : Bool := decide (0xDC00 ≤ c.val ∧ c.val ≤ 0xDFFF)

/-- No high surrogate is in front of a low one. -/
def Unpaired (s : Str) : Prop := s.IsChain fun c d ↦ ¬ (isHigh c = true ∧ isLow d = true)

instance (s : Str) : Decidable (Unpaired s) := inferInstanceAs (Decidable (s.IsChain _))

theorem hexDigit_lowerHex : ∀ d < 16, hexDigit (lowerHex d) = some d := by decide

theorem hexFour_lowerHexDigits {n : ℕ} (hn : n < 0x10000) (rest : Str) :
    hexFour (lowerHexDigits 4 n ++ rest) = some (n, rest) := by
  have hdigits : lowerHexDigits 4 n ++ rest =
      lowerHex (n / 16 / 16 / 16 % 16) :: lowerHex (n / 16 / 16 % 16) ::
        lowerHex (n / 16 % 16) :: lowerHex (n % 16) :: rest := rfl
  rw [hdigits, hexFour, hexDigit_lowerHex _ (Nat.mod_lt _ (by decide)),
    hexDigit_lowerHex _ (Nat.mod_lt _ (by decide)), hexDigit_lowerHex _ (Nat.mod_lt _ (by decide)),
    hexDigit_lowerHex _ (Nat.mod_lt _ (by decide))]
  simp only [Option.bind_eq_bind, Option.bind_some, Option.some.injEq, Prod.mk.injEq, and_true]
  omega

/-- What follows is not the escape of a low surrogate. -/
def Clear (s : Str) : Prop :=
  startsWith s (str "\\u") = true →
    ∃ low after, hexFour (s.drop 2) = some (low, after) ∧ ¬ (0xDC00 ≤ low ∧ low ≤ 0xDFFF)

theorem startsWith_utf16Escape (n : ℕ) (rest : Str) :
    startsWith (utf16Escape n ++ rest) (str "\\u") = true := by
  rw [startsWith, utf16Escape, List.append_assoc]
  exact List.isPrefixOf_iff_prefix.mpr (List.prefix_append _ _)

theorem drop_utf16Escape (n : ℕ) (rest : Str) :
    (utf16Escape n ++ rest).drop 2 = lowerHexDigits 4 n ++ rest := by
  rw [utf16Escape, List.append_assoc]
  rfl

theorem clear_utf16Escape {n : ℕ} (hn : n < 0x10000) (hlow : ¬ (0xDC00 ≤ n ∧ n ≤ 0xDFFF))
    (rest : Str) : Clear (utf16Escape n ++ rest) := by
  intro _
  rw [drop_utf16Escape, hexFour_lowerHexDigits hn]
  exact ⟨n, rest, rfl, hlow⟩

/-- The escape of one unit stands for the unit unless it is the first of a pair. -/
theorem unicodeEscape_unit {n : ℕ} (hn : n < 0x10000) {rest : Str}
    (hclear : 0xD800 ≤ n ∧ n ≤ 0xDBFF → Clear rest) :
    unicodeEscape (lowerHexDigits 4 n ++ rest) = .ok (Fin.ofNat _ n, rest) := by
  rw [unicodeEscape, hexFour_lowerHexDigits hn]
  dsimp only
  split
  · next hhigh =>
    obtain ⟨low, after, hfour, hlow⟩ := hclear ⟨hhigh.1, hhigh.2.1⟩ hhigh.2.2
    rw [hfour]
    dsimp only
    rw [if_neg hlow]
  · rfl

/-- The escapes of a surrogate pair stand for one character. -/
theorem unicodeEscape_pair {c : CodePoint} (hc : 0x10000 ≤ c.val) (rest : Str) :
    unicodeEscape (lowerHexDigits 4 (0xD800 + (c.val - 0x10000) / 0x400) ++
      (utf16Escape (0xDC00 + (c.val - 0x10000) % 0x400) ++ rest)) = .ok (c, rest) := by
  have hlt := c.isLt
  rw [unicodeEscape, hexFour_lowerHexDigits (by omega)]
  dsimp only
  rw [if_pos ⟨by omega, by omega, startsWith_utf16Escape _ _⟩, drop_utf16Escape,
    hexFour_lowerHexDigits (by omega)]
  dsimp only
  rw [if_pos ⟨by omega, by omega⟩]
  have hvalue : 0x10000 + (0xD800 + (c.val - 0x10000) / 0x400 - 0xD800) * 1024 +
      (0xDC00 + (c.val - 0x10000) % 0x400 - 0xDC00) = c.val := by omega
  rw [hvalue]
  have hsame : Fin.ofNat 0x110000 c.val = c := Fin.ext (Nat.mod_eq_of_lt hlt)
  rw [hsame]

theorem shortEscape_escaped {c letter : CodePoint} (h : shortEscape c = some letter) :
    letter ≠ cp 'u' ∧ escaped letter = some c := by
  obtain ⟨before, after, hsplit, -⟩ := List.lookup_eq_some_iff.mp h
  have hall : ([(cp '"', cp '"'), (cp '\\', cp '\\'), (cp '\n', cp 'n'), (cp '\r', cp 'r'),
      (cp '\t', cp 't'), (8, cp 'b'), (12, cp 'f')].all fun p ↦
        decide (p.2 ≠ cp 'u' ∧ escaped p.2 = some p.1)) = true := by decide
  refine of_decide_eq_true (List.all_eq_true.mp hall (c, letter) ?_)
  rw [hsplit]
  exact List.mem_append_right _ List.mem_cons_self

/-- How a character is written: by one letter, as it is, by one escape, or by a pair of them. -/
theorem escapeChar_cases (c : CodePoint) :
    (∃ letter, shortEscape c = some letter ∧ escapeChar c = [cp '\\', letter]) ∨
    (0x20 ≤ c.val ∧ c ≠ cp '"' ∧ c ≠ cp '\\' ∧ escapeChar c = [c]) ∨
    (c.val < 0x10000 ∧ escapeChar c = utf16Escape c.val) ∨
    (0x10000 ≤ c.val ∧ escapeChar c = utf16Escape (0xD800 + (c.val - 0x10000) / 0x400) ++
      utf16Escape (0xDC00 + (c.val - 0x10000) % 0x400)) := by
  unfold escapeChar
  cases hshort : shortEscape c with
  | some letter => exact .inl ⟨letter, rfl, rfl⟩
  | none =>
    refine .inr ?_
    dsimp only
    split
    · next hplain =>
      refine .inl ⟨hplain.1, fun hquote ↦ ?_, fun hbackslash ↦ ?_, rfl⟩
      · rw [hquote] at hshort
        cases hshort
      · rw [hbackslash] at hshort
        cases hshort
    · split
      · next hsmall => exact .inr (.inl ⟨hsmall, rfl⟩)
      · next hlarge => exact .inr (.inr ⟨Nat.not_lt.mp hlarge, rfl⟩)

/-- A text that does not start with `\\u` is no escape of a low surrogate. -/
theorem clear_of_not_startsWith {s : Str} (h : startsWith s (str "\\u") = false) : Clear s := by
  intro hstarts
  rw [h] at hstarts
  cases hstarts

/-- What a character that is no low surrogate is written as is not the escape of one. -/
theorem clear_escapeChar {c : CodePoint} (hc : isLow c = false) (rest : Str) :
    Clear (escapeChar c ++ rest) := by
  rw [isLow, decide_eq_false_iff_not] at hc
  have hlt := c.isLt
  obtain ⟨letter, hshort, hesc⟩ | ⟨-, -, hbackslash, hesc⟩ | ⟨hsmall, hesc⟩ | ⟨hlarge, hesc⟩ :=
    escapeChar_cases c
  · have hletter : cp 'u' ≠ letter := (shortEscape_escaped hshort).1.symm
    rw [hesc]
    apply clear_of_not_startsWith
    change (cp '\\' == cp '\\' && (cp 'u' == letter && true)) = false
    rw [beq_eq_false_iff_ne.mpr hletter, Bool.false_and, Bool.and_false]
  · rw [hesc]
    apply clear_of_not_startsWith
    change (cp '\\' == c && _) = false
    rw [beq_eq_false_iff_ne.mpr hbackslash.symm, Bool.false_and]
  · rw [hesc]
    exact clear_utf16Escape hsmall hc rest
  · rw [hesc, List.append_assoc]
    exact clear_utf16Escape (by omega) (by omega) _

/-- The scanner on the escape of a character. -/
theorem scanString_escapeChar {c : CodePoint} {rest : Str} (hclear : isHigh c = true → Clear rest)
    (fuel : ℕ) :
    scanString (fuel + 1) (escapeChar c ++ rest) =
      (scanString fuel rest).map fun p ↦ (c :: p.1, p.2) := by
  have hbackslash : cp '\\' ≠ cp '"' := by decide
  have hlt := c.isLt
  obtain ⟨letter, hshort, hesc⟩ | ⟨hprintable, hquote, hplain, hesc⟩ | ⟨hsmall, hesc⟩ |
    ⟨hlarge, hesc⟩ := escapeChar_cases c
  · obtain ⟨hu, hescaped⟩ := shortEscape_escaped hshort
    rw [hesc]
    change scanString (fuel + 1) (cp '\\' :: letter :: rest) = _
    rw [scanString, if_neg hbackslash, if_pos rfl]
    dsimp only
    rw [if_neg hu, hescaped]
    rfl
  · rw [hesc]
    change scanString (fuel + 1) (c :: rest) = _
    rw [scanString.eq_def]
    dsimp only
    rw [if_neg hquote, if_neg hplain, if_neg (Nat.not_lt.mpr hprintable)]
    rfl
  · rw [hesc]
    change scanString (fuel + 1) (cp '\\' :: cp 'u' :: (lowerHexDigits 4 c.val ++ rest)) = _
    have hunit := @unicodeEscape_unit _ hsmall rest
      fun hhigh ↦ hclear (decide_eq_true hhigh)
    have hsame : Fin.ofNat 0x110000 c.val = c := Fin.ext (Nat.mod_eq_of_lt hlt)
    rw [scanString, if_neg hbackslash, if_pos rfl]
    dsimp only
    rw [if_pos rfl, hunit, hsame]
    rfl
  · rw [hesc, List.append_assoc]
    change scanString (fuel + 1) (cp '\\' :: cp 'u' ::
      (lowerHexDigits 4 (0xD800 + (c.val - 0x10000) / 0x400) ++
        (utf16Escape (0xDC00 + (c.val - 0x10000) % 0x400) ++ rest))) = _
    rw [scanString, if_neg hbackslash, if_pos rfl]
    dsimp only
    rw [if_pos rfl, unicodeEscape_pair hlarge]
    rfl

/-- The scanner on the text of a string, from behind its opening quote. -/
theorem scanString_escaped {s : Str} (hs : Unpaired s) (rest : Str) {fuel : ℕ}
    (hfuel : s.length < fuel) :
    scanString fuel (s.flatMap escapeChar ++ cp '"' :: rest) = .ok (s, rest) := by
  induction s generalizing fuel with
  | nil =>
    obtain ⟨fuel, rfl⟩ := Nat.exists_eq_succ_of_ne_zero (Nat.ne_of_gt hfuel)
    change scanString (fuel + 1) (cp '"' :: rest) = _
    rw [scanString.eq_def]
    dsimp only
    rw [if_pos rfl]
  | cons c s ih =>
    obtain ⟨fuel, rfl⟩ := Nat.exists_eq_succ_of_ne_zero (Nat.ne_of_gt (Nat.zero_lt_of_lt hfuel))
    have hclear : isHigh c = true → Clear (s.flatMap escapeChar ++ cp '"' :: rest) := by
      intro hhigh
      cases s with
      | nil =>
        apply clear_of_not_startsWith
        change (cp '\\' == cp '"' && [cp 'u'].isPrefixOf rest) = false
        have hne : (cp '\\' == cp '"') = false := by decide
        rw [hne, Bool.false_and]
      | cons d s =>
        have hlow : isLow d = false := by
          by_contra hlow
          exact (List.isChain_cons_cons.mp hs).1 ⟨hhigh, Bool.not_eq_false _ ▸ hlow⟩
        rw [List.flatMap_cons, List.append_assoc]
        exact clear_escapeChar hlow _
    rw [List.flatMap_cons, List.append_assoc, scanString_escapeChar hclear,
      ih (List.IsChain.tail hs) (Nat.lt_of_succ_lt_succ hfuel)]
    rfl

/-! ## Integers -/

def digitsOf (n : ℕ) : Str := (Nat.toDigits 10 n).map cp

theorem digitsOf_ne_nil (n : ℕ) : digitsOf n ≠ [] := by
  rw [digitsOf, Ne, List.map_eq_nil_iff]
  exact Nat.toDigits_ne_nil

theorem decimal_of_nonneg {n : ℤ} (hn : 0 ≤ n) : decimal n = digitsOf n.toNat := by
  rw [decimal, Int.toString_eq_repr, Int.repr_eq_if, if_pos hn, str, Nat.toList_repr]
  rfl

theorem decimal_of_neg {n : ℤ} (hn : ¬ 0 ≤ n) : decimal n = cp '-' :: digitsOf (-n).toNat := by
  rw [decimal, Int.toString_eq_repr, Int.repr_eq_if, if_neg hn, str, String.toList_append,
    List.map_append, Nat.toList_repr]
  rfl

theorem isDigit_of_mem_digitsOf {n : ℕ} {c : CodePoint} (h : c ∈ digitsOf n) :
    isDigit c = true := by
  obtain ⟨digit, hmem, rfl⟩ := List.mem_map.mp h
  have hdigit := Nat.isDigit_of_mem_toDigits (by decide) (by decide) hmem
  rw [Char.isDigit_iff_toNat] at hdigit
  exact decide_eq_true hdigit

theorem digitsOf_step {n : ℕ} (hn : 10 ≤ n) :
    digitsOf n = digitsOf (n / 10) ++ [cp (Nat.digitChar (n % 10))] := by
  rw [digitsOf, Nat.toDigits_of_base_le (by decide) hn, List.map_append]
  rfl

theorem digitsValue_append (digits : Str) (c : CodePoint) :
    digitsValue (digits ++ [c]) = digitsValue digits * 10 + (c.val - 0x30) := by
  rw [digitsValue, List.foldl_append]
  rfl

theorem val_digitChar : ∀ d < 10, (cp (Nat.digitChar d)).val - 0x30 = d := by decide

/-- The value of the digits of a number is the number. -/
theorem digitsValue_digitsOf (n : ℕ) : digitsValue (digitsOf n) = n := by
  induction n using Nat.strongRecOn with
  | _ n ih =>
    by_cases hn : n < 10
    · rw [digitsOf, Nat.toDigits_of_lt_base hn]
      change 0 * 10 + ((cp (Nat.digitChar n)).val - 0x30) = n
      rw [val_digitChar n hn]
      omega
    · rw [digitsOf_step (Nat.not_lt.mp hn), digitsValue_append, ih (n / 10) (by omega),
        val_digitChar _ (Nat.mod_lt _ (by decide))]
      omega

/-- A number above zero does not start with a zero. -/
theorem head_digitsOf {n : ℕ} (hn : 0 < n) {c : CodePoint} {digits : Str}
    (h : digitsOf n = c :: digits) : c ≠ cp '0' := by
  induction n using Nat.strongRecOn generalizing digits with
  | _ n ih =>
    by_cases hsmall : n < 10
    · have hall : ∀ d < 10, 0 < d → cp (Nat.digitChar d) ≠ cp '0' := by decide
      rw [digitsOf, Nat.toDigits_of_lt_base hsmall] at h
      obtain ⟨rfl, -⟩ := List.cons.inj h
      exact hall n hsmall hn
    · rw [digitsOf_step (Nat.not_lt.mp hsmall)] at h
      cases hdigits : digitsOf (n / 10) with
      | nil => exact absurd hdigits (digitsOf_ne_nil _)
      | cons d rest =>
        rw [hdigits] at h
        obtain ⟨rfl, -⟩ := List.cons.inj h
        exact ih (n / 10) (by omega) (by omega) hdigits

/-- What may follow a value: nothing, the next item, or the end of a container. -/
def Stops (s : Str) : Prop :=
  s = [] ∨ ∃ c rest, s = c :: rest ∧ (c = cp ',' ∨ c = cp ']' ∨ c = cp '\x7d')

theorem Stops.head {c : CodePoint} {rest : Str} (h : Stops (c :: rest)) :
    c = cp ',' ∨ c = cp ']' ∨ c = cp '\x7d' := by
  obtain hnil | ⟨d, s, heq, hd⟩ := h
  · cases hnil
  · rw [(List.cons.inj heq).1]
    exact hd

theorem takeWhile_digits {digits rest : Str} (hdigits : ∀ c ∈ digits, isDigit c = true)
    (hrest : Stops rest) : (digits ++ rest).takeWhile isDigit = digits ∧
      (digits ++ rest).dropWhile isDigit = rest := by
  have hstop : rest.takeWhile isDigit = [] ∧ rest.dropWhile isDigit = rest := by
    cases rest with
    | nil => exact ⟨rfl, rfl⟩
    | cons c rest =>
      have hc : isDigit c = false := by
        rcases hrest.head with rfl | rfl | rfl <;> decide
      rw [List.takeWhile_cons, List.dropWhile_cons, hc]
      exact ⟨rfl, rfl⟩
  rw [List.takeWhile_append_of_pos hdigits, List.dropWhile_append_of_pos hdigits, hstop.1, hstop.2,
    List.append_nil]
  exact ⟨rfl, rfl⟩

theorem scanFraction_of_stops {rest : Str} (h : Stops rest) : scanFraction rest = (none, rest) := by
  cases rest with
  | nil => rfl
  | cons c rest =>
    have hc : c ≠ cp '.' := by rcases h.head with rfl | rfl | rfl <;> decide
    rw [scanFraction, if_neg fun hpoint ↦ hc hpoint.1]

theorem scanExponent_of_stops {rest : Str} (h : Stops rest) : scanExponent rest = (none, rest) := by
  cases rest with
  | nil => rfl
  | cons c rest =>
    have hc : ¬ (c = cp 'e' ∨ c = cp 'E') := by
      rcases h.head with rfl | rfl | rfl <;> decide
    rw [scanExponent.eq_def]
    dsimp only
    rw [if_neg hc]

/-- The scanner on the digits of a number within the digit limit. -/
theorem scanNumber_digitsOf (negative : Bool) {n : ℕ}
    (hlimit : (digitsOf n).length ≤ intMaxStrDigits) {rest : Str} (hrest : Stops rest) :
    scanNumber negative (digitsOf n ++ rest) =
      .ok (.int (if negative then -n else n), rest) := by
  cases hdigits : digitsOf n with
  | nil => exact absurd hdigits (digitsOf_ne_nil n)
  | cons c digits =>
    have hall : ∀ d ∈ c :: digits, isDigit d = true := by
      intro d hd
      rw [← hdigits] at hd
      exact isDigit_of_mem_digitsOf hd
    have hspan := takeWhile_digits (fun d hd ↦ hall d (List.mem_cons_of_mem c hd)) hrest
    have hread : (if c = cp '0' then ([c], digits ++ rest)
        else (c :: (digits ++ rest).takeWhile isDigit, (digits ++ rest).dropWhile isDigit)) =
        (c :: digits, rest) := by
      split
      · next hzero =>
        have hnone : n = 0 := by
          by_contra hpositive
          exact head_digitsOf (Nat.pos_of_ne_zero hpositive) hdigits hzero
        rw [hnone] at hdigits
        obtain ⟨-, rfl⟩ := List.cons.inj hdigits
        rfl
      · rw [hspan.1, hspan.2]
    rw [List.cons_append, scanNumber, hall c List.mem_cons_self]
    simp only [Bool.not_true, Bool.false_eq_true, if_false, hread, scanFraction_of_stops hrest,
      scanExponent_of_stops hrest]
    rw [← hdigits, digitsValue_digitsOf, if_neg (Nat.not_lt.mpr hlimit)]

theorem startsWith_cons_of_ne {c d : CodePoint} (h : d ≠ c) (s p : Str) :
    startsWith (c :: s) (d :: p) = false := by
  rw [startsWith, List.isPrefixOf_cons_cons, beq_eq_false_iff_ne.mpr h, Bool.false_and]

/-- A text that starts with none of the letters of a keyword is scanned as a number. -/
theorem scanScalar_of_ne {c : CodePoint} (rest : Str) (hn : cp 'n' ≠ c) (ht : cp 't' ≠ c)
    (hf : cp 'f' ≠ c) (hN : cp 'N' ≠ c) (hI : cp 'I' ≠ c)
    (hminus : startsWith (c :: rest) (str "-Infinity") = false) :
    scanScalar (c :: rest) =
      if c = cp '-' then scanNumber true rest else scanNumber false (c :: rest) := by
  have hnull : startsWith (c :: rest) (str "null") = false := startsWith_cons_of_ne hn rest _
  have htrue : startsWith (c :: rest) (str "true") = false := startsWith_cons_of_ne ht rest _
  have hfalse : startsWith (c :: rest) (str "false") = false := startsWith_cons_of_ne hf rest _
  have hnan : startsWith (c :: rest) (str "NaN") = false := startsWith_cons_of_ne hN rest _
  have hinfinity : startsWith (c :: rest) (str "Infinity") = false :=
    startsWith_cons_of_ne hI rest _
  rw [scanScalar, hnull, htrue, hfalse, hnan, hinfinity, hminus]
  rfl

theorem ne_of_isDigit {c d : CodePoint} (hc : isDigit c = true) (hd : isDigit d = false) :
    d ≠ c := by
  rintro rfl
  rw [hd] at hc
  cases hc

theorem scanScalar_of_digit {c : CodePoint} (hc : isDigit c = true) (rest : Str) :
    scanScalar (c :: rest) = scanNumber false (c :: rest) := by
  have hminus : cp '-' ≠ c := ne_of_isDigit hc (by decide)
  rw [scanScalar_of_ne rest (ne_of_isDigit hc (by decide))
    (ne_of_isDigit hc (by decide)) (ne_of_isDigit hc (by decide))
    (ne_of_isDigit hc (by decide)) (ne_of_isDigit hc (by decide))
    (startsWith_cons_of_ne hminus rest _), if_neg hminus.symm]

theorem scanScalar_of_minus {c : CodePoint} (hc : isDigit c = true) (rest : Str) :
    scanScalar (cp '-' :: c :: rest) = scanNumber true (c :: rest) := by
  have hinfinity : startsWith (cp '-' :: c :: rest) (str "-Infinity") = false := by
    change (cp '-' == cp '-' && startsWith (c :: rest) (str "Infinity")) = false
    have hsecond : startsWith (c :: rest) (str "Infinity") = false :=
      startsWith_cons_of_ne (ne_of_isDigit hc (by decide)) rest _
    rw [hsecond, Bool.and_false]
  rw [scanScalar_of_ne (c :: rest) (by decide) (by decide) (by decide)
    (by decide) (by decide) hinfinity, if_pos rfl]

theorem exists_digitsOf (n : ℕ) : ∃ c digits, digitsOf n = c :: digits ∧ isDigit c = true := by
  cases hdigits : digitsOf n with
  | nil => exact absurd hdigits (digitsOf_ne_nil n)
  | cons c digits =>
    refine ⟨c, digits, rfl, isDigit_of_mem_digitsOf (n := n) ?_⟩
    rw [hdigits]
    exact List.mem_cons_self

/-- The scanner on an integer within the digit limit. -/
theorem scanScalar_decimal {n : ℤ} (hlimit : (digitsOf n.natAbs).length ≤ intMaxStrDigits)
    {rest : Str} (hrest : Stops rest) : scanScalar (decimal n ++ rest) = .ok (.int n, rest) := by
  by_cases hn : 0 ≤ n
  · have habs : n.toNat = n.natAbs := by omega
    obtain ⟨c, digits, hdigits, hc⟩ := exists_digitsOf n.natAbs
    have hscan := scanNumber_digitsOf false hlimit hrest
    rw [decimal_of_nonneg hn, habs]
    rw [hdigits] at hscan ⊢
    rw [List.cons_append] at hscan ⊢
    rw [scanScalar_of_digit hc, hscan, if_neg Bool.false_ne_true, Int.natAbs_of_nonneg hn]
  · have habs : (-n).toNat = n.natAbs := by omega
    have hvalue : -(n.natAbs : ℤ) = n := by omega
    obtain ⟨c, digits, hdigits, hc⟩ := exists_digitsOf n.natAbs
    have hscan := scanNumber_digitsOf true hlimit hrest
    rw [decimal_of_neg hn, habs]
    rw [hdigits] at hscan ⊢
    rw [List.cons_append] at hscan
    rw [List.cons_append, List.cons_append, scanScalar_of_minus hc, hscan, if_pos rfl, hvalue]

end DatumSync.Python
