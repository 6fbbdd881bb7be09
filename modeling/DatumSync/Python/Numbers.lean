import DatumSync.Python.Decoding
import DatumSync.Python.Doubles
import DatumSync.Python.JsonScan

/-!
# Numbers in text

`float(text)`, the numbers that floats stand for, and what `int` reads back of a decimal.
-/

namespace DatumSync.Python

/-! ## Reading -/

/-- Drop the underscores of a numeral; undefined where one is not between two digits. -/
def dropUnderscores : (afterDigit : Bool) → Str → Option Str
  | _, [] => some []
  | afterDigit, c :: rest =>
    if c = cp '_' then
      if afterDigit && rest.head?.any isDigit then dropUnderscores false rest else none
    else (dropUnderscores (isDigit c) rest).map (c :: ·)

/-- A sign at the front, and what follows it. -/
def splitSign : Str → Bool × Str
  | [] => (false, [])
  | c :: rest =>
    if c = cp '-' then (true, rest) else if c = cp '+' then (false, rest) else (false, c :: rest)

/-- What a text that `float` takes spells. -/
inductive FloatText where
  | nan
  | infinite (negative : Bool)
  | decimal (negative : Bool) (digits : ℕ) (exponent : ℤ)
  deriving DecidableEq

/-- The double nearest to what is spelled. -/
def FloatText.rounded : FloatText → PyFloat
  | nan => .nan
  | infinite negative => .infinite negative
  | decimal negative digits exponent => decimalFloat negative digits exponent

/-- A number is spelled that is not too large for a double. -/
def FloatText.InRange : FloatText → Prop
  | decimal _ digits exponent => (digits : ℚ) * 10 ^ exponent < doubleOverflow
  | _ => False

/-- `digits [. digits] [e digits]`, with a digit before the exponent. -/
def scanDecimal (negative : Bool) (s : Str) : Option FloatText :=
  let whole := s.takeWhile isDigit
  let (fraction, after) := match s.dropWhile isDigit with
    | c :: rest =>
      if c = cp '.' then (rest.takeWhile isDigit, rest.dropWhile isDigit) else ([], c :: rest)
    | [] => ([], [])
  let (exponent, after) := scanExponent after
  if whole ++ fraction ≠ [] ∧ after = [] then
    some (.decimal negative (digitsValue (whole ++ fraction))
      (exponent.getD 0 - fraction.length))
  else none

/-- What `float` finds in a text; undefined where it raises `ValueError`. -/
def scanFloat (text : Str) : Option FloatText :=
  let s := ((text.map asciiNumeral).dropWhile isNumberSpace).rdropWhile isNumberSpace
  match dropUnderscores false s with
  | none => none
  | some s =>
    let (negative, s) := splitSign s
    if asciiLower s ∈ [str "inf", str "infinity"] then some (.infinite negative)
    else if asciiLower s = str "nan" then some .nan
    else scanDecimal negative s

/-- `float(text)` -/
def parseFloat (text : Str) : Option PyFloat := (scanFloat text).map FloatText.rounded

theorem FloatText.rounded_isFinite_iff (t : FloatText) :
    t.rounded.isFinite = true ↔ t.InRange := by
  cases t with
  | nan => exact iff_of_false Bool.false_ne_true id
  | infinite negative => exact iff_of_false Bool.false_ne_true id
  | decimal negative digits exponent => exact decimalFloat_isFinite_iff negative digits exponent

/-! ## Integers in text -/

def isDecimalChar (c : CodePoint) : Bool := c == cp '-' || isDigit c

theorem isDecimalChar_bound {c : CodePoint} (h : isDecimalChar c = true) :
    45 ≤ c.val ∧ c.val ≤ 57 := by
  rw [isDecimalChar, Bool.or_eq_true, beq_iff_eq] at h
  rcases h with rfl | h
  · decide
  · have hdigit := of_decide_eq_true h
    omega

theorem isSpace_of_isDecimalChar {c : CodePoint} (h : isDecimalChar c = true) :
    isSpace c = false := by
  have hbound := isDecimalChar_bound h
  simp only [isSpace, Bool.or_eq_false_iff, decide_eq_false_iff_not, beq_eq_false_iff_ne]
  omega

theorem isNumberSpace_of_isDecimalChar {c : CodePoint} (h : isDecimalChar c = true) :
    isNumberSpace c = false := by
  have hbound := isDecimalChar_bound h
  have hblank : c ≠ cp ' ' := by
    rintro rfl
    exact absurd hbound.1 (by decide)
  simp only [isNumberSpace, Bool.or_eq_false_iff, decide_eq_false_iff_not, beq_eq_false_iff_ne]
  exact ⟨hblank, by omega⟩

theorem asciiNumeral_of_isDecimalChar {c : CodePoint} (h : isDecimalChar c = true) :
    asciiNumeral c = c := by
  have hbound := isDecimalChar_bound h
  rw [asciiNumeral, if_pos (by omega)]

theorem isDecimalChar_decimal {n : ℤ} : ∀ c ∈ decimal n, isDecimalChar c = true := by
  intro c hc
  rw [isDecimalChar, Bool.or_eq_true, beq_iff_eq]
  by_cases hn : 0 ≤ n
  · rw [decimal_of_nonneg hn] at hc
    exact .inr (isDigit_of_mem_digitsOf hc)
  · rw [decimal_of_neg hn] at hc
    rcases List.mem_cons.mp hc with rfl | hc
    · exact .inl rfl
    · exact .inr (isDigit_of_mem_digitsOf hc)

theorem strip_decimal (n : ℤ) : strip (decimal n) = decimal n :=
  strip_eq_self fun c hc ↦ isSpace_of_isDecimalChar (isDecimalChar_decimal c hc)

/-- A decimal is read as it stands. -/
theorem numeral_decimal (n : ℤ) :
    (((decimal n).map asciiNumeral).dropWhile isNumberSpace).rdropWhile isNumberSpace =
      decimal n := by
  have hmap : (decimal n).map asciiNumeral = decimal n := by
    refine (List.map_congr_left fun c hc ↦ ?_).trans (List.map_id _)
    exact asciiNumeral_of_isDecimalChar (isDecimalChar_decimal c hc)
  have hspace : ∀ c ∈ decimal n, isNumberSpace c = false := fun c hc ↦
    isNumberSpace_of_isDecimalChar (isDecimalChar_decimal c hc)
  rw [hmap, dropWhile_rdropWhile_of_forall hspace]

theorem ne_underscore_of_isDigit {c : CodePoint} (h : isDigit c = true) : c ≠ cp '_' := by
  rintro rfl
  exact absurd h (by decide)

/-- The digits of a number are a numeral without underscores. -/
theorem isNumeral_digitsOf (n : ℕ) :
    isNumeral (digitsOf n) = true ∧ (digitsOf n).filter (· ≠ cp '_') = digitsOf n := by
  have hdigits : ∀ c ∈ digitsOf n, isDigit c = true := fun c hc ↦ isDigit_of_mem_digitsOf hc
  have hnone : cp '_' ∉ digitsOf n := fun hmem ↦ ne_underscore_of_isDigit (hdigits _ hmem) rfl
  have hsplit : split (cp '_') (digitsOf n) = [digitsOf n] := List.splitOn_eq_singleton hnone
  constructor
  · rw [isNumeral, hsplit]
    simp only [List.all_cons, List.all_nil, Bool.and_true, Bool.and_eq_true, decide_eq_true_eq,
      List.all_eq_true]
    exact ⟨digitsOf_ne_nil n, hdigits⟩
  · exact List.filter_eq_self.mpr fun c hc ↦ decide_eq_true (ne_underscore_of_isDigit (hdigits c hc))

theorem ne_sign_of_isDigit {c : CodePoint} (h : isDigit c = true) : c ≠ cp '-' ∧ c ≠ cp '+' := by
  constructor
  · rintro rfl
    exact absurd h (by decide)
  · rintro rfl
    exact absurd h (by decide)

/-- `int` reads the digits after the sign. -/
def readNumeral (signed : Bool × Str) : Option ℤ :=
  let digits := signed.2.filter (· ≠ cp '_')
  if isNumeral signed.2 && decide (digits.length ≤ intMaxStrDigits) then
    some (if signed.1 then -(digitsValue digits : ℤ) else digitsValue digits)
  else none

theorem parseInt_eq (text : Str) : parseInt text = readNumeral
    (splitSign (((text.map asciiNumeral).dropWhile isNumberSpace).rdropWhile isNumberSpace)) := by
  rw [parseInt]
  dsimp only
  cases ((text.map asciiNumeral).dropWhile isNumberSpace).rdropWhile isNumberSpace with
  | nil => rfl
  | cons c rest => rfl

theorem splitSign_decimal (n : ℤ) : splitSign (decimal n) = (decide (n < 0), digitsOf n.natAbs) := by
  by_cases hn : 0 ≤ n
  · have habs : n.toNat = n.natAbs := by omega
    obtain ⟨c, digits, hdigits, hc⟩ := exists_digitsOf n.natAbs
    obtain ⟨hminus, hplus⟩ := ne_sign_of_isDigit hc
    rw [decimal_of_nonneg hn, habs, hdigits, splitSign, if_neg hminus, if_neg hplus,
      decide_eq_false (not_lt.mpr hn)]
  · have habs : (-n).toNat = n.natAbs := by omega
    rw [decimal_of_neg hn, habs, splitSign, if_pos rfl, decide_eq_true (not_le.mp hn)]

/-- `int(str(n))` is `n`, within the limit on digits. -/
theorem parseInt_decimal {n : ℤ} (h : (digitsOf n.natAbs).length ≤ intMaxStrDigits) :
    parseInt (decimal n) = some n := by
  obtain ⟨hnumeral, hplain⟩ := isNumeral_digitsOf n.natAbs
  rw [parseInt_eq, numeral_decimal, splitSign_decimal, readNumeral]
  dsimp only
  rw [hplain, hnumeral, decide_eq_true h, digitsValue_digitsOf, Bool.and_self, if_pos rfl]
  refine congrArg some ?_
  by_cases hn : n < 0
  · rw [decide_eq_true hn, if_pos rfl]
    omega
  · rw [decide_eq_false hn, if_neg Bool.false_ne_true]
    omega

/-- A text of digits is below the power of ten of its length. -/
theorem digitsValue_lt {digits : Str} (h : ∀ c ∈ digits, isDigit c = true) :
    digitsValue digits < 10 ^ digits.length := by
  induction digits using List.reverseRecOn with
  | nil => exact Nat.one_pos
  | append_singleton digits c ih =>
    have hc := h c (by simp)
    have hdigit : c.val - 0x30 < 10 := by
      have hbound := of_decide_eq_true hc
      omega
    have hrest := ih fun d hd ↦ h d (List.mem_append_left _ hd)
    rw [digitsValue_append, List.length_append, List.length_singleton, pow_succ]
    omega

theorem isDigit_of_isNumeral {s : Str} (h : isNumeral s = true) :
    ∀ c ∈ s.filter (· ≠ cp '_'), isDigit c = true := by
  intro c hc
  obtain ⟨hmem, hne⟩ := List.mem_filter.mp hc
  obtain ⟨part, hpart, hin⟩ := mem_split hmem (of_decide_eq_true hne)
  have hall := List.all_eq_true.mp h part hpart
  rw [Bool.and_eq_true] at hall
  exact List.all_eq_true.mp hall.2 c hin

/-- What `int` reads has no more digits than its text. -/
theorem parseInt_length {text : Str} {n : ℤ} (h : parseInt text = some n) :
    (digitsOf n.natAbs).length ≤ intMaxStrDigits := by
  have hdigits : n.natAbs < 10 ^ intMaxStrDigits := by
    rw [parseInt_eq, readNumeral] at h
    split at h
    · next hok =>
      rw [Bool.and_eq_true, decide_eq_true_eq] at hok
      have hlt := (digitsValue_lt (isDigit_of_isNumeral hok.1)).trans_le
        (Nat.pow_le_pow_right (by norm_num) hok.2)
      rw [← Option.some.inj h]
      split
      · rw [Int.natAbs_neg, Int.natAbs_natCast]
        exact hlt
      · rw [Int.natAbs_natCast]
        exact hlt
    · cases h
  rw [digitsOf, List.length_map]
  exact (Nat.length_toDigits_le_iff (by norm_num) (by decide)).mpr hdigits

/-! ## Floats in text -/

theorem dropUnderscores_of_notMem {s : Str} (h : cp '_' ∉ s) (afterDigit : Bool) :
    dropUnderscores afterDigit s = some s := by
  induction s generalizing afterDigit with
  | nil => rfl
  | cons c rest ih =>
    rw [List.mem_cons, not_or] at h
    rw [dropUnderscores, if_neg (Ne.symm h.1), ih h.2, Option.map_some]

theorem asciiLower_of_isDigit {s : Str} (h : ∀ c ∈ s, isDigit c = true) : asciiLower s = s := by
  refine (List.map_congr_left fun c hc ↦ ?_).trans (List.map_id s)
  have hdigit := of_decide_eq_true (h c hc)
  rw [dif_neg (by omega)]
  rfl

/-- A text that starts with a digit is no word. -/
theorem asciiLower_ne_word {c : CodePoint} {digits word : Str}
    (h : ∀ d ∈ c :: digits, isDigit d = true) (hword : word.head?.any isDigit = false) :
    asciiLower (c :: digits) ≠ word := by
  rintro rfl
  rw [asciiLower_of_isDigit h, List.head?_cons, Option.any_some, h c List.mem_cons_self] at hword
  cases hword

theorem scanDecimal_of_isDigit (negative : Bool) {s : Str} (hne : s ≠ [])
    (h : ∀ c ∈ s, isDigit c = true) :
    scanDecimal negative s = some (.decimal negative (digitsValue s) 0) := by
  have htake : s.takeWhile isDigit = s := List.takeWhile_eq_self_iff.mpr h
  have hdrop : s.dropWhile isDigit = [] := List.dropWhile_eq_nil_iff.mpr h
  rw [scanDecimal, htake, hdrop]
  dsimp only
  rw [scanExponent, List.append_nil, if_pos ⟨hne, rfl⟩]
  rfl

/-- `str(n)` spells the integer. -/
theorem scanFloat_decimal (n : ℤ) :
    scanFloat (decimal n) = some (.decimal (decide (n < 0)) n.natAbs 0) := by
  have hdigits : ∀ c ∈ digitsOf n.natAbs, isDigit c = true := fun c hc ↦ isDigit_of_mem_digitsOf hc
  have hnone : cp '_' ∉ decimal n := fun hmem ↦ absurd (isDecimalChar_decimal _ hmem) (by decide)
  have hword : ∀ word : Str, word.head?.any isDigit = false →
      asciiLower (digitsOf n.natAbs) ≠ word := by
    obtain ⟨c, digits, hcons, -⟩ := exists_digitsOf n.natAbs
    rw [hcons] at hdigits ⊢
    exact fun word hword ↦ asciiLower_ne_word hdigits hword
  have hinfinite : asciiLower (digitsOf n.natAbs) ∉ [str "inf", str "infinity"] := by
    rw [List.mem_cons, List.mem_singleton, not_or]
    exact ⟨hword _ (by decide), hword _ (by decide)⟩
  rw [scanFloat, numeral_decimal, dropUnderscores_of_notMem hnone]
  dsimp only
  rw [splitSign_decimal]
  dsimp only
  rw [if_neg hinfinite, if_neg (hword _ (by decide)),
    scanDecimal_of_isDigit _ (digitsOf_ne_nil _) hdigits, digitsValue_digitsOf]

/-- An integer in the range of doubles is within the limit on digits. -/
theorem length_digitsOf_of_lt {n : ℕ} (h : n < doubleOverflow) :
    (digitsOf n).length ≤ intMaxStrDigits := by
  have hsmall : n < 10 ^ 400 := by
    have hcast : (n : ℚ) < ((10 ^ 400 : ℕ) : ℚ) := by
      rw [Nat.cast_pow, ← zpow_natCast]
      exact (Nat.cast_lt.mpr h).trans doubleOverflow_lt
    exact Nat.cast_lt.mp hcast
  rw [digitsOf, List.length_map, Nat.length_toDigits_le_iff (by norm_num) (by decide)]
  exact hsmall.trans (Nat.pow_lt_pow_right (by norm_num) (by decide))

/-- The signed digits of an integer. -/
theorem cast_eq_sign_natAbs (n : ℤ) :
    (n : ℚ) = if decide (n < 0) then -(n.natAbs : ℚ) else n.natAbs := by
  by_cases hn : n < 0
  · have heq : n = -(n.natAbs : ℤ) := by omega
    rw [decide_eq_true hn, if_pos rfl]
    nth_rewrite 1 [heq]
    rw [Int.cast_neg, Int.cast_natCast]
  · have heq : n = (n.natAbs : ℤ) := by omega
    rw [decide_eq_false hn, if_neg Bool.false_ne_true]
    nth_rewrite 1 [heq]
    exact Int.cast_natCast _

/-! ## What is no number -/

/-- A character that neither starts a number nor is skipped. -/
def startsNoNumber (c : CodePoint) : Bool :=
  !isSpace c && asciiNumeral c == c && !isNumberSpace c && !isDigit c &&
    c ∉ [cp '-', cp '+', cp '.', cp '_', cp 'e', cp 'E'] && asciiLower [c] ∉ [str "i", str "n"]

theorem rdropWhile_cons_of_neg {p : CodePoint → Bool} {c : CodePoint} (h : p c = false)
    (rest : Str) : (c :: rest).rdropWhile p = c :: rest.rdropWhile p := by
  have hlast : ∀ l : Str, (l ++ [c]).dropWhile p = l.dropWhile p ++ [c] := by
    intro l
    induction l with
    | nil => exact List.dropWhile_cons_of_neg (by simp [h])
    | cons d l ih =>
      rw [List.cons_append, List.dropWhile_cons, List.dropWhile_cons, ih]
      split <;> rfl
  rw [List.rdropWhile, List.reverse_cons, hlast, List.reverse_append, List.reverse_singleton,
    List.singleton_append, List.rdropWhile]

theorem strip_cons {c : CodePoint} (h : isSpace c = false) (rest : Str) :
    ∃ after, strip (c :: rest) = c :: after := by
  rw [strip, lstrip, List.dropWhile_cons_of_neg (by simp [h]), rstrip, rdropWhile_cons_of_neg h]
  exact ⟨_, rfl⟩

/-- The characters that `int` and `float` look at start with it. -/
theorem numeral_cons {c : CodePoint} (h : startsNoNumber c = true) (rest : Str) :
    ∃ after, (((c :: rest).map asciiNumeral).dropWhile isNumberSpace).rdropWhile isNumberSpace =
      c :: after := by
  simp only [startsNoNumber, Bool.and_eq_true, Bool.not_eq_true', beq_iff_eq] at h
  obtain ⟨⟨⟨⟨⟨-, hascii⟩, hspace⟩, -⟩, -⟩, -⟩ := h
  rw [List.map_cons, hascii, List.dropWhile_cons_of_neg (by simp [hspace]),
    rdropWhile_cons_of_neg hspace]
  exact ⟨_, rfl⟩

theorem splitSign_cons {c : CodePoint} (h : startsNoNumber c = true) (rest : Str) :
    splitSign (c :: rest) = (false, c :: rest) := by
  simp only [startsNoNumber, Bool.and_eq_true, decide_eq_true_eq, List.mem_cons, not_or] at h
  rw [splitSign, if_neg h.1.2.1, if_neg h.1.2.2.1]

theorem parseInt_of_startsNoNumber {c : CodePoint} (h : startsNoNumber c = true) (rest : Str) :
    parseInt (c :: rest) = none := by
  obtain ⟨after, hafter⟩ := numeral_cons h rest
  rw [parseInt_eq, hafter, splitSign_cons h, readNumeral]
  have hnot : isNumeral (c :: after) = false := by
    simp only [startsNoNumber, Bool.and_eq_true, Bool.not_eq_true', decide_eq_true_eq,
      List.mem_cons, not_or] at h
    rw [Bool.eq_false_iff]
    intro hnumeral
    have hc : c ∈ (c :: after).filter (· ≠ cp '_') := by
      rw [List.mem_filter, decide_eq_true_eq]
      exact ⟨List.mem_cons_self, h.1.2.2.2.2.1⟩
    have hdigit := isDigit_of_isNumeral hnumeral c hc
    rw [h.1.1.2] at hdigit
    cases hdigit
  dsimp only
  rw [hnot, Bool.false_and, if_neg Bool.false_ne_true]

theorem scanFloat_of_startsNoNumber {c : CodePoint} (h : startsNoNumber c = true) (rest : Str) :
    scanFloat (c :: rest) = none := by
  obtain ⟨after, hafter⟩ := numeral_cons h rest
  have hc := h
  simp only [startsNoNumber, Bool.and_eq_true, Bool.not_eq_true', decide_eq_true_eq,
    List.mem_cons, not_or] at hc
  rw [scanFloat, hafter, dropUnderscores, if_neg hc.1.2.2.2.2.1]
  cases dropUnderscores (isDigit c) after with
  | none => rfl
  | some s =>
    have hword : ∀ d word, asciiLower [c] ≠ [d] → asciiLower (c :: s) ≠ d :: word := by
      intro d word hne heq
      rw [asciiLower, List.map_cons] at heq
      exact hne (congrArg (fun e ↦ [e]) (List.cons.inj heq).1)
    have hinf : asciiLower (c :: s) ∉ [str "inf", str "infinity"] := by
      rw [List.mem_cons, List.mem_singleton, not_or]
      exact ⟨hword _ _ hc.2.1, hword _ _ hc.2.1⟩
    have hnan : asciiLower (c :: s) ≠ str "nan" := hword _ _ hc.2.2.1
    rw [Option.map_some]
    dsimp only
    rw [splitSign_cons h]
    dsimp only
    rw [if_neg hinf, if_neg hnan, scanDecimal,
      List.takeWhile_cons_of_neg (by simp [hc.1.1.2]),
      List.dropWhile_cons_of_neg (by simp [hc.1.1.2])]
    dsimp only
    rw [if_neg hc.1.2.2.2.1]
    simp

end DatumSync.Python
