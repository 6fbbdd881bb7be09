import DatumSync.Jobs.Notify
import DatumSync.Python.Decoding
import DatumSync.Python.JsonScan

/-!
# Upload ids

An upload id is read by `uuid.UUID`, which takes more than the canonical text: a prefix, braces,
hyphens anywhere, and whatever `int` reads in base 16.
-/

namespace DatumSync.Uploads

open Jobs Python

/-! ## `uuid.UUID` -/

/-- `s.replace(old, "")`; `skip` characters are left of the occurrence that is being removed. -/
def removeFrom (old : Str) : (skip : ℕ) → Str → Str
  | _, [] => []
  | skip + 1, _ :: rest => removeFrom old skip rest
  | 0, c :: rest =>
    if startsWith (c :: rest) old then removeFrom old (old.length - 1) rest
    else c :: removeFrom old 0 rest

def removeText (old s : Str) : Str := removeFrom old 0 s

def stripBraces (s : Str) : Str :=
  let isBrace := fun c ↦ c == cp '\x7b' || c == cp '\x7d'
  (s.dropWhile isBrace).rdropWhile isBrace

/-- `0x` in front of a number, and the one underscore that may follow it. -/
def dropBase : Str → Str
  | a :: b :: rest =>
    if a = cp '0' ∧ (b = cp 'x' ∨ b = cp 'X') then
      match rest with
      | c :: rest => if c = cp '_' then rest else c :: rest
      | [] => []
    else a :: b :: rest
  | s => s

/-- Hexadecimal digits in groups that underscores separate. -/
def isHexNumeral (s : Str) : Bool :=
  (split (cp '_') s).all fun part ↦ part ≠ [] && part.all fun c ↦ (hexDigit c).isSome

def hexValue (digits : Str) : ℕ := digits.foldl (fun n c ↦ n * 16 + (hexDigit c).getD 0) 0

/-- `int(text, 16)`; undefined where it raises `ValueError`. -/
def parseHex (text : Str) : Option ℤ :=
  let s := ((text.map asciiNumeral).dropWhile isNumberSpace).rdropWhile isNumberSpace
  let (negative, numeral) := match s with
    | sign :: rest =>
      if sign = cp '-' then (true, rest) else if sign = cp '+' then (false, rest) else (false, s)
    | [] => (false, s)
  let numeral := dropBase numeral
  if isHexNumeral numeral then
    let value := hexValue (numeral.filter (· ≠ cp '_'))
    some (if negative then -(value : ℤ) else value)
  else none

/-- `uuid.UUID(text)`; undefined where it raises `ValueError`. -/
def parseUuid (text : Str) : Option (Fin (2 ^ 128)) :=
  let hex := (stripBraces (removeText (str "uuid:") (removeText (str "urn:") text))).filter
    (· ≠ cp '-')
  if hex.length = 32 then
    match parseHex hex with
    | some value => if h : value.toNat < 2 ^ 128 ∧ 0 ≤ value then some ⟨value.toNat, h.1⟩ else none
    | none => none
  else none

example : parseUuid (str "\x7burn:uuid:0X_000000-000000000000-00000000FF \x7d") = some 255 := by
  decide +kernel

/-! ## The canonical text is read back -/

/-- A lower case hexadecimal digit. -/
def isLowerHex (c : CodePoint) : Bool := isDigit c || decide (0x61 ≤ c.val ∧ c.val ≤ 0x66)

theorem isLowerHex_lowerHex : ∀ d < 16, isLowerHex (lowerHex d) = true := by decide

theorem isLowerHex_of_mem_lowerHexDigits {count n : ℕ} {c : CodePoint}
    (h : c ∈ lowerHexDigits count n) : isLowerHex c = true := by
  induction count generalizing n with
  | zero => cases h
  | succ count ih =>
    rw [lowerHexDigits, List.mem_append, List.mem_singleton] at h
    rcases h with h | rfl
    · exact ih h
    · exact isLowerHex_lowerHex _ (Nat.mod_lt _ (by decide))

theorem isLowerHex_bound {c : CodePoint} (h : isLowerHex c = true) :
    (0x30 ≤ c.val ∧ c.val ≤ 0x39) ∨ (0x61 ≤ c.val ∧ c.val ≤ 0x66) := by
  rw [isLowerHex, Bool.or_eq_true, isDigit, decide_eq_true_eq, decide_eq_true_eq] at h
  exact h

/-- A character out of the range of the digits is not among them. -/
theorem ne_of_isLowerHex {c other : CodePoint} (h : isLowerHex c = true)
    (hother : isLowerHex other = false) : c ≠ other := by
  rintro rfl
  rw [h] at hother
  cases hother

theorem isSome_hexDigit {c : CodePoint} (h : isLowerHex c = true) : (hexDigit c).isSome = true := by
  have hbound := isLowerHex_bound h
  unfold hexDigit isDigit
  split
  · rfl
  · next hdigit =>
    rw [decide_eq_true_eq] at hdigit
    rw [if_pos (hbound.resolve_left hdigit)]
    rfl

/-- The digits of a number are those of its upper part, and then those of its lower part. -/
theorem lowerHexDigits_add (upper lower n : ℕ) :
    lowerHexDigits (upper + lower) n =
      lowerHexDigits upper (n / 16 ^ lower) ++ lowerHexDigits lower n := by
  induction lower generalizing n with
  | zero => rw [Nat.add_zero, Nat.pow_zero, Nat.div_one, lowerHexDigits, List.append_nil]
  | succ lower ih =>
    rw [← Nat.add_assoc, lowerHexDigits, ih, Nat.div_div_eq_div_mul, ← Nat.pow_succ',
      List.append_assoc]
    rfl

theorem hexValue_append (s : Str) (c : CodePoint) :
    hexValue (s ++ [c]) = hexValue s * 16 + (hexDigit c).getD 0 := by
  rw [hexValue, List.foldl_append]
  rfl

theorem hexValue_lowerHexDigits (count n : ℕ) :
    hexValue (lowerHexDigits count n) = n % 16 ^ count := by
  induction count generalizing n with
  | zero => rw [Nat.pow_zero, Nat.mod_one]; rfl
  | succ count ih =>
    rw [lowerHexDigits, hexValue_append, ih, hexDigit_lowerHex _ (Nat.mod_lt _ (by decide)),
      Option.getD_some, Nat.pow_succ', Nat.mod_mul, Nat.add_comm, Nat.mul_comm]

/-- The text of an id without its hyphens. -/
theorem filter_uuidText (id : Fin (2 ^ 128)) :
    (uuidText id).filter (· ≠ cp '-') = lowerHexDigits 32 id.val := by
  have hkept : ∀ count n,
      (lowerHexDigits count n).filter (· ≠ cp '-') = lowerHexDigits count n := by
    intro count n
    apply List.filter_eq_self.mpr
    intro c hc
    exact decide_eq_true
      (ne_of_isLowerHex (isLowerHex_of_mem_lowerHexDigits hc) (by decide +kernel))
  have hdash : [cp '-'].filter (· ≠ cp '-') = [] := by decide +kernel
  rw [uuidText]
  simp only [List.filter_append, hkept, hdash, List.nil_append, List.append_assoc]
  rw [lowerHexDigits_add 8 24, lowerHexDigits_add 4 20, lowerHexDigits_add 4 16,
    lowerHexDigits_add 4 12]
  rfl

theorem removeText_of_notMem {old s : Str} {c : CodePoint} (hold : old.head? = some c)
    (hc : c ∉ s) : removeText old s = s := by
  induction s with
  | nil => rfl
  | cons d rest ih =>
    have hfront : startsWith (d :: rest) old = false := by
      cases old with
      | nil => cases hold
      | cons first more =>
        obtain rfl := Option.some.inj hold
        rw [startsWith, List.isPrefixOf_cons_cons, Bool.and_eq_false_iff, beq_eq_false_iff_ne]
        exact .inl fun heq ↦ hc (heq ▸ List.mem_cons_self)
    rw [removeText, removeFrom, hfront, if_neg Bool.false_ne_true]
    exact congrArg _ (ih fun hmem ↦ hc (List.mem_cons_of_mem _ hmem))

/-- A numeral of lower case digits alone is read as it stands. -/
theorem parseHex_of_isLowerHex {s : Str} (hne : s ≠ []) (h : ∀ c ∈ s, isLowerHex c = true) :
    parseHex s = some (hexValue s : ℤ) := by
  have hmap : s.map asciiNumeral = s := by
    refine (List.map_congr_left fun c hc ↦ ?_).trans (List.map_id _)
    have hbound := isLowerHex_bound (h c hc)
    rw [asciiNumeral, if_pos (by omega), id]
  have hspace : ∀ c ∈ s, isNumberSpace c = false := by
    intro c hc
    have hbound := isLowerHex_bound (h c hc)
    have hblank : c ≠ cp ' ' := ne_of_isLowerHex (h c hc) (by decide +kernel)
    simp only [isNumberSpace, Bool.or_eq_false_iff, decide_eq_false_iff_not, beq_eq_false_iff_ne]
    exact ⟨hblank, by omega⟩
  have hunderscore : cp '_' ∉ s := fun hmem ↦
    ne_of_isLowerHex (h _ hmem) (by decide +kernel) rfl
  have hbase : dropBase s = s := by
    match s with
    | [] => rfl
    | [a] => rfl
    | a :: b :: rest =>
      have hb := h b (List.mem_cons_of_mem _ List.mem_cons_self)
      have hx : b ≠ cp 'x' := ne_of_isLowerHex hb (by decide +kernel)
      have hX : b ≠ cp 'X' := ne_of_isLowerHex hb (by decide +kernel)
      unfold dropBase
      exact if_neg fun hbegins ↦ hbegins.2.elim hx hX
  have hnumeral : isHexNumeral s = true := by
    have hsplit : split (cp '_') s = [s] := List.splitOn_eq_singleton hunderscore
    rw [isHexNumeral, hsplit]
    simp only [List.all_cons, List.all_nil, Bool.and_true, Bool.and_eq_true, decide_eq_true_eq,
      List.all_eq_true]
    exact ⟨hne, fun c hc ↦ isSome_hexDigit (h c hc)⟩
  have hfilter : s.filter (· ≠ cp '_') = s := List.filter_eq_self.mpr fun c hc ↦
    decide_eq_true (ne_of_isLowerHex (h c hc) (by decide +kernel))
  unfold parseHex
  rw [hmap, dropWhile_rdropWhile_of_forall hspace]
  cases s with
  | nil => exact absurd rfl hne
  | cons sign rest =>
    have hsign := h sign List.mem_cons_self
    have hminus : sign ≠ cp '-' := ne_of_isLowerHex hsign (by decide +kernel)
    have hplus : sign ≠ cp '+' := ne_of_isLowerHex hsign (by decide +kernel)
    simp only [if_neg hminus, if_neg hplus, hbase, hnumeral, hfilter, if_true,
      Bool.false_eq_true, if_false]

/-- The characters of a canonical text. -/
theorem of_mem_uuidText {id : Fin (2 ^ 128)} {c : CodePoint} (h : c ∈ uuidText id) :
    c = cp '-' ∨ isLowerHex c = true := by
  by_cases hdash : c = cp '-'
  · exact .inl hdash
  · have hmem : c ∈ (uuidText id).filter (· ≠ cp '-') :=
      List.mem_filter.mpr ⟨h, decide_eq_true hdash⟩
    rw [filter_uuidText] at hmem
    exact .inr (isLowerHex_of_mem_lowerHexDigits hmem)

theorem notMem_uuidText {id : Fin (2 ^ 128)} {c : CodePoint} (hdash : c ≠ cp '-')
    (hhex : isLowerHex c = false) : c ∉ uuidText id := by
  intro h
  rcases of_mem_uuidText h with rfl | h
  · exact hdash rfl
  · exact ne_of_isLowerHex h hhex rfl

theorem parseUuid_uuidText (id : Fin (2 ^ 128)) : parseUuid (uuidText id) = some id := by
  have hu : cp 'u' ∉ uuidText id := notMem_uuidText (by decide) (by decide +kernel)
  have hbraces : stripBraces (uuidText id) = uuidText id := by
    apply dropWhile_rdropWhile_of_forall
    intro c hc
    rw [Bool.or_eq_false_iff, beq_eq_false_iff_ne, beq_eq_false_iff_ne]
    constructor
    · rintro rfl
      exact notMem_uuidText (by decide) (by decide +kernel) hc
    · rintro rfl
      exact notMem_uuidText (by decide) (by decide +kernel) hc
  have hlength : (lowerHexDigits 32 id.val).length = 32 := lowerHexDigits_length 32 id.val
  have hne : lowerHexDigits 32 id.val ≠ [] := List.ne_nil_of_length_pos (by rw [hlength]; decide)
  have hvalue : hexValue (lowerHexDigits 32 id.val) = id.val := by
    rw [hexValue_lowerHexDigits]
    exact Nat.mod_eq_of_lt id.isLt
  unfold parseUuid
  rw [removeText_of_notMem (c := cp 'u') (by decide +kernel) hu,
    removeText_of_notMem (c := cp 'u') (by decide +kernel) hu, hbraces, filter_uuidText]
  dsimp only
  rw [if_pos hlength, parseHex_of_isLowerHex hne fun c ↦ isLowerHex_of_mem_lowerHexDigits]
  dsimp only
  rw [hvalue, dif_pos ⟨id.isLt, Int.natCast_nonneg _⟩]
  rfl

end DatumSync.Uploads
