import DatumSync.Python.Json

/-!
# Writing JSON

`json.dumps` with its defaults: every character outside the printable ASCII range is escaped, so
the text has as many bytes as characters.  What a character takes is its `escapeWidth`: one, two
with a backslash in front, six as a `\u` escape, and twelve as a pair of them.
-/

namespace DatumSync.Python

/-- Only characters that UTF-8 encodes as one byte. -/
def IsAscii (s : Str) : Prop := ∀ c ∈ s, c.val < 0x80

instance (s : Str) : Decidable (IsAscii s) :=
  List.decidableBAll (fun c : CodePoint ↦ c.val < 0x80) s

theorem IsAscii.append {s t : Str} (hs : IsAscii s) (ht : IsAscii t) : IsAscii (s ++ t) :=
  fun c hc ↦ (List.mem_append.mp hc).elim (hs c) (ht c)

theorem IsAscii.cons {c : CodePoint} {s : Str} (hc : c.val < 0x80) (hs : IsAscii s) :
    IsAscii (c :: s) :=
  fun d hd ↦ (List.mem_cons.mp hd).elim (fun h ↦ h ▸ hc) (hs d)

theorem isAscii_nil : IsAscii [] := fun _ h ↦ absurd h List.not_mem_nil

theorem isAscii_intercalate {sep : Str} (hsep : IsAscii sep) {parts : List Str}
    (h : ∀ part ∈ parts, IsAscii part) : IsAscii (sep.intercalate parts) := by
  induction parts with
  | nil => exact isAscii_nil
  | cons first rest ih =>
    have hfirst : IsAscii first := h first List.mem_cons_self
    have hrest : IsAscii (sep.intercalate rest) :=
      ih fun part hpart ↦ h part (List.mem_cons_of_mem _ hpart)
    cases rest with
    | nil => simpa using hfirst
    | cons second others =>
      rw [List.intercalate_cons_cons]
      exact (hfirst.append hsep).append hrest

/-- The UTF-8 form of an ASCII text has one byte for each character. -/
theorem encodeUtf8_of_isAscii {s : Str} (h : IsAscii s) :
    ∃ bytes, encodeUtf8 s = some bytes ∧ bytes.length = s.length := by
  have hnone : ¬ s.any isSurrogate = true := by
    rw [List.any_eq_true]
    rintro ⟨c, hc, hsurrogate⟩
    have hlow := h c hc
    have hhigh := (of_decide_eq_true hsurrogate).1
    omega
  refine ⟨s.flatMap encodeCodePoint, if_neg hnone, ?_⟩
  clear hnone
  induction s with
  | nil => rfl
  | cons c rest ih =>
    have hc : c.val < 0x80 := h c List.mem_cons_self
    have hone : (encodeCodePoint c).length = 1 := by
      rw [encodeCodePoint]
      simp [hc]
    rw [List.flatMap_cons, List.length_append, hone,
      ih fun d hd ↦ h d (List.mem_cons_of_mem _ hd), List.length_cons, Nat.add_comm]

/-! ## Characters -/

def lowerHex (d : ℕ) : CodePoint :=
  if h : d < 10 then ⟨0x30 + d, by omega⟩ else ⟨0x57 + d % 16, by omega⟩

/-- The last `count` hexadecimal digits of a number. -/
def lowerHexDigits : (count n : ℕ) → Str
  | 0, _ => []
  | count + 1, n => lowerHexDigits count (n / 16) ++ [lowerHex (n % 16)]

def utf16Escape (n : ℕ) : Str := str "\\u" ++ lowerHexDigits 4 n

/-- `ESCAPE_DCT`: the letter behind the backslash. -/
def shortEscape (c : CodePoint) : Option CodePoint :=
  [(cp '"', cp '"'), (cp '\\', cp '\\'), (cp '\n', cp 'n'), (cp '\r', cp 'r'), (cp '\t', cp 't'),
    (8, cp 'b'), (12, cp 'f')].lookup c

/-- How `ensure_ascii` writes a character. -/
def escapeChar (c : CodePoint) : Str :=
  match shortEscape c with
  | some letter => [cp '\\', letter]
  | none =>
    if 0x20 ≤ c.val ∧ c.val ≤ 0x7E then [c]
    else if c.val < 0x10000 then utf16Escape c.val
    else utf16Escape (0xD800 + (c.val - 0x10000) / 0x400) ++
      utf16Escape (0xDC00 + (c.val - 0x10000) % 0x400)

/-- How many characters `ensure_ascii` writes for one. -/
def escapeWidth (c : CodePoint) : ℕ :=
  if (shortEscape c).isSome then 2
  else if 0x20 ≤ c.val ∧ c.val ≤ 0x7E then 1
  else if c.val < 0x10000 then 6
  else 12

/-- The width of a text between its quotes. -/
def escapedWidth (s : Str) : ℕ := (s.map escapeWidth).sum

theorem lowerHexDigits_length (count n : ℕ) : (lowerHexDigits count n).length = count := by
  induction count generalizing n with
  | zero => rfl
  | succ count ih => rw [lowerHexDigits, List.length_append, ih, List.length_singleton]

theorem lowerHex_isAscii (d : ℕ) : (lowerHex d).val < 0x80 := by
  unfold lowerHex
  split <;> dsimp only <;> omega

theorem lowerHexDigits_isAscii (count n : ℕ) : IsAscii (lowerHexDigits count n) := by
  induction count generalizing n with
  | zero => exact isAscii_nil
  | succ count ih => exact (ih _).append (isAscii_nil.cons (lowerHex_isAscii _))

theorem utf16Escape_length (n : ℕ) : (utf16Escape n).length = 6 := by
  rw [utf16Escape, List.length_append, lowerHexDigits_length]
  rfl

theorem utf16Escape_isAscii (n : ℕ) : IsAscii (utf16Escape n) := by
  have hlead : IsAscii (str "\\u") := by decide
  exact hlead.append (lowerHexDigits_isAscii 4 n)

theorem shortEscape_isAscii {c letter : CodePoint} (h : shortEscape c = some letter) :
    letter.val < 0x80 := by
  obtain ⟨before, after, hsplit, -⟩ := List.lookup_eq_some_iff.mp h
  have hletters : IsAscii ([(cp '"', cp '"'), (cp '\\', cp '\\'), (cp '\n', cp 'n'),
      (cp '\r', cp 'r'), (cp '\t', cp 't'), (8, cp 'b'), (12, cp 'f')].map Prod.snd) := by
    decide
  apply hletters letter
  rw [hsplit]
  simp

theorem escapeChar_length (c : CodePoint) : (escapeChar c).length = escapeWidth c := by
  unfold escapeChar escapeWidth
  cases shortEscape c with
  | some letter => rfl
  | none =>
    dsimp only
    rw [if_neg (show ¬ (none : Option CodePoint).isSome = true from Bool.false_ne_true)]
    split
    · rfl
    · split
      · exact utf16Escape_length _
      · rw [List.length_append, utf16Escape_length, utf16Escape_length]

theorem escapeChar_isAscii (c : CodePoint) : IsAscii (escapeChar c) := by
  unfold escapeChar
  split
  · next letter hletter =>
    have hbackslash : (cp '\\').val < 0x80 := by decide
    exact (isAscii_nil.cons (shortEscape_isAscii hletter)).cons hbackslash
  · split
    · next hplain => exact isAscii_nil.cons (by omega)
    · split
      · exact utf16Escape_isAscii _
      · exact (utf16Escape_isAscii _).append (utf16Escape_isAscii _)

theorem escapedWidth_append (s t : Str) :
    escapedWidth (s ++ t) = escapedWidth s + escapedWidth t := by
  rw [escapedWidth, List.map_append, List.sum_append, escapedWidth, escapedWidth]

theorem escapedWidth_replicate (n : ℕ) (c : CodePoint) :
    escapedWidth (List.replicate n c) = n * escapeWidth c := by
  rw [escapedWidth, List.map_replicate, List.sum_replicate_nat]

theorem escapedWidth_lowerHexDigits (count n : ℕ) :
    escapedWidth (lowerHexDigits count n) = count := by
  have hplain : ∀ d < 16, escapeWidth (lowerHex d) = 1 := by decide
  induction count generalizing n with
  | zero => rfl
  | succ count ih =>
    have hdigit : escapedWidth [lowerHex (n % 16)] = 1 := hplain _ (Nat.mod_lt _ (by decide))
    rw [lowerHexDigits, escapedWidth_append, ih, hdigit]

/-- A string literal: `ensure_ascii` between quotes. -/
def quoted (s : Str) : Str := cp '"' :: (s.flatMap escapeChar ++ [cp '"'])

theorem quoted_length (s : Str) : (quoted s).length = escapedWidth s + 2 := by
  have hbody : (s.flatMap escapeChar).length = escapedWidth s := by
    induction s with
    | nil => rfl
    | cons c rest ih =>
      rw [List.flatMap_cons, List.length_append, ih, escapeChar_length, escapedWidth, escapedWidth,
        List.map_cons, List.sum_cons]
  rw [quoted, List.length_cons, List.length_append, hbody, List.length_singleton]

theorem quoted_isAscii (s : Str) : IsAscii (quoted s) := by
  have hquote : (cp '"').val < 0x80 := by decide
  have hbody : IsAscii (s.flatMap escapeChar) := fun c hc ↦ by
    obtain ⟨d, -, hd⟩ := List.mem_flatMap.mp hc
    exact escapeChar_isAscii d c hd
  exact (hbody.append (isAscii_nil.cons hquote)).cons hquote

theorem str_isAscii {s : String} (h : ∀ c ∈ s.toList, c.toNat < 0x80) : IsAscii (str s) := by
  intro c hc
  obtain ⟨d, hd, rfl⟩ := List.mem_map.mp hc
  exact h d hd

theorem decimal_isAscii (n : ℤ) : IsAscii (decimal n) := by
  have hdigits : ∀ k : ℕ, ∀ c ∈ k.repr.toList, c.toNat < 0x80 := by
    intro k c hc
    rw [Nat.toList_repr] at hc
    have hdigit := Nat.isDigit_of_mem_toDigits (by decide) (by decide) hc
    rw [Char.isDigit_iff_toNat] at hdigit
    exact hdigit.2.trans_lt (by decide)
  apply str_isAscii
  intro c hc
  rw [Int.toString_eq_repr, Int.repr_eq_if] at hc
  split at hc
  · exact hdigits _ c hc
  · rw [String.toList_append] at hc
    rcases List.mem_append.mp hc with hminus | hdigit
    · have hlist : "-".toList = ['-'] := rfl
      rw [hlist, List.mem_singleton] at hminus
      rw [hminus]
      decide
    · exact hdigits _ c hdigit

/-! ## Values -/

/-- `json.dumps(v)`; `reprFloat` is how Python shows a float. -/
def dumps (reprFloat : PyFloat → Str) : Json → Str
  | .null => str "null"
  | .bool true => str "true"
  | .bool false => str "false"
  | .int n => decimal n
  | .float x => reprFloat x
  | .text s => quoted s
  | .arr items => [cp '['] ++ (str ", ").intercalate (dumpsItems items) ++ [cp ']']
  | .obj fields => [cp '\x7b'] ++ (str ", ").intercalate (dumpsFields fields) ++ [cp '\x7d']
where
  dumpsItems : List Json → List Str
    | [] => []
    | v :: rest => dumps reprFloat v :: dumpsItems rest
  dumpsFields : List (Str × Json) → List Str
    | [] => []
    | (k, v) :: rest => (quoted k ++ str ": " ++ dumps reprFloat v) :: dumpsFields rest

/-- Quotes, colon and separator take six characters a field; the last field has the braces instead
of a separator. -/
theorem dumps_obj_length (reprFloat : PyFloat → Str) {fields : List (Str × Json)}
    (h : fields ≠ []) : (dumps reprFloat (.obj fields)).length =
      (fields.map fun f ↦ escapedWidth f.1 + (dumps reprFloat f.2).length + 6).sum := by
  have hsep : (str ", ").length = 2 := rfl
  have hcolon : (str ": ").length = 2 := rfl
  have hparts : ((str ", ").intercalate (dumps.dumpsFields reprFloat fields)).length + 2 =
      (fields.map fun f ↦ escapedWidth f.1 + (dumps reprFloat f.2).length + 6).sum := by
    induction fields with
    | nil => exact absurd rfl h
    | cons field rest ih =>
      obtain ⟨k, v⟩ := field
      have hpart : (quoted k ++ str ": " ++ dumps reprFloat v).length =
          escapedWidth k + (dumps reprFloat v).length + 4 := by
        rw [List.length_append, List.length_append, quoted_length, hcolon]
        omega
      rw [dumps.dumpsFields, List.map_cons, List.sum_cons]
      cases rest with
      | nil =>
        rw [dumps.dumpsFields, List.intercalate_singleton, hpart]
        rfl
      | cons second others =>
        have hrest := ih (List.cons_ne_nil second others)
        rw [dumps.dumpsFields] at hrest ⊢
        rw [List.intercalate_cons_cons, List.length_append, List.length_append, hpart, hsep]
        dsimp only
        omega
  rw [dumps, List.length_append, List.length_append, List.length_singleton, List.length_singleton]
  omega

/-- How many characters the text of a value has. -/
def dumpsWidth (reprFloat : PyFloat → Str) : Json → ℕ
  | .null => 4
  | .bool b => if b then 4 else 5
  | .int n => (decimal n).length
  | .float x => (reprFloat x).length
  | .text s => escapedWidth s + 2
  | .arr items => max 2 (widthItems items)
  | .obj fields => max 2 (widthFields fields)
where
  widthItems : List Json → ℕ
    | [] => 0
    | v :: rest => dumpsWidth reprFloat v + 2 + widthItems rest
  widthFields : List (Str × Json) → ℕ
    | [] => 0
    | (k, v) :: rest => escapedWidth k + dumpsWidth reprFloat v + 6 + widthFields rest

mutual

theorem length_dumps (reprFloat : PyFloat → Str) :
    ∀ v, (dumps reprFloat v).length = dumpsWidth reprFloat v
  | .null => rfl
  | .bool true => rfl
  | .bool false => rfl
  | .int _ => rfl
  | .float _ => rfl
  | .text s => quoted_length s
  | .arr [] => rfl
  | .arr (v :: rest) => by
    have hitems := length_dumpsItems reprFloat (v :: rest) (List.cons_ne_nil v rest)
    rw [dumps, dumpsWidth, List.length_append, List.length_append, List.length_singleton,
      List.length_singleton]
    omega
  | .obj [] => rfl
  | .obj (field :: rest) => by
    have hfields := length_dumpsFields reprFloat (field :: rest) (List.cons_ne_nil field rest)
    rw [dumps, dumpsWidth, List.length_append, List.length_append, List.length_singleton,
      List.length_singleton]
    omega

theorem length_dumpsItems (reprFloat : PyFloat → Str) : ∀ items, items ≠ [] →
    ((str ", ").intercalate (dumps.dumpsItems reprFloat items)).length + 2 =
      dumpsWidth.widthItems reprFloat items
  | [], h => absurd rfl h
  | [v], _ => by
    rw [dumps.dumpsItems, dumps.dumpsItems, List.intercalate_singleton, length_dumps,
      dumpsWidth.widthItems, dumpsWidth.widthItems, Nat.add_zero]
  | v :: w :: rest, _ => by
    have hrest := length_dumpsItems reprFloat (w :: rest) (List.cons_ne_nil w rest)
    have hsep : (str ", ").length = 2 := rfl
    rw [dumps.dumpsItems] at hrest
    rw [dumps.dumpsItems, dumps.dumpsItems, List.intercalate_cons_cons, List.length_append,
      List.length_append, length_dumps reprFloat v, hsep, dumpsWidth.widthItems]
    omega

theorem length_dumpsFields (reprFloat : PyFloat → Str) : ∀ fields, fields ≠ [] →
    ((str ", ").intercalate (dumps.dumpsFields reprFloat fields)).length + 2 =
      dumpsWidth.widthFields reprFloat fields
  | [], h => absurd rfl h
  | [(k, v)], _ => by
    have hcolon : (str ": ").length = 2 := rfl
    rw [dumps.dumpsFields, dumps.dumpsFields, List.intercalate_singleton, List.length_append,
      List.length_append, quoted_length, length_dumps reprFloat v, hcolon, dumpsWidth.widthFields,
      dumpsWidth.widthFields]
    omega
  | (k, v) :: (k', v') :: rest, _ => by
    have hrest := length_dumpsFields reprFloat ((k', v') :: rest) (List.cons_ne_nil _ rest)
    have hsep : (str ", ").length = 2 := rfl
    have hcolon : (str ": ").length = 2 := rfl
    rw [dumps.dumpsFields] at hrest
    rw [dumps.dumpsFields, dumps.dumpsFields, List.intercalate_cons_cons, List.length_append,
      List.length_append, List.length_append, List.length_append, quoted_length,
      length_dumps reprFloat v, hsep, hcolon, dumpsWidth.widthFields]
    omega

end

/-- `json.dumps(v, separators=(item, key))` -/
def dumpsWith (item key : Str) (reprFloat : PyFloat → Str) : Json → Str
  | .null => str "null"
  | .bool true => str "true"
  | .bool false => str "false"
  | .int n => decimal n
  | .float x => reprFloat x
  | .text s => quoted s
  | .arr items => cp '[' :: (item.intercalate (dumpsItems items) ++ [cp ']'])
  | .obj fields => cp '\x7b' :: (item.intercalate (dumpsFields fields) ++ [cp '\x7d'])
where
  dumpsItems : List Json → List Str
    | [] => []
    | v :: rest => dumpsWith item key reprFloat v :: dumpsItems rest
  dumpsFields : List (Str × Json) → List Str
    | [] => []
    | (k, v) :: rest => (quoted k ++ key ++ dumpsWith item key reprFloat v) :: dumpsFields rest

mutual

/-- The default separators are a comma and a colon, each with a space. -/
theorem dumps_eq (reprFloat : PyFloat → Str) :
    ∀ v, dumps reprFloat v = dumpsWith (str ", ") (str ": ") reprFloat v
  | .null => rfl
  | .bool true => rfl
  | .bool false => rfl
  | .int _ => rfl
  | .float _ => rfl
  | .text _ => rfl
  | .arr items => by
    rw [dumps, dumpsWith, dumpsItems_eq reprFloat items, List.append_assoc, List.singleton_append]
  | .obj fields => by
    rw [dumps, dumpsWith, dumpsFields_eq reprFloat fields, List.append_assoc,
      List.singleton_append]

theorem dumpsItems_eq (reprFloat : PyFloat → Str) :
    ∀ items, dumps.dumpsItems reprFloat items =
      dumpsWith.dumpsItems (str ", ") (str ": ") reprFloat items
  | [] => rfl
  | v :: rest => by
    rw [dumps.dumpsItems, dumpsWith.dumpsItems, dumps_eq reprFloat v, dumpsItems_eq reprFloat rest]

theorem dumpsFields_eq (reprFloat : PyFloat → Str) :
    ∀ fields, dumps.dumpsFields reprFloat fields =
      dumpsWith.dumpsFields (str ", ") (str ": ") reprFloat fields
  | [] => rfl
  | (k, v) :: rest => by
    rw [dumps.dumpsFields, dumpsWith.dumpsFields, dumps_eq reprFloat v,
      dumpsFields_eq reprFloat rest]

end

mutual

theorem dumpsWith_isAscii {item key : Str} (hitem : IsAscii item) (hkey : IsAscii key)
    {reprFloat : PyFloat → Str} (hfloat : ∀ x, IsAscii (reprFloat x)) :
    ∀ v, IsAscii (dumpsWith item key reprFloat v)
  | .null => by
    rw [dumpsWith]
    decide
  | .bool true => by
    rw [dumpsWith]
    decide
  | .bool false => by
    rw [dumpsWith]
    decide
  | .int n => decimal_isAscii n
  | .float x => hfloat x
  | .text s => quoted_isAscii s
  | .arr items => by
    have hclose : IsAscii [cp ']'] := by decide
    rw [dumpsWith]
    exact IsAscii.cons (by decide)
      ((isAscii_intercalate hitem (dumpsWith_items hitem hkey hfloat items)).append hclose)
  | .obj fields => by
    have hclose : IsAscii [cp '\x7d'] := by decide
    rw [dumpsWith]
    exact IsAscii.cons (by decide)
      ((isAscii_intercalate hitem (dumpsWith_fields hitem hkey hfloat fields)).append hclose)

theorem dumpsWith_items {item key : Str} (hitem : IsAscii item) (hkey : IsAscii key)
    {reprFloat : PyFloat → Str} (hfloat : ∀ x, IsAscii (reprFloat x)) :
    ∀ items, ∀ part ∈ dumpsWith.dumpsItems item key reprFloat items, IsAscii part
  | [] => fun _ h ↦ absurd h List.not_mem_nil
  | v :: rest => fun part h ↦ by
    rw [dumpsWith.dumpsItems] at h
    rcases List.mem_cons.mp h with rfl | h
    · exact dumpsWith_isAscii hitem hkey hfloat v
    · exact dumpsWith_items hitem hkey hfloat rest part h

theorem dumpsWith_fields {item key : Str} (hitem : IsAscii item) (hkey : IsAscii key)
    {reprFloat : PyFloat → Str} (hfloat : ∀ x, IsAscii (reprFloat x)) :
    ∀ fields, ∀ part ∈ dumpsWith.dumpsFields item key reprFloat fields, IsAscii part
  | [] => fun _ h ↦ absurd h List.not_mem_nil
  | (k, v) :: rest => fun part h ↦ by
    rw [dumpsWith.dumpsFields] at h
    rcases List.mem_cons.mp h with rfl | h
    · exact ((quoted_isAscii k).append hkey).append (dumpsWith_isAscii hitem hkey hfloat v)
    · exact dumpsWith_fields hitem hkey hfloat rest part h

end

theorem dumps_isAscii {reprFloat : PyFloat → Str} (hfloat : ∀ x, IsAscii (reprFloat x)) (v : Json) :
    IsAscii (dumps reprFloat v) := by
  rw [dumps_eq]
  exact dumpsWith_isAscii (by decide) (by decide) hfloat v

end DatumSync.Python
