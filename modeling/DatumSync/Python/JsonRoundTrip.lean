import DatumSync.Python.JsonScan

/-!
# `json.loads` reads back what `json.dumps` writes

By recursion on the containers of a value, with any blanks after the separators.  The keys of an
object must be distinct.  That a float is read back is a property of how Python shows it.
-/

namespace DatumSync.Python

/-- The text of a float is read back as the float. -/
def ReadsBack (text : Str) (x : PyFloat) : Prop :=
  ∀ rest, Stops rest → scanScalar (text ++ rest) = .ok (.float x, rest)

namespace Json

/-- Whether every part of a value is read back as it was written. -/
def Plain (reprFloat : PyFloat → Str) : Json → Prop
  | null => True
  | bool _ => True
  | int n => (digitsOf n.natAbs).length ≤ intMaxStrDigits
  | float x => ReadsBack (reprFloat x) x
  | text s => Unpaired s
  | arr items => PlainItems items
  | obj fields => (fields.map Prod.fst).Nodup ∧ PlainFields fields
where
  PlainItems : List Json → Prop
    | [] => True
    | v :: rest => Plain reprFloat v ∧ PlainItems rest
  PlainFields : List (Str × Json) → Prop
    | [] => True
    | (k, v) :: rest => Unpaired k ∧ Plain reprFloat v ∧ PlainFields rest

/-- Assigning a new key puts it at the end. -/
theorem assign_of_not_mem {fields : List (Str × Json)} {key : Str} (value : Json)
    (h : key ∉ fields.map Prod.fst) : assign fields key value = fields ++ [(key, value)] := by
  induction fields with
  | nil => rfl
  | cons field rest ih =>
    obtain ⟨k, v⟩ := field
    rw [List.map_cons, List.mem_cons, not_or] at h
    rw [assign, if_neg (Ne.symm h.1), ih h.2, List.cons_append]

end Json

/-! ## How a value starts -/

/-- What a number or a keyword may start with. -/
def startsScalar (c : CodePoint) : Bool :=
  isDigit c || [cp '-', cp 'n', cp 't', cp 'f', cp 'N', cp 'I'].contains c

theorem startsScalar_of_scan {c : CodePoint} {s : Str} {r : Json × Str}
    (h : scanScalar (c :: s) = .ok r) : startsScalar c = true := by
  by_contra hnot
  rw [startsScalar, Bool.or_eq_true, not_or, Bool.not_eq_true, List.contains_iff_mem] at hnot
  obtain ⟨hdigit, hmem⟩ := hnot
  have hne {d : CodePoint} (hd : d ∈ [cp '-', cp 'n', cp 't', cp 'f', cp 'N', cp 'I']) : d ≠ c :=
    fun heq ↦ hmem (heq ▸ hd)
  have hminus : cp '-' ≠ c := hne (by decide)
  rw [scanScalar_of_ne s (hne (by decide)) (hne (by decide))
    (hne (by decide)) (hne (by decide)) (hne (by decide))
    (startsWith_cons_of_ne hminus s _), if_neg hminus.symm, scanNumber, hdigit] at h
  cases h

def startsValue (c : CodePoint) : Bool :=
  startsScalar c || [cp '"', cp '[', cp '\x7b'].contains c

/-- A text that starts like a value. -/
def StartsValue (s : Str) : Prop := ∃ c rest, s = c :: rest ∧ startsValue c = true

theorem StartsValue.append {s : Str} (h : StartsValue s) (t : Str) : StartsValue (s ++ t) := by
  obtain ⟨c, rest, rfl, hc⟩ := h
  exact ⟨c, rest ++ t, rfl, hc⟩

/-- The whitespace the scanner skips. -/
def isBlank (c : CodePoint) : Bool := c == cp ' ' || c == cp '\t' || c == cp '\n' || c == cp '\r'

theorem skipSpace_cons {c : CodePoint} (hc : isBlank c = false) (s : Str) :
    skipSpace (c :: s) = c :: s := by
  change (c :: s).dropWhile isBlank = _
  rw [List.dropWhile_cons_of_neg (by rw [hc]; exact Bool.false_ne_true)]

theorem skipSpace_blanks {blanks s : Str} (hblanks : ∀ c ∈ blanks, isBlank c = true)
    (hs : skipSpace s = s) : skipSpace (blanks ++ s) = s := by
  change (blanks ++ s).dropWhile isBlank = s
  rw [List.dropWhile_append_of_pos hblanks]
  exact hs

theorem StartsValue.skipSpace {s : Str} (h : StartsValue s) : skipSpace s = s := by
  obtain ⟨c, rest, rfl, hc⟩ := h
  apply skipSpace_cons
  by_contra hblank
  rw [Bool.not_eq_false] at hblank
  simp only [isBlank, Bool.or_eq_true, beq_iff_eq] at hblank
  obtain ((rfl | rfl) | rfl) | rfl := hblank <;> exact absurd hc (by decide)

theorem ne_of_startsScalar {c d : CodePoint} (hc : startsScalar c = true)
    (hd : startsScalar d = false) : c ≠ d := by
  rintro rfl
  rw [hd] at hc
  cases hc

theorem scanValue_of_startsScalar {c : CodePoint} (hc : startsScalar c = true) (fuel depth : ℕ)
    (rest : Str) : scanValue (fuel + 1) depth (c :: rest) = scanScalar (c :: rest) := by
  have hquote : c ≠ cp '"' := ne_of_startsScalar hc (by decide)
  have hbracket : c ≠ cp '[' := ne_of_startsScalar hc (by decide)
  have hbrace : c ≠ cp '\x7b' := ne_of_startsScalar hc (by decide)
  rw [scanValue.eq_def]
  dsimp only
  rw [if_neg hquote, if_neg hbracket, if_neg hbrace]

/-- A text the scalar scanner reads is read as a value. -/
theorem scanValue_of_scanScalar {s : Str} {r : Json × Str} (h : scanScalar s = .ok r)
    (fuel depth : ℕ) : scanValue (fuel + 1) depth s = .ok r := by
  cases s with
  | nil => cases h
  | cons c rest => rw [scanValue_of_startsScalar (startsScalar_of_scan h), h]

theorem startsValue_of_scanScalar {s : Str} {r : Json × Str} (h : scanScalar s = .ok r) :
    StartsValue s := by
  cases s with
  | nil => cases h
  | cons c rest =>
    refine ⟨c, rest, rfl, ?_⟩
    rw [startsValue, startsScalar_of_scan h, Bool.true_or]

theorem stops_nil : Stops [] := .inl rfl

theorem stops_comma (s : Str) : Stops (cp ',' :: s) := .inr ⟨_, _, rfl, .inl rfl⟩

theorem stops_bracket (s : Str) : Stops (cp ']' :: s) := .inr ⟨_, _, rfl, .inr (.inl rfl)⟩

theorem stops_brace (s : Str) : Stops (cp '\x7d' :: s) := .inr ⟨_, _, rfl, .inr (.inr rfl)⟩

/-- The scanner on a keyword. -/
theorem scanScalar_keyword (rest : Str) :
    scanScalar (str "null" ++ rest) = .ok (.null, rest) ∧
      scanScalar (str "true" ++ rest) = .ok (.bool true, rest) ∧
      scanScalar (str "false" ++ rest) = .ok (.bool false, rest) := by
  have hstarts (word : Str) : startsWith (word ++ rest) word = true :=
    List.isPrefixOf_iff_prefix.mpr (List.prefix_append _ _)
  have htn : startsWith (str "true" ++ rest) (str "null") = false :=
    startsWith_cons_of_ne (by decide) _ _
  have hfn : startsWith (str "false" ++ rest) (str "null") = false :=
    startsWith_cons_of_ne (by decide) _ _
  have hft : startsWith (str "false" ++ rest) (str "true") = false :=
    startsWith_cons_of_ne (by decide) _ _
  refine ⟨?_, ?_, ?_⟩
  · rw [scanScalar.eq_def, hstarts]
    rfl
  · rw [scanScalar.eq_def, htn, hstarts]
    rfl
  · rw [scanScalar.eq_def, hfn, hft, hstarts]
    rfl

theorem length_le_escaped (s : Str) : s.length ≤ (s.flatMap escapeChar).length := by
  induction s with
  | nil => exact le_rfl
  | cons c s ih =>
    have hone : 1 ≤ (escapeChar c).length := by
      rw [escapeChar_length, escapeWidth]
      split_ifs <;> decide
    rw [List.flatMap_cons, List.length_append, List.length_cons]
    omega

/-- The scanner on a quoted text. -/
theorem scanString_quoted {s : Str} (hs : Unpaired s) (rest : Str) :
    ∃ body, quoted s ++ rest = cp '"' :: body ∧
      scanString (body.length + 1) body = .ok (s, rest) := by
  have hshape : quoted s ++ rest = cp '"' :: (s.flatMap escapeChar ++ cp '"' :: rest) := by
    rw [quoted, List.cons_append, List.append_assoc]
    rfl
  refine ⟨_, hshape, scanString_escaped hs rest ?_⟩
  have hwidth := length_le_escaped s
  rw [List.length_append]
  omega

variable {blanks gap : Str} {reprFloat : PyFloat → Str}

theorem startsValue_dumpsWith (item key : Str) {v : Json} (hv : v.Plain reprFloat) :
    StartsValue (dumpsWith item key reprFloat v) := by
  cases v with
  | null =>
    rw [dumpsWith, ← List.append_nil (str "null")]
    exact startsValue_of_scanScalar (scanScalar_keyword []).1
  | bool b =>
    cases b with
    | true =>
      rw [dumpsWith, ← List.append_nil (str "true")]
      exact startsValue_of_scanScalar (scanScalar_keyword []).2.1
    | false =>
      rw [dumpsWith, ← List.append_nil (str "false")]
      exact startsValue_of_scanScalar (scanScalar_keyword []).2.2
  | int n =>
    rw [dumpsWith, ← List.append_nil (decimal n)]
    exact startsValue_of_scanScalar (scanScalar_decimal hv stops_nil)
  | float x =>
    rw [dumpsWith, ← List.append_nil (reprFloat x)]
    exact startsValue_of_scanScalar (hv [] stops_nil)
  | text s =>
    rw [dumpsWith, quoted]
    exact ⟨_, _, rfl, by decide⟩
  | arr items =>
    rw [dumpsWith]
    exact ⟨_, _, rfl, by decide⟩
  | obj fields =>
    rw [dumpsWith]
    exact ⟨_, _, rfl, by decide⟩

theorem StartsValue.ne {s : Str} (h : StartsValue s) {c d : CodePoint} {rest : Str}
    (heq : s = c :: rest) (hd : startsValue d = false) : c ≠ d := by
  obtain ⟨c', rest', rfl, hc⟩ := h
  rintro rfl
  rw [(List.cons.inj heq).1, hd] at hc
  cases hc

/-! ## Values -/

/-- The scanner on an array that is not empty. -/
theorem scanValue_arr {items : List Json} {text rest : Str} (htext : StartsValue text)
    {fuel depth : ℕ} (hitems : scanItems fuel depth (text ++ cp ']' :: rest) = .ok (items, rest)) :
    scanValue (fuel + 1) (depth + 1) (cp '[' :: (text ++ cp ']' :: rest)) =
      .ok (.arr items, rest) := by
  have hquote : cp '[' ≠ cp '"' := by decide
  have hspace := (htext.append (cp ']' :: rest)).skipSpace
  obtain ⟨c, tail, hshape, -⟩ := htext.append (cp ']' :: rest)
  have hc : c ≠ cp ']' := (htext.append _).ne hshape (by decide)
  rw [scanValue.eq_def]
  dsimp only
  rw [if_neg hquote, if_pos rfl, hspace]
  rw [hshape] at hitems ⊢
  dsimp only
  rw [if_neg hc, hitems]
  rfl

theorem scanValue_obj {fields : List (Str × Json)} {text rest : Str}
    (htext : StartsValue text) {fuel depth : ℕ}
    (hfields : scanFields fuel depth [] (text ++ cp '\x7d' :: rest) = .ok (fields, rest)) :
    scanValue (fuel + 1) (depth + 1) (cp '\x7b' :: (text ++ cp '\x7d' :: rest)) =
      .ok (.obj fields, rest) := by
  have hquote : cp '\x7b' ≠ cp '"' := by decide
  have hbracket : cp '\x7b' ≠ cp '[' := by decide
  have hspace := (htext.append (cp '\x7d' :: rest)).skipSpace
  obtain ⟨c, tail, hshape, -⟩ := htext.append (cp '\x7d' :: rest)
  have hc : c ≠ cp '\x7d' := (htext.append _).ne hshape (by decide)
  rw [scanValue.eq_def]
  dsimp only
  rw [if_neg hquote, if_neg hbracket, if_pos rfl, hspace]
  rw [hshape] at hfields ⊢
  dsimp only
  rw [if_neg hc, hfields]
  rfl

theorem scan_ok_bind {α β : Type} (a : α) (f : α → Except LoadError β) :
    (Except.ok a >>= f) = f a := rfl

/-- The scanner on the last item of an array. -/
theorem scanItems_last {v : Json} {text rest : Str} {fuel depth : ℕ}
    (hvalue : scanValue fuel depth (text ++ cp ']' :: rest) = .ok (v, cp ']' :: rest)) :
    scanItems (fuel + 1) depth (text ++ cp ']' :: rest) = .ok ([v], rest) := by
  have hspace : skipSpace (cp ']' :: rest) = cp ']' :: rest :=
    skipSpace_cons (by decide) rest
  rw [scanItems, hvalue, scan_ok_bind]
  dsimp only
  rw [hspace]
  dsimp only
  rw [if_pos rfl]

/-- The scanner on an item that others follow. -/
theorem scanItems_cons {v : Json} {items : List Json} {text more rest : Str} {fuel depth : ℕ}
    (hvalue : scanValue fuel depth (text ++ cp ',' :: more) = .ok (v, cp ',' :: more))
    (hitems : scanItems fuel depth (skipSpace more) = .ok (items, rest)) :
    scanItems (fuel + 1) depth (text ++ cp ',' :: more) = .ok (v :: items, rest) := by
  have hspace : skipSpace (cp ',' :: more) = cp ',' :: more :=
    skipSpace_cons (by decide) more
  have hbracket : cp ',' ≠ cp ']' := by decide
  rw [scanItems, hvalue, scan_ok_bind]
  dsimp only
  rw [hspace]
  dsimp only
  rw [if_neg hbracket, if_pos rfl, hitems]
  rfl

/-- The scanner on a field, up to what follows its value. -/
theorem scanFields_field {k : Str} (hk : Unpaired k) {v : Json} {text after : Str}
    (hgap : ∀ c ∈ gap, isBlank c = true) (htext : StartsValue text) {fuel depth : ℕ}
    (hvalue : scanValue fuel depth (text ++ after) = .ok (v, after))
    (fields : List (Str × Json)) :
    scanFields (fuel + 1) depth fields (quoted k ++ (cp ':' :: gap ++ (text ++ after))) =
      match skipSpace after with
      | [] => .error .jsonDecodeError
      | d :: rest =>
        if d = cp '\x7d' then .ok (Json.assign fields k v, rest)
        else if d = cp ',' then
          scanFields fuel depth (Json.assign fields k v) (skipSpace rest)
        else .error .jsonDecodeError := by
  obtain ⟨body, hbody, hstring⟩ := scanString_quoted hk (cp ':' :: gap ++ (text ++ after))
  have hcolon : skipSpace (cp ':' :: gap ++ (text ++ after)) = cp ':' :: (gap ++ (text ++ after)) :=
    skipSpace_cons (by decide) _
  have hskip := skipSpace_blanks hgap (htext.append after).skipSpace
  rw [hbody, scanFields, if_pos rfl, hstring, scan_ok_bind]
  dsimp only
  rw [hcolon]
  dsimp only
  rw [if_pos rfl, hskip, hvalue]
  rfl

/-- The scanner on the last field of an object. -/
theorem scanFields_last {k : Str} (hk : Unpaired k) {v : Json} {text rest : Str}
    (hgap : ∀ c ∈ gap, isBlank c = true) (htext : StartsValue text) {fuel depth : ℕ}
    (hvalue : scanValue fuel depth (text ++ cp '\x7d' :: rest) = .ok (v, cp '\x7d' :: rest))
    (fields : List (Str × Json)) :
    scanFields (fuel + 1) depth fields
        (quoted k ++ (cp ':' :: gap ++ (text ++ cp '\x7d' :: rest))) =
      .ok (Json.assign fields k v, rest) := by
  have hspace : skipSpace (cp '\x7d' :: rest) = cp '\x7d' :: rest :=
    skipSpace_cons (by decide) rest
  rw [scanFields_field hk hgap htext hvalue, hspace]
  dsimp only
  rw [if_pos rfl]

/-- The scanner on a field that others follow. -/
theorem scanFields_cons {k : Str} (hk : Unpaired k) {v : Json} {text more : Str}
    (hgap : ∀ c ∈ gap, isBlank c = true) (htext : StartsValue text) {fuel depth : ℕ}
    (hvalue : scanValue fuel depth (text ++ cp ',' :: more) = .ok (v, cp ',' :: more))
    (fields : List (Str × Json)) :
    scanFields (fuel + 1) depth fields (quoted k ++ (cp ':' :: gap ++ (text ++ cp ',' :: more))) =
      scanFields fuel depth (Json.assign fields k v) (skipSpace more) := by
  have hspace : skipSpace (cp ',' :: more) = cp ',' :: more :=
    skipSpace_cons (by decide) more
  have hbrace : cp ',' ≠ cp '\x7d' := by decide
  rw [scanFields_field hk hgap htext hvalue, hspace]
  dsimp only
  rw [if_neg hbrace, if_pos rfl]

/-- The scanner on an empty container. -/
theorem scanValue_empty (fuel depth : ℕ) (rest : Str) :
    scanValue (fuel + 1) (depth + 1) (cp '[' :: cp ']' :: rest) = .ok (.arr [], rest) ∧
      scanValue (fuel + 1) (depth + 1) (cp '\x7b' :: cp '\x7d' :: rest) =
        .ok (.obj [], rest) := by
  constructor
  · have hspace : skipSpace (cp ']' :: rest) = cp ']' :: rest :=
      skipSpace_cons (by decide) rest
    rw [scanValue.eq_def]
    dsimp only
    rw [if_neg (by decide), if_pos rfl, hspace]
    dsimp only
    rw [if_pos rfl]
  · have hspace : skipSpace (cp '\x7d' :: rest) = cp '\x7d' :: rest :=
      skipSpace_cons (by decide) rest
    rw [scanValue.eq_def]
    dsimp only
    rw [if_neg (by decide), if_neg (by decide), if_pos rfl, hspace]
    dsimp only
    rw [if_pos rfl]

/-- The items of an array that is not empty start like a value. -/
theorem startsValue_items {item key : Str} (first : Json) (others : List Json)
    (hfirst : first.Plain reprFloat) :
    StartsValue (item.intercalate (dumpsWith.dumpsItems item key reprFloat (first :: others))) := by
  rw [dumpsWith.dumpsItems]
  cases others with
  | nil =>
    rw [dumpsWith.dumpsItems, List.intercalate_singleton]
    exact startsValue_dumpsWith _ _ hfirst
  | cons second others =>
    rw [dumpsWith.dumpsItems, List.intercalate_cons_cons, List.append_assoc]
    exact (startsValue_dumpsWith _ _ hfirst).append _

/-- The fields of an object that is not empty start with a quote. -/
theorem startsValue_fields {item key : Str} (k : Str) (v : Json) (others : List (Str × Json)) :
    StartsValue
      (item.intercalate (dumpsWith.dumpsFields item key reprFloat ((k, v) :: others))) := by
  have hquoted : StartsValue (quoted k) := ⟨_, _, rfl, by decide⟩
  rw [dumpsWith.dumpsFields]
  cases others with
  | nil =>
    rw [dumpsWith.dumpsFields, List.intercalate_singleton]
    exact (hquoted.append _).append _
  | cons second others =>
    obtain ⟨l, w⟩ := second
    rw [dumpsWith.dumpsFields, List.intercalate_cons_cons, List.append_assoc]
    exact ((hquoted.append _).append _).append _

mutual

/-- The scanner reads a value back from its text, whatever may follow a value. -/
theorem scanValue_dumpsWith (hblanks : ∀ c ∈ blanks, isBlank c = true)
    (hgap : ∀ c ∈ gap, isBlank c = true)
    (v : Json) (hv : v.Plain reprFloat) {fuel depth : ℕ} {rest : Str} (hdepth : v.depth ≤ depth)
    (hrest : Stops rest)
    (hfuel : 2 * (dumpsWith (cp ',' :: blanks) (cp ':' :: gap) reprFloat v).length ≤ fuel) :
    scanValue fuel depth
      (dumpsWith (cp ',' :: blanks) (cp ':' :: gap) reprFloat v ++ rest) = .ok (v, rest) := by
  obtain ⟨c, tail, hshape, -⟩ :=
    startsValue_dumpsWith (cp ',' :: blanks) (cp ':' :: gap) hv
  have hlength := congrArg List.length hshape
  rw [List.length_cons] at hlength
  obtain ⟨left, hleft⟩ : ∃ n, fuel = n + 1 := ⟨fuel - 1, by omega⟩
  rw [hleft]
  cases v with
  | null => exact scanValue_of_scanScalar (scanScalar_keyword rest).1 left depth
  | bool b =>
    cases b with
    | true => exact scanValue_of_scanScalar (scanScalar_keyword rest).2.1 left depth
    | false => exact scanValue_of_scanScalar (scanScalar_keyword rest).2.2 left depth
  | int n => exact scanValue_of_scanScalar (scanScalar_decimal hv hrest) left depth
  | float x => exact scanValue_of_scanScalar (hv rest hrest) left depth
  | text s =>
    obtain ⟨body, hbody, hstring⟩ := scanString_quoted hv rest
    rw [dumpsWith, hbody, scanValue.eq_def]
    dsimp only
    rw [if_pos rfl, hstring]
    rfl
  | arr items =>
    rw [Json.depth] at hdepth
    obtain ⟨inner, hinner⟩ : ∃ n, depth = n + 1 := ⟨depth - 1, by omega⟩
    rw [hinner, dumpsWith, List.cons_append, List.append_assoc]
    cases items with
    | nil => exact (scanValue_empty left inner rest).1
    | cons first others =>
      rw [dumpsWith, List.length_cons, List.length_append, List.length_singleton] at hfuel
      exact scanValue_arr (startsValue_items first others hv.1)
        (scanItems_dumpsItems hblanks hgap first others hv.1 hv.2 (by omega) (by omega))
  | obj fields =>
    rw [Json.depth] at hdepth
    obtain ⟨inner, hinner⟩ : ∃ n, depth = n + 1 := ⟨depth - 1, by omega⟩
    rw [hinner, dumpsWith, List.cons_append, List.append_assoc]
    cases fields with
    | nil => exact (scanValue_empty left inner rest).2
    | cons first others =>
      obtain ⟨k, v⟩ := first
      rw [dumpsWith, List.length_cons, List.length_append, List.length_singleton] at hfuel
      refine scanValue_obj (startsValue_fields k v others) ?_
      rw [scanFields_dumpsFields hblanks hgap k v others [] hv.2.1 hv.2.2.1 hv.2.2.2 hv.1
        (by omega) (by omega), List.nil_append]
termination_by fuel

theorem scanItems_dumpsItems (hblanks : ∀ c ∈ blanks, isBlank c = true)
    (hgap : ∀ c ∈ gap, isBlank c = true)
    (first : Json) (others : List Json) (hfirst : first.Plain reprFloat)
    (hothers : Json.Plain.PlainItems reprFloat others) {fuel depth : ℕ} {rest : Str}
    (hdepth : Json.depth.depthItems (first :: others) ≤ depth)
    (hfuel : 2 * ((cp ',' :: blanks).intercalate (dumpsWith.dumpsItems (cp ',' :: blanks)
      (cp ':' :: gap) reprFloat (first :: others))).length + 1 ≤ fuel) :
    scanItems fuel depth ((cp ',' :: blanks).intercalate (dumpsWith.dumpsItems
      (cp ',' :: blanks) (cp ':' :: gap) reprFloat (first :: others)) ++ cp ']' :: rest) =
      .ok (first :: others, rest) := by
  obtain ⟨left, hleft⟩ : ∃ n, fuel = n + 1 := ⟨fuel - 1, by omega⟩
  rw [hleft]
  rw [Json.depth.depthItems] at hdepth
  cases others with
  | nil =>
    rw [dumpsWith.dumpsItems, dumpsWith.dumpsItems, List.intercalate_singleton] at hfuel ⊢
    exact scanItems_last (scanValue_dumpsWith hblanks hgap first hfirst (by omega)
      (stops_bracket rest) (by omega))
  | cons second others =>
    rw [dumpsWith.dumpsItems, dumpsWith.dumpsItems, List.intercalate_cons_cons,
      ← dumpsWith.dumpsItems] at hfuel ⊢
    rw [List.length_append, List.length_append, List.length_cons] at hfuel
    rw [List.append_assoc, List.append_assoc, List.cons_append]
    refine scanItems_cons (scanValue_dumpsWith hblanks hgap first hfirst (by omega)
      (stops_comma _) (by omega)) ?_
    rw [skipSpace_blanks hblanks ((startsValue_items second others hothers.1).append _).skipSpace]
    exact scanItems_dumpsItems hblanks hgap second others hothers.1 hothers.2 (by omega) (by omega)
termination_by fuel

theorem scanFields_dumpsFields (hblanks : ∀ c ∈ blanks, isBlank c = true)
    (hgap : ∀ c ∈ gap, isBlank c = true)
    (k : Str) (v : Json) (others before : List (Str × Json)) (hk : Unpaired k)
    (hv : v.Plain reprFloat) (hothers : Json.Plain.PlainFields reprFloat others)
    (hnodup : ((before ++ (k, v) :: others).map Prod.fst).Nodup) {fuel depth : ℕ} {rest : Str}
    (hdepth : Json.depth.depthFields ((k, v) :: others) ≤ depth)
    (hfuel : 2 * ((cp ',' :: blanks).intercalate (dumpsWith.dumpsFields (cp ',' :: blanks)
      (cp ':' :: gap) reprFloat ((k, v) :: others))).length + 1 ≤ fuel) :
    scanFields fuel depth before ((cp ',' :: blanks).intercalate (dumpsWith.dumpsFields
      (cp ',' :: blanks) (cp ':' :: gap) reprFloat ((k, v) :: others)) ++ cp '\x7d' :: rest) =
      .ok (before ++ (k, v) :: others, rest) := by
  obtain ⟨left, hleft⟩ : ∃ n, fuel = n + 1 := ⟨fuel - 1, by omega⟩
  rw [hleft]
  rw [Json.depth.depthFields] at hdepth
  have hnew : k ∉ before.map Prod.fst := by
    rw [List.map_append, List.nodup_append] at hnodup
    exact fun hmem ↦ hnodup.2.2 k hmem k List.mem_cons_self rfl
  have hassign := Json.assign_of_not_mem v hnew
  cases others with
  | nil =>
    rw [dumpsWith.dumpsFields, dumpsWith.dumpsFields, List.intercalate_singleton] at hfuel ⊢
    rw [List.length_append] at hfuel
    rw [List.append_assoc, List.append_assoc, scanFields_last hk hgap (startsValue_dumpsWith _ _ hv)
      (scanValue_dumpsWith hblanks hgap v hv (by omega) (stops_brace rest) (by omega)), hassign]
  | cons second others =>
    obtain ⟨l, w⟩ := second
    rw [dumpsWith.dumpsFields, dumpsWith.dumpsFields, List.intercalate_cons_cons,
      ← dumpsWith.dumpsFields] at hfuel ⊢
    rw [List.length_append, List.length_append, List.length_append, List.length_cons] at hfuel
    rw [List.append_assoc, List.append_assoc, List.append_assoc, List.append_assoc,
      @List.cons_append _ _ blanks,
      scanFields_cons hk hgap (startsValue_dumpsWith _ _ hv) (scanValue_dumpsWith hblanks hgap v hv
        (by omega) (stops_comma _) (by omega)), hassign,
      skipSpace_blanks hblanks (((startsValue_fields l w others).append _).skipSpace)]
    have hnodup' : ((before ++ [(k, v)] ++ (l, w) :: others).map Prod.fst).Nodup := by
      rwa [List.append_assoc]
    rw [scanFields_dumpsFields hblanks hgap l w others (before ++ [(k, v)]) hothers.1 hothers.2.1
      hothers.2.2 hnodup' (by omega) (by omega), List.append_assoc]
    rfl
termination_by fuel

end

/-- `json.loads` of what `json.dumps` writes, with any blanks after the separators. -/
theorem jsonLoads_dumpsWith (hblanks : ∀ c ∈ blanks, isBlank c = true)
    (hgap : ∀ c ∈ gap, isBlank c = true) {v : Json} (hv : v.Plain reprFloat) {depth : ℕ}
    (hdepth : v.depth ≤ depth) :
    jsonLoads depth (dumpsWith (cp ',' :: blanks) (cp ':' :: gap) reprFloat v) = .ok v := by
  have hstart := startsValue_dumpsWith (cp ',' :: blanks) (cp ':' :: gap) hv
  have hscan := scanValue_dumpsWith hblanks hgap v hv hdepth stops_nil (Nat.le_add_right _ 2)
  have hspace := hstart.skipSpace
  obtain ⟨c, tail, hshape, hc⟩ := hstart
  have hmark : (0xFEFF : CodePoint) ≠ c := by
    rintro rfl
    exact absurd hc (by decide)
  rw [List.append_nil] at hscan
  rw [jsonLoads, hspace, hscan, hshape, startsWith_cons_of_ne hmark]
  rfl

end DatumSync.Python
