import DatumSync.Python.Doubles
import DatumSync.Python.JsonRoundTrip

/-!
# What `jsonb` takes

PostgreSQL reads the text of a `jsonb` value character by character: the grammar of JSON, with
strings that have no NUL and only whole pairs of surrogates.  Of the texts that `json.dumps` writes
it takes those of the values that have neither special floats nor such strings.
-/

namespace DatumSync.Python.JsonbIn

/-! ## Numbers -/

/-- How far a number has been read. -/
inductive NumberState where
  | start
  | minus
  | zero
  | integer
  | point
  | fraction
  | exponent
  | sign
  | power
  deriving DecidableEq

namespace NumberState

/-- The number may end here. -/
def complete : NumberState → Bool
  | zero => true
  | integer => true
  | fraction => true
  | power => true
  | _ => false

/-- The first digit; nothing but a point or an exponent follows a leading zero. -/
def firstDigit (c : CodePoint) : Option NumberState :=
  if c = cp '0' then some zero else if isDigit c then some integer else none

def afterDigits (c : CodePoint) : Option NumberState :=
  if c = cp 'e' ∨ c = cp 'E' then some exponent else none

def afterInteger (c : CodePoint) : Option NumberState :=
  if c = cp '.' then some point else afterDigits c

def step (state : NumberState) (c : CodePoint) : Option NumberState :=
  match state with
  | start => if c = cp '-' then some minus else firstDigit c
  | minus => firstDigit c
  | zero => afterInteger c
  | integer => if isDigit c then some integer else afterInteger c
  | point => if isDigit c then some fraction else none
  | fraction => if isDigit c then some fraction else afterDigits c
  | exponent =>
    if c = cp '+' ∨ c = cp '-' then some sign else if isDigit c then some power else none
  | sign => if isDigit c then some power else none
  | power => if isDigit c then some power else none

def run : NumberState → Str → Option NumberState
  | state, [] => some state
  | state, c :: rest => (state.step c).bind fun next ↦ run next rest

end NumberState

def isNumber (s : Str) : Bool := (NumberState.start.run s).any NumberState.complete

/-! ## Strings -/

/-- One UTF-16 unit of a string, where `pending` says that the one before is half of a pair; what
it leaves pending. -/
def unit (pending : Bool) (n : ℕ) : Option Bool :=
  if 0xD800 ≤ n ∧ n ≤ 0xDBFF then if pending then none else some true
  else if 0xDC00 ≤ n ∧ n ≤ 0xDFFF then if pending then some false else none
  else if pending ∨ n = 0 then none else some false

def keepsFrom : (pending : Bool) → Str → Bool
  | pending, [] => !pending
  | pending, c :: rest =>
    match unit pending c.val with
    | some pending => keepsFrom pending rest
    | none => false

/-- No NUL, and every surrogate is one of a pair. -/
def keeps (s : Str) : Bool := keepsFrom false s

/-! ## Documents -/

inductive Frame where
  | arr
  | obj
  deriving DecidableEq

/-- What is to be read next. -/
inductive Place where
  | value
  | firstItem
  | firstKey
  | key
  | colon
  | done
  | word (rest : Str)
  | number (state : NumberState)
  | string (isKey pending : Bool)
  | escape (isKey pending : Bool)
  | hex (isKey pending : Bool) (count n : ℕ)
  deriving DecidableEq

/-- The reader: where it stands, and the containers that are open around it. -/
structure Reader where
  place : Place
  frames : List Frame
  deriving DecidableEq

def stepValue (frames : List Frame) (c : CodePoint) : Option Reader :=
  if c = cp '"' then some ⟨.string false false, frames⟩
  else if c = cp '[' then some ⟨.firstItem, .arr :: frames⟩
  else if c = cp '\x7b' then some ⟨.firstKey, .obj :: frames⟩
  else if c = cp 'n' then some ⟨.word (str "ull"), frames⟩
  else if c = cp 't' then some ⟨.word (str "rue"), frames⟩
  else if c = cp 'f' then some ⟨.word (str "alse"), frames⟩
  else (NumberState.start.step c).map fun state ↦ ⟨.number state, frames⟩

/-- A character after a value. -/
def stepDone (frames : List Frame) (c : CodePoint) : Option Reader :=
  if isBlank c then some ⟨.done, frames⟩
  else match frames with
    | [] => none
    | .arr :: outer =>
      if c = cp ',' then some ⟨.value, frames⟩
      else if c = cp ']' then some ⟨.done, outer⟩ else none
    | .obj :: outer =>
      if c = cp ',' then some ⟨.key, frames⟩
      else if c = cp '\x7d' then some ⟨.done, outer⟩ else none

def afterString (isKey : Bool) : Place := if isKey then .colon else .done

def Reader.step (reader : Reader) (c : CodePoint) : Option Reader :=
  let frames := reader.frames
  match reader.place with
  | .value => if isBlank c then some reader else stepValue frames c
  | .firstItem =>
    if isBlank c then some reader
    else if c = cp ']' then some ⟨.done, frames.tail⟩ else stepValue frames c
  | .firstKey =>
    if isBlank c then some reader
    else if c = cp '\x7d' then some ⟨.done, frames.tail⟩
    else if c = cp '"' then some ⟨.string true false, frames⟩ else none
  | .key =>
    if isBlank c then some reader
    else if c = cp '"' then some ⟨.string true false, frames⟩ else none
  | .colon =>
    if isBlank c then some reader else if c = cp ':' then some ⟨.value, frames⟩ else none
  | .done => stepDone frames c
  | .word [] => none
  | .word (d :: rest) =>
    if c = d then some ⟨if rest = [] then .done else .word rest, frames⟩ else none
  | .number state =>
    match state.step c with
    | some next => some ⟨.number next, frames⟩
    | none => if state.complete then stepDone frames c else none
  | .string isKey pending =>
    if c = cp '"' then if pending then none else some ⟨afterString isKey, frames⟩
    else if c = cp '\\' then some ⟨.escape isKey pending, frames⟩
    else if c.val < 0x20 ∨ isSurrogate c = true ∨ pending = true then none
    else some ⟨.string isKey false, frames⟩
  | .escape isKey pending =>
    if c = cp 'u' then some ⟨.hex isKey pending 0 0, frames⟩
    else if pending = false ∧ (escaped c).isSome = true then some ⟨.string isKey false, frames⟩
    else none
  | .hex isKey pending count n =>
    (hexDigit c).bind fun d ↦
      if count = 3 then
        (unit pending (n * 16 + d)).map fun pending ↦ ⟨.string isKey pending, frames⟩
      else some ⟨.hex isKey pending (count + 1) (n * 16 + d), frames⟩

def Reader.run : Reader → Str → Option Reader
  | reader, [] => some reader
  | reader, c :: rest => (reader.step c).bind fun next ↦ run next rest

/-- The text may end here. -/
def Reader.final (reader : Reader) : Bool :=
  reader.frames.isEmpty && match reader.place with
    | .done => true
    | .number state => state.complete
    | _ => false

/-- The text is that of a `jsonb` value; how large its numbers are is not looked at. -/
def accepts (text : Str) : Bool := (Reader.run ⟨.value, []⟩ text).any Reader.final

example : accepts (str "\x7b\"a\": [1, -2.5e+3, \"\\ud83d\\ude00\"]\x7d") = true := by
  decide +kernel

example : accepts (str "[\"\\ud83d\"]") = false := by decide +kernel

/-! ## Values that are taken -/

/-- Python's texts of floats: numbers of JSON, but for the special ones. -/
structure FloatText (reprFloat : PyFloat → Str) : Prop where
  finite : ∀ x, x.isFinite = true → isNumber (reprFloat x) = true
  nan : reprFloat .nan = str "NaN"
  infinite : ∀ negative,
    reprFloat (.infinite negative) = if negative then str "-Infinity" else str "Infinity"

/-- Neither special floats nor strings that are not kept. -/
def storable : Json → Bool
  | .float x => x.isFinite
  | .text s => keeps s
  | .arr items => storableItems items
  | .obj fields => storableFields fields
  | _ => true
where
  storableItems : List Json → Bool
    | [] => true
    | v :: rest => storable v && storableItems rest
  storableFields : List (Str × Json) → Bool
    | [] => true
    | (k, v) :: rest => keeps k && storable v && storableFields rest

variable {frames : List Frame} {isKey pending : Bool} {c : CodePoint} {s rest : Str}

theorem Reader.run_cons (reader : Reader) (c : CodePoint) (rest : Str) :
    reader.run (c :: rest) = (reader.step c).bind fun next ↦ next.run rest := rfl

theorem run_of_step {reader next : Reader} (h : reader.step c = some next) :
    reader.run (c :: rest) = next.run rest := by
  rw [Reader.run_cons, h, Option.bind_some]

/-! ### Strings -/

/-- One escape of a unit. -/
theorem run_utf16Escape {n : ℕ} (hn : n < 0x10000) :
    Reader.run ⟨.string isKey pending, frames⟩ (utf16Escape n ++ rest) =
      (unit pending n).bind fun pending ↦ Reader.run ⟨.string isKey pending, frames⟩ rest := by
  have hdigits : utf16Escape n ++ rest = cp '\\' :: cp 'u' :: lowerHex (n / 16 / 16 / 16 % 16) ::
      lowerHex (n / 16 / 16 % 16) :: lowerHex (n / 16 % 16) :: lowerHex (n % 16) :: rest := rfl
  have hvalue : ((n / 16 / 16 / 16 % 16 * 16 + n / 16 / 16 % 16) * 16 + n / 16 % 16) * 16 +
      n % 16 = n := by omega
  have hhex {count m d : ℕ} (hd : d < 16) (hcount : count ≠ 3) (after : Str) :
      Reader.run ⟨.hex isKey pending count m, frames⟩ (lowerHex d :: after) =
        Reader.run ⟨.hex isKey pending (count + 1) (m * 16 + d), frames⟩ after := by
    apply run_of_step
    simp only [Reader.step, hexDigit_lowerHex d hd, Option.bind_some, if_neg hcount]
  rw [hdigits, run_of_step (by rfl : _ = some ⟨.escape isKey pending, frames⟩),
    run_of_step (by rfl : _ = some ⟨.hex isKey pending 0 0, frames⟩),
    hhex (Nat.mod_lt _ (by decide)) (by decide), hhex (Nat.mod_lt _ (by decide)) (by decide),
    hhex (Nat.mod_lt _ (by decide)) (by decide), Reader.run_cons]
  simp only [Reader.step, hexDigit_lowerHex _ (Nat.mod_lt n (by decide : 0 < 16)),
    Option.bind_some, if_true, Nat.zero_mul, Nat.zero_add, hvalue]
  cases unit pending n <;> rfl

theorem unit_of_plain (h : isSurrogate c = false) (h0 : c.val ≠ 0) :
    unit pending c.val = if pending then none else some false := by
  rw [isSurrogate, decide_eq_false_iff_not] at h
  rw [unit, if_neg (by omega), if_neg (by omega)]
  simp only [h0, or_false]

theorem unit_of_shortEscape {letter : CodePoint} (h : shortEscape c = some letter) :
    unit pending c.val = if pending then none else some false := by
  have hall : ([(cp '"', cp '"'), (cp '\\', cp '\\'), (cp '\n', cp 'n'), (cp '\r', cp 'r'),
      (cp '\t', cp 't'), (8, cp 'b'), (12, cp 'f')].all fun p ↦
        decide (isSurrogate p.1 = false ∧ p.1.val ≠ 0)) = true := by decide
  obtain ⟨before, after, hsplit, -⟩ := List.lookup_eq_some_iff.mp h
  have hmem := List.all_eq_true.mp hall (c, letter) (by
    rw [hsplit]
    exact List.mem_append_right _ List.mem_cons_self)
  obtain ⟨hplain, h0⟩ := of_decide_eq_true hmem
  exact unit_of_plain hplain h0

/-- What is written as it is is no surrogate. -/
theorem isSurrogate_of_plain (h : escapeChar c = [c]) : isSurrogate c = false := by
  have hascii := escapeChar_isAscii c c (by rw [h]; exact List.mem_singleton_self c)
  exact decide_eq_false (by omega)

/-- The escapes of a pair. -/
theorem run_pair {high low : ℕ} (hhigh : high < 0x10000) (hlow : low < 0x10000)
    (hfirst : unit pending high = if pending then none else some true)
    (hsecond : unit true low = some false) :
    Reader.run ⟨.string isKey pending, frames⟩ (utf16Escape high ++ (utf16Escape low ++ rest)) =
      (if pending then none else some false).bind fun pending ↦
        Reader.run ⟨.string isKey pending, frames⟩ rest := by
  rw [run_utf16Escape hhigh, hfirst]
  cases pending with
  | true => rfl
  | false =>
    simp only [Bool.false_eq_true, if_false, Option.bind_some]
    rw [run_utf16Escape hlow, hsecond, Option.bind_some]

/-- One character as `json.dumps` writes it. -/
theorem run_escapeChar :
    Reader.run ⟨.string isKey pending, frames⟩ (escapeChar c ++ rest) =
      (unit pending c.val).bind fun pending ↦
        Reader.run ⟨.string isKey pending, frames⟩ rest := by
  rcases escapeChar_cases c with ⟨letter, hletter, htext⟩ | ⟨hlow, hquote, hbackslash, htext⟩ |
    ⟨hsmall, htext⟩ | ⟨hlarge, htext⟩
  · obtain ⟨hnotU, hescaped⟩ := shortEscape_escaped hletter
    rw [htext, List.cons_append, List.singleton_append,
      run_of_step (by rfl : _ = some ⟨.escape isKey pending, frames⟩), Reader.run_cons,
      unit_of_shortEscape hletter]
    simp only [Reader.step, if_neg hnotU, hescaped, Option.isSome_some, and_true]
    cases pending <;> rfl
  · have hnotSurrogate : isSurrogate c = false := isSurrogate_of_plain htext
    rw [htext, List.singleton_append, Reader.run_cons, unit_of_plain hnotSurrogate (by omega)]
    simp only [Reader.step, if_neg hquote, if_neg hbackslash, not_lt.mpr hlow, hnotSurrogate,
      Bool.false_eq_true, false_or]
    cases pending <;> rfl
  · rw [htext]
    exact run_utf16Escape hsmall
  · have hbound := c.isLt
    have hhigh : unit pending (0xD800 + (c.val - 0x10000) / 0x400) =
        if pending then none else some true := by
      rw [unit, if_pos (by omega)]
    have hlow : unit true (0xDC00 + (c.val - 0x10000) % 0x400) = some false := by
      rw [unit, if_neg (by omega), if_pos (by omega), if_pos rfl]
    have hnotSurrogate : isSurrogate c = false := decide_eq_false (by omega)
    rw [htext, List.append_assoc, unit_of_plain hnotSurrogate (by omega)]
    exact run_pair (by omega) (by omega) hhigh hlow

/-- A string up to its closing quote. -/
theorem run_string :
    Reader.run ⟨.string isKey pending, frames⟩ (s.flatMap escapeChar ++ cp '"' :: rest) = if
      keepsFrom pending s then Reader.run ⟨afterString isKey, frames⟩ rest else none := by
  induction s generalizing pending with
  | nil => cases pending <;> rfl
  | cons c more ih =>
    rw [List.flatMap_cons, List.append_assoc, run_escapeChar, keepsFrom]
    cases unit pending c.val with
    | none => rfl
    | some next => exact ih

/-- A string literal where a value is to come. -/
theorem run_quoted : Reader.run ⟨.value, frames⟩ (quoted s ++ rest) =
    if keeps s then Reader.run ⟨.done, frames⟩ rest else none := by
  rw [quoted, List.cons_append, List.append_assoc, List.singleton_append,
    run_of_step (by rfl : _ = some ⟨.string false false, frames⟩), run_string]
  rfl

/-- A string literal where a key is to come. -/
theorem run_quoted_key : Reader.run ⟨.key, frames⟩ (quoted s ++ rest) =
    if keeps s then Reader.run ⟨.colon, frames⟩ rest else none := by
  rw [quoted, List.cons_append, List.append_assoc, List.singleton_append,
    run_of_step (by rfl : _ = some ⟨.string true false, frames⟩), run_string]
  rfl

/-! ### Words and numbers -/

theorem run_word {word : Str} (h : word ≠ []) :
    Reader.run ⟨.word word, frames⟩ (word ++ rest) = Reader.run ⟨.done, frames⟩ rest := by
  induction word with
  | nil => exact absurd rfl h
  | cons c more ih =>
    rw [List.cons_append, Reader.run_cons]
    simp only [Reader.step, if_true, Option.bind_some]
    cases more with
    | nil => rfl
    | cons d others => exact ih (List.cons_ne_nil d others)

/-- What ends a value that has no end of its own. -/
def IsEnd (c : CodePoint) : Prop := c = cp ',' ∨ c = cp ']' ∨ c = cp '\x7d'

theorem step_of_isEnd (h : IsEnd c) (state : NumberState) : state.step c = none := by
  rcases h with rfl | rfl | rfl <;> cases state <;> decide

/-- A number up to what ends it. -/
theorem run_number {state : NumberState} {stop : CodePoint} (hend : IsEnd stop)
    (h : (state.run s).any NumberState.complete = true) :
    Reader.run ⟨.number state, frames⟩ (s ++ stop :: rest) =
      Reader.run ⟨.done, frames⟩ (stop :: rest) := by
  induction s generalizing state with
  | nil =>
    have hcomplete : state.complete = true := h
    rw [List.nil_append, Reader.run_cons, Reader.run_cons]
    simp only [Reader.step, step_of_isEnd hend, hcomplete, if_true]
  | cons c more ih =>
    rw [NumberState.run] at h
    rw [List.cons_append, Reader.run_cons]
    cases hstep : state.step c with
    | none =>
      rw [hstep] at h
      cases h
    | some next =>
      rw [hstep, Option.bind_some] at h
      simp only [Reader.step, hstep, Option.bind_some]
      exact ih h

theorem isAscii_of_run {state final : NumberState} (h : state.run s = some final) : IsAscii s := by
  have hchar {state next : NumberState} {c : CodePoint} (h : state.step c = some next) :
      c.val < 0x80 := by
    by_contra hlarge
    have hdigit : isDigit c = false := decide_eq_false (by omega)
    have hne {d : CodePoint} (hd : d.val < 0x80) : c ≠ d := by
      rintro rfl
      exact hlarge hd
    cases state <;>
      simp only [NumberState.step, NumberState.firstDigit, NumberState.afterInteger,
        NumberState.afterDigits, hdigit, Bool.false_eq_true, if_false,
        if_neg (hne (by decide : (cp '-').val < 0x80)),
        if_neg (hne (by decide : (cp '0').val < 0x80)),
        if_neg (hne (by decide : (cp '.').val < 0x80)),
        if_neg (not_or.mpr ⟨hne (by decide : (cp 'e').val < 0x80),
          hne (by decide : (cp 'E').val < 0x80)⟩),
        if_neg (not_or.mpr ⟨hne (by decide : (cp '+').val < 0x80),
          hne (by decide : (cp '-').val < 0x80)⟩), reduceCtorEq] at h
  induction s generalizing state with
  | nil => exact isAscii_nil
  | cons c more ih =>
    rw [NumberState.run] at h
    obtain ⟨next, hstep, hrest⟩ := Option.bind_eq_some_iff.mp h
    exact (ih hrest).cons (hchar hstep)

theorem isAscii_of_isNumber (h : isNumber s = true) : IsAscii s := by
  obtain ⟨final, hfinal, -⟩ := (Option.any_eq_true _ _).mp h
  exact isAscii_of_run hfinal

theorem FloatText.isAscii {reprFloat : PyFloat → Str} (h : FloatText reprFloat) (x : PyFloat) :
    IsAscii (reprFloat x) := by
  cases x with
  | nan =>
    rw [h.nan]
    decide
  | infinite negative =>
    rw [h.infinite]
    cases negative <;> decide
  | finite negative mantissa exponent => exact isAscii_of_isNumber (h.finite _ rfl)

/-- What a number starts with is nothing that another value starts with. -/
theorem step_value_of_number {state : NumberState} (h : NumberState.start.step c = some state) :
    Reader.step ⟨.value, frames⟩ c = some ⟨.number state, frames⟩ ∧ isBlank c = false ∧
      c ≠ cp ']' := by
  have hchar : c = cp '-' ∨ isDigit c = true := by
    rw [NumberState.step] at h
    split at h
    · next hminus => exact .inl hminus
    · rw [NumberState.firstDigit] at h
      split at h
      · next hzero =>
        rw [hzero]
        exact .inr (by decide)
      · split at h
        · next hdigit => exact .inr hdigit
        · cases h
  have hne {d : CodePoint} (hminus : cp '-' ≠ d) (hd : isDigit d = false) : c ≠ d := by
    rintro rfl
    rcases hchar with heq | hdigit
    · exact hminus heq.symm
    · rw [hd] at hdigit
      cases hdigit
  have hblank : isBlank c = false := by
    rw [isBlank, Bool.or_eq_false_iff, Bool.or_eq_false_iff, Bool.or_eq_false_iff,
      beq_eq_false_iff_ne, beq_eq_false_iff_ne, beq_eq_false_iff_ne, beq_eq_false_iff_ne]
    exact ⟨⟨⟨hne (by decide) (by decide), hne (by decide) (by decide)⟩,
      hne (by decide) (by decide)⟩, hne (by decide) (by decide)⟩
  refine ⟨?_, hblank, hne (by decide) (by decide)⟩
  simp only [Reader.step, hblank, Bool.false_eq_true, if_false, stepValue,
    if_neg (hne (d := cp '"') (by decide) (by decide)),
    if_neg (hne (d := cp '[') (by decide) (by decide)),
    if_neg (hne (d := cp '\x7b') (by decide) (by decide)),
    if_neg (hne (d := cp 'n') (by decide) (by decide)),
    if_neg (hne (d := cp 't') (by decide) (by decide)),
    if_neg (hne (d := cp 'f') (by decide) (by decide)), h, Option.map_some]

theorem exists_of_isNumber (h : isNumber s = true) : ∃ c more state, s = c :: more ∧
    NumberState.start.step c = some state ∧ (state.run more).any NumberState.complete = true := by
  cases s with
  | nil => cases h
  | cons c more =>
    rw [isNumber, NumberState.run] at h
    cases hstep : NumberState.start.step c with
    | none =>
      rw [hstep] at h
      cases h
    | some state =>
      rw [hstep] at h
      exact ⟨c, more, state, rfl, hstep, h⟩

theorem run_isNumber {stop : CodePoint} (hend : IsEnd stop) (h : isNumber s = true) :
    Reader.run ⟨.value, frames⟩ (s ++ stop :: rest) =
      Reader.run ⟨.done, frames⟩ (stop :: rest) := by
  obtain ⟨c, more, state, rfl, hstep, hcomplete⟩ := exists_of_isNumber h
  rw [List.cons_append, run_of_step (step_value_of_number hstep).1]
  exact run_number hend hcomplete

theorem run_integer_digits (h : ∀ c ∈ s, isDigit c = true) :
    NumberState.integer.run s = some .integer := by
  induction s with
  | nil => rfl
  | cons c more ih =>
    rw [NumberState.run, NumberState.step, if_pos (h c List.mem_cons_self), Option.bind_some]
    exact ih fun d hd ↦ h d (List.mem_cons_of_mem _ hd)

/-- The digits of a number, read from a state that takes the first digit. -/
theorem run_digitsOf (n : ℕ) {state : NumberState}
    (hstate : ∀ c, isDigit c = true → state.step c = NumberState.firstDigit c) :
    (state.run (digitsOf n)).any NumberState.complete = true := by
  obtain ⟨c, digits, heq, hc⟩ := exists_digitsOf n
  have hdigits : ∀ d ∈ digits, isDigit d = true := fun d hd ↦
    isDigit_of_mem_digitsOf (by rw [heq]; exact List.mem_cons_of_mem _ hd)
  rw [heq, NumberState.run, hstate c hc, NumberState.firstDigit]
  by_cases hzero : c = cp '0'
  · have hn : n = 0 := by
      by_contra hpos
      exact head_digitsOf (Nat.pos_of_ne_zero hpos) heq hzero
    have hnil : digits = [] := by
      rw [hn] at heq
      have hdigit : digitsOf 0 = [cp '0'] := by decide
      rw [hdigit] at heq
      exact (List.cons.inj heq).2.symm
    rw [if_pos hzero, hnil]
    rfl
  · rw [if_neg hzero, if_pos hc, Option.bind_some, run_integer_digits hdigits]
    rfl

theorem isNumber_decimal (n : ℤ) : isNumber (decimal n) = true := by
  have hfirst : ∀ c, isDigit c = true → NumberState.start.step c = NumberState.firstDigit c := by
    intro c hc
    refine if_neg ?_
    rintro rfl
    exact absurd hc (by decide)
  by_cases hn : 0 ≤ n
  · rw [decimal_of_nonneg hn]
    exact run_digitsOf _ hfirst
  · rw [decimal_of_neg hn]
    exact run_digitsOf _ fun c _ ↦ rfl

/-! ### Documents -/

section Documents

variable {reprFloat : PyFloat → Str}

/-- How the text of a value starts. -/
theorem exists_dumps (hfloat : FloatText reprFloat) (v : Json) :
    ∃ c more, dumps reprFloat v = c :: more ∧ isBlank c = false ∧ c ≠ cp ']' := by
  have hnumber {s : Str} (h : isNumber s = true) :
      ∃ c more, s = c :: more ∧ isBlank c = false ∧ c ≠ cp ']' := by
    obtain ⟨c, more, state, heq, hstep, -⟩ := exists_of_isNumber h
    exact ⟨c, more, heq, (@step_value_of_number [] c state hstep).2⟩
  cases v with
  | null => exact ⟨cp 'n', _, rfl, by decide, by decide⟩
  | bool b =>
    cases b with
    | true => exact ⟨cp 't', _, rfl, by decide, by decide⟩
    | false => exact ⟨cp 'f', _, rfl, by decide, by decide⟩
  | int n => exact hnumber (isNumber_decimal n)
  | float x =>
    rw [dumps]
    cases x with
    | nan =>
      rw [hfloat.nan]
      exact ⟨cp 'N', _, rfl, by decide, by decide⟩
    | infinite negative =>
      rw [hfloat.infinite]
      cases negative with
      | true => exact ⟨cp '-', _, rfl, by decide, by decide⟩
      | false => exact ⟨cp 'I', _, rfl, by decide, by decide⟩
    | finite negative mantissa exponent => exact hnumber (hfloat.finite _ rfl)
  | text s => exact ⟨cp '"', _, rfl, by decide, by decide⟩
  | arr items => exact ⟨cp '[', _, rfl, by decide, by decide⟩
  | obj fields => exact ⟨cp '\x7b', _, rfl, by decide, by decide⟩

/-- The text of items starts with the text of the first. -/
theorem dumpsItems_front (v : Json) (items : List Json) (after : Str) :
    ∃ more, (str ", ").intercalate (dumps.dumpsItems reprFloat (v :: items)) ++ after =
      dumps reprFloat v ++ more := by
  cases items with
  | nil =>
    rw [dumps.dumpsItems, dumps.dumpsItems, List.intercalate_singleton]
    exact ⟨after, rfl⟩
  | cons w items =>
    rw [dumps.dumpsItems, dumps.dumpsItems, List.intercalate_cons_cons, List.append_assoc,
      List.append_assoc]
    exact ⟨_, rfl⟩

/-- The text of fields starts with the first key. -/
theorem dumpsFields_front (k : Str) (v : Json) (fields : List (Str × Json)) (after : Str) :
    ∃ more, (str ", ").intercalate (dumps.dumpsFields reprFloat ((k, v) :: fields)) ++ after =
      quoted k ++ more := by
  cases fields with
  | nil =>
    rw [dumps.dumpsFields, dumps.dumpsFields, List.intercalate_singleton, List.append_assoc,
      List.append_assoc]
    exact ⟨_, rfl⟩
  | cons field fields =>
    rw [dumps.dumpsFields, dumps.dumpsFields, List.intercalate_cons_cons, List.append_assoc,
      List.append_assoc, List.append_assoc, List.append_assoc]
    exact ⟨_, rfl⟩

/-- The first item of a list is read as any value. -/
theorem run_firstItem (hfloat : FloatText reprFloat) (v : Json) (items : List Json) (after : Str) :
    Reader.run ⟨.value, frames⟩
        (cp '[' :: ((str ", ").intercalate (dumps.dumpsItems reprFloat (v :: items)) ++ after)) =
      Reader.run ⟨.value, .arr :: frames⟩
        ((str ", ").intercalate (dumps.dumpsItems reprFloat (v :: items)) ++ after) := by
  obtain ⟨more, hmore⟩ := @dumpsItems_front reprFloat v items after
  obtain ⟨c, tail, heq, hblank, hclose⟩ := exists_dumps hfloat v
  rw [hmore, heq, List.cons_append,
    run_of_step (by rfl : _ = some ⟨.firstItem, .arr :: frames⟩), Reader.run_cons, Reader.run_cons]
  simp only [Reader.step, hblank, Bool.false_eq_true, if_false, if_neg hclose]

/-- The first key of an object is read as any key. -/
theorem run_firstKey (k : Str) (v : Json) (fields : List (Str × Json)) (after : Str) :
    Reader.run ⟨.value, frames⟩ (cp '\x7b' ::
        ((str ", ").intercalate (dumps.dumpsFields reprFloat ((k, v) :: fields)) ++ after)) =
      Reader.run ⟨.key, .obj :: frames⟩
        ((str ", ").intercalate (dumps.dumpsFields reprFloat ((k, v) :: fields)) ++ after) := by
  obtain ⟨more, hmore⟩ := @dumpsFields_front reprFloat k v fields after
  rw [hmore, quoted, List.cons_append]
  rfl

/-- The special floats are refused. -/
theorem run_float (hfloat : FloatText reprFloat) (x : PyFloat) {stop : CodePoint}
    (hstop : IsEnd stop) : Reader.run ⟨.value, frames⟩ (reprFloat x ++ stop :: rest) =
      if x.isFinite then Reader.run ⟨.done, frames⟩ (stop :: rest) else none := by
  cases x with
  | nan =>
    rw [hfloat.nan]
    rfl
  | infinite negative =>
    rw [hfloat.infinite]
    cases negative <;> rfl
  | finite negative mantissa exponent => exact run_isNumber hstop (hfloat.finite _ rfl)

theorem separator (after : Str) : str ", " ++ after = cp ',' :: cp ' ' :: after := rfl

theorem run_comma_item (after : Str) : Reader.run ⟨.done, .arr :: frames⟩ (str ", " ++ after) =
    Reader.run ⟨.value, .arr :: frames⟩ after := rfl

theorem run_comma_field (after : Str) : Reader.run ⟨.done, .obj :: frames⟩ (str ", " ++ after) =
    Reader.run ⟨.key, .obj :: frames⟩ after := rfl

theorem run_colon (after : Str) : Reader.run ⟨.colon, frames⟩ (str ": " ++ after) =
    Reader.run ⟨.value, frames⟩ after := rfl

/-- A condition on what comes first and one on what comes next. -/
theorem ite_and {α : Type} (a b : Bool) (x : Option α) :
    (if a && b then x else none) = if a then (if b then x else none) else none := by
  cases a <;> rfl

mutual

/-- The text of a value is read up to what ends it if the value is storable, and refused
otherwise. -/
theorem run_dumps (hfloat : FloatText reprFloat) :
    ∀ (v : Json) (frames : List Frame) {stop : CodePoint} (_ : IsEnd stop) (rest : Str),
      Reader.run ⟨.value, frames⟩ (dumps reprFloat v ++ stop :: rest) =
        if storable v then Reader.run ⟨.done, frames⟩ (stop :: rest) else none
  | .null, _, _, _, _ => by
    rw [dumps]
    exact run_word (List.cons_ne_nil _ _)
  | .bool true, _, _, _, _ => by
    rw [dumps]
    exact run_word (List.cons_ne_nil _ _)
  | .bool false, _, _, _, _ => by
    rw [dumps]
    exact run_word (List.cons_ne_nil _ _)
  | .int n, _, _, hstop, _ => by
    rw [dumps]
    exact run_isNumber hstop (isNumber_decimal n)
  | .float x, _, _, hstop, _ => by
    rw [dumps]
    exact run_float hfloat x hstop
  | .text s, _, _, _, _ => by
    rw [dumps]
    exact run_quoted
  | .arr [], _, _, _, _ => rfl
  | .arr (v :: items), frames, stop, _, rest => by
    rw [dumps, List.append_assoc, List.append_assoc, List.singleton_append, List.singleton_append,
      run_firstItem hfloat, run_items hfloat (v :: items) (List.cons_ne_nil v items) frames,
      storable]
  | .obj [], _, _, _, _ => rfl
  | .obj ((k, v) :: fields), frames, stop, _, rest => by
    rw [dumps, List.append_assoc, List.append_assoc, List.singleton_append, List.singleton_append,
      run_firstKey, run_fields hfloat ((k, v) :: fields) (List.cons_ne_nil _ fields) frames,
      storable]

theorem run_items (hfloat : FloatText reprFloat) :
    ∀ (items : List Json) (_ : items ≠ []) (frames : List Frame) (rest : Str),
      Reader.run ⟨.value, .arr :: frames⟩
        ((str ", ").intercalate (dumps.dumpsItems reprFloat items) ++ cp ']' :: rest) =
          if storable.storableItems items then Reader.run ⟨.done, frames⟩ rest else none
  | [], h, _, _ => absurd rfl h
  | [v], _, frames, rest => by
    rw [dumps.dumpsItems, dumps.dumpsItems, List.intercalate_singleton,
      run_dumps hfloat v (.arr :: frames) (.inr (.inl rfl)) rest, storable.storableItems,
      storable.storableItems, Bool.and_true]
    rfl
  | v :: w :: items, _, frames, rest => by
    have hrest := run_items hfloat (w :: items) (List.cons_ne_nil w items) frames rest
    have hstorable : storable.storableItems (v :: w :: items) =
        (storable v && storable.storableItems (w :: items)) := rfl
    rw [dumps.dumpsItems] at hrest
    rw [dumps.dumpsItems, dumps.dumpsItems, List.intercalate_cons_cons, List.append_assoc,
      List.append_assoc, separator, run_dumps hfloat v (.arr :: frames) (.inl rfl), ← separator,
      run_comma_item, hrest, hstorable, ite_and]

theorem run_fields (hfloat : FloatText reprFloat) :
    ∀ (fields : List (Str × Json)) (_ : fields ≠ []) (frames : List Frame) (rest : Str),
      Reader.run ⟨.key, .obj :: frames⟩
        ((str ", ").intercalate (dumps.dumpsFields reprFloat fields) ++ cp '\x7d' :: rest) =
          if storable.storableFields fields then Reader.run ⟨.done, frames⟩ rest else none
  | [], h, _, _ => absurd rfl h
  | [(k, v)], _, frames, rest => by
    rw [dumps.dumpsFields, dumps.dumpsFields, List.intercalate_singleton, List.append_assoc,
      List.append_assoc, run_quoted_key, run_colon,
      run_dumps hfloat v (.obj :: frames) (.inr (.inr rfl)) rest, storable.storableFields,
      storable.storableFields, Bool.and_true, ite_and]
    rfl
  | (k, v) :: (k', v') :: fields, _, frames, rest => by
    have hrest := run_fields hfloat ((k', v') :: fields) (List.cons_ne_nil _ fields) frames rest
    have hstorable : storable.storableFields ((k, v) :: (k', v') :: fields) =
        (keeps k && storable v && storable.storableFields ((k', v') :: fields)) := rfl
    rw [dumps.dumpsFields] at hrest
    rw [dumps.dumpsFields, dumps.dumpsFields, List.intercalate_cons_cons, List.append_assoc,
      List.append_assoc, List.append_assoc, List.append_assoc, separator, run_quoted_key,
      run_colon, run_dumps hfloat v (.obj :: frames) (.inl rfl), ← separator, run_comma_field,
      hrest, hstorable, ite_and, ite_and]

end

/-- The column takes the text of an object just when the object is storable. -/
theorem accepts_dumps_obj (hfloat : FloatText reprFloat) (fields : List (Str × Json)) :
    accepts (dumps reprFloat (.obj fields)) = storable (.obj fields) := by
  cases fields with
  | nil => rfl
  | cons field more =>
    obtain ⟨k, v⟩ := field
    rw [accepts, dumps, List.append_assoc, List.singleton_append, run_firstKey,
      run_fields hfloat ((k, v) :: more) (List.cons_ne_nil _ more) [] [], storable]
    cases storable.storableFields ((k, v) :: more) <;> rfl

end Documents

end DatumSync.Python.JsonbIn
