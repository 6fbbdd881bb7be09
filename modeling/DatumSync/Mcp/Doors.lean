import DatumSync.Mcp.Arguments

/-!
# Both doors to `validate_params`

Where a tool call and a REST submit of the same arguments give a job the same parameters.  They
differ in the texts of booleans, lists and dicts, in `null`, and where the schema's integers include
floats.
-/

namespace DatumSync.Mcp

open Python

/-! ## What each door refuses -/

/-- A text that a parameter of this type does not take. -/
def RefusesText (p : Parameter) (s : Str) : Prop :=
  match p.type with
  | .boolean => asciiLower (strip s) ∉ trueWords ++ falseWords
  | .integer => parseInt (strip s) = none
  | .float => scanFloat (strip s) = none
  | .lookupChoice => s ∉ p.choices.getD []
  | .string | .file => False

def boolText (b : Bool) : Str := if b then str "True" else str "False"

/-- The REST submit raises for this parameter. -/
def RestRefuses (display : Display) (p : Parameter) (given : Option Json) : Prop :=
  match given with
  | none => p.required = true
  | some .null => p.required = true
  | some (.bool b) =>
    match p.type with
    | .boolean => False
    | .integer | .float => True
    | _ => RefusesText p (boolText b)
  | some v => RefusesText p ((v.strOf display).getD [])

/-- The tool call raises for this parameter. -/
def ToolRefuses (rendering : Rendering) (p : Parameter) (given : Option Json) : Prop :=
  match given with
  | none => p.required = true
  | some v => RefusesText p (asParam rendering v)

/-! ## Where both doors see the same -/

/-- The text `null` stands for the value that an absent parameter has. -/
def NullStandsForDefault (p : Parameter) : Prop :=
  match p.type with
  | .boolean | .integer | .float => p.required = true
  | .lookupChoice =>
    if str "null" ∈ p.choices.getD [] then p.default = .text (str "null") else p.required = true
  | .string | .file => p.default = .text (str "null")

/-- Two texts of one value make no difference to a parameter. -/
def TextsAgree (p : Parameter) (s t : Str) : Prop :=
  match p.type with
  | .boolean | .integer | .float => True
  | .lookupChoice => s = t ∨ (s ∉ p.choices.getD [] ∧ t ∉ p.choices.getD [])
  | .string | .file => s = t

/-- Both doors give a parameter the same value, or both refuse. -/
def SameValue (display : Display) (p : Parameter) (given : Option Json) : Prop :=
  match given with
  | none => True
  | some .null => NullStandsForDefault p
  | some (.bool b) => TextsAgree p (boolText b) (if b then str "true" else str "false")
  | some (.arr items) => TextsAgree p (display.reprValue (.arr items))
      (dumps (jsonFloat display) (.arr items))
  | some (.obj fields) => TextsAgree p (display.reprValue (.obj fields))
      (dumps (jsonFloat display) (.obj fields))
  | some _ => True

/-! ## One parameter -/

def readText (p : Parameter) (s : Str) : Option Json :=
  match p.type with
  | .boolean =>
    if asciiLower (strip s) ∈ trueWords then some (.bool true)
    else if asciiLower (strip s) ∈ falseWords then some (.bool false)
    else none
  | .integer => (parseInt (strip s)).map .int
  | .float => (parseFloat (strip s)).map .float
  | .lookupChoice => if s ∈ p.choices.getD [] then some (.text s) else none
  | .string | .file => some (.text s)

theorem readText_eq_none {p : Parameter} {s : Str} : readText p s = none ↔ RefusesText p s := by
  unfold readText RefusesText
  cases p.type with
  | boolean =>
    dsimp only
    rw [List.mem_append, not_or]
    split
    · next h => simp [h]
    · next h =>
      split
      · next h' => simp [h']
      · next h' => simp [h, h']
  | lookupChoice =>
    dsimp only
    split
    · next h => simp [h]
    · next h => simp [h]
  | _ => simp [parseFloat]

theorem toOption_refuseValue {α : Type} {display : Display} {p : Parameter} {value : Json}
    {what : Str} : (refuseValue display p value what : Except Exc α).toOption = none := by
  cases h : (refuseValue display p value what : Except Exc α) with
  | error e => rfl
  | ok a => exact absurd h not_refuseValue

/-- A value that is no boolean is read by its text. -/
theorem toOption_coerce {display : Display} {p : Parameter} {v : Json} {s : Str}
    (hv : ∀ b, v ≠ .bool b) (hs : v.strOf display = some s) :
    (coerce display p v).toOption = readText p s := by
  have htext : textOf display v = .ok s := by rw [textOf, hs]
  unfold coerce readText
  cases p.type with
  | boolean =>
    dsimp only
    split
    · next b => exact absurd rfl (hv b)
    · rw [htext]
      dsimp only [bind, Except.bind]
      split
      · rfl
      · split
        · rfl
        · exact toOption_refuseValue
  | integer =>
    dsimp only
    split
    · next b => exact absurd rfl (hv b)
    · rw [hs, Option.bind_some]
      cases parseInt (strip s) with
      | none => exact toOption_refuseValue
      | some n => rfl
  | float =>
    dsimp only
    split
    · next b => exact absurd rfl (hv b)
    · rw [hs, Option.bind_some]
      cases parseFloat (strip s) with
      | none => exact toOption_refuseValue
      | some x => rfl
  | lookupChoice =>
    dsimp only
    rw [htext]
    dsimp only [bind, Except.bind]
    split <;> rfl
  | string =>
    dsimp only
    rw [htext]
    rfl
  | file =>
    dsimp only
    rw [htext]
    rfl

/-- The value of a parameter that is not given; undefined where it is required. -/
def fallback (p : Parameter) : Option (Option Json) :=
  if p.default ≠ .null then some (some p.default) else if p.required then none else some none

theorem fallback_eq_none {manifest : Interface} {p : Parameter} (hp : p ∈ manifest.parameters) :
    fallback p = none ↔ p.required = true := by
  have haccepted := manifest.accepted p hp { reprFloat := fun _ ↦ [], printable := fun _ ↦ true }
  unfold fallback
  split
  · next hdefault =>
    refine iff_of_false nofun fun hrequired ↦ hdefault ?_
    exact Parameter.default_of_required haccepted hrequired
  · cases p.required <;> simp

theorem fallback_eq_some {p : Parameter} {v : Json} (hv : v ≠ .null) :
    fallback p = some (some v) ↔ p.default = v := by
  unfold fallback
  split
  · simp
  · next hdefault =>
    have hne : p.default ≠ v := fun heq ↦ hdefault (heq ▸ hv)
    cases p.required <;> simp [hne]

/-- What `validate_params` makes of one parameter; undefined where it raises. -/
def answer (display : Display) (p : Parameter) (given : Option Json) : Option (Option Json) :=
  if given.getD .null ≠ .null then (coerce display p (given.getD .null)).toOption.map some
  else fallback p

theorem answer_eq_some {display : Display} {raw : List (Str × Json)} {p : Parameter}
    {o : Option Json} : answer display p (Json.field raw p.name) = some o ↔
      p.Settled display raw ∧ p.chosen display raw = o := by
  unfold answer Parameter.Settled Parameter.chosen Parameter.outcome Json.fieldD
  split
  · cases coerce display p ((Json.field raw p.name).getD .null) with
    | error e => exact iff_of_false nofun fun h ↦ nomatch h.1.1
    | ok w =>
      constructor
      · intro h
        exact ⟨⟨rfl, nofun⟩, Option.some.inj h⟩
      · rintro ⟨-, rfl⟩
        rfl
  · unfold fallback
    split
    · constructor
      · intro h
        exact ⟨⟨rfl, nofun⟩, Option.some.inj h⟩
      · rintro ⟨-, rfl⟩
        rfl
    · cases p.required with
      | false =>
        constructor
        · intro h
          exact ⟨⟨rfl, fun _ ↦ rfl⟩, Option.some.inj h⟩
        · rintro ⟨-, rfl⟩
          rfl
      | true => exact iff_of_false nofun fun h ↦ nomatch h.1.2 rfl

theorem settled_iff {display : Display} {raw : List (Str × Json)} {p : Parameter} :
    p.Settled display raw ↔ answer display p (Json.field raw p.name) ≠ none := by
  rw [Option.ne_none_iff_exists']
  constructor
  · intro h
    exact ⟨_, answer_eq_some.mpr ⟨h, rfl⟩⟩
  · rintro ⟨o, ho⟩
    exact (answer_eq_some.mp ho).1

theorem answer_bool (display : Display) (p : Parameter) (b : Bool) :
    (coerce display p (.bool b)).toOption =
      match p.type with
      | .boolean => some (.bool b)
      | .integer | .float => none
      | _ => readText p (boolText b) := by
  have htext : textOf display (.bool b) = .ok (boolText b) := by cases b <;> rfl
  unfold coerce readText
  cases p.type with
  | boolean => rfl
  | integer => rfl
  | float => rfl
  | lookupChoice =>
    dsimp only
    rw [htext]
    dsimp only [bind, Except.bind]
    split <;> rfl
  | string =>
    dsimp only
    rw [htext]
    rfl
  | file =>
    dsimp only
    rw [htext]
    rfl

theorem answer_text (display : Display) (p : Parameter) (s : Str) :
    answer display p (some (.text s)) = (readText p s).map some := by
  rw [answer, Option.getD_some, if_pos nofun, toOption_coerce (v := .text s) nofun rfl]

theorem answer_value {display : Display} {p : Parameter} {v : Json} (hv : ∀ b, v ≠ .bool b)
    (hnull : v ≠ .null) (hlimit : v.hasText = true) :
    answer display p (some v) = (readText p ((v.strOf display).getD [])).map some := by
  have hs : v.strOf display = some ((v.strOf display).getD []) := by
    cases v with
    | text s => rfl
    | _ => exact ((Json.strOf_eq_some rfl).mpr ⟨hlimit, rfl⟩).trans (by
        rw [(Json.strOf_eq_some rfl).mpr ⟨hlimit, rfl⟩, Option.getD_some])
  rw [answer, Option.getD_some, if_pos hnull, toOption_coerce hv hs]

/-- The REST submit raises for a parameter just where it has no answer. -/
theorem answer_eq_none_iff {manifest : Interface} {display : Display} {p : Parameter}
    (hp : p ∈ manifest.parameters) {given : Option Json}
    (hlimit : ∀ v, given = some v → v.hasText = true) :
    answer display p given = none ↔ RestRefuses display p given := by
  have hplain : ∀ v, (∀ b, v ≠ .bool b) → v ≠ .null → given = some v →
      (answer display p (some v) = none ↔ RefusesText p ((v.strOf display).getD [])) := by
    intro v hbool hnull hv
    rw [answer_value hbool hnull (hlimit v hv), Option.map_eq_none_iff, readText_eq_none]
  cases given with
  | none => exact fallback_eq_none hp
  | some v =>
    cases v with
    | null => exact fallback_eq_none hp
    | bool b =>
      rw [answer, Option.getD_some, if_pos nofun, answer_bool, Option.map_eq_none_iff, RestRefuses]
      cases htype : p.type with
      | boolean => simp
      | integer => simp
      | float => simp
      | _ => exact readText_eq_none
    | int n => exact hplain (.int n) nofun nofun rfl
    | float x => exact hplain (.float x) nofun nofun rfl
    | text s => exact hplain (.text s) nofun nofun rfl
    | arr items => exact hplain (.arr items) nofun nofun rfl
    | obj fields => exact hplain (.obj fields) nofun nofun rfl

theorem toolAnswer_eq_none_iff {manifest : Interface} {display : Display} {rendering : Rendering}
    {p : Parameter} (hp : p ∈ manifest.parameters) {given : Option Json} :
    answer display p (given.map fun v ↦ .text (asParam rendering v)) = none ↔
      ToolRefuses rendering p given := by
  cases given with
  | none => exact answer_eq_none_iff hp nofun
  | some v =>
    rw [Option.map_some, answer_text, Option.map_eq_none_iff, readText_eq_none]
    rfl

/-- Texts that are no number and no word of a boolean. -/
def IsNoValue (s : Str) : Prop :=
  asciiLower (strip s) ∉ trueWords ++ falseWords ∧ parseInt (strip s) = none ∧
    scanFloat (strip s) = none

theorem isNoValue_null : IsNoValue (str "null") := by
  unfold IsNoValue
  decide

theorem isNoValue_container {c : CodePoint} (hc : startsNoNumber c = true)
    (hword : asciiLower [c] ∉ (trueWords ++ falseWords).map (·.take 1)) (rest : Str) :
    IsNoValue (c :: rest) := by
  obtain ⟨after, hafter, hfloat, hint⟩ := strip_container hc rest
  rw [IsNoValue, hafter]
  refine ⟨fun hmem ↦ hword ?_, hint, hfloat⟩
  have hhead : (asciiLower (c :: after)).take 1 = asciiLower [c] := rfl
  rw [← hhead]
  exact List.mem_map_of_mem hmem

theorem isNoValue_arr (reprFloat : PyFloat → Str) (display : Display) (items : List Json) :
    IsNoValue (display.reprValue (.arr items)) ∧ IsNoValue (dumps reprFloat (.arr items)) := by
  rw [Display.reprValue, dumps, List.append_assoc, List.singleton_append]
  exact ⟨isNoValue_container startsNoNumber_bracket (by decide) _,
    isNoValue_container startsNoNumber_bracket (by decide) _⟩

theorem isNoValue_obj (reprFloat : PyFloat → Str) (display : Display)
    (fields : List (Str × Json)) :
    IsNoValue (display.reprValue (.obj fields)) ∧ IsNoValue (dumps reprFloat (.obj fields)) := by
  rw [Display.reprValue, dumps, List.append_assoc, List.singleton_append]
  exact ⟨isNoValue_container startsNoNumber_brace (by decide) _,
    isNoValue_container startsNoNumber_brace (by decide) _⟩

/-- Where a parameter takes texts, two of them read as one value just where they agree. -/
theorem readText_eq_iff {p : Parameter} {s t : Str}
    (htype : p.type = .lookupChoice ∨ p.type = .string ∨ p.type = .file) :
    readText p s = readText p t ↔ TextsAgree p s t := by
  rcases htype with htype | htype | htype
  · simp only [TextsAgree, htype, readText]
    by_cases hin : s ∈ p.choices.getD []
    · by_cases hout : t ∈ p.choices.getD []
      · simp [hin, hout]
      · have hne : s ≠ t := fun heq ↦ hout (heq ▸ hin)
        simp [hin, hout, hne]
    · by_cases hout : t ∈ p.choices.getD []
      · have hne : s ≠ t := fun heq ↦ hin (heq ▸ hout)
        simp [hin, hout, hne]
      · simp [hin, hout]
  · simp [TextsAgree, htype, readText]
  · simp [TextsAgree, htype, readText]

/-- A boolean or a number is in no such text. -/
theorem IsNoValue.readText_eq_none {p : Parameter} {s : Str} (hs : IsNoValue s)
    (htype : p.type = .boolean ∨ p.type = .integer ∨ p.type = .float) : readText p s = none := by
  rw [Mcp.readText_eq_none, RefusesText]
  rcases htype with htype | htype | htype
  · rw [htype]
    exact hs.1
  · rw [htype]
    exact hs.2.1
  · rw [htype]
    exact hs.2.2

theorem IsNoValue.readText_eq_iff {p : Parameter} {s t : Str} (hs : IsNoValue s)
    (ht : IsNoValue t) : readText p s = readText p t ↔ TextsAgree p s t := by
  cases htype : p.type with
  | boolean =>
    rw [hs.readText_eq_none (.inl htype), ht.readText_eq_none (.inl htype), TextsAgree, htype]
    exact iff_of_true rfl trivial
  | integer =>
    rw [hs.readText_eq_none (.inr (.inl htype)), ht.readText_eq_none (.inr (.inl htype)),
      TextsAgree, htype]
    exact iff_of_true rfl trivial
  | float =>
    rw [hs.readText_eq_none (.inr (.inr htype)), ht.readText_eq_none (.inr (.inr htype)),
      TextsAgree, htype]
    exact iff_of_true rfl trivial
  | lookupChoice => exact Mcp.readText_eq_iff (.inl htype)
  | string => exact Mcp.readText_eq_iff (.inr (.inl htype))
  | file => exact Mcp.readText_eq_iff (.inr (.inr htype))

/-- The text `null` against an absent value. -/
theorem null_iff {manifest : Interface} {p : Parameter} (hp : p ∈ manifest.parameters) :
    fallback p = (readText p (str "null")).map some ↔ NullStandsForDefault p := by
  have hrefused : RefusesText p (str "null") → readText p (str "null") = none :=
    readText_eq_none.mpr
  unfold NullStandsForDefault
  cases htype : p.type with
  | boolean =>
    rw [hrefused (by rw [RefusesText, htype]; exact isNoValue_null.1)]
    exact fallback_eq_none hp
  | integer =>
    rw [hrefused (by rw [RefusesText, htype]; exact isNoValue_null.2.1)]
    exact fallback_eq_none hp
  | float =>
    rw [hrefused (by rw [RefusesText, htype]; exact isNoValue_null.2.2)]
    exact fallback_eq_none hp
  | lookupChoice =>
    dsimp only
    split
    · next hin =>
      have hread : readText p (str "null") = some (.text (str "null")) := by
        rw [readText, htype]
        exact if_pos hin
      rw [hread]
      exact fallback_eq_some nofun
    · next hout =>
      rw [hrefused (by rw [RefusesText, htype]; exact hout)]
      exact fallback_eq_none hp
  | string =>
    have hread : readText p (str "null") = some (.text (str "null")) := by rw [readText, htype]
    rw [hread]
    exact fallback_eq_some nofun
  | file =>
    have hread : readText p (str "null") = some (.text (str "null")) := by rw [readText, htype]
    rw [hread]
    exact fallback_eq_some nofun

/-- The texts of a boolean at both doors. -/
theorem bool_iff {display : Display} {p : Parameter} (b : Bool) :
    answer display p (some (.bool b)) =
      (readText p (if b then str "true" else str "false")).map some ↔
      SameValue display p (some (.bool b)) := by
  rw [answer, Option.getD_some, if_pos nofun, answer_bool, SameValue,
    (Option.map_injective (Option.some_injective Json)).eq_iff]
  cases htype : p.type with
  | boolean =>
    have hread : readText p (if b then str "true" else str "false") = some (.bool b) := by
      unfold readText
      rw [htype]
      dsimp only
      cases b <;> decide
    rw [hread, TextsAgree, htype]
    exact iff_of_true rfl trivial
  | integer =>
    have hread : readText p (if b then str "true" else str "false") = none := by
      rw [readText_eq_none, RefusesText, htype]
      dsimp only
      cases b <;> decide
    rw [hread, TextsAgree, htype]
    exact iff_of_true rfl trivial
  | float =>
    have hread : readText p (if b then str "true" else str "false") = none := by
      rw [readText_eq_none, RefusesText, htype]
      dsimp only
      cases b <;> decide
    rw [hread, TextsAgree, htype]
    exact iff_of_true rfl trivial
  | lookupChoice => exact readText_eq_iff (.inl htype)
  | string => exact readText_eq_iff (.inr (.inl htype))
  | file => exact readText_eq_iff (.inr (.inr htype))

/-- Both doors make the same of a parameter just where its value is the same for both. -/
theorem answers_eq_iff {manifest : Interface} {display : Display} {depthLimit : ℕ} {p : Parameter}
    (hp : p ∈ manifest.parameters) {given : Option Json}
    (hlimit : ∀ v, given = some v → v.hasText = true) :
    answer display p given =
      answer display p (given.map fun v ↦ .text (asParam (rendering display depthLimit) v)) ↔
      SameValue display p given := by
  have hmap : ∀ {s t : Str}, (readText p s).map some = (readText p t).map some ↔
      readText p s = readText p t := fun {s t} ↦
    (Option.map_injective (Option.some_injective Json)).eq_iff
  cases given with
  | none => exact iff_of_true rfl trivial
  | some v =>
    rw [Option.map_some, answer_text]
    cases v with
    | null => exact null_iff hp
    | bool b => exact bool_iff b
    | int n =>
      rw [answer_value (v := .int n) nofun nofun (hlimit _ rfl)]
      exact iff_of_true rfl trivial
    | float x =>
      rw [answer_value (v := .float x) nofun nofun (hlimit _ rfl)]
      exact iff_of_true rfl trivial
    | text s =>
      rw [answer_value (v := .text s) nofun nofun (hlimit _ rfl)]
      exact iff_of_true rfl trivial
    | arr items =>
      obtain ⟨hrepr, hdumps⟩ := isNoValue_arr (jsonFloat display) display items
      have htext : ((Json.arr items).strOf display).getD [] = display.reprValue (.arr items) := by
        rw [(Json.strOf_eq_some rfl).mpr ⟨hlimit _ rfl, rfl⟩, Option.getD_some]
      rw [answer_value (v := .arr items) nofun nofun (hlimit _ rfl), htext, hmap]
      exact hrepr.readText_eq_iff hdumps
    | obj fields =>
      obtain ⟨hrepr, hdumps⟩ := isNoValue_obj (jsonFloat display) display fields
      have htext : ((Json.obj fields).strOf display).getD [] = display.reprValue (.obj fields) := by
        rw [(Json.strOf_eq_some rfl).mpr ⟨hlimit _ rfl, rfl⟩, Option.getD_some]
      rw [answer_value (v := .obj fields) nofun nofun (hlimit _ rfl), htext, hmap]
      exact hrepr.readText_eq_iff hdumps

/-! ## The whole request -/

theorem sameOutcome_of_errors {a b : Except Exc (List (Str × Json))} (ha : ¬ ∃ r, a = .ok r)
    (hb : ¬ ∃ r, b = .ok r) : SameOutcome a b := by
  cases a with
  | ok r => exact absurd ⟨r, rfl⟩ ha
  | error e =>
    cases b with
    | ok r => exact absurd ⟨r, rfl⟩ hb
    | error f => trivial

theorem SameOutcome.eq_ok_iff {a b : Except Exc (List (Str × Json))} (h : SameOutcome a b)
    (r : List (Str × Json)) : a = .ok r ↔ b = .ok r := by
  cases a with
  | ok r' =>
    cases b with
    | ok r'' =>
      have heq : r' = r'' := h
      rw [heq]
    | error f => exact h.elim
  | error e =>
    cases b with
    | ok r'' => exact h.elim
    | error f => exact iff_of_false nofun nofun

section Request

variable {display : Display} {manifest : Interface}

theorem validateParams_isOk_iff {raw : List (Str × Json)} :
    (∃ result, validateParams display manifest raw = .ok result) ↔
      (∀ entry ∈ raw, entry.1 ∈ manifest.parameters.map (·.name)) ∧
        ∀ p ∈ manifest.parameters, answer display p (Json.field raw p.name) ≠ none := by
  simp only [validateParams_eq_ok, settled_iff]
  constructor
  · rintro ⟨result, hknown, hall, -⟩
    exact ⟨hknown, hall⟩
  · rintro ⟨hknown, hall⟩
    exact ⟨_, hknown, hall, rfl⟩

/-- An answer is what the result holds under the name. -/
theorem answer_eq_lookup {raw result : List (Str × Json)}
    (h : validateParams display manifest raw = .ok result) {p : Parameter}
    (hp : p ∈ manifest.parameters) :
    answer display p (Json.field raw p.name) = some (result.lookup p.name) := by
  obtain ⟨-, hsettled, rfl⟩ := validateParams_eq_ok.mp h
  rw [lookup_selected manifest.distinct hp]
  exact answer_eq_some.mpr ⟨hsettled p hp, rfl⟩

/-- Two requests of the same names, parameter by parameter. -/
theorem sameOutcome_iff {raw other : List (Str × Json)}
    (hnames : raw.map Prod.fst = other.map Prod.fst) :
    SameOutcome (validateParams display manifest raw) (validateParams display manifest other) ↔
      (∃ entry ∈ raw, entry.1 ∉ manifest.parameters.map (·.name)) ∨
      ((∃ p ∈ manifest.parameters, answer display p (Json.field raw p.name) = none) ∧
        ∃ p ∈ manifest.parameters, answer display p (Json.field other p.name) = none) ∨
      ∀ p ∈ manifest.parameters, answer display p (Json.field raw p.name) =
        answer display p (Json.field other p.name) := by
  have hknownIff : (∀ entry ∈ raw, entry.1 ∈ manifest.parameters.map (·.name)) ↔
      ∀ entry ∈ other, entry.1 ∈ manifest.parameters.map (·.name) := by
    rw [← @List.forall_mem_map _ _ Prod.fst raw (· ∈ manifest.parameters.map (·.name)),
      ← @List.forall_mem_map _ _ Prod.fst other (· ∈ manifest.parameters.map (·.name)), hnames]
  by_cases hknown : ∀ entry ∈ raw, entry.1 ∈ manifest.parameters.map (·.name)
  swap
  · have hunknown : ∃ entry ∈ raw, entry.1 ∉ manifest.parameters.map (·.name) := by
      by_contra hno
      exact hknown fun entry hentry ↦ by_contra fun hnot ↦ hno ⟨entry, hentry, hnot⟩
    refine iff_of_true (sameOutcome_of_errors ?_ ?_) (.inl hunknown)
    · exact fun h ↦ hknown (validateParams_isOk_iff.mp h).1
    · exact fun h ↦ hknown (hknownIff.mpr (validateParams_isOk_iff.mp h).1)
  have hrefusedIff : ∀ {fields : List (Str × Json)},
      (∀ entry ∈ fields, entry.1 ∈ manifest.parameters.map (·.name)) →
      ((¬ ∃ result, validateParams display manifest fields = .ok result) ↔
        ∃ p ∈ manifest.parameters, answer display p (Json.field fields p.name) = none) := by
    intro fields hfields
    rw [validateParams_isOk_iff, not_and]
    constructor
    · intro h
      by_contra hno
      exact h hfields fun p hp hnone ↦ hno ⟨p, hp, hnone⟩
    · rintro ⟨p, hp, hnone⟩ - hall
      exact hall p hp hnone
  constructor
  · intro hsame
    right
    by_cases hok : ∃ result, validateParams display manifest raw = .ok result
    · obtain ⟨result, hresult⟩ := hok
      right
      intro p hp
      rw [answer_eq_lookup hresult hp, answer_eq_lookup ((hsame.eq_ok_iff result).mp hresult) hp]
    · left
      refine ⟨(hrefusedIff hknown).mp hok, (hrefusedIff (hknownIff.mp hknown)).mp ?_⟩
      rintro ⟨result, hresult⟩
      exact hok ⟨result, (hsame.eq_ok_iff result).mpr hresult⟩
  · rintro (⟨entry, hentry, hnot⟩ | ⟨hraw, hother⟩ | hall)
    · exact absurd (hknown entry hentry) hnot
    · exact sameOutcome_of_errors ((hrefusedIff hknown).mpr hraw)
        ((hrefusedIff (hknownIff.mp hknown)).mpr hother)
    · by_cases hok : ∃ result, validateParams display manifest raw = .ok result
      · obtain ⟨result, hresult⟩ := hok
        obtain ⟨-, hsettled, hselected⟩ := validateParams_eq_ok.mp hresult
        have hchosen : ∀ p ∈ manifest.parameters,
            p.Settled display other ∧ p.chosen display other = p.chosen display raw :=
          fun p hp ↦ answer_eq_some.mp
            ((hall p hp).symm.trans (answer_eq_some.mpr ⟨hsettled p hp, rfl⟩))
        have hother : validateParams display manifest other = .ok result := by
          refine validateParams_eq_ok.mpr ⟨hknownIff.mp hknown, fun p hp ↦ (hchosen p hp).1, ?_⟩
          rw [hselected]
          refine List.filterMap_congr fun p hp ↦ ?_
          rw [(hchosen p hp).2]
        rw [hresult, hother]
        exact rfl
      · refine sameOutcome_of_errors hok fun hother ↦ ?_
        obtain ⟨p, hp, hnone⟩ := (hrefusedIff hknown).mp hok
        exact (validateParams_isOk_iff.mp hother).2 p hp ((hall p hp).symm.trans hnone)

/-! ## Both doors -/

/-- The tool call takes what conforms to a listed parameter's schema, but for a float where an
integer is expected. -/
theorem takes_of_conforms {depthLimit : ℕ} {p : Parameter} {v : Json}
    (hlisted : p ∈ listed manifest) (hconforms : conforms (propertySchema p) v = true)
    (hlimit : v.hasText = true)
    (hfloat : ∀ x, scanFloat (strip (display.reprFloat x)) ≠ none)
    (hinteger : p.type = .integer → ∀ x, v ≠ .float x) :
    ¬ RefusesText p (asParam (rendering display depthLimit) v) := by
  have hfile := (mem_listed.mp hlisted).2
  rw [conforms, field_type, field_enum, Bool.and_eq_true] at hconforms
  obtain ⟨htype, henum⟩ := hconforms
  have hdecimal : ∀ n, v = .int n → asParam (rendering display depthLimit) v = decimal n := by
    rintro n rfl
    exact congrArg (fun text ↦ Option.getD text []) (if_pos hlimit)
  unfold RefusesText
  cases hp : p.type with
  | string => exact id
  | file => exact absurd hp hfile
  | lookupChoice =>
    rw [hp] at htype
    rw [if_pos hp] at henum
    obtain ⟨s, rfl⟩ := hasJsonType_text htype
    obtain ⟨t, ht, heq⟩ := List.mem_map.mp (of_decide_eq_true henum)
    rw [Json.text.inj heq] at ht
    exact not_not.mpr ht
  | boolean =>
    rw [hp] at htype
    obtain ⟨b, rfl⟩ := hasJsonType_bool htype
    rw [asParam]
    cases b with
    | false => exact not_not.mpr (by decide)
    | true => exact not_not.mpr (by decide)
  | integer =>
    rw [hp] at htype
    rcases hasJsonType_integer htype with ⟨n, hn⟩ | ⟨x, hx⟩
    · rw [hdecimal n hn, strip_decimal]
      subst hn
      rw [parseInt_decimal (of_decide_eq_true hlimit)]
      exact nofun
    · exact absurd hx (hinteger hp x)
  | float =>
    rw [hp] at htype
    rcases hasJsonType_number htype with ⟨n, hn⟩ | ⟨x, rfl⟩
    · rw [hdecimal n hn, strip_decimal, scanFloat_decimal]
      exact nofun
    · exact hfloat x

/-- Where both doors agree: a name is unknown, or each door refuses something, or every parameter
is given a value that is the same for both. -/
def DoorsAgree (display : Display) (depthLimit : ℕ) (manifest : Interface)
    (args : List (Str × Json)) : Prop :=
  (∃ arg ∈ args, arg.1 ∉ manifest.parameters.map (·.name)) ∨
  ((∃ p ∈ manifest.parameters, RestRefuses display p (Json.field args p.name)) ∧
    ∃ p ∈ manifest.parameters,
      ToolRefuses (rendering display depthLimit) p (Json.field args p.name)) ∨
  ∀ p ∈ manifest.parameters, SameValue display p (Json.field args p.name)

/-- No `INTEGER` is given a float. -/
def NoFloatForInteger (manifest : Interface) (args : List (Str × Json)) : Prop :=
  ∀ p ∈ manifest.parameters, p.type = .integer → ∀ x, Json.field args p.name ≠ some (.float x)

theorem field_submitted (rendering : Rendering) (args : List (Str × Json)) (name : Str) :
    Json.field (submitted rendering args) name =
      (Json.field args name).map fun v ↦ .text (asParam rendering v) := by
  induction args with
  | nil => rfl
  | cons arg rest ih =>
    obtain ⟨key, v⟩ := arg
    rw [Json.field, Json.field] at ih ⊢
    rw [submitted, List.map_cons, List.lookup_cons, List.lookup_cons]
    cases name == key with
    | true => rfl
    | false => exact ih

theorem hasText_field {args : List (Str × Json)} (hlimit : ∀ arg ∈ args, arg.2.hasText = true)
    {name : Str} {v : Json} (h : Json.field args name = some v) : v.hasText = true := by
  obtain ⟨before, after, hsplit, -⟩ := List.lookup_eq_some_iff.mp h
  exact hlimit (name, v) (by rw [hsplit]; simp)

/-- A tool call and a REST submit of the same arguments give the same parameters, and the tool call
takes what satisfies the schema, just where the doors agree and no `INTEGER` of a schema's object is
given a float. -/
theorem sameParameters_iff {depthLimit : ℕ} {args : List (Str × Json)}
    (hcallable : callableByMcp manifest = true) (hlimit : ∀ arg ∈ args, arg.2.hasText = true)
    (hfloat : ∀ x, scanFloat (strip (display.reprFloat x)) ≠ none)
    (hinteger : ∀ x, parseInt (strip (display.reprFloat x)) = none) :
    (SameOutcome (validateParams display manifest args)
        (validateParams display manifest (submitted (rendering display depthLimit) args)) ∧
      (satisfiesSchema (inputSchema manifest) args = true → ∃ result, validateParams display
        manifest (submitted (rendering display depthLimit) args) = .ok result)) ↔
    DoorsAgree display depthLimit manifest args ∧
      (satisfiesSchema (inputSchema manifest) args = true → NoFloatForInteger manifest args) := by
  have hnames : args.map Prod.fst =
      (submitted (rendering display depthLimit) args).map Prod.fst := by
    rw [submitted, List.map_map]
    rfl
  refine and_congr ?_ (imp_congr_right fun hschema ↦ ?_)
  · rw [sameOutcome_iff hnames, DoorsAgree]
    refine or_congr Iff.rfl (or_congr (and_congr ?_ ?_) ?_)
    · refine exists_congr fun p ↦ and_congr_right fun hp ↦ ?_
      exact answer_eq_none_iff hp fun v hv ↦ hasText_field hlimit hv
    · refine exists_congr fun p ↦ and_congr_right fun hp ↦ ?_
      rw [field_submitted]
      exact toolAnswer_eq_none_iff hp
    · refine forall₂_congr fun p hp ↦ ?_
      rw [field_submitted]
      exact answers_eq_iff hp fun v hv ↦ hasText_field hlimit hv
  · obtain ⟨hconform, hlistedNames⟩ := satisfiesSchema_iff.mp hschema
    rw [validateParams_isOk_iff]
    constructor
    · rintro ⟨-, hall⟩ p hp htype x hx
      refine hall p hp ?_
      rw [field_submitted, toolAnswer_eq_none_iff hp, hx]
      rw [ToolRefuses, RefusesText, htype]
      exact hinteger x
    · intro hnone
      constructor
      · intro entry hentry
        obtain ⟨arg, harg, rfl⟩ := List.mem_map.mp hentry
        obtain ⟨p, hp, hname⟩ := hlistedNames arg harg
        exact hname ▸ List.mem_map_of_mem (mem_listed.mp hp).1
      · intro p hp
        rw [field_submitted, Ne, toolAnswer_eq_none_iff hp]
        by_cases hfile : p.type = .file
        · cases hfield : Json.field args p.name with
          | none =>
            intro hrequired
            rw [callableByMcp, Bool.and_eq_true, Bool.not_eq_true', List.any_eq_false] at hcallable
            refine hcallable.2 p hp ?_
            rw [hfile, hrequired]
            rfl
          | some v =>
            obtain ⟨before, after, hsplit, -⟩ := List.lookup_eq_some_iff.mp hfield
            obtain ⟨q, hq, hname⟩ := hlistedNames (p.name, v) (by rw [hsplit]; simp)
            obtain ⟨hq, hlisted⟩ := mem_listed.mp hq
            rw [List.inj_on_of_nodup_map manifest.distinct hq hp hname] at hlisted
            exact absurd hfile hlisted
        · have hp' := mem_listed.mpr ⟨hp, hfile⟩
          cases hfield : Json.field args p.name with
          | none =>
            intro hrequired
            have hsome := (hconform p hp').1 hrequired
            rw [hfield] at hsome
            cases hsome
          | some v =>
            refine takes_of_conforms hp' ((hconform p hp').2 v hfield)
              (hasText_field hlimit hfield) hfloat fun htype x hx ↦ ?_
            exact hnone p hp htype x (hx ▸ hfield)

end Request

/-! ## A tool with one parameter -/

def streaming (p : Parameter) (h : ∀ display, p.check display = .ok ()) : Interface where
  parameters := [p]
  services := [mcpService]
  accepted := Parameter.check_singleton h
  distinct := Parameter.nodup_singleton p

/-- A tool that takes a note. -/
def noteTool : Interface := streaming { name := str "note", type := .string } fun _ ↦ rfl

def oneAndAHalf : Display where
  reprFloat _ := str "1.5"
  printable _ := true

/-- `{"note": "hello"}` -/
theorem sameParameters_iff_note :
    (SameOutcome (validateParams oneAndAHalf noteTool [(str "note", .text (str "hello"))])
        (validateParams oneAndAHalf noteTool
          (submitted (rendering oneAndAHalf 100) [(str "note", .text (str "hello"))])) ∧
      (satisfiesSchema (inputSchema noteTool) [(str "note", .text (str "hello"))] = true →
        ∃ result, validateParams oneAndAHalf noteTool
          (submitted (rendering oneAndAHalf 100) [(str "note", .text (str "hello"))]) =
            .ok result)) ↔
    DoorsAgree oneAndAHalf 100 noteTool [(str "note", .text (str "hello"))] ∧
      (satisfiesSchema (inputSchema noteTool) [(str "note", .text (str "hello"))] = true →
        NoFloatForInteger noteTool [(str "note", .text (str "hello"))]) := by
  have hscan : scanFloat (strip (str "1.5")) ≠ none := by decide
  have hparse : parseInt (strip (str "1.5")) = none := by decide
  refine sameParameters_iff (by decide) ?_ (fun _ ↦ hscan) (fun _ ↦ hparse)
  simp [Json.hasText]

/-- `{"note": true}`: the REST submit stores the text `True`, the tool call `true`. -/
theorem note_not_sameOutcome : callableByMcp noteTool = true ∧
    ¬ SameOutcome (validateParams oneAndAHalf noteTool [(str "note", .bool true)])
      (validateParams oneAndAHalf noteTool
        (submitted (rendering oneAndAHalf 100) [(str "note", .bool true)])) := by
  refine ⟨by decide, ?_⟩
  have hnames : [(str "note", Json.bool true)].map Prod.fst =
      (submitted (rendering oneAndAHalf 100) [(str "note", Json.bool true)]).map Prod.fst := rfl
  rw [sameOutcome_iff hnames]
  rintro (⟨arg, harg, hunknown⟩ | ⟨⟨p, hp, hnone⟩, -⟩ | hall)
  · rw [List.mem_singleton.mp harg] at hunknown
    exact hunknown List.mem_cons_self
  · rw [List.mem_singleton.mp hp] at hnone
    cases hnone
  · have hsame := hall _ List.mem_cons_self
    have hrest : answer oneAndAHalf { name := str "note", type := .string } (some (.bool true)) =
        some (some (.text (str "True"))) := rfl
    have htool : answer oneAndAHalf { name := str "note", type := .string }
        (some (.text (str "true"))) = some (some (.text (str "true"))) := rfl
    have hne : str "True" ≠ str "true" := by decide
    have heq : some (some (Json.text (str "True"))) = some (some (.text (str "true"))) :=
      hrest.symm.trans (hsame.trans htool)
    exact hne (Json.text.inj (Option.some.inj (Option.some.inj heq)))

end DatumSync.Mcp
