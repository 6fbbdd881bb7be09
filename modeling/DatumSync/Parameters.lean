import DatumSync.Errors
import DatumSync.Python.Values

/-!
# Published parameters

What a manifest says of the parameters of a workspace, and `validate_params`, which every submitted
job passes: unknown names are refused, values are coerced to the declared types, defaults stand in
for what is absent or null, and required parameters must be there.
-/

namespace DatumSync

open Python

/-! ## The manifest's part -/

inductive ParameterType where
  | string
  | integer
  | float
  | boolean
  | file
  | lookupChoice
  deriving DecidableEq

/-- `manifest.Parameter`; a parameter without a default has the default `None`. -/
structure Parameter where
  name : Str
  type : ParameterType
  required : Bool := false
  default : Json := .null
  choices : Option (List Str) := none
  description : Option Str := none
  deriving DecidableEq

/-- A `ValueError` of a manifest's validator. -/
def manifestValueError (message : Str) : Exc := .raised .valueError message

def shownValue (display : Display) (value : Json) : Except Exc Str :=
  match value.reprOf display with
  | some text => .ok text
  | none => .error (loadException .digitLimit)

def Parameter.checkChoices (display : Display) (p : Parameter) : Except Exc Unit :=
  if p.type = .lookupChoice then
    match p.choices.getD [] with
    | [] => .error (manifestValueError (p.name ++ str ": LOOKUP_CHOICE requires 'choices'"))
    | choices =>
      if p.default ≠ .null ∧ choices.any p.default.eqText = false then do
        let shown ← shownValue display p.default
        throw (manifestValueError (p.name ++ str ": default " ++ shown ++ str " is not one of " ++
          display.reprTexts choices))
      else .ok ()
  else if p.choices ≠ none then
    .error (manifestValueError (p.name ++ str ": 'choices' is only valid for LOOKUP_CHOICE"))
  else .ok ()

def Parameter.check (display : Display) (p : Parameter) : Except Exc Unit := do
  p.checkChoices display
  if p.required = true ∧ p.default ≠ .null then
    throw (manifestValueError (p.name ++
      str ": a required parameter cannot also declare a default"))

/-- The parameters and services of a manifest that the validators accept. -/
structure Interface where
  parameters : List Parameter
  services : List Str := []
  accepted : ∀ p ∈ parameters, ∀ display, p.check display = .ok ()
  distinct : (parameters.map (·.name)).Nodup

/-- A parameter that passes its check, as the only one of a manifest. -/
theorem Parameter.check_singleton {p : Parameter} (h : ∀ display, p.check display = .ok ()) :
    ∀ q ∈ [p], ∀ display, q.check display = .ok () :=
  fun _ hq display ↦ List.mem_singleton.mp hq ▸ h display

theorem Parameter.nodup_singleton (p : Parameter) : ([p].map (·.name)).Nodup :=
  List.nodup_singleton p.name

/-- The default of a parameter with choices is one of them. -/
theorem Parameter.default_mem_choices {display : Display} {p : Parameter}
    (h : p.check display = .ok ()) (htype : p.type = .lookupChoice) (hdefault : p.default ≠ .null) :
    ∃ s ∈ p.choices.getD [], p.default = .text s := by
  obtain ⟨_, hchoices, -⟩ := bind_ok h
  rw [Parameter.checkChoices, if_pos htype] at hchoices
  split at hchoices
  · cases hchoices
  · split at hchoices
    · obtain ⟨_, -, hthrow⟩ := bind_ok hchoices
      cases hthrow
    · next hin =>
      rw [not_and, Bool.not_eq_false] at hin
      obtain ⟨s, hs, heq⟩ := List.any_eq_true.mp (hin hdefault)
      exact ⟨s, hs, Json.eqText_iff.mp heq⟩

/-- A required parameter has no default. -/
theorem Parameter.default_of_required {display : Display} {p : Parameter}
    (h : p.check display = .ok ()) (hrequired : p.required = true) : p.default = .null := by
  obtain ⟨_, -, hlast⟩ := bind_ok h
  split at hlast
  · cases hlast
  · next hnot => exact not_not.mp (not_and.mp hnot hrequired)

/-! ## Coercion -/

def trueWords : List Str := [str "true", str "1", str "yes", str "on"]

def falseWords : List Str := [str "false", str "0", str "no", str "off"]

def parameterError (message : Str) : Exc := .raised .parameterError message

def textOf (display : Display) (value : Json) : Except Exc Str :=
  match value.strOf display with
  | some text => .ok text
  | none => .error (loadException .digitLimit)

/-- `raise ParameterError(f"{param.name}: {value!r} is not ...")` -/
def refuseValue {α : Type} (display : Display) (param : Parameter) (value : Json) (what : Str) :
    Except Exc α := do
  let shown ← shownValue display value
  throw (parameterError (param.name ++ str ": " ++ shown ++ what))

def coerce (display : Display) (param : Parameter) (value : Json) : Except Exc Json :=
  match param.type with
  | .boolean =>
    match value with
    | .bool b => .ok (.bool b)
    | value => do
      let s := asciiLower (strip (← textOf display value))
      if s ∈ trueWords then .ok (.bool true)
      else if s ∈ falseWords then .ok (.bool false)
      else refuseValue display param value (str " is not a boolean")
  | .integer =>
    match value with
    | .bool _ =>
      .error (parameterError (param.name ++ str ": expected an integer, got a boolean"))
    | value =>
      match (value.strOf display).bind fun s ↦ parseInt (strip s) with
      | some n => .ok (.int n)
      | none => refuseValue display param value (str " is not an integer")
  | .float =>
    match value with
    | .bool _ => .error (parameterError (param.name ++ str ": expected a number, got a boolean"))
    | value =>
      match (value.strOf display).bind fun s ↦ parseFloat (strip s) with
      | some x => .ok (.float x)
      | none => refuseValue display param value (str " is not a number")
  | .lookupChoice => do
    let s ← textOf display value
    if s ∈ param.choices.getD [] then .ok (.text s)
    else .error (parameterError (param.name ++ str ": " ++ display.reprText s ++
      str " is not one of " ++
      (match param.choices with
        | some choices => display.reprTexts choices
        | none => str "None")))
  | .string | .file => do
    let s ← textOf display value
    .ok (.text s)

/-! ## Validation -/

/-- The loop of `validate_params`: the result and the missing names. -/
def gather (display : Display) (raw : List (Str × Json)) :
    List Parameter → Except Exc (List (Str × Json) × List Str)
  | [] => .ok ([], [])
  | param :: rest =>
    let value := Json.fieldD raw param.name .null
    if value ≠ .null then do
      let coerced ← coerce display param value
      let (result, missing) ← gather display raw rest
      .ok ((param.name, coerced) :: result, missing)
    else if param.default ≠ .null then do
      let (result, missing) ← gather display raw rest
      .ok ((param.name, param.default) :: result, missing)
    else do
      let (result, missing) ← gather display raw rest
      .ok (result, if param.required then param.name :: missing else missing)

def validateParams (display : Display) (manifest : Interface) (raw : List (Str × Json)) :
    Except Exc (List (Str × Json)) := do
  let declared := manifest.parameters.map (·.name)
  let unknown := sortTexts ((raw.map Prod.fst).filter (· ∉ declared))
  if unknown ≠ [] then
    throw (parameterError (str "unknown parameter(s) " ++ display.reprTexts unknown ++
      str "; declared: " ++ display.reprTexts (sortTexts declared)))
  let (result, missing) ← gather display raw manifest.parameters
  if missing ≠ [] then
    throw (parameterError (str "missing required parameter(s): " ++
      display.reprTexts (sortTexts missing)))
  return result

/-- What the loop does with one parameter. -/
def Parameter.outcome (display : Display) (raw : List (Str × Json)) (p : Parameter) :
    Except Exc (Option Json) :=
  if Json.fieldD raw p.name .null ≠ .null then
    (coerce display p (Json.fieldD raw p.name .null)).map some
  else .ok (if p.default ≠ .null then some p.default else none)

def Parameter.chosen (display : Display) (raw : List (Str × Json)) (p : Parameter) : Option Json :=
  match p.outcome display raw with
  | .ok value => value
  | .error _ => none

/-- No exception is raised for a parameter, and it is not missing. -/
def Parameter.Settled (display : Display) (raw : List (Str × Json)) (p : Parameter) : Prop :=
  p.outcome display raw = .ok (p.chosen display raw) ∧
    (p.chosen display raw = none → p.required = false)

/-- The values in the order of the parameters. -/
def selected (display : Display) (raw : List (Str × Json)) (params : List Parameter) :
    List (Str × Json) :=
  params.filterMap fun p ↦ (p.chosen display raw).map (p.name, ·)

/-- The loop takes the outcome of the first parameter and goes on. -/
theorem gather_cons (display : Display) (raw : List (Str × Json)) (p : Parameter)
    (rest : List Parameter) : gather display raw (p :: rest) = (do
      let value ← p.outcome display raw
      let (result, missing) ← gather display raw rest
      .ok ((value.map (p.name, ·)).toList ++ result,
        if value = none ∧ p.required = true then p.name :: missing else missing)) := by
  rw [gather, Parameter.outcome]
  dsimp only
  split
  · cases coerce display p (Json.fieldD raw p.name .null) with
    | error e => rfl
    | ok coerced => rfl
  · split
    · rfl
    · cases hrequired : p.required with
      | false => rfl
      | true => rfl

theorem gather_eq_ok {display : Display} {raw : List (Str × Json)} {params : List Parameter}
    {result : List (Str × Json)} :
    gather display raw params = .ok (result, []) ↔
      (∀ p ∈ params, p.Settled display raw) ∧ result = selected display raw params := by
  induction params generalizing result with
  | nil =>
    constructor
    · rintro ⟨rfl⟩
      exact ⟨List.forall_mem_nil _, rfl⟩
    · rintro ⟨-, rfl⟩
      rfl
  | cons p rest ih =>
    rw [gather_cons, List.forall_mem_cons, selected, List.filterMap_cons]
    constructor
    · intro h
      obtain ⟨value, hvalue, h⟩ := bind_ok h
      obtain ⟨⟨others, missing⟩, hrest, h⟩ := bind_ok h
      have hchosen : p.chosen display raw = value := by rw [Parameter.chosen, hvalue]
      obtain ⟨hresult, hmissing⟩ := Prod.mk.inj (Except.ok.inj h)
      split at hmissing
      · cases hmissing
      · next hpresent =>
        subst hmissing
        obtain ⟨hall, rfl⟩ := ih.mp hrest
        refine ⟨⟨⟨by rw [hchosen, hvalue], fun hnone ↦ ?_⟩, hall⟩, ?_⟩
        · rw [hchosen] at hnone
          exact Bool.not_eq_true _ ▸ not_and.mp hpresent hnone
        · rw [← hresult, hchosen]
          cases value <;> rfl
    · rintro ⟨⟨⟨houtcome, hpresent⟩, hall⟩, rfl⟩
      rw [houtcome, ih.mpr ⟨hall, rfl⟩]
      have hmissing : ¬ (p.chosen display raw = none ∧ p.required = true) := by
        rintro ⟨hnone, hrequired⟩
        rw [hpresent hnone] at hrequired
        cases hrequired
      cases hchosen : p.chosen display raw with
      | none =>
        rw [hchosen] at hmissing
        exact congrArg (fun missing ↦ Except.ok (_, missing)) (if_neg hmissing)
      | some value => rfl

theorem sortTexts_eq_nil {texts : List Str} : sortTexts texts = [] ↔ texts = [] := by
  rw [← List.length_eq_zero_iff, sortTexts, List.length_mergeSort, List.length_eq_zero_iff]

theorem validateParams_eq_ok {display : Display} {manifest : Interface} {raw : List (Str × Json)}
    {result : List (Str × Json)} :
    validateParams display manifest raw = .ok result ↔
      (∀ entry ∈ raw, entry.1 ∈ manifest.parameters.map (·.name)) ∧
      (∀ p ∈ manifest.parameters, p.Settled display raw) ∧
      result = selected display raw manifest.parameters := by
  have hunknown :
      sortTexts ((raw.map Prod.fst).filter (· ∉ manifest.parameters.map (·.name))) = [] ↔
        ∀ entry ∈ raw, entry.1 ∈ manifest.parameters.map (·.name) := by
    rw [sortTexts_eq_nil, List.filter_eq_nil_iff, List.forall_mem_map]
    simp only [decide_eq_true_eq, not_not]
  rw [← hunknown, ← gather_eq_ok, validateParams]
  dsimp only
  constructor
  · intro h
    split at h
    · cases h
    · next hknown =>
      obtain ⟨⟨gathered, missing⟩, hgather, h⟩ := bind_ok h
      dsimp only at h
      split at h
      · cases h
      · next hcomplete =>
        rw [not_not] at hcomplete
        subst hcomplete
        rw [← Except.ok.inj h]
        exact ⟨not_not.mp hknown, hgather⟩
  · rintro ⟨hknown, hgather⟩
    rw [if_neg (not_not.mpr hknown), hgather]
    rfl

/-! ## The result -/

/-- What `_coerce` returns for a parameter of each type. -/
inductive Coerced (display : Display) (p : Parameter) (value : Json) : Json → Prop
  | boolean (b : Bool) (htype : p.type = .boolean) : Coerced display p value (.bool b)
  | integer (n : ℤ) (htype : p.type = .integer) (hlimit : hasText n = true) :
      Coerced display p value (.int n)
  | float (s : Str) (t : FloatText) (htype : p.type = .float)
      (htext : value.strOf display = some s) (hscan : scanFloat (strip s) = some t) :
      Coerced display p value (.float t.rounded)
  | choice (s : Str) (htype : p.type = .lookupChoice) (hmem : s ∈ p.choices.getD []) :
      Coerced display p value (.text s)
  | text (s : Str) (htype : p.type = .string ∨ p.type = .file) :
      Coerced display p value (.text s)

theorem not_refuseValue {α : Type} {display : Display} {p : Parameter} {value : Json} {what : Str}
    {w : α} : refuseValue display p value what ≠ .ok w := by
  intro h
  obtain ⟨_, -, hthrow⟩ := bind_ok h
  cases hthrow

theorem Coerced.of_coerce {display : Display} {p : Parameter} {value w : Json}
    (h : coerce display p value = .ok w) : Coerced display p value w := by
  unfold coerce at h
  split at h
  · next htype =>
    split at h
    · cases h
      exact .boolean _ htype
    · obtain ⟨s, -, h⟩ := bind_ok h
      dsimp only at h
      split at h
      · cases h
        exact .boolean _ htype
      · split at h
        · cases h
          exact .boolean _ htype
        · exact absurd h not_refuseValue
  · next htype =>
    split at h
    · cases h
    · split at h
      · next n hn =>
        cases h
        obtain ⟨s, -, hparse⟩ := Option.bind_eq_some_iff.mp hn
        exact .integer n htype (decide_eq_true (parseInt_length hparse))
      · exact absurd h not_refuseValue
  · next htype =>
    split at h
    · cases h
    · split at h
      · next x hx =>
        cases h
        obtain ⟨s, hs, hparse⟩ := Option.bind_eq_some_iff.mp hx
        obtain ⟨t, ht, rfl⟩ := Option.map_eq_some_iff.mp hparse
        exact .float s t htype hs ht
      · exact absurd h not_refuseValue
  · next htype =>
    obtain ⟨s, -, h⟩ := bind_ok h
    split at h
    · next hmem =>
      cases h
      exact .choice s htype hmem
    · cases h
  · next htype =>
    obtain ⟨s, -, h⟩ := bind_ok h
    cases h
    exact .text s (.inl htype)
  · next htype =>
    obtain ⟨s, -, h⟩ := bind_ok h
    cases h
    exact .text s (.inr htype)

theorem Coerced.ne_null {display : Display} {p : Parameter} {value w : Json}
    (h : Coerced display p value w) : w ≠ .null := by
  cases h <;> exact nofun

theorem chosen_cases {display : Display} {raw : List (Str × Json)} {p : Parameter} {w : Json}
    (h : p.chosen display raw = some w) :
    (Json.fieldD raw p.name .null ≠ .null ∧
      coerce display p (Json.fieldD raw p.name .null) = .ok w) ∨
    (Json.fieldD raw p.name .null = .null ∧ p.default ≠ .null ∧ w = p.default) := by
  unfold Parameter.chosen Parameter.outcome at h
  split at h
  · next value hvalue =>
    split at hvalue
    · next hgiven =>
      left
      refine ⟨hgiven, ?_⟩
      cases hcoerce : coerce display p (Json.fieldD raw p.name .null) with
      | error e =>
        rw [hcoerce] at hvalue
        cases hvalue
      | ok coerced =>
        rw [hcoerce] at hvalue
        cases hvalue
        exact congrArg Except.ok (Option.some.inj h)
    · next hgiven =>
      right
      split at hvalue
      · next hdefault =>
        cases hvalue
        exact ⟨not_not.mp hgiven, hdefault, (Option.some.inj h).symm⟩
      · cases hvalue
        cases h
  · cases h

theorem chosen_ne_null {display : Display} {raw : List (Str × Json)} {p : Parameter} {w : Json}
    (h : p.chosen display raw = some w) : w ≠ .null := by
  rcases chosen_cases h with ⟨-, hcoerce⟩ | ⟨-, hdefault, rfl⟩
  · exact (Coerced.of_coerce hcoerce).ne_null
  · exact hdefault

theorem mem_selected {display : Display} {raw : List (Str × Json)} {params : List Parameter}
    {entry : Str × Json} : entry ∈ selected display raw params ↔
      ∃ p ∈ params, p.chosen display raw = some entry.2 ∧ p.name = entry.1 := by
  rw [selected, List.mem_filterMap]
  constructor
  · rintro ⟨p, hp, hentry⟩
    obtain ⟨v, hv, rfl⟩ := Option.map_eq_some_iff.mp hentry
    exact ⟨p, hp, hv, rfl⟩
  · rintro ⟨p, hp, hchosen, hname⟩
    refine ⟨p, hp, ?_⟩
    rw [hchosen, Option.map_some, hname]

/-- What the result holds under a parameter's name. -/
theorem lookup_selected {display : Display} {raw : List (Str × Json)} {params : List Parameter}
    (hdistinct : (params.map (·.name)).Nodup) {p : Parameter} (hp : p ∈ params) :
    (selected display raw params).lookup p.name = p.chosen display raw := by
  induction params with
  | nil => exact absurd hp List.not_mem_nil
  | cons first rest ih =>
    rw [List.map_cons, List.nodup_cons] at hdistinct
    rw [selected, List.filterMap_cons]
    rcases List.mem_cons.mp hp with rfl | hrest
    · have hnone : (selected display raw rest).lookup p.name = none := by
        rw [List.lookup_eq_none_iff]
        intro entry hentry
        obtain ⟨q, hq, -, hname⟩ := mem_selected.mp hentry
        rw [bne_iff_ne, ← hname]
        rintro heq
        exact hdistinct.1 (heq ▸ List.mem_map_of_mem hq)
      cases p.chosen display raw with
      | none => exact hnone
      | some v => simp
    · have hne : p.name ≠ first.name := by
        intro heq
        exact hdistinct.1 (heq ▸ List.mem_map_of_mem hrest)
      cases first.chosen display raw with
      | none => exact ih hdistinct.2 hrest
      | some v =>
        rw [Option.map_some, List.lookup_cons, beq_false_of_ne hne]
        exact ih hdistinct.2 hrest

end DatumSync
