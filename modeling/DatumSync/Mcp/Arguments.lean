import DatumSync.Mcp.Tools
import DatumSync.Parameters

/-!
# Tool arguments and submitted parameters

A tool call turns every argument into text before `validate_params` sees it; the REST submit hands
the JSON values over as they are.  The advertised input schema says which arguments a tool takes.
-/

namespace DatumSync.Mcp

open Python

/-! ## The advertised schema -/

/-- `_JSON_TYPE`, with the type that `input_schema` gives a choice. -/
def jsonType : ParameterType → Str
  | .string | .lookupChoice | .file => str "string"
  | .integer => str "integer"
  | .float => str "number"
  | .boolean => str "boolean"

def propertySchema (p : Parameter) : List (Str × Json) :=
  [(str "type", .text (jsonType p.type))] ++
    (if p.type = .lookupChoice then
      [(str "enum", .arr ((p.choices.getD []).map Json.text))] else []) ++
    (match p.description with
      | some description =>
        if description = [] then [] else [(str "description", .text description)]
      | none => []) ++
    (if p.default ≠ .null then [(str "default", p.default)] else [])

def inputSchema (manifest : Interface) : Json :=
  let listed := manifest.parameters.filter fun p ↦ p.type ≠ .file
  let required := (listed.filter (·.required)).map fun p ↦ Json.text p.name
  .obj ([(str "type", .text (str "object")),
    (str "properties", .obj (listed.map fun p ↦ (p.name, .obj (propertySchema p))))] ++
    if required ≠ [] then [(str "required", .arr required)] else [])

def mcpService : Str := str "data_streaming"

def callableByMcp (manifest : Interface) : Bool :=
  decide (mcpService ∈ manifest.services) &&
    !manifest.parameters.any fun p ↦ p.type = .file && p.required

/-! ## JSON Schema -/

/-- The keyword `type`; an integer may be written as a float. -/
def hasJsonType (type : Str) (v : Json) : Bool :=
  if type = str "string" then v.isText
  else if type = str "boolean" then match v with
    | .bool _ => true
    | _ => false
  else if type = str "number" then match v with
    | .int _ | .float _ => true
    | _ => false
  else if type = str "integer" then match v with
    | .int _ => true
    | .float x => match x.value with
      | some q => q.den == 1
      | none => false
    | _ => false
  else if type = str "object" then v.isDict
  else false

/-- The keywords `type` and `enum`. -/
def conforms (schema : List (Str × Json)) (v : Json) : Bool :=
  (match Json.field schema (str "type") with
    | some (.text type) => hasJsonType type v
    | _ => true) &&
  (match Json.field schema (str "enum") with
    | some (.arr allowed) => decide (v ∈ allowed)
    | _ => true)

/-- The keywords `properties` and `required` of an object. -/
def conformsObject (schema : List (Str × Json)) (fields : List (Str × Json)) : Bool :=
  conforms schema (.obj fields) &&
  (match Json.field schema (str "required") with
    | some (.arr names) => names.all fun name ↦ match name with
      | .text name => (Json.field fields name).isSome
      | _ => true
    | _ => true) &&
  (match Json.field schema (str "properties") with
    | some (.obj properties) => properties.all fun property ↦
      match Json.field fields property.1, property.2 with
      | some v, .obj sub => conforms sub v
      | _, _ => true
    | _ => true)

/-- An object satisfies a schema and has no field besides its properties. -/
def satisfiesSchema (schema : Json) (fields : List (Str × Json)) : Bool :=
  match schema with
  | .obj keywords => conformsObject keywords fields && fields.all fun field ↦
    match Json.field keywords (str "properties") with
    | some (.obj properties) => (Json.field properties field.1).isSome
    | _ => false
  | _ => false

section Schema

variable {manifest : Interface}

/-- The parameters that a tool shows. -/
def listed (manifest : Interface) : List Parameter :=
  manifest.parameters.filter fun p ↦ p.type ≠ .file

theorem mem_listed {p : Parameter} :
    p ∈ listed manifest ↔ p ∈ manifest.parameters ∧ p.type ≠ .file := by
  rw [listed, List.mem_filter, decide_eq_true_eq]

/-- A name is a property where a listed parameter has it. -/
theorem isSome_field_properties {params : List Parameter} {name : Str} :
    (Json.field (params.map fun p ↦ (p.name, Json.obj (propertySchema p))) name).isSome = true ↔
      ∃ p ∈ params, p.name = name := by
  induction params with
  | nil => simp [Json.field]
  | cons p rest ih =>
    rw [List.map_cons, Json.field, List.lookup_cons]
    by_cases hname : p.name = name
    · simp [hname]
    · have hne : (name == p.name) = false := beq_false_of_ne (Ne.symm hname)
      rw [Json.field] at ih
      simp [hne, ih, hname]

/-- What the schema asks of the arguments. -/
theorem satisfiesSchema_iff {args : List (Str × Json)} :
    satisfiesSchema (inputSchema manifest) args = true ↔
      (∀ p ∈ listed manifest,
        (p.required = true → (Json.field args p.name).isSome = true) ∧
          ∀ v, Json.field args p.name = some v → conforms (propertySchema p) v = true) ∧
      ∀ arg ∈ args, ∃ p ∈ listed manifest, p.name = arg.1 := by
  have hproperties : (∀ p ∈ listed manifest, ∀ v, Json.field args p.name = some v →
      conforms (propertySchema p) v = true) ↔
      ((listed manifest).map fun p ↦ (p.name, Json.obj (propertySchema p))).all (fun property ↦
        match Json.field args property.1, property.2 with
        | some v, .obj sub => conforms sub v
        | _, _ => true) = true := by
    rw [List.all_map, List.all_eq_true]
    refine forall₂_congr fun p _ ↦ ?_
    rw [Function.comp_apply]
    cases Json.field args p.name with
    | none => simp
    | some v => simp
  have hrequired : (∀ p ∈ listed manifest, p.required = true →
      (Json.field args p.name).isSome = true) ↔
      (((listed manifest).filter (·.required)).map fun p ↦ Json.text p.name).all (fun name ↦
        match name with
        | .text name => (Json.field args name).isSome
        | _ => true) = true := by
    rw [List.all_map, List.all_eq_true]
    constructor
    · intro h p hp
      obtain ⟨hlisted, hrequired⟩ := List.mem_filter.mp hp
      exact h p hlisted hrequired
    · intro h p hp hrequired
      exact h p (List.mem_filter.mpr ⟨hp, hrequired⟩)
  have hnames : (∀ arg ∈ args, ∃ p ∈ listed manifest, p.name = arg.1) ↔
      args.all (fun arg ↦ (Json.field ((listed manifest).map
        fun p ↦ (p.name, Json.obj (propertySchema p))) arg.1).isSome) = true := by
    rw [List.all_eq_true]
    exact forall₂_congr fun arg _ ↦ isSome_field_properties.symm
  have hforall : (∀ p ∈ listed manifest, (p.required = true →
      (Json.field args p.name).isSome = true) ∧
        ∀ v, Json.field args p.name = some v → conforms (propertySchema p) v = true) ↔
      (∀ p ∈ listed manifest, p.required = true → (Json.field args p.name).isSome = true) ∧
        ∀ p ∈ listed manifest, ∀ v, Json.field args p.name = some v →
          conforms (propertySchema p) v = true :=
    forall₂_and
  rw [hforall, hrequired, hproperties, hnames, inputSchema]
  rw [satisfiesSchema]
  by_cases hnone : ((listed manifest).filter (·.required)).map (fun p ↦ Json.text p.name) = []
  · rw [← listed, if_neg (not_not.mpr hnone), hnone, Bool.and_eq_true, conformsObject,
      Bool.and_eq_true, Bool.and_eq_true]
    refine and_congr_left' ?_
    refine and_congr_left' ?_
    exact iff_of_true ⟨rfl, rfl⟩ rfl
  · rw [← listed, if_pos hnone, Bool.and_eq_true, conformsObject, Bool.and_eq_true,
      Bool.and_eq_true]
    refine and_congr_left' ?_
    refine and_congr_left' ?_
    exact and_iff_right rfl

/-- The keyword `type` of a property. -/
theorem field_type (p : Parameter) :
    Json.field (propertySchema p) (str "type") = some (.text (jsonType p.type)) := rfl

/-- The keyword `enum` of a property. -/
theorem field_enum (p : Parameter) : Json.field (propertySchema p) (str "enum") =
    if p.type = .lookupChoice then some (.arr ((p.choices.getD []).map Json.text)) else none := by
  unfold propertySchema
  by_cases hlookup : p.type = .lookupChoice
  · rw [if_pos hlookup, if_pos hlookup]
    rfl
  · rw [if_neg hlookup, if_neg hlookup]
    split
    · split
      · split <;> rfl
      · split <;> rfl
    · split <;> rfl

theorem hasJsonType_text {v : Json} (h : hasJsonType (str "string") v = true) :
    ∃ s, v = .text s := Json.isText_iff.mp h

theorem hasJsonType_bool {v : Json} (h : hasJsonType (str "boolean") v = true) :
    ∃ b, v = .bool b := by
  cases v with
  | bool b => exact ⟨b, rfl⟩
  | _ => exact absurd (show false = true from h) Bool.false_ne_true

theorem hasJsonType_number {v : Json} (h : hasJsonType (str "number") v = true) :
    (∃ n, v = .int n) ∨ ∃ x, v = .float x := by
  cases v with
  | int n => exact .inl ⟨n, rfl⟩
  | float x => exact .inr ⟨x, rfl⟩
  | _ => exact absurd (show false = true from h) Bool.false_ne_true

theorem hasJsonType_integer {v : Json} (h : hasJsonType (str "integer") v = true) :
    (∃ n, v = .int n) ∨ ∃ x, v = .float x := by
  cases v with
  | int n => exact .inl ⟨n, rfl⟩
  | float x => exact .inr ⟨x, rfl⟩
  | _ => exact absurd (show false = true from h) Bool.false_ne_true

end Schema

/-! ## The two doors -/

def jsonFloat (display : Display) : PyFloat → Str
  | .nan => str "NaN"
  | .infinite false => str "Infinity"
  | .infinite true => str "-Infinity"
  | x => display.reprFloat x

/-- How the endpoint writes the values of a request, whose integers have a text. -/
def rendering (display : Display) (depthLimit : ℕ) : Rendering where
  strOf v := (v.strOf display).getD []
  reprOf v := (v.reprOf display).getD []
  dumps v := dumps (jsonFloat display) v
  depthLimit := depthLimit

/-- `{k: _as_param(v) for k, v in arguments.items()}` -/
def submitted (rendering : Rendering) (args : List (Str × Json)) : List (Str × Json) :=
  args.map fun arg ↦ (arg.1, .text (asParam rendering arg.2))

/-- Both raise, or both return one dict. -/
def SameOutcome (a b : Except Exc (List (Str × Json))) : Prop :=
  match a, b with
  | .ok result, .ok other => result = other
  | .error _, .error _ => True
  | _, _ => False

end DatumSync.Mcp
