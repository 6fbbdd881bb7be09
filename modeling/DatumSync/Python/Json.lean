import DatumSync.Python.Text

/-!
# JSON values as Python holds them

The values `json.loads` returns and `json.dumps` takes, with the dynamic operations the service
applies to them: truth, `dict.get`, hashing, and what Starlette's `JSONResponse` can render.
Numbers keep Python's two types.  A float is a sign, a mantissa and a binary exponent, or one of
the three special values, which `json` reads and writes as `NaN` and `Infinity`.
-/

namespace DatumSync.Python

inductive PyFloat where
  | nan
  | infinite (negative : Bool)
  | finite (negative : Bool) (mantissa : ℕ) (exponent : ℤ)
  deriving DecidableEq

inductive Json where
  | null
  | bool (b : Bool)
  | int (n : ℤ)
  | float (x : PyFloat)
  | text (s : Str)
  | arr (items : List Json)
  | obj (fields : List (Str × Json))

namespace Json

def truthy : Json → Bool
  | null => false
  | bool b => b
  | int n => n != 0
  | float (.finite _ mantissa _) => mantissa != 0
  | float _ => true
  | text s => !s.isEmpty
  | arr items => !items.isEmpty
  | obj fields => !fields.isEmpty

def orElse (v other : Json) : Json := if v.truthy then v else other

def isDict : Json → Bool
  | obj _ => true
  | _ => false

/-- `isinstance(v, str)` -/
def isText : Json → Bool
  | text _ => true
  | _ => false

def isNull : Json → Bool
  | null => true
  | _ => false

/-- Whether `hash(v)` is defined: lists and dicts are not hashable. -/
def hashable : Json → Bool
  | arr _ => false
  | obj _ => false
  | _ => true

/-- `v == s` for a string `s`. -/
def eqText (v : Json) (s : Str) : Bool :=
  match v with
  | text t => t == s
  | _ => false

/-- `fields.get(key)` of a dict; `none` where the key is absent. -/
def field (fields : List (Str × Json)) (key : Str) : Option Json := fields.lookup key

/-- `fields.get(key, default)` -/
def fieldD (fields : List (Str × Json)) (key : Str) (default : Json) : Json :=
  (field fields key).getD default

/-- Assign `key`, keeping its position where it is already present. -/
def assign (fields : List (Str × Json)) (key : Str) (value : Json) : List (Str × Json) :=
  match fields with
  | [] => [(key, value)]
  | (k, v) :: rest =>
    if k = key then (k, value) :: rest else (k, v) :: assign rest key value

/-- Whether `json.dumps(v, ensure_ascii=False, allow_nan=False).encode("utf-8")`, which is how a
`JSONResponse` renders its content, succeeds. -/
def renderable : Json → Bool
  | float (.finite ..) => true
  | float _ => false
  | text s => !s.any isSurrogate
  | arr items => renderableItems items
  | obj fields => renderableFields fields
  | _ => true
where
  renderableItems : List Json → Bool
    | [] => true
    | item :: rest => renderable item && renderableItems rest
  renderableFields : List (Str × Json) → Bool
    | [] => true
    | (key, value) :: rest =>
      !key.any isSurrogate && renderable value && renderableFields rest

/-- How many lists and dicts are open around the innermost value. -/
def depth : Json → ℕ
  | arr items => depthItems items + 1
  | obj fields => depthFields fields + 1
  | _ => 0
where
  depthItems : List Json → ℕ
    | [] => 0
    | item :: rest => max (depth item) (depthItems rest)
  depthFields : List (Str × Json) → ℕ
    | [] => 0
    | (_, value) :: rest => max (depth value) (depthFields rest)

/-- Whether a `JSONResponse` of the value is built, where the encoder may nest `limit` deep. -/
def renders (limit : ℕ) (v : Json) : Bool := renderable v && decide (depth v ≤ limit)

/-- Structural equality, decided. -/
def same : Json → Json → Bool
  | null, null => true
  | bool a, bool b => a == b
  | int a, int b => a == b
  | float a, float b => a == b
  | text a, text b => a == b
  | arr a, arr b => sameItems a b
  | obj a, obj b => sameFields a b
  | _, _ => false
where
  sameItems : List Json → List Json → Bool
    | [], [] => true
    | a :: as, b :: bs => same a b && sameItems as bs
    | _, _ => false
  sameFields : List (Str × Json) → List (Str × Json) → Bool
    | [], [] => true
    | (k, a) :: as, (l, b) :: bs => k == l && same a b && sameFields as bs
    | _, _ => false

mutual

theorem same_iff : ∀ a b : Json, same a b = true ↔ a = b
  | null, b => by cases b <;> simp [same]
  | bool a, b => by cases b <;> simp [same]
  | int a, b => by cases b <;> simp [same]
  | float a, b => by cases b <;> simp [same]
  | text a, b => by cases b <;> simp [same]
  | arr a, b => by cases b <;> simp [same, sameItems_iff a]
  | obj a, b => by cases b <;> simp [same, sameFields_iff a]

theorem sameItems_iff : ∀ a b : List Json, same.sameItems a b = true ↔ a = b
  | [], b => by cases b <;> simp [same.sameItems]
  | a :: as, b => by cases b <;> simp [same.sameItems, same_iff a, sameItems_iff as]

theorem sameFields_iff : ∀ a b : List (Str × Json), same.sameFields a b = true ↔ a = b
  | [], b => by cases b <;> simp [same.sameFields]
  | (k, a) :: as, b => by
    cases b with
    | nil => simp [same.sameFields]
    | cons b bs =>
      obtain ⟨l, b⟩ := b
      simp [same.sameFields, same_iff a, sameFields_iff as]

end

instance : DecidableEq Json := fun a b ↦ decidable_of_iff _ (same_iff a b)

theorem eqText_iff {v : Json} {s : Str} : v.eqText s = true ↔ v = text s := by
  cases v with
  | text t => simp [eqText]
  | _ => simp [eqText]

theorem fieldD_nil (key : Str) (default : Json) : fieldD [] key default = default := rfl

/-- A dict with an entry that is not null is not the empty one, so `or {}` keeps it. -/
theorem orElse_obj {fields : List (Str × Json)} {key : Str} {other : Json}
    (h : fieldD fields key null ≠ null) : (obj fields).orElse other = obj fields := by
  cases fields with
  | nil => exact absurd (fieldD_nil key null) h
  | cons entry rest => rfl

theorem isText_iff {v : Json} : v.isText = true ↔ ∃ s, v = text s := by
  cases v with
  | text s => simp [isText]
  | _ => simp [isText]

end Json

end DatumSync.Python
