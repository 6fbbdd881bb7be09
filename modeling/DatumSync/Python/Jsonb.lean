import DatumSync.Python.Dict
import DatumSync.Python.Numbers
import DatumSync.Python.Yaml

/-!
# Values in a `jsonb` column

`json.dumps` writes a value of a document where it can, `jsonb` takes what PostgreSQL can hold, and
`json.loads` reads the column back: keys in an order of their own, and a float from `1e16` on, which
is written with an exponent, as an integer.
-/

namespace DatumSync.Python

/-! ## Texts and numbers that are kept -/

/-- No NUL and no surrogate: `jsonb` refuses a NUL or half a pair, and joins a pair. -/
def isPlain (s : Str) : Bool := s.all fun c ↦ !isSurrogate c && c.val != 0

def PyFloat.isNegativeZero : PyFloat → Bool
  | finite true 0 _ => true
  | _ => false

/-- A float that is written without a positive exponent, and not `-0.0`. -/
def PyFloat.isModerate (x : PyFloat) : Bool :=
  !x.isNegativeZero && x.value.any fun v ↦ decide (|v| < 10 ^ 16)

/-- The integer has a text within the interpreter's limit of digits. -/
def hasDigits (n : ℤ) : Bool := decide ((digitsOf n.natAbs).length ≤ intMaxStrDigits)

/-! ## `json.dumps` -/

namespace Yaml

variable (reprFloat : PyFloat → Str)

/-- The text of a key; any other key is a `TypeError`. -/
def keyText : Yaml → Option Str
  | text s => some s
  | null => some (str "null")
  | bool b => some (if b then str "true" else str "false")
  | int n => if hasDigits n then some (decimal n) else none
  | float x => some (reprFloat x)
  | _ => none

/-- The JSON value that `json.dumps` writes; a tuple is an array, dates, bytes and sets are a
`TypeError`, and a collection that contains itself is a `ValueError`. -/
def toJson : Yaml → Option Json
  | null => some .null
  | bool b => some (.bool b)
  | int n => if hasDigits n then some (.int n) else none
  | float x => some (.float x)
  | text s => some (.text s)
  | date _ | binary _ | set _ | loop _ => none
  | list items | tuple items => (toJsonItems items).map .arr
  | mapping fields => (toJsonFields fields).map .obj
where
  toJsonItems : List Yaml → Option (List Json)
    | [] => some []
    | item :: rest => (toJson item).bind fun v ↦ (toJsonItems rest).map (v :: ·)
  toJsonFields : List (Yaml × Yaml) → Option (List (Str × Json))
    | [] => some []
    | (key, value) :: rest =>
      (keyText reprFloat key).bind fun k ↦
        (toJson value).bind fun v ↦ (toJsonFields rest).map ((k, v) :: ·)

/-- A value that `json.loads` gives. -/
def ofJson : Json → Yaml
  | .null => null
  | .bool b => bool b
  | .int n => int n
  | .float x => float x
  | .text s => text s
  | .arr items => list (ofJsonItems items)
  | .obj fields => mapping (ofJsonFields fields)
where
  ofJsonItems : List Json → List Yaml
    | [] => []
    | item :: rest => ofJson item :: ofJsonItems rest
  ofJsonFields : List (Str × Json) → List (Yaml × Yaml)
    | [] => []
    | (key, value) :: rest => (text key, ofJson value) :: ofJsonFields rest

end Yaml

/-! ## The column -/

section Read

variable (read : Json → Option Json)

def readItems : List Json → Option (List Json)
  | [] => some []
  | item :: rest => (read item).bind fun v ↦ (readItems rest).map (v :: ·)

def readFields : List (Str × Json) → Option (List (Str × Json))
  | [] => some []
  | (key, value) :: rest =>
    (read value).bind fun v ↦ (readFields rest).map ((key, v) :: ·)

end Read

/-- What a `jsonb` column gives back of what `json.dumps` wrote into it. -/
structure Jsonb where
  read : Json → Option Json
  /-- The order of the keys of an object. -/
  order : Str → Str → Bool
  null : read .null = some .null
  bool : ∀ b, read (.bool b) = some (.bool b)
  int : ∀ n, read (.int n) = some (.int n)
  text : ∀ s, isPlain s = true → read (.text s) = some (.text s)
  float : ∀ x, x.isModerate = true → read (.float x) = some (.float x)
  /-- Every other finite float comes back as a number, which is zero just when the float is. -/
  number : ∀ x, x.isFinite = true → ∃ v, read (.float x) = some v ∧ v.isText = false ∧
    v.truthy = (Json.float x).truthy
  arr : ∀ items, read (.arr items) = (readItems read items).map .arr
  /-- Of distinct keys an object keeps all. -/
  obj : ∀ fields, (fields.map Prod.fst).Nodup → (∀ field ∈ fields, isPlain field.1 = true) →
    read (.obj fields) = (readFields read fields).map fun found ↦
      .obj (found.mergeSort fun a b ↦ order a.1 b.1)
  /-- Of keys that occur more than once it keeps one each. -/
  repeated : ∀ fields, (∀ field ∈ fields, isPlain field.1 = true) →
    (readFields read fields).isSome = true → ∃ found, read (.obj fields) = some (.obj found) ∧
      found.isEmpty = fields.isEmpty

/-! ## What comes back -/

namespace Yaml

def keyStr : Yaml → Str
  | text s => s
  | _ => []

/-- The value comes back as it is: its texts are plain, its floats moderate, its sequences lists, and
the keys of its mappings are texts in the column's order. -/
def Kept (order : Str → Str → Bool) : Yaml → Prop
  | null => True
  | bool _ => True
  | int n => hasDigits n = true
  | float x => x.isModerate = true
  | text s => isPlain s = true
  | date _ | binary _ | tuple _ | set _ | loop _ => False
  | list items => KeptItems items
  | mapping fields =>
    KeptFields fields ∧ (fields.map fun field ↦ field.1.keyStr).Nodup ∧
      (fields.map fun field ↦ field.1.keyStr).Pairwise fun a b ↦ order a b = true
where
  KeptItems : List Yaml → Prop
    | [] => True
    | item :: rest => Kept order item ∧ KeptItems rest
  KeptFields : List (Yaml × Yaml) → Prop
    | [] => True
    | (key, value) :: rest =>
      (key.isText = true ∧ isPlain key.keyStr = true) ∧ Kept order value ∧ KeptFields rest

/-- The column takes the value: it holds no dates, bytes, sets or special floats, not itself, and its
texts, those of its keys too, are plain. -/
def Taken (reprFloat : PyFloat → Str) : Yaml → Prop
  | null => True
  | bool _ => True
  | int n => hasDigits n = true
  | float x => x.isFinite = true
  | text s => isPlain s = true
  | date _ | binary _ | set _ | loop _ => False
  | list items | tuple items => TakenItems items
  | mapping fields => TakenFields fields
where
  TakenItems : List Yaml → Prop
    | [] => True
    | item :: rest => Taken reprFloat item ∧ TakenItems rest
  TakenFields : List (Yaml × Yaml) → Prop
    | [] => True
    | (key, value) :: rest =>
      (∃ k, keyText reprFloat key = some k ∧ isPlain k = true) ∧ Taken reprFloat value ∧
        TakenFields rest

variable {reprFloat : PyFloat → Str} {jsonb : Jsonb}

@[simp]
theorem truthy_ofJson (v : Json) : (ofJson v).truthy = v.truthy := by
  cases v with
  | float x => cases x <;> rfl
  | arr items => cases items <;> rfl
  | obj fields => cases fields <;> rfl
  | _ => rfl

@[simp]
theorem eqText_ofJson (v : Json) (s : Str) : (ofJson v).eqText s = v.eqText s := by
  cases v <;> rfl

mutual

/-- A value that is kept is written, and comes back as it is. -/
theorem Kept.read : ∀ {v : Yaml}, v.Kept jsonb.order →
    ∃ j, v.toJson reprFloat = some j ∧ jsonb.read j = some j ∧ ofJson j = v
  | null, _ => ⟨.null, rfl, jsonb.null, rfl⟩
  | bool b, _ => ⟨.bool b, rfl, jsonb.bool b, rfl⟩
  | int n, h => ⟨.int n, if_pos h, jsonb.int n, rfl⟩
  | float x, h => ⟨.float x, rfl, jsonb.float x h, rfl⟩
  | text s, h => ⟨.text s, rfl, jsonb.text s h, rfl⟩
  | date _, h | binary _, h | tuple _, h | set _, h | loop _, h => h.elim
  | list items, h => by
    obtain ⟨js, hjs, hread, hback⟩ := Kept.readItems h
    refine ⟨.arr js, by rw [toJson, hjs, Option.map_some], ?_, congrArg list hback⟩
    rw [jsonb.arr, hread, Option.map_some]
  | mapping fields, ⟨h, hnodup, hordered⟩ => by
    obtain ⟨fs, hfs, hread, hback, hkeys, hplain⟩ := Kept.readFields h
    refine ⟨.obj fs, by rw [toJson, hfs, Option.map_some], ?_, congrArg mapping hback⟩
    rw [← hkeys] at hnodup hordered
    rw [List.pairwise_map] at hordered
    rw [jsonb.obj fs hnodup hplain, hread, Option.map_some, List.mergeSort_of_pairwise hordered]

theorem Kept.readItems : ∀ {items : List Yaml}, Kept.KeptItems jsonb.order items →
    ∃ js, toJson.toJsonItems reprFloat items = some js ∧
      Python.readItems jsonb.read js = some js ∧ ofJson.ofJsonItems js = items
  | [], _ => ⟨[], rfl, rfl, rfl⟩
  | item :: rest, ⟨hitem, hrest⟩ => by
    obtain ⟨j, hj, hread, hback⟩ := Kept.read hitem
    obtain ⟨js, hjs, hreads, hbacks⟩ := Kept.readItems hrest
    refine ⟨j :: js, ?_, ?_, by rw [ofJson.ofJsonItems, hback, hbacks]⟩
    · rw [toJson.toJsonItems, hj, Option.bind_some, hjs, Option.map_some]
    · rw [Python.readItems, hread, Option.bind_some, hreads, Option.map_some]

theorem Kept.readFields : ∀ {fields : List (Yaml × Yaml)}, Kept.KeptFields jsonb.order fields →
    ∃ fs, toJson.toJsonFields reprFloat fields = some fs ∧
      Python.readFields jsonb.read fs = some fs ∧ ofJson.ofJsonFields fs = fields ∧
      fs.map Prod.fst = fields.map (fun field ↦ field.1.keyStr) ∧
      ∀ field ∈ fs, isPlain field.1 = true
  | [], _ => ⟨[], rfl, rfl, rfl, rfl, List.forall_mem_nil _⟩
  | (key, value) :: rest, ⟨⟨htext, hplain⟩, hvalue, hrest⟩ => by
    obtain ⟨j, hj, hread, hback⟩ := Kept.read hvalue
    obtain ⟨fs, hfs, hreads, hbacks, hkeys, hplains⟩ := Kept.readFields hrest
    cases key with
    | text s =>
      refine ⟨(s, j) :: fs, ?_, ?_, by rw [ofJson.ofJsonFields, hback, hbacks],
        by rw [List.map_cons, List.map_cons, hkeys]; rfl, List.forall_mem_cons.2 ⟨hplain, hplains⟩⟩
      · rw [toJson.toJsonFields, keyText, Option.bind_some, hj, Option.bind_some, hfs,
          Option.map_some]
      · rw [Python.readFields, hread, Option.bind_some, hreads, Option.map_some]
    | _ => cases htext

end

mutual

/-- A value that the column takes comes back as one that is true, and equal to a text, as it was. -/
theorem Taken.read : ∀ {v : Yaml}, v.Taken reprFloat →
    ∃ j j', v.toJson reprFloat = some j ∧ jsonb.read j = some j' ∧ j'.truthy = v.truthy ∧
      ∀ s, j'.eqText s = v.eqText s
  | null, _ => ⟨.null, .null, rfl, jsonb.null, rfl, fun _ ↦ rfl⟩
  | bool b, _ => ⟨.bool b, .bool b, rfl, jsonb.bool b, rfl, fun _ ↦ rfl⟩
  | int n, h => ⟨.int n, .int n, if_pos h, jsonb.int n, rfl, fun _ ↦ rfl⟩
  | float x, h => by
    obtain ⟨v, hread, htext, htruthy⟩ := jsonb.number x h
    refine ⟨.float x, v, rfl, hread, ?_, fun s ↦ ?_⟩
    · rw [htruthy]
      cases x <;> rfl
    · cases v with
      | text t => cases htext
      | _ => rfl
  | text s, h => ⟨.text s, .text s, rfl, jsonb.text s h, rfl, fun _ ↦ rfl⟩
  | date _, h | binary _, h | set _, h | loop _, h => h.elim
  | list items, h | tuple items, h => by
    obtain ⟨js, js', hjs, hread, hempty⟩ := Taken.readItems h
    refine ⟨.arr js, .arr js', by rw [toJson, hjs, Option.map_some], ?_, congrArg not hempty,
      fun _ ↦ rfl⟩
    rw [jsonb.arr, hread, Option.map_some]
  | mapping fields, h => by
    obtain ⟨fs, hfs, hread, hempty, hplain⟩ := Taken.readFields h
    obtain ⟨found, hfound, hfoundEmpty⟩ := jsonb.repeated fs hplain hread
    exact ⟨.obj fs, .obj found, by rw [toJson, hfs, Option.map_some], hfound,
      congrArg not (hfoundEmpty.trans hempty), fun _ ↦ rfl⟩

theorem Taken.readItems : ∀ {items : List Yaml}, Taken.TakenItems reprFloat items →
    ∃ js js', toJson.toJsonItems reprFloat items = some js ∧
      Python.readItems jsonb.read js = some js' ∧ js'.isEmpty = items.isEmpty
  | [], _ => ⟨[], [], rfl, rfl, rfl⟩
  | item :: rest, ⟨hitem, hrest⟩ => by
    obtain ⟨j, j', hj, hread, -⟩ := Taken.read hitem
    obtain ⟨js, js', hjs, hreads, -⟩ := Taken.readItems hrest
    refine ⟨j :: js, j' :: js', ?_, ?_, rfl⟩
    · rw [toJson.toJsonItems, hj, Option.bind_some, hjs, Option.map_some]
    · rw [Python.readItems, hread, Option.bind_some, hreads, Option.map_some]

theorem Taken.readFields : ∀ {fields : List (Yaml × Yaml)}, Taken.TakenFields reprFloat fields →
    ∃ fs, toJson.toJsonFields reprFloat fields = some fs ∧
      (Python.readFields jsonb.read fs).isSome = true ∧ fs.isEmpty = fields.isEmpty ∧
      ∀ field ∈ fs, isPlain field.1 = true
  | [], _ => ⟨[], rfl, rfl, rfl, List.forall_mem_nil _⟩
  | (key, value) :: rest, ⟨⟨k, hk, hplain⟩, hvalue, hrest⟩ => by
    obtain ⟨j, j', hj, hread, -⟩ := Taken.read hvalue
    obtain ⟨fs, hfs, hreads, -, hplains⟩ := Taken.readFields hrest
    obtain ⟨found, hfound⟩ := Option.isSome_iff_exists.1 hreads
    refine ⟨(k, j) :: fs, ?_, ?_, rfl, List.forall_mem_cons.2 ⟨hplain, hplains⟩⟩
    · rw [toJson.toJsonFields, hk, Option.bind_some, hj, Option.bind_some, hfs, Option.map_some]
    · rw [Python.readFields, hread, Option.bind_some, hfound]
      rfl

end

end Yaml

/-! ## Objects -/

/-- Under distinct keys a field is found by its key. -/
theorem Json.field_eq_some {fields : List (Str × Json)} (hnodup : (fields.map Prod.fst).Nodup)
    {key : Str} {v : Json} : Json.field fields key = some v ↔ (key, v) ∈ fields := by
  induction fields with
  | nil => exact iff_of_false nofun List.not_mem_nil
  | cons entry rest ih =>
    obtain ⟨k, w⟩ := entry
    obtain ⟨hk, hrest⟩ := List.nodup_cons.1 hnodup
    rw [Json.field, List.lookup_cons, List.mem_cons, Prod.mk.injEq]
    by_cases hkey : key = k
    · subst hkey
      have hno : (key, v) ∉ rest := fun h ↦ hk (List.mem_map.2 ⟨_, h, rfl⟩)
      rw [beq_self_eq_true, or_iff_left hno, and_iff_right rfl, eq_comm]
      exact Option.some_inj
    · rw [beq_false_of_ne hkey, or_iff_right fun h ↦ hkey h.1]
      exact ih hrest

theorem readFields_eq_some {read : Json → Option Json} {fields : List (Str × Json)}
    (h : ∀ field ∈ fields, (read field.2).isSome = true) :
    ∃ found, readFields read fields = some found ∧ found.map Prod.fst = fields.map Prod.fst ∧
      ∀ key v, (key, v) ∈ fields → ∃ v', read v = some v' ∧ (key, v') ∈ found := by
  induction fields with
  | nil => exact ⟨[], rfl, rfl, nofun⟩
  | cons entry rest ih =>
    obtain ⟨k, w⟩ := entry
    obtain ⟨hw, hrest⟩ := List.forall_mem_cons.1 h
    obtain ⟨w', hw'⟩ := Option.isSome_iff_exists.1 hw
    obtain ⟨found, hfound, hkeys, hmem⟩ := ih hrest
    refine ⟨(k, w') :: found, ?_, by rw [List.map_cons, List.map_cons, hkeys], ?_⟩
    · rw [readFields, hw', Option.bind_some, hfound, Option.map_some]
    · intro key v hv
      obtain hv | hv := List.mem_cons.1 hv
      · obtain ⟨rfl, rfl⟩ := Prod.mk.inj hv
        exact ⟨w', hw', List.mem_cons_self⟩
      · obtain ⟨v', hread, hv'⟩ := hmem key v hv
        exact ⟨v', hread, List.mem_cons_of_mem _ hv'⟩

theorem readFields_self {read : Json → Option Json} {fields : List (Str × Json)}
    (h : ∀ field ∈ fields, read field.2 = some field.2) :
    readFields read fields = some fields := by
  induction fields with
  | nil => rfl
  | cons entry rest ih =>
    obtain ⟨hentry, hrest⟩ := List.forall_mem_cons.1 h
    rw [readFields, hentry, Option.bind_some, ih hrest, Option.map_some]

namespace Jsonb

variable {jsonb : Jsonb} {fields : List (Str × Json)}

/-- An object of distinct keys comes back with what comes back of its fields. -/
theorem read_obj (hnodup : (fields.map Prod.fst).Nodup)
    (hplain : ∀ field ∈ fields, isPlain field.1 = true)
    (hread : ∀ field ∈ fields, (jsonb.read field.2).isSome = true) :
    ∃ found, jsonb.read (.obj fields) = some (.obj found) ∧ ∀ key v v',
      (key, v) ∈ fields → jsonb.read v = some v' → Json.field found key = some v' := by
  obtain ⟨found, hfound, hkeys, hmem⟩ := readFields_eq_some hread
  refine ⟨_, by rw [jsonb.obj fields hnodup hplain, hfound, Option.map_some], ?_⟩
  intro key v v' hv hv'
  obtain ⟨w, hw, hfoundMem⟩ := hmem key v hv
  obtain rfl := Option.some.inj (hv'.symm.trans hw)
  have hsorted := List.mergeSort_perm found fun a b ↦ jsonb.order a.1 b.1
  have hsortedNodup := ((hsorted.map Prod.fst).nodup_iff).2 (hkeys ▸ hnodup)
  exact (Json.field_eq_some hsortedNodup).2 (hsorted.mem_iff.2 hfoundMem)

/-- An object of distinct keys whose values come back as they are is kept but for its order. -/
theorem read_obj_self (hnodup : (fields.map Prod.fst).Nodup)
    (hplain : ∀ field ∈ fields, isPlain field.1 = true)
    (hread : ∀ field ∈ fields, jsonb.read field.2 = some field.2) :
    ∃ found, jsonb.read (.obj fields) = some (.obj found) ∧ found.Perm fields := by
  refine ⟨_, by rw [jsonb.obj fields hnodup hplain, readFields_self hread, Option.map_some], ?_⟩
  exact List.mergeSort_perm _ _

end Jsonb

/-! ## A column

Keys are ordered by the length of their bytes, then by the bytes; of equal keys the last is kept.
Floats with an exponent are left as they are. -/

namespace Column

def order (a b : Str) : Bool :=
  let x := a.flatMap encodeCodePoint
  let y := b.flatMap encodeCodePoint
  decide (x.length < y.length) || (x.length == y.length && decide (x ≤ y))

/-- Of the fields with one key the last. -/
def lastOf : List (Str × Json) → List (Str × Json)
  | [] => []
  | field :: rest => if field.1 ∈ rest.map Prod.fst then lastOf rest else field :: lastOf rest

def objectOf (fields : List (Str × Json)) : Json :=
  .obj ((lastOf fields).mergeSort fun a b ↦ order a.1 b.1)

def read : Json → Option Json
  | .null => some .null
  | .bool b => some (.bool b)
  | .int n => some (.int n)
  | .float x => if x.isFinite then some (.float x) else none
  | .text s => if isPlain s then some (.text s) else none
  | .arr items => (readArr items).map .arr
  | .obj fields =>
    if fields.all fun field ↦ isPlain field.1 then (readObj fields).map objectOf else none
where
  readArr : List Json → Option (List Json)
    | [] => some []
    | item :: rest => (read item).bind fun v ↦ (readArr rest).map (v :: ·)
  readObj : List (Str × Json) → Option (List (Str × Json))
    | [] => some []
    | (key, value) :: rest => (read value).bind fun v ↦ (readObj rest).map ((key, v) :: ·)

theorem readArr_eq (items : List Json) : read.readArr items = readItems read items := by
  induction items with
  | nil => rfl
  | cons item rest ih => rw [read.readArr, readItems, ih]

theorem readObj_eq (fields : List (Str × Json)) : read.readObj fields = readFields read fields := by
  induction fields with
  | nil => rfl
  | cons field rest ih => rw [read.readObj, readFields, ih]

theorem lastOf_nodup {fields : List (Str × Json)} (h : (fields.map Prod.fst).Nodup) :
    lastOf fields = fields := by
  induction fields with
  | nil => rfl
  | cons field rest ih =>
    obtain ⟨hfield, hrest⟩ := List.nodup_cons.1 h
    rw [lastOf, if_neg hfield, ih hrest]

theorem lastOf_isEmpty (fields : List (Str × Json)) :
    (lastOf fields).isEmpty = fields.isEmpty := by
  induction fields with
  | nil => rfl
  | cons field rest ih =>
    rw [lastOf]
    split
    · next h =>
      rw [ih]
      cases rest with
      | nil => exact absurd h List.not_mem_nil
      | cons => rfl
    · rfl

theorem mergeSort_isEmpty {α : Type*} (items : List α) (le : α → α → Bool) :
    (items.mergeSort le).isEmpty = items.isEmpty := by
  rw [Bool.eq_iff_iff, List.isEmpty_iff, List.isEmpty_iff, ← List.length_eq_zero_iff,
    List.length_mergeSort, List.length_eq_zero_iff]

theorem readFields_keys {f : Json → Option Json} {fields found : List (Str × Json)}
    (h : readFields f fields = some found) : found.map Prod.fst = fields.map Prod.fst := by
  induction fields generalizing found with
  | nil => rw [← Option.some.inj h]
  | cons field rest ih =>
    obtain ⟨v, hv, h⟩ := Option.bind_eq_some_iff.1 h
    obtain ⟨found', hfound', rfl⟩ := Option.map_eq_some_iff.1 h
    rw [List.map_cons, List.map_cons, ih hfound']

theorem read_obj {fields : List (Str × Json)} (h : ∀ field ∈ fields, isPlain field.1 = true) :
    read (.obj fields) = (readFields read fields).map objectOf := by
  rw [read, if_pos (List.all_eq_true.2 h), readObj_eq]

theorem isFinite_of_isModerate {x : PyFloat} (h : x.isModerate = true) : x.isFinite = true := by
  cases x with
  | finite negative mantissa exponent => rfl
  | nan => exact absurd h (by decide)
  | infinite negative => cases negative <;> exact absurd h (by decide)

def jsonb : Jsonb where
  read := read
  order := order
  null := rfl
  bool _ := rfl
  int _ := rfl
  text _ h := if_pos h
  float _ h := if_pos (isFinite_of_isModerate h)
  number x h := ⟨.float x, if_pos h, rfl, rfl⟩
  arr items := congrArg (Option.map Json.arr) (readArr_eq items)
  obj fields hnodup hplain := by
    rw [read_obj hplain]
    refine Option.map_congr fun found hfound ↦ ?_
    rw [objectOf, lastOf_nodup]
    rw [readFields_keys hfound]
    exact hnodup
  repeated fields hplain h := by
    obtain ⟨found, hfound⟩ := Option.isSome_iff_exists.1 h
    refine ⟨_, by rw [read_obj hplain, hfound, Option.map_some, objectOf], ?_⟩
    rw [mergeSort_isEmpty, lastOf_isEmpty, Bool.eq_iff_iff, List.isEmpty_iff, List.isEmpty_iff,
      ← List.map_eq_nil_iff, readFields_keys hfound, List.map_eq_nil_iff]

end Column

end DatumSync.Python
