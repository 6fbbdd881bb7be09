import DatumSync.Python.Json

/-!
# What `yaml.safe_load` returns

A document is a tree of Python values.  Unlike JSON, a mapping may have keys of any hashable type,
scalars may be dates or bytes, and there are sets (`!!set`) and the pairs of `!!omap` and `!!pairs`.
A collection that contains itself, by an alias inside its anchor, is unrolled as far as anything
looks into it and ends in a leaf of its own.  How Python shows a value is a parameter, `Shown`; only a
text is known to be shown as itself.
-/

namespace DatumSync.Python

inductive Yaml where
  | null
  | bool (b : Bool)
  | int (n : ℤ)
  | float (x : PyFloat)
  | text (s : Str)
  /-- A date or a time, by its `str`. -/
  | date (shown : Str)
  | binary (data : List UInt8)
  | list (items : List Yaml)
  /-- An entry of `!!omap` or `!!pairs`. -/
  | tuple (items : List Yaml)
  | set (items : List Yaml)
  | mapping (fields : List (Yaml × Yaml))
  /-- A collection that contains the place it stands at, by its `str`. -/
  | loop (shown : Str)

namespace Yaml

def truthy : Yaml → Bool
  | null => false
  | bool b => b
  | int n => n != 0
  | float (.finite _ mantissa _) => mantissa != 0
  | float _ => true
  | text s => !s.isEmpty
  | date _ => true
  | binary data => !data.isEmpty
  | list items | tuple items | set items => !items.isEmpty
  | mapping fields => !fields.isEmpty
  | loop _ => true

/-- `v == s` for a string `s`. -/
def eqText (v : Yaml) (s : Str) : Bool :=
  match v with
  | text t => t == s
  | _ => false

def isNull : Yaml → Bool
  | null => true
  | _ => false

/-- `isinstance(v, str)` -/
def isText : Yaml → Bool
  | text _ => true
  | _ => false

/-- `fields.get(key)` of a dict, for a text key. -/
def get (fields : List (Yaml × Yaml)) (key : Str) : Yaml :=
  ((fields.find? fun field ↦ field.1.eqText key).map Prod.snd).getD null

/-- `fields.get(key, default)` -/
def getD (fields : List (Yaml × Yaml)) (key : Str) (default : Yaml) : Yaml :=
  ((fields.find? fun field ↦ field.1.eqText key).map Prod.snd).getD default

/-- The texts of a list that holds nothing else. -/
def allTexts : List Yaml → Option (List Str)
  | [] => some []
  | text s :: rest => (allTexts rest).map (s :: ·)
  | _ :: _ => none

theorem eqText_iff {v : Yaml} {s : Str} : v.eqText s = true ↔ v = text s := by
  cases v with
  | text t => exact beq_iff_eq.trans ⟨congrArg text, Yaml.text.inj⟩
  | _ => exact iff_of_false Bool.false_ne_true nofun

end Yaml

/-- `str` and `repr` of the values of a document. -/
structure Shown where
  strOf : Yaml → Str
  reprOf : Yaml → Str
  strOf_text : ∀ s, strOf (.text s) = s

end DatumSync.Python
