import DatumSync.Errors
import DatumSync.Manifest

/-!
# Rebuilding artifact descriptors from the manifest

`_reconcile` takes the artifact list of a `result` event as it was decoded, so besides the
`ValueError`s it raises itself it can fail like any Python code on a value of the wrong shape.
-/

namespace DatumSync.Worker

open Python

structure Descriptor where
  name : Str
  type : Str
  primary : Bool
  file : Json
  dir : Bool
  size : Json
  deriving DecidableEq

def typeError (message : String) : Exc := .raised .typeError (str message)

def valueError (message : Str) : Exc := .raised .valueError message

/-- `for a in v` -/
def iterate (v : Json) : Except Exc (List Json) :=
  match v with
  | .arr items => .ok items
  | .obj fields => .ok (fields.map fun field ↦ .text field.1)
  | .text s => .ok (s.map fun c ↦ .text [c])
  | _ => .error (typeError "object is not iterable")

/-- `a[key]` for a text key. -/
def subscript (a : Json) (key : Str) : Except Exc Json :=
  match a with
  | .obj fields =>
    match Json.field fields key with
    | some v => .ok v
    | none => .error (.raised .keyError key)
  | _ => .error (typeError "indices must be integers")

/-- `{a["name"] for a in artifacts}`, in the order of the list. -/
def artifactNames : List Json → Except Exc (List Json)
  | [] => .ok []
  | a :: rest =>
    match subscript a (str "name") with
    | .error e => .error e
    | .ok name =>
      if name.hashable then (artifactNames rest).map (name :: ·)
      else .error (typeError "unhashable type")

/-- The texts of a list that holds nothing else. -/
def allTexts : List Json → Option (List Str)
  | [] => some []
  | .text s :: rest => (allTexts rest).map (s :: ·)
  | _ :: _ => none

/-- Whether a name is a key of `declared`. -/
def isDeclared (manifest : Manifest) (name : Json) : Bool :=
  match name with
  | .text s => (manifest.declared s).isSome
  | _ => false

/-- `if undeclared: raise ...`; sorting or joining anything but texts is a `TypeError`. -/
def refuseUndeclared (undeclared : List Json) : Except Exc Unit :=
  if undeclared = [] then .ok ()
  else match allTexts undeclared with
    | some names =>
      .error (valueError
        (str "run() returned undeclared artifacts: " ++ commaSorted names.dedup))
    | none => .error (typeError "expected str instance")

/-- The declared output of an artifact, `declared[a["name"]]`. -/
def outputOf (manifest : Manifest) (a : Json) : Except Exc Output :=
  match subscript a (str "name") with
  | .error e => .error e
  | .ok (.text name) =>
    match manifest.declared name with
    | some output => .ok output
    | none => .error (.raised .keyError name)
  | .ok _ => .error (.raised .keyError [])

/-- `bool(a.get("dir"))` of a dict. -/
def isDir (a : Json) : Bool :=
  match a with
  | .obj fields => (Json.fieldD fields (str "dir") .null).truthy
  | _ => false

/-- The loop that holds directories to service outputs; `reprOf` is `repr`. -/
def checkDirs (reprOf : Str → Str) (manifest : Manifest) : List Json → Except Exc Unit
  | [] => .ok ()
  | a :: rest =>
    match outputOf manifest a with
    | .error e => .error e
    | .ok output =>
      let isService := startsWith output.type (str "service/")
      if isService && !isDir a then
        .error (valueError (reprOf output.name ++ str " is declared " ++ output.type ++
          str " but the run returned a file; a hosted service is a directory"))
      else if isDir a && !isService then
        .error (valueError (reprOf output.name ++ str " is a directory, but output " ++
          reprOf output.name ++ str " is declared " ++ output.type ++
          str "; only service/* outputs may be directories"))
      else checkDirs reprOf manifest rest

def descriptorOf (manifest : Manifest) (a : Json) : Except Exc Descriptor :=
  match outputOf manifest a with
  | .error e => .error e
  | .ok output =>
    match subscript a (str "file") with
    | .error e => .error e
    | .ok file =>
      match subscript a (str "size") with
      | .error e => .error e
      | .ok size => .ok
        { name := output.name
          type := output.type
          primary := output.primary
          file := file
          dir := isDir a
          size := size }

def descriptors (manifest : Manifest) : List Json → Except Exc (List Descriptor)
  | [] => .ok []
  | a :: rest =>
    match descriptorOf manifest a with
    | .error e => .error e
    | .ok descriptor => (descriptors manifest rest).map (descriptor :: ·)

def reconcile (reprOf : Str → Str) (manifest : Manifest) (artifacts : Json) :
    Except Exc (List Descriptor) :=
  match iterate artifacts with
  | .error e => .error e
  | .ok items =>
    match artifactNames items with
    | .error e => .error e
    | .ok names =>
      match refuseUndeclared (names.filter fun name ↦ !isDeclared manifest name) with
      | .error e => .error e
      | .ok () =>
        match checkDirs reprOf manifest items with
        | .error e => .error e
        | .ok () => descriptors manifest items

end DatumSync.Worker
