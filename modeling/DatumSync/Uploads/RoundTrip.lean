import DatumSync.Foundation.FileStore
import DatumSync.Parameters
import DatumSync.Uploads.Ids

/-!
# Files that are taken in

`save` writes a file into a new directory that has an upload id for a name; `resolve` takes an
upload id back to that file.  A name is made safe to store; how long it may be is left to the
system.
-/

namespace DatumSync.Uploads

open Foundation Jobs Python

/-! ## Names -/

/-- `NAME_MAX`, in bytes. -/
def nameMax : ℕ := 255

/-- How many bytes the system's name has for a character; a low surrogate stands for a byte that is
no text. -/
def nameWidth (c : CodePoint) : ℕ :=
  if 0xDC80 ≤ c.val ∧ c.val ≤ 0xDCFF then 1 else (encodeCodePoint c).length

/-- What the system takes for the name of a file. -/
def isFileName (name : Str) : Bool :=
  decide (name ≠ [] ∧ name ≠ str "." ∧ name ≠ str ".." ∧ cp '/' ∉ name ∧ 0 ∉ name ∧
    (name.map nameWidth).sum ≤ nameMax)

/-- A character that `_SAFE` does not match. -/
def isSafe (c : CodePoint) : Bool :=
  decide (0x41 ≤ c.val ∧ c.val ≤ 0x5A) || decide (0x61 ≤ c.val ∧ c.val ≤ 0x7A) || isDigit c ||
    c == cp '.' || c == cp '_' || c == cp '-'

def fallbackName : Str := str "upload"

def pathName (text : Str) : Str :=
  (((split (cp '/') text).filter fun part ↦ part ≠ [] && part ≠ str ".").getLast?).getD []

/-- What `lstrip` takes from the front of a name. -/
def isStripped (c : CodePoint) : Bool := c == cp '.' || c == cp '-'

def safeName (filename : Option Str) : Str :=
  let name := ((pathName (filename.getD [])).map fun c ↦ if isSafe c then c else cp '_').dropWhile
    isStripped
  if name = [] then fallbackName else name

example : safeName (some (str "../.-été !.txt")) = str "_t___.txt" := by decide +kernel

/-! ## The store -/

/-- The disk, the path of `_root()` with its links followed, and the limit on links of a system
call. -/
structure Host where
  store : FileStore Str (List UInt8) isFileName
  root : List Str
  root_names : root.all isFileName = true
  linkLimit : ℕ
  display : Display

namespace Host

variable (host : Host)

def isDir (path : List Str) : Bool :=
  (host.store.location host.linkLimit path).any host.store.isDirectory

def isFile (path : List Str) : Bool :=
  (host.store.location host.linkLimit path).any host.store.isFile

/-- The names of `path.glob("*")` -/
def glob (path : List Str) : List Str :=
  match host.store.location host.linkLimit path with
  | some directory => host.store.listing directory
  | none => []

/-- `path.read_bytes()` of a file. -/
def readBytes (path : List Str) : Option (List UInt8) :=
  (host.store.location host.linkLimit path).map host.store.content

/-- `_root() / upload_id` -/
def directoryOf (id : Fin (2 ^ 128)) : List Str := host.root ++ [uuidText id]

end Host

theorem length_uuidText (id : Fin (2 ^ 128)) : (uuidText id).length = 36 := by
  simp only [uuidText, List.length_append, lowerHexDigits_length, List.length_singleton]

theorem nameWidth_of_isAscii {c : CodePoint} (h : c.val < 0x80) : nameWidth c = 1 := by
  rw [nameWidth, if_neg (by omega), encodeCodePoint]
  simp only [if_pos h, List.map_cons, List.map_nil, List.length_singleton]

/-- An ASCII name has a byte for each of its characters. -/
theorem sum_nameWidth {name : Str} (h : ∀ c ∈ name, c.val < 0x80) :
    (name.map nameWidth).sum = name.length := by
  induction name with
  | nil => rfl
  | cons c rest ih =>
    rw [List.map_cons, List.sum_cons, nameWidth_of_isAscii (h c List.mem_cons_self),
      ih fun d hd ↦ h d (List.mem_cons_of_mem _ hd), List.length_cons, Nat.add_comm]

theorem isFileName_uuidText (id : Fin (2 ^ 128)) : isFileName (uuidText id) = true := by
  have hlength := length_uuidText id
  have hascii : ∀ c ∈ uuidText id, c.val < 0x80 := by
    intro c hc
    rcases of_mem_uuidText hc with rfl | hc
    · decide
    · have hbound := isLowerHex_bound hc
      omega
  refine decide_eq_true ⟨?_, ?_, ?_, ?_, ?_, ?_⟩
  · exact List.ne_nil_of_length_pos (by omega)
  · intro heq
    rw [heq] at hlength
    cases hlength
  · intro heq
    rw [heq] at hlength
    cases hlength
  · exact notMem_uuidText (by decide) (by decide +kernel)
  · exact notMem_uuidText (by decide) (by decide +kernel)
  · rw [sum_nameWidth hascii, hlength]
    decide

theorem all_directoryOf (host : Host) (id : Fin (2 ^ 128)) :
    (host.directoryOf id).all isFileName = true := by
  rw [Host.directoryOf, List.all_append, host.root_names, List.all_cons, List.all_nil,
    isFileName_uuidText]
  rfl

def uploadError (message : Str) : Exc := .raised .uploadError message

section Functions

variable (host : Host)

/-- `target.mkdir(parents=True)`: the disk afterwards, unless there is something in the way. -/
def makeTarget (id : Fin (2 ^ 128)) : Option Host :=
  if host.store.Open (host.directoryOf id) ∧ host.store.node (host.directoryOf id) = none then
    some { host with store := host.store.makeDirectories _ (all_directoryOf host id) }
  else none

/-- `(directory / name).write_bytes(data)`, where there is no such file. -/
def writeBytes (directory : List Str) (name : Str) (data : List UInt8) : Option Host :=
  if h : isFileName name = true ∧ host.store.node directory = some .directory ∧
      host.store.node (directory ++ [name]) = none then
    some { host with store := host.store.writeFile directory name data h.1 h.2.1 h.2.2 }
  else none

/-- `save`; `uuid4` has drawn the id. -/
def save (filename : Option Str) (data : List UInt8) (id : Fin (2 ^ 128)) : Host × Except Exc Str :=
  match makeTarget host id with
  | none => (host, .error (.raised .osError (str "File exists")))
  | some made =>
    match writeBytes made (made.directoryOf id) (safeName filename) data with
    | none => (made, .error (.raised .osError (str "File name too long")))
    | some written => (written, .ok (uuidText id))

def resolve (uploadId : Json) : Except Exc (List Str) :=
  match (uploadId.strOf host.display).bind parseUuid with
  | none => do
    let shown ← shownValue host.display uploadId
    throw (uploadError (str "not an upload id: " ++ shown))
  | some id =>
    let directory := host.directoryOf id
    let files := if host.isDir directory then
        sortTexts ((host.glob directory).filter fun name ↦ host.isFile (directory ++ [name]))
      else []
    match files with
    | [] => .error (uploadError (str "no such upload: " ++ uuidText id))
    | name :: _ => .ok (directory ++ [name])

def pathText (path : List Str) : Str := cp '/' :: join (cp '/') path

def fileParams (parameters : List Parameter) : List Str :=
  (parameters.filter fun p ↦ p.type = .file).map Parameter.name

def resolveParam (parameters : List Parameter) (item : Str × Json) : Except Exc (Str × Json) :=
  if item.1 ∈ fileParams parameters then
    (resolve host item.2).map fun path ↦ (item.1, .text (pathText path))
  else .ok item

def resolveParams (parameters : List Parameter) :
    List (Str × Json) → Except Exc (List (Str × Json))
  | [] => .ok []
  | item :: rest => do
    let resolved ← resolveParam host parameters item
    let others ← resolveParams parameters rest
    return resolved :: others

end Functions

/-! ## What is promised -/

/-- A name that can be stored and handed to a command. -/
structure SafeName (name : Str) : Prop where
  nonempty : name ≠ []
  characters : ∀ c ∈ name, isSafe c = true
  noSeparator : cp '/' ∉ name
  noFlag : ∀ c, name.head? = some c → c ≠ cp '.' ∧ c ≠ cp '-'

/-- What `save` relies on: on the way to the root are directories alone, and the id is new. -/
structure Host.Ready (host : Host) (id : Fin (2 ^ 128)) : Prop where
  root : host.store.Open host.root
  fresh : host.store.node (host.directoryOf id) = none

/-- The file that was taken in is found under its id, with what was in it. -/
def RoundTrips (host : Host) (filename : Option Str) (data : List UInt8) (id : Fin (2 ^ 128)) :
    Prop :=
  ∃ after path, save host filename data id = (after, .ok (uuidText id)) ∧
    resolve after (.text (uuidText id)) = .ok path ∧
    path = host.directoryOf id ++ [safeName filename] ∧ after.isFile path = true ∧
    after.readBytes path = some data

/-- A file directly inside the directory of a canonical id. -/
def Confined (host : Host) (path : List Str) : Prop :=
  ∃ id name, path = host.directoryOf id ++ [name] ∧ isFileName name = true ∧
    host.isFile path = true

/-- A parameter as the worker hands it on. -/
def Swapped (host : Host) (parameters : List Parameter) (given resolved : Str × Json) : Prop :=
  resolved.1 = given.1 ∧
    if given.1 ∈ fileParams parameters then
      ∃ path, Confined host path ∧ resolved.2 = .text (pathText path)
    else resolved.2 = given.2

/-- The last part of a file name, without the dots and hyphens in front. -/
def strippedName (filename : Option Str) : Str :=
  (pathName (filename.getD [])).dropWhile isStripped

/-! ## Names that are made safe -/

section Names

variable {filename : Option Str}

theorem isSafe_underscore : isSafe (cp '_') = true := by decide

/-- A character that is put in for another one is not stripped, so that stripping may come first. -/
theorem dropWhile_map_safe (name : Str) :
    (name.map fun c ↦ if isSafe c then c else cp '_').dropWhile isStripped =
      (name.dropWhile isStripped).map fun c ↦ if isSafe c then c else cp '_' := by
  induction name with
  | nil => rfl
  | cons c rest ih =>
    have hsame : isStripped (if isSafe c then c else cp '_') = isStripped c := by
      split
      · rfl
      · next hunsafe =>
        have hplain : isStripped c = false := by
          rw [isStripped, Bool.or_eq_false_iff, beq_eq_false_iff_ne, beq_eq_false_iff_ne]
          constructor
          · rintro rfl
            exact hunsafe (by decide)
          · rintro rfl
            exact hunsafe (by decide)
        rw [hplain]
        decide
    rw [List.map_cons, List.dropWhile_cons, List.dropWhile_cons, hsame]
    split
    · exact ih
    · rfl

theorem safeName_eq (filename : Option Str) : safeName filename =
    if strippedName filename = [] then fallbackName
    else (strippedName filename).map fun c ↦ if isSafe c then c else cp '_' := by
  unfold safeName strippedName
  dsimp only
  rw [dropWhile_map_safe]
  simp only [List.map_eq_nil_iff]

theorem length_safeName_le : (safeName filename).length ≤ nameMax ↔
    (strippedName filename).length ≤ nameMax := by
  rw [safeName_eq]
  split
  · next hnone =>
    rw [hnone]
    exact iff_of_true (by decide) (by decide)
  · rw [List.length_map]

theorem isSafe_bound {c : CodePoint} (h : isSafe c = true) :
    45 ≤ c.val ∧ c.val ≤ 122 ∧ c.val ≠ 47 := by
  simp only [isSafe, isDigit, Bool.or_eq_true, decide_eq_true_eq, beq_iff_eq] at h
  rcases h with ((((h | h) | h) | rfl) | rfl) | rfl
  · omega
  · omega
  · omega
  · decide
  · decide
  · decide

/-- What does not start with a stripped character is left as it is. -/
theorem head_dropWhile {p : CodePoint → Bool} {s : Str} {c : CodePoint}
    (h : (s.dropWhile p).head? = some c) : p c = false := by
  induction s with
  | nil => cases h
  | cons d rest ih =>
    rw [List.dropWhile_cons] at h
    split at h
    · exact ih h
    · next hstop =>
      obtain rfl := Option.some.inj h
      exact Bool.eq_false_iff.mpr hstop

theorem safeName_safe (filename : Option Str) : SafeName (safeName filename) := by
  have hcharacters : ∀ c ∈ safeName filename, isSafe c = true := by
    intro c hc
    rw [safeName_eq] at hc
    split at hc
    · exact List.all_eq_true.mp (by decide : fallbackName.all isSafe = true) c hc
    · obtain ⟨d, -, rfl⟩ := List.mem_map.mp hc
      split
      · next hsafe => exact hsafe
      · exact isSafe_underscore
  refine ⟨?_, hcharacters, ?_, ?_⟩
  · rw [safeName_eq]
    split
    · decide
    · next hne => exact fun hnil ↦ hne (List.map_eq_nil_iff.mp hnil)
  · intro hslash
    exact (isSafe_bound (hcharacters _ hslash)).2.2 (by decide)
  · intro c hc
    have hkept : isStripped c = false := by
      unfold safeName at hc
      dsimp only at hc
      split at hc
      · obtain rfl := Option.some.inj hc
        decide
      · exact head_dropWhile hc
    rwa [isStripped, Bool.or_eq_false_iff, beq_eq_false_iff_ne, beq_eq_false_iff_ne] at hkept

/-- The system takes a safe name that is not too long. -/
theorem isFileName_safeName :
    isFileName (safeName filename) = true ↔ (strippedName filename).length ≤ nameMax := by
  have hsafe := safeName_safe filename
  have hascii : ∀ c ∈ safeName filename, c.val < 0x80 := fun c hc ↦ by
    have hbound := isSafe_bound (hsafe.characters c hc)
    omega
  rw [← length_safeName_le, ← sum_nameWidth hascii, isFileName, decide_eq_true_eq]
  refine ⟨fun h ↦ h.2.2.2.2.2, fun h ↦ ⟨hsafe.nonempty, ?_, ?_, hsafe.noSeparator, ?_, h⟩⟩
  · intro heq
    exact (hsafe.noFlag (cp '.') (by rw [heq]; rfl)).1 rfl
  · intro heq
    exact (hsafe.noFlag (cp '.') (by rw [heq]; rfl)).1 rfl
  · intro hzero
    exact absurd (isSafe_bound (hsafe.characters _ hzero)).1 (by decide)

end Names

/-! ## What `resolve` finds -/

section Resolve

variable {host : Host} {parameters : List Parameter}

/-- A file that is found is one of the directory of an id. -/
theorem resolve_confined {uploadId : Json} {path : List Str}
    (h : resolve host uploadId = .ok path) : Confined host path := by
  unfold resolve at h
  split at h
  · obtain ⟨shown, -, hthrow⟩ := bind_ok h
    cases hthrow
  · next id hid =>
    dsimp only at h
    split at h
    · cases h
    · next name rest hfiles =>
      have hmem : name ∈ (host.glob (host.directoryOf id)).filter
          fun name ↦ host.isFile (host.directoryOf id ++ [name]) := by
        split at hfiles
        · have hfirst : name ∈ name :: rest := List.mem_cons_self
          rw [← hfiles, sortTexts, List.mem_mergeSort] at hfirst
          exact hfirst
        · cases hfiles
      obtain ⟨hlisted, hfile⟩ := List.mem_filter.mp hmem
      refine ⟨id, name, (Except.ok.inj h).symm, ?_, ?_⟩
      · unfold Host.glob at hlisted
        split at hlisted
        · exact FileStore.isName_of_mem_listing hlisted
        · cases hlisted
      · rw [← Except.ok.inj h]
        exact hfile

/-- A text either names a file or is refused with an `UploadError`. -/
theorem resolve_text (host : Host) (s : Str) :
    (∃ message, resolve host (.text s) = .error (uploadError message)) ∨
      ∃ path, resolve host (.text s) = .ok path := by
  unfold resolve
  split
  · exact .inl ⟨_, rfl⟩
  · next id hid =>
    dsimp only
    split
    · exact .inl ⟨_, rfl⟩
    · exact .inr ⟨_, rfl⟩

theorem resolveParam_swapped {given resolved : Str × Json}
    (h : resolveParam host parameters given = .ok resolved) :
    Swapped host parameters given resolved := by
  unfold resolveParam at h
  split at h
  · next hfile =>
    cases hpath : resolve host given.2 with
    | error e =>
      rw [hpath] at h
      cases h
    | ok path =>
      rw [hpath] at h
      rw [← Except.ok.inj h, Swapped, if_pos hfile]
      exact ⟨rfl, path, resolve_confined hpath, rfl⟩
  · next hother =>
    rw [← Except.ok.inj h, Swapped, if_neg hother]
    exact ⟨rfl, rfl⟩

/-- The parameters that are handed on: files of the uploads, and the others as they were. -/
theorem resolveParams_swapped {given resolved : List (Str × Json)}
    (h : resolveParams host parameters given = .ok resolved) :
    List.Forall₂ (Swapped host parameters) given resolved := by
  induction given generalizing resolved with
  | nil =>
    rw [← Except.ok.inj h]
    exact .nil
  | cons item rest ih =>
    rw [resolveParams] at h
    obtain ⟨first, hfirst, h⟩ := bind_ok h
    obtain ⟨others, hothers, h⟩ := bind_ok h
    rw [← Except.ok.inj h]
    exact .cons (resolveParam_swapped hfirst) (ih hothers)

end Resolve

/-! ## What `save` leaves -/

section Save

variable {host : Host} {filename : Option Str} {data : List UInt8} {id : Fin (2 ^ 128)}

theorem open_directoryOf (h : host.Ready id) : host.store.Open (host.directoryOf id) := by
  intro before hbefore
  rw [List.mem_inits, Host.directoryOf, List.prefix_concat_iff] at hbefore
  rcases hbefore with rfl | hbefore
  · exact .inl h.fresh
  · exact h.root before ((List.mem_inits _ _).mpr hbefore)

/-- The host after the new directory has been made. -/
def made (host : Host) (id : Fin (2 ^ 128)) : Host :=
  { host with store := host.store.makeDirectories _ (all_directoryOf host id) }

theorem makeTarget_of_ready (h : host.Ready id) : makeTarget host id = some (made host id) :=
  if_pos ⟨open_directoryOf h, h.fresh⟩

theorem node_made_directory : (made host id).store.node (host.directoryOf id) = some .directory :=
  if_pos (List.prefix_refl _)

theorem node_made_child (h : host.Ready id) (name : Str) :
    (made host id).store.node (host.directoryOf id ++ [name]) = none := by
  have hafter : ¬ host.directoryOf id ++ [name] <+: host.directoryOf id := fun hbefore ↦ by
    have hlength := hbefore.length_le
    rw [List.length_append, List.length_singleton] at hlength
    omega
  exact (if_neg hafter).trans (host.store.node_concat_of_none h.fresh name)

/-- The host after the file has been written. -/
def written (h : host.Ready id) (data : List UInt8)
    (hname : isFileName (safeName filename) = true) : Host :=
  let store := (made host id).store.writeFile (host.directoryOf id) (safeName filename) data hname
    node_made_directory (node_made_child h _)
  { made host id with store := store }

/-- A name that is not too long is written, and no other. -/
theorem save_of_ready (h : host.Ready id) :
    save host filename data id = if hname : isFileName (safeName filename) = true then
      (written h data hname, .ok (uuidText id))
    else (made host id, .error (.raised .osError (str "File name too long"))) := by
  have hdirectory : (made host id).directoryOf id = host.directoryOf id := rfl
  rw [save, makeTarget_of_ready h]
  dsimp only
  rw [hdirectory, writeBytes]
  by_cases hname : isFileName (safeName filename) = true
  · rw [dif_pos ⟨hname, node_made_directory, node_made_child h _⟩, dif_pos hname]
    rfl
  · rw [dif_neg fun hall ↦ hname hall.1, dif_neg hname]

/-- The directory and the file of an upload are found at their own paths. -/
structure Holds (after : Host) (id : Fin (2 ^ 128)) (name : Str) (data : List UInt8) : Prop where
  directory : after.store.node (after.directoryOf id) = some .directory
  file : after.store.node (after.directoryOf id ++ [name]) = some .file
  only : ∀ other, other ∈ after.store.listing (after.directoryOf id) ↔ other = name
  content : after.store.content (after.directoryOf id ++ [name]) = data

theorem holds_written (h : host.Ready id) (hname : isFileName (safeName filename) = true) :
    Holds (written h data hname) id (safeName filename) data := by
  refine ⟨?_, if_pos rfl, fun other ↦ ?_, if_pos rfl⟩
  · have hne : ¬ host.directoryOf id = host.directoryOf id ++ [safeName filename] := fun heq ↦
      absurd (List.self_eq_append_right.mp heq) (List.cons_ne_nil _ _)
    exact (if_neg hne).trans node_made_directory
  · exact FileStore.mem_listing_writeFile_makeDirectories (all_directoryOf host id) hname h.fresh

variable {after : Host} {name : Str}

theorem Holds.location (h : Holds after id name data) :
    after.store.location after.linkLimit (after.directoryOf id ++ [name]) =
      some (after.directoryOf id ++ [name]) := by
  have hfile := h.file
  refine FileTree.location_of_node ?_ (by rw [hfile]; rfl)
  refine (FileTree.plain_of_directory h.directory).concat fun absolute target hlink ↦ ?_
  rw [hfile] at hlink
  cases hlink

theorem Holds.isFile (h : Holds after id name data) :
    after.isFile (after.directoryOf id ++ [name]) = true := by
  rw [Host.isFile, h.location, Option.any_some]
  exact FileTree.isFile_iff.mpr h.file

theorem Holds.readBytes (h : Holds after id name data) :
    after.readBytes (after.directoryOf id ++ [name]) = some data := by
  rw [Host.readBytes, h.location, Option.map_some, h.content]

/-- The one file of an upload is what its id is resolved to. -/
theorem Holds.resolve (h : Holds after id name data) :
    resolve after (.text (uuidText id)) = .ok (after.directoryOf id ++ [name]) := by
  have hdirectory : after.store.location after.linkLimit (after.directoryOf id) =
      some (after.directoryOf id) := by
    have hnode := h.directory
    exact FileTree.location_of_node (FileTree.plain_of_directory hnode) (by rw [hnode]; rfl)
  have hisDir : after.isDir (after.directoryOf id) = true := by
    rw [Host.isDir, hdirectory, Option.any_some]
    exact FileTree.isDirectory_iff.mpr h.directory
  have hglob : ∀ other, other ∈ sortTexts ((after.glob (after.directoryOf id)).filter
      fun name ↦ after.isFile (after.directoryOf id ++ [name])) ↔ other = name := by
    intro other
    rw [sortTexts, List.mem_mergeSort, List.mem_filter, Host.glob, hdirectory]
    dsimp only
    rw [h.only]
    constructor
    · exact fun hmem ↦ hmem.1
    · rintro rfl
      exact ⟨rfl, h.isFile⟩
  have hparse : ((Json.text (uuidText id)).strOf after.display).bind parseUuid = some id := by
    rw [Json.strOf, Option.bind_some, parseUuid_uuidText]
  unfold Uploads.resolve
  rw [hparse]
  dsimp only
  rw [if_pos hisDir]
  cases hfiles : sortTexts ((after.glob (after.directoryOf id)).filter
      fun name ↦ after.isFile (after.directoryOf id ++ [name])) with
  | nil =>
    have hmem := (hglob name).mpr rfl
    rw [hfiles] at hmem
    cases hmem
  | cons first rest =>
    have hmem : first ∈ first :: rest := List.mem_cons_self
    rw [← hfiles, hglob] at hmem
    rw [hmem]

/-- What is taken in is found again just when its name is not too long. -/
theorem roundTrips_iff (h : host.Ready id) :
    RoundTrips host filename data id ↔ (strippedName filename).length ≤ nameMax := by
  rw [← isFileName_safeName]
  constructor
  · rintro ⟨after, path, hsave, -⟩
    by_contra hname
    rw [save_of_ready h, dif_neg hname] at hsave
    cases (Prod.mk.inj hsave).2
  · intro hname
    have hholds : Holds (written h data hname) id (safeName filename) data := holds_written h hname
    have hsave : save host filename data id = (written h data hname, .ok (uuidText id)) := by
      rw [save_of_ready h, dif_pos hname]
    exact ⟨_, _, hsave, hholds.resolve, rfl, hholds.isFile, hholds.readBytes⟩

end Save

/-- Names are made safe; a file is found again under its id just when its name is not too long; what
a text is resolved to, and what a parameter is swapped for, is a file of the uploads. -/
theorem uploads_confined (host : Host) (filename : Option Str) (data : List UInt8) :
    SafeName (safeName filename) ∧
      (∀ id, host.Ready id →
        (RoundTrips host filename data id ↔ (strippedName filename).length ≤ nameMax)) ∧
      (∀ s, (∃ message, resolve host (.text s) = .error (uploadError message)) ∨
        ∃ path, resolve host (.text s) = .ok path ∧ Confined host path) ∧
      ∀ parameters given resolved, resolveParams host parameters given = .ok resolved →
        List.Forall₂ (Swapped host parameters) given resolved := by
  refine ⟨safeName_safe filename, fun id hready ↦ roundTrips_iff hready, fun s ↦ ?_,
    fun parameters given resolved ↦ resolveParams_swapped⟩
  rcases resolve_text host s with hrefused | ⟨path, hpath⟩
  · exact .inl hrefused
  · exact .inr ⟨path, hpath, resolve_confined hpath⟩

def emptyTree : FileTree Str := .ofTable [] (by decide)

theorem node_emptyTree (dir : List Str) (name : Str) : emptyTree.node (dir ++ [name]) = none :=
  if_neg (List.append_ne_nil_of_right_ne_nil dir (List.cons_ne_nil name []))

def emptyHost : Host where
  store := {
    toFileTree := emptyTree
    names := []
    named := fun dir name h ↦ by
      rw [node_emptyTree] at h
      cases h
    content := fun _ ↦ [] }
  root := [str "data", str "uploads"]
  root_names := by decide +kernel
  linkLimit := 40
  display := ⟨fun _ ↦ [], fun _ ↦ true⟩

theorem emptyHost_ready (id : Fin (2 ^ 128)) : emptyHost.Ready id where
  root := by decide +kernel
  fresh := node_emptyTree _ _

theorem uploads_confined_report :
    RoundTrips emptyHost (some (str "../q3 report.txt")) [104, 105] 7 :=
  ((uploads_confined emptyHost (some (str "../q3 report.txt")) [104, 105]).2.1 7
    (emptyHost_ready 7)).mpr (by decide +kernel)

/-- A name of one character too many is safe, and cannot be stored. -/
theorem long_name_not_stored : emptyHost.Ready 7 ∧
    ¬ RoundTrips emptyHost (some (List.replicate 256 (cp 'a'))) [104, 105] 7 := by
  refine ⟨emptyHost_ready 7, fun h ↦ ?_⟩
  have hlength : strippedName (some (List.replicate 256 (cp 'a'))) =
      List.replicate 256 (cp 'a') := by decide +kernel
  have hshort := (roundTrips_iff (emptyHost_ready 7)).mp h
  rw [hlength, List.length_replicate] at hshort
  exact absurd hshort (by decide)

end DatumSync.Uploads
