import DatumSync.Foundation.FileTree
import DatumSync.Services

/-!
# The file that is served

`resolve` takes a request to a file below the root of a service.  That it is below the root is
checked on a resolved path, to which the name of the index is added.  Links are left on that path
where the index is one, and where the resolution stops at a loop of links.
-/

namespace DatumSync.Services

open Foundation Python
open Foundation.FileTree (Place WrittenPath)

structure ServiceRow where
  name : Str
  type : Str
  path : Str

/-- The disk, the working directory, how many links a system call follows, how many a resolution
follows inside one another, and `repr`. -/
structure Host where
  tree : FileTree Str
  cwd : List Str
  cwd_directory : tree.node cwd = some .directory
  linkLimit : ℕ
  nesting : ℕ
  reprOf : Str → Str

def supervised : List Str := [str "service/interactive", str "service/notebook"]

def indexName : Str := str "index.html"

/-- A name the operating system can be asked for: no NUL, and no surrogates but those that stand for
bytes. -/
def isName (name : Str) : Bool :=
  name.all fun c ↦ c.val != 0 && (!isSurrogate c || decide (0xDC80 ≤ c.val ∧ c.val ≤ 0xDCFF))

/-- One part between the slashes of a path. -/
def stepOf (part : Str) : PathStep Str :=
  if part = str ".." then .up else if part = [] ∨ part = str "." then .here else .name part

/-- The parts of a written path. -/
def stepsOf (path : Str) : List (PathStep Str) := (split (cp '/') path).map stepOf

variable (host : Host)

/-- `Path.resolve`: what a system call cannot follow is a `RuntimeError`. -/
def resolved (start : Place Str) (steps : List (PathStep Str)) : Except Exc (WrittenPath Str) :=
  match host.tree.resolve host.cwd isName host.nesting host.linkLimit start steps with
  | .ok path => .ok path
  | .error .loop => .error (.raised .otherError (str "Symlink loop"))
  | .error .badName => .error (.raised .valueError (str "embedded null byte"))
  | .error .recursion => .error (.raised .otherError (str "maximum recursion depth exceeded"))

/-- `Path(row["path"]).resolve()` -/
def rootOf (row : ServiceRow) : Except Exc (WrittenPath Str) :=
  resolved host (if startsWith row.path (str "/") then .root else .start) (stepsOf row.path)

/-- `root / subpath`; an absolute path replaces the root. -/
def below (root : WrittenPath Str) (subpath : Str) : List (PathStep Str) :=
  if startsWith subpath (str "/") then stepsOf subpath
  else root.names.map .name ++ stepsOf subpath

/-- `(root / subpath).resolve()` -/
def targetOf (root : WrittenPath Str) (subpath : Str) : Except Exc (WrittenPath Str) :=
  resolved host .root (below root subpath)

def Host.isDir (path : WrittenPath Str) : Bool :=
  (host.tree.location host.linkLimit path.names).any host.tree.isDirectory

def Host.isFile (path : WrittenPath Str) : Bool :=
  (host.tree.location host.linkLimit path.names).any host.tree.isFile

def indexOf (path : WrittenPath Str) : WrittenPath Str :=
  { path with names := path.names ++ [indexName] }

def isWithin (root target : WrittenPath Str) : Bool :=
  root.doubled == target.doubled && root.names.isPrefixOf target.names

def resolve (row : ServiceRow) (subpath : Str) : Except Exc (WrittenPath Str) := do
  if row.type ∈ supervised then
    throw (serviceError (host.reprOf row.name ++ str " is a " ++ row.type ++ str
      " service. Supervised services are registered but not run by this server."))
  if row.type ∉ static then
    throw (serviceError (host.reprOf row.name ++ str " has unknown type " ++ host.reprOf row.type))
  let root ← rootOf host row
  if !host.isDir root then
    throw (serviceError (host.reprOf row.name ++ str " points at " ++ row.path ++ str
      ", which is not a directory; re-run the workspace to republish it"))
  let target ← targetOf host root subpath
  let target := if host.isDir target then indexOf target else target
  if !isWithin root target then
    throw (serviceError (str "path escapes the service root"))
  if !host.isFile target then
    throw (serviceError (str "no such file in " ++ host.reprOf row.name ++ str ": " ++
      if subpath = [] then indexName else subpath))
  return target

/-- What is served lies, all links followed, inside the service root. -/
def Served (row : ServiceRow) (subpath : Str) : Prop :=
  ∀ target, resolve host row subpath = .ok target → ∃ root realRoot real,
    rootOf host row = .ok root ∧ host.tree.location host.linkLimit root.names = some realRoot ∧
      host.tree.location host.linkLimit target.names = some real ∧ realRoot <+: real

/-- The resolution of the request comes to a loop of links, and leaves the rest as it is written. -/
def StopsAtLoop (root : WrittenPath Str) (subpath : Str) : Prop :=
  ∃ path seen, host.tree.joinFrom host.cwd isName host.nesting (below root subpath) .root [] =
    .ok (.broken path, seen)

/-- The links that a resolution leaves on its result do not lead to a file outside. -/
structure LinksInside (row : ServiceRow) (subpath : Str) : Prop where
  /-- The index of a directory inside the root. -/
  index : ∀ root directory real, rootOf host row = .ok root →
    targetOf host root subpath = .ok directory →
      host.tree.isDirectory directory.names = true → isWithin root directory = true →
        host.tree.location host.linkLimit (indexOf directory).names = some real →
          host.tree.isFile real = true → root.names <+: real
  /-- The links behind a loop. -/
  loop : ∀ root found target realRoot real, rootOf host row = .ok root →
    StopsAtLoop host root subpath → targetOf host root subpath = .ok found →
      target = (if host.isDir found then indexOf found else found) →
        isWithin root target = true →
          host.tree.location host.linkLimit root.names = some realRoot →
            host.tree.isDirectory realRoot = true →
              host.tree.location host.linkLimit target.names = some real →
                host.tree.isFile real = true → realRoot <+: real

variable {host} {row : ServiceRow} {subpath : Str}

theorem isWithin_iff {root target : WrittenPath Str} :
    isWithin root target = true ↔ root.doubled = target.doubled ∧ root.names <+: target.names := by
  rw [isWithin, Bool.and_eq_true, beq_iff_eq, List.isPrefixOf_iff_prefix]

/-- A target is plain unless its resolution stops at a loop. -/
theorem targetOf_plain {root found : WrittenPath Str} (h : targetOf host root subpath = .ok found) :
    host.tree.Plain found.names ∨ StopsAtLoop host root subpath := by
  unfold targetOf resolved at h
  split at h
  · next path hpath =>
    rw [← Except.ok.inj h]
    exact (FileTree.resolve_plain FileTree.plain_root hpath).imp_right
      fun ⟨broken, seen, hbroken, _⟩ ↦ ⟨broken, seen, hbroken⟩
  · cases h
  · cases h
  · cases h

theorem isDir_iff {path : WrittenPath Str} :
    host.isDir path = true ↔ ∃ real, host.tree.location host.linkLimit path.names = some real ∧
      host.tree.isDirectory real = true := Option.any_eq_true _ _

theorem isFile_iff {path : WrittenPath Str} :
    host.isFile path = true ↔ ∃ real, host.tree.location host.linkLimit path.names = some real ∧
      host.tree.isFile real = true := Option.any_eq_true _ _

theorem location_of_directory {path : List Str} (h : host.tree.isDirectory path = true) :
    host.tree.location host.linkLimit path = some path := by
  have hnode := FileTree.isDirectory_iff.mp h
  exact FileTree.location_of_node (FileTree.plain_of_directory hnode) (by rw [hnode]; rfl)

theorem isDir_of_isDirectory {path : WrittenPath Str}
    (h : host.tree.isDirectory path.names = true) : host.isDir path = true :=
  isDir_iff.mpr ⟨path.names, location_of_directory h, h⟩

/-- What is a directory is no file. -/
theorem isFile_eq_false {path : WrittenPath Str} (h : host.isDir path = true) :
    host.isFile path = false := by
  obtain ⟨real, hreal, hdirectory⟩ := isDir_iff.mp h
  rw [Host.isFile, hreal, Option.any_some, FileTree.isFile,
    FileTree.isDirectory_iff.mp hdirectory]

/-- The checks of a target: it is served as it is, or refused. -/
theorem checked_eq_ok {root served target : WrittenPath Str} {outside missing : Exc} :
    (do
      if !isWithin root served then throw outside
      if !host.isFile served then throw missing
      return served : Except Exc (WrittenPath Str)) = .ok target ↔
      target = served ∧ isWithin root served = true ∧ host.isFile served = true := by
  cases isWithin root served with
  | false => exact iff_of_false nofun fun h ↦ nomatch h.2.1
  | true =>
    cases host.isFile served with
    | false => exact iff_of_false nofun fun h ↦ nomatch h.2.2
    | true => exact ⟨fun h ↦ ⟨(Except.ok.inj h).symm, rfl, rfl⟩, fun h ↦ congrArg _ h.1.symm⟩

/-- What a request that is served has gone through. -/
theorem resolve_eq_ok (hstatic : row.type ∈ static) {target : WrittenPath Str} :
    resolve host row subpath = .ok target ↔ ∃ root found, rootOf host row = .ok root ∧
      host.isDir root = true ∧ targetOf host root subpath = .ok found ∧
      target = (if host.isDir found then indexOf found else found) ∧
      isWithin root target = true ∧ host.isFile target = true := by
  have hsupervised : row.type ∉ supervised :=
    (by decide +kernel : ∀ type ∈ static, type ∉ supervised) row.type hstatic
  unfold resolve
  rw [if_neg hsupervised, if_neg (not_not.mpr hstatic)]
  cases hroot : rootOf host row with
  | error e => exact iff_of_false nofun fun ⟨_, _, h, _⟩ ↦ nomatch h
  | ok root =>
    cases hdir : host.isDir root with
    | false =>
      refine iff_of_false (by simp [hdir, bind, Except.bind]) ?_
      rintro ⟨other, _, hother, hisDir, _⟩
      rw [← Except.ok.inj hother, hdir] at hisDir
      cases hisDir
    | true =>
      cases hfound : targetOf host root subpath with
      | error e =>
        refine iff_of_false (by simp [hdir, hfound, bind, Except.bind]) ?_
        rintro ⟨other, _, hother, _, h, _⟩
        rw [← Except.ok.inj hother, hfound] at h
        cases h
      | ok found =>
        simp only [bind, Except.bind, hdir, hfound, Bool.not_true, Bool.false_eq_true, if_false]
        refine checked_eq_ok.trans ?_
        constructor
        · rintro ⟨rfl, hwithin, hfile⟩
          exact ⟨root, found, rfl, hdir, hfound, rfl, hwithin, hfile⟩
        · rintro ⟨other, there, hother, _, hthere, rfl, hwithin, hfile⟩
          obtain rfl := Except.ok.inj hother
          obtain rfl := Except.ok.inj (hfound.symm.trans hthere)
          exact ⟨rfl, hwithin, hfile⟩

/-- The root of a plain path to something below it is plain. -/
theorem isDirectory_root {root path : WrittenPath Str} (hroot : host.isDir root = true)
    (hwithin : isWithin root path = true) (hsome : (host.tree.node path.names).isSome = true)
    (hfile : host.isFile path = true) : host.tree.isDirectory root.names = true := by
  obtain ⟨hdoubled, hbegins⟩ := isWithin_iff.mp hwithin
  refine FileTree.isDirectory_iff.mpr (FileTree.node_of_isPrefix hsome hbegins fun heq ↦ ?_)
  have hdir : host.isDir path = true := by rwa [Host.isDir, ← heq]
  rw [isFile_eq_false hdir] at hfile
  cases hfile

/-- A plain path that is served leads inside the root. -/
theorem prefix_of_plain {root found : WrittenPath Str} {real : List Str}
    (hplain : host.tree.Plain found.names) (hroot : host.isDir root = true)
    (hwithin : isWithin root found = true)
    (hreal : host.tree.location host.linkLimit found.names = some real)
    (hfile : host.tree.isFile real = true) :
    ∃ realRoot, host.tree.location host.linkLimit root.names = some realRoot ∧
      realRoot <+: real := by
  obtain rfl := FileTree.location_plain hplain hreal
  have hsome : (host.tree.node found.names).isSome = true := by
    rw [FileTree.isFile_iff.mp hfile]
    rfl
  have hdirectory := isDirectory_root hroot hwithin hsome (isFile_iff.mpr ⟨_, hreal, hfile⟩)
  exact ⟨root.names, location_of_directory hdirectory, (isWithin_iff.mp hwithin).2⟩

/-- The index that is served leads inside the root where the condition says so. -/
theorem prefix_of_index {root directory : WrittenPath Str} {real : List Str}
    (hdirectory : host.tree.isDirectory directory.names = true) (hroot : host.isDir root = true)
    (hwithin : isWithin root (indexOf directory) = true)
    (hfile : host.isFile (indexOf directory) = true)
    (hinside : isWithin root directory = true → root.names <+: real) :
    ∃ realRoot, host.tree.location host.linkLimit root.names = some realRoot ∧
      realRoot <+: real := by
  obtain ⟨hdoubled, hbegins⟩ := isWithin_iff.mp hwithin
  obtain hsame | hbegins := List.prefix_concat_iff.mp hbegins
  · -- The root is a directory, and so no file.
    have hdir : host.isDir (indexOf directory) = true := by
      rw [Host.isDir, indexOf, ← hsame]
      exact hroot
    rw [isFile_eq_false hdir] at hfile
    cases hfile
  · exact ⟨root.names,
      location_of_directory (FileTree.isDirectory_of_isPrefix hdirectory hbegins),
      hinside (isWithin_iff.mpr ⟨hdoubled, hbegins⟩)⟩

/-- Where what is served is inside the root, the links that are left do not lead out of it. -/
theorem linksInside_of_served (hstatic : row.type ∈ static) (h : Served host row subpath) :
    LinksInside host row subpath := by
  constructor
  · intro root directory real hroot hfound hdirectory hwithin hreal hfile
    obtain ⟨hdoubled, hbegins⟩ := isWithin_iff.mp hwithin
    have hrootDirectory := FileTree.isDirectory_of_isPrefix hdirectory hbegins
    have hserved : resolve host row subpath = .ok (indexOf directory) := by
      refine (resolve_eq_ok hstatic).mpr ⟨root, directory, hroot,
        isDir_of_isDirectory hrootDirectory, hfound, ?_, ?_, isFile_iff.mpr ⟨_, hreal, hfile⟩⟩
      · rw [isDir_of_isDirectory hdirectory, if_pos rfl]
      · exact isWithin_iff.mpr ⟨hdoubled, hbegins.trans (List.prefix_append _ _)⟩
    obtain ⟨root', realRoot, real', hroot', hrealRoot, hreal', hinside⟩ := h _ hserved
    obtain rfl := Except.ok.inj (hroot.symm.trans hroot')
    obtain rfl := Option.some.inj (hreal.symm.trans hreal')
    rw [location_of_directory hrootDirectory] at hrealRoot
    rwa [Option.some.inj hrealRoot]
  · intro root found target realRoot real hroot _ hfound htarget hwithin hrealRoot hdirectory hreal
      hfile
    have hserved : resolve host row subpath = .ok target :=
      (resolve_eq_ok hstatic).mpr ⟨root, found, hroot, isDir_iff.mpr ⟨_, hrealRoot, hdirectory⟩,
        hfound, htarget, hwithin, isFile_iff.mpr ⟨_, hreal, hfile⟩⟩
    obtain ⟨root', realRoot', real', hroot', hrealRoot', hreal', hinside⟩ := h _ hserved
    obtain rfl := Except.ok.inj (hroot.symm.trans hroot')
    obtain rfl := Option.some.inj (hreal.symm.trans hreal')
    rwa [Option.some.inj (hrealRoot.symm.trans hrealRoot')]

/-- A target is served from inside: it is plain, or an index, or behind a loop. -/
theorem served_of_linksInside (hstatic : row.type ∈ static) (h : LinksInside host row subpath) :
    Served host row subpath := by
  intro target htarget
  obtain ⟨root, found, hroot, hrootDir, hfound, heq, hwithin, hfile⟩ :=
    (resolve_eq_ok hstatic).mp htarget
  obtain ⟨real, hreal, hrealFile⟩ := isFile_iff.mp hfile
  have hinside : ∃ realRoot, host.tree.location host.linkLimit root.names = some realRoot ∧
      realRoot <+: real := by
    obtain hplain | hstops := targetOf_plain hfound
    · cases hfoundDir : host.isDir found with
      | false =>
        rw [hfoundDir, if_neg Bool.false_ne_true] at heq
        subst heq
        exact prefix_of_plain hplain hrootDir hwithin hreal hrealFile
      | true =>
        rw [hfoundDir, if_pos rfl] at heq
        subst heq
        obtain ⟨there, hthere, hdirectory⟩ := isDir_iff.mp hfoundDir
        rw [FileTree.location_plain hplain hthere] at hdirectory
        exact prefix_of_index hdirectory hrootDir hwithin hfile fun hdirWithin ↦
          h.index root found real hroot hfound hdirectory hdirWithin hreal hrealFile
    · obtain ⟨realRoot, hrealRoot, hdirectory⟩ := isDir_iff.mp hrootDir
      exact ⟨realRoot, hrealRoot, h.loop root found target realRoot real hroot hstops hfound heq
        hwithin hrealRoot hdirectory hreal hrealFile⟩
  obtain ⟨realRoot, hrealRoot, hbegins⟩ := hinside
  exact ⟨root, realRoot, real, hroot, hrealRoot, hreal, hbegins⟩

/-- What is served lies inside the root just when the links that are left do not lead out of it. -/
theorem served_iff_linksInside (hstatic : row.type ∈ static) :
    Served host row subpath ↔ LinksInside host row subpath :=
  ⟨linksInside_of_served hstatic, served_of_linksInside hstatic⟩

/-- A site whose index is a link to a file of the server, and which has a loop and a link to a
directory of the server. -/
def leakyTable : List (List Str × Node Str) :=
  [([str "srv"], .directory), ([str "srv", str "app"], .directory),
    ([str "srv", str "app", str "about.html"], .file),
    ([str "srv", str "app", indexName], .link true [.name (str "etc"), .name (str "passwd")]),
    ([str "srv", str "app", str "loop"], .link false [.name (str "loop")]),
    ([str "srv", str "app", str "out"], .link true [.name (str "etc")]),
    ([str "etc"], .directory), ([str "etc", str "passwd"], .file)]

def leakyHost : Host where
  tree := .ofTable leakyTable (by decide +kernel)
  cwd := []
  cwd_directory := rfl
  linkLimit := 40
  nesting := 900
  reprOf := id

def appRow : ServiceRow where
  name := str "app"
  type := str "service/static"
  path := str "/srv/app"

theorem served_iff_linksInside_about :
    Served leakyHost appRow (str "about.html") ↔ LinksInside leakyHost appRow (str "about.html") :=
  served_iff_linksInside (by decide +kernel : appRow.type ∈ static)

/-- What leads outside is not served from inside. -/
theorem not_served_of_outside {root target : WrittenPath Str} {realRoot real : List Str}
    (htarget : resolve host row subpath = .ok target) (hroot : rootOf host row = .ok root)
    (hrealRoot : host.tree.location host.linkLimit root.names = some realRoot)
    (hreal : host.tree.location host.linkLimit target.names = some real)
    (houtside : ¬ realRoot <+: real) : ¬ Served host row subpath := by
  intro h
  obtain ⟨root', realRoot', real', hroot', hrealRoot', hreal', hinside⟩ := h target htarget
  obtain rfl := Except.ok.inj (hroot.symm.trans hroot')
  rw [hrealRoot, Option.some.injEq] at hrealRoot'
  rw [hreal, Option.some.injEq] at hreal'
  rw [← hrealRoot', ← hreal'] at hinside
  exact houtside hinside

/-- The index is served from outside the root, and so is what is behind the loop. -/
theorem leaky_not_served : appRow.type ∈ static ∧ ¬ Served leakyHost appRow [] ∧
    ¬ Served leakyHost appRow (str "loop/../out/passwd") := by
  have hroot : rootOf leakyHost appRow = .ok ⟨[str "srv", str "app"], false⟩ := by decide +kernel
  have hrealRoot : leakyHost.tree.location leakyHost.linkLimit [str "srv", str "app"] =
      some [str "srv", str "app"] := by decide +kernel
  refine ⟨by decide +kernel, ?_, ?_⟩
  · have hserved : resolve leakyHost appRow [] = .ok ⟨[str "srv", str "app", indexName], false⟩ := by
      decide +kernel
    have hreal : leakyHost.tree.location leakyHost.linkLimit [str "srv", str "app", indexName] =
        some [str "etc", str "passwd"] := by decide +kernel
    exact not_served_of_outside hserved hroot hrealRoot hreal (by decide +kernel)
  · have hserved : resolve leakyHost appRow (str "loop/../out/passwd") =
        .ok ⟨[str "srv", str "app", str "out", str "passwd"], false⟩ := by
      decide +kernel
    have hreal : leakyHost.tree.location leakyHost.linkLimit
        [str "srv", str "app", str "out", str "passwd"] = some [str "etc", str "passwd"] := by
      decide +kernel
    exact not_served_of_outside hserved hroot hrealRoot hreal (by decide +kernel)

end DatumSync.Services
