import Mathlib.Data.List.Infix

/-!
# File trees with symbolic links

A path is the list of the names that lead to it from the root.  A system call walks a written path
and follows every link it meets, up to a limit.  A resolution works on the names alone: it goes up
from what it has, follows each link once, and keeps what does not exist.  A link that it meets again
before its end is known closes a loop: the resolution stops there, and what is left of the path, and
of the paths of the links that led there, is appended as it is written.  So a resolved path has no
link on it unless the resolution stopped at a loop.
-/

namespace DatumSync.Foundation

inductive PathStep (α : Type*) where
  | here
  /-- Nothing, between two slashes. -/
  | blank
  | up
  | name (n : α)
  deriving DecidableEq

inductive Node (α : Type*) where
  | file
  | directory
  | link (absolute : Bool) (target : List (PathStep α))
  deriving DecidableEq

structure FileTree (α : Type*) where
  node : List α → Option (Node α)
  root : node [] = some .directory
  parent : ∀ dir name, (node (dir ++ [name])).isSome = true → node dir = some .directory
  /-- The paths of the links. -/
  links : List (List α)
  mem_links : ∀ path absolute target, node path = some (.link absolute target) → path ∈ links

namespace FileTree

variable {α : Type*} (tree : FileTree α)

def isDirectory (path : List α) : Bool :=
  match tree.node path with
  | some .directory => true
  | _ => false

def isFile (path : List α) : Bool :=
  match tree.node path with
  | some .file => true
  | _ => false

/-- No part of a path is a link. -/
def Plain (path : List α) : Prop :=
  ∀ before, before <+: path → ∀ absolute target, tree.node before ≠ some (.link absolute target)

/-! ## System calls -/

/-- Why a path leads nowhere. -/
inductive Unreachable where
  | missing
  | tooManyLinks
  deriving DecidableEq

/-- Walk on from a path; `follow` goes on after a link. -/
def walkWith (follow : List α → List (PathStep α) → Except Unreachable (List α)) :
    List α → List (PathStep α) → Except Unreachable (List α)
  | path, [] => .ok path
  | path, .here :: rest | path, .blank :: rest =>
    if tree.isDirectory path then walkWith follow path rest else .error .missing
  | path, .up :: rest =>
    if tree.isDirectory path then walkWith follow path.dropLast rest else .error .missing
  | path, .name n :: rest =>
    match tree.node (path ++ [n]) with
    | none => .error .missing
    | some (.link absolute target) => follow (if absolute then [] else path) (target ++ rest)
    | some _ => walkWith follow (path ++ [n]) rest

/-- The path of what a written path leads to, through `limit` links at most. -/
def walkFrom : (limit : ℕ) → List α → List (PathStep α) → Except Unreachable (List α)
  | 0 => tree.walkWith fun _ _ ↦ .error .tooManyLinks
  | limit + 1 => tree.walkWith (walkFrom limit)

/-- What a system call makes of a path. -/
def stat (limit : ℕ) (path : List α) : Except Unreachable (List α) :=
  tree.walkFrom limit [] (path.map .name)

/-- Where a path leads to from the root. -/
def location (limit : ℕ) (path : List α) : Option (List α) := (tree.stat limit path).toOption

/-- The tree of a table that lists the parents of what it lists, the root apart. -/
def ofTable [DecidableEq α] (table : List (List α × Node α))
    (h : ∀ path ∈ table.map Prod.fst, path.dropLast = [] ∨
      table.lookup path.dropLast = some .directory) : FileTree α where
  node path := if path = [] then some .directory else table.lookup path
  root := if_pos rfl
  parent dir name hsome := by
    rw [if_neg (List.append_ne_nil_of_right_ne_nil _ (List.cons_ne_nil _ _)),
      List.lookup_isSome_iff] at hsome
    obtain ⟨entry, hentry, heq⟩ := hsome
    have hparent := h _ (List.mem_map_of_mem hentry)
    rw [← beq_iff_eq.mp heq, List.dropLast_concat] at hparent
    split
    · rfl
    · next hne => exact hparent.resolve_left hne
  links := table.map Prod.fst
  mem_links path absolute target hlink := by
    split at hlink
    · cases hlink
    · obtain ⟨before, after, rfl, -⟩ := List.lookup_eq_some_iff.mp hlink
      exact List.mem_map_of_mem (List.mem_append_right _ List.mem_cons_self)

variable {tree} {path : List α}

theorem isDirectory_iff : tree.isDirectory path = true ↔ tree.node path = some .directory := by
  unfold isDirectory
  split
  · next h => exact iff_of_true rfl h
  · next h => exact iff_of_false Bool.false_ne_true h

theorem isFile_iff : tree.isFile path = true ↔ tree.node path = some .file := by
  unfold isFile
  split
  · next h => exact iff_of_true rfl h
  · next h => exact iff_of_false Bool.false_ne_true h

theorem plain_root : tree.Plain [] := by
  intro before hbefore absolute target
  rw [List.prefix_nil.mp hbefore, tree.root]
  nofun

theorem Plain.of_prefix {before : List α} (h : tree.Plain path) (hbefore : before <+: path) :
    tree.Plain before := fun _ hearlier ↦ h _ (hearlier.trans hbefore)

theorem Plain.concat {n : α} (h : tree.Plain path)
    (hn : ∀ absolute target, tree.node (path ++ [n]) ≠ some (.link absolute target)) :
    tree.Plain (path ++ [n]) := by
  intro before hbefore
  obtain rfl | hbefore := List.prefix_concat_iff.mp hbefore
  · exact hn
  · exact h before hbefore

/-- What the path of something goes through are directories. -/
theorem node_of_isPrefix {before : List α} (h : (tree.node path).isSome = true)
    (hbefore : before <+: path) (hne : before ≠ path) : tree.node before = some .directory := by
  induction path using List.reverseRecOn with
  | nil => exact absurd (List.prefix_nil.mp hbefore) hne
  | append_singleton dir n ih =>
    obtain rfl | hbefore := List.prefix_concat_iff.mp hbefore
    · exact absurd rfl hne
    · have hdir := tree.parent dir n h
      by_cases heq : before = dir
      · rw [heq, hdir]
      · exact ih (by rw [hdir]; rfl) hbefore heq

/-- What the path of a directory goes through are directories, and so is its end. -/
theorem isDirectory_of_isPrefix {before : List α} (h : tree.isDirectory path = true)
    (hbefore : before <+: path) : tree.isDirectory before = true := by
  by_cases heq : before = path
  · rwa [heq]
  · have hnode := isDirectory_iff.mp h
    exact isDirectory_iff.mpr (node_of_isPrefix (by rw [hnode]; rfl) hbefore heq)

theorem plain_of_directory (h : tree.node path = some .directory) : tree.Plain path := by
  intro before hbefore absolute target
  by_cases heq : before = path
  · rw [heq, h]
    nofun
  · rw [node_of_isPrefix (by rw [h]; rfl) hbefore heq]
    nofun

section Walk

variable {follow : List α → List (PathStep α) → Except Unreachable (List α)} {names found : List α}

/-- A plain path leads nowhere else. -/
theorem walkWith_plain (hplain : tree.Plain (path ++ names))
    (h : tree.walkWith follow path (names.map .name) = .ok found) : found = path ++ names := by
  induction names generalizing path with
  | nil =>
    rw [List.map_nil, walkWith] at h
    rw [List.append_nil, Except.ok.inj h]
  | cons n rest ih =>
    rw [List.append_cons] at hplain ⊢
    rw [List.map_cons, walkWith] at h
    split at h
    · cases h
    · next absolute target hlink =>
      exact absurd hlink (hplain _ (List.prefix_append _ _) absolute target)
    · exact ih hplain h

/-- The path of something that goes through no link leads to it. -/
theorem walkWith_of_node (hplain : tree.Plain (path ++ names))
    (h : (tree.node (path ++ names)).isSome = true) :
    tree.walkWith follow path (names.map .name) = .ok (path ++ names) := by
  induction names generalizing path with
  | nil => rw [List.map_nil, walkWith, List.append_nil]
  | cons n rest ih =>
    rw [List.append_cons] at hplain h ⊢
    have hnode : (tree.node (path ++ [n])).isSome = true := by
      by_cases heq : path ++ [n] = path ++ [n] ++ rest
      · rwa [← heq] at h
      · rw [node_of_isPrefix h (List.prefix_append _ _) heq]
        rfl
    rw [List.map_cons, walkWith]
    split
    · next hnone =>
      rw [hnone] at hnode
      cases hnode
    · next absolute target hlink =>
      exact absurd hlink (hplain _ (List.prefix_append _ _) absolute target)
    · exact ih hplain h

end Walk

theorem location_plain {limit : ℕ} {found : List α} (hplain : tree.Plain path)
    (h : tree.location limit path = some found) : found = path := by
  have hstat : tree.stat limit path = .ok found := by
    unfold location at h
    cases hresult : tree.stat limit path with
    | error e =>
      rw [hresult] at h
      cases h
    | ok other =>
      rw [hresult] at h
      rw [Option.some.inj h]
  cases limit <;> exact @walkWith_plain _ tree [] _ path found hplain hstat

theorem location_of_node {limit : ℕ} (hplain : tree.Plain path)
    (h : (tree.node path).isSome = true) : tree.location limit path = some path := by
  have hstat : tree.stat limit path = .ok path := by
    cases limit <;> exact @walkWith_of_node _ tree [] _ path hplain h
  rw [location, hstat]
  rfl

/-! ## Resolution -/

/-- A place on the way: below the root, or below the working directory after so many steps up. -/
structure Place (α : Type*) where
  relative : Option ℕ
  names : List α
  deriving DecidableEq

namespace Place

variable (cwd : List α)

def locate (place : Place α) : List α :=
  match place.relative with
  | none => place.names
  | some ups => cwd.take (cwd.length - ups) ++ place.names

def root : Place α := ⟨none, []⟩

def start : Place α := ⟨some 0, []⟩

/-- One step up, on the names; from the working directory on it is counted. -/
def up (place : Place α) : Place α :=
  match place.relative, place.names with
  | some ups, [] => ⟨some (ups + 1), []⟩
  | relative, names => ⟨relative, names.dropLast⟩

def child (place : Place α) (n : α) : Place α := ⟨place.relative, place.names ++ [n]⟩

variable {cwd}

theorem locate_child (place : Place α) (n : α) :
    (place.child n).locate cwd = place.locate cwd ++ [n] := by
  unfold locate child
  cases place.relative with
  | none => rfl
  | some ups => exact (List.append_assoc ..).symm

theorem locate_up (place : Place α) : place.up.locate cwd <+: place.locate cwd := by
  obtain ⟨relative, names⟩ := place
  cases relative with
  | none => exact List.dropLast_prefix _
  | some ups =>
    cases names with
    | nil =>
      change cwd.take (cwd.length - (ups + 1)) ++ [] <+: cwd.take (cwd.length - ups) ++ []
      rw [List.append_nil, List.append_nil]
      exact List.take_prefix_take_left (by omega)
    | cons n rest =>
      change cwd.take (cwd.length - ups) ++ (n :: rest).dropLast <+: _
      exact (List.prefix_append_right_inj _).mpr (List.dropLast_prefix _)

end Place

/-- A path as text: its names, and whether it begins with just two slashes, which is not the
root. -/
structure WrittenPath (α : Type*) where
  names : List α
  doubled : Bool := false
  deriving DecidableEq

/-- The parts of a path put together, without a look at the tree. -/
def lexical : List α → List (PathStep α) → List α
  | path, [] => path
  | path, .here :: rest | path, .blank :: rest => lexical path rest
  | path, .up :: rest => lexical path.dropLast rest
  | path, .name n :: rest => lexical (path ++ [n]) rest

def PathStep.isBlank : PathStep α → Bool
  | .blank => true
  | _ => false

/-- How many slashes the text of the parts begins with. -/
def leadingSlashes (parts : List (PathStep α)) : ℕ :=
  min (parts.takeWhile PathStep.isBlank).length (parts.length - 1)

/-- A path with another text behind it, which replaces it where it begins with a slash. -/
def WrittenPath.join (path : WrittenPath α) (rest : List (PathStep α)) : WrittenPath α :=
  if leadingSlashes rest = 0 then { path with names := lexical path.names rest }
  else ⟨lexical [] rest, leadingSlashes rest == 2⟩

/-- Why a path cannot be resolved. -/
inductive Unresolvable where
  | loop
  | badName
  | recursion
  deriving DecidableEq

/-- The links met so far, with what they were resolved to; `none` where that is not known yet. -/
abbrev Seen (α : Type*) := List (Place α × Option (Place α))

/-- What becomes of a path: all of it resolved, or what is written after a stop at a loop. -/
inductive Joined (α : Type*) where
  | whole (place : Place α)
  | broken (path : WrittenPath α)

section Resolution

variable [DecidableEq α] (tree) (cwd : List α) (valid : α → Bool)

/-- Resolve a path from a place; `follow` resolves the target of a link. -/
def joinWith
    (follow : List (PathStep α) → Place α → Seen α → Except Unresolvable (Joined α × Seen α)) :
    List (PathStep α) → Place α → Seen α → Except Unresolvable (Joined α × Seen α)
  | [], place, seen => .ok (.whole place, seen)
  | .here :: rest, place, seen | .blank :: rest, place, seen => joinWith follow rest place seen
  | .up :: rest, place, seen => joinWith follow rest place.up seen
  | .name n :: rest, place, seen =>
    if !valid n then .error .badName
    else match tree.node ((place.child n).locate cwd) with
      | some (.link absolute target) =>
        match seen.lookup (place.child n) with
        | some (some found) => joinWith follow rest found seen
        | some none => .ok (.broken (.join ⟨(place.child n).locate cwd, false⟩ rest), seen)
        | none =>
          match follow target (if absolute then .root else place) ((place.child n, none) :: seen) with
          | .error e => .error e
          | .ok (.broken path, seen) => .ok (.broken (path.join rest), seen)
          | .ok (.whole found, seen) =>
            joinWith follow rest found ((place.child n, some found) :: seen)
      | _ => joinWith follow rest (place.child n) seen

/-- With at most `nesting` links inside one another. -/
def joinFrom : (nesting : ℕ) → List (PathStep α) → Place α → Seen α →
    Except Unresolvable (Joined α × Seen α)
  | 0 => tree.joinWith cwd valid fun _ _ _ ↦ .error .recursion
  | nesting + 1 => tree.joinWith cwd valid (joinFrom nesting)

/-- The text of what a path was resolved to. -/
def Joined.written : Joined α → WrittenPath α
  | .whole place => ⟨place.locate cwd, false⟩
  | .broken path => path

/-- The resolution of a written path; a system call on the result finds bad names, and the loops
that are left. -/
def resolve (nesting limit : ℕ) (start : Place α) (steps : List (PathStep α)) :
    Except Unresolvable (WrittenPath α) :=
  match tree.joinFrom cwd valid nesting steps start [] with
  | .error e => .error e
  | .ok (joined, _) =>
    let path := joined.written cwd
    if !path.names.all valid then .error .badName
    else if tree.stat limit path.names = .error .tooManyLinks then .error .loop
    else .ok path

variable {tree cwd valid}

/-- The places that links were resolved to are plain. -/
def Seen.Plain (tree : FileTree α) (cwd : List α) (seen : Seen α) : Prop :=
  ∀ entry ∈ seen, ∀ found, entry.2 = some found → tree.Plain (found.locate cwd)

/-- A resolution that does not stop ends at a plain place. -/
def PlainEnd (tree : FileTree α) (cwd : List α) (result : Joined α × Seen α) : Prop :=
  (∀ place, result.1 = .whole place → tree.Plain (place.locate cwd)) ∧ result.2.Plain tree cwd

omit [DecidableEq α] in
theorem Seen.Plain.cons {seen : Seen α} (h : seen.Plain tree cwd) (link : Place α)
    {known : Option (Place α)}
    (hknown : ∀ found, known = some found → tree.Plain (found.locate cwd)) :
    Seen.Plain tree cwd ((link, known) :: seen) := List.forall_mem_cons.mpr ⟨hknown, h⟩

theorem joinWith_plainEnd
    {follow : List (PathStep α) → Place α → Seen α → Except Unresolvable (Joined α × Seen α)}
    (hfollow : ∀ steps place seen result, tree.Plain (place.locate cwd) → seen.Plain tree cwd →
      follow steps place seen = .ok result → PlainEnd tree cwd result)
    {steps : List (PathStep α)} {place : Place α} {seen : Seen α} {result : Joined α × Seen α}
    (hplace : tree.Plain (place.locate cwd)) (hseen : seen.Plain tree cwd)
    (h : tree.joinWith cwd valid follow steps place seen = .ok result) :
    PlainEnd tree cwd result := by
  induction steps generalizing place seen with
  | nil =>
    rw [← Except.ok.inj h]
    exact ⟨fun other hother ↦ Joined.whole.inj hother ▸ hplace, hseen⟩
  | cons step rest ih =>
    cases step with
    | here => exact ih hplace hseen h
    | blank => exact ih hplace hseen h
    | up => exact ih (hplace.of_prefix place.locate_up) hseen h
    | name n =>
      rw [joinWith] at h
      split at h
      · cases h
      · split at h
        · next absolute target hlink =>
          split at h
          · next found hfound =>
            obtain ⟨before, after, rfl, _⟩ := List.lookup_eq_some_iff.mp hfound
            exact ih (hseen _ (List.mem_append_right _ List.mem_cons_self) found rfl) hseen h
          · rw [← Except.ok.inj h]
            exact ⟨fun _ hother ↦ (by cases hother), hseen⟩
          · have hstart : tree.Plain ((if absolute then .root else place).locate cwd) := by
              split
              · exact plain_root
              · exact hplace
            have hopen : Seen.Plain tree cwd ((place.child n, none) :: seen) :=
              hseen.cons _ fun _ h ↦ (by cases h)
            split at h
            · cases h
            · next path seen' hbroken =>
              rw [← Except.ok.inj h]
              exact ⟨fun _ hother ↦ (by cases hother), (hfollow _ _ _ _ hstart hopen hbroken).2⟩
            · next found seen' hwhole =>
              obtain ⟨hfound, hseen'⟩ := hfollow _ _ _ _ hstart hopen hwhole
              have hplain := hfound found rfl
              exact ih hplain (hseen'.cons _ fun _ heq ↦ Option.some.inj heq ▸ hplain) h
        · next hnode =>
          refine ih ?_ hseen h
          rw [Place.locate_child] at hnode ⊢
          exact hplace.concat hnode

theorem joinFrom_plainEnd {nesting : ℕ} {steps : List (PathStep α)} {place : Place α}
    {seen : Seen α} {result : Joined α × Seen α} (hplace : tree.Plain (place.locate cwd))
    (hseen : seen.Plain tree cwd)
    (h : tree.joinFrom cwd valid nesting steps place seen = .ok result) :
    PlainEnd tree cwd result := by
  induction nesting generalizing steps place seen result with
  | zero => exact joinWith_plainEnd (fun _ _ _ _ _ _ h ↦ (by cases h)) hplace hseen h
  | succ nesting ih =>
    exact joinWith_plainEnd (fun _ _ _ _ hplace hseen h ↦ ih hplace hseen h) hplace hseen h

/-- A path that a resolution went through to its end is plain. -/
theorem resolve_plain {nesting limit : ℕ} {start : Place α} {steps : List (PathStep α)}
    {found : WrittenPath α} (hstart : tree.Plain (start.locate cwd))
    (h : tree.resolve cwd valid nesting limit start steps = .ok found) :
    tree.Plain found.names ∨ ∃ path seen,
      tree.joinFrom cwd valid nesting steps start [] = .ok (.broken path, seen) ∧ found = path := by
  unfold resolve at h
  split at h
  · cases h
  · next joined seen hjoined =>
    dsimp only at h
    split_ifs at h
    rw [← Except.ok.inj h]
    cases joined with
    | whole place =>
      exact .inl ((joinFrom_plainEnd hstart (List.forall_mem_nil _) hjoined).1 place rfl)
    | broken path => exact .inr ⟨path, seen, hjoined, rfl⟩

end Resolution

end FileTree

end DatumSync.Foundation
