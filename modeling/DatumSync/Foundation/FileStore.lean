import Mathlib.Data.List.Dedup
import DatumSync.Foundation.FileTree

/-!
# File trees with contents

A file tree with what its files hold and the names that occur in it.  Directories and files are
added where there is nothing, under names that the system takes.
-/

namespace DatumSync.Foundation

namespace FileTree

variable {α : Type*} (tree : FileTree α) {path dir : List α} {name : α}

/-- What there is on the way to a path, and at it, are directories. -/
def Open (path : List α) : Prop :=
  ∀ before ∈ path.inits, tree.node before = none ∨ tree.node before = some .directory

/-- Under what is not there is nothing. -/
theorem node_concat_of_none (h : tree.node path = none) (name : α) :
    tree.node (path ++ [name]) = none := by
  cases hnode : tree.node (path ++ [name]) with
  | none => rfl
  | some node =>
    rw [tree.parent path name (by rw [hnode]; rfl)] at h
    cases h

variable [DecidableEq α]

/-- A path and what leads to it become directories. -/
def addDirectories (path : List α) : FileTree α where
  node there := if there <+: path then some .directory else tree.node there
  root := if_pos List.nil_prefix
  parent dir name h := by
    split at h
    · next hbefore => rw [if_pos ((List.prefix_append dir [name]).trans hbefore)]
    · rw [tree.parent dir name h, ite_self]
  links := tree.links
  mem_links there absolute target h := by
    split at h
    · cases h
    · exact tree.mem_links there absolute target h

def addFile (dir : List α) (name : α) (hdir : tree.node dir = some .directory)
    (hnew : tree.node (dir ++ [name]) = none) : FileTree α where
  node there := if there = dir ++ [name] then some .file else tree.node there
  root := by
    rw [if_neg (List.append_ne_nil_of_right_ne_nil dir (List.cons_ne_nil name [])).symm]
    exact tree.root
  parent there other h := by
    have hparent : tree.node there = some .directory := by
      split at h
      · next heq => rw [(List.append_inj' heq rfl).1, hdir]
      · exact tree.parent there other h
    rw [if_neg, hparent]
    rintro rfl
    rw [hnew] at hparent
    cases hparent
  links := tree.links
  mem_links there absolute target h := by
    split at h
    · cases h
    · exact tree.mem_links there absolute target h

variable {tree}

theorem node_addDirectories {there : List α} : (tree.addDirectories path).node there =
    if there <+: path then some .directory else tree.node there := rfl

theorem node_addFile {there : List α} (hdir : tree.node dir = some .directory)
    (hnew : tree.node (dir ++ [name]) = none) : (tree.addFile dir name hdir hnew).node there =
      if there = dir ++ [name] then some .file else tree.node there := rfl

instance : Decidable (tree.Open path) := inferInstanceAs (Decidable (∀ _ ∈ _, _))

end FileTree

/-- A file tree, what its files hold, and the names that occur in it. -/
structure FileStore (α β : Type*) (isName : α → Bool) extends FileTree α where
  names : List α
  named : ∀ dir name, (node (dir ++ [name])).isSome = true → isName name = true ∧ name ∈ names
  content : List α → β

namespace FileStore

variable {α β : Type*} [DecidableEq α] {isName : α → Bool} (store : FileStore α β isName)
  {path dir : List α} {name : α}

def listing (dir : List α) : List α :=
  (store.names.filter fun name ↦ (store.node (dir ++ [name])).isSome).dedup

def makeDirectories (path : List α) (hnames : path.all isName = true) :
    FileStore α β isName where
  toFileTree := store.addDirectories path
  names := path ++ store.names
  named dir name h := by
    rw [FileTree.node_addDirectories] at h
    split at h
    · next hbefore =>
      have hmem : name ∈ path := hbefore.subset (List.mem_append_right dir List.mem_cons_self)
      exact ⟨List.all_eq_true.mp hnames name hmem, List.mem_append_left _ hmem⟩
    · obtain ⟨hname, hmem⟩ := store.named dir name h
      exact ⟨hname, List.mem_append_right _ hmem⟩
  content := store.content

def writeFile (dir : List α) (name : α) (data : β) (hname : isName name = true)
    (hdir : store.node dir = some .directory) (hnew : store.node (dir ++ [name]) = none) :
    FileStore α β isName where
  toFileTree := store.addFile dir name hdir hnew
  names := name :: store.names
  named there other h := by
    rw [FileTree.node_addFile] at h
    split at h
    · next heq =>
      obtain rfl := List.singleton_inj.mp (List.append_inj' heq rfl).2
      exact ⟨hname, List.mem_cons_self⟩
    · obtain ⟨hother, hmem⟩ := store.named there other h
      exact ⟨hother, List.mem_cons_of_mem _ hmem⟩
  content there := if there = dir ++ [name] then data else store.content there

variable {store}

theorem mem_listing : name ∈ store.listing dir ↔ (store.node (dir ++ [name])).isSome = true := by
  rw [listing, List.mem_dedup, List.mem_filter]
  exact ⟨fun h ↦ h.2, fun h ↦ ⟨(store.named dir name h).2, h⟩⟩

theorem isName_of_mem_listing (h : name ∈ store.listing dir) : isName name = true :=
  (store.named dir name (mem_listing.mp h)).1

/-- A directory that has just been made, with one file in it. -/
theorem mem_listing_writeFile_makeDirectories {data : β} (hnames : path.all isName = true)
    (hname : isName name = true)
    {hdir : (store.makeDirectories path hnames).node path = some .directory}
    {hnew : (store.makeDirectories path hnames).node (path ++ [name]) = none}
    (hpath : store.node path = none) {other : α} :
    other ∈ ((store.makeDirectories path hnames).writeFile path name data hname hdir hnew).listing
      path ↔ other = name := by
  rw [mem_listing]
  constructor
  · intro h
    by_contra hne
    have hother : ¬ path ++ [other] = path ++ [name] := fun heq ↦
      hne (List.singleton_inj.mp (List.append_cancel_left heq))
    have hafter : ¬ path ++ [other] <+: path := fun hbefore ↦ by
      have hlength := hbefore.length_le
      rw [List.length_append, List.length_singleton] at hlength
      omega
    rw [writeFile, FileTree.node_addFile, if_neg hother, makeDirectories,
      FileTree.node_addDirectories, if_neg hafter,
      store.node_concat_of_none hpath] at h
    cases h
  · rintro rfl
    rw [writeFile, FileTree.node_addFile, if_pos rfl]
    rfl

end FileStore

end DatumSync.Foundation
