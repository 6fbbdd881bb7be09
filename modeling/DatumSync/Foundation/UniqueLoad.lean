import Mathlib.Data.List.Nodup

/-!
# Loading a table in which no key may repeat

A reader takes one entry after the other.  An entry is refused, says nothing, or gives a value, whose
key must not be taken yet: the first refusal and the first clash end the load.  A load that ends well
has put every value under its key, and one that does not has met a refusal or two entries with one
key.
-/

namespace DatumSync.Foundation

variable {ι ε κ α : Type*} [BEq κ]

/-- Read the entries in order and put each value under its key. -/
def loadUnique (read : ι → Except ε (Option α)) (key : α → κ) (clash : α → α → ε) :
    List (κ × α) → List ι → Except ε (List (κ × α))
  | found, [] => .ok found
  | found, entry :: rest =>
    match read entry with
    | .error e => .error e
    | .ok none => loadUnique read key clash found rest
    | .ok (some a) =>
      match found.lookup (key a) with
      | some held => .error (clash held a)
      | none => loadUnique read key clash (found ++ [(key a, a)]) rest

def valueOf (read : ι → Except ε (Option α)) (entry : ι) : Option α :=
  match read entry with
  | .ok value => value
  | .error _ => none

/-- The values of the entries, each under its key. -/
def keyed (read : ι → Except ε (Option α)) (key : α → κ) (entries : List ι) : List (κ × α) :=
  (entries.filterMap (valueOf read)).map fun a ↦ (key a, a)

variable {read : ι → Except ε (Option α)} {key : α → κ} {clash : α → α → ε}

omit [BEq κ] in
theorem keyed_append (first second : List ι) :
    keyed read key (first ++ second) = keyed read key first ++ keyed read key second := by
  rw [keyed, List.filterMap_append, List.map_append, keyed, keyed]

omit [BEq κ] in
theorem keyed_of_none {entry : ι} (h : read entry = .ok none) : keyed read key [entry] = [] := by
  rw [keyed, List.filterMap_cons, valueOf, h]
  rfl

omit [BEq κ] in
theorem keyed_of_some {entry : ι} {a : α} (h : read entry = .ok (some a)) :
    keyed read key [entry] = [(key a, a)] := by
  rw [keyed, List.filterMap_cons, valueOf, h]
  rfl

omit [BEq κ] in
theorem mem_keyed {entries : List ι} {k : κ} {a : α} :
    (k, a) ∈ keyed read key entries ↔ k = key a ∧ ∃ entry ∈ entries, read entry = .ok (some a) := by
  have hvalue (entry : ι) : valueOf read entry = some a ↔ read entry = .ok (some a) := by
    rw [valueOf]
    cases read entry with
    | ok value => exact Except.ok.injEq _ _ ▸ Iff.rfl
    | error e => exact iff_of_false nofun nofun
  rw [keyed, List.mem_map]
  constructor
  · rintro ⟨b, hb, heq⟩
    obtain ⟨rfl, rfl⟩ := Prod.mk.inj heq
    obtain ⟨entry, hentry, hread⟩ := List.mem_filterMap.mp hb
    exact ⟨rfl, entry, hentry, (hvalue entry).mp hread⟩
  · rintro ⟨rfl, entry, hentry, hread⟩
    exact ⟨a, List.mem_filterMap.mpr ⟨entry, hentry, (hvalue entry).mpr hread⟩, rfl⟩

/-- Entries that say nothing do not count. -/
theorem loadUnique_filter {p : ι → Bool} {entries : List ι}
    (h : ∀ entry ∈ entries, p entry = false → read entry = .ok none) (found : List (κ × α)) :
    loadUnique read key clash found entries =
      loadUnique read key clash found (entries.filter p) := by
  induction entries generalizing found with
  | nil => rfl
  | cons entry rest ih =>
    obtain ⟨hentry, hrest⟩ := List.forall_mem_cons.mp h
    cases hp : p entry with
    | false => rw [List.filter_cons_of_neg (by rw [hp]; decide), loadUnique, hentry hp, ih hrest]
    | true =>
      rw [List.filter_cons_of_pos hp, loadUnique, loadUnique]
      cases read entry with
      | error e => rfl
      | ok value =>
        cases value with
        | none => exact ih hrest found
        | some a =>
          dsimp only
          cases found.lookup (key a) with
          | none => exact ih hrest _
          | some held => rfl

variable [LawfulBEq κ]

/-- In a table of distinct keys every value is found under its key. -/
theorem lookup_of_mem {table : List (κ × α)} (hdistinct : (table.map Prod.fst).Nodup) {k : κ}
    {a : α} (h : (k, a) ∈ table) : table.lookup k = some a := by
  obtain ⟨before, after, rfl⟩ := List.append_of_mem h
  rw [List.map_append, List.map_cons, List.nodup_append] at hdistinct
  refine List.lookup_eq_some_iff.mpr ⟨before, after, rfl, fun entry hentry ↦ ?_⟩
  have hne := hdistinct.2.2 entry.1 (List.mem_map_of_mem hentry) k List.mem_cons_self
  exact bne_iff_ne.mpr hne.symm

/-- How a load of the entries may end: with all values under distinct keys, at a refusal, or at two
entries whose values have one key. -/
inductive Ends (read : ι → Except ε (Option α)) (key : α → κ) (clash : α → α → ε)
    (entries : List ι) : Except ε (List (κ × α)) → Prop where
  | loaded (distinct : ((keyed read key entries).map Prod.fst).Nodup)
      (accepted : ∀ entry ∈ entries, ∃ value, read entry = .ok value) :
      Ends read key clash entries (.ok (keyed read key entries))
  | refused {entry : ι} {e : ε} (mem : entry ∈ entries) (refuses : read entry = .error e) :
      Ends read key clash entries (.error e)
  | clashed {x y : ι} {a b : α} (order : [x, y].Sublist entries)
      (first : read x = .ok (some a)) (second : read y = .ok (some b)) (same : key a = key b) :
      Ends read key clash entries (.error (clash a b))

/-- A load that has taken in the entries of `seen`. -/
theorem ends_loadUnique_append (seen rest : List ι)
    (hdistinct : ((keyed read key seen).map Prod.fst).Nodup)
    (haccepted : ∀ entry ∈ seen, ∃ value, read entry = .ok value) :
    Ends read key clash (seen ++ rest)
      (loadUnique read key clash (keyed read key seen) rest) := by
  induction rest generalizing seen with
  | nil =>
    rw [loadUnique, List.append_nil]
    exact .loaded hdistinct haccepted
  | cons entry rest ih =>
    have hmem : entry ∈ seen ++ entry :: rest := List.mem_append_right _ List.mem_cons_self
    rw [loadUnique]
    cases hread : read entry with
    | error e => exact .refused hmem hread
    | ok value =>
      have hnext := ih (seen ++ [entry])
      rw [← List.append_cons, keyed_append] at hnext
      have haccepted' : ∀ other ∈ seen ++ [entry], ∃ value, read other = .ok value :=
        List.forall_mem_append.mpr ⟨haccepted, List.forall_mem_singleton.mpr ⟨value, hread⟩⟩
      cases value with
      | none =>
        rw [keyed_of_none hread, List.append_nil] at hnext
        exact hnext hdistinct haccepted'
      | some a =>
        rw [keyed_of_some hread] at hnext
        dsimp only
        cases hlookup : (keyed read key seen).lookup (key a) with
        | none =>
          have hnew : key a ∉ (keyed read key seen).map Prod.fst := by
            intro hkey
            obtain ⟨held, hheld, heq⟩ := List.mem_map.mp hkey
            exact absurd heq.symm (by simpa using List.lookup_eq_none_iff.mp hlookup held hheld)
          refine hnext ?_ haccepted'
          rw [List.map_append, List.nodup_append]
          refine ⟨hdistinct, List.nodup_singleton _, fun k hk l hl hkl ↦ hnew ?_⟩
          rw [hkl, List.mem_singleton.mp hl] at hk
          exact hk
        | some held =>
          obtain ⟨before, after, hsplit, -⟩ := List.lookup_eq_some_iff.mp hlookup
          have hheld : (key a, held) ∈ keyed read key seen := by
            rw [hsplit]
            exact List.mem_append_right _ List.mem_cons_self
          obtain ⟨hkey, x, hx, hxread⟩ := mem_keyed.mp hheld
          have horder : [x, entry].Sublist (seen ++ entry :: rest) :=
            (List.singleton_sublist.mpr hx).append
              (List.singleton_sublist.mpr List.mem_cons_self)
          exact .clashed horder hxread hread hkey.symm

theorem ends_loadUnique (entries : List ι) :
    Ends read key clash entries (loadUnique read key clash [] entries) :=
  ends_loadUnique_append [] entries List.nodup_nil (List.forall_mem_nil _)

end DatumSync.Foundation
