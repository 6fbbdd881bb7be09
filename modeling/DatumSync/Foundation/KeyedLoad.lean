import Mathlib.Data.List.Perm.Basic

/-!
# Loading a table from entries in some order

A reader takes one entry after the other.  An entry says nothing, assigns a value to a key, or is
refused, which ends the load.  A later assignment hides an earlier one of the same key, and a table
that stays empty is an error.  What is loaded does not depend on the order of the entries exactly
when one of them is refused, or no key is assigned two values.
-/

namespace DatumSync.Foundation

variable {ι ε κ α : Type*} [DecidableEq κ]

/-- Read the entries in order; the newest assignment stands first. -/
def load (read : ι → Option (Except ε (κ × α))) : List (κ × α) → List ι → Except ε (List (κ × α))
  | loaded, [] => .ok loaded
  | loaded, entry :: rest =>
    match read entry with
    | none => load read loaded rest
    | some (.error e) => .error e
    | some (.ok assigned) => load read (assigned :: loaded) rest

/-- The table, unless it is empty. -/
def required (empty : ε) : Except ε (List (κ × α)) → Except ε (List (κ × α))
  | .error e => .error e
  | .ok [] => .error empty
  | .ok table => .ok table

/-- Load all entries; none that assigns anything is an error. -/
def loadAll (empty : ε) (read : ι → Option (Except ε (κ × α))) (entries : List ι) :
    Except ε (List (κ × α)) := required empty (load read [] entries)

def Refused (read : ι → Option (Except ε (κ × α))) (entries : List ι) : Prop :=
  ∃ entry ∈ entries, ∃ e, read entry = some (.error e)

/-- One of the entries assigns the value to the key. -/
def Assigns (read : ι → Option (Except ε (κ × α))) (entries : List ι) (k : κ) (v : α) : Prop :=
  ∃ entry ∈ entries, read entry = some (.ok (k, v))

/-- No key is assigned two values. -/
def SingleValued (read : ι → Option (Except ε (κ × α))) (entries : List ι) : Prop :=
  ∀ k v w, Assigns read entries k v → Assigns read entries k w → v = w

/-- Both loads are refused, or both have the same value for each key. -/
def Agree : Except ε (List (κ × α)) → Except ε (List (κ × α)) → Prop
  | .error _, .error _ => True
  | .ok a, .ok b => ∀ k, a.lookup k = b.lookup k
  | _, _ => False

variable {read : ι → Option (Except ε (κ × α))}

omit [DecidableEq κ] in
theorem Refused.perm {entries other : List ι} (h : Refused read entries)
    (hperm : entries.Perm other) : Refused read other := by
  obtain ⟨entry, hmem, hentry⟩ := h
  exact ⟨entry, hperm.mem_iff.mp hmem, hentry⟩

omit [DecidableEq κ] in
theorem Assigns.perm {entries other : List ι} {k : κ} {v : α} (h : Assigns read entries k v)
    (hperm : entries.Perm other) : Assigns read other k v := by
  obtain ⟨entry, hmem, hentry⟩ := h
  exact ⟨entry, hperm.mem_iff.mp hmem, hentry⟩

omit [DecidableEq κ] in
theorem load_append (loaded : List (κ × α)) (first second : List ι) :
    load read loaded (first ++ second) =
      (load read loaded first).bind fun l ↦ load read l second := by
  induction first generalizing loaded with
  | nil => rfl
  | cons entry rest ih =>
    rw [List.cons_append, load, load]
    cases read entry with
    | none => exact ih loaded
    | some outcome =>
      cases outcome with
      | error e => rfl
      | ok assigned => exact ih (assigned :: loaded)

omit [DecidableEq κ] in
/-- A load fails exactly when an entry is refused. -/
theorem load_eq_error_iff (loaded : List (κ × α)) (entries : List ι) :
    (∃ e, load read loaded entries = .error e) ↔ Refused read entries := by
  induction entries generalizing loaded with
  | nil =>
    constructor
    · rintro ⟨e, h⟩
      cases h
    · rintro ⟨entry, hmem, -⟩
      exact absurd hmem List.not_mem_nil
  | cons entry rest ih =>
    rw [load]
    constructor
    · rintro ⟨e, h⟩
      cases hentry : read entry with
      | none =>
        rw [hentry] at h
        obtain ⟨other, hmem, hother⟩ := (ih loaded).mp ⟨e, h⟩
        exact ⟨other, List.mem_cons_of_mem entry hmem, hother⟩
      | some outcome =>
        cases outcome with
        | error e' => exact ⟨entry, List.mem_cons_self, e', hentry⟩
        | ok assigned =>
          rw [hentry] at h
          obtain ⟨other, hmem, hother⟩ := (ih (assigned :: loaded)).mp ⟨e, h⟩
          exact ⟨other, List.mem_cons_of_mem entry hmem, hother⟩
    · rintro ⟨other, hmem, e, hother⟩
      cases hentry : read entry with
      | none =>
        rcases List.mem_cons.mp hmem with rfl | hrest
        · rw [hother] at hentry
          cases hentry
        · exact (ih loaded).mpr ⟨other, hrest, e, hother⟩
      | some outcome =>
        cases outcome with
        | error e' => exact ⟨e', rfl⟩
        | ok assigned =>
          rcases List.mem_cons.mp hmem with rfl | hrest
          · rw [hother] at hentry
            cases hentry
          · exact (ih (assigned :: loaded)).mpr ⟨other, hrest, e, hother⟩

omit [DecidableEq κ] in
/-- What is loaded was loaded before, or an entry assigns it. -/
theorem mem_load {loaded result : List (κ × α)} {entries : List ι}
    (h : load read loaded entries = .ok result) (k : κ) (v : α) :
    (k, v) ∈ result ↔ Assigns read entries k v ∨ (k, v) ∈ loaded := by
  induction entries generalizing loaded with
  | nil =>
    cases h
    constructor
    · exact .inr
    · rintro (⟨entry, hmem, -⟩ | hmem)
      · exact absurd hmem List.not_mem_nil
      · exact hmem
  | cons entry rest ih =>
    have hcons : Assigns read (entry :: rest) k v ↔
        read entry = some (.ok (k, v)) ∨ Assigns read rest k v := by
      simp only [Assigns, List.mem_cons, or_and_right, exists_or, exists_eq_left]
    rw [load] at h
    rw [hcons]
    cases hentry : read entry with
    | none =>
      rw [hentry] at h
      rw [ih h]
      simp
    | some outcome =>
      cases outcome with
      | error e =>
        rw [hentry] at h
        cases h
      | ok assigned =>
        rw [hentry] at h
        rw [ih h, List.mem_cons, Option.some_inj, Except.ok.injEq]
        constructor
        · rintro (hrest | rfl | hloaded)
          · exact .inl (.inr hrest)
          · exact .inl (.inl rfl)
          · exact .inr hloaded
        · rintro ((rfl | hrest) | hloaded)
          · exact .inr (.inl rfl)
          · exact .inl hrest
          · exact .inr (.inr hloaded)

theorem mem_of_lookup {table : List (κ × α)} {k : κ} {v : α} (h : table.lookup k = some v) :
    (k, v) ∈ table := by
  induction table with
  | nil => cases h
  | cons entry rest ih =>
    obtain ⟨l, w⟩ := entry
    rw [List.lookup_cons] at h
    split at h
    · next heq =>
      rw [eq_of_beq heq, Option.some_inj.mp h]
      exact List.mem_cons_self
    · exact List.mem_cons_of_mem _ (ih h)

theorem exists_lookup {table : List (κ × α)} {k : κ} {v : α} (h : (k, v) ∈ table) :
    ∃ w, table.lookup k = some w := by
  rw [← Option.isSome_iff_exists, List.lookup_isSome_iff]
  exact ⟨_, h, beq_self_eq_true k⟩

/-- A value that is loaded for a key was assigned to it. -/
theorem Assigns.of_lookup {entries : List ι} {table : List (κ × α)} {k : κ} {v : α}
    (hload : load read [] entries = .ok table) (h : table.lookup k = some v) :
    Assigns read entries k v := by
  rcases (mem_load hload k v).mp (mem_of_lookup h) with hassigns | hmem
  · exact hassigns
  · exact absurd hmem List.not_mem_nil

/-- A key that is assigned a value is loaded. -/
theorem Assigns.exists_lookup {entries : List ι} {table : List (κ × α)} {k : κ} {v : α}
    (hload : load read [] entries = .ok table) (h : Assigns read entries k v) :
    ∃ w, table.lookup k = some w :=
  Foundation.exists_lookup ((mem_load hload k v).mpr (.inl h))

/-- Where no key is assigned two values, each load has the value assigned. -/
theorem SingleValued.agree {entries other : List ι} (h : SingleValued read entries)
    (hperm : entries.Perm other) {s t : List (κ × α)} (hs : load read [] entries = .ok s)
    (ht : load read [] other = .ok t) : Agree (ε := ε) (.ok s) (.ok t) := by
  intro k
  cases hleft : s.lookup k with
  | none =>
    cases hright : t.lookup k with
    | none => rfl
    | some w =>
      obtain ⟨v, hv⟩ := ((Assigns.of_lookup ht hright).perm hperm.symm).exists_lookup hs
      rw [hleft] at hv
      cases hv
  | some v =>
    have hassigns := Assigns.of_lookup hs hleft
    obtain ⟨w, hw⟩ := (hassigns.perm hperm).exists_lookup ht
    rw [hw, h k v w hassigns ((Assigns.of_lookup ht hw).perm hperm.symm)]

/-- An order in which an entry that assigns a value comes last, so that the value is loaded. -/
theorem Assigns.exists_last {entries : List ι} {k : κ} {v : α} (h : Assigns read entries k v)
    (hnone : ¬ Refused read entries) :
    ∃ other table, entries.Perm other ∧ load read [] other = .ok table ∧
      table.lookup k = some v := by
  obtain ⟨entry, hmem, hentry⟩ := h
  obtain ⟨first, second, rfl⟩ := List.append_of_mem hmem
  have hperm : (first ++ entry :: second).Perm ((first ++ second) ++ [entry]) :=
    List.perm_middle.trans (List.perm_append_singleton entry (first ++ second)).symm
  cases hload : load read [] (first ++ second) with
  | error e =>
    obtain ⟨other, hother, hrefused⟩ := (load_eq_error_iff [] (first ++ second)).mp ⟨e, hload⟩
    refine absurd ⟨other, ?_, hrefused⟩ hnone
    exact hperm.mem_iff.mpr (List.mem_append_left _ hother)
  | ok table =>
    refine ⟨_, (k, v) :: table, hperm, ?_, List.lookup_cons_self⟩
    rw [load_append, hload]
    change load read table [entry] = _
    rw [load, hentry]
    rfl

/-- The check for an empty table keeps agreement. -/
theorem Agree.required {a b : Except ε (List (κ × α))} (h : Agree a b) (empty : ε) :
    Agree (required empty a) (required empty b) := by
  cases a with
  | error e =>
    cases b with
    | error e' => trivial
    | ok t => exact h.elim
  | ok s =>
    cases b with
    | error e => exact h.elim
    | ok t =>
      cases s with
      | nil =>
        cases t with
        | nil => trivial
        | cons entry rest =>
          have hlookup := h entry.1
          rw [List.lookup_nil, List.lookup_cons_self] at hlookup
          cases hlookup
      | cons entry rest =>
        cases t with
        | nil =>
          have hlookup := h entry.1
          rw [List.lookup_nil, List.lookup_cons_self] at hlookup
          cases hlookup
        | cons second others => exact h

theorem required_of_lookup {table : List (κ × α)} {k : κ} {v : α} (h : table.lookup k = some v)
    (empty : ε) : required empty (.ok table) = .ok table := by
  cases table with
  | nil => cases h
  | cons entry rest => rfl

/-- What is loaded is the same in every order exactly when an entry is refused or no key is assigned
two values. -/
theorem agree_perm_iff (empty : ε) (entries : List ι) :
    (∀ other, entries.Perm other →
        Agree (loadAll empty read entries) (loadAll empty read other)) ↔
      Refused read entries ∨ SingleValued read entries := by
  constructor
  · intro hagree
    by_contra hnot
    rw [not_or] at hnot
    refine hnot.2 fun k v w hv hw ↦ ?_
    obtain ⟨first, s, hfirst, hs, hlookupv⟩ := hv.exists_last hnot.1
    obtain ⟨second, t, hsecond, ht, hlookupw⟩ := hw.exists_last hnot.1
    have hleft := hagree first hfirst
    have hright := hagree second hsecond
    rw [loadAll, loadAll, hs, required_of_lookup hlookupv] at hleft
    rw [loadAll, loadAll, ht, required_of_lookup hlookupw] at hright
    cases hload : required empty (load read [] entries) with
    | error e =>
      rw [hload] at hleft
      exact hleft.elim
    | ok table =>
      rw [hload] at hleft hright
      have hsame := (hleft k).symm.trans (hright k)
      rwa [hlookupv, hlookupw, Option.some_inj] at hsame
  · intro h other hperm
    refine Agree.required ?_ empty
    cases hs : load read [] entries with
    | error e =>
      have hrefused := ((load_eq_error_iff [] entries).mp ⟨e, hs⟩).perm hperm
      obtain ⟨e', ht⟩ := (load_eq_error_iff [] other).mpr hrefused
      rw [ht]
      trivial
    | ok s =>
      have hnone : ¬ Refused read entries := by
        intro hrefused
        obtain ⟨e, he⟩ := (load_eq_error_iff [] entries).mpr hrefused
        rw [hs] at he
        cases he
      cases ht : load read [] other with
      | error e =>
        exact absurd (((load_eq_error_iff [] other).mp ⟨e, ht⟩).perm hperm.symm) hnone
      | ok t => exact (h.resolve_left hnone).agree hperm hs ht

end DatumSync.Foundation
