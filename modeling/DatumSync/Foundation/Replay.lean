import Mathlib.Data.List.Pairwise
import Mathlib.Logic.Function.Basic
import Mathlib.Tactic.Push

/-!
# Running writes again over what they left

Items are written into cells one after the other.  An exclusive entry needs an empty cell and is never
overwritten; any other entry overwrites.  A run that was cut off after some items leaves cells in
which the whole run is taken again.
-/

namespace DatumSync.Foundation.Replay

variable {K E : Type*} [DecidableEq K] {exclusive : E → Bool}

/-- An exclusive entry needs an empty cell, another one a cell that no exclusive entry is in. -/
def fits (exclusive : E → Bool) (entry : E) (held : Option E) : Bool :=
  if exclusive entry then held.isNone else held.all fun e ↦ !exclusive e

/-- Write an item where it fits. -/
def place (exclusive : E → Bool) (cells : K → Option E) (item : K × E) : Option (K → Option E) :=
  if fits exclusive item.2 (cells item.1) then
    some (Function.update cells item.1 (some item.2))
  else none

/-- Write the items in order, until one does not fit. -/
def placeAll (exclusive : E → Bool) : (K → Option E) → List (K × E) → Option (K → Option E)
  | cells, [] => some cells
  | cells, item :: rest =>
    (place exclusive cells item).bind fun after ↦ placeAll exclusive after rest

/-- An exclusive entry shares its key with no other item. -/
def Compatible (exclusive : E → Bool) (items : List (K × E)) : Prop :=
  items.Pairwise fun a b ↦ a.1 = b.1 → exclusive a.2 = false ∧ exclusive b.2 = false

variable {cells left after : K → Option E} {item : K × E} {items before rest : List (K × E)}
  {k : K}

theorem placeAll_append (items more : List (K × E)) :
    placeAll exclusive cells (items ++ more) =
      (placeAll exclusive cells items).bind fun after ↦ placeAll exclusive after more := by
  induction items generalizing cells with
  | nil => rfl
  | cons item rest ih =>
    simp only [List.cons_append, placeAll, ih, Option.bind_assoc]

theorem place_eq_some : place exclusive cells item = some after ↔
    fits exclusive item.2 (cells item.1) = true ∧
      Function.update cells item.1 (some item.2) = after := by
  rw [place, Option.ite_none_right_eq_some, Option.some.injEq]

/-- What fits into an updated cell: nothing where one of the two entries is exclusive. -/
theorem fits_update {a b : K × E} : fits exclusive b.2 (Function.update cells a.1 (some a.2) b.1) =
    true ↔ if a.1 = b.1 then exclusive a.2 = false ∧ exclusive b.2 = false
      else fits exclusive b.2 (cells b.1) = true := by
  by_cases hkey : a.1 = b.1
  · rw [if_pos hkey, hkey, Function.update_self]
    unfold fits
    cases exclusive b.2 <;> simp
  · rw [if_neg hkey, Function.update_of_ne fun h ↦ hkey h.symm]

/-- A run goes through just when every item fits into the cells before it and no exclusive entry
shares its key. -/
theorem placeAll_isSome_iff : (placeAll exclusive cells items).isSome = true ↔
    Compatible exclusive items ∧ ∀ item ∈ items, fits exclusive item.2 (cells item.1) = true := by
  induction items generalizing cells with
  | nil => exact iff_of_true rfl ⟨.nil, List.forall_mem_nil _⟩
  | cons item rest ih =>
    rw [placeAll, Compatible, List.pairwise_cons, List.forall_mem_cons]
    by_cases hfits : fits exclusive item.2 (cells item.1) = true
    · rw [place, if_pos hfits, Option.bind_some, ih, and_iff_right hfits]
      simp only [fits_update]
      constructor
      · rintro ⟨hrest, hall⟩
        refine ⟨⟨fun b hb hkey ↦ ?_, hrest⟩, fun b hb ↦ ?_⟩
        · have h := hall b hb
          rwa [if_pos hkey] at h
        · have h := hall b hb
          split at h
          · next hkey =>
            -- neither is exclusive, so that what was held lets both in
            rw [fits, if_neg (by rw [h.1]; decide)] at hfits
            rw [fits, if_neg (by rw [h.2]; decide), ← hkey]
            exact hfits
          · exact h
      · rintro ⟨⟨hfirst, hrest⟩, hall⟩
        refine ⟨hrest, fun b hb ↦ ?_⟩
        split
        · next hkey => exact hfirst b hb hkey
        · exact hall b hb
    · rw [place, if_neg hfits]
      exact iff_of_false (by simp) fun h ↦ hfits h.2.1

/-- From empty cells a run goes through just when no exclusive entry shares its key. -/
theorem placeAll_empty_isSome_iff :
    (placeAll exclusive (fun _ ↦ none) items).isSome = true ↔ Compatible exclusive items := by
  rw [placeAll_isSome_iff]
  refine and_iff_left fun item _ ↦ ?_
  unfold fits
  split <;> rfl

/-- A run leaves in a cell the last entry for its key, or what was there. -/
theorem placeAll_apply (h : placeAll exclusive cells items = some after) (k : K) :
    after k = (items.reverse.lookup k).or (cells k) := by
  induction items generalizing cells with
  | nil =>
    obtain rfl := Option.some.inj h
    rfl
  | cons item rest ih =>
    obtain ⟨middle, hplace, hrest⟩ := Option.bind_eq_some_iff.1 h
    obtain ⟨-, rfl⟩ := place_eq_some.1 hplace
    rw [ih hrest, List.reverse_cons, List.lookup_append, Option.or_assoc]
    congr 1
    obtain ⟨key, value⟩ := item
    by_cases hkey : k = key
    · rw [hkey, Function.update_self, List.lookup_cons_self, Option.some_or]
    · rw [Function.update_of_ne hkey, List.lookup_cons, beq_false_of_ne hkey]
      rfl

/-- Where no exclusive entry was written, writing again changes nothing. -/
theorem placeAll_again (h : placeAll exclusive (fun _ ↦ none) before = some left)
    (hfiles : ∀ item ∈ before, exclusive item.2 = false) :
    placeAll exclusive left before = some left := by
  have hleft := placeAll_apply h
  have hcompatible : Compatible exclusive before :=
    placeAll_empty_isSome_iff.1 (by rw [h]; rfl)
  have hfits : ∀ item ∈ before, fits exclusive item.2 (left item.1) = true := by
    intro item hitem
    rw [fits, if_neg (by rw [hfiles item hitem]; decide), hleft, Option.or_none]
    cases hheld : before.reverse.lookup item.1 with
    | none => rfl
    | some e =>
      obtain ⟨later, earlier, hsplit, -⟩ := List.lookup_eq_some_iff.1 hheld
      have hmem : (item.1, e) ∈ before := List.mem_reverse.1 (by rw [hsplit]; simp)
      simp [hfiles _ hmem]
  obtain ⟨again, hagain⟩ := Option.isSome_iff_exists.1
    (placeAll_isSome_iff.2 ⟨hcompatible, hfits⟩)
  rw [hagain]
  congr 1
  funext k
  rw [placeAll_apply hagain, hleft, Option.or_none, Option.or_self]

/-- Where an exclusive entry was written, it is in its way. -/
theorem placeAll_again_of_exclusive (h : placeAll exclusive (fun _ ↦ none) before = some left)
    (hitem : item ∈ before) (hexclusive : exclusive item.2 = true) :
    placeAll exclusive left (before ++ rest) = none := by
  rw [← Option.not_isSome_iff_eq_none, placeAll_isSome_iff]
  rintro ⟨-, hfits⟩
  have hitemFits := hfits item (List.mem_append_left _ hitem)
  rw [fits, if_pos hexclusive, placeAll_apply h, Option.or_none, Option.isNone_iff_eq_none,
    List.lookup_eq_none_iff] at hitemFits
  have hne := hitemFits item (List.mem_reverse.2 hitem)
  simp at hne

/-- A run that was cut off after `before` and is taken again from the start does what a fresh run
does, unless an exclusive entry had been written and the fresh run goes through. -/
theorem again_eq_iff (h : placeAll exclusive (fun _ ↦ none) before = some left) :
    placeAll exclusive left (before ++ rest) = placeAll exclusive (fun _ ↦ none) (before ++ rest) ↔
      (∀ item ∈ before, exclusive item.2 = false) ∨ ¬ Compatible exclusive (before ++ rest) := by
  by_cases hfiles : ∀ item ∈ before, exclusive item.2 = false
  · refine iff_of_true ?_ (.inl hfiles)
    rw [placeAll_append, placeAll_append, placeAll_again h hfiles, h]
  · rw [or_iff_right hfiles]
    push Not at hfiles
    obtain ⟨item, hitem, hexclusive⟩ := hfiles
    rw [placeAll_again_of_exclusive h hitem (Bool.of_not_eq_false hexclusive),
      ← placeAll_empty_isSome_iff, Option.not_isSome_iff_eq_none, eq_comm]

/-- Where the run goes through when it is taken again, it leaves what a fresh run leaves. -/
theorem again_eq_of_some (h : placeAll exclusive (fun _ ↦ none) before = some left)
    (hagain : placeAll exclusive left (before ++ rest) = some after) :
    placeAll exclusive (fun _ ↦ none) (before ++ rest) = some after := by
  have hfiles : ∀ item ∈ before, exclusive item.2 = false := by
    intro item hitem
    by_contra hexclusive
    rw [placeAll_again_of_exclusive h hitem (Bool.of_not_eq_false hexclusive)] at hagain
    cases hagain
  rw [← (again_eq_iff h).2 (.inl hfiles), hagain]

end DatumSync.Foundation.Replay
