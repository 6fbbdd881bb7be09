import Mathlib.Data.List.Basic

/-!
# Scanning a text for matches

A scan goes through a text from the left and takes every match it meets.  Where matches do not
overlap, the matches that it takes are all the occurrences in the text.
-/

namespace DatumSync.Foundation

/-- What a scan cuts a text into: single elements, and matches with what they stand for. -/
inductive Piece (α β : Type*) where
  | plain (a : α)
  | hit (source : List α) (value : β)

namespace Piece

variable {α β : Type*}

/-- The part of the text that a piece is. -/
def source : Piece α β → List α
  | plain a => [a]
  | hit source _ => source

/-- What a piece is replaced by. -/
def fill (f : β → List α) : Piece α β → List α
  | plain a => [a]
  | hit _ value => f value

def value : Piece α β → Option β
  | plain _ => none
  | hit _ value => some value

end Piece

/-- A test for a match at the front of a text, with the words that it accepts; these are not empty
and do not overlap. -/
structure Matcher (α β : Type*) where
  /-- What a match at the front stands for, and what follows it. -/
  matchAt : List α → Option (β × List α)
  /-- A word is a match and stands for a value. -/
  Occurs : List α → β → Prop
  matchAt_iff : ∀ {s value rest},
    matchAt s = some (value, rest) ↔ ∃ source, Occurs source value ∧ s = source ++ rest
  ne_nil : ∀ {source value}, Occurs source value → source ≠ []
  disjoint : ∀ {first value rest before second value' rest'}, Occurs first value →
    Occurs second value' → first ++ rest = before ++ (second ++ rest') → before ≠ [] →
    ∃ more, before = first ++ more

namespace Matcher

variable {α β : Type*} (m : Matcher α β)

/-- The pieces of a text; `fuel` is its length. -/
def scan : (fuel : ℕ) → List α → List (Piece α β)
  | 0, _ => []
  | _, [] => []
  | fuel + 1, a :: s =>
    match m.matchAt (a :: s) with
    | some (value, rest) =>
      .hit ((a :: s).take ((a :: s).length - rest.length)) value :: scan fuel rest
    | none => .plain a :: scan fuel s

variable {m}

/-- A match at the front is the first piece. -/
theorem scan_hit {source rest : List α} {value : β} (h : m.Occurs source value) (fuel : ℕ) :
    m.scan (fuel + 1) (source ++ rest) = .hit source value :: m.scan fuel rest := by
  have hmatch : m.matchAt (source ++ rest) = some (value, rest) :=
    m.matchAt_iff.mpr ⟨source, h, rfl⟩
  have htake : (source ++ rest).take ((source ++ rest).length - rest.length) = source := by
    rw [List.length_append, Nat.add_sub_cancel, List.take_left]
  cases hs : source ++ rest with
  | nil => exact absurd (List.append_eq_nil_iff.mp hs).1 (m.ne_nil h)
  | cons a s =>
    rw [hs] at hmatch htake
    rw [scan]
    simp only [hmatch, htake]

/-- An element where no match begins is a piece of its own. -/
theorem scan_plain {a : α} {s : List α} (h : m.matchAt (a :: s) = none) (fuel : ℕ) :
    m.scan (fuel + 1) (a :: s) = .plain a :: m.scan fuel s := by
  rw [scan]
  simp only [h]

/-- The cases of a scan, with induction on what is left of the text. -/
theorem scan_induction (m : Matcher α β) {P : ℕ → List α → Prop} (hnil : ∀ fuel, P fuel [])
    (hplain : ∀ fuel a s, m.matchAt (a :: s) = none → P fuel s → P (fuel + 1) (a :: s))
    (hhit : ∀ fuel source rest value, m.Occurs source value → P fuel rest →
      P (fuel + 1) (source ++ rest)) (fuel : ℕ) (s : List α) (hfuel : s.length ≤ fuel) :
    P fuel s := by
  induction fuel generalizing s with
  | zero =>
    obtain rfl := List.length_eq_zero_iff.mp (Nat.le_zero.mp hfuel)
    exact hnil 0
  | succ fuel ih =>
    cases s with
    | nil => exact hnil _
    | cons a s =>
      cases hmatch : m.matchAt (a :: s) with
      | none => exact hplain fuel a s hmatch (ih s (Nat.le_of_succ_le_succ hfuel))
      | some found =>
        obtain ⟨value, rest⟩ := found
        obtain ⟨source, hoccurs, heq⟩ := m.matchAt_iff.mp hmatch
        have hpos : 0 < source.length := List.length_pos_iff.mpr (m.ne_nil hoccurs)
        have hlength := congrArg List.length heq
        rw [List.length_append] at hlength
        rw [heq]
        exact hhit fuel source rest value hoccurs (ih rest (by omega))

/-- The pieces put together are the text. -/
theorem scan_source {fuel : ℕ} {s : List α} (hfuel : s.length ≤ fuel) :
    (m.scan fuel s).flatMap Piece.source = s := by
  refine scan_induction m (P := fun fuel s ↦ (m.scan fuel s).flatMap Piece.source = s)
    ?_ ?_ ?_ fuel s hfuel
  · intro fuel
    cases fuel <;> rfl
  · intro fuel a s hmatch ih
    rw [scan_plain hmatch, List.flatMap_cons, ih]
    rfl
  · intro fuel source rest value hoccurs ih
    rw [scan_hit hoccurs, List.flatMap_cons, ih]
    rfl

/-- What is taken for a match is one. -/
theorem scan_sound {fuel : ℕ} {s : List α} (hfuel : s.length ≤ fuel) {source : List α}
    {value : β} (h : .hit source value ∈ m.scan fuel s) : m.Occurs source value := by
  revert h
  refine scan_induction m (P := fun fuel s ↦ .hit source value ∈ m.scan fuel s →
    m.Occurs source value) ?_ ?_ ?_ fuel s hfuel
  · intro fuel h
    cases fuel <;> cases h
  · intro fuel a s hmatch ih h
    rw [scan_plain hmatch] at h
    rcases List.mem_cons.mp h with h | h
    · cases h
    · exact ih h
  · intro fuel first rest other hoccurs ih h
    rw [scan_hit hoccurs] at h
    rcases List.mem_cons.mp h with h | h
    · obtain ⟨rfl, rfl⟩ := Piece.hit.inj h
      exact hoccurs
    · exact ih h

/-- Every occurrence is taken, where it stands in the text. -/
theorem scan_complete {fuel : ℕ} {s : List α} (hfuel : s.length ≤ fuel)
    {before source after : List α} {value : β} (hoccurs : m.Occurs source value)
    (heq : s = before ++ (source ++ after)) :
    ∃ front back, m.scan fuel s = front ++ .hit source value :: back ∧
      front.flatMap Piece.source = before := by
  revert before
  refine scan_induction m (P := fun fuel s ↦ ∀ {before}, s = before ++ (source ++ after) →
    ∃ front back, m.scan fuel s = front ++ .hit source value :: back ∧
      front.flatMap Piece.source = before) ?_ ?_ ?_ fuel s hfuel
  · intro fuel before heq
    have hnil := (List.append_eq_nil_iff.mp (List.append_eq_nil_iff.mp heq.symm).2).1
    exact absurd hnil (m.ne_nil hoccurs)
  · intro fuel a s hmatch ih before heq
    cases before with
    | nil =>
      rw [m.matchAt_iff.mpr ⟨source, hoccurs, heq⟩] at hmatch
      cases hmatch
    | cons b before =>
      obtain ⟨rfl, htail⟩ := List.cons.inj heq
      obtain ⟨front, back, hscan, hfront⟩ := ih htail
      refine ⟨.plain a :: front, back, ?_, ?_⟩
      · rw [scan_plain hmatch, hscan]
        rfl
      · rw [List.flatMap_cons, hfront]
        rfl
  · intro fuel first rest other hfirst ih before heq
    by_cases hbefore : before = []
    · subst hbefore
      have hfound : m.matchAt (first ++ rest) = some (other, rest) :=
        m.matchAt_iff.mpr ⟨first, hfirst, rfl⟩
      have hfront : m.matchAt (first ++ rest) = some (value, after) :=
        m.matchAt_iff.mpr ⟨source, hoccurs, heq⟩
      obtain ⟨rfl, rfl⟩ := Prod.mk.inj (Option.some.inj (hfound.symm.trans hfront))
      obtain rfl := List.append_cancel_right heq
      exact ⟨[], m.scan fuel rest, scan_hit hoccurs fuel, rfl⟩
    · obtain ⟨more, rfl⟩ := m.disjoint hfirst hoccurs heq hbefore
      rw [List.append_assoc] at heq
      obtain ⟨front, back, hscan, hfront⟩ := ih (List.append_cancel_left heq)
      refine ⟨.hit first other :: front, back, ?_, ?_⟩
      · rw [scan_hit hfirst, hscan]
        rfl
      · rw [List.flatMap_cons, hfront]
        rfl

end Matcher

end DatumSync.Foundation
