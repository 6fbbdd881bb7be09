import Mathlib.Computability.Language

/-!
# Regular expressions over character classes

Mathlib's `RegularExpression` has single characters only; a translation that writes `[^/]` or `.`
over an unbounded alphabet needs classes.  An expression here is built from class predicates, its
meaning is a Mathlib `Language`, and `accepts` decides membership by derivatives.
-/

namespace DatumSync.Foundation

/-- A regular expression whose atoms are decidable character classes. -/
inductive Rx (α : Type*) where
  | void
  | eps
  | cls (p : α → Bool)
  | alt (r s : Rx α)
  | seq (r s : Rx α)
  | star (r : Rx α)

namespace Rx

variable {α : Type*}

/-- The words an expression matches in full. -/
def language : Rx α → Language α
  | void => 0
  | eps => 1
  | cls p => {w | ∃ a, p a = true ∧ w = [a]}
  | alt r s => language r + language s
  | seq r s => language r * language s
  | star r => KStar.kstar (language r)

def concat (parts : List (Rx α)) : Rx α := parts.foldr seq eps

/-- Whether the empty word matches. -/
def nullable : Rx α → Bool
  | void => false
  | eps => true
  | cls _ => false
  | alt r s => nullable r || nullable s
  | seq r s => nullable r && nullable s
  | star _ => true

/-- What remains to be matched after one character. -/
def deriv (a : α) : Rx α → Rx α
  | void => void
  | eps => void
  | cls p => if p a then eps else void
  | alt r s => alt (deriv a r) (deriv a s)
  | seq r s => if nullable r then alt (seq (deriv a r) s) (deriv a s) else seq (deriv a r) s
  | star r => seq (deriv a r) (star r)

/-- Decide whether the whole word matches. -/
def accepts (r : Rx α) : List α → Bool
  | [] => nullable r
  | a :: rest => accepts (deriv a r) rest

theorem nullable_iff (r : Rx α) : nullable r = true ↔ [] ∈ language r := by
  induction r with
  | void => simp [nullable, language]
  | eps => simp [nullable, language, Language.mem_one]
  | cls p =>
    simp only [nullable, language, Bool.false_eq_true, false_iff]
    rintro ⟨a, _, hnil⟩
    exact List.cons_ne_nil a [] hnil.symm
  | alt r s ihr ihs => simp [nullable, language, Language.mem_add, ihr, ihs]
  | seq r s ihr ihs =>
    rw [nullable, Bool.and_eq_true, ihr, ihs, language, Language.mem_mul]
    constructor
    · rintro ⟨hr, hs⟩
      exact ⟨[], hr, [], hs, rfl⟩
    · rintro ⟨u, hu, v, hv, huv⟩
      obtain ⟨rfl, rfl⟩ := List.append_eq_nil_iff.mp huv
      exact ⟨hu, hv⟩
  | star r _ => simp [nullable, language, Language.nil_mem_kstar]

/-- A nonempty word in a starred language starts with a nonempty word of the language. -/
theorem cons_mem_kstar {l : Language α} {a : α} {w : List α} :
    a :: w ∈ KStar.kstar l ↔ ∃ u v, w = u ++ v ∧ a :: u ∈ l ∧ v ∈ KStar.kstar l := by
  constructor
  · intro h
    obtain ⟨parts, hparts, hmem⟩ := Language.mem_kstar.mp h
    induction parts with
    | nil => exact absurd hparts (List.cons_ne_nil a w)
    | cons first others ih =>
      have hothers : ∀ y ∈ others, y ∈ l := fun y hy ↦ hmem y (List.mem_cons_of_mem _ hy)
      cases first with
      | nil => exact ih (by simpa using hparts) hothers
      | cons b u =>
        rw [List.flatten_cons, List.cons_append, List.cons.injEq] at hparts
        obtain ⟨rfl, hw⟩ := hparts
        exact ⟨u, others.flatten, hw, hmem _ List.mem_cons_self,
          Language.join_mem_kstar hothers⟩
  · rintro ⟨u, v, rfl, hu, hv⟩
    obtain ⟨parts, rfl, hmem⟩ := Language.mem_kstar.mp hv
    refine Language.mem_kstar.mpr ⟨(a :: u) :: parts, rfl, fun y hy ↦ ?_⟩
    rcases List.mem_cons.mp hy with rfl | hy
    · exact hu
    · exact hmem y hy

theorem mem_deriv_iff (r : Rx α) (a : α) (w : List α) :
    w ∈ language (deriv a r) ↔ a :: w ∈ language r := by
  induction r generalizing w with
  | void => simp [deriv, language]
  | eps => simp [deriv, language, Language.mem_one]
  | cls p =>
    have hcls : a :: w ∈ language (cls p) ↔ p a = true ∧ w = [] := by
      constructor
      · rintro ⟨b, hb, heq⟩
        obtain ⟨rfl, rfl⟩ := List.cons.inj heq
        exact ⟨hb, rfl⟩
      · rintro ⟨hp, rfl⟩
        exact ⟨a, hp, rfl⟩
    rw [hcls, deriv]
    split
    · next hp => simp [language, Language.mem_one, hp]
    · next hp => simp [language, hp]
  | alt r s ihr ihs => simp [deriv, language, Language.mem_add, ihr, ihs]
  | seq r s ihr ihs =>
    -- a word of the product starts in `r`, or `r` gives nothing and it starts in `s`
    have hsplit : a :: w ∈ language (seq r s) ↔
        w ∈ language (deriv a r) * language s ∨
          (nullable r = true ∧ w ∈ language (deriv a s)) := by
      rw [language, Language.mem_mul, Language.mem_mul]
      constructor
      · rintro ⟨u, hu, v, hv, huv⟩
        cases u with
        | nil =>
          rw [List.nil_append] at huv
          exact .inr ⟨(nullable_iff r).mpr hu, (ihs w).mpr (huv ▸ hv)⟩
        | cons b u =>
          obtain ⟨rfl, rfl⟩ := List.cons.inj huv
          exact .inl ⟨u, (ihr u).mpr hu, v, hv, rfl⟩
      · rintro (⟨u, hu, v, hv, rfl⟩ | ⟨hnull, hw⟩)
        · exact ⟨a :: u, (ihr u).mp hu, v, hv, rfl⟩
        · exact ⟨[], (nullable_iff r).mp hnull, a :: w, (ihs w).mp hw, rfl⟩
    rw [hsplit, deriv]
    split
    · next hnull => simp [language, Language.mem_add, hnull]
    · next hnull => simp [language, hnull]
  | star r ih =>
    rw [deriv, language, language, Language.mem_mul, cons_mem_kstar]
    constructor
    · rintro ⟨u, hu, v, hv, rfl⟩
      exact ⟨u, v, rfl, (ih u).mp hu, hv⟩
    · rintro ⟨u, v, rfl, hu, hv⟩
      exact ⟨u, (ih u).mpr hu, v, hv, rfl⟩

/-- The derivative matcher decides the language. -/
theorem accepts_iff (r : Rx α) (w : List α) : accepts r w = true ↔ w ∈ language r := by
  induction w generalizing r with
  | nil => exact nullable_iff r
  | cons a rest ih => rw [accepts, ih, mem_deriv_iff]

@[simp]
theorem language_concat_nil : language (concat ([] : List (Rx α))) = 1 := rfl

@[simp]
theorem language_concat_cons (r : Rx α) (parts : List (Rx α)) :
    language (concat (r :: parts)) = language r * language (concat parts) := rfl

theorem language_concat_append (first second : List (Rx α)) :
    language (concat (first ++ second)) = language (concat first) * language (concat second) := by
  induction first with
  | nil => simp
  | cons r rest ih =>
    rw [List.cons_append, language_concat_cons, ih, language_concat_cons, mul_assoc]

/-- The words of a starred class are the words over the class. -/
theorem mem_star_cls {p : α → Bool} {w : List α} :
    w ∈ language (star (cls p)) ↔ ∀ a ∈ w, p a = true := by
  induction w with
  | nil => exact iff_of_true (Language.nil_mem_kstar _) (List.forall_mem_nil _)
  | cons a rest ih =>
    rw [language, cons_mem_kstar]
    constructor
    · rintro ⟨u, v, rfl, ⟨b, hb, heq⟩, hv⟩
      obtain ⟨rfl, rfl⟩ := List.cons.inj heq
      rw [List.forall_mem_cons]
      exact ⟨hb, ih.mp hv⟩
    · intro h
      rw [List.forall_mem_cons] at h
      exact ⟨[], rest, rfl, ⟨a, h.1, rfl⟩, ih.mpr h.2⟩

/-- A class before an expression takes exactly the first character. -/
theorem cons_mem_cls_mul {p : α → Bool} {l : Language α} {a : α} {w : List α} :
    a :: w ∈ language (cls p) * l ↔ p a = true ∧ w ∈ l := by
  rw [Language.mem_mul]
  constructor
  · rintro ⟨_, ⟨b, hb, rfl⟩, v, hv, heq⟩
    obtain ⟨rfl, rfl⟩ := List.cons.inj heq
    exact ⟨hb, hv⟩
  · rintro ⟨hp, hw⟩
    exact ⟨[a], ⟨a, hp, rfl⟩, w, hw, rfl⟩

theorem nil_not_mem_cls_mul {p : α → Bool} {l : Language α} :
    [] ∉ language (cls p) * l := by
  rw [Language.mem_mul]
  rintro ⟨_, ⟨b, _, rfl⟩, v, _, heq⟩
  exact List.cons_ne_nil b v heq

end Rx

end DatumSync.Foundation
