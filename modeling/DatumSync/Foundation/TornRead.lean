import Mathlib.Data.List.Basic
import Mathlib.Order.Basic
import Mathlib.Data.Nat.Basic

/-!
# Reading a versioned record by halves

A record has two halves that are committed together and read by two statements.  A version's stamps
say which commits gave it its halves.  A reading is of one version if some version was committed
with both of its stamps.  That is so unless, between the two statements, a commit changed the second
half when the first had changed since it was read (`Reading.Fits.whole_iff`).
-/

namespace DatumSync.Foundation

/-- A committed record and, for each half, the number of the commit that changed it last. -/
structure Version (α β : Type*) where
  first : α
  second : β
  firstStamp : ℕ
  secondStamp : ℕ

/-- The versions of a record, whose stamps do not go back. -/
structure History (α β : Type*) where
  current : Version α β
  /-- The versions before the current one, newest first. -/
  past : List (Version α β)
  first_le : ∀ v ∈ past, v.firstStamp ≤ current.firstStamp
  second_le : ∀ v ∈ past, v.secondStamp ≤ current.secondStamp
  current_le : current.firstStamp ≤ past.length ∧ current.secondStamp ≤ past.length

variable {α β : Type*}

namespace History

/-- A record that has just been committed. -/
def start (first : α) (second : β) : History α β where
  current := ⟨first, second, 0, 0⟩
  past := []
  first_le _ h := absurd h List.not_mem_nil
  second_le _ h := absurd h List.not_mem_nil
  current_le := ⟨le_rfl, le_rfl⟩

def versions (h : History α β) : List (Version α β) := h.current :: h.past

theorem stamps_le {h : History α β} {v : Version α β} (hv : v ∈ h.versions) :
    v.firstStamp ≤ h.current.firstStamp ∧ v.secondStamp ≤ h.current.secondStamp := by
  rcases List.mem_cons.mp hv with hcurrent | hpast
  · rw [hcurrent]
    exact ⟨le_rfl, le_rfl⟩
  · exact ⟨h.first_le v hpast, h.second_le v hpast⟩

variable [DecidableEq α] [DecidableEq β]

/-- The version a commit makes; a half that keeps its value keeps its stamp. -/
def next (h : History α β) (first : α) (second : β) : Version α β where
  first := first
  second := second
  firstStamp := if first = h.current.first then h.current.firstStamp else h.past.length + 1
  secondStamp := if second = h.current.second then h.current.secondStamp else h.past.length + 1

theorem current_firstStamp_le_next (h : History α β) (first : α) (second : β) :
    h.current.firstStamp ≤ (h.next first second).firstStamp := by
  unfold next
  have := h.current_le.1
  dsimp only
  split <;> omega

theorem current_secondStamp_le_next (h : History α β) (first : α) (second : β) :
    h.current.secondStamp ≤ (h.next first second).secondStamp := by
  unfold next
  have := h.current_le.2
  dsimp only
  split <;> omega

def commit (h : History α β) (first : α) (second : β) : History α β where
  current := h.next first second
  past := h.versions
  first_le v hv := (stamps_le hv).1.trans (h.current_firstStamp_le_next first second)
  second_le v hv := (stamps_le hv).2.trans (h.current_secondStamp_le_next first second)
  current_le := by
    have := h.current_le
    simp only [next, versions, List.length_cons]
    constructor <;> split <;> omega

theorem mem_versions_commit {h : History α β} {first : α} {second : β} {v : Version α β} :
    v ∈ (h.commit first second).versions ↔ v = h.next first second ∨ v ∈ h.versions :=
  List.mem_cons

theorem next_secondStamp_of_ne {h : History α β} {first : α} {second : β}
    (hne : second ≠ h.current.second) :
    h.current.secondStamp < (h.next first second).secondStamp := by
  have := h.current_le.2
  simp only [next, if_neg hne]
  omega

theorem next_firstStamp_of_ne {h : History α β} {first : α} {second : β}
    (hne : first ≠ h.current.first) : h.current.firstStamp < (h.next first second).firstStamp := by
  have := h.current_le.1
  simp only [next, if_neg hne]
  omega

end History

/-! ## Readings -/

/-- The first half of a record as it was read. -/
structure Half (α : Type*) where
  value : α
  stamp : ℕ
  /-- Whether a commit has changed the first half since. -/
  moved : Bool := false
  /-- Whether a commit that changed the second half has found or left the first one moved. -/
  torn : Bool := false

structure Reading (α β : Type*) where
  first : α
  second : β
  firstStamp : ℕ
  secondStamp : ℕ
  torn : Bool

def History.readFirst (h : History α β) : Half α where
  value := h.current.first
  stamp := h.current.firstStamp

/-- The second of the two statements. -/
def Half.complete (half : Half α) (h : History α β) : Reading α β where
  first := half.value
  second := h.current.second
  firstStamp := half.stamp
  secondStamp := h.current.secondStamp
  torn := half.torn

/-- Some version was committed with the halves that were read. -/
def Reading.Whole (r : Reading α β) (h : History α β) : Prop :=
  ∃ v ∈ h.versions, v.first = r.first ∧ v.second = r.second ∧ v.firstStamp = r.firstStamp ∧
    v.secondStamp = r.secondStamp

/-- What the flag of a reading says of the versions. -/
structure Reading.Fits (r : Reading α β) (h : History α β) : Prop where
  le : r.secondStamp ≤ h.current.secondStamp
  whole : r.torn = false → r.Whole h
  apart : r.torn = true → ∀ v ∈ h.versions, v.secondStamp = r.secondStamp →
    r.firstStamp < v.firstStamp

/-- What the flags of a first half say of the versions. -/
structure Half.Fits (half : Half α) (h : History α β) : Prop where
  still : half.moved = false → half.value = h.current.first ∧ half.stamp = h.current.firstStamp
  moved : half.moved = true → half.stamp < h.current.firstStamp
  torn_moved : half.torn = true → half.moved = true
  complete : (half.complete h).Fits h

theorem Reading.Fits.whole_iff {r : Reading α β} {h : History α β} (hr : r.Fits h) :
    r.Whole h ↔ r.torn = false := by
  refine ⟨?_, hr.whole⟩
  rintro ⟨v, hv, -, -, hfirst, hsecond⟩
  by_contra htorn
  rw [Bool.not_eq_false] at htorn
  have hlt := hr.apart htorn v hv hsecond
  omega

theorem History.readFirst_fits (h : History α β) : h.readFirst.Fits h where
  still _ := ⟨rfl, rfl⟩
  moved hmoved := by cases hmoved
  torn_moved htorn := by cases htorn
  complete :=
    { le := le_rfl
      whole := fun _ ↦ ⟨h.current, List.mem_cons_self, rfl, rfl, rfl, rfl⟩
      apart := fun htorn ↦ by cases htorn }

variable [DecidableEq α] [DecidableEq β]

/-- What a commit does to the flags of a first half. -/
def Half.commit (half : Half α) (h : History α β) (first : α) (second : β) : Half α :=
  let moved := half.moved || decide (first ≠ h.current.first)
  { half with
    moved := moved
    torn := half.torn || (moved && decide (second ≠ h.current.second)) }

theorem Reading.Whole.commit {r : Reading α β} {h : History α β} (hr : r.Whole h) (first : α)
    (second : β) : r.Whole (h.commit first second) := by
  obtain ⟨v, hv, hsame⟩ := hr
  exact ⟨v, History.mem_versions_commit.mpr (.inr hv), hsame⟩

/-- Later versions have the second stamp of a reading only together with a first stamp no earlier
than that of a version it had before. -/
theorem Reading.Fits.commit {r : Reading α β} {h : History α β} (hr : r.Fits h) (first : α)
    (second : β) : r.Fits (h.commit first second) where
  le := hr.le.trans (h.current_secondStamp_le_next first second)
  whole htorn := (hr.whole htorn).commit first second
  apart := by
    intro htorn v hv hstamp
    rcases History.mem_versions_commit.mp hv with hnext | hold
    · rw [hnext] at hstamp ⊢
      have hsame : h.current.secondStamp = r.secondStamp :=
        le_antisymm ((h.current_secondStamp_le_next first second).trans_eq hstamp) hr.le
      calc r.firstStamp < h.current.firstStamp :=
            hr.apart htorn h.current List.mem_cons_self hsame
        _ ≤ (h.next first second).firstStamp := h.current_firstStamp_le_next first second
    · exact hr.apart htorn v hold hstamp

/-- Once the first half has moved, it stays behind the versions to come. -/
theorem Half.Fits.lt_next {half : Half α} {h : History α β} (hhalf : half.Fits h) {first : α}
    {second : β} (hmoved : (half.commit h first second).moved = true) :
    half.stamp < (h.next first second).firstStamp := by
  cases hbefore : half.moved with
  | true => exact (hhalf.moved hbefore).trans_le (h.current_firstStamp_le_next first second)
  | false =>
    simp only [Half.commit, hbefore, Bool.false_or, decide_eq_true_eq] at hmoved
    rw [(hhalf.still hbefore).2]
    exact History.next_firstStamp_of_ne hmoved

/-- A first half that has not moved is that of the version a commit makes. -/
theorem Half.Fits.eq_next {half : Half α} {h : History α β} (hhalf : half.Fits h) {first : α}
    {second : β} (hmoved : (half.commit h first second).moved = false) :
    half.value = (h.next first second).first ∧ half.stamp = (h.next first second).firstStamp := by
  simp only [Half.commit, Bool.or_eq_false_iff, decide_eq_false_iff_not, not_not] at hmoved
  obtain ⟨hbefore, hfirst⟩ := hmoved
  obtain ⟨hvalue, hstamp⟩ := hhalf.still hbefore
  simp only [History.next, if_pos hfirst]
  exact ⟨hvalue.trans hfirst.symm, hstamp⟩

theorem Half.commit_moved_of_torn {half : Half α} {h : History α β}
    (htorn_moved : half.torn = true → half.moved = true) {first : α} {second : β}
    (htorn : (half.commit h first second).torn = true) :
    (half.commit h first second).moved = true := by
  simp only [Half.commit, Bool.or_eq_true, Bool.and_eq_true] at htorn ⊢
  rcases htorn with hbefore | hnow
  · exact .inl (htorn_moved hbefore)
  · exact hnow.1

theorem Half.Fits.commit {half : Half α} {h : History α β} (hhalf : half.Fits h) (first : α)
    (second : β) : (half.commit h first second).Fits (h.commit first second) where
  still hmoved := hhalf.eq_next hmoved
  moved hmoved := hhalf.lt_next hmoved
  torn_moved htorn := Half.commit_moved_of_torn hhalf.torn_moved htorn
  complete := by
    by_cases hsecond : second = h.current.second
    · -- the second half has kept its stamp, so what was completed before is completed now
      have hkept : (h.next first second).secondStamp = h.current.secondStamp := by
        simp only [History.next, if_pos hsecond]
      have htorn : (half.commit h first second).torn = half.torn := by
        simp only [Half.commit, hsecond, ne_eq, not_true, decide_false, Bool.and_false,
          Bool.or_false]
      have hsame : (half.commit h first second).complete (h.commit first second) =
          half.complete h := by
        change Reading.mk half.value second half.stamp (h.next first second).secondStamp
          (half.commit h first second).torn = _
        rw [hkept, htorn, hsecond]
        rfl
      rw [hsame]
      exact hhalf.complete.commit first second
    · -- the second half is new, so only the new version has its stamp
      have hfresh : ∀ v ∈ h.versions, v.secondStamp ≠ (h.next first second).secondStamp := by
        intro v hv
        exact ((History.stamps_le hv).2.trans_lt (History.next_secondStamp_of_ne hsecond)).ne
      refine ⟨le_rfl, fun htorn ↦ ?_, fun htorn v hv hstamp ↦ ?_⟩
      · change (half.commit h first second).torn = false at htorn
        have hmoved : (half.commit h first second).moved = false := by
          by_contra hmoved
          rw [Bool.not_eq_false] at hmoved
          simp only [Half.commit] at htorn hmoved
          simp only [hmoved, ne_eq, hsecond, not_false_eq_true, decide_true, Bool.and_true,
            Bool.or_true, Bool.true_eq_false] at htorn
        obtain ⟨hvalue, hstamp⟩ := hhalf.eq_next hmoved
        exact ⟨h.next first second, List.mem_cons_self, hvalue.symm, rfl, hstamp.symm, rfl⟩
      · rcases History.mem_versions_commit.mp hv with hnext | hold
        · rw [hnext]
          exact hhalf.lt_next (Half.commit_moved_of_torn hhalf.torn_moved htorn)
        · exact absurd hstamp (hfresh v hold)

end DatumSync.Foundation
