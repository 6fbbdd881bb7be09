import DatumSync.Foundation.ReadCommitted

/-!
# A unique key that transactions claim

A transaction that inserts a key holds it until it ends: another insertion of the key waits for it,
and fails if the key has been committed.  So each key is committed at most once, however the
transactions interleave.
-/

namespace DatumSync.Foundation

variable {P K S : Type*}

/-- The keys that are committed are distinct, and a key that is held has one holder and is not
committed. -/
structure UniqueKey (holds : S → K → Prop) (committed : List K) (phases : P → S) : Prop where
  exclusive : Exclusive holds phases
  fresh : ∀ p k, holds (phases p) k → k ∉ committed
  nodup : committed.Nodup

namespace UniqueKey

variable [DecidableEq P] {holds : S → K → Prop} {committed : List K} {phases : P → S} {p : P}
  {phase : S}

/-- A process that goes on holds nothing that it did not hold. -/
theorem goOn (h : UniqueKey holds committed phases)
    (hphase : ∀ k, holds phase k → holds (phases p) k) :
    UniqueKey holds committed (Function.update phases p phase) where
  exclusive := h.exclusive.update fun k hk ↦ .inl (hphase k hk)
  fresh q k hq := by
    by_cases hqp : q = p
    · rw [hqp, Function.update_self] at hq
      exact h.fresh p k (hphase k hq)
    · rw [Function.update_of_ne hqp] at hq
      exact h.fresh q k hq
  nodup := h.nodup

/-- A key that is neither held nor committed may be claimed. -/
theorem claim (h : UniqueKey holds committed phases) {k : K} (hfree : ∀ q, ¬ holds (phases q) k)
    (hnew : k ∉ committed) (hphase : ∀ other, holds phase other → other = k) :
    UniqueKey holds committed (Function.update phases p phase) where
  exclusive := h.exclusive.update fun other hother ↦ .inr fun q _ ↦ by
    rw [hphase other hother]
    exact hfree q
  fresh q other hq := by
    by_cases hqp : q = p
    · rw [hqp, Function.update_self] at hq
      rw [hphase other hq]
      exact hnew
    · rw [Function.update_of_ne hqp] at hq
      exact h.fresh q other hq
  nodup := h.nodup

/-- The holder of a key commits it and holds nothing more. -/
theorem commit (h : UniqueKey holds committed phases) {k : K} (hholds : holds (phases p) k)
    (hphase : ∀ other, ¬ holds phase other) :
    UniqueKey holds (committed ++ [k]) (Function.update phases p phase) where
  exclusive := h.exclusive.update fun other hother ↦ absurd hother (hphase other)
  fresh q other hq := by
    have hqp : q ≠ p := by
      rintro rfl
      rw [Function.update_self] at hq
      exact hphase other hq
    rw [Function.update_of_ne hqp] at hq
    rw [List.mem_append, List.mem_singleton, not_or]
    refine ⟨h.fresh q other hq, ?_⟩
    rintro rfl
    exact hqp (h.exclusive hq hholds)
  nodup := by
    rw [List.nodup_append]
    refine ⟨h.nodup, List.pairwise_singleton _ k, fun a ha b hb ↦ ?_⟩
    rw [List.mem_singleton] at hb
    rintro rfl
    exact h.fresh p a (hb ▸ hholds) ha

end UniqueKey

end DatumSync.Foundation
