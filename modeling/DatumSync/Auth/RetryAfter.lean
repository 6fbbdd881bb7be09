import DatumSync.Auth.Lockout

/-!
# The seconds a locked-out name is told to wait

The wait is computed from the first of the failures that are fresh.  It is rounded down, and since
a failure is recorded under the moment its login began, the first need not be the oldest.
-/

namespace DatumSync.Auth

open Foundation Python

/-- Seconds until an entry is out of the window. -/
def remaining (window now t : ℚ) : ℚ := window - (now - t)

theorem truncate_of_pos {x : ℚ} (h : 0 < x) : truncate x = ⌊x⌋ := if_neg (not_lt.mpr h.le)

variable (limits : Limits) (hasher : Hasher)

/-- A login that is told to wait is let through when it has waited, if no failure of its name was
recorded in between. -/
def HonestLockout (s : Login) (name : Str) : Prop :=
  ∀ wait, (lockedFor .exact limits s.attempts name s.clock).2 = .ok wait → wait ≠ 0 →
    ∀ i password t later u, s.start .exact limits i name password = some t →
      (loginMachine .exact limits hasher).run t later = some u →
        (u.verified name).filter Verification.failed =
          (t.verified name).filter Verification.failed →
            t.clock + wait ≤ u.clock → (lockedFor .exact limits u.attempts name u.clock).2 = .ok 0

/-- Of the failures that lock a name out, fewer than the limit stay in the window for more than the
whole seconds that the first of them stays, or one second if these are none. -/
def FewFailuresOutlast (s : Login) (name : Str) : Prop :=
  ∀ first rest, fresh .exact limits s.clock (s.attempts.get name) = first :: rest →
    limits.maxAttempts ≤ (first :: rest).length →
      ((first :: rest).countP fun t ↦
        decide (((max 1 ⌊remaining limits.windowSeconds s.clock first⌋ : ℤ) : ℚ) <
          remaining limits.windowSeconds s.clock t)) < limits.maxAttempts

variable {limits hasher} {s t u : Login} {name : Str} {now : ℚ} {attempts : Attempts}

theorem length_fresh (now : ℚ) (wait : ℤ) (times : List ℚ) :
    (fresh .exact limits (now + wait) times).length =
      times.countP fun t ↦ decide ((wait : ℚ) < remaining limits.windowSeconds now t) := by
  rw [fresh, ← List.countP_eq_length_filter]
  refine List.countP_congr fun t _ ↦ ?_
  rw [decide_eq_true_iff, decide_eq_true_iff, remaining, Subtraction.exact]
  dsimp only
  constructor
  · intro h
    linarith
  · intro h
    linarith

theorem remaining_pos {times : List ℚ} {t : ℚ} (h : t ∈ fresh .exact limits now times) :
    0 < remaining limits.windowSeconds now t :=
  sub_pos.mpr (of_decide_eq_true (List.mem_filter.mp h).2)

/-- What a login is told that these failures lock out. -/
theorem lockedFor_refused {first : ℚ} {rest : List ℚ}
    (htimes : fresh .exact limits now (attempts.get name) = first :: rest)
    (hlimit : limits.maxAttempts ≤ (first :: rest).length) :
    (lockedFor .exact limits attempts name now).2 =
      .ok (max 1 ⌊remaining limits.windowSeconds now first⌋) := by
  have hpos : 0 < remaining limits.windowSeconds now first :=
    remaining_pos (htimes ▸ List.mem_cons_self)
  unfold lockedFor
  rw [htimes]
  dsimp only
  rw [if_neg (Nat.not_lt.mpr hlimit), Subtraction.exact]
  dsimp only
  rw [← remaining, truncate_of_pos hpos]

theorem lockedFor_eq_wait {wait : ℤ} (h : (lockedFor .exact limits attempts name now).2 = .ok wait)
    (hwait : wait ≠ 0) : ∃ first rest, fresh .exact limits now (attempts.get name) = first :: rest ∧
      limits.maxAttempts ≤ (first :: rest).length ∧
        wait = max 1 ⌊remaining limits.windowSeconds now first⌋ := by
  cases htimes : fresh .exact limits now (attempts.get name) with
  | nil =>
    unfold lockedFor at h
    rw [htimes] at h
    dsimp only at h
    split_ifs at h
    exact absurd (Except.ok.inj h).symm hwait
  | cons first rest =>
    by_cases hlimit : limits.maxAttempts ≤ (first :: rest).length
    · rw [lockedFor_refused htimes hlimit] at h
      exact ⟨first, rest, rfl, hlimit, (Except.ok.inj h).symm⟩
    · unfold lockedFor at h
      rw [htimes] at h
      dsimp only at h
      rw [if_pos (Nat.not_le.mp hlimit)] at h
      exact absurd (Except.ok.inj h).symm hwait

theorem lockedFor_eq_ok_zero : (lockedFor .exact limits attempts name now).2 = .ok 0 ↔
    (fresh .exact limits now (attempts.get name)).length < limits.maxAttempts := by
  refine ⟨lockedFor_eq_zero .exact limits, fun h ↦ ?_⟩
  unfold lockedFor
  dsimp only
  rw [if_pos h]

/-- The process after a call was told to wait: no more than the table and its phase has changed. -/
def Login.refused (limits : Limits) (s : Login) (i : ℕ) (name : Str) : Login :=
  { s with
    attempts := (lockedFor .exact limits s.attempts name s.clock).1
    calls := Function.update s.calls i .ended }

theorem start_refused {wait : ℤ} {i : ℕ} (password : Str)
    (h : (lockedFor .exact limits s.attempts name s.clock).2 = .ok wait) (hwait : wait ≠ 0)
    (hidle : s.calls i = .idle) :
    s.start .exact limits i name password = some (s.refused limits i name) := by
  rw [Login.start, hidle]
  dsimp only
  split
  · next hzero =>
    rw [h] at hzero
    exact absurd (Except.ok.inj hzero) hwait
  · rfl

theorem idle_of_start {i : ℕ} {password : Str} (h : s.start .exact limits i name password = some t) :
    s.calls i = .idle := by
  rw [Login.start] at h
  split at h
  · next hidle => exact hidle
  · cases h

/-! ## Runs -/

theorem calls_step {a : LoginAction} (h : (loginMachine .exact limits hasher).step s a = some t) :
    t.calls = s.calls ∨ ∃ i phase, t.calls = Function.update s.calls i phase := by
  cases a with
  | tick now =>
    change (if s.clock ≤ now then some { s with clock := now } else none) = some t at h
    split at h
    · rw [← Option.some.inj h]
      exact .inl rfl
    · cases h
  | start i name password =>
    change s.start .exact limits i name password = some t at h
    rw [Login.start] at h
    split at h
    · dsimp only at h
      split at h
      · rw [← Option.some.inj h]
        exact .inr ⟨i, _, rfl⟩
      · rw [← Option.some.inj h]
        exact .inr ⟨i, _, rfl⟩
    · cases h
  | acquire i =>
    change s.acquire i = some t at h
    rw [Login.acquire] at h
    split at h
    · split at h
      · rw [← Option.some.inj h]
        exact .inr ⟨i, _, rfl⟩
      · cases h
    · cases h
  | verify i row =>
    change s.verify .exact limits hasher i row = some t at h
    rw [Login.verify] at h
    split at h
    · split at h
      · rw [← Option.some.inj h]
        exact .inr ⟨i, _, rfl⟩
      · rw [← Option.some.inj h]
        exact .inr ⟨i, _, rfl⟩
    · cases h
  | abort i =>
    change s.abort i = some t at h
    rw [Login.abort] at h
    split at h
    · rw [← Option.some.inj h]
      exact .inr ⟨i, _, rfl⟩
    · rw [← Option.some.inj h]
      exact .inr ⟨i, _, rfl⟩
    · cases h

/-- At any time only finitely many calls have begun. -/
theorem exists_idle {actions : List LoginAction}
    (hrun : (loginMachine .exact limits hasher).run (.init limits) actions = some s) :
    ∃ i, s.calls i = .idle := by
  have hinvariant : ∃ bound, ∀ i, bound ≤ i → s.calls i = .idle := by
    refine (loginMachine .exact limits hasher).invariant
      (I := fun s ↦ ∃ bound, ∀ i, bound ≤ i → s.calls i = .idle) ?_ hrun ⟨0, fun _ _ ↦ rfl⟩
    rintro s a t ⟨bound, hbound⟩ hstep
    rcases calls_step hstep with hcalls | ⟨i, phase, hcalls⟩
    · exact ⟨bound, fun j hj ↦ by rw [hcalls, hbound j hj]⟩
    · refine ⟨max bound (i + 1), fun j hj ↦ ?_⟩
      have hne : j ≠ i := by omega
      rw [hcalls, Function.update_of_ne hne, hbound j (le_trans (le_max_left _ _) hj)]
  obtain ⟨bound, hbound⟩ := hinvariant
  exact ⟨bound, hbound bound le_rfl⟩

theorem run_tick (h : s.clock ≤ now) :
    (loginMachine .exact limits hasher).run s [.tick now] = some { s with clock := now } :=
  (loginMachine .exact limits hasher).run_cons_eq_some.mpr ⟨_, if_pos h, rfl⟩

theorem consistent_run {actions : List LoginAction}
    (hrun : (loginMachine .exact limits hasher).run (.init limits) actions = some s) :
    s.Consistent .exact limits :=
  (loginMachine .exact limits hasher).invariant (fun _ _ _ hs hstep ↦ consistent_step hs hstep) hrun
    consistent_init

/-- The verifications of a name are added to its log. -/
theorem verified_prefix {later : List LoginAction} (ht : t.Consistent .exact limits)
    (hrun : (loginMachine .exact limits hasher).run t later = some u) :
    u.Consistent .exact limits ∧ ∀ name, t.verified name <+: u.verified name := by
  refine (loginMachine .exact limits hasher).invariant
    (I := fun u ↦ u.Consistent .exact limits ∧ ∀ name, t.verified name <+: u.verified name) ?_ hrun
    ⟨ht, fun name ↦ List.prefix_rfl⟩
  rintro s a u ⟨hs, hbegins⟩ hstep
  refine ⟨consistent_step hs hstep, fun name ↦ ?_⟩
  rcases loginStep_cases hstep with hquiet | ⟨i, row, call, account, -, -, -, rfl⟩
  · rw [hquiet.verified]
    exact hbegins name
  · rw [verified_record]
    split_ifs with hname
    · rw [hname]
      exact (hbegins call.name).trans (List.prefix_append _ _)
    · exact hbegins name

/-- Verifications without a failure leave the last failures as they were, or end them. -/
theorem failures_cases {before more : List Verification}
    (h : more.filter Verification.failed = []) :
    streak Verification.failed (before ++ more) = streak Verification.failed before ∨
      streak Verification.failed (before ++ more) = [] := by
  induction more using List.reverseRecOn with
  | nil => exact .inl (by rw [List.append_nil])
  | append_singleton more v ih =>
    refine .inr ?_
    rw [← List.append_assoc]
    refine streak_concat_good ?_
    rw [List.filter_eq_nil_iff] at h
    exact eq_false_of_ne_true (h v (List.mem_append_right _ (List.mem_singleton_self v)))

/-- A lockout is honest exactly when few enough of its failures outlast the wait. -/
theorem honestLockout_iff {actions : List LoginAction}
    (hrun : (loginMachine .exact limits hasher).run (.init limits) actions = some s) (name : Str) :
    HonestLockout limits hasher s name ↔ FewFailuresOutlast limits s name := by
  have hs := consistent_run hrun
  constructor
  · intro hhonest first rest htimes hlimit
    have hwait := lockedFor_refused htimes hlimit
    have hone : 1 ≤ max 1 ⌊remaining limits.windowSeconds s.clock first⌋ := le_max_left 1 _
    have hne : max 1 ⌊remaining limits.windowSeconds s.clock first⌋ ≠ 0 := by omega
    obtain ⟨i, hidle⟩ := exists_idle hrun
    have hlater : s.clock ≤ s.clock +
        (max 1 ⌊remaining limits.windowSeconds s.clock first⌋ : ℤ) := by
      have hcast : (0 : ℚ) ≤ (max 1 ⌊remaining limits.windowSeconds s.clock first⌋ : ℤ) :=
        Int.cast_nonneg (by omega)
      linarith
    have htick := @run_tick limits hasher (s.refused limits i name) _ hlater
    have hfree := hhonest _ hwait hne i [] _ _ _ (start_refused [] hwait hne hidle) htick rfl le_rfl
    rw [lockedFor_eq_ok_zero] at hfree
    change (fresh .exact limits (s.clock + _)
      ((lockedFor .exact limits s.attempts name s.clock).1.get name)).length < _ at hfree
    rw [get_lockedFor, if_pos rfl, htimes, length_fresh] at hfree
    exact hfree
  · intro hfew wait hwait hne i password t later u hstart hlater hquiet hclock
    obtain ⟨first, rest, htimes, hlimit, rfl⟩ := lockedFor_eq_wait hwait hne
    have hroom := hfew first rest htimes hlimit
    have ht := @consistent_step .exact limits hasher s t (.start i name password) hs hstart
    obtain ⟨hu, hbegins⟩ := verified_prefix ht hlater
    rw [start_refused password hwait hne (idle_of_start hstart), Option.some.injEq] at hstart
    rw [lockedFor_eq_ok_zero, hu.agrees name u.clock le_rfl]
    obtain ⟨more, hmore⟩ := hbegins name
    rw [← hmore, List.filter_append, List.append_right_eq_self] at hquiet
    have hcases := @failures_cases (t.verified name) more hquiet
    rw [hmore] at hcases
    rcases hcases with hsame | hnone
    · have hpast : t.clock ≤ u.clock := by
        have hcast : (0 : ℚ) ≤ (max 1 ⌊remaining limits.windowSeconds s.clock first⌋ : ℤ) :=
          Int.cast_nonneg (by omega)
        linarith
      have htable : t.attempts.get name = first :: rest := by
        rw [← hstart]
        change (lockedFor .exact limits s.attempts name s.clock).1.get name = _
        rw [get_lockedFor, if_pos rfl, htimes]
      have hstart' : t.clock = s.clock := by
        rw [← hstart]
        rfl
      rw [Login.failures, hsame]
      change (fresh .exact limits u.clock ((t.failures name).map Verification.stamp)).length < _
      rw [← ht.agrees name u.clock hpast, htable, ← fresh_fresh .exact limits hclock, hstart']
      refine lt_of_le_of_lt ?_ hroom
      rw [← length_fresh]
      exact List.length_filter_le _ _
    · rw [Login.failures, hnone]
      exact (Nat.zero_le _).trans_lt hroom

end DatumSync.Auth
