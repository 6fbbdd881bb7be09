import DatumSync.Auth.RetryAfter
import DatumSync.Ratelimit.Window

/-!
# The seconds a refused account is told to wait

The wait is computed from the first of the recent requests, and rounded up.  In exact time that
request is gone when the wait is over; but the list may hold more requests than the limit allows, if
the limit was lowered after they had been recorded.
-/

namespace DatumSync.Ratelimit

open Auth Foundation Python

/-- A call of `check`; the limit is the one its account has at the moment. -/
structure Request where
  account : ℤ
  limit : Option ℤ
  now : ℚ

def Request.handle (q : Request) (hits : Hits) : Hits × Except Exc ℤ :=
  check .ideal q.account q.limit q.now hits

def afterRequests (hits : Hits) (requests : List Request) : Hits :=
  requests.foldl (fun hits q ↦ (q.handle hits).1) hits

/-- No request of the account is recorded. -/
def Unrecorded (account : ℤ) : Hits → List Request → Prop
  | _, [] => True
  | hits, q :: rest =>
    ¬(q.account = account ∧ records q.limit (fresh .ideal q.now (timesOf hits q.account)) = true) ∧
      Unrecorded account (q.handle hits).1 rest

/-- An account that is told to wait is admitted when it has waited, if nothing of it was recorded in
between. -/
def HonestWait (hits : Hits) (account limit : ℤ) (now : ℚ) : Prop :=
  ∀ wait, (check .ideal account (some limit) now hits).2 = .ok wait → wait ≠ 0 →
    ∀ between later, Unrecorded account (check .ideal account (some limit) now hits).1 between →
      now + wait ≤ later →
        (check .ideal account (some limit) later
          (afterRequests (check .ideal account (some limit) now hits).1 between)).2 = .ok 0

/-- Of the recent requests that refuse another one, fewer than the limit stay in the window for more
than the whole seconds that the first of them stays, and one more. -/
def FewOutlast (hits : Hits) (account limit : ℤ) (now : ℚ) : Prop :=
  ∀ first rest, fresh .ideal now (timesOf hits account) = first :: rest →
    limit ≤ ((first :: rest).length : ℤ) →
      (((first :: rest).countP fun t ↦ decide (((⌊remaining windowSeconds now first⌋ + 1 : ℤ) : ℚ) <
        remaining windowSeconds now t)) : ℤ) < limit

variable {account limit : ℤ} {now later : ℚ} {hits : Hits} {times : List ℚ}

theorem fresh_eq_countP (now : ℚ) (wait : ℤ) (times : List ℚ) :
    (fresh .ideal (now + wait) times).length =
      times.countP fun t ↦ decide ((wait : ℚ) < remaining windowSeconds now t) := by
  rw [fresh, ← List.countP_eq_length_filter]
  refine List.countP_congr fun t _ ↦ ?_
  rw [decide_eq_true_iff, decide_eq_true_iff, remaining, Clock.ideal]
  dsimp only
  constructor
  · intro h
    linarith
  · intro h
    linarith

theorem remaining_pos {t : ℚ} (h : t ∈ fresh .ideal now times) :
    0 < remaining windowSeconds now t := by
  have hrecent := of_decide_eq_true (List.mem_filter.mp h).2
  exact sub_pos.mpr hrecent

/-- What a caller is told whom this many recent requests refuse. -/
theorem check_refused {first : ℚ} {rest : List ℚ}
    (htimes : fresh .ideal now (timesOf hits account) = first :: rest)
    (hlimit : limit ≤ ((first :: rest).length : ℤ)) :
    (check .ideal account (some limit) now hits).2 =
      .ok (⌊remaining windowSeconds now first⌋ + 1) := by
  have hpos : 0 < remaining windowSeconds now first := remaining_pos (htimes ▸ List.mem_cons_self)
  have hfloor : 0 ≤ ⌊remaining windowSeconds now first⌋ := Int.floor_nonneg.mpr hpos.le
  rw [check, checkWith_snd, htimes]
  unfold answer Clock.ideal
  dsimp only
  rw [if_pos hlimit, ← remaining, truncate_of_pos hpos, max_eq_right (by omega)]

theorem check_eq_wait {wait : ℤ} (h : (check .ideal account (some limit) now hits).2 = .ok wait)
    (hwait : wait ≠ 0) : ∃ first rest, fresh .ideal now (timesOf hits account) = first :: rest ∧
      limit ≤ ((first :: rest).length : ℤ) ∧
        wait = ⌊remaining windowSeconds now first⌋ + 1 := by
  have hanswer := h
  rw [check, checkWith_snd] at hanswer
  unfold answer at hanswer
  dsimp only at hanswer
  split_ifs at hanswer with hlimit
  · cases htimes : fresh .ideal now (timesOf hits account) with
    | nil =>
      rw [htimes] at hanswer
      cases hanswer
    | cons first rest =>
      rw [htimes] at hlimit
      rw [check_refused htimes hlimit] at h
      exact ⟨first, rest, rfl, hlimit, (Except.ok.inj h).symm⟩
  · exact absurd (Except.ok.inj hanswer).symm hwait

theorem check_eq_zero : (check .ideal account (some limit) now hits).2 = .ok 0 ↔
    ((fresh .ideal now (timesOf hits account)).length : ℤ) < limit := by
  rw [check, checkWith_snd]
  constructor
  · intro h
    have hadmits := @admits_answer .ideal limit now (fresh .ideal now (timesOf hits account))
    rw [h] at hadmits
    exact of_decide_eq_true hadmits.symm
  · intro h
    unfold answer
    dsimp only
    rw [if_neg (Int.not_le.mpr h)]

/-- A check that records nothing of an account leaves at most what the account had. -/
theorem timesOf_handle {q : Request}
    (h : ¬(q.account = account ∧
      records q.limit (fresh .ideal q.now (timesOf hits q.account)) = true)) :
    (timesOf (q.handle hits).1 account).Sublist (timesOf hits account) := by
  rw [Request.handle, check, checkWith_fst]
  split_ifs with hrecords hnone
  · have hne : account ≠ q.account := fun heq ↦ h ⟨heq.symm, hrecords⟩
    rw [timesOf_insert, if_neg hne]
    rcases @timesOf_evict .ideal q.account account q.now hits with heq | ⟨hnil, _⟩
    · rw [heq]
    · rw [hnil]
      exact List.nil_sublist _
  · exact List.Sublist.refl _
  · rw [timesOf_insert]
    split_ifs with heq
    · rw [heq]
      exact List.filter_sublist
    · exact List.Sublist.refl _

theorem timesOf_afterRequests {between : List Request} (h : Unrecorded account hits between) :
    (timesOf (afterRequests hits between) account).Sublist (timesOf hits account) := by
  induction between generalizing hits with
  | nil => exact List.Sublist.refl _
  | cons q rest ih => exact (ih h.2).trans (timesOf_handle h.1)

/-- The table after a refusal. -/
theorem timesOf_refused {wait : ℤ} (h : (check .ideal account (some limit) now hits).2 = .ok wait)
    (hwait : wait ≠ 0) :
    timesOf (check .ideal account (some limit) now hits).1 account =
      fresh .ideal now (timesOf hits account) := by
  obtain ⟨first, rest, htimes, hlimit, _⟩ := check_eq_wait h hwait
  have hrecords : ¬records (some limit) (fresh .ideal now (timesOf hits account)) = true := by
    rw [htimes, records, Option.any_some, decide_eq_true_eq]
    exact not_lt.mpr hlimit
  rw [check, checkWith_fst, if_neg hrecords, Option.isNone_some, if_neg Bool.false_ne_true,
    timesOf_insert, if_pos rfl]

theorem honestWait_iff (hits : Hits) (account limit : ℤ) (now : ℚ) :
    HonestWait hits account limit now ↔ FewOutlast hits account limit now := by
  constructor
  · intro hhonest first rest htimes hlimit
    have hwait := check_refused htimes hlimit
    have hfloor : 0 ≤ ⌊remaining windowSeconds now first⌋ :=
      Int.floor_nonneg.mpr (remaining_pos (htimes ▸ List.mem_cons_self)).le
    have hne : ⌊remaining windowSeconds now first⌋ + 1 ≠ 0 := by omega
    have hadmitted := hhonest _ hwait hne [] _ trivial le_rfl
    rw [afterRequests, List.foldl_nil, check_eq_zero, timesOf_refused hwait hne, htimes,
      fresh_eq_countP] at hadmitted
    exact hadmitted
  · intro hfew wait hwait hne between later hunrecorded hlater
    obtain ⟨first, rest, htimes, hlimit, rfl⟩ := check_eq_wait hwait hne
    have hroom := hfew first rest htimes hlimit
    have hkept := timesOf_afterRequests hunrecorded
    rw [timesOf_refused hwait hne, htimes] at hkept
    have hle : (fresh .ideal later (timesOf
        (afterRequests (check .ideal account (some limit) now hits).1 between) account)).length ≤
          (fresh .ideal (now + (⌊remaining windowSeconds now first⌋ + 1 : ℤ))
            (first :: rest)).length := by
      refine (hkept.filter _).length_le.trans ?_
      change (fresh .ideal later (first :: rest)).length ≤ _
      rw [← fresh_fresh hlater]
      exact List.length_filter_le _ _
    rw [fresh_eq_countP] at hle
    rw [check_eq_zero]
    omega

/-- What refused callers are told is honest, in every state of the two tables, exactly when few
enough of the entries that refuse them outlast the wait. -/
theorem retryAfter_honest_iff {limits : Limits} {hasher : Hasher} {actions : List LoginAction}
    {s : Login} (hrun : (loginMachine .exact limits hasher).run (.init limits) actions = some s)
    (requests : List Request) :
    (∀ account limit now, HonestWait (afterRequests ∅ requests) account limit now ↔
      FewOutlast (afterRequests ∅ requests) account limit now) ∧
      ∀ name, HonestLockout limits hasher s name ↔ FewFailuresOutlast limits s name :=
  ⟨honestWait_iff (afterRequests ∅ requests), honestLockout_iff hrun⟩

/-- Five logins with a wrong password. -/
def stubborn : List LoginAction :=
  (List.range 5).map (fun i ↦ .start i (str "ops") (str "guess")) ++
    (List.range 5).flatMap fun i ↦ [.acquire i, .verify i none]

theorem run_stubborn : ∃ s,
    (loginMachine .exact {} refusing).run (.init {}) (stubborn ++ [.tick (1 / 2)]) = some s ∧
      s.attempts.get (str "ops") = [0, 0, 0, 0, 0] ∧ s.clock = 1 / 2 := by
  obtain ⟨s, hrun, hattempts, hclock⟩ : ∃ s,
      (loginMachine .exact {} refusing).run (.init {}) stubborn = some s ∧
        s.attempts.get (str "ops") = [0, 0, 0, 0, 0] ∧ s.clock = 0 := ⟨_, rfl, rfl, rfl⟩
  have htick : (loginMachine .exact {} refusing).run s [.tick (1 / 2)] =
      some { s with clock := 1 / 2 } := run_tick (by rw [hclock]; norm_num)
  exact ⟨{ s with clock := 1 / 2 },
    (loginMachine .exact {} refusing).run_append_eq_some.mpr ⟨s, hrun, htick⟩, hattempts, rfl⟩

/-- Three requests under a limit of three, before it is lowered. -/
def lowered : List Request := [⟨1, some 3, 0⟩, ⟨1, some 3, 10⟩, ⟨1, some 3, 20⟩]

theorem retryAfter_honest_iff_stubborn : ∃ s,
    (loginMachine .exact {} refusing).run (.init {}) (stubborn ++ [.tick (1 / 2)]) = some s ∧
      (∀ account limit now, HonestWait (afterRequests ∅ lowered) account limit now ↔
        FewOutlast (afterRequests ∅ lowered) account limit now) ∧
        ∀ name, HonestLockout {} refusing s name ↔ FewFailuresOutlast {} s name := by
  obtain ⟨s, hrun, _⟩ := run_stubborn
  exact ⟨s, hrun, retryAfter_honest_iff hrun lowered⟩

/-- After the limit was lowered to one the wait is for the first request only; and a name that half
a second after its failures is told to wait for 899 seconds is locked for half a second more. -/
theorem retryAfter_not_honest :
    (check .ideal 1 (some 1) 20 (afterRequests ∅ lowered)).2 = .ok 41 ∧
      ¬ HonestWait (afterRequests ∅ lowered) 1 1 20 ∧
      ∃ s, (loginMachine .exact {} refusing).run (.init {}) (stubborn ++ [.tick (1 / 2)]) = some s ∧
        (lockedFor .exact {} s.attempts (str "ops") s.clock).2 = .ok 899 ∧
          ¬ HonestLockout {} refusing s (str "ops") := by
  have htimes : timesOf (afterRequests ∅ lowered) 1 = [0, 10, 20] := by decide +kernel
  refine ⟨by decide +kernel, fun hhonest ↦ ?_, ?_⟩
  · have hfresh : fresh .ideal 20 [0, 10, 20] = [0, 10, 20] := by decide +kernel
    have hfew := (honestWait_iff _ _ _ _).mp hhonest 0 [10, 20] (by rw [htimes, hfresh])
      (by decide)
    exact absurd hfew (by decide +kernel)
  · obtain ⟨s, hrun, hattempts, hclock⟩ := run_stubborn
    have hfresh : Auth.fresh .exact {} s.clock (s.attempts.get (str "ops")) = [0, 0, 0, 0, 0] := by
      rw [hattempts, hclock]
      decide +kernel
    refine ⟨s, hrun, ?_, fun hhonest ↦ ?_⟩
    · rw [lockedFor_refused hfresh (by decide), hclock]
      decide +kernel
    · have hfew := (honestLockout_iff hrun _).mp hhonest 0 [0, 0, 0, 0] hfresh (by decide)
      rw [hclock] at hfew
      exact absurd hfew (by decide +kernel)

end DatumSync.Ratelimit
