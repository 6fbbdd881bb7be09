import DatumSync.Auth.Lockout
import DatumSync.Foundation.KeyedTable
import DatumSync.Python.Doubles

/-!
# The request rate of an account

`check` records a request under its moment unless the account has used up its limit within the last
minute.  A request that is refused is not recorded.  When a new account comes to a table that is
full, the accounts without a recent request are dropped.

The moments are floats, and so are their differences: what is 60 seconds after rounding is no longer
within the minute.  The definitions take the subtraction as a parameter, for floats and for exact
time.
-/

namespace DatumSync.Ratelimit

open Auth Foundation Python

abbrev Hits := Table ℤ (List ℚ)

def maxKeys : ℕ := 10000

def windowSeconds : ℚ := 60

/-- How moments are subtracted.  A difference is below the 60 seconds just when the exact one is
below the width. -/
structure Clock where
  minus : ℚ → ℚ → ℚ
  width : ℚ
  minus_lt : ∀ now t, minus now t < windowSeconds ↔ now - t < width

/-- Exact time. -/
def Clock.ideal : Clock where
  minus now t := now - t
  width := windowSeconds
  minus_lt _ _ := Iff.rfl

/-- The moments and differences of `time.monotonic()`.  From the midpoint below 60 on a difference
is rounded to 60. -/
def Clock.doubles : Clock where
  minus := minusDouble
  width := windowSeconds - 1 / 2 ^ 48
  minus_lt now t := by
    have h := roundDouble_lt_iff (m := 15 * 2 ^ 49) (k := -47) (by norm_num) (by norm_num)
      (by norm_num) (by norm_num) (by norm_num) (now - t)
    norm_num at h
    rw [minusDouble, windowSeconds, h]
    norm_num

variable (clock : Clock)

/-- `[t for t in times if now - t < WINDOW_SECONDS]` -/
def fresh (now : ℚ) (times : List ℚ) : List ℚ :=
  times.filter fun t ↦ decide (clock.minus now t < windowSeconds)

/-- `_hits.get(account_id, ())` -/
def timesOf (hits : Hits) (account : ℤ) : List ℚ := (hits.lookup account).getD []

/-- The eviction pass, for an account that has no entry. -/
def evict (account : ℤ) (now : ℚ) (hits : Hits) : Hits :=
  if (hits.lookup account).isNone ∧ maxKeys ≤ hits.keys.length then
    Table.keep (fun _ times ↦ times.any fun t ↦ decide (clock.minus now t < windowSeconds)) hits
  else hits

/-- `check` with any other pass in place of the eviction. -/
def checkWith (pass : ℤ → ℚ → Hits → Hits) (account : ℤ) (limit : Option ℤ) (now : ℚ)
    (hits : Hits) : Hits × Except Exc ℤ :=
  match limit with
  | none => (hits, .ok 0)
  | some limit =>
    let times := fresh clock now (timesOf hits account)
    if limit ≤ times.length then
      match times with
      | [] => (hits.insert account times,
          .error (.raised .otherError (str "list index out of range")))
      | first :: _ => (hits.insert account times,
          .ok (max 1 (truncate (clock.minus windowSeconds (clock.minus now first)) + 1)))
    else ((pass account now hits).insert account (times ++ [now]), .ok 0)

def check : ℤ → Option ℤ → ℚ → Hits → Hits × Except Exc ℤ := checkWith clock (evict clock)

/-- What `check` answers an account with these recent requests. -/
def answer (limit : Option ℤ) (now : ℚ) (times : List ℚ) : Except Exc ℤ :=
  match limit with
  | none => .ok 0
  | some limit =>
    if limit ≤ times.length then
      match times with
      | [] => .error (.raised .otherError (str "list index out of range"))
      | first :: _ => .ok (max 1 (truncate (clock.minus windowSeconds (clock.minus now first)) + 1))
    else .ok 0

def records (limit : Option ℤ) (times : List ℚ) : Bool :=
  limit.any fun limit ↦ decide ((times.length : ℤ) < limit)

variable {clock} {pass : ℤ → ℚ → Hits → Hits} {account other : ℤ} {limit : Option ℤ} {now later : ℚ}
  {hits : Hits}

theorem checkWith_snd : (checkWith clock pass account limit now hits).2 =
    answer clock limit now (fresh clock now (timesOf hits account)) := by
  unfold checkWith answer
  cases limit with
  | none => rfl
  | some limit =>
    dsimp only
    split_ifs
    · cases fresh clock now (timesOf hits account) with
      | nil => rfl
      | cons first rest => rfl
    · rfl

/-- The table after a check, by what it answers. -/
theorem checkWith_fst : (checkWith clock pass account limit now hits).1 =
    if records limit (fresh clock now (timesOf hits account)) then
      (pass account now hits).insert account (fresh clock now (timesOf hits account) ++ [now])
    else if limit.isNone then hits
    else hits.insert account (fresh clock now (timesOf hits account)) := by
  unfold checkWith records
  cases limit with
  | none => rfl
  | some limit =>
    rw [Option.any_some, Option.isNone_some, if_neg Bool.false_ne_true]
    dsimp only
    by_cases h : limit ≤ (fresh clock now (timesOf hits account)).length
    · have hnot :
          ¬decide (((fresh clock now (timesOf hits account)).length : ℤ) < limit) = true := by
        simpa using h
      rw [if_pos h, if_neg hnot]
      cases fresh clock now (timesOf hits account) with
      | nil => rfl
      | cons first rest => rfl
    · rw [if_neg h, if_pos (decide_eq_true (Int.not_le.mp h))]

theorem timesOf_insert (times : List ℚ) :
    timesOf (hits.insert account times) other = if other = account then times
      else timesOf hits other := by
  unfold timesOf
  split_ifs with h
  · rw [h, AList.lookup_insert, Option.getD_some]
  · rw [AList.lookup_insert_ne h]

theorem timesOf_evict : timesOf (evict clock account now hits) other = timesOf hits other ∨
    timesOf (evict clock account now hits) other = [] ∧
      fresh clock now (timesOf hits other) = [] := by
  unfold evict
  split_ifs
  · unfold timesOf
    rw [Table.lookup_keep]
    cases hits.lookup other with
    | none => exact .inl rfl
    | some times =>
      rw [Option.filter_some]
      split_ifs with hrecent
      · exact .inl rfl
      · refine .inr ⟨rfl, List.filter_eq_nil_iff.mpr fun t ht hfresh ↦ hrecent ?_⟩
        exact List.any_eq_true.mpr ⟨t, ht, hfresh⟩
  · exact .inl rfl

/-- The recent moments of the table are those within the width. -/
theorem fresh_eq_recent (now : ℚ) (times : List ℚ) :
    fresh clock now times = recent id clock.width now times := by
  refine List.filter_congr fun t _ ↦ ?_
  rw [decide_eq_decide]
  exact clock.minus_lt now t

theorem fresh_append (now : ℚ) (times more : List ℚ) :
    fresh clock now (times ++ more) = fresh clock now times ++ fresh clock now more :=
  List.filter_append ..

theorem fresh_fresh (h : now ≤ later) (times : List ℚ) :
    fresh clock later (fresh clock now times) = fresh clock later times := by
  rw [fresh_eq_recent, fresh_eq_recent, fresh_eq_recent]
  exact recent_recent h times

/-- A pass that drops nothing which is recent, then or later. -/
def Harmless (clock : Clock) (pass : ℤ → ℚ → Hits → Hits) : Prop :=
  ∀ account now hits other later, now ≤ later →
    fresh clock later (timesOf (pass account now hits) other) =
      fresh clock later (timesOf hits other)

theorem harmless_evict : Harmless clock (evict clock) := by
  intro account now hits other later h
  rcases @timesOf_evict clock account other now hits with heq | ⟨hnil, hstale⟩
  · rw [heq]
  · rw [hnil, ← fresh_fresh h (timesOf hits other), hstale]

theorem harmless_keep : Harmless clock fun _ _ hits ↦ hits := fun _ _ _ _ _ _ ↦ rfl

/-- What a check leaves of the recent requests of every account. -/
theorem fresh_checkWith (hpass : Harmless clock pass) (h : now ≤ later) :
    fresh clock later (timesOf (checkWith clock pass account limit now hits).1 other) =
      fresh clock later (timesOf hits other) ++
        if other = account ∧ records limit (fresh clock now (timesOf hits account)) then
          fresh clock later [now] else [] := by
  rw [checkWith_fst]
  by_cases hrecords : records limit (fresh clock now (timesOf hits account)) = true
  · rw [if_pos hrecords, timesOf_insert]
    by_cases hother : other = account
    · rw [if_pos hother, if_pos ⟨hother, hrecords⟩, fresh_append, fresh_fresh h, hother]
    · have hnot :
          ¬(other = account ∧ records limit (fresh clock now (timesOf hits account)) = true) :=
        fun hand ↦ hother hand.1
      rw [if_neg hother, if_neg hnot, hpass account now hits other later h, List.append_nil]
  · have hnot :
        ¬(other = account ∧ records limit (fresh clock now (timesOf hits account)) = true) :=
      fun hand ↦ hrecords hand.2
    rw [if_neg hrecords, if_neg hnot, List.append_nil]
    split_ifs
    · rfl
    · rw [timesOf_insert]
      split_ifs with hother
      · rw [fresh_fresh h, hother]
      · rfl

end DatumSync.Ratelimit
