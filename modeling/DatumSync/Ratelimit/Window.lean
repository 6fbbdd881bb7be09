import DatumSync.Ratelimit

/-!
# The window of the rate limit is exact

The recent requests in the table are the recent ones of all that were ever admitted, for every
account and after every sequence of calls in order of time.  So what the table has forgotten, the
refusals and the calls of other accounts make no difference to an answer.  The window is as wide as
the subtraction of the moments makes it, which for floats is a little less than 60 seconds.
-/

namespace DatumSync.Ratelimit

open Foundation Python

/-- A request of an account, at its moment. -/
structure Call where
  account : ℤ
  now : ℚ
  deriving DecidableEq

/-- What `rate_limit` makes of an answer: a wait of zero is none. -/
def admits : Except Exc ℤ → Bool
  | .ok wait => wait == 0
  | .error _ => false

variable (clock : Clock) (pass : ℤ → ℚ → Hits → Hits) (limits : ℤ → ℤ)

/-- One call, with the fixed limit of its account. -/
def serve (c : Call) (hits : Hits) : Hits × Except Exc ℤ :=
  checkWith clock pass c.account (some (limits c.account)) c.now hits

def after (hits : Hits) (calls : List Call) : Hits :=
  calls.foldl (fun hits c ↦ (serve clock pass limits c hits).1) hits

def log : Hits → List Call → List (Call × Except Exc ℤ)
  | _, [] => []
  | hits, c :: rest =>
    (c, (serve clock pass limits c hits).2) :: log (serve clock pass limits c hits).1 rest

/-- The moments of the requests of an account that were admitted. -/
def admitted (account : ℤ) (calls : List Call) : List ℚ :=
  ((log clock pass limits ∅ calls).filter fun entry ↦
    entry.1.account == account && admits entry.2).map fun entry ↦ entry.1.now

/-- The answers that an account gets. -/
def answersFor (account : ℤ) (hits : Hits) (calls : List Call) : List (Except Exc ℤ) :=
  ((log clock pass limits hits calls).filter fun entry ↦ entry.1.account == account).map Prod.snd

def InOrder (calls : List Call) : Prop := calls.Pairwise fun c d ↦ c.now ≤ d.now

/-- What is said of a window of this width. -/
structure Exact (width : ℚ) (calls : List Call) : Prop where
  atMost : ∀ account start, (((admitted clock (evict clock) limits account calls).countP fun t ↦
    decide (start ≤ t ∧ t < start + width)) : ℤ) ≤ limits account
  refused : ∀ before c rest, calls = before ++ c :: rest →
    admits (serve clock (evict clock) limits c
      (after clock (evict clock) limits ∅ before)).2 = false →
      limits c.account ≤ ((admitted clock (evict clock) limits c.account before).countP fun t ↦
        decide (c.now - width < t ∧ t ≤ c.now))
  unmoved : ∀ before c rest account, calls = before ++ c :: rest →
    (c.account ≠ account ∨ admits (serve clock (evict clock) limits c
      (after clock (evict clock) limits ∅ before)).2 = false) →
      answersFor clock (evict clock) limits account
          (after clock (evict clock) limits ∅ (before ++ [c])) rest =
        answersFor clock (evict clock) limits account
          (after clock (evict clock) limits ∅ before) rest
  evicted : log clock (evict clock) limits ∅ calls =
    log clock (fun _ _ hits ↦ hits) limits ∅ calls

variable {clock pass limits} {hits : Hits} {calls : List Call} {c : Call}

theorem admits_answer {limit : ℤ} {now : ℚ} {times : List ℚ} :
    admits (answer clock (some limit) now times) = records (some limit) times := by
  unfold answer records
  dsimp only
  by_cases h : limit ≤ times.length
  · rw [if_pos h, Option.any_some, decide_eq_false (Int.not_lt.mpr h)]
    cases times with
    | nil => rfl
    | cons first rest =>
      rw [admits, beq_eq_false_iff_ne]
      have hone := le_max_left 1
        (Auth.truncate (clock.minus windowSeconds (clock.minus now first)) + 1)
      exact fun hzero ↦ absurd (hzero ▸ hone) (by decide)
  · rw [if_neg h, Option.any_some, decide_eq_true (Int.not_le.mp h)]
    rfl

theorem admits_serve : admits (serve clock pass limits c hits).2 =
    records (some (limits c.account)) (fresh clock c.now (timesOf hits c.account)) := by
  rw [serve, checkWith_snd, admits_answer]

theorem after_concat : after clock pass limits hits (calls ++ [c]) =
    (serve clock pass limits c (after clock pass limits hits calls)).1 := by
  rw [after, List.foldl_concat]
  rfl

theorem log_concat : log clock pass limits hits (calls ++ [c]) =
    log clock pass limits hits calls ++
      [(c, (serve clock pass limits c (after clock pass limits hits calls)).2)] := by
  induction calls generalizing hits with
  | nil => rfl
  | cons d rest ih =>
    rw [List.cons_append, log, log, ih, List.cons_append]
    rfl

theorem mem_of_mem_log {entry : Call × Except Exc ℤ}
    (h : entry ∈ log clock pass limits hits calls) : entry.1 ∈ calls := by
  induction calls generalizing hits with
  | nil => cases h
  | cons c rest ih =>
    rcases List.mem_cons.mp h with rfl | h
    · exact List.mem_cons_self
    · exact List.mem_cons_of_mem c (ih h)

theorem admitted_concat (account : ℤ) : admitted clock pass limits account (calls ++ [c]) =
    admitted clock pass limits account calls ++
      if account = c.account ∧
          admits (serve clock pass limits c (after clock pass limits ∅ calls)).2 then
        [c.now] else [] := by
  rw [admitted, log_concat, List.filter_append, List.map_append, ← admitted]
  congr 1
  by_cases h : account = c.account ∧
      admits (serve clock pass limits c (after clock pass limits ∅ calls)).2
  · rw [if_pos h, List.filter_cons_of_pos (by simp [h])]
    rfl
  · rw [if_neg h, List.filter_cons_of_neg ?_]
    · rfl
    · rw [Bool.and_eq_true, beq_iff_eq]
      exact fun hand ↦ h ⟨hand.1.symm, hand.2⟩

/-- Of the admitted requests of an account the table holds those that are recent. -/
theorem fresh_after (hpass : Harmless clock pass) (hsorted : InOrder calls) (account : ℤ)
    {later : ℚ} (hlater : ∀ c ∈ calls, c.now ≤ later) :
    fresh clock later (timesOf (after clock pass limits ∅ calls) account) =
      fresh clock later (admitted clock pass limits account calls) := by
  induction calls using List.reverseRecOn generalizing later with
  | nil => rfl
  | append_singleton calls c ih =>
    unfold InOrder at hsorted
    rw [List.pairwise_append] at hsorted
    have hbefore : ∀ d ∈ calls, d.now ≤ c.now := fun d hd ↦
      hsorted.2.2 d hd c (List.mem_singleton_self c)
    have hle : c.now ≤ later := hlater c (List.mem_append_right _ (List.mem_singleton_self c))
    rw [after_concat, serve, fresh_checkWith hpass hle, admitted_concat, fresh_append,
      ih hsorted.1 fun d hd ↦ (hbefore d hd).trans hle, admits_serve]
    congr 1
    split_ifs
    · rfl
    · rfl

/-- At most as many requests as the limit allows are admitted in a half-open window. -/
theorem countP_admitted_le (hpass : Harmless clock pass) (hsorted : InOrder calls) {account : ℤ}
    (hlimit : 1 ≤ limits account) (start : ℚ) :
    ((admitted clock pass limits account calls).countP fun t ↦
      decide (start ≤ t ∧ t < start + clock.width)) ≤ (limits account).toNat := by
  induction calls using List.reverseRecOn with
  | nil => exact Nat.zero_le _
  | append_singleton calls c ih =>
    unfold InOrder at hsorted
    rw [List.pairwise_append] at hsorted
    have hbefore : ∀ d ∈ calls, d.now ≤ c.now := fun d hd ↦
      hsorted.2.2 d hd c (List.mem_singleton_self c)
    rw [admitted_concat]
    split_ifs with h
    · obtain ⟨rfl, hadmits⟩ := h
      refine countP_window_concat (ih hsorted.1) ?_
      rw [admits_serve, fresh_after hpass hsorted.1 c.account hbefore, records, Option.any_some,
        decide_eq_true_eq] at hadmits
      have hlength : (fresh clock c.now (admitted clock pass limits c.account calls)).length <
          (limits c.account).toNat := by omega
      rw [fresh_eq_recent] at hlength
      exact hlength
    · rw [List.append_nil]
      exact ih hsorted.1

/-- A request is refused for the admitted ones of its account within the window before it. -/
theorem le_countP_of_refused (hpass : Harmless clock pass) {before : List Call}
    (hsorted : InOrder (before ++ [c]))
    (h : admits (serve clock pass limits c (after clock pass limits ∅ before)).2 = false) :
    limits c.account ≤ ((admitted clock pass limits c.account before).countP fun t ↦
      decide (c.now - clock.width < t ∧ t ≤ c.now)) := by
  unfold InOrder at hsorted
  rw [List.pairwise_append] at hsorted
  have hbefore : ∀ d ∈ before, d.now ≤ c.now := fun d hd ↦
    hsorted.2.2 d hd c (List.mem_singleton_self c)
  have hpast : ∀ t ∈ admitted clock pass limits c.account before, t ≤ c.now := by
    intro t ht
    obtain ⟨entry, hentry, rfl⟩ := List.mem_map.mp ht
    exact hbefore _ (mem_of_mem_log (List.mem_of_mem_filter hentry))
  rw [admits_serve, fresh_after hpass hsorted.1 c.account hbefore, records, Option.any_some,
    decide_eq_false_iff_not, not_lt, fresh_eq_recent, recent, ← List.countP_eq_length_filter] at h
  refine h.trans (Int.ofNat_le.mpr (List.countP_mono_left fun t ht hrecent ↦ ?_))
  rw [decide_eq_true_iff] at hrecent ⊢
  exact ⟨sub_lt_comm.mp hrecent, hpast t ht⟩

/-! ## What makes no difference -/

/-- From a moment on two tables hold the same recent requests of an account. -/
def Agree (clock : Clock) (account : ℤ) (since : ℚ) (first second : Hits) : Prop :=
  ∀ later, since ≤ later →
    fresh clock later (timesOf first account) = fresh clock later (timesOf second account)

/-- Tables that agree on some accounts give the calls of these accounts the same answers, whatever
is called for the others and whichever pass is made. -/
theorem log_congr {pass' : ℤ → ℚ → Hits → Hits} (hpass : Harmless clock pass)
    (hpass' : Harmless clock pass') (accounts : ℤ → Bool) {since : ℚ} {first second : Hits}
    (hsorted : InOrder calls) (hsince : ∀ d ∈ calls, since ≤ d.now)
    (h : ∀ account, accounts account = true → Agree clock account since first second) :
    (log clock pass limits first calls).filter (fun entry ↦ accounts entry.1.account) =
      (log clock pass' limits second calls).filter fun entry ↦ accounts entry.1.account := by
  induction calls generalizing since first second with
  | nil => rfl
  | cons c rest ih =>
    unfold InOrder at hsorted
    rw [List.pairwise_cons] at hsorted
    rw [List.forall_mem_cons] at hsince
    have hnext : ∀ account, accounts account = true →
        Agree clock account c.now (serve clock pass limits c first).1
          (serve clock pass' limits c second).1 := by
      intro account haccount later hlater
      rw [serve, serve, fresh_checkWith hpass hlater, fresh_checkWith hpass' hlater,
        h account haccount later (hsince.1.trans hlater)]
      congr 1
      by_cases hsame : account = c.account
      · rw [← hsame, h account haccount c.now hsince.1]
      · rw [if_neg fun hand ↦ hsame hand.1, if_neg fun hand ↦ hsame hand.1]
    have hrest := ih hsorted.2 hsorted.1 hnext
    rw [log, log]
    by_cases haccount : accounts c.account = true
    · rw [List.filter_cons_of_pos (by exact haccount), List.filter_cons_of_pos (by exact haccount),
        hrest]
      have hanswer : (serve clock pass limits c first).2 =
          (serve clock pass' limits c second).2 := by
        rw [serve, serve, checkWith_snd, checkWith_snd, h c.account haccount c.now hsince.1]
      rw [hanswer]
    · rw [List.filter_cons_of_neg (by exact haccount), List.filter_cons_of_neg (by exact haccount),
        hrest]

/-- A refused call, or one of another account, is as if it had not been made. -/
theorem answersFor_unmoved (hpass : Harmless clock pass) {account : ℤ} {rest : List Call}
    (hsorted : InOrder (c :: rest))
    (h : c.account ≠ account ∨ admits (serve clock pass limits c hits).2 = false) :
    answersFor clock pass limits account (serve clock pass limits c hits).1 rest =
      answersFor clock pass limits account hits rest := by
  unfold InOrder at hsorted
  rw [List.pairwise_cons] at hsorted
  have hagree : Agree clock account c.now (serve clock pass limits c hits).1 hits := by
    intro later hlater
    rw [serve, fresh_checkWith hpass hlater, if_neg ?_, List.append_nil]
    rintro ⟨rfl, hrecords⟩
    rw [admits_serve, hrecords] at h
    exact h.elim (fun hne ↦ hne rfl) (fun hfalse ↦ nomatch hfalse)
  rw [answersFor, answersFor]
  congr 1
  refine log_congr hpass hpass (fun a ↦ a == account) hsorted.2 hsorted.1 fun a ha ↦ ?_
  rw [eq_of_beq ha]
  exact hagree

/-- For calls in order of time and limits of at least one a window of the clock's width is exact. -/
theorem exact_of_inOrder (clock : Clock) (hlimits : ∀ account, 1 ≤ limits account)
    (hsorted : InOrder calls) : Exact clock limits clock.width calls where
  atMost account start := by
    have h := countP_admitted_le (@harmless_evict clock) hsorted (hlimits account) start
    have hlimit := hlimits account
    omega
  refused before c rest hcalls hrefused := by
    refine le_countP_of_refused harmless_evict (hsorted.sublist ?_) hrefused
    rw [hcalls]
    exact (List.singleton_sublist.mpr List.mem_cons_self).append_left before
  unmoved before c rest account hcalls h := by
    rw [after_concat]
    refine answersFor_unmoved harmless_evict (hsorted.sublist ?_) h
    rw [hcalls]
    exact List.sublist_append_right _ _
  evicted := by
    cases calls with
    | nil => rfl
    | cons c rest =>
      have hsince : ∀ d ∈ c :: rest, c.now ≤ d.now := by
        rw [List.forall_mem_cons]
        exact ⟨le_rfl, (List.pairwise_cons.mp hsorted).1⟩
      have h : (log clock (evict clock) limits ∅ (c :: rest)).filter (fun _ ↦ true) =
          (log clock (fun _ _ hits ↦ hits) limits ∅ (c :: rest)).filter fun _ ↦ true :=
        log_congr harmless_evict harmless_keep (fun _ ↦ true) hsorted hsince fun _ _ _ _ ↦ rfl
      rw [List.filter_eq_self.mpr fun _ _ ↦ rfl, List.filter_eq_self.mpr fun _ _ ↦ rfl] at h
      exact h

/-- For moments that are floats the window is exact if it is a little narrower than 60 seconds: by
half the distance from 60 to the double below it. -/
theorem exact_window (hlimits : ∀ account, 1 ≤ limits account) (hsorted : InOrder calls) :
    Exact .doubles limits (windowSeconds - 1 / 2 ^ 48) calls :=
  exact_of_inOrder .doubles hlimits hsorted

/-- Two accounts with a limit of one; the second request of the first comes too early. -/
theorem exact_window_two :
    (∀ account : ℤ, 1 ≤ (fun _ ↦ 1 : ℤ → ℤ) account) ∧
      InOrder [⟨1, 0⟩, ⟨2, 30⟩, ⟨1, 30⟩, ⟨1, 60⟩] ∧
      Exact .doubles (fun _ ↦ 1) (windowSeconds - 1 / 2 ^ 48)
        [⟨1, 0⟩, ⟨2, 30⟩, ⟨1, 30⟩, ⟨1, 60⟩] := by
  have hsorted : InOrder [⟨1, 0⟩, ⟨2, 30⟩, ⟨1, 30⟩, ⟨1, 60⟩] := by
    unfold InOrder
    decide +kernel
  exact ⟨fun _ ↦ le_rfl, hsorted, exact_window (fun _ ↦ le_rfl) hsorted⟩

/-- Two requests at 0.3 and 60.3 seconds. -/
def roundedApart : List Call := [⟨1, roundDouble (3 / 10)⟩, ⟨1, roundDouble (603 / 10)⟩]

/-- The doubles nearest to 0.3 and to 60.3 are less than 60 apart, and their difference is 60.0, so
both are admitted under a limit of one. -/
theorem roundedApart_not_exact :
    InOrder roundedApart ∧ ¬ Exact .doubles (fun _ ↦ 1) windowSeconds roundedApart := by
  have hsorted : InOrder roundedApart := by
    unfold InOrder
    decide +kernel
  refine ⟨hsorted, fun hexact ↦ ?_⟩
  have hboth : ((admitted .doubles (evict .doubles) (fun _ ↦ 1) 1 roundedApart).countP fun t ↦
      decide (roundDouble (3 / 10) ≤ t ∧ t < roundDouble (3 / 10) + windowSeconds)) = 2 := by
    decide +kernel
  have hone := hexact.atMost 1 (roundDouble (3 / 10))
  rw [hboth] at hone
  exact absurd hone (by decide)

end DatumSync.Ratelimit
