import DatumSync.Errors
import DatumSync.Foundation.Machine
import DatumSync.Foundation.SlidingWindow
import DatumSync.Python.Dict
import DatumSync.Python.Doubles
import Mathlib.Algebra.Order.Ring.Rat
import Mathlib.Data.Rat.Floor

/-!
# The lockout of the consent screen

`authenticate_password` checks the failures recorded for a name before it waits for a slot of
`_verify_slots` and for the database, and records its own failure, under the moment it began, after
both.  Any number of calls are in flight, each at its own suspension point.

What the check cannot see is the calls that are past it and in flight, and the failures that it finds
out of the window because their logins began before it.  The names of the first are kept with the
state, so that the room the check leaves can be compared with what it does not see.
-/

namespace DatumSync.Auth

open Foundation Python

/-- `PASSWORD_MAX_ATTEMPTS`, `PASSWORD_WINDOW_SECONDS` and `PASSWORD_MAX_CONCURRENT` -/
structure Limits where
  maxAttempts : ℕ := 5
  windowSeconds : ℤ := 900
  maxConcurrent : ℕ := 4

def attemptsMaxKeys : ℕ := 10000

/-! ## The table of failures -/

structure Attempts where
  items : List (Str × List ℚ)
  nodup : (items.map Prod.fst).Nodup

namespace Attempts

def empty : Attempts := ⟨[], List.nodup_nil⟩

/-- `_attempts.get(name, [])` -/
def get (a : Attempts) (name : Str) : List ℚ := (a.items.lookup name).getD []

/-- `_attempts[name] = times` -/
def set (a : Attempts) (name : Str) (times : List ℚ) : Attempts :=
  ⟨setItem a.items name times, setItem_nodup a.nodup name times⟩

def keep (a : Attempts) (p : Str × List ℚ → Bool) : Attempts :=
  ⟨a.items.filter p, a.nodup.sublist (List.filter_sublist.map _)⟩

/-- `_attempts.pop(name, None)` -/
def pop (a : Attempts) (name : Str) : Attempts := a.keep fun entry ↦ entry.1 != name

theorem get_set (a : Attempts) (name other : Str) (times : List ℚ) :
    (a.set name times).get other = if other = name then times else a.get other := by
  have hlookup := lookup_setItem a.items name other times
  rw [get, set, hlookup]
  split
  · rfl
  · rfl

theorem get_keep (a : Attempts) (p : Str × List ℚ → Bool) (name : Str) :
    (a.keep p).get name = if p (name, a.get name) = true then a.get name else [] := by
  obtain ⟨items, hnodup⟩ := a
  rw [get, get, keep]
  induction items with
  | nil => exact (ite_self _).symm
  | cons entry rest ih =>
    rw [List.map_cons, List.nodup_cons] at hnodup
    obtain ⟨key, times⟩ := entry
    by_cases h : name = key
    · subst h
      have habsent : rest.lookup name = none := by
        rw [List.lookup_eq_none_iff]
        intro entry hentry
        rw [bne_iff_ne]
        intro hname
        exact hnodup.1 (List.mem_map.mpr ⟨entry, hentry, hname.symm⟩)
      have hfiltered : (rest.filter p).lookup name = none := by
        rw [List.lookup_eq_none_iff] at habsent ⊢
        exact fun entry hentry ↦ habsent entry (List.mem_of_mem_filter hentry)
      by_cases hp : p (name, times) = true
      · simp [hp]
      · simp [hp, hfiltered]
    · have hbeq : (name == key) = false := beq_eq_false_iff_ne.mpr h
      by_cases hp : p (key, times) = true
      · simpa [List.lookup_cons, hp, hbeq] using ih hnodup.2
      · simpa [List.lookup_cons, hp, hbeq] using ih hnodup.2

theorem get_pop (a : Attempts) (name other : Str) :
    (a.pop name).get other = if other = name then [] else a.get other := by
  rw [pop, get_keep]
  by_cases h : other = name
  · simp [h]
  · simp [h]

end Attempts

variable (sub : Subtraction) (limits : Limits)

/-- `[t for t in times if now - t < window]` -/
def fresh (now : ℚ) (times : List ℚ) : List ℚ :=
  times.filter fun t ↦ decide (sub.minus now t < limits.windowSeconds)

/-- `int(x)` -/
def truncate (x : ℚ) : ℤ := if x < 0 then ⌈x⌉ else ⌊x⌋

def lockedFor (attempts : Attempts) (name : Str) (now : ℚ) : Attempts × Except Exc ℤ :=
  let recent := fresh sub limits now (attempts.get name)
  let attempts := match recent with
    | [] => attempts.pop name
    | _ :: _ => attempts.set name recent
  if recent.length < limits.maxAttempts then (attempts, .ok 0)
  else match recent with
    | [] => (attempts, .error (.raised .otherError (str "list index out of range")))
    | first :: _ => (attempts, .ok (max 1 (truncate (sub.minus limits.windowSeconds (sub.minus now first)))))

def recordFailure (attempts : Attempts) (name : Str) (now : ℚ) : Attempts :=
  let attempts :=
    if (attempts.items.lookup name).isNone ∧ attemptsMaxKeys ≤ attempts.items.length then
      attempts.keep fun entry ↦ entry.2.any fun t ↦ decide (sub.minus now t < limits.windowSeconds)
    else attempts
  attempts.set name (attempts.get name ++ [now])

theorem get_lockedFor (attempts : Attempts) (name other : Str) (now : ℚ) :
    (lockedFor sub limits attempts name now).1.get other =
      if other = name then fresh sub limits now (attempts.get name) else attempts.get other := by
  rw [lockedFor]
  cases hrecent : fresh sub limits now (attempts.get name) with
  | nil => split <;> exact attempts.get_pop name other
  | cons first rest => split <;> exact attempts.get_set name other _

/-- A name is let through when fewer than the permitted failures are fresh. -/
theorem lockedFor_eq_zero {attempts : Attempts} {name : Str} {now : ℚ}
    (h : (lockedFor sub limits attempts name now).2 = .ok 0) :
    (fresh sub limits now (attempts.get name)).length < limits.maxAttempts := by
  by_contra hlocked
  rw [lockedFor, if_neg hlocked] at h
  cases hrecent : fresh sub limits now (attempts.get name) with
  | nil => rw [hrecent] at h; cases h
  | cons first rest =>
    rw [hrecent] at h
    have hzero := Except.ok.inj h
    have hone : (1 : ℤ) ≤ 0 := hzero ▸ le_max_left 1 _
    exact absurd hone (by decide)

/-- What is fresh now was fresh before. -/
theorem fresh_fresh {now later : ℚ} (h : now ≤ later) (times : List ℚ) :
    fresh sub limits later (fresh sub limits now times) = fresh sub limits later times := by
  rw [fresh, fresh, fresh, List.filter_filter]
  refine List.filter_congr fun t _ ↦ ?_
  rw [← Bool.decide_and, decide_eq_decide]
  exact ⟨And.left, fun ht ↦ ⟨ht, (sub.minus_mono t h).trans_lt ht⟩⟩

theorem fresh_append (now : ℚ) (times more : List ℚ) :
    fresh sub limits now (times ++ more) = fresh sub limits now times ++ fresh sub limits now more :=
  List.filter_append ..

/-- The entries that `_record_failure` evicts are stale, then and later. -/
theorem fresh_recordFailure {now later : ℚ} (h : now ≤ later) (attempts : Attempts)
    (name other : Str) :
    fresh sub limits later ((recordFailure sub limits attempts name now).get other) =
      fresh sub limits later (attempts.get other) ++
        if other = name then fresh sub limits later [now] else [] := by
  have hevict : ∀ key, fresh sub limits later ((attempts.keep fun entry ↦
      entry.2.any fun t ↦ decide (sub.minus now t < limits.windowSeconds)).get key) =
        fresh sub limits later (attempts.get key) := by
    intro key
    rw [Attempts.get_keep]
    split
    · rfl
    · next hstale =>
      rw [← fresh_fresh sub limits h (attempts.get key)]
      have hnone : fresh sub limits now (attempts.get key) = [] := by
        rw [fresh, List.filter_eq_nil_iff]
        exact fun t ht hfresh ↦ hstale (List.any_eq_true.mpr ⟨t, ht, hfresh⟩)
      rw [hnone]
  rw [recordFailure, Attempts.get_set]
  split
  · next hother =>
    rw [fresh_append, hother]
    congr 1
    split
    · exact hevict name
    · rfl
  · rw [List.append_nil]
    split
    · exact hevict other
    · rfl

/-! ## One call -/

/-- What argon2 raises: a `VerificationError`, or something else. -/
inductive HasherError where
  | verificationError
  | other (e : Exc)

structure Hasher where
  hash : Str → Except Exc Str
  verify : Str → Str → Except HasherError Bool

/-- The columns of `service_accounts` that a login reads. -/
structure LoginRow where
  passwordHash : Option Str
  disabled : Bool
  deriving DecidableEq

def verifyPassword (hasher : Hasher) (stored : Option Str) (raw : Str) : Except Exc Bool :=
  match stored with
  | none | some [] => (hasher.hash raw).map fun _ ↦ false
  | some (c :: rest) =>
    match hasher.verify (c :: rest) raw with
    | .ok ok => .ok ok
    | .error .verificationError => .ok false
    | .error (.other e) => .error e

/-- What `authenticate_password` returns once the database has answered with `row`. -/
def verdict (hasher : Hasher) (row : Option LoginRow) (password : Str) :
    Except Exc (Option LoginRow) :=
  match verifyPassword hasher (row.bind LoginRow.passwordHash) password with
  | .error e => .error e
  | .ok false => .ok none
  | .ok true =>
    match row with
    | none => .error (.raised .typeError (str "'NoneType' object is not subscriptable"))
    | some account => .ok (if account.disabled then none else some account)

/-- A call past `_locked_for`: its arguments and the moment it began. -/
structure LoginCall where
  name : Str
  password : Str
  now : ℚ

/-- Where a call of `authenticate_password` is. -/
inductive LoginPhase where
  | idle
  /-- in `async with _verify_slots` -/
  | waiting (call : LoginCall)
  /-- in `await conn.fetchrow` -/
  | reading (call : LoginCall)
  | ended

/-- A password verification that came to an end: begun when, verified when. -/
structure Verification where
  stamp : ℚ
  time : ℚ
  failed : Bool

/-- The process, the calls past `_locked_for` that are not at their end, with their names, and the
verifications made for each name, oldest first. -/
structure Login where
  clock : ℚ := 0
  attempts : Attempts := .empty
  freeSlots : ℕ
  /-- The calls that wait for a slot, in order of arrival. -/
  queue : List ℕ := []
  calls : ℕ → LoginPhase := fun _ ↦ .idle
  passed : List (ℕ × Str) := []
  verified : Str → List Verification := fun _ ↦ []

/-- The segments of the calls between their suspension points, and the clock. -/
inductive LoginAction where
  | tick (now : ℚ)
  | start (i : ℕ) (name password : Str)
  | acquire (i : ℕ)
  | verify (i : ℕ) (row : Option LoginRow)
  /-- The call is cancelled, or the database raises. -/
  | abort (i : ℕ)

/-- The failures for `name` since its last success. -/
def Login.failures (s : Login) (name : Str) : List Verification :=
  streak Verification.failed (s.verified name)

def Login.finish (s : Login) (i : ℕ) : Login :=
  { s with
    calls := Function.update s.calls i .ended
    passed := s.passed.filter fun entry ↦ entry.1 != i }

/-- `authenticate_password` up to its first suspension -/
def Login.start (s : Login) (i : ℕ) (name password : Str) : Option Login :=
  match s.calls i with
  | .idle =>
    let attempts := (lockedFor sub limits s.attempts name s.clock).1
    match (lockedFor sub limits s.attempts name s.clock).2 with
    | .ok 0 =>
      some { s with
        attempts := attempts
        queue := s.queue ++ [i]
        calls := Function.update s.calls i (.waiting ⟨name, password, s.clock⟩)
        passed := s.passed ++ [(i, name)] }
    | _ =>
      -- `TooManyAttempts`, or the `IndexError` of a limit of zero
      some { s with attempts := attempts, calls := Function.update s.calls i .ended }
  | _ => none

/-- A slot is free, and the call is the first of those that wait. -/
def Login.acquire (s : Login) (i : ℕ) : Option Login :=
  match s.calls i, s.queue, s.freeSlots with
  | .waiting call, j :: rest, free + 1 =>
    if i = j then
      some { s with
        freeSlots := free
        queue := rest
        calls := Function.update s.calls i (.reading call) }
    else none
  | _, _, _ => none

/-- The log and the table after a verification of `call`. -/
def Login.record (s : Login) (i : ℕ) (call : LoginCall) (failed : Bool) : Login :=
  { s.finish i with
    attempts :=
      if failed then recordFailure sub limits s.attempts call.name call.now
      else s.attempts.pop call.name
    freeSlots := s.freeSlots + 1
    verified := Function.update s.verified call.name
      (s.verified call.name ++ [⟨call.now, s.clock, failed⟩]) }

/-- `authenticate_password` from the database's answer to its end -/
def Login.verify (hasher : Hasher) (s : Login) (i : ℕ) (row : Option LoginRow) : Option Login :=
  match s.calls i with
  | .reading call =>
    match verdict hasher row call.password with
    | .error _ => some { s.finish i with freeSlots := s.freeSlots + 1 }
    | .ok account => some (s.record sub limits i call account.isNone)
  | _ => none

def Login.abort (s : Login) (i : ℕ) : Option Login :=
  match s.calls i with
  | .waiting _ => some { s.finish i with queue := s.queue.filter fun j ↦ j != i }
  | .reading _ => some { s.finish i with freeSlots := s.freeSlots + 1 }
  | _ => none

/-- Any number of calls of `authenticate_password` in one process. -/
def loginMachine (hasher : Hasher) : Machine Login LoginAction where
  step s
    | .tick now => if s.clock ≤ now then some { s with clock := now } else none
    | .start i name password => s.start sub limits i name password
    | .acquire i => s.acquire i
    | .verify i row => s.verify sub limits hasher i row
    | .abort i => s.abort i

/-- The process before its first login. -/
def Login.init : Login where
  freeSlots := limits.maxConcurrent

/-- No window holds more failed verifications of one name than the limit, unless a login that
succeeded lies between them. -/
def Login.Limited (s : Login) : Prop :=
  ∀ name, Bounded Verification.time Verification.failed (limits.windowSeconds : ℚ)
    limits.maxAttempts (s.verified name)

/-- The failures since the last success that share a window with the present moment. -/
def Login.inWindow (s : Login) (name : Str) : List Verification :=
  recent Verification.time (limits.windowSeconds : ℚ) s.clock (s.failures name)

/-- Those of them that a check does not count: it finds the moment under which they are recorded out
of the window. -/
def Login.uncounted (s : Login) (name : Str) : List Verification :=
  (s.inWindow limits name).filter fun v ↦
    !decide (sub.minus s.clock v.stamp < limits.windowSeconds)

/-- How many calls with the name are past `_locked_for` and in flight. -/
def Login.pending (s : Login) (name : Str) : ℕ :=
  s.passed.countP fun entry ↦ decide (entry.2 = name)

/-- How many failures of the window there may be by the end of the calls in flight, apart from those
that a check counts. -/
def Login.unseen (s : Login) (name : Str) : ℕ :=
  s.pending name + (s.uncounted sub limits name).length

/-- The condition on a step: a login that is let through either has no unseen one of its name beside
it, or leaves room for all of them. -/
def Roomy (s : Login) : LoginAction → Prop
  | .start _ name _ =>
    (fresh sub limits s.clock (s.attempts.get name)).length < limits.maxAttempts →
      s.unseen sub limits name = 0 ∨
        (fresh sub limits s.clock (s.attempts.get name)).length + s.unseen sub limits name <
          limits.maxAttempts
  | _ => True

instance (s : Login) : ∀ a, Decidable (Roomy sub limits s a)
  | .start _ _ _ => inferInstanceAs (Decidable (_ → _))
  | .tick _ | .acquire _ | .verify _ _ | .abort _ => isTrue trivial

/-! ## What a step does -/

/-- The call in a phase past `_locked_for`. -/
def LoginPhase.inFlight : LoginPhase → Option LoginCall
  | .waiting call | .reading call => some call
  | .idle | .ended => none

/-- The table agrees with the log, whose entries are in order of time; the calls in flight are among
those that have passed. -/
structure Login.Consistent (s : Login) : Prop where
  agrees : ∀ name now, s.clock ≤ now → fresh sub limits now (s.attempts.get name) =
    fresh sub limits now ((s.failures name).map Verification.stamp)
  sorted : ∀ name, (s.verified name).Pairwise fun v w ↦ v.time ≤ w.time
  past : ∀ name, ∀ v ∈ s.verified name, v.time ≤ s.clock
  admitted : ∀ i call, (s.calls i).inFlight = some call →
    (i, call.name) ∈ s.passed ∧ call.now ≤ s.clock

/-- The failures of the window and the calls in flight are together within the limit. -/
def Login.HasRoom (s : Login) : Prop :=
  ∀ name, (s.inWindow limits name).length + s.pending name ≤ limits.maxAttempts

/-- A step that adds nothing to the log. -/
structure Login.Quiet (s t : Login) : Prop where
  verified : t.verified = s.verified
  clock : s.clock ≤ t.clock
  attempts : ∀ name now, t.clock ≤ now →
    fresh sub limits now (t.attempts.get name) = fresh sub limits now (s.attempts.get name)
  inFlight : ∀ i call, (t.calls i).inFlight = some call →
    ((s.calls i).inFlight = some call ∧ ((i, call.name) ∈ s.passed → (i, call.name) ∈ t.passed)) ∨
      (i, call.name) ∈ t.passed ∧ call.now ≤ t.clock

variable {sub limits} {hasher : Hasher} {s t : Login} {a : LoginAction}

theorem Login.Consistent.quiet (h : s.Consistent sub limits) (hquiet : s.Quiet sub limits t) :
    t.Consistent sub limits where
  agrees name now hnow := by
    rw [hquiet.attempts name now hnow, h.agrees name now (hquiet.clock.trans hnow), failures,
      failures, hquiet.verified]
  sorted name := hquiet.verified ▸ h.sorted name
  past name v hv := (h.past name v (hquiet.verified ▸ hv)).trans hquiet.clock
  admitted i call hcall := by
    rcases hquiet.inFlight i call hcall with ⟨hbefore, hpassed⟩ | hnew
    · obtain ⟨hmem, hnow⟩ := h.admitted i call hbefore
      exact ⟨hpassed hmem, hnow.trans hquiet.clock⟩
    · exact hnew

theorem inFlight_update {calls : ℕ → LoginPhase} {i j : ℕ} {phase : LoginPhase} {call : LoginCall}
    (h : (Function.update calls i phase j).inFlight = some call) :
    (j ≠ i ∧ (calls j).inFlight = some call) ∨ j = i ∧ phase.inFlight = some call := by
  rw [Function.update_apply] at h
  split at h
  · next hji => exact .inr ⟨hji, h⟩
  · next hji => exact .inl ⟨hji, h⟩

/-- The calls in flight after a call has ended were in flight before, under their entries. -/
theorem inFlight_finish {i j : ℕ} {call : LoginCall}
    (h : ((s.finish i).calls j).inFlight = some call) : (s.calls j).inFlight = some call ∧
      ((j, call.name) ∈ s.passed → (j, call.name) ∈ (s.finish i).passed) := by
  rcases inFlight_update h with ⟨hne, hbefore⟩ | ⟨-, hended⟩
  · exact ⟨hbefore, fun hmem ↦ List.mem_filter.mpr ⟨hmem, bne_iff_ne.mpr hne⟩⟩
  · cases hended

/-- A call that ends without a verdict. -/
theorem quiet_finish {i : ℕ} {slots : ℕ} {queue : List ℕ} :
    s.Quiet sub limits { s.finish i with freeSlots := slots, queue := queue } where
  verified := rfl
  clock := le_rfl
  attempts _ _ _ := rfl
  inFlight _ _ hcall := .inl (inFlight_finish hcall)

theorem quiet_start {i : ℕ} {name password : Str}
    (h : s.start sub limits i name password = some t) : s.Quiet sub limits t := by
  have hattempts : ∀ other now, s.clock ≤ now →
      fresh sub limits now ((lockedFor sub limits s.attempts name s.clock).1.get other) =
        fresh sub limits now (s.attempts.get other) := by
    intro other now hnow
    rw [get_lockedFor]
    split
    · next hother => rw [hother, fresh_fresh sub limits hnow]
    · rfl
  rw [Login.start] at h
  split at h
  · dsimp only at h
    split at h
    · rw [← Option.some.inj h]
      refine ⟨rfl, le_rfl, hattempts, fun j call hcall ↦ ?_⟩
      rcases inFlight_update hcall with ⟨-, hbefore⟩ | ⟨rfl, hnew⟩
      · exact .inl ⟨hbefore, fun hmem ↦ List.mem_append_left _ hmem⟩
      · rw [← Option.some.inj hnew]
        exact .inr ⟨List.mem_append_right _ (List.mem_singleton_self _), le_rfl⟩
    · rw [← Option.some.inj h]
      refine ⟨rfl, le_rfl, hattempts, fun j call hcall ↦ ?_⟩
      rcases inFlight_update hcall with ⟨-, hbefore⟩ | ⟨-, hended⟩
      · exact .inl ⟨hbefore, fun hmem ↦ hmem⟩
      · cases hended
  · cases h

theorem quiet_acquire {i : ℕ} (h : s.acquire i = some t) :
    s.Quiet sub limits t ∧ t.passed = s.passed := by
  rw [Login.acquire] at h
  split at h
  · next call j rest free hwaiting hqueue hfree =>
    split at h
    · rw [← Option.some.inj h]
      refine ⟨⟨rfl, le_rfl, fun _ _ _ ↦ rfl, fun k other hother ↦ .inl ?_⟩, rfl⟩
      rcases inFlight_update hother with ⟨-, hbefore⟩ | ⟨rfl, hnew⟩
      · exact ⟨hbefore, fun hmem ↦ hmem⟩
      · exact ⟨hwaiting ▸ hnew, fun hmem ↦ hmem⟩
    · cases h
  · cases h

theorem quiet_abort {i : ℕ} (h : s.abort i = some t) :
    s.Quiet sub limits t ∧ t.passed = (s.finish i).passed := by
  rw [Login.abort] at h
  split at h
  · rw [← Option.some.inj h]
    exact ⟨quiet_finish, rfl⟩
  · rw [← Option.some.inj h]
    exact ⟨quiet_finish, rfl⟩
  · cases h

/-- The log grows by the verification of a call that had an answer, and in no other way. -/
theorem loginStep_cases (h : (loginMachine sub limits hasher).step s a = some t) :
    s.Quiet sub limits t ∨ ∃ i row call account, a = .verify i row ∧ s.calls i = .reading call ∧
      verdict hasher row call.password = .ok account ∧
        t = s.record sub limits i call account.isNone := by
  cases a with
  | tick now =>
    change (if s.clock ≤ now then some { s with clock := now } else none) = some t at h
    split at h
    · next hle =>
      rw [← Option.some.inj h]
      exact .inl ⟨rfl, hle, fun _ _ _ ↦ rfl, fun _ _ hcall ↦ .inl ⟨hcall, fun hmem ↦ hmem⟩⟩
    · cases h
  | start i name password => exact .inl (quiet_start h)
  | acquire i => exact .inl (quiet_acquire h).1
  | verify i row =>
    change s.verify sub limits hasher i row = some t at h
    rw [Login.verify] at h
    split at h
    · next call hreading =>
      split at h
      · rw [← Option.some.inj h]
        exact .inl quiet_finish
      · next account hverdict =>
        exact .inr ⟨i, row, call, account, rfl, hreading, hverdict, (Option.some.inj h).symm⟩
    · cases h
  | abort i => exact .inl (quiet_abort h).1

theorem verified_record (i : ℕ) (call : LoginCall) (failed : Bool) (name : Str) :
    (s.record sub limits i call failed).verified name =
      if name = call.name then s.verified call.name ++ [⟨call.now, s.clock, failed⟩]
      else s.verified name :=
  Function.update_apply ..

/-- The failures for a name after one more verification. -/
theorem failures_record (i : ℕ) (call : LoginCall) (failed : Bool) (name : Str) :
    (s.record sub limits i call failed).failures name =
      if name = call.name then
        if failed then s.failures name ++ [⟨call.now, s.clock, failed⟩] else []
      else s.failures name := by
  rw [Login.failures, verified_record]
  split
  · next hname =>
    rw [hname]
    cases failed with
    | true => exact streak_concat_bad rfl
    | false => exact streak_concat_good rfl
  · rfl

theorem consistent_record {i : ℕ} {call : LoginCall} (failed : Bool)
    (hs : s.Consistent sub limits) (hreading : s.calls i = .reading call) :
    (s.record sub limits i call failed).Consistent sub limits := by
  have hstamp : call.now ≤ s.clock := (hs.admitted i call (by rw [hreading]; rfl)).2
  constructor
  case agrees =>
    intro name now hnow
    rw [failures_record]
    change fresh sub limits now ((if failed then recordFailure sub limits s.attempts call.name
      call.now else s.attempts.pop call.name).get name) = _
    have hbefore := hs.agrees name now hnow
    cases failed with
    | true =>
      rw [if_pos rfl, fresh_recordFailure sub limits (hstamp.trans hnow), hbefore]
      split
      · rw [if_pos rfl, List.map_append, fresh_append]
        rfl
      · rw [List.append_nil]
    | false =>
      rw [if_neg Bool.false_ne_true, Attempts.get_pop]
      split
      · rfl
      · exact hbefore
  case sorted =>
    intro name
    rw [verified_record]
    split
    · rw [List.pairwise_append]
      refine ⟨hs.sorted call.name, List.pairwise_singleton _ _, fun v hv w hw ↦ ?_⟩
      rw [List.mem_singleton.mp hw]
      exact hs.past call.name v hv
    · exact hs.sorted name
  case past =>
    intro name v hv
    rw [verified_record] at hv
    split at hv
    · rcases List.mem_append.mp hv with hold | hnew
      · exact hs.past call.name v hold
      · rw [List.mem_singleton.mp hnew]
        exact le_rfl
    · exact hs.past name v hv
  case admitted =>
    intro j other hother
    obtain ⟨hbefore, hpassed⟩ := inFlight_finish hother
    obtain ⟨hmem, hnow⟩ := hs.admitted j other hbefore
    exact ⟨hpassed hmem, hnow⟩

theorem consistent_step (hs : s.Consistent sub limits)
    (h : (loginMachine sub limits hasher).step s a = some t) : t.Consistent sub limits := by
  rcases loginStep_cases h with hquiet | ⟨i, row, call, account, -, hreading, -, rfl⟩
  · exact hs.quiet hquiet
  · exact consistent_record account.isNone hs hreading

theorem consistent_init : (Login.init limits).Consistent sub limits where
  agrees _ _ _ := rfl
  sorted _ := List.Pairwise.nil
  past _ _ hv := nomatch hv
  admitted _ _ hcall := nomatch hcall

/-! ## The calls in flight -/

theorem pending_finish_le (i : ℕ) (name : Str) : (s.finish i).pending name ≤ s.pending name :=
  List.Sublist.countP_le List.filter_sublist

/-- A call that has passed no longer counts when it has ended. -/
theorem pending_finish_lt {i : ℕ} {name : Str} (h : (i, name) ∈ s.passed) :
    (s.finish i).pending name < s.pending name := by
  have hsplit := List.countP_eq_countP_filter_add s.passed
    (fun entry ↦ decide (entry.2 = name)) fun entry ↦ entry.1 != i
  have hpos : 0 < (s.passed.filter fun entry ↦ !(entry.1 != i)).countP
      fun entry ↦ decide (entry.2 = name) := by
    rw [List.countP_pos_iff]
    exact ⟨(i, name), List.mem_filter.mpr ⟨h, by simp⟩, by simp⟩
  rw [Login.pending, Login.pending, Login.finish, hsplit]
  exact Nat.lt_add_of_pos_right hpos

/-- Only a login that is let through adds to the calls in flight. -/
theorem pending_step (h : (loginMachine sub limits hasher).step s a = some t) :
    (∀ name, t.pending name ≤ s.pending name) ∨ ∃ i name password, a = .start i name password ∧
      (fresh sub limits s.clock (s.attempts.get name)).length < limits.maxAttempts ∧
        ∀ other, t.pending other = s.pending other + if other = name then 1 else 0 := by
  cases a with
  | tick now =>
    change (if s.clock ≤ now then some { s with clock := now } else none) = some t at h
    split at h
    · rw [← Option.some.inj h]
      exact .inl fun _ ↦ le_rfl
    · cases h
  | start i name password =>
    change s.start sub limits i name password = some t at h
    rw [Login.start] at h
    split at h
    · dsimp only at h
      split at h
      · next hzero =>
        rw [← Option.some.inj h]
        refine .inr ⟨i, name, password, rfl, lockedFor_eq_zero sub limits hzero, fun other ↦ ?_⟩
        rw [Login.pending, Login.pending, List.countP_append, List.countP_singleton]
        by_cases hname : other = name
        · rw [if_pos hname, if_pos (decide_eq_true hname.symm)]
        · rw [if_neg hname, if_neg (by simpa using Ne.symm hname)]
      · rw [← Option.some.inj h]
        exact .inl fun _ ↦ le_rfl
    · cases h
  | acquire i =>
    have hquiet : s.Quiet sub limits t ∧ t.passed = s.passed := quiet_acquire h
    obtain ⟨-, hpassed⟩ := hquiet
    exact .inl fun name ↦ by rw [Login.pending, hpassed, Login.pending]
  | verify i row =>
    change s.verify sub limits hasher i row = some t at h
    rw [Login.verify] at h
    split at h
    · split at h
      · rw [← Option.some.inj h]
        exact .inl fun name ↦ pending_finish_le i name
      · rw [← Option.some.inj h]
        exact .inl fun name ↦ pending_finish_le i name
    · cases h
  | abort i =>
    have hquiet : s.Quiet sub limits t ∧ t.passed = (s.finish i).passed := quiet_abort h
    obtain ⟨-, hpassed⟩ := hquiet
    refine .inl fun name ↦ ?_
    rw [Login.pending, hpassed]
    exact pending_finish_le i name

/-! ## The bound -/

/-- A check counts the failures of the window except those that it finds out of it. -/
theorem length_inWindow_le (hs : s.Consistent sub limits) (name : Str) :
    (s.inWindow limits name).length ≤
      (fresh sub limits s.clock (s.attempts.get name)).length +
        (s.uncounted sub limits name).length := by
  have hcounted : ((s.inWindow limits name).filter fun v ↦
      decide (sub.minus s.clock v.stamp < limits.windowSeconds)).length ≤
        (fresh sub limits s.clock (s.attempts.get name)).length := by
    rw [hs.agrees name s.clock le_rfl, fresh, List.filter_map, List.length_map]
    exact (List.Sublist.filter _ List.filter_sublist).length_le
  have hsplit := List.length_eq_length_filter_add (l := s.inWindow limits name) fun v ↦
    decide (sub.minus s.clock v.stamp < limits.windowSeconds)
  rw [hsplit, Login.uncounted]
  exact Nat.add_le_add_right hcounted _

/-- One more verification keeps the bound when it does not fail or its name had fewer failures in the
window than the limit. -/
theorem limited_record {i : ℕ} {call : LoginCall} {failed : Bool} (hs : s.Consistent sub limits)
    (hlimited : s.Limited limits)
    (hroom : (s.inWindow limits call.name).length < limits.maxAttempts) :
    (s.record sub limits i call failed).Limited limits := by
  have hpositive : 0 < limits.maxAttempts := Nat.zero_lt_of_lt hroom
  have hconcat := bounded_concat Verification.failed (limits.windowSeconds : ℚ)
    (e := ⟨call.now, s.clock, failed⟩) hpositive (hs.sorted call.name) (hs.past call.name)
  intro name
  rw [verified_record]
  split
  · exact hconcat.mpr ⟨hlimited call.name, fun _ ↦ hroom⟩
  · exact hlimited name

/-- The failures of the window after one more verification. -/
theorem length_inWindow_record (i : ℕ) (call : LoginCall) (failed : Bool) (name : Str) :
    ((s.record sub limits i call failed).inWindow limits name).length ≤
      (s.inWindow limits name).length + if name = call.name then 1 else 0 := by
  change (recent Verification.time (limits.windowSeconds : ℚ) s.clock
    ((s.record sub limits i call failed).failures name)).length ≤ _
  rw [failures_record]
  split
  · split
    · rw [recent_append, List.length_append]
      exact Nat.add_le_add_left (List.length_filter_le _ _) _
    · exact Nat.zero_le _
  · exact le_rfl

theorem hasRoom_record {i : ℕ} {call : LoginCall} (failed : Bool) (hs : s.Consistent sub limits)
    (hroom : s.HasRoom limits) (hreading : s.calls i = .reading call) :
    (s.record sub limits i call failed).HasRoom limits := by
  intro name
  have hlength := @length_inWindow_record sub limits s i call failed name
  have hbefore := hroom name
  have hmem := (hs.admitted i call (by rw [hreading]; rfl)).1
  change _ + (s.finish i).pending name ≤ _
  split at hlength
  · next hname =>
    have hless := pending_finish_lt (hname ▸ hmem)
    omega
  · have hle := pending_finish_le (s := s) i name
    omega

/-- Time and the steps that add nothing to the log keep the room, and a login that is let through
takes what the condition leaves. -/
theorem hasRoom_quiet (hs : s.Consistent sub limits) (hroom : s.HasRoom limits)
    (hroomy : Roomy sub limits s a) (hquiet : s.Quiet sub limits t)
    (h : (loginMachine sub limits hasher).step s a = some t) : t.HasRoom limits := by
  intro name
  have hlength : (t.inWindow limits name).length ≤ (s.inWindow limits name).length := by
    rw [Login.inWindow, Login.failures, hquiet.verified, ← recent_recent hquiet.clock]
    exact List.length_filter_le _ _
  have hbefore := hroom name
  rcases pending_step h with hpending | ⟨i, other, password, rfl, hfree, hpending⟩
  · exact (Nat.add_le_add hlength (hpending name)).trans hbefore
  · rw [hpending name]
    split
    · next hname =>
      have hseen := length_inWindow_le hs name
      have hleft := hroomy hfree
      rw [hname] at hseen hlength ⊢
      rw [Login.unseen] at hleft
      omega
    · omega

theorem limited_step (hs : s.Consistent sub limits ∧ s.HasRoom limits ∧ s.Limited limits)
    (hroomy : Roomy sub limits s a) (h : (loginMachine sub limits hasher).step s a = some t) :
    t.Consistent sub limits ∧ t.HasRoom limits ∧ t.Limited limits := by
  obtain ⟨hconsistent, hroom, hlimited⟩ := hs
  refine ⟨consistent_step hconsistent h, ?_⟩
  rcases loginStep_cases h with hquiet | ⟨i, row, call, account, rfl, hreading, -, rfl⟩
  · refine ⟨hasRoom_quiet hconsistent hroom hroomy hquiet h, fun name ↦ ?_⟩
    rw [hquiet.verified]
    exact hlimited name
  · refine ⟨hasRoom_record account.isNone hconsistent hroom hreading,
      limited_record hconsistent hlimited ?_⟩
    have hmem := (hconsistent.admitted i call (by rw [hreading]; rfl)).1
    have hless := pending_finish_lt hmem
    have hbefore := hroom call.name
    omega

/-- In a run of a process, with any number of logins in flight, the verifications that fail stay
within the limit as long as every login that is let through either has none of its name in flight
and no failure beside it that its check does not count, or finds room left for them all. -/
theorem limited_of_roomy (sub : Subtraction) (limits : Limits) (hasher : Hasher)
    {actions : List LoginAction}
    (hroomy : (loginMachine sub limits hasher).Meets (Roomy sub limits) (.init limits) actions) :
    (loginMachine sub limits hasher).Always (Login.Limited limits) (.init limits) actions :=
  (loginMachine sub limits hasher).always_of_meets
    (I := fun s ↦ s.Consistent sub limits ∧ s.HasRoom limits ∧ s.Limited limits)
    (fun _ h ↦ h.2.2) (fun _ _ _ hs hroomy hstep ↦ limited_step hs hroomy hstep) hroomy
    ⟨consistent_init, fun _ ↦ Nat.zero_le _, fun _ ↦ bounded_nil⟩

/-- A hasher that knows no password. -/
def refusing : Hasher where
  hash _ := .ok []
  verify _ _ := .ok false

/-- Logins of one name that are in flight together, with a wrong password each. -/
def together (ids : List ℕ) : List LoginAction :=
  ids.map (fun i ↦ .start i (str "ops") (str "guess")) ++
    ids.flatMap fun i ↦ [.acquire i, .verify i (some ⟨some (str "$argon2id$"), false⟩)]

/-- With the default limits the sixth of six logins in flight together is let through as well. -/
theorem crowd_not_limited : ¬ ∀ actions s,
    (loginMachine .doubles {} refusing).run (.init {}) actions = some s → s.Limited {} := by
  intro h
  obtain ⟨s, hrun, hlog⟩ : ∃ s, (loginMachine .doubles {} refusing).run (.init {})
      (together (List.range 6)) = some s ∧
      s.verified (str "ops") = List.replicate 6 ⟨0, 0, true⟩ := ⟨_, rfl, rfl⟩
  have hbound := h _ s hrun (str "ops") 0 _ List.infix_rfl ?_
  · rw [hlog, List.length_replicate] at hbound
    exact absurd hbound (by decide)
  · rw [hlog]
    intro v hv
    rw [(List.mem_replicate.mp hv).2]
    exact ⟨rfl, le_rfl, by norm_num⟩

/-- Two logins together, two more a minute later, a fifth, and a sixth that is refused. -/
def pairs : List LoginAction :=
  together [0, 1] ++ [.tick 60] ++ together [2, 3] ++ together [4] ++
    [.start 5 (str "ops") (str "guess")]

theorem limited_of_roomy_pairs :
    ((loginMachine .doubles {} refusing).run (.init {}) pairs).isSome = true ∧
      (loginMachine .doubles {} refusing).Always (Login.Limited {}) (.init {}) pairs :=
  ⟨by decide +kernel, limited_of_roomy .doubles {} refusing (by decide +kernel)⟩

end DatumSync.Auth
