import DatumSync.Errors
import DatumSync.Foundation.Machine

/-!
# Submissions with an idempotency key

Any number of calls of `submit_idempotent`, with any keys and accounts, and their statements in any
order.  A call inserts its job and claims its key in one transaction; a claim of a key that another
transaction has claimed and not committed waits for it.  No job row is deleted.
-/

namespace DatumSync.Jobs

open Python Foundation

structure SubmitCall where
  repository : Str
  workspace : Str
  params : List (Str × Json)
  submittedBy : Option Str := none
  idempotencyKey : Option Str := none
  parentJob : Option ℕ := none
  triggeredBy : Option Str := none

/-- The primary key of the row of `idempotency_keys` a call is for: `key` and
`submitted_by or ""`. -/
def SubmitCall.slot (call : SubmitCall) : Option (Str × Str) :=
  call.idempotencyKey.map fun key ↦ (key, call.submittedBy.getD [])

/-- A row of `jobs`: its id, its parameters as validated, and the call that has given the rest. -/
structure SubmittedJob where
  id : ℕ
  params : List (Str × Json)
  call : SubmitCall
  creator : ℕ

inductive SubmitPhase where
  | idle
  | started (call : SubmitCall)
  /-- The manifest accepts the parameters. -/
  | validated (call : SubmitCall) (params : List (Str × Json))
  /-- No key was found, and the transaction begins. -/
  | opened (call : SubmitCall) (params : List (Str × Json))
  | inserted (call : SubmitCall) (row : SubmittedJob)
  | claimed (call : SubmitCall) (row : SubmittedJob)
  /-- The key is somebody else's: `_KeyRace`. -/
  | lost (call : SubmitCall) (row : SubmittedJob)
  | rolledBack (call : SubmitCall)
  | committed (call : SubmitCall) (id : ℕ)
  | returned (call : SubmitCall) (id : ℕ)
  | raised (call : SubmitCall) (e : Exc)

/-- The committed tables, the keys claimed by open transactions, and the calls. -/
structure Submissions where
  jobs : List SubmittedJob := []
  keys : Str × Str → Option ℕ := fun _ ↦ none
  /-- The call whose transaction has claimed a key and is open. -/
  claims : Str × Str → Option ℕ := fun _ ↦ none
  /-- `gen_random_uuid()`, which does not repeat. -/
  nextId : ℕ := 0
  phases : ℕ → SubmitPhase := fun _ ↦ .idle
  /-- The calls that have lost a race. -/
  losers : List ℕ := []

inductive SubmitAction where
  | call (c : ℕ) (call : SubmitCall)
  /-- `load_manifest_for` and `validate_params`. -/
  | check (c : ℕ) (checked : Except Exc (List (Str × Json)))
  | lookup (c : ℕ)
  | insertJob (c : ℕ)
  | insertKey (c : ℕ)
  | commit (c : ℕ)
  | rollback (c : ℕ)
  | reread (c : ℕ)
  | notify (c : ℕ)
  /-- The database raises, or the call is cancelled; an open transaction is rolled back. -/
  | abort (c : ℕ)

def Submissions.setPhase (s : Submissions) (c : ℕ) (phase : SubmitPhase) : Submissions :=
  { s with phases := Function.update s.phases c phase }

def Submissions.call (s : Submissions) (c : ℕ) (call : SubmitCall) : Option Submissions :=
  match s.phases c with
  | .idle => some (s.setPhase c (.started call))
  | _ => none

def Submissions.check (s : Submissions) (c : ℕ) (checked : Except Exc (List (Str × Json))) :
    Option Submissions :=
  match s.phases c with
  | .started call =>
    match checked with
    | .error e => some (s.setPhase c (.raised call e))
    | .ok params => some (s.setPhase c (.validated call params))
  | _ => none

/-- The first `_existing_for_key`, which a call without a key leaves out. -/
def Submissions.lookup (s : Submissions) (c : ℕ) : Option Submissions :=
  match s.phases c with
  | .validated call params =>
    match call.slot.bind s.keys with
    | some id => some (s.setPhase c (.returned call id))
    | none => some (s.setPhase c (.opened call params))
  | _ => none

def Submissions.insertJob (s : Submissions) (c : ℕ) : Option Submissions :=
  match s.phases c with
  | .opened call params =>
    some { s.setPhase c (.inserted call ⟨s.nextId, params, call, c⟩) with nextId := s.nextId + 1 }
  | _ => none

/-- `INSERT INTO idempotency_keys ... ON CONFLICT (key, account) DO NOTHING RETURNING job_id` -/
def Submissions.insertKey (s : Submissions) (c : ℕ) : Option Submissions :=
  match s.phases c with
  | .inserted call row =>
    match call.slot with
    | none => none
    | some slot =>
      match s.keys slot, s.claims slot with
      | some _, _ => some { s.setPhase c (.lost call row) with losers := c :: s.losers }
      | none, some _ => none
      | none, none => some { s.setPhase c (.claimed call row) with
          claims := Function.update s.claims slot (some c) }
  | _ => none

/-- The end of `async with conn.transaction()` -/
def Submissions.commit (s : Submissions) (c : ℕ) : Option Submissions :=
  match s.phases c with
  | .inserted call row =>
    match call.slot with
    | none => some { s.setPhase c (.committed call row.id) with jobs := s.jobs ++ [row] }
    | some _ => none
  | .claimed call row =>
    match call.slot with
    | none => none
    | some slot => some { s.setPhase c (.committed call row.id) with
        jobs := s.jobs ++ [row]
        keys := Function.update s.keys slot (some row.id)
        claims := Function.update s.claims slot none }
  | _ => none

/-- `_KeyRace` leaves the transaction. -/
def Submissions.rollback (s : Submissions) (c : ℕ) : Option Submissions :=
  match s.phases c with
  | .lost call _ => some (s.setPhase c (.rolledBack call))
  | _ => none

/-- The `except` clause of `submit_idempotent` -/
def Submissions.reread (s : Submissions) (c : ℕ) : Option Submissions :=
  match s.phases c with
  | .rolledBack call =>
    match call.slot.bind s.keys with
    | some id => some (s.setPhase c (.returned call id))
    | none => some (s.setPhase c (.raised call
        (.raised .jobError (str "idempotency key race could not be resolved"))))
  | _ => none

def Submissions.notify (s : Submissions) (c : ℕ) : Option Submissions :=
  match s.phases c with
  | .committed call id => some (s.setPhase c (.returned call id))
  | _ => none

def statementFailed : Exc := .raised .databaseError (str "the statement has failed")

def Submissions.abort (s : Submissions) (c : ℕ) : Option Submissions :=
  match s.phases c with
  | .idle | .returned .. | .raised .. => none
  | .started call | .validated call _ | .opened call _ | .inserted call _ | .lost call _ |
    .rolledBack call | .committed call _ => some (s.setPhase c (.raised call statementFailed))
  | .claimed call _ =>
    match call.slot with
    | none => none
    | some slot => some { s.setPhase c (.raised call statementFailed) with
        claims := Function.update s.claims slot none }

def submitMachine : Machine Submissions SubmitAction where
  step s
    | .call c call => s.call c call
    | .check c checked => s.check c checked
    | .lookup c => s.lookup c
    | .insertJob c => s.insertJob c
    | .insertKey c => s.insertKey c
    | .commit c => s.commit c
    | .rollback c => s.rollback c
    | .reread c => s.reread c
    | .notify c => s.notify c
    | .abort c => s.abort c

/-- The committed jobs of the calls with a key and an account. -/
def Submissions.rowsOf (s : Submissions) (slot : Str × Str) : List SubmittedJob :=
  s.jobs.filter fun row ↦ row.call.slot == some slot

/-- One job for each key and account. -/
structure Submissions.Idempotent (s : Submissions) : Prop where
  /-- Calls that return agree. -/
  agree : ∀ slot c d call call' id id', s.phases c = .returned call id →
    s.phases d = .returned call' id' → call.slot = some slot → call'.slot = some slot → id = id'
  /-- Once a call has returned there is its job and no other. -/
  once : ∀ slot c call id, s.phases c = .returned call id → call.slot = some slot →
    (s.rowsOf slot).map SubmittedJob.id = [id]
  atMostOnce : ∀ slot, (s.rowsOf slot).length ≤ 1
  /-- A call that a `JobError` refuses leaves no job. -/
  refused : ∀ c call e, s.phases c = .raised call e → e.isA .jobError = true →
    ∀ row ∈ s.jobs, row.creator ≠ c
  /-- Neither does one that loses a race. -/
  lost : ∀ c ∈ s.losers, ∀ row ∈ s.jobs, row.creator ≠ c

/-! ## What the statements preserve -/

def SubmitPhase.mayHaveJob : SubmitPhase → Bool
  | committed .. => true
  | returned .. => true
  | raised _ e => !e.isA .jobError
  | _ => false

/-- A phase after the loss of a race, or after an exception. -/
def SubmitPhase.mayHaveLost : SubmitPhase → Bool
  | lost .. | rolledBack _ | returned .. | raised .. => true
  | _ => false

/-- What the phase of call `c` says about the keys. -/
def SubmitPhase.Agrees (keys claims : Str × Str → Option ℕ) (c : ℕ) : SubmitPhase → Prop
  | inserted call row => row.call = call ∧ row.creator = c
  | claimed call row => row.call = call ∧ row.creator = c ∧
      ∃ slot, call.slot = some slot ∧ claims slot = some c ∧ keys slot = none
  | committed call id | returned call id => ∀ slot, call.slot = some slot → keys slot = some id
  | _ => True

/-- A key is committed with the one job of its calls. -/
structure Submissions.Sound (s : Submissions) : Prop where
  keyed : ∀ slot, (s.rowsOf slot).map SubmittedJob.id = (s.keys slot).toList
  phases : ∀ c, (s.phases c).Agrees s.keys s.claims c
  creators : ∀ row ∈ s.jobs, (s.phases row.creator).mayHaveJob = true
  losers : ∀ c ∈ s.losers, (s.phases c).mayHaveLost = true
  jobless : ∀ c ∈ s.losers, ∀ row ∈ s.jobs, row.creator ≠ c

theorem Submissions.Sound.idempotent {s : Submissions} (hs : s.Sound) : s.Idempotent := by
  have hreturned : ∀ {slot c call id}, s.phases c = .returned call id → call.slot = some slot →
      s.keys slot = some id := by
    intro slot c call id hphase hslot
    have hagrees := hs.phases c
    rw [hphase] at hagrees
    exact hagrees slot hslot
  refine ⟨fun slot c d call call' id id' hc hd hslot hslot' ↦ ?_,
    fun slot c call id hc hslot ↦ ?_, fun slot ↦ ?_, fun c call e hc he row hrow hcreator ↦ ?_,
    hs.jobless⟩
  · exact Option.some.inj ((hreturned hc hslot).symm.trans (hreturned hd hslot'))
  · rw [hs.keyed, hreturned hc hslot]
    rfl
  · rw [← List.length_map SubmittedJob.id, hs.keyed]
    cases s.keys slot with
    | none => exact Nat.zero_le _
    | some id => exact le_rfl
  · have hjob := hs.creators row hrow
    rw [hcreator, hc, SubmitPhase.mayHaveJob, he] at hjob
    cases hjob

variable {s t : Submissions} {c : ℕ} {a : SubmitAction}

/-- A change of the key of one slot that is nobody else's leaves the phase of another call. -/
theorem SubmitPhase.Agrees.update {keys claims : Str × Str → Option ℕ} {d : ℕ}
    {phase : SubmitPhase} (h : phase.Agrees keys claims d) {slot : Str × Str} {key claim : Option ℕ}
    (hclaims : claims slot ≠ some d) (hkeys : ∀ id, keys slot = some id → key = some id) :
    phase.Agrees (Function.update keys slot key) (Function.update claims slot claim) d := by
  cases phase with
  | inserted call row => exact h
  | claimed call row =>
    obtain ⟨hcall, hcreator, other, hslot, hclaim, hfree⟩ := h
    have hne : other ≠ slot := by
      rintro rfl
      exact hclaims hclaim
    refine ⟨hcall, hcreator, other, hslot, ?_, ?_⟩
    · rw [Function.update_of_ne hne, hclaim]
    · rw [Function.update_of_ne hne, hfree]
  | committed call id | returned call id =>
    intro other hslot
    rw [Function.update_apply]
    split
    · next heq => exact hkeys id (heq ▸ h other hslot)
    · exact h other hslot
  | _ => trivial

/-- A call goes on and leaves the tables. -/
theorem Submissions.Sound.move (hs : s.Sound) {phase : SubmitPhase} {next : ℕ}
    (hagrees : phase.Agrees s.keys s.claims c)
    (hjob : (s.phases c).mayHaveJob = true → phase.mayHaveJob = true)
    (hlost : (s.phases c).mayHaveLost = true → phase.mayHaveLost = true) :
    ({ s.setPhase c phase with nextId := next } : Submissions).Sound where
  keyed := hs.keyed
  phases d := by
    change (Function.update s.phases c phase d).Agrees s.keys s.claims d
    rw [Function.update_apply]
    split
    · next hd => exact hd ▸ hagrees
    · exact hs.phases d
  creators row hrow := by
    change (Function.update s.phases c phase row.creator).mayHaveJob = true
    rw [Function.update_apply]
    split
    · next hd => exact hjob (hd ▸ hs.creators row hrow)
    · exact hs.creators row hrow
  losers d hd := by
    change (Function.update s.phases c phase d).mayHaveLost = true
    rw [Function.update_apply]
    split
    · next heq => exact hlost (heq ▸ hs.losers d hd)
    · exact hs.losers d hd
  jobless := hs.jobless

/-- A call that loses a race has no job. -/
theorem Submissions.Sound.lose (hs : s.Sound) {call : SubmitCall} {row : SubmittedJob}
    (hphase : s.phases c = .inserted call row) :
    ({ s.setPhase c (.lost call row) with losers := c :: s.losers } : Submissions).Sound := by
  have hmoved : (s.setPhase c (.lost call row)).Sound :=
    hs.move trivial (by rw [hphase]; exact id) fun _ ↦ rfl
  refine ⟨hmoved.keyed, hmoved.phases, hmoved.creators, fun d hd ↦ ?_, fun d hd other hother ↦ ?_⟩
  · rcases List.mem_cons.mp hd with rfl | hold
    · change (Function.update s.phases d (.lost call row) d).mayHaveLost = true
      rw [Function.update_self]
      rfl
    · exact hmoved.losers d hold
  · rcases List.mem_cons.mp hd with rfl | hold
    · intro hcreator
      have hjob := hs.creators other hother
      rw [hcreator, hphase] at hjob
      cases hjob
    · exact hs.jobless d hold other hother

/-- A transaction claims a free key. -/
theorem Submissions.Sound.claim (hs : s.Sound) {call : SubmitCall} {row : SubmittedJob}
    {slot : Str × Str} (hphase : s.phases c = .inserted call row) (hslot : call.slot = some slot)
    (hkey : s.keys slot = none) (hclaim : s.claims slot = none) :
    ({ s.setPhase c (.claimed call row) with
        claims := Function.update s.claims slot (some c) } : Submissions).Sound := by
  have hinserted := hs.phases c
  rw [hphase] at hinserted
  refine ⟨hs.keyed, fun d ↦ ?_, fun other hother ↦ ?_, fun d hd ↦ ?_, hs.jobless⟩
  · change (Function.update s.phases c _ d).Agrees s.keys _ d
    rw [Function.update_apply]
    split
    · next hd =>
      rw [hd]
      exact ⟨hinserted.1, hinserted.2, slot, hslot, Function.update_self .., hkey⟩
    · rw [← Function.update_eq_self slot s.keys]
      exact (hs.phases d).update (by rw [hclaim]; exact nofun) fun _ ↦ id
  · change (Function.update s.phases c _ other.creator).mayHaveJob = true
    rw [Function.update_of_ne]
    · exact hs.creators other hother
    · intro hcreator
      have hjob := hs.creators other hother
      rw [hcreator, hphase] at hjob
      cases hjob
  · change (Function.update s.phases c _ d).mayHaveLost = true
    rw [Function.update_of_ne]
    · exact hs.losers d hd
    · intro heq
      have hlost := hs.losers d hd
      rw [heq, hphase] at hlost
      cases hlost

/-- A transaction commits its job, and its key if it has claimed one. -/
theorem Submissions.Sound.commit (hs : s.Sound) {call : SubmitCall} {row : SubmittedJob}
    {keys claims : Str × Str → Option ℕ} (hcall : row.call = call) (hcreator : row.creator = c)
    (hphase : (s.phases c).mayHaveLost = false)
    (hkeys : ∀ slot, keys slot = if call.slot = some slot then some row.id else s.keys slot)
    (hfree : ∀ slot, call.slot = some slot → s.keys slot = none)
    (hothers : ∀ d, d ≠ c → (s.phases d).Agrees keys claims d) :
    ({ s.setPhase c (.committed call row.id) with
        jobs := s.jobs ++ [row], keys := keys, claims := claims } : Submissions).Sound := by
  have hloser : c ∉ s.losers := by
    intro hmem
    rw [hs.losers c hmem] at hphase
    cases hphase
  refine ⟨fun slot ↦ ?_, fun d ↦ ?_, fun other hother ↦ ?_, fun d hd ↦ ?_,
    fun d hd other hother ↦ ?_⟩
  · change ((s.jobs ++ [row]).filter fun other ↦ other.call.slot == some slot).map
      SubmittedJob.id = (keys slot).toList
    rw [List.filter_append, List.map_append, hkeys]
    have hkeyed := hs.keyed slot
    rw [Submissions.rowsOf] at hkeyed
    rw [hkeyed]
    split
    · next hslot =>
      rw [hfree slot hslot]
      simp [hcall, hslot]
    · next hslot => simp [hcall, hslot]
  · change (Function.update s.phases c _ d).Agrees keys claims d
    rw [Function.update_apply]
    split
    · intro slot hslot
      rw [hkeys, if_pos hslot]
    · next hd => exact hothers d hd
  · change (Function.update s.phases c _ other.creator).mayHaveJob = true
    rw [Function.update_apply]
    split
    · rfl
    · next hne =>
      rcases List.mem_append.mp hother with hold | hnew
      · exact hs.creators other hold
      · rw [List.mem_singleton.mp hnew] at hne
        exact absurd hcreator hne
  · change (Function.update s.phases c _ d).mayHaveLost = true
    rw [Function.update_of_ne]
    · exact hs.losers d hd
    · rintro rfl
      exact hloser hd
  · rcases List.mem_append.mp hother with hold | hnew
    · exact hs.jobless d hd other hold
    · rw [List.mem_singleton.mp hnew, hcreator]
      rintro rfl
      exact hloser hd

/-! ## Runs -/

theorem sound_commit (hs : s.Sound) (h : s.commit c = some t) : t.Sound := by
  rw [Submissions.commit] at h
  split at h
  · next call row hphase =>
    have hinserted := hs.phases c
    rw [hphase] at hinserted
    split at h
    · next hslot =>
      rw [← Option.some.inj h]
      refine hs.commit hinserted.1 hinserted.2 (by rw [hphase]; rfl) (fun slot ↦ ?_)
        (fun slot hsome ↦ ?_) fun d _ ↦ hs.phases d
      · rw [hslot, if_neg nofun]
        rfl
      · rw [hslot] at hsome
        cases hsome
    · cases h
  · next call row hphase =>
    have hclaimed := hs.phases c
    rw [hphase] at hclaimed
    obtain ⟨hcall, hcreator, slot', hslot', hclaim, hfree⟩ := hclaimed
    split at h
    · cases h
    · next slot hslot =>
      rw [hslot, Option.some.injEq] at hslot'
      subst hslot'
      rw [← Option.some.inj h]
      refine hs.commit hcall hcreator (by rw [hphase]; rfl) (fun other ↦ ?_)
        (fun other hother ↦ ?_) fun d hd ↦ (hs.phases d).update ?_ ?_
      · rw [Function.update_apply, hslot]
        exact if_congr (eq_comm.trans Option.some_inj.symm) rfl rfl
      · rw [hslot, Option.some.injEq] at hother
        rw [← hother, hfree]
      · rw [hclaim]
        exact fun heq ↦ hd (Option.some.inj heq).symm
      · intro id hid
        rw [hfree] at hid
        cases hid
  · cases h

theorem sound_insertKey (hs : s.Sound) (h : s.insertKey c = some t) : t.Sound := by
  rw [Submissions.insertKey] at h
  split at h
  · next call row hphase =>
    split at h
    · cases h
    · next slot hslot =>
      split at h
      · exact Option.some.inj h ▸ hs.lose hphase
      · cases h
      · next hkey hclaim => exact Option.some.inj h ▸ hs.claim hphase hslot hkey hclaim
  · cases h

/-- An open transaction is rolled back. -/
theorem sound_abort (hs : s.Sound) (h : s.abort c = some t) : t.Sound := by
  have hraise : ∀ call, (s.setPhase c (.raised call statementFailed)).Sound := fun call ↦
    hs.move trivial (fun _ ↦ rfl) fun _ ↦ rfl
  rw [Submissions.abort] at h
  split at h
  · cases h
  · cases h
  · cases h
  · exact Option.some.inj h ▸ hraise _
  · exact Option.some.inj h ▸ hraise _
  · exact Option.some.inj h ▸ hraise _
  · exact Option.some.inj h ▸ hraise _
  · exact Option.some.inj h ▸ hraise _
  · exact Option.some.inj h ▸ hraise _
  · exact Option.some.inj h ▸ hraise _
  · next call row hphase =>
    have hclaimed := hs.phases c
    rw [hphase] at hclaimed
    obtain ⟨-, -, slot', hslot', hclaim, -⟩ := hclaimed
    split at h
    · cases h
    · next slot hslot =>
      rw [hslot, Option.some.injEq] at hslot'
      subst hslot'
      have hmoved := hraise call
      rw [← Option.some.inj h]
      refine ⟨hmoved.keyed, fun d ↦ ?_, hmoved.creators, hmoved.losers, hmoved.jobless⟩
      change (Function.update s.phases c _ d).Agrees s.keys _ d
      rw [Function.update_apply]
      split
      · trivial
      · next hd =>
        rw [← Function.update_eq_self slot s.keys]
        refine (hs.phases d).update ?_ fun _ ↦ id
        rw [hclaim]
        exact fun heq ↦ hd (Option.some.inj heq).symm

theorem submissions_step (hs : s.Sound) (h : submitMachine.step s a = some t) : t.Sound := by
  cases a with
  | call c call =>
    change s.call c call = some t at h
    rw [Submissions.call] at h
    split at h
    · next hphase =>
      rw [← Option.some.inj h]
      exact hs.move trivial (by rw [hphase]; exact nofun) (by rw [hphase]; exact nofun)
    · cases h
  | check c checked =>
    change s.check c checked = some t at h
    rw [Submissions.check] at h
    split at h
    · next call hphase =>
      split at h
      · rw [← Option.some.inj h]
        exact hs.move trivial (by rw [hphase]; exact nofun) fun _ ↦ rfl
      · rw [← Option.some.inj h]
        exact hs.move trivial (by rw [hphase]; exact nofun) (by rw [hphase]; exact nofun)
    · cases h
  | lookup c =>
    change s.lookup c = some t at h
    rw [Submissions.lookup] at h
    split at h
    · next call params hphase =>
      split at h
      · next id hfound =>
        rw [← Option.some.inj h]
        refine hs.move (fun slot hslot ↦ ?_) (fun _ ↦ rfl) fun _ ↦ rfl
        rw [hslot] at hfound
        exact hfound
      · rw [← Option.some.inj h]
        exact hs.move trivial (by rw [hphase]; exact nofun) (by rw [hphase]; exact nofun)
    · cases h
  | insertJob c =>
    change s.insertJob c = some t at h
    rw [Submissions.insertJob] at h
    split at h
    · next call params hphase =>
      rw [← Option.some.inj h]
      exact hs.move ⟨rfl, rfl⟩ (by rw [hphase]; exact nofun) (by rw [hphase]; exact nofun)
    · cases h
  | insertKey c => exact sound_insertKey hs h
  | commit c => exact sound_commit hs h
  | rollback c =>
    change s.rollback c = some t at h
    rw [Submissions.rollback] at h
    split at h
    · next call row hphase =>
      rw [← Option.some.inj h]
      exact hs.move trivial (by rw [hphase]; exact nofun) fun _ ↦ rfl
    · cases h
  | reread c =>
    change s.reread c = some t at h
    rw [Submissions.reread] at h
    split at h
    · next call hphase =>
      split at h
      · next id hfound =>
        rw [← Option.some.inj h]
        refine hs.move (fun slot hslot ↦ ?_) (fun _ ↦ rfl) fun _ ↦ rfl
        rw [hslot] at hfound
        exact hfound
      · rw [← Option.some.inj h]
        exact hs.move trivial (by rw [hphase]; exact nofun) fun _ ↦ rfl
    · cases h
  | notify c =>
    change s.notify c = some t at h
    rw [Submissions.notify] at h
    split at h
    · next call id hphase =>
      have hcommitted := hs.phases c
      rw [hphase] at hcommitted
      rw [← Option.some.inj h]
      exact hs.move hcommitted (fun _ ↦ rfl) fun _ ↦ rfl
    · cases h
  | abort c => exact sound_abort hs h

theorem sound_init : ({} : Submissions).Sound where
  keyed _ := rfl
  phases _ := trivial
  creators _ h := nomatch h
  losers _ h := nomatch h
  jobless _ h := nomatch h

/-- However many calls are made with a key and an account, and however their statements interleave,
those that return have the one job that there is. -/
theorem submissions_idempotent (actions : List SubmitAction) {s : Submissions}
    (hrun : submitMachine.run {} actions = some s) : s.Idempotent :=
  (submitMachine.invariant (fun _ _ _ hs h ↦ submissions_step hs h) hrun sound_init).idempotent

/-- Two calls that have inserted a job each race for the key; the second one loses. -/
def raceForKey : List SubmitAction :=
  let call : SubmitCall :=
    { repository := str "ops", workspace := str "load", params := [],
      idempotencyKey := some (str "k1") }
  [.call 0 call, .call 1 call, .check 0 (.ok []), .check 1 (.ok []), .lookup 0, .lookup 1,
    .insertJob 0, .insertJob 1, .insertKey 0, .commit 0, .insertKey 1, .rollback 1, .reread 1,
    .notify 0]

theorem submissions_idempotent_raceForKey :
    ∃ s, submitMachine.run {} raceForKey = some s ∧ s.Idempotent :=
  ⟨_, rfl, submissions_idempotent raceForKey rfl⟩

end DatumSync.Jobs
