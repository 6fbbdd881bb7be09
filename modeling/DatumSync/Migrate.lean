import DatumSync.Foundation.Machine
import DatumSync.Foundation.UniqueKey
import DatumSync.Foundation.UniqueLoad
import DatumSync.Python.Dict
import Mathlib.Data.Fintype.Basic

/-!
# Migrations

`migrate` checks the applied files against the disk, works out once which files are pending, and
then applies each in a transaction of its own, with its row of `schema_migrations`.  The calls may
overlap; all that keeps them apart is the primary key of the table.  A file is read once for its SQL
and once more for the checksum of the row.
-/

namespace DatumSync.Migrate

open Foundation Python

/-- SHA-256 in hexadecimal, and what `read_text` makes of the bytes of a file. -/
structure Host where
  sha256 : List UInt8 → Str
  decode : List UInt8 → Option Str

/-- The files in `MIGRATIONS_PATH`, by name. -/
abbrev Files := List (Str × List UInt8)

/-- The rows of `schema_migrations`: file name and checksum. -/
abbrev Rows := List (Str × Str)

/-- A file as it was read to be applied. -/
structure Migration (host : Host) where
  filename : Str
  source : List UInt8
  sql : Str
  decodes : host.decode source = some sql

/-- How a call ends: it returns 0 or 1, or raises. -/
inductive Outcome where
  | succeeded
  | refused
  | raised
  deriving DecidableEq

/-- Where a call of `migrate` is; `left` are the names that its loop has still to come to. -/
inductive Phase (host : Host) where
  | connected
  | tracked
  | fetched (applied : Rows)
  | checking (applied : Rows) (found left drift : List Str)
  | looping (left : List Str)
  | loaded (migration : Migration host) (left : List Str)
  | opened (migration : Migration host) (left : List Str)
  | executed (migration : Migration host) (left : List Str)
  | hashed (migration : Migration host) (checksum : Str) (left : List Str)
  | inserted (migration : Migration host) (checksum : Str) (left : List Str)
  | ended (drift : List Str) (outcome : Outcome)

/-- The next thing that a call does.  A statement may fail, and the process may die, at any time. -/
inductive Event where
  | track (ok : Bool)
  | fetch
  | discover
  | check
  | decide
  | read
  | begin
  | execute (ok : Bool)
  | hash
  | insert
  | commit
  | finish
  | die
  deriving DecidableEq

def discover (files : Files) : List Str :=
  sortTexts ((files.map Prod.fst).filter fun name ↦ (str ".sql").isSuffixOf name)

/-- `_checksum`; undefined where the file is not there. -/
def checksumOf (host : Host) (files : Files) (name : Str) : Option Str :=
  (files.lookup name).map host.sha256

/-- What `_check_drift` asks of a file; undefined where the file is not there. -/
def isEdited (host : Host) (files : Files) (applied : Rows) (name : Str) : Option Bool :=
  match applied.lookup name with
  | none => some false
  | some previous => (checksumOf host files name).map fun checksum ↦ decide (previous ≠ checksum)

/-- `path.read_text()`; undefined where it raises. -/
def readText (host : Host) (files : Files) (name : Str) : Option (Migration host) :=
  match files.lookup name with
  | none => none
  | some source =>
    match h : host.decode source with
    | none => none
    | some sql => some ⟨name, source, sql, h⟩

def pendingOf (applied : Rows) (found : List Str) : List Str :=
  found.filter fun name ↦ (applied.lookup name).isNone

namespace Phase

variable {host : Host}

/-- The edited files that a call has found so far. -/
def drift : Phase host → List Str
  | checking _ _ _ drift => drift
  | ended drift _ => drift
  | _ => []

/-- The key of the row that the open transaction has inserted. -/
def Holds (phase : Phase host) (name : Str) : Prop :=
  match phase with
  | inserted migration _ _ => migration.filename = name
  | _ => False

instance (phase : Phase host) (name : Str) : Decidable (phase.Holds name) := by
  unfold Holds
  split <;> infer_instance

/-- What has been executed in the open transaction and has no checksum yet. -/
def executing : Phase host → Option (Migration host)
  | executed migration _ => some migration
  | _ => none

def isEnded : Phase host → Bool
  | ended _ _ => true
  | _ => false

/-- What a call does by itself: all but the insertion of a row and the commit. -/
def next (host : Host) (files : Files) (rows : Rows) : Phase host → Event → Option (Phase host)
  | connected, .track ok => some (if ok then tracked else ended [] .raised)
  | tracked, .fetch => some (fetched rows)
  | fetched applied, .discover => some (checking applied (discover files) (discover files) [])
  | checking applied found (name :: left) drift, .check =>
    match isEdited host files applied name with
    | none => some (ended drift .raised)
    | some edited => some (checking applied found left (if edited then drift ++ [name] else drift))
  | checking applied found [] drift, .decide =>
    some (if drift = [] then looping (pendingOf applied found) else ended drift .refused)
  | looping (name :: left), .read =>
    match readText host files name with
    | none => some (ended [] .raised)
    | some migration => some (loaded migration left)
  | looping [], .finish => some (ended [] .succeeded)
  | loaded migration left, .begin => some (opened migration left)
  | opened migration left, .execute ok =>
    some (if ok then executed migration left else ended [] .raised)
  | executed migration left, .hash =>
    match checksumOf host files migration.filename with
    | none => some (ended [] .raised)
    | some checksum => some (hashed migration checksum left)
  | phase, .die => if phase.isEnded then none else some (ended phase.drift .raised)
  | _, _ => none

end Phase

/-! ## Calls side by side -/

section Runs

variable {P : Type} {host : Host}

/-- The effects of a file, with the call that committed them. -/
structure Effect (P : Type) (host : Host) where
  runner : P
  migration : Migration host

/-- The directory, what is committed in the database, and where every call is. -/
structure State (P : Type) (host : Host) where
  files : Files
  rows : Rows
  effects : List (Effect P host)
  phases : P → Phase host

inductive Action (P : Type) where
  /-- A file is added or edited. -/
  | write (name : Str) (content : List UInt8)
  | run (r : P) (event : Event)

/-- A fresh database; no call has started. -/
def State.start (files : Files) : State P host where
  files := files
  rows := []
  effects := []
  phases _ := .connected

section Steps

variable [DecidableEq P]

def State.goTo (s : State P host) (r : P) (phase : Phase host) : State P host :=
  { s with phases := Function.update s.phases r phase }

/-- The insertion of a row fails where the key is committed; the transaction is rolled back. -/
def State.insertRow (s : State P host) (r : P) (migration : Migration host) (checksum : Str)
    (left : List Str) : State P host :=
  s.goTo r (if migration.filename ∈ s.rows.map Prod.fst then .ended [] .raised
    else .inserted migration checksum left)

/-- The effects of the file and its row become visible together. -/
def State.commitWork (s : State P host) (r : P) (migration : Migration host) (checksum : Str)
    (left : List Str) : State P host where
  files := s.files
  rows := s.rows ++ [(migration.filename, checksum)]
  effects := s.effects ++ [⟨r, migration⟩]
  phases := Function.update s.phases r (.looping left)

end Steps

def machine (P : Type) [DecidableEq P] [Fintype P] (host : Host) :
    Machine (State P host) (Action P) where
  step s action :=
    match action with
    | .write name content => some { s with files := setItem s.files name content }
    | .run r .insert =>
      match s.phases r with
      | .hashed migration checksum left =>
        -- The insertion waits for a transaction that has inserted the key.
        if ∃ q, (s.phases q).Holds migration.filename then none
        else some (s.insertRow r migration checksum left)
      | _ => none
    | .run r .commit =>
      match s.phases r with
      | .inserted migration checksum left => some (s.commitWork r migration checksum left)
      | _ => none
    | .run r event => ((s.phases r).next host s.files s.rows event).map (s.goTo r)

section Commit

variable [DecidableEq P] (s : State P host) (r : P) (migration : Migration host) (checksum : Str)
  (left : List Str)

theorem phases_commitWork : (s.commitWork r migration checksum left).phases =
    Function.update s.phases r (.looping left) := rfl

theorem rows_commitWork : (s.commitWork r migration checksum left).rows =
    s.rows ++ [(migration.filename, checksum)] := rfl

theorem effects_commitWork : (s.commitWork r migration checksum left).effects =
    s.effects ++ [⟨r, migration⟩] := rfl

end Commit

/-! ## What is promised -/

/-- The effects of a file are committed at most once. -/
def AppliedOnce (s : State P host) : Prop :=
  (s.effects.map fun e ↦ e.migration.filename).Nodup

/-- A file has its effects just when it has its row. -/
def Recorded (s : State P host) : Prop :=
  ∀ name, (∃ e ∈ s.effects, e.migration.filename = name) ↔ name ∈ s.rows.map Prod.fst

/-- A call that has found an applied file edited has committed nothing. -/
def RefusesEdited (s : State P host) : Prop :=
  ∀ r, (s.phases r).drift ≠ [] → ∀ e ∈ s.effects, e.runner ≠ r

structure Atomic (s : State P host) : Prop where
  appliedOnce : AppliedOnce s
  recorded : Recorded s
  refusesEdited : RefusesEdited s

/-- The file that is read for its checksum is as it was when it was read for its SQL. -/
def Unchanged (s : State P host) : Action P → Prop
  | .write _ _ => True
  | .run r event => event = .hash → ∀ migration ∈ (s.phases r).executing,
      s.files.lookup migration.filename = some migration.source

instance (s : State P host) : ∀ action, Decidable (Unchanged s action)
  | .write _ _ => isTrue trivial
  | .run r event => inferInstanceAs (Decidable (event = .hash →
      ∀ migration ∈ (s.phases r).executing,
        s.files.lookup migration.filename = some migration.source))

/-! ## One step of a call -/

namespace Phase

/-- The call has applied nothing yet, or has found an edited file. -/
def isBarren : Phase host → Bool
  | connected => true
  | tracked => true
  | fetched _ => true
  | checking _ _ _ _ => true
  | ended drift _ => decide (drift ≠ [])
  | _ => false

/-- The call has no checksum to record. -/
def isQuiet : Phase host → Bool
  | hashed _ _ _ => false
  | inserted _ _ _ => false
  | _ => true

/-- The checksum that the call goes on with is that of what it has executed. -/
def Faithful (phase : Phase host) : Prop :=
  match phase with
  | hashed migration checksum _ => checksum = host.sha256 migration.source
  | inserted migration checksum _ => checksum = host.sha256 migration.source
  | _ => True

variable {files : Files} {rows : Rows} {phase phase' : Phase host} {event : Event}

theorem isBarren_of_drift (h : phase.drift ≠ []) : phase.isBarren = true := by
  cases phase with
  | checking applied found left drift => rfl
  | ended drift outcome => exact decide_eq_true h
  | _ => exact absurd rfl h

theorem not_holds_of_isQuiet (h : phase.isQuiet = true) (name : Str) : ¬ phase.Holds name := by
  cases phase with
  | inserted migration checksum left => cases h
  | _ => exact id

theorem faithful_of_isQuiet (h : phase.isQuiet = true) : phase.Faithful := by
  cases phase with
  | hashed migration checksum left => cases h
  | inserted migration checksum left => cases h
  | _ => trivial

/-- A step of a call's own: it takes the checksum of what it has executed, or it goes on without
one, and is barren afterwards only if it was so before. -/
theorem next_cases (h : phase.next host files rows event = some phase') :
    (∃ migration checksum left, event = .hash ∧ phase = .executed migration left ∧
      checksumOf host files migration.filename = some checksum ∧
      phase' = .hashed migration checksum left) ∨
    (phase'.isQuiet = true ∧ (phase'.isBarren = true → phase.isBarren = true)) := by
  unfold next at h
  split at h
  · rw [← Option.some.inj h]
    exact .inr ⟨by split <;> rfl, fun _ ↦ rfl⟩
  · rw [← Option.some.inj h]
    exact .inr ⟨rfl, fun _ ↦ rfl⟩
  · rw [← Option.some.inj h]
    exact .inr ⟨rfl, fun _ ↦ rfl⟩
  · refine .inr ⟨?_, fun _ ↦ rfl⟩
    split at h <;> rw [← Option.some.inj h] <;> rfl
  · rw [← Option.some.inj h]
    exact .inr ⟨by split <;> rfl, fun _ ↦ rfl⟩
  · split at h <;> rw [← Option.some.inj h] <;> exact .inr ⟨rfl, nofun⟩
  · rw [← Option.some.inj h]
    exact .inr ⟨rfl, nofun⟩
  · rw [← Option.some.inj h]
    exact .inr ⟨rfl, nofun⟩
  · rw [← Option.some.inj h]
    split <;> exact .inr ⟨rfl, nofun⟩
  · next migration left =>
    split at h
    · rw [← Option.some.inj h]
      exact .inr ⟨rfl, nofun⟩
    · next checksum hchecksum =>
      exact .inl ⟨migration, checksum, left, rfl, rfl, hchecksum, (Option.some.inj h).symm⟩
  · split at h
    · cases h
    · rw [← Option.some.inj h]
      exact .inr ⟨rfl, fun hbarren ↦ isBarren_of_drift (of_decide_eq_true hbarren)⟩
  · cases h

/-- No step of a call's own inserts a row. -/
theorem not_holds_of_next (h : phase.next host files rows event = some phase') (name : Str) :
    ¬ phase'.Holds name := by
  rcases next_cases h with ⟨migration, checksum, left, -, -, -, rfl⟩ | ⟨hquiet, -⟩
  · exact id
  · exact not_holds_of_isQuiet hquiet name

theorem isBarren_of_next (h : phase.next host files rows event = some phase')
    (hbarren : phase'.isBarren = true) : phase.isBarren = true := by
  rcases next_cases h with ⟨migration, checksum, left, -, -, -, rfl⟩ | ⟨-, hbefore⟩
  · cases hbarren
  · exact hbefore hbarren

end Phase

/-! ## What every run keeps -/

/-- The rows are those of the effects, in the order of the commits, and a call that is barren has
committed nothing. -/
structure Inv (s : State P host) : Prop where
  unique : UniqueKey Phase.Holds (s.rows.map Prod.fst) s.phases
  matched : s.rows.map Prod.fst = s.effects.map fun e ↦ e.migration.filename
  barren : ∀ r, (s.phases r).isBarren = true → ∀ e ∈ s.effects, e.runner ≠ r

/-- No call goes on with a checksum of anything but what it has executed, and the rows have the
checksums of what was committed. -/
structure ChecksumInv (s : State P host) : Prop extends Inv s where
  faithful : ∀ r, (s.phases r).Faithful
  checksums : s.rows =
    s.effects.map fun e ↦ (e.migration.filename, host.sha256 e.migration.source)

section Step

variable {s t : State P host} {action : Action P} {r : P}

theorem Inv.start (files : Files) : Inv (State.start files : State P host) where
  unique :=
    { exclusive := fun _ _ _ h ↦ h.elim
      fresh := fun _ _ h ↦ h.elim
      nodup := List.nodup_nil }
  matched := rfl
  barren := fun _ _ _ he ↦ absurd he List.not_mem_nil

theorem ChecksumInv.start (files : Files) : ChecksumInv (State.start files : State P host) where
  toInv := Inv.start files
  faithful _ := trivial
  checksums := rfl

/-- The checksum is taken of the file as it was executed. -/
theorem Unchanged.faithful_next {event : Event} {phase : Phase host}
    (hunchanged : Unchanged s (.run r event))
    (h : (s.phases r).next host s.files s.rows event = some phase) : phase.Faithful := by
  rcases Phase.next_cases h with ⟨migration, checksum, left, rfl, hphase, hchecksum, rfl⟩ |
    ⟨hquiet, -⟩
  · have hsame := hunchanged rfl migration (by rw [hphase]; rfl)
    rw [checksumOf, hsame] at hchecksum
    exact (Option.some.inj hchecksum).symm
  · exact Phase.faithful_of_isQuiet hquiet

variable [DecidableEq P]

/-- A call that goes on and is not newly barren. -/
theorem Inv.barren_goTo (hs : Inv s) {phase : Phase host}
    (hphase : phase.isBarren = true → (s.phases r).isBarren = true) :
    ∀ q, (Function.update s.phases r phase q).isBarren = true → ∀ e ∈ s.effects, e.runner ≠ q := by
  intro q hq
  by_cases hqr : q = r
  · rw [hqr, Function.update_self] at hq
    rw [hqr]
    exact hs.barren r (hphase hq)
  · rw [Function.update_of_ne hqr] at hq
    exact hs.barren q hq

theorem Inv.next (hs : Inv s) {event : Event} {phase : Phase host}
    (h : (s.phases r).next host s.files s.rows event = some phase) : Inv (s.goTo r phase) where
  unique := hs.unique.goOn fun name hname ↦ absurd hname (Phase.not_holds_of_next h name)
  matched := hs.matched
  barren := hs.barren_goTo (Phase.isBarren_of_next h)

theorem Inv.insertRow (hs : Inv s) {migration : Migration host} {checksum : Str} {left : List Str}
    (hfree : ∀ q, ¬ (s.phases q).Holds migration.filename) :
    Inv (s.insertRow r migration checksum left) where
  unique := by
    by_cases hmem : migration.filename ∈ s.rows.map Prod.fst
    · rw [State.insertRow, if_pos hmem]
      exact hs.unique.goOn fun name hname ↦ hname.elim
    · rw [State.insertRow, if_neg hmem]
      exact hs.unique.claim hfree hmem fun name hname ↦ hname.symm
  matched := hs.matched
  barren := by
    refine hs.barren_goTo fun hbarren ↦ ?_
    split at hbarren <;> cases hbarren

theorem Inv.commitWork (hs : Inv s) {migration : Migration host} {checksum : Str} {left : List Str}
    (h : s.phases r = .inserted migration checksum left) :
    Inv (s.commitWork r migration checksum left) where
  unique := by
    have hholds : (s.phases r).Holds migration.filename := by
      rw [h]
      rfl
    rw [rows_commitWork, List.map_append]
    exact hs.unique.commit hholds fun name hname ↦ hname
  matched := by
    rw [rows_commitWork, effects_commitWork, List.map_append, List.map_append, hs.matched]
    rfl
  barren := by
    intro q hq e he
    have hqr : q ≠ r := by
      rintro rfl
      rw [phases_commitWork, Function.update_self] at hq
      cases hq
    rw [phases_commitWork, Function.update_of_ne hqr] at hq
    rw [effects_commitWork, List.mem_append, List.mem_singleton] at he
    rcases he with he | rfl
    · exact hs.barren q hq e he
    · exact hqr.symm

theorem ChecksumInv.faithful_goTo (hs : ChecksumInv s) {phase : Phase host}
    (hphase : phase.Faithful) : ∀ q, (Function.update s.phases r phase q).Faithful := by
  intro q
  by_cases hqr : q = r
  · rw [hqr, Function.update_self]
    exact hphase
  · rw [Function.update_of_ne hqr]
    exact hs.faithful q

variable [Fintype P]

/-- One step of a run: a file is written, a call goes on by itself, or it inserts or commits a row
that nobody else holds. -/
theorem step_cases
    (h : (machine P host).step s action = some t) :
    (∃ name content, action = .write name content ∧
      t = { s with files := setItem s.files name content }) ∨
    (∃ r event phase, action = .run r event ∧
      (s.phases r).next host s.files s.rows event = some phase ∧ t = s.goTo r phase) ∨
    (∃ r migration checksum left, s.phases r = .hashed migration checksum left ∧
      (∀ q, ¬ (s.phases q).Holds migration.filename) ∧
      t = s.insertRow r migration checksum left) ∨
    (∃ r migration checksum left, s.phases r = .inserted migration checksum left ∧
      t = s.commitWork r migration checksum left) := by
  unfold machine at h
  dsimp only at h
  split at h
  · exact .inl ⟨_, _, rfl, (Option.some.inj h).symm⟩
  · split at h
    · next migration checksum left hphase =>
      split at h
      · cases h
      · next hfree =>
        exact .inr (.inr (.inl ⟨_, migration, checksum, left, hphase, not_exists.mp hfree,
          (Option.some.inj h).symm⟩))
    · cases h
  · split at h
    · next migration checksum left hphase =>
      exact .inr (.inr (.inr ⟨_, migration, checksum, left, hphase, (Option.some.inj h).symm⟩))
    · cases h
  · obtain ⟨phase, hphase, heq⟩ := Option.map_eq_some_iff.mp h
    exact .inr (.inl ⟨_, _, phase, rfl, hphase, heq.symm⟩)

theorem Inv.step (hs : Inv s) (h : (machine P host).step s action = some t) : Inv t := by
  rcases step_cases h with ⟨name, content, -, rfl⟩ | ⟨r, event, phase, -, hnext, rfl⟩ |
    ⟨r, migration, checksum, left, -, hfree, rfl⟩ | ⟨r, migration, checksum, left, hphase, rfl⟩
  · exact ⟨hs.unique, hs.matched, hs.barren⟩
  · exact hs.next hnext
  · exact hs.insertRow hfree
  · exact hs.commitWork hphase

theorem ChecksumInv.step (hs : ChecksumInv s) (hunchanged : Unchanged s action)
    (h : (machine P host).step s action = some t) : ChecksumInv t := by
  refine { toInv := hs.toInv.step h, faithful := ?_, checksums := ?_ }
  all_goals
    rcases step_cases h with ⟨name, content, rfl, rfl⟩ | ⟨r, event, phase, rfl, hnext, rfl⟩ |
      ⟨r, migration, checksum, left, hphase, hfree, rfl⟩ |
      ⟨r, migration, checksum, left, hphase, rfl⟩
  · exact hs.faithful
  · exact hs.faithful_goTo (hunchanged.faithful_next hnext)
  · have hchecksum := hs.faithful r
    rw [hphase] at hchecksum
    refine hs.faithful_goTo ?_
    split
    · trivial
    · exact hchecksum
  · exact hs.faithful_goTo trivial
  · exact hs.checksums
  · exact hs.checksums
  · exact hs.checksums
  · have hchecksum : checksum = host.sha256 migration.source := by
      have hfaithful := hs.faithful r
      rwa [hphase] at hfaithful
    rw [rows_commitWork, effects_commitWork, List.map_append, hs.checksums, hchecksum]
    rfl

end Step

end Runs

/-! ## Runs with one file -/

def bytesOf (s : String) : List UInt8 := (str s).map fun c ↦ UInt8.ofNat c.val

/-- What a call does until it has executed its first file. -/
def untilExecuted : List Event :=
  [.track true, .fetch, .discover, .check, .decide, .read, .begin, .execute true]

/-- Two calls that have worked out the same pending file; the second one fails at its row. -/
def twoCalls : List (Action (Fin 2)) :=
  untilExecuted.flatMap (fun event ↦ [.run 0 event, .run 1 event]) ++
    [.run 1 .hash, .run 0 .hash, .run 0 .insert, .run 0 .commit, .run 1 .insert, .run 0 .finish]

end DatumSync.Migrate
