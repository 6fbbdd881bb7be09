import DatumSync.Foundation.KeyedTable
import DatumSync.Services

/-!
# The table of hosted services

`hosted_services` has one row a name.  `register` upserts a row of a name that is free or the
workspace's own; `deregister_workspace` deletes the rows of a workspace.  A statement that writes
stamps the row with a later time than all before it.
-/

namespace DatumSync.Services

open Python Worker Foundation

/-- The columns of a row of `hosted_services` that registration writes or reads, `name` apart. -/
structure HostedRow where
  type : Str
  repository : Str
  workspace : Str
  sourceJob : Option Str
  path : Option (List Str)
  updatedAt : ℕ
  deriving DecidableEq

/-- The row is of a workspace. -/
def HostedRow.ownedBy (repository workspace : Str) (row : HostedRow) : Bool :=
  row.repository == repository && row.workspace == workspace

/-- `hosted_services` at a time that no row is later than. -/
structure Hosted where
  table : Table Str HostedRow
  now : ℕ
  earlier : ∀ name row, table.lookup name = some row → row.updatedAt ≤ now

def Service.row (service : Service) (now : ℕ) : HostedRow where
  type := service.type
  repository := service.repository
  workspace := service.workspace
  sourceJob := some service.sourceJob
  path := some service.path
  updatedAt := now

def Service.update (service : Service) (now : ℕ) (row : HostedRow) : HostedRow :=
  { row with
    type := service.type
    sourceJob := some service.sourceJob
    path := some service.path
    updatedAt := now }

namespace Hosted

/-- The statement of `register`, without the time it moves on. -/
def write (hosted : Hosted) (service : Service) : Table Str HostedRow × Bool :=
  Table.upsert service.name (service.row (hosted.now + 1)) (service.update (hosted.now + 1))
    (HostedRow.ownedBy service.repository service.workspace) hosted.table

/-- The name is free, or the row of the workspace. -/
def isFree (hosted : Hosted) (repository workspace name : Str) : Bool :=
  (hosted.table.lookup name).all (HostedRow.ownedBy repository workspace)

variable {hosted : Hosted} {service : Service} {name : Str}

theorem write_snd : (hosted.write service).2 =
    hosted.isFree service.repository service.workspace service.name :=
  Table.upsert_snd

/-- A write that is refused leaves the table as it is. -/
theorem write_refused
    (h : hosted.isFree service.repository service.workspace service.name = false) :
    (hosted.write service).1 = hosted.table :=
  congrArg Prod.fst (Table.upsert_refused h)

theorem lookup_write_ne (h : name ≠ service.name) :
    (hosted.write service).1.lookup name = hosted.table.lookup name :=
  Table.lookup_upsert_ne h

/-- The row a write leaves under its name: the service's own, stamped with the new time. -/
theorem lookup_write_self
    (h : hosted.isFree service.repository service.workspace service.name = true) :
    ∃ row, (hosted.write service).1.lookup service.name = some row ∧
      row.ownedBy service.repository service.workspace = true ∧
      row.sourceJob = some service.sourceJob ∧ row.updatedAt = hosted.now + 1 := by
  refine ⟨_, Table.lookup_upsert_self h, ?_⟩
  unfold isFree at h
  cases hheld : hosted.table.lookup service.name with
  | none => simp [Service.row, HostedRow.ownedBy]
  | some held =>
    rw [hheld] at h
    exact ⟨h, rfl, rfl⟩

theorem write_earlier (name : Str) (row : HostedRow)
    (h : (hosted.write service).1.lookup name = some row) : row.updatedAt ≤ hosted.now + 1 := by
  by_cases hname : name = service.name
  · subst hname
    cases hfree : hosted.isFree service.repository service.workspace service.name with
    | true =>
      obtain ⟨written, hwritten, _, _, htime⟩ := lookup_write_self hfree
      rw [hwritten] at h
      rw [← Option.some.inj h, htime]
    | false =>
      rw [write_refused hfree] at h
      exact Nat.le_succ_of_le (hosted.earlier _ _ h)
  · rw [lookup_write_ne hname] at h
    exact Nat.le_succ_of_le (hosted.earlier _ _ h)

/-- The upsert of `register`: what is written, and whether a name is returned. -/
def upsert (hosted : Hosted) (service : Service) : Hosted × Option Str :=
  (⟨(hosted.write service).1, hosted.now + 1, write_earlier⟩,
    if (hosted.write service).2 then some service.name else none)

def deregister (hosted : Hosted) (repository workspace : Str) : Hosted where
  table := Table.keep (fun _ row ↦ !row.ownedBy repository workspace) hosted.table
  now := hosted.now
  earlier name row h := by
    rw [Table.lookup_keep, Option.filter_eq_some_iff] at h
    exact hosted.earlier name row h.1

/-- The rows that are not of a workspace are the same in two tables. -/
def SameOthers (repository workspace : Str) (before after : Hosted) : Prop :=
  ∀ name row, row.ownedBy repository workspace = false →
    (after.table.lookup name = some row ↔ before.table.lookup name = some row)

theorem SameOthers.refl (repository workspace : Str) (hosted : Hosted) :
    SameOthers repository workspace hosted hosted := fun _ _ _ ↦ Iff.rfl

theorem SameOthers.trans {repository workspace : Str} {first second third : Hosted}
    (h : SameOthers repository workspace first second)
    (h' : SameOthers repository workspace second third) :
    SameOthers repository workspace first third :=
  fun name row hrow ↦ (h' name row hrow).trans (h name row hrow)

/-- An upsert changes no row of another workspace. -/
theorem sameOthers_upsert (hosted : Hosted) (service : Service) :
    SameOthers service.repository service.workspace hosted (hosted.upsert service).1 := by
  intro name row hrow
  change (hosted.write service).1.lookup name = some row ↔ _
  by_cases hname : name = service.name
  · subst hname
    cases hfree : hosted.isFree service.repository service.workspace service.name with
    | true =>
      obtain ⟨written, hwritten, howned, _, _⟩ := lookup_write_self hfree
      rw [hwritten]
      constructor
      · intro h
        rw [← Option.some.inj h, howned] at hrow
        cases hrow
      · intro h
        rw [isFree, h] at hfree
        rw [show HostedRow.ownedBy _ _ row = true from hfree] at hrow
        cases hrow
    | false => rw [write_refused hfree]
  · rw [lookup_write_ne hname]

/-- Whose a name is looks at the rows of others only. -/
theorem SameOthers.isFree {repository workspace : Str} {before after : Hosted}
    (h : SameOthers repository workspace before after) (name : Str) :
    after.isFree repository workspace name = before.isFree repository workspace name := by
  have hheld (hosted : Hosted) : hosted.isFree repository workspace name = false ↔
      ∃ row, row.ownedBy repository workspace = false ∧ hosted.table.lookup name = some row := by
    unfold Hosted.isFree
    cases hlookup : hosted.table.lookup name with
    | none => simp
    | some held => simp
  rw [Bool.eq_iff_iff, ← not_iff_not, Bool.not_eq_true, Bool.not_eq_true, hheld, hheld]
  exact exists_congr fun row ↦ and_congr_right fun hrow ↦ h name row hrow

end Hosted

/-! ## Holders -/

section Holders

variable {hosted : Hosted} {name : Str} {key : Str × Str}

/-- Somebody holds the name. -/
def Hosted.IsHeld (hosted : Hosted) (name : Str) : Prop := (hosted.table.lookup name).isSome = true

def Hosted.Holds (hosted : Hosted) (name : Str) (key : Str × Str) : Prop :=
  ∃ row, hosted.table.lookup name = some row ∧ row.ownedBy key.1 key.2 = true

/-- What was held before has the same holder after. -/
def Hosted.Keeps (before after : Hosted) : Prop :=
  ∀ name key, before.Holds name key → after.Holds name key

/-- The row of one name is of one workspace. -/
theorem ownedBy_unique {held : HostedRow} {repository workspace : Str}
    (h : held.ownedBy key.1 key.2 = true) (h' : held.ownedBy repository workspace = true) :
    (repository, workspace) = key := by
  simp only [HostedRow.ownedBy, Bool.and_eq_true, beq_iff_eq] at h h'
  exact Prod.ext (h'.1.symm.trans h.1) (h'.2.symm.trans h.2)

/-- A name that is free for a workspace has no other holder. -/
theorem Hosted.Holds.of_isFree {repository workspace : Str}
    (h : hosted.Holds name key) (hfree : hosted.isFree repository workspace name = true) :
    (repository, workspace) = key := by
  obtain ⟨held, hheld, howned⟩ := h
  rw [Hosted.isFree, hheld] at hfree
  exact ownedBy_unique howned hfree

/-- A name that is held and free for a workspace is held by it. -/
theorem Hosted.IsHeld.holds {repository workspace : Str}
    (h : hosted.IsHeld name) (hfree : hosted.isFree repository workspace name = true) :
    hosted.Holds name (repository, workspace) := by
  obtain ⟨held, hheld⟩ := Option.isSome_iff_exists.mp h
  rw [Hosted.isFree, hheld] at hfree
  exact ⟨held, hheld, hfree⟩

/-- A statement of `register` gives no name another holder. -/
theorem Hosted.keeps_upsert (hosted : Hosted) (service : Service) :
    hosted.Keeps (hosted.upsert service).1 := by
  rintro name key ⟨held, hheld, howned⟩
  change ∃ row, (hosted.write service).1.lookup name = some row ∧ _
  by_cases hsame : name = service.name
  · subst hsame
    cases hfree : hosted.isFree service.repository service.workspace service.name with
    | true =>
      obtain ⟨written, hwritten, hwrites, -, -⟩ := Hosted.lookup_write_self hfree
      have hkey := Hosted.Holds.of_isFree ⟨held, hheld, howned⟩ hfree
      exact ⟨written, hwritten, hkey ▸ hwrites⟩
    | false =>
      rw [Hosted.write_refused hfree]
      exact ⟨held, hheld, howned⟩
  · rw [Hosted.lookup_write_ne hsame]
    exact ⟨held, hheld, howned⟩

end Holders

end DatumSync.Services
