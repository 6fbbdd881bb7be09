import DatumSync.Principal

/-!
# The audit spine

`write` never raises: it inserts one row under the trace of the request, or counts the row it
could not insert.  `drop` counts a row whose writer never got a connection.  What the trail
promises of a request is `Visible`: a row with its trace, or a larger count.
-/

namespace DatumSync.Audit

open Python

structure Trace where
  id : Str
  clientId : Option Str

inductive Outcome where
  | ok
  | error
  deriving DecidableEq

/-- The keyword arguments of `write` that describe the action. -/
structure Entry where
  via : Str
  verb : Str
  targetKind : Option Str
  target : Json
  outcome : Outcome
  errorCode : Option ℤ := none
  durationMs : Option ℤ := none
  governance : Bool := false
  detail : Option (List (Str × Json)) := none

/-- A row of `audit_log`.  Only the anonymous writer leaves the actor's id out. -/
structure Row where
  traceId : Str
  clientTraceId : Option Str
  actorKind : Str
  actorId : Option ℤ
  actorName : Str
  entry : Entry

/-- The rows of `audit_log`, and `dropped()`. -/
structure Log where
  rows : List Row
  dropped : ℕ

def drop (log : Log) : Log := { log with dropped := log.dropped + 1 }

/-- The row `write` inserts: an agent's row names its account in the detail. -/
def rowOf (trace : Trace) (principal : Principal) (entry : Entry) : Row :=
  match principal.agentId with
  | some agentId =>
    { traceId := trace.id
      clientTraceId := trace.clientId
      actorKind := str "agent"
      actorId := some agentId
      actorName := principal.agentName.getD []
      entry := { entry with
        detail := some
          (Json.assign (entry.detail.getD []) (str "account") (.text principal.name)) } }
  | none =>
    { traceId := trace.id
      clientTraceId := trace.clientId
      actorKind := str "account"
      actorId := some principal.accountId
      actorName := principal.name
      entry := entry }

def insertRow (accepts : Row → Bool) (row : Row) (log : Log) : Log :=
  if accepts row then { log with rows := log.rows ++ [row] } else drop log

/-- `audit.write`; `accepts` says which inserts the database performs. -/
def write (accepts : Row → Bool) (trace : Trace) (principal : Principal) (entry : Entry)
    (log : Log) : Log :=
  insertRow accepts (rowOf trace principal entry) log

def writeAnon (accepts : Row → Bool) (trace : Trace) (entry : Entry) (log : Log) : Log :=
  insertRow accepts
    { traceId := trace.id
      clientTraceId := trace.clientId
      actorKind := str "anonymous"
      actorId := none
      actorName := []
      entry := entry } log

/-- The request left a row with its trace, or the count of lost rows went up. -/
def Visible (trace : Trace) (before after : Log) : Prop :=
  (∃ row ∈ after.rows, row.traceId = trace.id) ∨ before.dropped < after.dropped

/-- No row of the log belongs to the request: its trace is freshly minted. -/
def Fresh (trace : Trace) (log : Log) : Prop := ∀ row ∈ log.rows, row.traceId ≠ trace.id

/-- `after` was reached from `before` by inserting rows and counting lost ones. -/
def Extends (before after : Log) : Prop :=
  (∃ rows, after.rows = before.rows ++ rows) ∧ before.dropped ≤ after.dropped

theorem Extends.refl (log : Log) : Extends log log := ⟨⟨[], by simp⟩, le_rfl⟩

theorem Extends.trans {a b c : Log} (hab : Extends a b) (hbc : Extends b c) : Extends a c := by
  obtain ⟨⟨rows, hrows⟩, hdropped⟩ := hab
  obtain ⟨⟨rows', hrows'⟩, hdropped'⟩ := hbc
  exact ⟨⟨rows ++ rows', by rw [hrows', hrows, List.append_assoc]⟩, hdropped.trans hdropped'⟩

theorem Visible.extend {trace : Trace} {before middle after : Log}
    (h : Visible trace before middle) (hext : Extends middle after) :
    Visible trace before after := by
  obtain ⟨⟨rows, hrows⟩, hdropped⟩ := hext
  rcases h with ⟨row, hmem, htrace⟩ | hlt
  · exact .inl ⟨row, by rw [hrows]; exact List.mem_append_left rows hmem, htrace⟩
  · exact .inr (hlt.trans_le hdropped)

theorem Visible.weaken {trace : Trace} {before middle after : Log} (hext : Extends before middle)
    (h : Visible trace middle after) : Visible trace before after := by
  rcases h with hrow | hlt
  · exact .inl hrow
  · exact .inr (hext.2.trans_lt hlt)

/-- An unchanged log shows nothing of a fresh request. -/
theorem not_visible_self {trace : Trace} {log : Log} (hfresh : Fresh trace log) :
    ¬ Visible trace log log := by
  rintro (⟨row, hmem, htrace⟩ | hlt)
  · exact hfresh row hmem htrace
  · exact lt_irrefl _ hlt

theorem drop_extends (log : Log) : Extends log (drop log) := ⟨⟨[], by simp [drop]⟩, Nat.le_succ _⟩

theorem drop_visible (trace : Trace) (log : Log) : Visible trace log (drop log) :=
  .inr (Nat.lt_succ_self _)

theorem insertRow_extends (accepts : Row → Bool) (row : Row) (log : Log) :
    Extends log (insertRow accepts row log) := by
  unfold insertRow
  split
  · exact ⟨⟨[row], rfl⟩, le_rfl⟩
  · exact drop_extends log

theorem insertRow_visible {accepts : Row → Bool} {row : Row} {trace : Trace} (log : Log)
    (htrace : row.traceId = trace.id) : Visible trace log (insertRow accepts row log) := by
  unfold insertRow
  split
  · exact .inl ⟨row, List.mem_append_right _ (List.mem_singleton_self row), htrace⟩
  · exact drop_visible trace log

theorem rowOf_traceId (trace : Trace) (principal : Principal) (entry : Entry) :
    (rowOf trace principal entry).traceId = trace.id := by
  unfold rowOf
  split <;> rfl

theorem rowOf_governance (trace : Trace) (principal : Principal) (entry : Entry) :
    (rowOf trace principal entry).entry.governance = entry.governance := by
  unfold rowOf
  split <;> rfl

/-- The rows of the log after a write are the old ones and at most the one of the entry. -/
theorem mem_write_drop {accepts : Row → Bool} {trace : Trace} {principal : Principal}
    {entry : Entry} {log : Log} {row : Row}
    (h : row ∈ (write accepts trace principal entry log).rows.drop log.rows.length) :
    row = rowOf trace principal entry := by
  rw [write, insertRow] at h
  split at h
  · rw [List.drop_left] at h
    exact List.mem_singleton.mp h
  · rw [drop, List.drop_length] at h
    exact absurd h List.not_mem_nil

theorem write_extends (accepts : Row → Bool) (trace : Trace) (principal : Principal)
    (entry : Entry) (log : Log) : Extends log (write accepts trace principal entry log) :=
  insertRow_extends accepts _ log

/-- Whatever the database does, a call of `write` leaves the request visible. -/
theorem write_visible (accepts : Row → Bool) (trace : Trace) (principal : Principal)
    (entry : Entry) (log : Log) : Visible trace log (write accepts trace principal entry log) :=
  insertRow_visible log (rowOf_traceId trace principal entry)

/-- One `write` after the other. -/
def writeAll (accepts : Row → Bool) (trace : Trace) (principal : Principal)
    (entries : List Entry) (log : Log) : Log :=
  entries.foldl (fun log entry ↦ write accepts trace principal entry log) log

theorem writeAll_extends (accepts : Row → Bool) (trace : Trace) (principal : Principal)
    (entries : List Entry) (log : Log) :
    Extends log (writeAll accepts trace principal entries log) := by
  induction entries generalizing log with
  | nil => exact Extends.refl log
  | cons entry rest ih => exact (write_extends accepts trace principal entry log).trans (ih _)

/-- A fresh request that writes entries is visible exactly when it writes one. -/
theorem writeAll_visible_iff {accepts : Row → Bool} {trace : Trace} {principal : Principal}
    {entries : List Entry} {log : Log} (hfresh : Fresh trace log) :
    Visible trace log (writeAll accepts trace principal entries log) ↔ entries ≠ [] := by
  cases entries with
  | nil => exact iff_of_false (not_visible_self hfresh) (fun h ↦ h rfl)
  | cons entry rest =>
    refine iff_of_true ?_ (List.cons_ne_nil entry rest)
    exact (write_visible accepts trace principal entry log).extend
      (writeAll_extends accepts trace principal rest _)

end DatumSync.Audit
