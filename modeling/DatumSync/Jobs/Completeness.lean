import DatumSync.Jobs.Steps

/-!
# Completeness of an event stream

The notifications a listening generator has still to get are those of a final stretch of the job's
log, and once the history is read that stretch holds every row beyond the cursor.  So a stream is
complete exactly when no row is beyond its cursor at the end, and it can only end short of that by
reading a final status while log notifications are outstanding.
-/

namespace DatumSync.Jobs

open Python Foundation

variable {s t : StreamState}

/-! ## The invariant -/

/-- `rows` are the rows whose notifications are outstanding. -/
structure Owed (s : StreamState) (rows : List LogRow) : Prop where
  suffix : rows <:+ s.ownRows
  pending : s.pending = rows.map LogRow.body
  ahead : s.phase.isLive = true → ∀ row ∈ s.ownRows, s.cursor < row.id → row ∈ rows

/-- What holds in every state a stream can reach with room in its queue. -/
structure StreamInvariant (afterId : ℤ) (s : StreamState) : Prop where
  agrees : Agrees s
  owed : ∃ rows, Owed s rows
  silent : s.phase = .idle → s.inbox = []
  afterId_le : afterId ≤ s.cursor
  cursor : s.cursor = afterId ∨ s.cursor < s.log.nextId
  waiting : s.phase.isLive = true ∨ s.phase = .ended ∨ s.cursor = afterId
  shown : List.Forall₂ Shows (entriesUpTo LogRow.id afterId s.cursor s.ownRows)
    (s.frames.filter Frame.isLog)
  opened : ∀ row, s.phase = .opened row →
    Frame.status row ∈ s.frames ∧ (row.status.isTerminal = true → s.job.status.isTerminal = true)
  ended : s.phase = .ended → s.job.status.isTerminal = true ∧
    ∃ row, Frame.status row ∈ s.frames ∧ row.status.isTerminal = true

variable {afterId : ℤ}

theorem ownRows_bounded (s : StreamState) : ∀ row ∈ s.ownRows, row.id < s.log.nextId :=
  fun row hrow ↦ s.log.bounded row (List.mem_of_mem_filter hrow)

theorem ownRows_increasing (s : StreamState) : Increasing LogRow.id s.ownRows :=
  s.log.rowsOf_increasing s.job.id

/-- An idle generator has only the row that is being logged ahead of it. -/
theorem pending_of_idle (hinbox : s.inbox = []) :
    s.pending = s.worker.unsent.map LogRow.body := by
  rw [StreamState.pending, hinbox]
  rfl

theorem Quiet.owed (hquiet : Quiet s t) (hsilent : s.phase = .idle → s.inbox = [])
    (howed : ∃ rows, Owed s rows) : ∃ rows, Owed t rows := by
  obtain ⟨rows, hrows⟩ := howed
  by_cases hphase : s.phase = .idle
  · have hinbox := hsilent hphase
    have hpending := pending_of_idle ((hquiet.inbox hphase).trans hinbox)
    have hlive : t.phase.isLive = false := by
      rw [hquiet.phase, hphase]
      rfl
    rcases hquiet.unsent with hunsent | hunsent
    · refine ⟨rows, by rw [hquiet.ownRows]; exact hrows.suffix, ?_,
        fun h ↦ absurd h (by simp [hlive])⟩
      rw [hpending, hunsent, ← pending_of_idle hinbox]
      exact hrows.pending
    · refine ⟨[], List.nil_suffix, ?_, fun h ↦ absurd h (by simp [hlive])⟩
      rw [hpending, hunsent]
  · refine ⟨rows, by rw [hquiet.ownRows]; exact hrows.suffix,
      (hquiet.pending hphase).trans hrows.pending, fun hlive row hrow hahead ↦ ?_⟩
    rw [hquiet.phase] at hlive
    rw [hquiet.ownRows] at hrow
    rw [hquiet.cursor] at hahead
    exact hrows.ahead hlive row hrow hahead

theorem Quiet.invariant (hquiet : Quiet s t) (hi : StreamInvariant afterId s) :
    StreamInvariant afterId t where
  agrees := hquiet.agrees hi.agrees
  owed := hquiet.owed hi.silent hi.owed
  silent h := by
    rw [hquiet.phase] at h
    exact (hquiet.inbox h).trans (hi.silent h)
  afterId_le := by
    rw [hquiet.cursor]
    exact hi.afterId_le
  cursor := by
    rw [hquiet.cursor]
    exact hi.cursor.imp id fun h ↦ h.trans_le hquiet.nextId
  waiting := by
    rw [hquiet.phase, hquiet.cursor]
    exact hi.waiting
  shown := by
    rw [hquiet.cursor, hquiet.ownRows, hquiet.shown]
    exact hi.shown
  opened row h := by
    rw [hquiet.phase] at h
    obtain ⟨hemitted, hterminal⟩ := hi.opened row h
    exact ⟨hquiet.emitted hemitted, fun hrow ↦ hquiet.final hi.agrees (hterminal hrow)⟩
  ended h := by
    rw [hquiet.phase] at h
    obtain ⟨hterminal, row, hemitted, hrow⟩ := hi.ended h
    exact ⟨hquiet.final hi.agrees hterminal, row, hquiet.emitted hemitted, hrow⟩

/-- A row beyond the cursor is added to what is owed. -/
theorem insertLog_invariant {ts level message : Str} (hworker : s.worker = .running)
    (hi : StreamInvariant afterId s) :
    StreamInvariant afterId (s.insertLog ts level message) := by
  obtain ⟨hagrees, ⟨rows, hrows⟩, hsilent, hle, hcursor, hwaiting, hshown, hopened, hended⟩ := hi
  let row : LogRow := ⟨s.log.nextId, s.job.id, ts, logLevel level, message⟩
  have hown : (s.insertLog ts level message).ownRows = s.ownRows ++ [row] :=
    JobLog.rowsOf_insert_self _ _ _ _ _
  have hrunning : s.job.status.isTerminal = false := by
    unfold Agrees at hagrees
    rw [hagrees, hworker]
    rfl
  have hread : entriesUpTo LogRow.id afterId s.cursor (s.ownRows ++ [row]) =
      entriesUpTo LogRow.id afterId s.cursor s.ownRows := by
    rcases hcursor with hcursor | hcursor
    · rw [hcursor, entriesUpTo_self, entriesUpTo_self]
    · exact entriesUpTo_concat hcursor
  refine ⟨hrunning, ⟨rows ++ [row], ?_, ?_, ?_⟩, hsilent, hle, ?_, hwaiting, ?_, hopened, ?_⟩
  · obtain ⟨before, hbefore⟩ := hrows.suffix
    refine ⟨before, ?_⟩
    rw [hown, ← hbefore, List.append_assoc]
  · have hpending := hrows.pending
    unfold StreamState.pending at hpending ⊢
    rw [hworker] at hpending
    rw [List.map_append, ← hpending]
    simp [WorkerPhase.unsent, StreamState.inbox, StreamState.insertLog, row]
  · intro hlive r hr hahead
    rw [hown] at hr
    rcases List.mem_append.mp hr with hr | hr
    · exact List.mem_append_left _ (hrows.ahead hlive r hr hahead)
    · exact List.mem_append_right _ hr
  · exact hcursor.imp id fun h ↦ h.trans (Int.lt_succ _)
  · rw [hown]
    exact hread.symm ▸ hshown
  · intro h
    rw [(hended h).1] at hrunning
    cases hrunning

theorem listen_invariant (hphase : s.phase = .idle) (hi : StreamInvariant afterId s) :
    StreamInvariant afterId { s with phase := .listening } := by
  obtain ⟨hagrees, ⟨rows, hrows⟩, hsilent, hle, hcursor, hwaiting, hshown, hopened, hended⟩ := hi
  rw [hphase] at hwaiting
  exact ⟨hagrees, ⟨rows, hrows.suffix, hrows.pending, nofun⟩, nofun, hle, hcursor,
    .inr (.inr (by simpa [StreamPhase.isLive] using hwaiting)), hshown, nofun, nofun⟩

theorem readStatus_invariant (hphase : s.phase = .listening) (hi : StreamInvariant afterId s) :
    StreamInvariant afterId
      { s with phase := .opened s.job, frames := s.frames ++ [.status s.job] } := by
  obtain ⟨hagrees, ⟨rows, hrows⟩, hsilent, hle, hcursor, hwaiting, hshown, hopened, hended⟩ := hi
  rw [hphase] at hwaiting
  refine ⟨hagrees, ⟨rows, hrows.suffix, hrows.pending, nofun⟩, nofun, hle, hcursor,
    .inr (.inr (by simpa [StreamPhase.isLive] using hwaiting)), ?_, ?_, nofun⟩
  · rw [List.filter_append]
    exact (List.append_nil _).symm ▸ hshown
  · rintro row ⟨⟩
    exact ⟨List.mem_append_right _ List.mem_cons_self, id⟩

theorem shows_frame (rows : List LogRow) :
    List.Forall₂ Shows rows (rows.map LogRow.frame) := by
  rw [List.forall₂_map_right_iff]
  exact List.forall₂_same.mpr fun row _ ↦ .inl rfl

theorem filter_isLog_frame (rows : List LogRow) :
    (rows.map LogRow.frame).filter Frame.isLog = rows.map LogRow.frame := by
  apply List.filter_eq_self.mpr
  intro frame hframe
  obtain ⟨row, -, rfl⟩ := List.mem_map.mp hframe
  rfl

/-- The history read shows every row there is. -/
theorem readHistory_invariant {row : JobRow} (hphase : s.phase = .opened row)
    (hi : StreamInvariant afterId s) : StreamInvariant afterId (s.replay row) := by
  obtain ⟨hagrees, ⟨rows, hrows⟩, hsilent, hle, hcursor, hwaiting, hshown, hopened, hended⟩ := hi
  obtain ⟨hemitted, hterminal⟩ := hopened row hphase
  rw [hphase] at hwaiting
  have hstart : s.cursor = afterId := by simpa [StreamPhase.isLive] using hwaiting
  have hall : ∀ r ∈ s.ownRows,
      r.id ≤ advance LogRow.id s.cursor (s.log.getLog s.job.id s.cursor) := fun r hr ↦
    le_advance_of_mem (ownRows_increasing s) hr s.cursor
  have hphases : (s.replay row).phase = .streaming ∨
      (s.replay row).phase = .ended ∧ row.status.isTerminal = true := by
    unfold StreamState.replay
    dsimp only
    split
    · next h => exact .inr ⟨rfl, h⟩
    · exact .inl rfl
  refine ⟨hagrees, ⟨rows, hrows.suffix, hrows.pending, fun _ r hr hahead ↦ ?_⟩, fun h ↦ ?_,
    hle.trans (le_advance _), ?_, ?_, ?_, fun r hr ↦ ?_, fun h ↦ ?_⟩
  · exact absurd (hall r hr) (not_le_of_gt hahead)
  · rcases hphases with h' | h'
    · rw [h'] at h
      cases h
    · rw [h'.1] at h
      cases h
  · rcases List.eq_nil_or_concat' (s.log.getLog s.job.id s.cursor) with hnil | ⟨before, r, hconcat⟩
    · apply Or.inl
      unfold StreamState.replay
      dsimp only
      rw [hnil, advance_nil, hstart]
    · apply Or.inr
      have hr : r ∈ s.log.getLog s.job.id s.cursor := by
        rw [hconcat]
        exact List.mem_append_right _ List.mem_cons_self
      unfold StreamState.replay
      dsimp only
      rw [hconcat, advance_concat]
      exact ownRows_bounded s r (mem_entriesAfter.mp hr).1
  · rcases hphases with h | h
    · rw [h]
      exact .inl rfl
    · exact .inr (.inl h.1)
  · have hnone : s.frames.filter Frame.isLog = [] := by
      rw [hstart, entriesUpTo_self] at hshown
      exact List.forall₂_nil_left_iff.mp hshown
    have hread : entriesUpTo LogRow.id afterId (s.replay row).cursor (s.replay row).ownRows =
        s.log.getLog s.job.id s.cursor := by
      rw [hstart]
      exact entriesUpTo_eq_entriesAfter fun r hr ↦ hall r hr
    have hframes : (s.replay row).frames.filter Frame.isLog =
        (s.log.getLog s.job.id s.cursor).map LogRow.frame := by
      unfold StreamState.replay
      dsimp only
      rw [List.filter_append, hnone, filter_isLog_frame, List.nil_append]
    rw [hread, hframes]
    exact shows_frame _
  · rcases hphases with h | h
    · rw [h] at hr
      cases hr
    · rw [h.1] at hr
      cases hr
  · rcases hphases with h' | h'
    · rw [h'] at h
      cases h
    · exact ⟨hterminal h'.2, row, List.mem_append_left _ hemitted, h'.2⟩

theorem inbox_consume {body : Body} {rest : List Body} (hqueue : s.queue = body :: rest) :
    s.inbox = body :: StreamState.inbox { s with queue := rest } := by
  unfold StreamState.inbox
  rw [hqueue]
  rfl

theorem pending_consume_log {body : Body} {rest : List Body} (hqueue : s.queue = body :: rest)
    (hlog : body.isLog = true) :
    s.pending = body :: StreamState.pending { s with queue := rest } := by
  rw [StreamState.pending, inbox_consume hqueue, List.filter_cons_of_pos hlog]
  rfl

theorem pending_consume_other {body : Body} {rest : List Body} (hqueue : s.queue = body :: rest)
    (hlog : body.isLog = false) :
    s.pending = StreamState.pending { s with queue := rest } := by
  rw [StreamState.pending, inbox_consume hqueue, List.filter_cons_of_neg (by simp [hlog])]
  rfl

/-- The notification of a row the generator has shown changes nothing; that of the next row shows
it. -/
theorem handle_log_invariant {id : ℤ} {level message : Str} {rest : List Body}
    (hphase : s.phase = .streaming) (hqueue : s.queue = .log id level message :: rest)
    (hi : StreamInvariant afterId s) :
    StreamInvariant afterId ({ s with queue := rest }.handle (.log id level message)) := by
  obtain ⟨hagrees, ⟨rows, hrows⟩, hsilent, hle, hcursor, hwaiting, hshown, hopened, hended⟩ := hi
  have hlive : s.phase.isLive = true := by
    rw [hphase]
    rfl
  have hidle : s.phase ≠ .idle := by
    rw [hphase]
    exact StreamPhase.noConfusion
  obtain ⟨row, others, rfl, hbody, hothers⟩ :=
    List.map_eq_cons_iff.mp (hrows.pending.symm.trans (pending_consume_log hqueue rfl))
  obtain ⟨rfl, rfl, rfl⟩ := Body.log.inj hbody
  have hmem : row ∈ s.ownRows := hrows.suffix.subset List.mem_cons_self
  have hsuffix : others <:+ s.ownRows := (List.suffix_cons row others).trans hrows.suffix
  have hsorted : Increasing LogRow.id (row :: others) :=
    List.Pairwise.sublist hrows.suffix.sublist (ownRows_increasing s)
  have hlater : ∀ other ∈ s.ownRows, s.cursor < other.id → other = row ∨ other ∈ others :=
    fun other hother hahead ↦ List.mem_cons.mp (hrows.ahead hlive other hother hahead)
  unfold StreamState.handle
  dsimp only
  split
  · next hseen =>
    refine ⟨hagrees, ⟨others, hsuffix, hothers.symm, fun _ other hother hahead ↦ ?_⟩,
      fun h ↦ absurd h hidle, hle, hcursor, hwaiting, hshown, hopened, hended⟩
    rcases hlater other hother hahead with rfl | h
    · exact absurd hseen (not_le_of_gt hahead)
    · exact h
  · next hnew =>
    have hnew : s.cursor < row.id := not_le.mp hnew
    have hfirst : ∀ other ∈ s.ownRows, s.cursor < other.id → row.id ≤ other.id := by
      intro other hother hahead
      rcases hlater other hother hahead with rfl | h
      · exact le_rfl
      · exact ((List.pairwise_cons.mp hsorted).1 other h).le
    refine ⟨hagrees, ⟨others, hsuffix, hothers.symm, fun _ other hother hahead ↦ ?_⟩,
      fun h ↦ absurd h hidle, hle.trans hnew.le, .inr (ownRows_bounded s row hmem), .inl hlive, ?_,
      fun r hr ↦ ?_, fun h ↦ ?_⟩
    · rcases hlater other hother (hnew.trans hahead) with rfl | h
      · exact absurd hahead (lt_irrefl _)
      · exact h
    · have hread : entriesUpTo LogRow.id afterId row.id s.ownRows =
          entriesUpTo LogRow.id afterId s.cursor s.ownRows ++ [row] :=
        entriesUpTo_next (ownRows_increasing s) hmem hle hnew hfirst
      have hframes : (s.frames ++ [Frame.log row.id row.level (truncate row.message) none]).filter
          Frame.isLog = s.frames.filter Frame.isLog ++
          [.log row.id row.level (truncate row.message) none] := by
        rw [List.filter_append]
        rfl
      exact hframes.symm ▸ hread.symm ▸
        List.rel_append hshown (.cons (.inr rfl) .nil)
    · obtain ⟨hemitted, hterminal⟩ := hopened r hr
      exact ⟨List.mem_append_left _ hemitted, hterminal⟩
    · rw [show _ = s.phase from rfl, hphase] at h
      cases h

theorem quiet_handle_progress {pct : Json} {message : Str} {rest : List Body}
    (hphase : s.phase = .streaming) (hqueue : s.queue = .progress pct message :: rest) :
    Quiet s ({ s with queue := rest }.handle (.progress pct message)) where
  ownRows := rfl
  nextId := le_rfl
  unsent := .inl rfl
  inbox h := by
    rw [hphase] at h
    cases h
  pending _ := (pending_consume_other hqueue rfl).symm
  phase := rfl
  cursor := rfl
  shown := by
    unfold StreamState.handle
    dsimp only
    rw [List.filter_append]
    exact List.append_nil _
  emitted := List.subset_append_left _ _
  agrees h := h
  final _ h := h

theorem handle_status_invariant {status : JobStatus} {error : Option Str} {rest : List Body}
    (hphase : s.phase = .streaming) (hqueue : s.queue = .status status error :: rest)
    (hi : StreamInvariant afterId s) :
    StreamInvariant afterId ({ s with queue := rest }.handle (.status status error)) := by
  obtain ⟨hagrees, ⟨rows, hrows⟩, hsilent, hle, hcursor, hwaiting, hshown, hopened, hended⟩ := hi
  have hlive : s.phase.isLive = true := by
    rw [hphase]
    rfl
  exact ⟨hagrees, ⟨rows, hrows.suffix, (pending_consume_other hqueue rfl).symm.trans hrows.pending,
    fun _ ↦ hrows.ahead hlive⟩, nofun, hle, hcursor, .inl rfl, hshown, nofun, nofun⟩

theorem reread_invariant {notified : JobStatus} (hphase : s.phase = .rereading notified)
    (hi : StreamInvariant afterId s) :
    StreamInvariant afterId { s with
      frames := s.frames ++ [.status s.job]
      phase := if s.job.status.isTerminal then .ended else .streaming } := by
  obtain ⟨hagrees, ⟨rows, hrows⟩, hsilent, hle, hcursor, hwaiting, hshown, hopened, hended⟩ := hi
  have hlive : s.phase.isLive = true := by
    rw [hphase]
    rfl
  have hread : List.Forall₂ Shows (entriesUpTo LogRow.id afterId s.cursor s.ownRows)
      ((s.frames ++ [Frame.status s.job]).filter Frame.isLog) := by
    rw [List.filter_append]
    exact (List.append_nil _).symm ▸ hshown
  refine ⟨hagrees, ⟨rows, hrows.suffix, hrows.pending, fun _ ↦ hrows.ahead hlive⟩, ?_, hle,
    hcursor, ?_, hread, ?_, ?_⟩
  · dsimp only
    split <;> exact nofun
  · dsimp only
    split
    · exact .inr (.inl rfl)
    · exact .inl rfl
  · dsimp only
    split <;> exact nofun
  · dsimp only
    split
    · next h => exact fun _ ↦ ⟨h, s.job, List.mem_append_right _ List.mem_cons_self, h⟩
    · exact nofun

theorem Moves.invariant {action : StreamAction} (h : Moves s action t)
    (hi : StreamInvariant afterId s) : StreamInvariant afterId t := by
  cases h with
  | quiet _ hquiet => exact hquiet.invariant hi
  | insertLog hworker => exact insertLog_invariant hworker hi
  | listen hphase => exact listen_invariant hphase hi
  | readStatus hphase => exact readStatus_invariant hphase hi
  | readHistory hphase => exact readHistory_invariant hphase hi
  | @consume body rest hphase hqueue =>
    cases body with
    | log id level message => exact handle_log_invariant hphase hqueue hi
    | progress pct message => exact (quiet_handle_progress hphase hqueue).invariant hi
    | status status error => exact handle_status_invariant hphase hqueue hi
  | reread hphase => exact reread_invariant hphase hi

theorem streamStart_invariant (jobId : Str) (log : JobLog) (afterId : ℤ) :
    StreamInvariant afterId (streamStart jobId log afterId) where
  agrees := rfl
  owed := ⟨[], List.nil_suffix, rfl, nofun⟩
  silent _ := rfl
  afterId_le := le_rfl
  cursor := .inl rfl
  waiting := .inr (.inr rfl)
  shown := by
    rw [show (streamStart jobId log afterId).cursor = afterId from rfl, entriesUpTo_self]
    exact .nil
  opened := nofun
  ended := nofun

/-! ## Where a stream ends -/

theorem logIds_filter (frames : List Frame) :
    logIds (frames.filter Frame.isLog) = logIds frames := by
  unfold logIds
  rw [List.filterMap_filter]
  apply List.filterMap_congr
  intro frame _
  cases frame <;> rfl

theorem logIds_of_shows {rows : List LogRow} {frames : List Frame}
    (h : List.Forall₂ Shows rows frames) : logIds frames = rows.map LogRow.id := by
  induction h with
  | nil => rfl
  | cons hshows _ ih =>
    rcases hshows with rfl | rfl
    · exact congrArg (_ :: ·) ih
    · exact congrArg (_ :: ·) ih

/-- Frames that show rows of the log in its order have increasing ids. -/
theorem complete_of_shown (h : List.Forall₂ Shows (entriesAfter LogRow.id afterId s.ownRows)
    (s.frames.filter Frame.isLog)) : Complete afterId s := by
  refine ⟨h, ?_⟩
  rw [← logIds_filter, logIds_of_shows h, List.pairwise_map]
  exact (ownRows_increasing s).entriesAfter afterId

/-- The ids of a complete stream are those of the rows. -/
theorem Complete.ids (h : Complete afterId s) :
    logIds s.frames = (entriesAfter LogRow.id afterId s.ownRows).map LogRow.id := by
  rw [← logIds_filter, logIds_of_shows h.shown]

/-- What a stream shows is complete exactly when no row is beyond its cursor. -/
theorem complete_iff (hi : StreamInvariant afterId s) :
    Complete afterId s ↔ ∀ row ∈ s.ownRows, row.id ≤ s.cursor := by
  constructor
  · intro h
    apply (entriesUpTo_length_eq_iff hi.afterId_le).mp
    rw [hi.shown.length_eq, h.shown.length_eq]
  · intro h
    apply complete_of_shown
    rw [← entriesUpTo_eq_entriesAfter h]
    exact hi.shown

/-- A notification that is news is that of a row beyond the cursor, and the other way round once
the row is final. -/
theorem exists_news_iff {notified : JobStatus} (hphase : s.phase = .rereading notified)
    (hi : StreamInvariant afterId s) (hterminal : s.job.status.isTerminal = true) :
    (∃ body ∈ s.inbox, body.isNews s.cursor) ↔ ∃ row ∈ s.ownRows, s.cursor < row.id := by
  obtain ⟨rows, hrows⟩ := hi.owed
  have hunsent : s.worker.unsent = [] := by
    have hfinal := hi.agrees.symm.trans hterminal
    cases hworker : s.worker with
    | logging row =>
      rw [hworker] at hfinal
      cases hfinal
    | _ => rfl
  have hinbox : s.inbox.filter Body.isLog = rows.map LogRow.body := by
    rw [← hrows.pending, StreamState.pending, hunsent]
    exact (List.append_nil _).symm
  constructor
  · rintro ⟨body, hbody, hnews⟩
    have hlog : body.isLog = true := by
      cases body with
      | log id level message => rfl
      | _ => exact hnews.elim
    have hmem : body ∈ rows.map LogRow.body := by
      rw [← hinbox]
      exact List.mem_filter.mpr ⟨hbody, hlog⟩
    obtain ⟨row, hrow, rfl⟩ := List.mem_map.mp hmem
    exact ⟨row, hrows.suffix.subset hrow, hnews⟩
  · rintro ⟨row, hrow, hahead⟩
    have hlive : s.phase.isLive = true := by
      rw [hphase]
      rfl
    have hmem : row.body ∈ s.inbox.filter Body.isLog := by
      rw [hinbox]
      exact List.mem_map_of_mem (hrows.ahead hlive row hrow hahead)
    exact ⟨row.body, List.mem_of_mem_filter hmem, hahead⟩

/-- An ended stream stays as it is, and so does the job's log. -/
theorem Moves.of_ended {action : StreamAction} (h : Moves s action t)
    (hi : StreamInvariant afterId s) (hended : s.phase = .ended) :
    t.phase = .ended ∧ t.ownRows = s.ownRows ∧ t.cursor = s.cursor := by
  cases h with
  | quiet _ hquiet => exact ⟨hquiet.phase.trans hended, hquiet.ownRows, hquiet.cursor⟩
  | insertLog hworker =>
    have hterminal := (hi.ended hended).1
    have hagrees := hi.agrees
    unfold Agrees at hagrees
    rw [hagrees, hworker] at hterminal
    cases hterminal
  | listen hphase => rw [hphase] at hended; cases hended
  | readStatus hphase => rw [hphase] at hended; cases hended
  | readHistory hphase => rw [hphase] at hended; cases hended
  | consume hphase _ => rw [hphase] at hended; cases hended
  | reread hphase => rw [hphase] at hended; cases hended

/-- A step that ends the stream reads the rest of the history or a final status. -/
theorem Moves.ends {action : StreamAction} (h : Moves s action t) (hbefore : s.phase ≠ .ended)
    (hafter : t.phase = .ended) :
    (∃ row, s.phase = .opened row ∧ t = s.replay row) ∨
      (∃ notified, s.phase = .rereading notified) ∧ action = .reread ∧
        s.job.status.isTerminal = true ∧ t.ownRows = s.ownRows ∧ t.cursor = s.cursor := by
  cases h with
  | quiet _ hquiet => exact absurd (hquiet.phase.symm.trans hafter) hbefore
  | insertLog hworker => exact absurd hafter hbefore
  | listen hphase => cases hafter
  | readStatus hphase => cases hafter
  | readHistory hphase => exact .inl ⟨_, hphase, rfl⟩
  | @consume body rest hphase hqueue =>
    exfalso
    unfold StreamState.handle at hafter
    split at hafter
    · split at hafter
      · exact hbefore hafter
      · exact hbefore hafter
    · exact hbefore hafter
    · cases hafter
  | reread hphase =>
    refine .inr ⟨⟨_, hphase⟩, rfl, ?_, rfl, rfl⟩
    dsimp only at hafter
    split at hafter
    · next h => exact h
    · cases hafter

/-- A stream whose steps are caught up has read everything when it ends. -/
theorem Moves.read_all {action : StreamAction} (h : Moves s action t)
    (hi : StreamInvariant afterId s) (hcaught : CaughtUp s action)
    (hread : s.phase = .ended → ∀ row ∈ s.ownRows, row.id ≤ s.cursor) (hafter : t.phase = .ended) :
    ∀ row ∈ t.ownRows, row.id ≤ t.cursor := by
  by_cases hbefore : s.phase = .ended
  · obtain ⟨-, hrows, hcursor⟩ := h.of_ended hi hbefore
    rw [hrows, hcursor]
    exact hread hbefore
  · rcases h.ends hbefore hafter with
      ⟨row, hphase, rfl⟩ | ⟨⟨_, hphase⟩, rfl, hterminal, hrows, hcursor⟩
    · exact fun r hr ↦ le_advance_of_mem (ownRows_increasing s) hr s.cursor
    · rw [hrows, hcursor]
      intro row hrow
      by_contra hahead
      obtain ⟨body, hbody, hnews⟩ :=
        (exists_news_iff hphase hi hterminal).mpr ⟨row, hrow, not_le.mp hahead⟩
      exact hcaught hterminal body hbody hnews

/-- The stream has ended short of a row. -/
structure EndedShort (afterId : ℤ) (s : StreamState) : Prop where
  invariant : StreamInvariant afterId s
  ended : s.phase = .ended
  missing : ∃ row ∈ s.ownRows, s.cursor < row.id

/-- A final status that is read too early ends the stream with a row left out. -/
theorem Moves.endedShort {action : StreamAction} (h : Moves s action t)
    (hi : StreamInvariant afterId s) (hoff : ¬ CaughtUp s action) : EndedShort afterId t := by
  cases action with
  | reread =>
    have hterminal : s.job.status.isTerminal = true := by
      by_contra hterminal
      exact hoff fun h ↦ absurd h hterminal
    have hnews : ∃ body ∈ s.inbox, body.isNews s.cursor := by
      by_contra hnews
      exact hoff fun _ body hbody h ↦ hnews ⟨body, hbody, h⟩
    refine ⟨h.invariant hi, ?_, ?_⟩
    · cases h with
      | quiet hother _ => exact absurd rfl hother
      | reread hphase => exact if_pos hterminal
    · cases h with
      | quiet hother _ => exact absurd rfl hother
      | reread hphase => exact (exists_news_iff hphase hi hterminal).mp hnews
  | _ => exact absurd trivial hoff

theorem EndedShort.step {action : StreamAction} (hi : EndedShort afterId s)
    (h : Moves s action t) : EndedShort afterId t := by
  obtain ⟨hended, hrows, hcursor⟩ := h.of_ended hi.invariant hi.ended
  refine ⟨h.invariant hi.invariant, hended, ?_⟩
  rw [hrows, hcursor]
  exact hi.missing

variable {jobId : Str} {log : JobLog} {actions : List StreamAction}

theorem run_invariant (hrun : streamMachine.run (streamStart jobId log afterId) actions = some s)
    (hroom : streamMachine.Meets HasRoom (streamStart jobId log afterId) actions) :
    StreamInvariant afterId s :=
  streamMachine.invariant_run
    (fun _ _ _ hi hroom h ↦ (streamStep_moves hroom h).invariant hi) hroom hrun
    (streamStart_invariant jobId log afterId)

/-- What is in the log of a job whose row is final stays so. -/
theorem ownRows_of_terminal {action : StreamAction} (h : Moves s action t)
    (hi : StreamInvariant afterId s) (hterminal : s.job.status.isTerminal = true) :
    t.ownRows = s.ownRows := by
  cases h with
  | quiet _ hquiet => exact hquiet.ownRows
  | insertLog hworker =>
    have hagrees := hi.agrees
    unfold Agrees at hagrees
    rw [hagrees, hworker] at hterminal
    cases hterminal
  | @consume body rest hphase hqueue =>
    cases body with
    | log id level message =>
      unfold StreamState.handle
      dsimp only
      split <;> rfl
    | _ => rfl
  | _ => rfl

/-- A stream that has ended shows every log row of the job after `afterId` exactly when each final
status was read with no log notification outstanding. -/
theorem complete_iff_caughtUp
    (hrun : streamMachine.run (streamStart jobId log afterId) actions = some s)
    (hroom : streamMachine.Meets HasRoom (streamStart jobId log afterId) actions)
    (hended : s.phase = .ended) :
    Complete afterId s ↔ streamMachine.Meets CaughtUp (streamStart jobId log afterId) actions := by
  rw [complete_iff (run_invariant hrun hroom)]
  constructor
  · intro hall
    by_contra hcaught
    obtain ⟨before, action, after, u, v, rfl, hbefore, -, hoff, hstep, hafter⟩ :=
      streamMachine.exists_first_offence hrun hcaught
    obtain ⟨hroomBefore, hroomAfter⟩ := streamMachine.meets_append hroom hbefore
    have hu := run_invariant hbefore hroomBefore
    have hmoves := streamStep_moves hroomAfter.1 hstep
    have hshort : EndedShort afterId s :=
      streamMachine.invariant_run
        (fun _ _ _ hi hroom h ↦ hi.step (streamStep_moves hroom h)) (hroomAfter.2 v hstep) hafter
        (hmoves.endedShort hu hoff)
    obtain ⟨row, hrow, hahead⟩ := hshort.missing
    exact absurd (hall row hrow) (not_le_of_gt hahead)
  · intro hcaught
    refine (streamMachine.invariant_run
      (I := fun s ↦ StreamInvariant afterId s ∧
        (s.phase = .ended → ∀ row ∈ s.ownRows, row.id ≤ s.cursor))
      (fun s action t hi hmeets h ↦ ?_) (streamMachine.meets_and hroom hcaught) hrun
      ⟨streamStart_invariant jobId log afterId, nofun⟩).2 hended
    have hmoves := streamStep_moves hmeets.1 h
    exact ⟨hmoves.invariant hi.1, hmoves.read_all hi.1 hmeets.2 hi.2⟩

def emptyLog : JobLog where
  rows := []
  nextId := 1
  increasing := List.Pairwise.nil
  bounded := nofun

/-- A job that is claimed, logs one line and completes while the stream is open. -/
def followedRun : List StreamAction :=
  [.listen, .readStatus, .readHistory, .claim (str "t0"), .deliver, .consume, .reread,
    .insertLog (str "t1") (str "info") (str "line"), .notifyLog, .deliver, .consume,
    .updateFinal .complete (.arr []) none (str "t2"), .notifyFinal, .deliver, .consume, .reread]

theorem complete_iff_caughtUp_followed :
    ∃ s, streamMachine.run (streamStart (str "1") emptyLog 0) followedRun = some s ∧
      (Complete 0 s ↔
        streamMachine.Meets CaughtUp (streamStart (str "1") emptyLog 0) followedRun) := by
  have hended : (streamMachine.run (streamStart (str "1") emptyLog 0) followedRun).map
      StreamState.phase = some .ended := by decide +kernel
  obtain ⟨s, hs, hphase⟩ := Option.map_eq_some_iff.mp hended
  exact ⟨s, hs, complete_iff_caughtUp hs (by decide +kernel) hphase⟩

/-- The job logs its line and completes while the notification that it is running is handled. -/
def overtakenRun : List StreamAction :=
  [.listen, .readStatus, .readHistory, .claim (str "t0"), .deliver, .consume,
    .insertLog (str "t1") (str "info") (str "line"), .notifyLog, .deliver,
    .updateFinal .complete (.arr []) none (str "t2"), .reread]

/-- The stream ends with the frame of the completed job and never shows the line that was logged
before, whose notification is in the queue. -/
theorem overtaken_not_complete :
    ∃ s, streamMachine.run (streamStart (str "1") emptyLog 0) overtakenRun = some s ∧
      streamMachine.Meets HasRoom (streamStart (str "1") emptyLog 0) overtakenRun ∧
      s.phase = .ended ∧ s.frames.getLast?.map Frame.isLog = some false ∧
      logIds s.frames = [] ∧ s.ownRows.map LogRow.id = [1] ∧
      s.queue = [.log 1 (str "info") (str "line")] ∧ ¬ Complete 0 s := by
  have hrun : (streamMachine.run (streamStart (str "1") emptyLog 0) overtakenRun).map
      (fun s ↦ (s.phase, s.frames.getLast?.map Frame.isLog, logIds s.frames,
        s.ownRows.map LogRow.id, s.queue)) =
      some (.ended, some false, [], [1], [.log 1 (str "info") (str "line")]) := by
    decide +kernel
  obtain ⟨s, hs, hview⟩ := Option.map_eq_some_iff.mp hrun
  simp only [Prod.mk.injEq] at hview
  obtain ⟨hphase, hlast, hids, hrows, hqueue⟩ := hview
  refine ⟨s, hs, by decide +kernel, hphase, hlast, hids, hrows, hqueue, fun hcomplete ↦ ?_⟩
  have hone : 1 ∈ s.ownRows.map LogRow.id := by
    rw [hrows]
    exact List.mem_cons_self
  obtain ⟨row, hrow, hid⟩ := List.mem_map.mp hone
  have hshown : row.id ∈ logIds s.frames := by
    rw [hcomplete.ids]
    refine List.mem_map_of_mem (mem_entriesAfter.mpr ⟨hrow, ?_⟩)
    rw [hid]
    exact Int.one_pos
  rw [hids] at hshown
  exact absurd hshown List.not_mem_nil

end DatumSync.Jobs
