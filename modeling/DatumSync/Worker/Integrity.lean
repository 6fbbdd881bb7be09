import DatumSync.Worker.Runner

/-!
# The artifacts of a complete run are those of the last result

Along every run the handled lines and the ones left make up what the child writes, and what is
collected so far is what the handled lines report.  A pump that does not end early reads every
line.  So a complete answer is faithful exactly when the event pump ended at no line with a report
in or behind it, a stderr pump that ended early did not cut the reading short, and the child wrote
a report at all.
-/

namespace DatumSync.Worker

open Python Foundation

variable {config : RunConfig}

theorem handleLine_report {depth : ℕ} {raw : List UInt8} {report : Report}
    (h : handleLine depth raw = .report report) : reported depth raw = some report := by
  unfold handleLine at h
  unfold reported
  dsimp only at h
  split at h
  · cases h
  · split at h
    · cases h
    · split at h
      · cases h
      · cases h
      · next fields hloads =>
        rw [hloads]
        dsimp only
        rw [h]
      · cases h

/-- The empty text is no JSON document. -/
theorem reported_of_blank {depth : ℕ} {raw : List UInt8} (h : lineText raw = []) :
    reported depth raw = none := by
  unfold reported
  rw [h]
  rfl

/-- A line that is skipped or goes to the sink holds no report. -/
theorem handleLine_no_report {depth : ℕ} {raw : List UInt8}
    (h : handleLine depth raw = .skip ∨ ∃ type payload, handleLine depth raw = .emit type payload) :
    reported depth raw = none := by
  cases hreport : reported depth raw with
  | none => rfl
  | some report =>
    exfalso
    have hblank : lineText raw ≠ [] := by
      intro hblank
      rw [reported_of_blank hblank] at hreport
      cases hreport
    unfold reported at hreport
    unfold handleLine at h
    dsimp only at h
    split at hreport
    · next fields hloads =>
      split at hreport
      · next report' hevent =>
        rw [if_neg hblank, hloads] at h
        dsimp only at h
        rw [hevent] at h
        split at h
        · rcases h with h | ⟨_, _, h⟩ <;> cases h
        · rcases h with h | ⟨_, _, h⟩ <;> cases h
      · cases hreport
    · cases hreport

theorem resultOf_of_reported_none {depth : ℕ} {raw : List UInt8}
    (h : reported depth raw = none) : resultOf depth raw = none := by
  rw [resultOf, h]

structure RunInvariant (config : RunConfig) (lines : List (List UInt8)) (s : RunState) : Prop where
  lines : s.handled ++ s.events = lines
  artifacts : s.collected.artifacts = lastResult config.depth s.handled
  errors : s.collected.error = none →
    ∀ raw ∈ s.handled, ∀ message, reported config.depth raw ≠ some (.error message)
  finished : s.eventPump = .finished → s.events = []

theorem lastResult_append_none {depth : ℕ} {lines : List (List UInt8)} {raw : List UInt8}
    (h : resultOf depth raw = none) :
    lastResult depth (lines ++ [raw]) = lastResult depth lines := by
  rw [lastResult, List.filterMap_append, List.filterMap_cons_none h, List.filterMap_nil,
    List.append_nil, lastResult]

/-- Keeping a report moves the collected artifacts as `lastResult` moves. -/
theorem keep_artifacts {depth : ℕ} {lines : List (List UInt8)} {raw : List UInt8}
    {collected : Collected} {report : Report} (h : reported depth raw = some report)
    (hcollected : collected.artifacts = lastResult depth lines) :
    (collected.keep report).artifacts = lastResult depth (lines ++ [raw]) := by
  cases report with
  | result artifacts =>
    have hresult : resultOf depth raw = some artifacts := by rw [resultOf, h]
    rw [lastResult, List.filterMap_append, List.filterMap_cons_some hresult, List.filterMap_nil,
      List.getLast?_concat]
    rfl
  | error message =>
    rw [lastResult_append_none (by rw [resultOf, h]), ← hcollected]
    rfl

/-- No error event was kept, so none is among the handled lines and the next. -/
theorem keep_errors {depth : ℕ} {lines : List (List UInt8)} {raw : List UInt8}
    {collected : Collected} {report : Report} (h : reported depth raw = some report)
    (hcollected : collected.error = none →
      ∀ old ∈ lines, ∀ message, reported depth old ≠ some (.error message))
    (hnone : (collected.keep report).error = none) :
    ∀ old ∈ lines ++ [raw], ∀ message, reported depth old ≠ some (.error message) := by
  cases report with
  | error message => cases hnone
  | result artifacts =>
    intro old hold message
    rcases List.mem_append.mp hold with hmem | hlast
    · exact hcollected hnone old hmem message
    · rw [List.mem_singleton.mp hlast, h]
      exact fun heq ↦ by cases heq

/-! ## The lines the event pump ends at -/

/-- The pump raises on the line, itself or in the sink. -/
def raisesOn (fault : Option Exc) : LineStep → Bool
  | .raise _ => true
  | .emit _ _ => fault.isSome
  | _ => false

theorem raisesOn_handleEvent {fault : Option Exc} {fields : List (Str × Json)} :
    raisesOn fault (handleEvent fields) = true ↔
      (Json.fieldD fields (str "event") .null).eqText (str "emit") = true ∧
        fault.isSome = true := by
  unfold handleEvent
  dsimp only
  by_cases hemit : (Json.fieldD fields (str "event") .null).eqText (str "emit") = true
  · rw [if_pos hemit]
    exact ⟨fun h ↦ ⟨hemit, h⟩, fun h ↦ h.2⟩
  · rw [if_neg hemit]
    refine ⟨fun h ↦ ?_, fun h ↦ absurd h.1 hemit⟩
    split at h
    · cases h
    · split at h
      · cases h
      · cases h

/-- The pump raises on exactly the lines that end it. -/
theorem raisesOn_iff_endsPump {depth : ℕ} {fault : Option Exc} {raw : List UInt8} :
    raisesOn fault (handleLine depth raw) = true ↔ EndsPump depth fault raw := by
  unfold handleLine
  dsimp only
  by_cases hlong : overlong raw = true
  · rw [if_pos hlong]
    exact ⟨fun _ ↦ .overlong hlong, fun _ ↦ rfl⟩
  · rw [if_neg hlong]
    by_cases hblank : lineText raw = []
    · rw [if_pos hblank]
      refine ⟨fun h ↦ (by cases h), fun h ↦ ?_⟩
      have hload : jsonLoads depth (lineText raw) = .error .jsonDecodeError := by
        rw [hblank]
        rfl
      cases h with
      | overlong h => exact absurd h hlong
      | notObject _ hload' => rw [hload] at hload'; cases hload'
      | unreadable _ hload' h => rw [hload] at hload'; cases hload'; exact absurd rfl h
      | badEvent _ hline => exact absurd hblank hline
      | emit _ hload' => rw [hload] at hload'; cases hload'
    · rw [if_neg hblank]
      split
      · next hload =>
        refine ⟨fun h ↦ .badEvent hload hblank h, fun h ↦ ?_⟩
        cases h with
        | overlong h => exact absurd h hlong
        | notObject _ hload' => rw [hload] at hload'; cases hload'
        | unreadable _ hload' h => rw [hload] at hload'; cases hload'; exact absurd rfl h
        | badEvent _ _ hfault => exact hfault
        | emit _ hload' => rw [hload] at hload'; cases hload'
      · next e he hload => exact ⟨fun _ ↦ .unreadable e hload he, fun _ ↦ rfl⟩
      · next fields hload =>
        rw [raisesOn_handleEvent]
        refine ⟨fun h ↦ .emit fields hload h.1 h.2, fun h ↦ ?_⟩
        cases h with
        | overlong h => exact absurd h hlong
        | notObject _ hload' h =>
          rw [hload] at hload'
          exact absurd (Except.ok.inj hload').symm (h fields)
        | unreadable _ hload' => rw [hload] at hload'; cases hload'
        | badEvent hload' => rw [hload] at hload'; cases hload'
        | emit _ hload' h hfault => rw [hload] at hload'; cases hload'; exact ⟨h, hfault⟩
      · next event hobject hload => exact ⟨fun _ ↦ .notObject event hload hobject, fun _ ↦ rfl⟩

instance (depth : ℕ) (fault : Option Exc) (raw : List UInt8) :
    Decidable (EndsPump depth fault raw) :=
  decidable_of_iff _ raisesOn_iff_endsPump

/-! ## One step -/

/-- What the event pump does with a line: it ends there, keeps its report, or passes it on. -/
theorem readEvent_cases {fault : Option Exc} {s t : RunState}
    (h : readEvent config fault s = some t) :
    s.eventPump = .running ∧ ∃ raw rest, s.events = raw :: rest ∧
      (EndsPump config.depth fault raw ∧ t = { s with eventPump := .raised } ∨
        ¬ EndsPump config.depth fault raw ∧
          ((∃ report, handleLine config.depth raw = .report report ∧
            t = { s with
              handled := s.handled ++ [raw]
              events := rest
              collected := s.collected.keep report }) ∨
          (handleLine config.depth raw = .skip ∨
              ∃ type payload, handleLine config.depth raw = .emit type payload) ∧
            t = { s with handled := s.handled ++ [raw], events := rest })) := by
  unfold readEvent at h
  split at h
  · next raw rest hpump hevents =>
    refine ⟨hpump, raw, rest, hevents, ?_⟩
    rw [← raisesOn_iff_endsPump]
    dsimp only at h
    split at h
    · next hline =>
      rw [hline]
      exact .inr ⟨Bool.false_ne_true, .inr ⟨.inl rfl, (Option.some.inj h).symm⟩⟩
    · next report hline =>
      rw [hline]
      exact .inr ⟨Bool.false_ne_true, .inl ⟨report, rfl, (Option.some.inj h).symm⟩⟩
    · next hline =>
      rw [hline]
      exact .inl ⟨rfl, (Option.some.inj h).symm⟩
    · next type payload hline =>
      rw [hline]
      split at h
      · next hfault => exact .inl ⟨hfault, (Option.some.inj h).symm⟩
      · next hfault =>
        exact .inr ⟨hfault, .inr ⟨.inr ⟨type, payload, rfl⟩, (Option.some.inj h).symm⟩⟩
  · cases h

theorem readStderr_cases {fault : Option Exc} {s t : RunState}
    (h : readStderr fault s = some t) :
    t = { s with stderrPump := .raised } ∨ ∃ rest, t = { s with stderr := rest } := by
  unfold readStderr at h
  split at h
  · split at h
    · exact .inl (Option.some.inj h).symm
    · exact .inr ⟨_, (Option.some.inj h).symm⟩
  · cases h

theorem readEvent_invariant {lines : List (List UInt8)} {fault : Option Exc} {s t : RunState}
    (hinv : RunInvariant config lines s) (h : readEvent config fault s = some t) :
    RunInvariant config lines t := by
  obtain ⟨hpump, raw, rest, hevents, hcases⟩ := readEvent_cases h
  have hlines : (s.handled ++ [raw]) ++ rest = lines := by
    rw [List.append_assoc, List.singleton_append, ← hevents]
    exact hinv.lines
  have hrunning : s.eventPump ≠ .finished := by
    rw [hpump]
    exact PumpState.noConfusion
  obtain ⟨-, rfl⟩ | ⟨-, ⟨report, hline, rfl⟩ | ⟨hline, rfl⟩⟩ := hcases
  · exact ⟨hinv.lines, hinv.artifacts, hinv.errors, fun h ↦ PumpState.noConfusion h⟩
  · exact ⟨hlines, keep_artifacts (handleLine_report hline) hinv.artifacts,
      keep_errors (handleLine_report hline) hinv.errors, fun h ↦ absurd h hrunning⟩
  · have hnone := handleLine_no_report hline
    refine ⟨hlines, hinv.artifacts.trans
      (lastResult_append_none (resultOf_of_reported_none hnone)).symm, ?_,
      fun h ↦ absurd h hrunning⟩
    intro herror old hold message
    rcases List.mem_append.mp hold with hmem | hlast
    · exact hinv.errors herror old hmem message
    · rw [List.mem_singleton.mp hlast, hnone]
      exact fun heq ↦ by cases heq

/-- A step that is not a line of the event pump leaves what it handled alone; it moves the pump
only to its end, where no line is left. -/
theorem runStep_frame {s t : RunState} {action : RunAction}
    (haction : ∀ fault, action ≠ .readEvent fault) (h : runStep config s action = some t) :
    t.handled = s.handled ∧ t.events = s.events ∧ t.collected = s.collected ∧
      (t.eventPump = s.eventPump ∨
        s.eventPump = .running ∧ s.events = [] ∧ t.eventPump = .finished) := by
  unfold runStep at h
  split at h
  · cases h
  · cases action with
    | readEvent fault => exact absurd rfl (haction fault)
    | readStderr fault =>
      obtain rfl | ⟨_, rfl⟩ := readStderr_cases h
      · exact ⟨rfl, rfl, rfl, .inl rfl⟩
      · exact ⟨rfl, rfl, rfl, .inl rfl⟩
    | eventsEnd =>
      dsimp only at h
      split at h
      · next hend =>
        obtain rfl := Option.some.inj h
        exact ⟨rfl, rfl, rfl, .inr ⟨hend.1, hend.2, rfl⟩⟩
      · cases h
    | answer =>
      dsimp only at h
      split at h
      · split at h
        · obtain rfl := Option.some.inj h
          exact ⟨rfl, rfl, rfl, .inl rfl⟩
        · cases h
      · cases h
    | cancel =>
      obtain rfl := Option.some.inj h
      exact ⟨rfl, rfl, rfl, .inl rfl⟩
    | _ =>
      dsimp only at h
      split at h
      · obtain rfl := Option.some.inj h
        exact ⟨rfl, rfl, rfl, .inl rfl⟩
      · cases h

theorem readEvent_of_runStep {fault : Option Exc} {s t : RunState}
    (h : runStep config s (.readEvent fault) = some t) : readEvent config fault s = some t := by
  unfold runStep at h
  split at h
  · cases h
  · exact h

theorem runStep_invariant {lines : List (List UInt8)} {s t : RunState} {action : RunAction}
    (hinv : RunInvariant config lines s) (h : runStep config s action = some t) :
    RunInvariant config lines t := by
  by_cases haction : ∃ fault, action = .readEvent fault
  · obtain ⟨fault, rfl⟩ := haction
    exact readEvent_invariant hinv (readEvent_of_runStep h)
  · obtain ⟨hhandled, hevents, hcollected, hpump⟩ :=
      runStep_frame (fun fault heq ↦ haction ⟨fault, heq⟩) h
    refine ⟨?_, ?_, ?_, ?_⟩
    · rw [hhandled, hevents]
      exact hinv.lines
    · rw [hcollected, hhandled]
      exact hinv.artifacts
    · rw [hcollected, hhandled]
      exact hinv.errors
    · rw [hevents]
      rcases hpump with hsame | ⟨-, hempty, -⟩
      · rw [hsame]
        exact hinv.finished
      · exact fun _ ↦ hempty

/-- Once the event pump has ended early the lines it left stay unread. -/
theorem runStep_raised {left : List (List UInt8)} {s t : RunState} {action : RunAction}
    (hraised : s.eventPump = .raised ∧ s.events = left) (h : runStep config s action = some t) :
    t.eventPump = .raised ∧ t.events = left := by
  by_cases haction : ∃ fault, action = .readEvent fault
  · obtain ⟨fault, rfl⟩ := haction
    obtain ⟨hrunning, -⟩ := readEvent_cases (readEvent_of_runStep h)
    rw [hraised.1] at hrunning
    cases hrunning
  · obtain ⟨-, hevents, -, hpump⟩ := runStep_frame (fun fault heq ↦ haction ⟨fault, heq⟩) h
    refine ⟨?_, hevents.trans hraised.2⟩
    rcases hpump with hsame | ⟨hrunning, -, -⟩
    · exact hsame.trans hraised.1
    · rw [hraised.1] at hrunning
      cases hrunning

/-- A pump that has ended early left no report, where its steps meet the condition. -/
theorem runStep_unread {s t : RunState} {action : RunAction}
    (hleft : s.eventPump = .raised → NoReport config.depth s.events)
    (hmeets : Uninterrupted config s action) (h : runStep config s action = some t) :
    t.eventPump = .raised → NoReport config.depth t.events := by
  intro hraised
  by_cases haction : ∃ fault, action = .readEvent fault
  · obtain ⟨fault, rfl⟩ := haction
    obtain ⟨hrunning, raw, rest, hevents, hcases⟩ := readEvent_cases (readEvent_of_runStep h)
    obtain ⟨hends, rfl⟩ | ⟨-, ⟨_, -, rfl⟩ | ⟨-, rfl⟩⟩ := hcases
    · have hnone := hmeets raw rest hevents hends
      rwa [← hevents] at hnone
    · exact absurd (hrunning.symm.trans hraised) PumpState.noConfusion
    · exact absurd (hrunning.symm.trans hraised) PumpState.noConfusion
  · obtain ⟨-, hevents, -, hpump⟩ := runStep_frame (fun fault heq ↦ haction ⟨fault, heq⟩) h
    rw [hevents]
    rcases hpump with hsame | ⟨-, -, hfinished⟩
    · exact hleft (hsame.symm.trans hraised)
    · exact absurd (hfinished.symm.trans hraised) PumpState.noConfusion

theorem runStart_invariant (stdout stderr : List UInt8) :
    RunInvariant config (splitLines stdout) (runStart stdout stderr) :=
  ⟨rfl, rfl, fun _ _ hmem ↦ absurd hmem List.not_mem_nil, fun h ↦ PumpState.noConfusion h⟩

/-! ## The answer -/

/-- A complete result comes from an uncancelled exit with 0, no error, and a reconciled list. -/
theorem conclude_complete {s : RunState} {code : ℤ} {result : RunResult}
    (h : conclude config s code = .ok result) (hstatus : result.status = .complete) :
    s.cancelled = false ∧ s.collected.error = none ∧ code = 0 ∧
      reconcile config.reprOf config.manifest (s.collected.artifacts.getD (.arr [])) =
        .ok result.artifacts := by
  unfold conclude at h
  split at h
  · cases h
    cases hstatus
  · next hcancelled =>
    split at h
    · cases h
      cases hstatus
    · next herror =>
      split at h
      · cases h
        cases hstatus
      · next hcode =>
        split at h
        · split at h
          · cases h
            cases hstatus
          · cases h
        · next artifacts hreconcile =>
          cases h
          exact ⟨by simpa using hcancelled, herror, not_not.mp hcode, hreconcile⟩

theorem readEvent_outcome {fault : Option Exc} {s t : RunState}
    (h : readEvent config fault s = some t) : t.outcome = s.outcome := by
  obtain ⟨-, _, _, -, ⟨-, rfl⟩ | ⟨-, ⟨_, -, rfl⟩ | ⟨-, rfl⟩⟩⟩ := readEvent_cases h
  · rfl
  · rfl
  · rfl

theorem readStderr_outcome {fault : Option Exc} {s t : RunState}
    (h : readStderr fault s = some t) : t.outcome = s.outcome := by
  obtain rfl | ⟨_, rfl⟩ := readStderr_cases h
  · rfl
  · rfl

/-- The step that makes the outcome complete is the answer of gathered pumps, for an uncancelled
child that exited with 0 and without an error kept. -/
theorem runStep_complete {s t : RunState} {action : RunAction} {result : RunResult}
    (h : runStep config s action = some t) (hnone : s.outcome = none)
    (houtcome : t.outcome = some (.ok result)) (hstatus : result.status = .complete) :
    action = .answer ∧ s.exitCode = some 0 ∧ s.cancelled = false ∧ gathered s = true ∧
      s.collected.error = none ∧
      reconcile config.reprOf config.manifest (s.collected.artifacts.getD (.arr [])) =
        .ok result.artifacts ∧
      t = { s with outcome := t.outcome } := by
  have hunchanged : t.outcome ≠ s.outcome := by
    rw [houtcome, hnone]
    exact Option.some_ne_none _
  unfold runStep at h
  rw [if_neg (by simp [hnone])] at h
  cases action with
  | readEvent fault => exact absurd (readEvent_outcome h) hunchanged
  | readStderr fault => exact absurd (readStderr_outcome h) hunchanged
  | cancel =>
    obtain rfl := Option.some.inj h
    exact absurd rfl hunchanged
  | timeout =>
    dsimp only at h
    split at h
    · obtain rfl := Option.some.inj h
      obtain rfl := Except.ok.inj (Option.some.inj houtcome)
      cases hstatus
    · cases h
  | answer =>
    dsimp only at h
    split at h
    · next code hcode =>
      split at h
      · next hgathered =>
        obtain rfl := Option.some.inj h
        obtain ⟨hcancelled, herror, rfl, hreconcile⟩ :=
          conclude_complete (Option.some.inj houtcome) hstatus
        exact ⟨rfl, hcode, hcancelled, hgathered, herror, hreconcile, rfl⟩
      · cases h
    · cases h
  | _ =>
    dsimp only at h
    split at h
    · obtain rfl := Option.some.inj h
      exact absurd rfl hunchanged
    · cases h

theorem lastResult_of_rest {depth : ℕ} {handled rest : List (List UInt8)}
    (hrest : NoReport depth rest) :
    lastResult depth (handled ++ rest) = lastResult depth handled := by
  have hnil : rest.filterMap (resultOf depth) = [] :=
    List.filterMap_eq_nil_iff.mpr fun raw hmem ↦ resultOf_of_reported_none (hrest raw hmem)
  rw [lastResult, List.filterMap_append, hnil, List.append_nil, lastResult]

theorem lastResult_eq_none {depth : ℕ} {lines : List (List UInt8)} (h : NoReport depth lines) :
    lastResult depth lines = none := by
  have hlast := @lastResult_of_rest _ [] _ h
  rwa [List.nil_append] at hlast

/-- Lines that hold a report and no error event hold a result. -/
theorem exists_lastResult {depth : ℕ} {lines : List (List UInt8)} (h : ¬ NoReport depth lines)
    (herrors : ∀ raw ∈ lines, ∀ message, reported depth raw ≠ some (.error message)) :
    ∃ list, lastResult depth lines = some list := by
  rw [← Option.isSome_iff_exists, lastResult, List.getLast?_isSome, Ne, List.filterMap_eq_nil_iff]
  intro hnone
  refine h fun raw hmem ↦ ?_
  cases hreport : reported depth raw with
  | none => rfl
  | some report =>
    cases report with
    | result artifacts =>
      have hresult := hnone raw hmem
      rw [resultOf, hreport] at hresult
      cases hresult
    | error message => exact absurd hreport (herrors raw hmem message)

theorem outcome_none_of_step {s t : RunState} {action : RunAction}
    (h : runStep config s action = some t) : s.outcome = none := by
  unfold runStep at h
  split at h
  · cases h
  · next hnot => simpa using hnot

/-- The pumps are gathered and no early end of theirs left a report: none is left. -/
theorem noReport_of_gathered {lines : List (List UInt8)} {s : RunState}
    (hinv : RunInvariant config lines s) (hgathered : gathered s = true)
    (hevents : s.eventPump = .raised → NoReport config.depth s.events)
    (hstderr : s.stderrPump = .raised → NoReport config.depth s.events) :
    NoReport config.depth s.events := by
  simp only [gathered, Bool.or_eq_true, Bool.and_eq_true, beq_iff_eq] at hgathered
  obtain (hraised | hraised) | ⟨hfinished, -⟩ := hgathered
  · exact hevents hraised
  · exact hstderr hraised
  · rw [hinv.finished hfinished]
    exact fun raw hmem ↦ absurd hmem List.not_mem_nil

/-- An answer meeting the condition is faithful when it is complete. -/
theorem faithful_of_uninterrupted {stdout : List UInt8} {s t : RunState} {action : RunAction}
    {result : RunResult} (hinv : RunInvariant config (splitLines stdout) s)
    (hleft : s.eventPump = .raised → NoReport config.depth s.events)
    (hmeets : Uninterrupted config s action) (hstep : runStep config s action = some t)
    (houtcome : t.outcome = some (.ok result)) (hstatus : result.status = .complete) :
    Faithful config stdout t result.artifacts := by
  obtain ⟨rfl, hexit, -, hgathered, herror, hreconcile, ht⟩ :=
    runStep_complete hstep (outcome_none_of_step hstep) houtcome hstatus
  obtain ⟨hreport, hstderr⟩ := hmeets
  have hrest := noReport_of_gathered hinv hgathered hleft hstderr
  have hhandled : ¬ NoReport config.depth s.handled := by
    intro hnone
    refine hreport hexit fun raw hmem ↦ ?_
    rcases List.mem_append.mp hmem with hmem | hmem
    · exact hnone raw hmem
    · exact hrest raw hmem
  obtain ⟨list, hlast⟩ := exists_lastResult hhandled (hinv.errors herror)
  rw [ht]
  refine ⟨hexit, ⟨list, ?_, ?_⟩, hrest⟩
  · rw [← hinv.lines, lastResult_of_rest hrest, hlast]
  · rw [hinv.artifacts, hlast, Option.getD_some] at hreconcile
    exact hreconcile

/-- A step that does not meet the condition leaves a run without a faithful end. -/
theorem not_faithful_of_interrupted {stdout : List UInt8} {s v t : RunState} {action : RunAction}
    {after : List RunAction} {artifacts : List Descriptor}
    (hinv : RunInvariant config (splitLines stdout) s) (hoff : ¬ Uninterrupted config s action)
    (hstep : runStep config s action = some v) (hafter : (runMachine config).run v after = some t) :
    ¬ Faithful config stdout t artifacts := by
  intro hfaithful
  cases action with
  | readEvent fault =>
    simp only [Uninterrupted, not_forall] at hoff
    obtain ⟨raw, rest, hevents, hends, hreport⟩ := hoff
    obtain ⟨-, raw', rest', hevents', hcases⟩ := readEvent_cases (readEvent_of_runStep hstep)
    rw [hevents] at hevents'
    cases hevents'
    obtain ⟨-, rfl⟩ | ⟨hnot, -⟩ := hcases
    · obtain ⟨-, hleft⟩ := (runMachine config).invariant
        (I := fun u ↦ u.eventPump = .raised ∧ u.events = raw :: rest)
        (fun _ _ _ hi hs ↦ runStep_raised hi hs) hafter ⟨rfl, hevents⟩
      exact hreport (hleft ▸ hfaithful.nothingLost)
    · exact hnot hends
  | answer =>
    have hend : v = { s with outcome := v.outcome } ∧ v.outcome ≠ none := by
      unfold runStep at hstep
      split at hstep
      · cases hstep
      · dsimp only at hstep
        split at hstep
        · split at hstep
          · obtain rfl := Option.some.inj hstep
            exact ⟨rfl, Option.some_ne_none _⟩
          · cases hstep
        · cases hstep
    have hlast : v = t := by
      cases after with
      | nil => exact Option.some.inj hafter
      | cons next rest =>
        obtain ⟨u, hu, _⟩ := (runMachine config).run_cons_eq_some.mp hafter
        exact absurd (outcome_none_of_step hu) hend.2
    subst hlast
    have hevents : v.events = s.events := by rw [hend.1]
    refine hoff ⟨fun _ hnone ↦ ?_, fun _ ↦ hevents ▸ hfaithful.nothingLost⟩
    obtain ⟨list, hlast, -⟩ := hfaithful.reconciled
    rw [← hinv.lines, lastResult_eq_none hnone] at hlast
    cases hlast
  | _ => exact hoff trivial

/-- A run that answers with a complete result is faithful to what the child wrote exactly when
its steps meet the condition. -/
theorem faithful_iff_uninterrupted {stdout stderr : List UInt8} {actions : List RunAction}
    {t : RunState} {result : RunResult}
    (hrun : (runMachine config).run (runStart stdout stderr) actions = some t)
    (houtcome : t.outcome = some (.ok result)) (hstatus : result.status = .complete) :
    Faithful config stdout t result.artifacts ↔
      (runMachine config).Meets (Uninterrupted config) (runStart stdout stderr) actions := by
  constructor
  · intro hfaithful
    by_contra hmeets
    obtain ⟨before, action, after, s, v, -, hbefore, -, hoff, hstep, hafter⟩ :=
      (runMachine config).exists_first_offence hrun hmeets
    have hinv : RunInvariant config (splitLines stdout) s :=
      (runMachine config).invariant (fun _ _ _ hi hs ↦ runStep_invariant hi hs) hbefore
        (runStart_invariant stdout stderr)
    exact not_faithful_of_interrupted hinv hoff hstep hafter hfaithful
  · intro hmeets
    refine ((runMachine config).invariant_run (I := fun s ↦
      RunInvariant config (splitLines stdout) s ∧
        (s.eventPump = .raised → NoReport config.depth s.events) ∧
        ∀ result, s.outcome = some (.ok result) → result.status = .complete →
          Faithful config stdout s result.artifacts) ?_ hmeets hrun
      ⟨runStart_invariant stdout stderr, fun h ↦ PumpState.noConfusion h,
        fun _ h ↦ (by cases h)⟩).2.2 result houtcome hstatus
    rintro s action t ⟨hinv, hleft, -⟩ hmeets hstep
    exact ⟨runStep_invariant hinv hstep, runStep_unread hleft hmeets hstep,
      fun _ houtcome hstatus ↦
        faithful_of_uninterrupted hinv hleft hmeets hstep houtcome hstatus⟩

/-- A declared output `out`, for runs of a child that reports it. -/
def outConfig : RunConfig where
  manifest := { outputs := [{ name := str "out", type := str "text/plain" }], connections := [] }
  reprOf name := name
  depth := 100

def ascii (s : String) : List UInt8 := s.toList.map fun c ↦ UInt8.ofNat c.toNat

/-- A `result` event with one artifact. -/
def resultLine : List UInt8 :=
  ascii ("\x7b\"event\": \"result\", \"artifacts\": " ++
    "[\x7b\"name\": \"out\", \"file\": \"a\", \"size\": 1\x7d]\x7d\n")

/-- A line that is no JSON goes to the sink, and the pump goes on to the result behind it. -/
theorem faithful_iff_uninterrupted_badEvent :
    ∃ t artifacts, (runMachine outConfig).run (runStart (ascii "ready\n" ++ resultLine) [])
        [.readEvent none, .readEvent none, .eventsEnd, .stderrEnd, .exit 0, .answer] = some t ∧
      t.outcome = some (.ok { status := .complete, artifacts := artifacts }) ∧
      artifacts.length = 1 ∧
      (Faithful outConfig (ascii "ready\n" ++ resultLine) t artifacts ↔
        (runMachine outConfig).Meets (Uninterrupted outConfig)
          (runStart (ascii "ready\n" ++ resultLine) [])
          [.readEvent none, .readEvent none, .eventsEnd, .stderrEnd, .exit 0, .answer]) := by
  have hanswer : ((runMachine outConfig).run (runStart (ascii "ready\n" ++ resultLine) [])
      [.readEvent none, .readEvent none, .eventsEnd, .stderrEnd, .exit 0, .answer]).map
        RunState.outcome =
      some (some (.ok
        { status := .complete
          artifacts :=
            [⟨str "out", str "text/plain", false, .text (str "a"), false, .int 1⟩] })) := by
    decide +kernel
  obtain ⟨t, ht, houtcome⟩ := Option.map_eq_some_iff.mp hanswer
  exact ⟨t, _, ht, houtcome, rfl, faithful_iff_uninterrupted ht houtcome rfl⟩

/-- A line that is JSON but no object ends the pump; the result behind it is lost and the run is
complete without artifacts. -/
theorem run_loses_result :
    ∃ t, (runMachine outConfig).run (runStart (ascii "1\n" ++ resultLine) [])
        [.readEvent none, .stderrEnd, .exit 0, .answer] = some t ∧
      t.outcome = some (.ok { status := .complete }) ∧
      ¬ Faithful outConfig (ascii "1\n" ++ resultLine) t [] := by
  have hanswer : ((runMachine outConfig).run (runStart (ascii "1\n" ++ resultLine) [])
      [.readEvent none, .stderrEnd, .exit 0, .answer]).map RunState.outcome =
      some (some (.ok { status := .complete })) := by decide +kernel
  obtain ⟨t, ht, houtcome⟩ := Option.map_eq_some_iff.mp hanswer
  refine ⟨t, ht, houtcome, fun hfaithful ↦ ?_⟩
  obtain ⟨list, hlast, hreconcile⟩ := hfaithful.reconciled
  have hlists : (lastResult outConfig.depth (splitLines (ascii "1\n" ++ resultLine))).map
      (reconcile outConfig.reprOf outConfig.manifest) = some (.ok
        [⟨str "out", str "text/plain", false, .text (str "a"), false, .int 1⟩]) := by
    decide +kernel
  rw [hlast, Option.map_some, hreconcile] at hlists
  exact absurd (Except.ok.inj (Option.some.inj hlists)) (List.cons_ne_nil _ _).symm

end DatumSync.Worker
