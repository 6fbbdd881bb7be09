import DatumSync.Foundation.Machine
import DatumSync.Worker.Reconcile

/-!
# One run of a child process

`Runner.run` reads the child's standard output as NDJSON events and its standard error as log
lines, in two tasks that are gathered; it answers when the child has exited and the gathered
tasks are done, which is as soon as one of them raises.  The machine interleaves the two pumps
with the child's exit, a cancel, the time limit and the answer.  What the child writes is fixed
by the run; the pumps may read it at any time.

A run that is reported complete is faithful when the child exited with 0, wrote a `result` event,
the artifacts are the reconciled ones of the last it wrote, and no report is left unread.
-/

namespace DatumSync.Worker

open Python Foundation

def streamLimit : ℕ := 65536

def lineFeed : UInt8 := 10

/-- The lines `async for raw in stream` yields: each with its line feed, the last perhaps
without. -/
def splitLines : List UInt8 → List (List UInt8)
  | [] => []
  | b :: rest =>
    if b = lineFeed then [b] :: splitLines rest
    else match splitLines rest with
      | [] => [[b]]
      | line :: others => (b :: line) :: others

/-- A line the stream reader answers with a `ValueError`. -/
def overlong (raw : List UInt8) : Bool :=
  decide (streamLimit < (raw.takeWhile (· != lineFeed)).length)

/-- The two events `_pump_events` keeps. -/
inductive Report where
  | result (artifacts : Json)
  | error (message : Json)

/-- What a line of the event stream makes the pump do. -/
inductive LineStep where
  | skip
  | emit (type payload : Json)
  | report (report : Report)
  | raise (e : Exc)

/-- The branches on `event.get("event")`. -/
def handleEvent (fields : List (Str × Json)) : LineStep :=
  let kind := Json.fieldD fields (str "event") .null
  if kind.eqText (str "emit") then
    .emit (Json.fieldD fields (str "type") (.text (str "log")))
      ((Json.fieldD fields (str "payload") .null).orElse (.obj []))
  else if kind.eqText (str "result") then
    .report (.result (Json.fieldD fields (str "artifacts") (.arr [])))
  else if kind.eqText (str "error") then
    .report (.error (Json.fieldD fields (str "message") (.text (str "unknown error"))))
  else .skip

def lineText (raw : List UInt8) : Str := strip (decodeUtf8 raw)

/-- The body of the loop of `_pump_events`; `depth` is the nesting limit of `json.loads`. -/
def handleLine (depth : ℕ) (raw : List UInt8) : LineStep :=
  if overlong raw then
    .raise (valueError (str "Separator is not found, and chunk exceed the limit"))
  else
    let line := lineText raw
    if line = [] then .skip
    else match jsonLoads depth line with
      | .error .jsonDecodeError => .emit (.text (str "log"))
          (.obj [(str "level", .text (str "warn")),
            (str "message", .text (str "bad event: " ++ line))])
      | .error e => .raise (loadException e)
      | .ok (.obj fields) => handleEvent fields
      | .ok _ => .raise (.raised .attributeError (str "object has no attribute 'get'"))

/-- The report a line holds, whether or not the pump gets to read it. -/
def reported (depth : ℕ) (raw : List UInt8) : Option Report :=
  match jsonLoads depth (lineText raw) with
  | .ok (.obj fields) =>
    match handleEvent fields with
    | .report report => some report
    | _ => none
  | _ => none

/-- The artifact list of a `result` line. -/
def resultOf (depth : ℕ) (raw : List UInt8) : Option Json :=
  match reported depth raw with
  | some (.result artifacts) => some artifacts
  | _ => none

structure Collected where
  artifacts : Option Json
  error : Option Json

def Collected.keep (collected : Collected) (report : Report) : Collected :=
  match report with
  | .result artifacts => { collected with artifacts := some artifacts }
  | .error message => { collected with error := some message }

inductive PumpState where
  | running
  | finished
  | raised
  deriving DecidableEq

inductive RunStatus where
  | complete
  | failed
  | cancelled
  deriving DecidableEq

structure RunResult where
  status : RunStatus
  artifacts : List Descriptor := []
  error : Option Json := none
  deriving DecidableEq

/-- The state of a run: the lines each pump has left, the event lines it has handled, and what is
known of the child. -/
structure RunState where
  handled : List (List UInt8)
  events : List (List UInt8)
  eventPump : PumpState
  stderr : List (List UInt8)
  stderrPump : PumpState
  collected : Collected
  exitCode : Option ℤ
  cancelled : Bool
  outcome : Option (Except Exc RunResult)

inductive RunAction where
  /-- The event pump takes its next line; the sink it may call raises `fault`. -/
  | readEvent (fault : Option Exc)
  | eventsEnd
  /-- The stderr pump takes its next line; the sink it may call raises `fault`. -/
  | readStderr (fault : Option Exc)
  | stderrEnd
  | exit (code : ℤ)
  | cancel
  | timeout
  /-- `run` goes on after `gather` and returns. -/
  | answer
  deriving DecidableEq

structure RunConfig where
  manifest : Manifest
  reprOf : Str → Str
  depth : ℕ

variable (config : RunConfig)

/-- The event pump takes a line.  A line it fails on stays among those it has not handled. -/
def readEvent (fault : Option Exc) (s : RunState) : Option RunState :=
  match s.eventPump, s.events with
  | .running, raw :: rest =>
    let done := { s with handled := s.handled ++ [raw], events := rest }
    match handleLine config.depth raw with
    | .skip => some done
    | .report report => some { done with collected := s.collected.keep report }
    | .raise _ => some { s with eventPump := .raised }
    | .emit _ _ =>
      if fault.isSome then some { s with eventPump := .raised } else some done
  | _, _ => none

/-- Whether a stderr line raises: it is too long, or it is not blank and the sink raises. -/
def stderrRaises (fault : Option Exc) (raw : List UInt8) : Bool :=
  overlong raw || (!(rstrip (decodeUtf8 raw)).isEmpty && fault.isSome)

/-- The stderr pump takes a line. -/
def readStderr (fault : Option Exc) (s : RunState) : Option RunState :=
  match s.stderrPump, s.stderr with
  | .running, raw :: rest =>
    if stderrRaises fault raw then some { s with stderrPump := .raised }
    else some { s with stderr := rest }
  | _, _ => none

/-- `gather(pump_events, pump_stderr)` is done. -/
def gathered (s : RunState) : Bool :=
  s.eventPump == .raised || s.stderrPump == .raised ||
    (s.eventPump == .finished && s.stderrPump == .finished)

/-- The end of `Runner.run`, for a child that exited with `code`. -/
def conclude (s : RunState) (code : ℤ) : Except Exc RunResult :=
  if s.cancelled then .ok { status := .cancelled, error := some (.text (str "cancelled")) }
  else match s.collected.error with
    | some message => .ok { status := .failed, error := some message }
    | none =>
      if code ≠ 0 then .ok
        { status := .failed
          error := some (.text (str "child exited " ++ decimal code ++
            str " without reporting an error")) }
      else match reconcile config.reprOf config.manifest (s.collected.artifacts.getD (.arr [])) with
        | .error e =>
          if e.isA .valueError then .ok { status := .failed, error := some (.text e.message) }
          else .error e
        | .ok artifacts => .ok { status := .complete, artifacts := artifacts }

/-- One step of the pumps, the child or `run`; none after `run` has returned. -/
def runStep (s : RunState) (action : RunAction) : Option RunState :=
  if s.outcome.isSome then none
  else match action with
    | .readEvent fault => readEvent config fault s
    | .eventsEnd =>
      if s.eventPump = .running ∧ s.events = [] then some { s with eventPump := .finished }
      else none
    | .readStderr fault => readStderr fault s
    | .stderrEnd =>
      if s.stderrPump = .running ∧ s.stderr = [] then some { s with stderrPump := .finished }
      else none
    | .exit code => if s.exitCode = none then some { s with exitCode := some code } else none
    | .cancel => some { s with cancelled := true }
    | .timeout =>
      if s.exitCode = none then some { s with
        outcome := some (.ok
          { status := .failed
            error := some (.text (str "timed out after " ++
              decimal config.manifest.timeoutSeconds ++ str "s")) }) }
      else none
    | .answer =>
      match s.exitCode with
      | some code =>
        if gathered s then some { s with outcome := some (conclude config s code) } else none
      | none => none

/-- `Runner.run` from the start of the pumps, as a machine. -/
def runMachine : Machine RunState RunAction := ⟨runStep config⟩

/-- The child will write these bytes; nothing has been read. -/
def runStart (stdout stderr : List UInt8) : RunState where
  handled := []
  events := splitLines stdout
  eventPump := .running
  stderr := splitLines stderr
  stderrPump := .running
  collected := ⟨none, none⟩
  exitCode := none
  cancelled := false
  outcome := none

/-- The artifact list of the last `result` event among the lines. -/
def lastResult (depth : ℕ) (lines : List (List UInt8)) : Option Json :=
  (lines.filterMap (resultOf depth)).getLast?

/-- None of the lines holds a `result` or an `error` event. -/
def NoReport (depth : ℕ) (lines : List (List UInt8)) : Prop :=
  ∀ raw ∈ lines, reported depth raw = none

/-- What a complete answer says of the child: it exited with 0, the artifacts are those of the
last result it wrote, and no report of it is left unread. -/
structure Faithful (stdout : List UInt8) (s : RunState) (artifacts : List Descriptor) : Prop where
  exited : s.exitCode = some 0
  reconciled : ∃ list, lastResult config.depth (splitLines stdout) = some list ∧
    reconcile config.reprOf config.manifest list = .ok artifacts
  nothingLost : NoReport config.depth s.events

/-- The event pump ends at the line, by what the line is and, where the line goes to the sink,
whether the sink raises. -/
inductive EndsPump (depth : ℕ) (fault : Option Exc) (raw : List UInt8) : Prop where
  | overlong (h : overlong raw = true)
  /-- JSON, but no object. -/
  | notObject (event : Json) (hload : jsonLoads depth (lineText raw) = .ok event)
      (h : ∀ fields, event ≠ .obj fields)
  /-- An error of `json.loads` other than `JSONDecodeError`. -/
  | unreadable (e : LoadError) (hload : jsonLoads depth (lineText raw) = .error e)
      (h : e ≠ .jsonDecodeError)
  | badEvent (hload : jsonLoads depth (lineText raw) = .error .jsonDecodeError)
      (hline : lineText raw ≠ []) (hfault : fault.isSome = true)
  | emit (fields : List (Str × Json)) (hload : jsonLoads depth (lineText raw) = .ok (.obj fields))
      (h : (Json.fieldD fields (str "event") .null).eqText (str "emit") = true)
      (hfault : fault.isSome = true)

/-- The condition on a step.  The event pump ends at no line in or behind which there is a report;
and when `run` answers for a child that exited with 0, the child has written a report, and a
stderr pump that ended early has not made the answer come before the reports were read. -/
def Uninterrupted (s : RunState) : RunAction → Prop
  | .readEvent fault => ∀ raw rest, s.events = raw :: rest →
      EndsPump config.depth fault raw → NoReport config.depth (raw :: rest)
  | .answer => (s.exitCode = some 0 → ¬ NoReport config.depth (s.handled ++ s.events)) ∧
      (s.stderrPump = .raised → NoReport config.depth s.events)
  | _ => True

end DatumSync.Worker
