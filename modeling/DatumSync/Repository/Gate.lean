import DatumSync.Repository.Loading
import DatumSync.Services.Hosted

/-!
# The publish gate

`gate` runs its checks in order and raises `PublishError` at the first that fails: the documentation,
the service names, the connections, and the smoke test.  What the connection store and the smoke test
answer is a parameter.
-/

namespace DatumSync.Repository

open Python Services Foundation

def publishError (message : Str) : Exc := .raised .publishError message

def isPublishError (e : Exc) : Bool := e.isA .publishError

/-! ## Documentation -/

def requiredSections : List Str :=
  [str "Purpose", str "Dependencies", str "Dependents", str "Failure modes",
    str "Behavioral contracts"]

/-- A character that `str.splitlines` ends a line at. -/
def isLineBreak (c : CodePoint) : Bool :=
  decide (0x0A ≤ c.val ∧ c.val ≤ 0x0D) || decide (0x1C ≤ c.val ∧ c.val ≤ 0x1E) ||
    c.val == 0x85 || c.val == 0x2028 || c.val == 0x2029

/-- `text.splitlines()` of a text whose carriage returns stand alone. -/
def splitLines (text : Str) : List Str :=
  let parts := text.splitOnP isLineBreak
  if parts.getLast? = some [] then parts.dropLast else parts

/-- The heading of a line that matches `^##\s+(.*?)\s*$`. -/
def sectionHeading (line : Str) : Option Str :=
  if startsWith line (str "##") && startsWithSpace (line.drop 2) then some (strip (line.drop 2))
  else none

/-- The loop of `_sections`: the sections found, and the one that is open. -/
def sectionsFrom : List (Str × Str) → Option (Str × List Str) → List Str → List (Str × Str)
  | found, none, [] => found
  | found, some (heading, body), [] => setItem found heading (join (cp '\n') body)
  | found, current, line :: rest =>
    match sectionHeading line with
    | some heading =>
      let found := match current with
        | some (name, body) => setItem found name (join (cp '\n') body)
        | none => found
      sectionsFrom found (some (heading, [])) rest
    | none =>
      sectionsFrom found (current.map fun entry ↦ (entry.1, entry.2 ++ [line])) rest

def sections (text : Str) : List (Str × Str) := sectionsFrom [] none (splitLines text)

/-- `re.sub(r"<!--.*?-->", "", body, flags=re.DOTALL)`; `fuel` bounds the comments. -/
def dropComments : (fuel : ℕ) → Str → Str
  | 0, body => body
  | _ + 1, [] => []
  | fuel + 1, c :: rest =>
    if startsWith (c :: rest) (str "<!--") then
      match (rest.drop 3).tails.find? fun after ↦ startsWith after (str "-->") with
      | some after => dropComments fuel (after.drop 3)
      | none => c :: dropComments fuel rest
    else c :: dropComments fuel rest

/-- A word of `_EMPTY_PROSE`, in lower case. -/
def isEmptyWord (word : Str) : Bool :=
  decide (word ∈ [str "n/a", str "na", str "none", str "tbd", str "todo", str "..."]) ||
    (decide (3 ≤ word.length) && word.all (· == cp 'x')) ||
    (word ≠ [] && word.all (· == cp '-'))

/-- `_EMPTY_PROSE.match(line)` -/
def isEmptyProse (line : Str) : Bool :=
  let lower := asciiLower line
  isEmptyWord lower ||
    ((lower.getLast? == some (cp '.') || lower.getLast? == some (cp '!')) &&
      isEmptyWord lower.dropLast)

def isEmptySection (body : Str) : Bool :=
  ((splitLines (dropComments body.length body)).map strip).all fun line ↦
    line = [] || isEmptyProse line

def checkDocs (display : Display) (doc : FileState) : Except Exc Unit := do
  let text ← recast (·.isA .fileNotFoundError)
    (fun _ ↦ publishError (str "no MANIFEST.md; every workspace must document itself (sections: " ++
      (str ", ").intercalate requiredSections ++ str ")"))
    (readText doc)
  let lowered := (sections text).foldl (fun lowered entry ↦
    setItem lowered (asciiLower entry.1) entry.2) []
  let missing := requiredSections.filter fun s ↦ (lowered.lookup (asciiLower s)).isNone
  if missing ≠ [] then
    throw (publishError (str "MANIFEST.md is missing section(s): " ++ display.reprTexts missing))
  let blank := requiredSections.filter fun s ↦
    (lowered.lookup (asciiLower s)).any isEmptySection
  if blank ≠ [] then
    throw (publishError (str "MANIFEST.md has empty section(s): " ++ display.reprTexts blank))

/-! ## Services -/

def supervised : List Str := [str "service/interactive", str "service/notebook"]

/-- What the gate asks of the database and of processes. -/
structure GateOutcomes where
  /-- What the `SELECT` of the holder of a name raises. -/
  selectHolder : Str → Option Exc
  /-- `check_connections` -/
  connections : LoadedWorkspace → Except Exc Unit
  /-- `run_smoke` -/
  smoke : LoadedWorkspace → Except Exc Unit

/-- `check_services` for the outputs of a manifest. -/
def checkServices (display : Display) (outcomes : GateOutcomes) (hosted : Hosted)
    (repository name : Str) : List Output → Except Exc Unit
  | [] => .ok ()
  | out :: rest =>
    if isService out.type = false then checkServices display outcomes hosted repository name rest
    else if out.type ∈ supervised then
      .error (publishError (str "output " ++ display.reprText out.name ++ str " is " ++ out.type ++
        str "; supervised services are not run by this server (static, pwa and dashboard are)"))
    else if out.type ∉ static then
      .error (publishError (str "output " ++ display.reprText out.name ++
        str " has unknown service type " ++ display.reprText out.type ++ str "; valid: " ++
        (str ", ").intercalate static))
    else match outcomes.selectHolder out.name with
      | some e => .error e
      | none =>
        match hosted.table.lookup out.name with
        | some owner =>
          if owner.ownedBy repository name then
            checkServices display outcomes hosted repository name rest
          else .error (publishError (str "service name " ++ display.reprText out.name ++
            str " is already served by " ++ owner.repository ++ str "/" ++ owner.workspace))
        | none => checkServices display outcomes hosted repository name rest

def gate (display : Display) (outcomes : GateOutcomes) (hosted : Hosted) (smoke : Bool)
    (ws : LoadedWorkspace) : Except Exc Unit := do
  checkDocs display ws.dir.doc
  checkServices display outcomes hosted ws.repository ws.manifest.name ws.manifest.outputs
  outcomes.connections ws
  if smoke && ws.manifest.smokeTest then outcomes.smoke ws

end DatumSync.Repository
