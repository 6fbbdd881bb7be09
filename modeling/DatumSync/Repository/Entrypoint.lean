import DatumSync.Python.Calls
import DatumSync.Python.Dict
import DatumSync.Repository.Loading

/-!
# The entrypoint that is checked and the one that runs

`check_entrypoint` looks at the first top-level function called `run`, and of its parameters at the
ones that are neither positional-only nor keyword-only.  The child imports the module, in which the
last definition of `run` stands, and calls it with three positional arguments.
-/

namespace DatumSync.Repository

open Python Foundation

/-- `ast.FunctionDef` or `ast.AsyncFunctionDef`, without decorators. -/
structure FunctionDef where
  name : Str
  isAsync : Bool
  args : Arguments
  deriving DecidableEq

/-- A statement at the top level; the others bind no `run`. -/
inductive Statement where
  | function (definition : FunctionDef)
  | other
  deriving DecidableEq

/-- What `check_entrypoint` reads of a statement. -/
def Statement.view : Statement → TopLevel
  | .function definition => .function definition.name definition.isAsync definition.args.args
  | .other => .other

/-- The functions in the namespace of the module once its statements have been executed. -/
def execModule (body : List Statement) : List (Str × FunctionDef) :=
  body.foldl (fun namespaceOf statement ↦ match statement with
    | .function definition => setItem namespaceOf definition.name definition
    | .other => namespaceOf) []

def loadRun (body : List Statement) : Except Exc FunctionDef :=
  match (execModule body).lookup (str "run") with
  | none => .error (.raised .otherError (str "main.py has no run()"))
  | some run => .ok run

/-- `run` is an async function that can be called with any three positional arguments. -/
def Callable (run : FunctionDef) : Prop :=
  run.isAsync = true ∧
    ∀ (V : Type) (params emit connections : V), (run.args.bind [params, emit, connections]).isSome

/-- If the check accepts the file, the child can call what it loads. -/
def Predicts (loader : Loader) (file : FileState) (body : List Statement) : Prop :=
  checkEntrypoint loader file = .ok () → ∃ run, loadRun body = .ok run ∧ Callable run

/-- The top-level functions called `run`. -/
def runs (body : List Statement) : List FunctionDef :=
  body.filterMap fun statement ↦ match statement with
    | .function definition => if definition.name = str "run" then some definition else none
    | .other => none

/-- The check refuses the function: it is not async, or its parameters have other names. -/
def Refused (run : FunctionDef) : Prop := run.isAsync = false ∨ run.args.args ≠ runSignature

/-- Three positional arguments suffice and are not too many. -/
def TakesThree (args : Arguments) : Prop :=
  args.posonlyargs.length + args.args.length ≤ 3 + args.defaults ∧
    (3 ≤ args.posonlyargs.length + args.args.length ∨ args.vararg.isSome = true) ∧
      ∀ param ∈ args.kwonlyargs, param.2 = true

/-- Unless the first `run` is refused, the last is an async function that takes three positional
arguments. -/
def LastFits (body : List Statement) : Prop :=
  ∀ first ∈ (runs body).head?, ∀ last ∈ (runs body).getLast?,
    Refused first ∨ last.isAsync = true ∧ TakesThree last.args

variable {loader : Loader} {file : FileState} {body : List Statement}

theorem callable_iff {run : FunctionDef} :
    Callable run ↔ run.isAsync = true ∧ TakesThree run.args := by
  refine and_congr_right fun _ ↦ ?_
  have hthree : ∀ (V : Type) (params emit connections : V),
      (run.args.bind [params, emit, connections]).isSome = true ↔ TakesThree run.args := by
    intro V params emit connections
    rw [Arguments.bind_isSome, TakesThree, Arguments.required, Nat.sub_le_iff_le_add]
    rfl
  exact ⟨fun h ↦ (hthree Unit () () ()).mp (h Unit () () ()),
    fun h V params emit connections ↦ (hthree V params emit connections).mpr h⟩

theorem runs_concat (statement : Statement) : runs (body ++ [statement]) =
    runs body ++ runs [statement] := List.filterMap_append

theorem runs_cons_function (definition : FunctionDef) : runs (.function definition :: body) =
    if definition.name = str "run" then definition :: runs body else runs body := by
  unfold runs
  rw [List.filterMap_cons]
  dsimp only
  by_cases h : definition.name = str "run"
  · simp only [if_pos h]
  · simp only [if_neg h]

theorem runs_nil : runs [] = [] := rfl

theorem runs_cons_other : runs (.other :: body) = runs body := rfl

/-- The module keeps the last definition. -/
theorem lookup_execModule : (execModule body).lookup (str "run") = (runs body).getLast? := by
  induction body using List.reverseRecOn with
  | nil => rfl
  | append_singleton body statement ih =>
    rw [runs_concat, execModule, List.foldl_concat, ← execModule]
    cases statement with
    | other =>
      rw [runs_cons_other, runs_nil, List.append_nil]
      exact ih
    | function definition =>
      dsimp only
      rw [lookup_setItem, ih, runs_cons_function]
      by_cases hname : definition.name = str "run"
      · rw [if_pos hname.symm, if_pos hname]
        exact List.getLast?_concat.symm
      · rw [if_neg (Ne.symm hname), if_neg hname, runs_nil, List.append_nil]

/-- The check finds the first definition. -/
theorem findRun_view : findRun (body.map Statement.view) =
    (runs body).head?.map fun run ↦ (run.isAsync, run.args.args) := by
  induction body with
  | nil => rfl
  | cons statement rest ih =>
    unfold findRun at ih ⊢
    rw [List.map_cons, List.findSome?_cons]
    cases statement with
    | other => exact ih
    | function definition =>
      rw [runs_cons_function, Statement.view]
      by_cases hname : definition.name = str "run"
      · simp only [if_pos hname]
        rfl
      · simp only [if_neg hname]
        exact ih

/-- The check accepts a file exactly when its first `run` is not refused. -/
theorem checkEntrypoint_eq_ok {source : Str} (hread : readText file = .ok source)
    (hparse : loader.parse source = .ok (body.map Statement.view)) :
    checkEntrypoint loader file = .ok () ↔ ∃ first ∈ (runs body).head?, ¬ Refused first := by
  unfold checkEntrypoint
  rw [hread]
  dsimp only [recast, bind, Except.bind]
  rw [hparse]
  dsimp only
  rw [findRun_view]
  cases hfirst : (runs body).head? with
  | none =>
    refine iff_of_false (fun h ↦ by cases h) ?_
    rintro ⟨first, hmem, _⟩
    cases hmem
  | some first =>
    rw [Option.map_some]
    dsimp only
    have hrefused : (∃ run ∈ some first, ¬ Refused run) ↔ ¬ Refused first := by
      simp
    rw [hrefused, Refused, not_or, not_not, Bool.not_eq_false]
    by_cases hasync : first.isAsync = true
    · by_cases hargs : first.args.args = runSignature
      · rw [hasync, hargs]
        exact iff_of_true rfl ⟨rfl, rfl⟩
      · rw [hasync, if_neg Bool.true_eq_false.mp, if_pos hargs]
        exact iff_of_false (fun h ↦ by cases h) fun h ↦ hargs h.2
    · rw [if_pos (Bool.eq_false_iff.mpr hasync)]
      exact iff_of_false (fun h ↦ by cases h) fun h ↦ hasync h.1

/-- Whatever module stands in the file, the check predicts the child exactly when the first `run`
is refused or the last one fits. -/
theorem predicts_iff_lastFits {source : Str} (hread : readText file = .ok source)
    (hparse : loader.parse source = .ok (body.map Statement.view)) :
    Predicts loader file body ↔ LastFits body := by
  have hload : ∀ run, loadRun body = .ok run ↔ run ∈ (runs body).getLast? := by
    intro run
    unfold loadRun
    rw [lookup_execModule]
    cases (runs body).getLast? with
    | none => exact iff_of_false nofun nofun
    | some last => simp
  unfold Predicts LastFits
  rw [checkEntrypoint_eq_ok hread hparse]
  simp only [hload, callable_iff]
  constructor
  · intro h first hfirst last hlast
    by_cases hrefused : Refused first
    · exact .inl hrefused
    · obtain ⟨run, hrun, hfits⟩ := h ⟨first, hfirst, hrefused⟩
      rw [Option.mem_unique hlast hrun]
      exact .inr hfits
  · rintro h ⟨first, hfirst, hrefused⟩
    cases hlast : (runs body).getLast? with
    | none =>
      rw [List.getLast?_eq_none_iff.mp hlast] at hfirst
      cases hfirst
    | some last => exact ⟨last, rfl, (h first hfirst last hlast).resolve_left hrefused⟩

/-! ## Modules -/

/-- `async def run(params, emit, connections)` with further parameters. -/
def runWith (posonlyargs : List Str) (kwonlyargs : List (Str × Bool))
    (h : (posonlyargs ++ runSignature ++ kwonlyargs.map Prod.fst).Nodup) : FunctionDef where
  name := str "run"
  isAsync := true
  args := {
    posonlyargs := posonlyargs
    args := runSignature
    kwonlyargs := kwonlyargs
    defaults_le := Nat.zero_le _
    distinct := by simpa using h }

def plainRun : FunctionDef := runWith [] [] (by decide)

/-- A module: its text and what `ast.parse` makes of it. -/
structure SourceModule where
  text : String
  body : List Statement

def plainModule : SourceModule :=
  ⟨"async def run(params, emit, connections): pass\n", [.function plainRun]⟩

/-- A second definition, which is not async. -/
def twiceModule : SourceModule :=
  ⟨"async def run(params, emit, connections): pass\ndef run(params, emit, connections): pass\n",
    [.function plainRun, .function { plainRun with isAsync := false }]⟩

/-- A keyword-only parameter without a default. -/
def keywordModule : SourceModule :=
  ⟨"async def run(params, emit, connections, *, dry): pass\n",
    [.function (runWith [] [(str "dry", false)] (by decide))]⟩

/-- A positional-only parameter before the three. -/
def positionalModule : SourceModule :=
  ⟨"async def run(job, /, params, emit, connections): pass\n",
    [.function (runWith [str "job"] [] (by decide))]⟩

def SourceModule.onDisk (m : SourceModule) : FileState :=
  .content (m.text.toList.map fun c ↦ c.toNat.toUInt8)

def SourceModule.parsing (m : SourceModule) : Loader where
  validate _ := .error (.raised .validationError (str "name: Field required"))
  parse source :=
    if source = str m.text then .ok (m.body.map Statement.view)
    else .error (.raised .syntaxError (str "1: invalid syntax"))
  display := ⟨fun _ ↦ [], fun _ ↦ false⟩
  depth := 1000

theorem SourceModule.parse_text (m : SourceModule) :
    m.parsing.parse (str m.text) = .ok (m.body.map Statement.view) := by
  simp [parsing]

theorem predicts_iff_lastFits_plain :
    Predicts plainModule.parsing plainModule.onDisk plainModule.body ↔
      LastFits plainModule.body := by
  have hread : readText plainModule.onDisk = .ok (str plainModule.text) := by decide +kernel
  exact predicts_iff_lastFits hread plainModule.parse_text

/-- What the child loads of an accepted module and cannot call. -/
theorem not_predicts {m : SourceModule} {run : FunctionDef}
    (hcheck : checkEntrypoint m.parsing m.onDisk = .ok ()) (hload : loadRun m.body = .ok run)
    (hnot : ¬ Callable run) : ¬ Predicts m.parsing m.onDisk m.body := by
  intro h
  obtain ⟨found, hfound, hcallable⟩ := h hcheck
  rw [hload] at hfound
  exact hnot (Except.ok.inj hfound ▸ hcallable)

/-- Three modules that are accepted, although every job of theirs fails. -/
theorem accepted_not_callable :
    ¬ Predicts twiceModule.parsing twiceModule.onDisk twiceModule.body ∧
      ¬ Predicts keywordModule.parsing keywordModule.onDisk keywordModule.body ∧
        ¬ Predicts positionalModule.parsing positionalModule.onDisk positionalModule.body := by
  refine ⟨not_predicts (by decide +kernel) rfl fun h ↦ ?_,
    not_predicts (by decide +kernel) rfl fun h ↦ ?_,
    not_predicts (by decide +kernel) rfl fun h ↦ ?_⟩
  · exact absurd h.1 Bool.false_ne_true
  · have hkeywords := (callable_iff.mp h).2.2.2 (str "dry", false) List.mem_cons_self
    exact absurd hkeywords Bool.false_ne_true
  · exact absurd (callable_iff.mp h).2.1 (by decide)

end DatumSync.Repository
