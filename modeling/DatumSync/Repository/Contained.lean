import DatumSync.Repository.Sync

/-!
# What the passes of a sync catch

`scan` catches `ManifestError` and `WorkspaceError`, and `_apply_gate` catches `PublishError`.  Of the
files of a workspace and of the checks it gets to, this module says when nothing else is raised.
-/

namespace DatumSync.Repository

open Python Services Foundation

/-! ## What loading raises -/

/-- The file is missing, or it is strict UTF-8 and its text has the property. -/
def Decodes (file : FileState) (P : Str → Prop) : Prop :=
  match file with
  | .missing => True
  | .unreadable => False
  | .content bytes => ∃ text, decodeStrict bytes = some text ∧ P (translateNewlines text)

/-- Reading a file whose absence is dealt with, and going on with its text. -/
theorem onlyRaises_readText {β : Type} {family : Exc → Bool} {file : FileState}
    {absent : Exc → Exc} {f : Str → Except Exc β} (habsent : ∀ e, family (absent e) = true)
    (hunreadable : ∀ message, family (.raised .osError message) = false)
    (hunicode : ∀ message, family (.raised .unicodeError message) = false) :
    OnlyRaises family (recast (·.isA .fileNotFoundError) absent (readText file) >>= f) ↔
      Decodes file fun text ↦ OnlyRaises family (f text) := by
  rw [onlyRaises_bind, onlyRaises_recast habsent]
  simp only [recast_eq_ok]
  cases file with
  | missing => exact iff_of_true ⟨onlyRaises_error.2 rfl, nofun⟩ trivial
  | unreadable =>
    refine iff_of_false (fun h ↦ ?_) not_false
    have hraised := onlyRaises_error.1 h.1
    exact Bool.false_ne_true ((hunreadable _).symm.trans hraised)
  | content bytes =>
    rw [readText, Decodes]
    cases decodeStrict bytes with
    | none =>
      refine iff_of_false (fun h ↦ ?_) (by simp)
      have hraised := onlyRaises_error.1 h.1
      exact Bool.false_ne_true ((hunicode _).symm.trans hraised)
    | some text => simp

/-- An error of a class, or one that `scan` collects. -/
def handles (cls : ExcClass) (e : Exc) : Bool := e.isA cls || isCollected e

/-- The manifest is missing, or its bytes are UTF-8, its text is JSON or raises `JSONDecodeError`, and
its value is valid or raises `ValidationError`. -/
def ManifestContained (loader : Loader) (file : FileState) : Prop :=
  Decodes file fun text ↦
    OnlyRaises (handles .jsonDecodeError) (loads loader.depth text) ∧
      ∀ raw, loads loader.depth text = .ok raw →
        OnlyRaises (handles .validationError) (loader.validate raw)

/-- `main.py` is missing, or its bytes are UTF-8 and its source parses or raises `SyntaxError`. -/
def EntrypointContained (loader : Loader) (file : FileState) : Prop :=
  Decodes file fun source ↦ OnlyRaises (handles .syntaxError) (loader.parse source)

variable {loader : Loader}

theorem onlyRaises_loadManifest {path expectedName : Str} {file : FileState} :
    OnlyRaises isCollected (loadManifest loader path expectedName file) ↔
      ManifestContained loader file := by
  unfold loadManifest ManifestContained
  rw [onlyRaises_readText (fun _ ↦ rfl) (fun _ ↦ rfl) fun _ ↦ rfl]
  congr! 2 with text
  rw [onlyRaises_bind, onlyRaises_recast fun _ ↦ rfl]
  refine and_congr_right fun _ ↦ forall_congr' fun raw ↦ ?_
  rw [recast_eq_ok, onlyRaises_bind, onlyRaises_recast fun _ ↦ rfl]
  refine imp_congr_right fun _ ↦ and_iff_left fun manifest _ ↦ ?_
  split
  · exact onlyRaises_error.2 rfl
  · exact onlyRaises_ok

theorem onlyRaises_checkEntrypoint {file : FileState} :
    OnlyRaises isCollected (checkEntrypoint loader file) ↔ EntrypointContained loader file := by
  unfold checkEntrypoint EntrypointContained
  rw [onlyRaises_readText (fun _ ↦ rfl) (fun _ ↦ rfl) fun _ ↦ rfl]
  congr! 2 with source
  rw [onlyRaises_bind, onlyRaises_recast fun _ ↦ rfl]
  refine and_iff_left fun body _ ↦ ?_
  cases findRun body with
  | none => exact onlyRaises_error.2 rfl
  | some found =>
    dsimp only
    split
    · exact onlyRaises_error.2 rfl
    · split
      · exact onlyRaises_error.2 rfl
      · exact onlyRaises_ok

/-- Both files of a workspace directory, `main.py` where the manifest loads. -/
def DirContained (loader : Loader) (root repository : Str) (dir : WorkspaceDir) : Prop :=
  ManifestContained loader dir.manifest ∧
    ∀ manifest, loadManifest loader (manifestPath root repository dir.name) dir.name dir.manifest =
      .ok manifest → EntrypointContained loader dir.entrypoint

theorem onlyRaises_loadWorkspace {root repository : Str} {dir : WorkspaceDir} :
    OnlyRaises isCollected (loadWorkspace loader root repository dir) ↔
      DirContained loader root repository dir := by
  unfold loadWorkspace DirContained
  rw [onlyRaises_bind, onlyRaises_loadManifest]
  refine and_congr_right fun _ ↦ forall_congr' fun manifest ↦ imp_congr_right fun _ ↦ ?_
  rw [onlyRaises_bind, onlyRaises_checkEntrypoint]
  exact and_iff_left fun _ _ ↦ onlyRaises_ok

/-- What loads is of its directory. -/
theorem loadWorkspace_eq_ok {root repository : Str} {dir : WorkspaceDir} {ws : LoadedWorkspace}
    (h : loadWorkspace loader root repository dir = .ok ws) :
    ws.repository = repository ∧ ws.dir = dir := by
  unfold loadWorkspace at h
  obtain ⟨manifest, -, h⟩ := bind_eq_ok.1 h
  obtain ⟨_, -, h⟩ := bind_eq_ok.1 h
  obtain rfl := Except.ok.inj h
  exact ⟨rfl, rfl⟩

/-- A manifest that loads has the name of its directory. -/
theorem loadManifest_name {path expectedName : Str} {file : FileState}
    {manifest : WorkspaceManifest}
    (h : loadManifest loader path expectedName file = .ok manifest) :
    manifest.name = expectedName := by
  unfold loadManifest at h
  obtain ⟨text, -, h⟩ := bind_eq_ok.1 h
  obtain ⟨raw, -, h⟩ := bind_eq_ok.1 h
  obtain ⟨found, -, h⟩ := bind_eq_ok.1 h
  split at h
  · cases h
  · next hname =>
    obtain rfl := Except.ok.inj h
    exact not_not.1 hname

/-- What loads has the name of its manifest. -/
theorem loadWorkspace_name {root repository : Str} {dir : WorkspaceDir} {ws : LoadedWorkspace}
    (h : loadWorkspace loader root repository dir = .ok ws) : ws.manifest.name = ws.name := by
  unfold loadWorkspace at h
  obtain ⟨manifest, hmanifest, h⟩ := bind_eq_ok.1 h
  obtain ⟨_, -, h⟩ := bind_eq_ok.1 h
  obtain rfl := Except.ok.inj h
  exact loadManifest_name hmanifest

/-! ## What the gate raises -/

/-- `MANIFEST.md` is missing, or its bytes are UTF-8. -/
theorem onlyRaises_checkDocs {display : Display} {doc : FileState} :
    OnlyRaises isPublishError (checkDocs display doc) ↔ Decodes doc fun _ ↦ True := by
  unfold checkDocs
  rw [onlyRaises_readText (fun _ ↦ rfl) (fun _ ↦ rfl) fun _ ↦ rfl]
  congr! 2 with text
  refine iff_of_true ?_ trivial
  dsimp only
  split
  · exact onlyRaises_error.2 rfl
  · split
    · exact onlyRaises_error.2 rfl
    · exact onlyRaises_ok

section Services

variable {display : Display} {outcomes : GateOutcomes} {hosted : Hosted} {repository name : Str}
  {out : Output} {rest outputs : List Output}

/-- `check_services` has nothing against an output. -/
def Permits (outcomes : GateOutcomes) (hosted : Hosted) (repository name : Str) (out : Output) :
    Prop :=
  isService out.type = false ∨ out.type ∈ static ∧ outcomes.selectHolder out.name = none ∧
    hosted.isFree repository name out.name = true

/-- The `SELECT` for a service, where it is issued, raises nothing but `PublishError`. -/
def SelectContained (outcomes : GateOutcomes) (out : Output) : Prop :=
  out.type ∈ static → ∀ e, outcomes.selectHolder out.name = some e → isPublishError e = true

/-- Every `SELECT` that `check_services` gets to is contained. -/
def ServicesContained (outcomes : GateOutcomes) (hosted : Hosted) (repository name : Str)
    (outputs : List Output) : Prop :=
  ∀ before out, before ++ [out] <+: outputs →
    (∀ o ∈ before, Permits outcomes hosted repository name o) → SelectContained outcomes out

theorem servicesContained_cons :
    ServicesContained outcomes hosted repository name (out :: rest) ↔
      SelectContained outcomes out ∧ (Permits outcomes hosted repository name out →
        ServicesContained outcomes hosted repository name rest) := by
  constructor
  · intro h
    refine ⟨h [] out ⟨rest, rfl⟩ (List.forall_mem_nil _), fun hout before o hbegins hbefore ↦ ?_⟩
    exact h (out :: before) o ((List.prefix_cons_inj out).2 hbegins)
      (List.forall_mem_cons.2 ⟨hout, hbefore⟩)
  · rintro ⟨hout, hrest⟩ before o hbegins hbefore
    cases before with
    | nil =>
      rw [List.nil_append, List.cons_prefix_cons] at hbegins
      rw [hbegins.1]
      exact hout
    | cons first before =>
      rw [List.cons_append, List.cons_prefix_cons] at hbegins
      obtain ⟨rfl, hbegins⟩ := hbegins
      obtain ⟨hfirst, hbefore⟩ := List.forall_mem_cons.1 hbefore
      exact hrest hfirst before o hbegins hbefore

theorem not_supervised_of_static : ∀ type ∈ static, type ∉ supervised := by
  decide

/-- One turn of the loop of `check_services`. -/
theorem onlyRaises_checkServices_cons :
    OnlyRaises isPublishError (checkServices display outcomes hosted repository name (out :: rest)) ↔
      SelectContained outcomes out ∧ (Permits outcomes hosted repository name out →
        OnlyRaises isPublishError (checkServices display outcomes hosted repository name rest)) := by
  rw [checkServices]
  split
  · next hservice =>
    have hselect : SelectContained outcomes out := fun hstatic ↦ by
      rw [isService_of_mem_static _ hstatic] at hservice
      cases hservice
    exact ⟨fun h ↦ ⟨hselect, fun _ ↦ h⟩, fun h ↦ h.2 (.inl hservice)⟩
  · next hservice =>
    split
    · next hsupervised =>
      refine iff_of_true (onlyRaises_error.2 rfl) ⟨fun hstatic ↦ ?_, ?_⟩
      · exact absurd hsupervised (not_supervised_of_static _ hstatic)
      · rintro (h | ⟨hstatic, _⟩)
        · exact absurd h hservice
        · exact absurd hsupervised (not_supervised_of_static _ hstatic)
    · split
      · next hstatic =>
        refine iff_of_true (onlyRaises_error.2 rfl) ⟨fun h ↦ absurd h hstatic, ?_⟩
        rintro (h | ⟨h, _⟩)
        · exact absurd h hservice
        · exact absurd h hstatic
      · next hstatic =>
        rw [Bool.not_eq_false] at hservice
        rw [not_not] at hstatic
        unfold SelectContained Permits
        cases hselect : outcomes.selectHolder out.name with
        | some e => simp [hservice, hstatic]
        | none =>
          unfold Hosted.isFree
          cases hosted.table.lookup out.name with
          | none => simp [hservice, hstatic]
          | some owner =>
            cases howned : owner.ownedBy repository name with
            | true => simp [hservice, hstatic, howned]
            | false => simp [hservice, howned, isPublishError, publishError, Exc.isA,
                ExcClass.isSubclass]

theorem onlyRaises_checkServices :
    OnlyRaises isPublishError (checkServices display outcomes hosted repository name outputs) ↔
      ServicesContained outcomes hosted repository name outputs := by
  induction outputs with
  | nil =>
    refine iff_of_true onlyRaises_ok fun before out hbegins ↦ ?_
    rw [List.prefix_nil] at hbegins
    exact absurd hbegins (List.append_ne_nil_of_right_ne_nil _ (List.cons_ne_nil _ _))
  | cons out rest ih => rw [onlyRaises_checkServices_cons, servicesContained_cons, ih]

/-- The check is passed just when it has nothing against any output. -/
theorem checkServices_eq_ok :
    checkServices display outcomes hosted repository name outputs = .ok () ↔
      ∀ out ∈ outputs, Permits outcomes hosted repository name out := by
  induction outputs with
  | nil => exact iff_of_true rfl (List.forall_mem_nil _)
  | cons out rest ih =>
    rw [checkServices, List.forall_mem_cons]
    unfold Permits
    split
    · next hservice => rw [ih, and_iff_right (.inl hservice)]; rfl
    · next hservice =>
      split
      · next hsupervised =>
        refine iff_of_false nofun ?_
        rintro ⟨h | ⟨hstatic, _⟩, _⟩
        · exact absurd h hservice
        · exact absurd hsupervised (not_supervised_of_static _ hstatic)
      · split
        · next hstatic =>
          refine iff_of_false nofun ?_
          rintro ⟨h | ⟨h, _⟩, _⟩
          · exact absurd h hservice
          · exact absurd h hstatic
        · next hstatic =>
          rw [Bool.not_eq_false] at hservice
          rw [not_not] at hstatic
          cases hselect : outcomes.selectHolder out.name with
          | some e => simp [hservice]
          | none =>
            unfold Hosted.isFree
            cases hosted.table.lookup out.name with
            | none => simp [hservice, hstatic, ih, Permits, Hosted.isFree]
            | some owner =>
              cases howned : owner.ownedBy repository name with
              | true => simp [hservice, hstatic, howned, ih, Permits, Hosted.isFree]
              | false => simp [hservice, howned]

end Services

namespace SyncCall

variable (call : SyncCall) (db : Database)

/-- The checks of `gate`, each where those before it are passed, raise nothing but `PublishError`. -/
def GateContained (hosted : Hosted) (ws : LoadedWorkspace) : Prop :=
  Decodes ws.dir.doc (fun _ ↦ True) ∧
    (checkDocs call.loader.display ws.dir.doc = .ok () →
      ServicesContained call.outcomes hosted ws.repository ws.manifest.name ws.manifest.outputs ∧
        ((∀ out ∈ ws.manifest.outputs,
            Permits call.outcomes hosted ws.repository ws.manifest.name out) →
          OnlyRaises isPublishError (call.outcomes.connections ws) ∧
            (call.outcomes.connections ws = .ok () → call.dryRun = false →
              ws.manifest.smokeTest = true → OnlyRaises isPublishError (call.outcomes.smoke ws))))

variable {call db}

theorem onlyRaises_gate {hosted : Hosted} {ws : LoadedWorkspace} :
    OnlyRaises isPublishError (call.gateOf hosted ws) ↔ call.GateContained hosted ws := by
  unfold gateOf gate GateContained
  rw [onlyRaises_seq, onlyRaises_checkDocs]
  refine and_congr_right fun _ ↦ imp_congr_right fun _ ↦ ?_
  rw [onlyRaises_seq, onlyRaises_checkServices]
  refine and_congr_right fun _ ↦ imp_congr checkServices_eq_ok ?_
  rw [onlyRaises_seq]
  refine and_congr_right fun _ ↦ imp_congr_right fun _ ↦ ?_
  cases call.dryRun with
  | true => exact iff_of_true onlyRaises_ok nofun
  | false =>
    cases ws.manifest.smokeTest with
    | true => simp
    | false => exact iff_of_true onlyRaises_ok nofun

end SyncCall

end DatumSync.Repository
