import DatumSync.Automations.Render
import DatumSync.Automations.SelfTrigger

/-!
# The names in rendered texts

`parse` checks the placeholders of the texts that `_perform` renders, header values excepted.  A
checked name that a context does not hold is a parameter.
-/

namespace DatumSync.Automations

open Python

variable (shown : Shown)

/-- The texts of an action that `_perform` renders. -/
def renderedTexts : Action → List Str
  | .runWorkspace _ _ params => params.map fun param ↦ shown.strOf param.2
  | .httpRequest url _ headers body => url :: (headers.map Prod.snd ++ body.toList)

/-- Every placeholder of a text has a name that `_context` can hold. -/
def NamesKnown (text : Str) : Prop := ∀ name ∈ placeholders text, isKnownName name = true

/-- The rendered texts name parameters and declared fields of the job only; no other name is
missing from the context of any job. -/
def Closed (config : Config) : Prop :=
  ∀ action ∈ config.actions, ∀ text ∈ renderedTexts shown action,
    NamesKnown text ∧ ∀ name ∈ placeholders text, ∀ strOf job,
      contextGet (context strOf job) name = none → startsWith name (str "params.") = true

def documentActions : Yaml → List Yaml
  | .mapping fields =>
    match Yaml.get fields (str "actions") with
    | .list raws => raws
    | _ => []
  | _ => []

/-- The `headers` of an entry of type `http_request`. -/
def rawHeaders : Yaml → List (Yaml × Yaml)
  | .mapping fields =>
    if (Yaml.get fields (str "type")).eqText (str "http_request") then
      match Yaml.get fields (str "headers") with
      | .mapping entries => entries
      | _ => []
    else []
  | _ => []

/-- The header values of a document name what `_context` can hold. -/
def HeadersKnown (doc : Yaml) : Prop :=
  ∀ raw ∈ documentActions doc, ∀ header ∈ headerTexts shown (rawHeaders raw), NamesKnown header.2

variable {shown}

/-! ## What a context holds -/

theorem contextGet_eq_none {entries : List (Str × Str)} {name : Str} :
    contextGet entries name = none ↔ name ∉ entries.map Prod.fst := by
  rw [contextGet, Option.map_eq_none_iff, List.find?_eq_none]
  constructor
  · intro h hmem
    obtain ⟨entry, hentry, rfl⟩ := List.mem_map.mp hmem
    exact h entry hentry (beq_self_eq_true _)
  · intro h entry hentry heq
    exact h (List.mem_map.mpr ⟨entry, hentry, beq_iff_eq.mp heq⟩)

theorem setItem_keys {entries : List (Str × Str)} {name : Str}
    (h : name ∈ entries.map Prod.fst) (key value : Str) :
    name ∈ (setItem entries key value).map Prod.fst := by
  induction entries with
  | nil => exact absurd h List.not_mem_nil
  | cons entry rest ih =>
    rw [setItem]
    split
    · next heq =>
      rw [List.map_cons, ← heq]
      exact h
    · rcases List.mem_cons.mp h with rfl | h
      · exact List.mem_cons_self
      · exact List.mem_cons_of_mem _ (ih h)

theorem mem_context {strOf : Json → Str} {job : FinishedJob} {field : Str} (h : field ∈ jobFields) :
    str "job." ++ field ∈ (context strOf job).map Prod.fst := by
  unfold context
  generalize job.params = params
  have hfields : str "job." ++ field ∈
      (jobFields.map fun field ↦ (str "job." ++ field, (job.column field).getD [])).map Prod.fst :=
    List.mem_map.mpr ⟨_, List.mem_map.mpr ⟨field, h, rfl⟩, rfl⟩
  generalize jobFields.map (fun field ↦ (str "job." ++ field, (job.column field).getD [])) = entries
    at hfields ⊢
  induction params generalizing entries with
  | nil => exact hfields
  | cons param rest ih => exact ih _ (setItem_keys hfields _ _)

/-- A known name that the context of a job does not hold is a parameter. -/
theorem params_of_missing {name : Str} (hknown : isKnownName name = true) {strOf : Json → Str}
    {job : FinishedJob} (h : contextGet (context strOf job) name = none) :
    startsWith name (str "params.") = true := by
  rw [isKnownName, Bool.or_eq_true, Bool.and_eq_true, decide_eq_true_eq] at hknown
  rcases hknown with hparams | ⟨hjob, hfield⟩
  · exact hparams
  · obtain ⟨field, rfl⟩ := startsWith_iff.mp hjob
    have hdrop : (str "job." ++ field).drop 4 = field := rfl
    rw [hdrop] at hfield
    exact absurd (mem_context hfield) (contextGet_eq_none.mp h)

/-! ## What the checks let pass -/

theorem checkTemplate_eq_ok {text origin : Str} :
    checkTemplate text origin = .ok () ↔ NamesKnown text := by
  unfold checkTemplate NamesKnown
  generalize placeholders text = names
  induction names with
  | nil => exact iff_of_true rfl nofun
  | cons name rest ih =>
    rw [checkNames, List.forall_mem_cons]
    split
    · next hknown => rw [ih, and_iff_right hknown]
    · next hunknown => exact iff_of_false nofun fun h ↦ hunknown h.1

theorem checkValues_eq_ok {origin : Str} {params : List (Yaml × Yaml)} :
    checkValues shown origin params = .ok () ↔
      ∀ param ∈ params, NamesKnown (shown.strOf param.2) := by
  induction params with
  | nil => exact iff_of_true rfl nofun
  | cons param rest ih =>
    rw [checkValues, List.forall_mem_cons, ← ih, ← @checkTemplate_eq_ok _ origin]
    cases checkTemplate (shown.strOf param.2) origin with
    | error e => exact iff_of_false nofun fun h ↦ nomatch h.1
    | ok u => exact (and_iff_right rfl).symm

theorem parseBody_ok {i : ℕ} {fields : List (Yaml × Yaml)} {body : Option Str}
    (h : parseBody i fields = .ok body) : ∀ text ∈ body, NamesKnown text := by
  unfold parseBody at h
  split at h
  · rw [← Except.ok.inj h]
    nofun
  · split at h
    · cases h
    · next hcheck =>
      rw [← Except.ok.inj h]
      intro text htext
      rw [← Option.some.inj htext]
      exact checkTemplate_eq_ok.mp hcheck
  · cases h

/-- The texts of a `run_workspace` action were all checked. -/
theorem parseRunWorkspace_ok {i : ℕ} {fields : List (Yaml × Yaml)} {action : Action}
    (h : parseRunWorkspace shown i fields = .ok action) :
    ∀ text ∈ renderedTexts shown action, NamesKnown text := by
  obtain ⟨_, _, h⟩ := bind_ok h
  obtain ⟨repository, _, h⟩ := bind_ok h
  obtain ⟨workspace, _, h⟩ := bind_ok h
  obtain ⟨params, _, h⟩ := bind_ok h
  obtain ⟨_, hcheck, h⟩ := bind_ok h
  rw [← Except.ok.inj h]
  intro text htext
  obtain ⟨param, hparam, rfl⟩ := List.mem_map.mp htext
  exact checkValues_eq_ok.mp hcheck param hparam

theorem optionalMapping_headers {i : ℕ} {fields entries : List (Yaml × Yaml)}
    (hkind : (Yaml.get fields (str "type")).eqText (str "http_request") = true)
    (h : optionalMapping i fields (str "headers") = .ok entries) :
    rawHeaders (.mapping fields) = entries := by
  unfold optionalMapping at h
  rw [rawHeaders, if_pos hkind]
  dsimp only at h
  generalize Yaml.get fields (str "headers") = value at h ⊢
  cases value with
  | mapping inner =>
    cases inner with
    | nil => exact Except.ok.inj h
    | cons entry rest => exact Except.ok.inj h
  | _ =>
    split at h
    · exact Except.ok.inj h
    · cases h

/-- Of the texts of an `http_request` action the header values were not checked. -/
theorem parseHttpRequest_ok {i : ℕ} {fields : List (Yaml × Yaml)} {action : Action}
    (hkind : (Yaml.get fields (str "type")).eqText (str "http_request") = true)
    (h : parseHttpRequest shown i fields = .ok action) :
    (∀ text ∈ renderedTexts shown action, NamesKnown text) ↔
      ∀ header ∈ headerTexts shown (rawHeaders (.mapping fields)), NamesKnown header.2 := by
  obtain ⟨_, _, h⟩ := bind_ok h
  split at h
  · next url _ =>
    obtain ⟨_, h⟩ := raiseIf_ok h
    obtain ⟨_, hurl, h⟩ := bind_ok h
    obtain ⟨_, h⟩ := raiseIf_ok h
    obtain ⟨headers, hheaders, h⟩ := bind_ok h
    obtain ⟨body, hbody, h⟩ := bind_ok h
    rw [← Except.ok.inj h, optionalMapping_headers hkind hheaders]
    have hurl := checkTemplate_eq_ok.mp hurl
    have hbody := parseBody_ok hbody
    constructor
    · intro hall header hmem
      exact hall _ (List.mem_cons_of_mem _ (List.mem_append_left _ (List.mem_map_of_mem hmem)))
    · intro hall text htext
      rcases List.mem_cons.mp htext with rfl | htext
      · exact hurl
      rcases List.mem_append.mp htext with htext | htext
      · obtain ⟨header, hmem, rfl⟩ := List.mem_map.mp htext
        exact hall header hmem
      · exact hbody text (Option.mem_toList.mp htext)
  · cases h

/-- An action names what a context can hold just when its header values do. -/
theorem parseAction_ok {i : ℕ} {raw : Yaml} {action : Action}
    (h : parseAction shown i raw = .ok action) :
    (∀ text ∈ renderedTexts shown action, NamesKnown text) ↔
      ∀ header ∈ headerTexts shown (rawHeaders raw), NamesKnown header.2 := by
  unfold parseAction at h
  split at h
  · next fields =>
    dsimp only at h
    split at h
    · next hkind =>
      have hother : (Yaml.get fields (str "type")).eqText (str "http_request") ≠ true := by
        rw [Yaml.eqText_iff.mp hkind]
        decide
      rw [rawHeaders, if_neg hother]
      exact iff_of_true (parseRunWorkspace_ok h) fun header hmem ↦
        absurd hmem List.not_mem_nil
    · split at h
      · next hkind => exact parseHttpRequest_ok hkind h
      · cases h
  · cases h

theorem parseActionsFrom_ok {i : ℕ} {raws : List Yaml} {actions : List Action}
    (h : parseActionsFrom shown i raws = .ok actions) :
    (∀ action ∈ actions, ∀ text ∈ renderedTexts shown action, NamesKnown text) ↔
      ∀ raw ∈ raws, ∀ header ∈ headerTexts shown (rawHeaders raw), NamesKnown header.2 := by
  induction raws generalizing i actions with
  | nil =>
    rw [← Except.ok.inj h]
    exact iff_of_true nofun nofun
  | cons raw rest ih =>
    obtain ⟨action, haction, h⟩ := bind_ok h
    obtain ⟨others, hothers, h⟩ := bind_ok h
    rw [← Except.ok.inj h, List.forall_mem_cons, List.forall_mem_cons, ih hothers,
      parseAction_ok haction]

theorem closed_iff_namesKnown {config : Config} :
    Closed shown config ↔
      ∀ action ∈ config.actions, ∀ text ∈ renderedTexts shown action, NamesKnown text :=
  ⟨fun h action haction text htext ↦ (h action haction text htext).1,
    fun h action haction text htext ↦ ⟨h action haction text htext, fun name hname _ _ hmissing ↦
      params_of_missing (h action haction text htext name hname) hmissing⟩⟩

/-- Rendering is a single pass over a text; an accepted document renders known names only just when
its header values have no others. -/
theorem closed_and_singlePass_iff {safeLoad : Str → Except Str Yaml} {text : Str} {config : Config}
    (h : parse shown safeLoad text = .ok config) :
    Closed shown config ∧ SinglePass ↔
      ∀ doc, safeLoad text = .ok doc → HeadersKnown shown doc := by
  rw [and_iff_left render_singlePass, closed_iff_namesKnown]
  obtain ⟨fields, hload, _, hactions, _⟩ := parse_eq_ok h
  have hdoc : (∀ doc, safeLoad text = .ok doc → HeadersKnown shown doc) ↔
      HeadersKnown shown (.mapping fields) :=
    ⟨fun hall ↦ hall _ hload, fun hknown doc hdoc ↦ by
      rw [hload] at hdoc
      rwa [← Except.ok.inj hdoc]⟩
  rw [hdoc, HeadersKnown, documentActions]
  unfold parseActions at hactions
  split at hactions
  · next heq =>
    rw [heq]
    exact parseActionsFrom_ok hactions
  · cases hactions

/-- Posts the status of a job, with one of its fields in a header. -/
def headerTree (field : String) : Yaml :=
  .mapping [(.text (str "name"), .text (str "a")),
    (.text (str "trigger"), .mapping [(.text (str "type"), .text (str "job_complete"))]),
    (.text (str "actions"), .list [.mapping [(.text (str "type"), .text (str "http_request")),
      (.text (str "url"), .text (str "https://example.org/")),
      (.text (str "headers"), .mapping [(.text (str "X-Job"),
        .text (str ("\x7b\x7bjob." ++ field ++ "\x7d\x7d")))]),
      (.text (str "body"), .text (str "\x7b\x7bjob.status\x7d\x7d"))]])]

def headerText (field : String) : Str :=
  str "name: a\ntrigger:\n  type: job_complete\nactions:\n  - type: http_request\n" ++
    str "    url: https://example.org/\n    headers:\n      X-Job: \"\x7b\x7bjob." ++ str field ++
    str "\x7d\x7d\"\n    body: \"\x7b\x7bjob.status\x7d\x7d\"\n"

def headerLoad (field : String) (text : Str) : Except Str Yaml :=
  if text = headerText field then .ok (headerTree field) else .error (str "not the document")

def headerConfig (field : String) : Config where
  name := str "a"
  enabled := true
  trigger := { repository := .null, workspace := .null, status := none }
  actions := [.httpRequest (str "https://example.org/") (str "POST")
    [(str "X-Job", str ("\x7b\x7bjob." ++ field ++ "\x7d\x7d"))]
    (some (str "\x7b\x7bjob.status\x7d\x7d"))]

theorem headerLoad_text (field : String) :
    headerLoad field (headerText field) = .ok (headerTree field) := if_pos rfl

theorem closed_and_singlePass_iff_header : Closed plainShown (headerConfig "id") ∧ SinglePass := by
  have haccepted : parse plainShown (headerLoad "id") (headerText "id") =
      .ok (headerConfig "id") := by
    rw [parse, headerLoad_text]
    rfl
  refine (closed_and_singlePass_iff haccepted).mpr fun doc hdoc ↦ ?_
  obtain rfl := Except.ok.inj ((headerLoad_text "id").symm.trans hdoc)
  have hknown : ∀ raw ∈ documentActions (headerTree "id"),
      ∀ header ∈ headerTexts plainShown (rawHeaders raw),
        ∀ name ∈ placeholders header.2, isKnownName name = true := by
    decide +kernel
  exact hknown

/-- A header value with an unknown name is accepted. -/
theorem header_not_closed :
    parse plainShown (headerLoad "di") (headerText "di") = .ok (headerConfig "di") ∧
      ¬ (Closed plainShown (headerConfig "di") ∧ SinglePass) := by
  refine ⟨?_, fun h ↦ ?_⟩
  · rw [parse, headerLoad_text]
    rfl
  · have hknown := (h.1 _ List.mem_cons_self (str "\x7b\x7bjob.di\x7d\x7d")
      (List.mem_cons_of_mem _ List.mem_cons_self)).1 (str "job.di") (by decide +kernel)
    exact absurd hknown (by decide +kernel)

end DatumSync.Automations
