import DatumSync.Foundation.Collect
import DatumSync.Python.Values
import DatumSync.Worker.Reconcile

/-!
# The artifacts of a result and the manifest

A manifest declares its outputs under distinct names and marks one of several as primary.  What
`_reconcile` returns has the types and flags of the declarations; that no name comes twice it leaves
to the list it is given.
-/

namespace DatumSync.Worker

open Foundation Python

/-! ## The outputs of a manifest -/

def rejectDuplicates (display : Display) (names : List Str) (label : Str) : Except Exc Unit :=
  let dupes := (names.filter fun name ↦ decide (1 < names.count name)).dedup
  if dupes = [] then .ok ()
  else .error (valueError (str "duplicate " ++ label ++ str " name(s): " ++
    display.reprTexts (sortTexts dupes)))

/-- `_check`, as far as it is about the outputs. -/
def checkOutputs (display : Display) (manifest : Manifest) : Except Exc Unit := do
  rejectDuplicates display (manifest.outputs.map Output.name) (str "output")
  let primaries := (manifest.outputs.filter Output.primary).map Output.name
  if 1 < primaries.length then
    throw (valueError (str "only one output may be primary, got " ++ display.reprTexts primaries))
  if 1 < manifest.outputs.length ∧ primaries = [] then
    throw (valueError (str "with more than one output, exactly one must be marked primary"))

/-- A descriptor is the one of an output that the manifest declares. -/
structure Descriptor.Of (descriptor : Descriptor) (output : Output) : Prop where
  name : descriptor.name = output.name
  type : descriptor.type = output.type
  primary : descriptor.primary = output.primary
  dir : descriptor.dir = startsWith output.type (str "service/")

/-- The descriptors have distinct names, each is one of a declared output, and at most one is
primary. -/
structure Respects (manifest : Manifest) (descriptors : List Descriptor) : Prop where
  distinct : (descriptors.map Descriptor.name).Nodup
  declared : ∀ descriptor ∈ descriptors, ∃ output ∈ manifest.outputs, descriptor.Of output
  primary : (descriptors.filter Descriptor.primary).length ≤ 1

/-- No two artifacts of the list have one name. -/
def DistinctNames (artifacts : Json) : Prop :=
  ∀ items names, iterate artifacts = .ok items → artifactNames items = .ok names → names.Nodup

variable {display : Display} {manifest : Manifest} {reprOf : Str → Str}

theorem rejectDuplicates_ok {names : List Str} {label : Str}
    (h : rejectDuplicates display names label = .ok ()) : names.Nodup := by
  rw [List.nodup_iff_count_le_one]
  intro name
  by_contra hmany
  rw [not_le] at hmany
  unfold rejectDuplicates at h
  dsimp only at h
  split at h
  · next hnone =>
    have hmem : name ∈ (names.filter fun name ↦ decide (1 < names.count name)).dedup := by
      rw [List.mem_dedup, List.mem_filter]
      exact ⟨List.count_pos_iff.mp (by omega), decide_eq_true hmany⟩
    rw [hnone] at hmem
    cases hmem
  · cases h

/-- A checked manifest declares distinct names and at most one primary output. -/
theorem checkOutputs_ok (h : checkOutputs display manifest = .ok ()) :
    (manifest.outputs.map Output.name).Nodup ∧
      (manifest.outputs.filter Output.primary).length ≤ 1 := by
  obtain ⟨_, hnames, h⟩ := DatumSync.bind_ok h
  refine ⟨rejectDuplicates_ok hnames, ?_⟩
  dsimp only at h
  split at h
  · cases h
  · next hfew =>
    rw [List.length_map] at hfew
    omega

/-! ## What `_reconcile` returns -/

theorem declared_mem {name : Str} {output : Output} (h : manifest.declared name = some output) :
    output ∈ manifest.outputs ∧ output.name = name := by
  have hname := List.find?_some h
  exact ⟨List.mem_reverse.mp (List.mem_of_find?_eq_some h), beq_iff_eq.mp hname⟩

theorem outputOf_ok {a : Json} {output : Output} (h : outputOf manifest a = .ok output) :
    output ∈ manifest.outputs ∧ subscript a (str "name") = .ok (.text output.name) := by
  unfold outputOf at h
  split at h
  · cases h
  · next name hname =>
    split at h
    · next found hfound =>
      obtain rfl := Except.ok.inj h
      obtain ⟨hmem, rfl⟩ := declared_mem hfound
      exact ⟨hmem, hname⟩
    · cases h
  · cases h

/-- The check lets directories pass for services, and only for them. -/
theorem checkDirs_ok {items : List Json} (h : checkDirs reprOf manifest items = .ok ()) :
    ∀ a ∈ items, ∀ output, outputOf manifest a = .ok output →
      isDir a = startsWith output.type (str "service/") := by
  induction items with
  | nil => exact List.forall_mem_nil _
  | cons a rest ih =>
    rw [checkDirs] at h
    split at h
    · cases h
    · next output houtput =>
      dsimp only at h
      split at h
      · cases h
      · next hfile =>
        split at h
        · cases h
        · next hdir =>
          refine List.forall_mem_cons.mpr ⟨fun other hother ↦ ?_, ih h⟩
          obtain rfl := Except.ok.inj (houtput.symm.trans hother)
          cases hservice : startsWith output.type (str "service/") <;> cases hisDir : isDir a <;>
            simp_all

theorem descriptorOf_ok {a : Json} {descriptor : Descriptor}
    (h : descriptorOf manifest a = .ok descriptor) :
    ∃ output, outputOf manifest a = .ok output ∧ descriptor.name = output.name ∧
      descriptor.type = output.type ∧ descriptor.primary = output.primary ∧
        descriptor.dir = isDir a := by
  unfold descriptorOf at h
  split at h
  · cases h
  · next output houtput =>
    split at h
    · cases h
    · split at h
      · cases h
      · rw [← Except.ok.inj h]
        exact ⟨output, houtput, rfl, rfl, rfl, rfl⟩

/-- The list has a descriptor for each artifact, under its name. -/
theorem descriptors_ok {items : List Json} {list : List Descriptor}
    (h : descriptors manifest items = .ok list) :
    artifactNames items = .ok (list.map fun descriptor ↦ .text descriptor.name) ∧
      ∀ descriptor ∈ list, ∃ a ∈ items, descriptorOf manifest a = .ok descriptor := by
  induction items generalizing list with
  | nil =>
    rw [← Except.ok.inj h]
    exact ⟨rfl, List.forall_mem_nil _⟩
  | cons a rest ih =>
    rw [descriptors] at h
    split at h
    · cases h
    · next descriptor hdescriptor =>
      cases hrest : descriptors manifest rest with
      | error e =>
        rw [hrest] at h
        cases h
      | ok others =>
        rw [hrest] at h
        obtain rfl := Except.ok.inj h
        obtain ⟨hnames, hothers⟩ := ih hrest
        obtain ⟨output, houtput, hname, -⟩ := descriptorOf_ok hdescriptor
        refine ⟨?_, List.forall_mem_cons.mpr ⟨⟨a, List.mem_cons_self, hdescriptor⟩, ?_⟩⟩
        · rw [artifactNames, (outputOf_ok houtput).2, hnames, List.map_cons, hname]
          rfl
        · intro other hother
          obtain ⟨b, hb, hother⟩ := hothers other hother
          exact ⟨b, List.mem_cons_of_mem _ hb, hother⟩

/-- What a list that was reconciled had gone through. -/
theorem reconcile_ok {artifacts : Json} {list : List Descriptor}
    (h : reconcile reprOf manifest artifacts = .ok list) :
    ∃ items, iterate artifacts = .ok items ∧ checkDirs reprOf manifest items = .ok () ∧
      descriptors manifest items = .ok list := by
  unfold reconcile at h
  split at h
  · cases h
  · next items hitems =>
    split at h
    · cases h
    · split at h
      · cases h
      · split at h
        · cases h
        · next hdirs => exact ⟨items, hitems, hdirs, h⟩

/-- Of distinct names at most one is that of a primary output. -/
theorem primary_le_one {list : List Descriptor}
    (hprimary : (manifest.outputs.filter Output.primary).length ≤ 1)
    (hdistinct : (list.map Descriptor.name).Nodup)
    (hdeclared : ∀ descriptor ∈ list, ∃ output ∈ manifest.outputs, descriptor.Of output) :
    (list.filter Descriptor.primary).length ≤ 1 := by
  have hsubset : (list.filter Descriptor.primary).map Descriptor.name ⊆
      (manifest.outputs.filter Output.primary).map Output.name := by
    intro name hname
    obtain ⟨descriptor, hmem, rfl⟩ := List.mem_map.mp hname
    obtain ⟨hin, hflag⟩ := List.mem_filter.mp hmem
    obtain ⟨output, houtput, hof⟩ := hdeclared descriptor hin
    rw [hof.name]
    exact List.mem_map_of_mem (List.mem_filter.mpr ⟨houtput, hof.primary ▸ hflag⟩)
  have hnodup := hdistinct.sublist ((List.filter_sublist (p := Descriptor.primary)).map _)
  have hlength := (hnodup.subperm hsubset).length_le
  rw [List.length_map, List.length_map] at hlength
  exact hlength.trans hprimary

/-- A reconciled list respects the manifest just when no two artifacts had one name. -/
theorem respects_iff_distinctNames {artifacts : Json} {list : List Descriptor}
    (hcheck : checkOutputs display manifest = .ok ())
    (h : reconcile reprOf manifest artifacts = .ok list) :
    Respects manifest list ↔ DistinctNames artifacts := by
  obtain ⟨items, hitems, hdirs, hlist⟩ := reconcile_ok h
  obtain ⟨hnames, hfrom⟩ := descriptors_ok hlist
  have hdeclared : ∀ descriptor ∈ list, ∃ output ∈ manifest.outputs, descriptor.Of output := by
    intro descriptor hdescriptor
    obtain ⟨a, ha, hdescriptor⟩ := hfrom descriptor hdescriptor
    obtain ⟨output, houtput, hname, htype, hprimary, hdir⟩ := descriptorOf_ok hdescriptor
    exact ⟨output, (outputOf_ok houtput).1, hname, htype, hprimary,
      hdir.trans (checkDirs_ok hdirs a ha output houtput)⟩
  have htexts : (list.map fun descriptor ↦ Json.text descriptor.name).Nodup ↔
      (list.map Descriptor.name).Nodup := by
    rw [← List.nodup_map_iff (f := Json.text) fun _ _ ↦ Json.text.inj, List.map_map]
    rfl
  constructor
  · intro hrespects items' names' hitems' hnames'
    obtain rfl := Except.ok.inj (hitems.symm.trans hitems')
    obtain rfl := Except.ok.inj (hnames.symm.trans hnames')
    exact htexts.mpr hrespects.distinct
  · intro hdistinct
    have hnodup := htexts.mp (hdistinct items _ hitems hnames)
    exact ⟨hnodup, hdeclared, primary_le_one (checkOutputs_ok hcheck).2 hnodup hdeclared⟩

def reportManifest : Manifest where
  outputs := [{ name := str "report", type := str "text/html", primary := true },
    { name := str "site", type := str "service/static" }]
  connections := []

def artifactOf (name : String) (dir : Bool) : Json :=
  .obj [(str "name", .text (str name)), (str "type", .text (str "text/plain")),
    (str "primary", .bool false), (str "file", .text (str name)), (str "dir", .bool dir),
    (str "size", .int 2)]

def quietDisplay : Display where
  reprFloat _ := []
  printable _ := false

theorem respects_iff_distinctNames_report :
    Respects reportManifest
        [{ name := str "report", type := str "text/html", primary := true,
           file := .text (str "report"), dir := false, size := .int 2 },
          { name := str "site", type := str "service/static", primary := false,
            file := .text (str "site"), dir := true, size := .int 2 }] ↔
      DistinctNames (.arr [artifactOf "report" false, artifactOf "site" true]) :=
  @respects_iff_distinctNames quietDisplay reportManifest id _ _ (by decide +kernel)
    (by decide +kernel)

/-- Two artifacts of one name are both kept, and both are primary. -/
theorem repeated_not_respects : ∃ list, checkOutputs quietDisplay reportManifest = .ok () ∧
    reconcile id reportManifest (.arr [artifactOf "report" false, artifactOf "report" false]) =
      .ok list ∧ ¬ Respects reportManifest list :=
  ⟨List.replicate 2
    { name := str "report", type := str "text/html", primary := true,
      file := .text (str "report"), dir := false, size := .int 2 },
    by decide +kernel, by decide +kernel, fun h ↦ absurd h.distinct (by decide)⟩

end DatumSync.Worker
