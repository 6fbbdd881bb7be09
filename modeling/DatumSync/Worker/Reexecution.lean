import DatumSync.Foundation.Collect
import DatumSync.Worker.Store

/-!
# Storing again after a crash

`requeue_orphans` gives the job of a dead worker back to the queue, and the next attempt stores the
same artifacts in the same directory.  Files are written over; a directory that is there already is
not.
-/

namespace DatumSync.Worker

open Python Foundation Replay

variable {outside : ChildOutside}

/-! ## What an artifact lands as -/

/-- What the content or the path of an artifact gives, whatever its name. -/
def payload (outside : ChildOutside) (fields : List (Str × ArtifactValue)) : Option Entry :=
  match fields.lookup (str "content"), fields.lookup (str "path") with
  | some (.json (.text s)), none => (encodeUtf8 s).map .file
  | some (.bytes bytes), none => some (.file bytes)
  | none, some (.json (.text path)) =>
    match outside.source path with
    | .directory (.ok tree) => some (.directory tree)
    | .file (.ok bytes) => some (.file bytes)
    | _ => none
  | _, _ => none

/-- A text without a slash that does not start with a dot, for which a file can be made. -/
def isStorable (outside : ChildOutside) (name : Str) : Bool :=
  !name.isEmpty && decide (cp '/' ∉ name) && !startsWith name (str ".") &&
    (outside.creates name).isNone

/-- The name and the entry of an artifact that can be stored. -/
def landsAs (outside : ChildOutside) : Artifact → Option (Str × Entry)
  | .other => none
  | .dict fields =>
    match fields.lookup (str "name") with
    | some (.json (.text name)) =>
      if isStorable outside name then (payload outside fields).map (name, ·) else none
    | _ => none

/-- The entries that the artifacts land as, if all of them can be stored. -/
def landAll (outside : ChildOutside) : List Artifact → Option (List (Str × Entry))
  | [] => some []
  | artifact :: rest =>
    (landsAs outside artifact).bind fun item ↦ (landAll outside rest).map (item :: ·)

/-- The descriptor of an artifact that has landed as an item. -/
def describeItem (artifact : Artifact) (item : Str × Entry) : StoredDescriptor :=
  match artifact with
  | .dict fields => describe item.1 fields item.2
  | .other => describe item.1 [] item.2

/-! ## One artifact -/

variable {name : Str} {fields : List (Str × ArtifactValue)} {held : Option Entry} {entry : Entry}

theorem openFile_eq_ok : openFile outside name held = .ok () ↔
    outside.creates name = none ∧ held.all (fun e ↦ !e.isDirectory) = true := by
  unfold openFile
  cases outside.creates name with
  | some e => exact iff_of_false nofun fun h ↦ nomatch h.1
  | none =>
    cases held with
    | none => exact iff_of_true rfl ⟨rfl, rfl⟩
    | some e =>
      cases e with
      | file bytes => exact iff_of_true rfl ⟨rfl, rfl⟩
      | directory tree => exact iff_of_false nofun fun h ↦ nomatch h.2

theorem writeContent_eq_ok {content : ArtifactValue} :
    writeContent outside name held content = .ok entry ↔
      (match content with
        | .json (.text s) => (encodeUtf8 s).map .file
        | .bytes bytes => some (.file bytes)
        | _ => none) = some entry ∧
      outside.creates name = none ∧ fits Entry.isDirectory entry held = true := by
  cases content with
  | bytes data =>
    unfold writeContent
    rw [bind_eq_ok]
    constructor
    · rintro ⟨_, hopen, h⟩
      obtain rfl := Except.ok.inj h
      exact ⟨rfl, openFile_eq_ok.1 hopen⟩
    · rintro ⟨h, hopen⟩
      obtain rfl := Option.some.inj h
      exact ⟨(), openFile_eq_ok.2 hopen, rfl⟩
  | json v =>
    cases v with
    | text s =>
      unfold writeContent
      rw [bind_eq_ok]
      dsimp only
      cases encodeUtf8 s with
      | none => exact iff_of_false (fun h ↦ nomatch h.choose_spec.2) fun h ↦ nomatch h.1
      | some bytes =>
        constructor
        · rintro ⟨_, hopen, h⟩
          obtain rfl := Except.ok.inj h
          exact ⟨rfl, openFile_eq_ok.1 hopen⟩
        · rintro ⟨h, hopen⟩
          obtain rfl := Option.some.inj h
          exact ⟨(), openFile_eq_ok.2 hopen, rfl⟩
    | _ => exact iff_of_false nofun fun h ↦ nomatch h.1

theorem copyPath_eq_ok {path : ArtifactValue} :
    copyPath outside name held path = .ok entry ↔
      (match path with
        | .json (.text path) =>
          match outside.source path with
          | .directory (.ok tree) => some (.directory tree)
          | .file (.ok bytes) => some (.file bytes)
          | _ => none
        | _ => none) = some entry ∧
      outside.creates name = none ∧ fits Entry.isDirectory entry held = true := by
  cases path with
  | bytes data => exact iff_of_false nofun fun h ↦ nomatch h.1
  | json v =>
    cases v with
    | text path =>
      unfold copyPath
      dsimp only
      cases outside.source path with
      | absent => exact iff_of_false nofun fun h ↦ nomatch h.1
      | failing e => exact iff_of_false nofun fun h ↦ nomatch h.1
      | file read =>
        cases read with
        | error e => exact iff_of_false nofun fun h ↦ nomatch h.1
        | ok bytes =>
          change openFile outside name held >>= _ = _ ↔ _
          rw [bind_eq_ok]
          constructor
          · rintro ⟨_, hopen, h⟩
            obtain rfl := Except.ok.inj h
            exact ⟨rfl, openFile_eq_ok.1 hopen⟩
          · rintro ⟨h, hopen⟩
            obtain rfl := Option.some.inj h
            exact ⟨(), openFile_eq_ok.2 hopen, rfl⟩
      | directory copied =>
        dsimp only
        cases outside.creates name with
        | some e => exact iff_of_false nofun fun h ↦ nomatch h.2.1
        | none =>
          cases held with
          | some e =>
            refine iff_of_false nofun fun h ↦ ?_
            cases copied with
            | error f => cases h.1
            | ok tree =>
              obtain rfl := Option.some.inj h.1
              cases h.2.2
          | none =>
            cases copied with
            | error f => exact iff_of_false nofun fun h ↦ nomatch h.1
            | ok tree =>
              change (.ok (Entry.directory tree) : Except Exc Entry) = .ok entry ↔
                some (Entry.directory tree) = some entry ∧ _
              rw [Except.ok.injEq, Option.some.injEq]
              refine (and_iff_left_of_imp ?_).symm
              rintro rfl
              exact ⟨rfl, rfl⟩
    | _ => exact iff_of_false nofun fun h ↦ nomatch h.1

theorem landing_eq_ok : landing outside name fields held = .ok entry ↔
    payload outside fields = some entry ∧ outside.creates name = none ∧
      fits Entry.isDirectory entry held = true := by
  unfold landing payload
  cases fields.lookup (str "content") with
  | some content =>
    cases fields.lookup (str "path") with
    | none =>
      rw [writeContent_eq_ok]
      cases content with
      | bytes data => rfl
      | json v => cases v <;> rfl
    | some path =>
      refine iff_of_false nofun fun h ↦ ?_
      cases content with
      | bytes data => cases h.1
      | json v => cases v <;> cases h.1
  | none =>
    cases fields.lookup (str "path") with
    | none => exact iff_of_false nofun fun h ↦ nomatch h.1
    | some path =>
      rw [copyPath_eq_ok]
      cases path with
      | bytes data => rfl
      | json v => cases v <;> rfl

theorem storeName_eq_ok {artifact : Artifact} : storeName outside artifact fields = .ok name ↔
    fields.lookup (str "name") = some (.json (.text name)) ∧ name ≠ [] ∧ cp '/' ∉ name ∧
      startsWith name (str ".") = false := by
  unfold storeName
  cases fields.lookup (str "name") with
  | none => exact iff_of_false nofun fun h ↦ nomatch h.1
  | some v =>
    dsimp only
    split
    · next hfalsy =>
      refine iff_of_false nofun ?_
      rintro ⟨h, hname, -⟩
      obtain rfl := Option.some.inj h
      cases name with
      | nil => exact hname rfl
      | cons c rest => cases hfalsy
    · next htruthy =>
      cases v with
      | bytes data => exact iff_of_false nofun fun h ↦ nomatch h.1
      | json v =>
        cases v with
        | text s =>
          have hs : s ≠ [] := by
            rintro rfl
            exact htruthy rfl
          dsimp only
          split
          · next hunsafe =>
            refine iff_of_false nofun ?_
            rintro ⟨h, -, hslash, hdot⟩
            obtain rfl := Json.text.inj (ArtifactValue.json.inj (Option.some.inj h))
            exact hunsafe.elim hslash fun h ↦ Bool.false_ne_true (hdot.symm.trans h)
          · next hsafe =>
            rw [not_or, Bool.not_eq_true] at hsafe
            constructor
            · intro h
              obtain rfl := Except.ok.inj h
              exact ⟨rfl, hs, hsafe⟩
            · rintro ⟨h, -⟩
              obtain rfl := Json.text.inj (ArtifactValue.json.inj (Option.some.inj h))
              rfl
        | _ => exact iff_of_false nofun fun h ↦ nomatch h.1

theorem store_eq_ok {dir after : ArtifactDir} {artifact : Artifact} {stored : StoredDescriptor} :
    store outside dir artifact = .ok (stored, after) ↔ ∃ item, landsAs outside artifact = some item ∧
      place Entry.isDirectory dir item = some after ∧ stored = describeItem artifact item := by
  cases artifact with
  | other => exact iff_of_false nofun fun h ↦ nomatch h.choose_spec.1
  | dict fields =>
    unfold store
    dsimp only
    rw [bind_eq_ok]
    constructor
    · rintro ⟨name, hname, h⟩
      obtain ⟨entry, hentry, h⟩ := bind_eq_ok.1 h
      obtain ⟨rfl, rfl⟩ := Prod.mk.inj (Except.ok.inj h)
      obtain ⟨hlookup, hne, hslash, hdot⟩ := storeName_eq_ok.1 hname
      obtain ⟨hpayload, hcreates, hfits⟩ := landing_eq_ok.1 hentry
      refine ⟨(name, entry), ?_, place_eq_some.2 ⟨hfits, rfl⟩, rfl⟩
      rw [landsAs, hlookup]
      simp [isStorable, hne, hslash, hdot, hcreates, hpayload]
    · rintro ⟨item, hlands, hplace, rfl⟩
      obtain ⟨hfits, rfl⟩ := place_eq_some.1 hplace
      simp only [landsAs] at hlands
      split at hlands
      · next name hlookup =>
        obtain ⟨hstorable, hlands⟩ := Option.ite_none_right_eq_some.1 hlands
        obtain ⟨entry, hpayload, rfl⟩ := Option.map_eq_some_iff.1 hlands
        simp only [isStorable, Bool.and_eq_true, Bool.not_eq_true', List.isEmpty_eq_false_iff,
          decide_eq_true_eq, Option.isNone_iff_eq_none] at hstorable
        obtain ⟨⟨⟨hne, hslash⟩, hdot⟩, hcreates⟩ := hstorable
        refine ⟨name, storeName_eq_ok.2 ⟨hlookup, hne, hslash, hdot⟩, ?_⟩
        exact bind_eq_ok.2 ⟨entry, landing_eq_ok.2 ⟨hpayload, hcreates, hfits⟩, rfl⟩
      · cases hlands

/-! ## The whole list -/

/-- Storing a list is landing its entries one after the other. -/
theorem storeAll_eq_ok {dir after : ArtifactDir} {artifacts : List Artifact}
    {stored : List StoredDescriptor} : storeAll outside dir artifacts = .ok (stored, after) ↔
      ∃ items, landAll outside artifacts = some items ∧
        placeAll Entry.isDirectory dir items = some after ∧
        stored = List.zipWith describeItem artifacts items := by
  induction artifacts generalizing dir stored with
  | nil => simp [storeAll, landAll, placeAll, eq_comm, and_comm]
  | cons artifact rest ih =>
    unfold storeAll landAll
    rw [bind_eq_ok]
    constructor
    · rintro ⟨⟨d, middle⟩, hstore, h⟩
      obtain ⟨⟨others, last⟩, hrest, h⟩ := bind_eq_ok.1 h
      obtain ⟨rfl, rfl⟩ := Prod.mk.inj (Except.ok.inj h)
      obtain ⟨item, hlands, hplace, rfl⟩ := store_eq_ok.1 hstore
      obtain ⟨items, hitems, hplaces, rfl⟩ := ih.1 hrest
      refine ⟨item :: items, ?_, ?_, rfl⟩
      · rw [hlands, Option.bind_some, hitems, Option.map_some]
      · rw [placeAll, hplace, Option.bind_some, hplaces]
    · rintro ⟨items, hitems, hplaces, rfl⟩
      obtain ⟨item, hlands, hitems⟩ := Option.bind_eq_some_iff.1 hitems
      obtain ⟨others, hothers, rfl⟩ := Option.map_eq_some_iff.1 hitems
      obtain ⟨middle, hplace, hplaces⟩ := Option.bind_eq_some_iff.1 hplaces
      refine ⟨_, store_eq_ok.2 ⟨item, hlands, hplace, rfl⟩, ?_⟩
      exact bind_eq_ok.2 ⟨_, ih.2 ⟨others, hothers, hplaces, rfl⟩, rfl⟩

/-- The second attempt, in the directory that the first one left, does what one in an empty
directory does: it fails too, or gives the same descriptors and the same entries under their names. -/
def Reexecutes (outside : ChildOutside) (artifacts : List Artifact) (left : ArtifactDir) : Prop :=
  match storeAll outside noArtifacts artifacts, storeAll outside left artifacts with
  | .ok (fresh, dir), .ok (again, dir') => again = fresh ∧ ∀ d ∈ fresh, dir' d.file = dir d.file
  | .error _, .error _ => True
  | _, _ => False

/-- Every artifact can be stored, and a directory shares its name with no other artifact. -/
def Storable (outside : ChildOutside) (artifacts : List Artifact) : Prop :=
  ∃ items, landAll outside artifacts = some items ∧ Compatible Entry.isDirectory items

/-- None of the artifacts is a directory. -/
def OnlyFiles (outside : ChildOutside) (artifacts : List Artifact) : Prop :=
  ∀ artifact ∈ artifacts, ∀ item, landsAs outside artifact = some item →
    item.2.isDirectory = false

theorem landAll_append {before rest : List Artifact} : landAll outside (before ++ rest) =
    (landAll outside before).bind fun items ↦
      (landAll outside rest).map fun more ↦ items ++ more := by
  induction before with
  | nil => simp [landAll]
  | cons artifact others ih =>
    rw [List.cons_append, landAll, landAll, ih]
    cases landsAs outside artifact with
    | none => rfl
    | some item =>
      cases landAll outside others with
      | none => rfl
      | some items => cases landAll outside rest <;> rfl

theorem mem_of_landAll {artifacts : List Artifact} {items : List (Str × Entry)}
    (h : landAll outside artifacts = some items) (item : Str × Entry) :
    item ∈ items ↔ ∃ artifact ∈ artifacts, landsAs outside artifact = some item := by
  induction artifacts generalizing items with
  | nil =>
    obtain rfl := Option.some.inj h
    simp
  | cons artifact rest ih =>
    obtain ⟨first, hfirst, h⟩ := Option.bind_eq_some_iff.1 h
    obtain ⟨others, hothers, rfl⟩ := Option.map_eq_some_iff.1 h
    rw [List.mem_cons, ih hothers, List.exists_mem_cons_iff, hfirst, Option.some.injEq, eq_comm]

/-- A list whose artifacts land is stored just when their entries can be placed. -/
theorem storeAll_of_landAll {artifacts : List Artifact} {items : List (Str × Entry)}
    (h : landAll outside artifacts = some items) (dir : ArtifactDir) :
    (∃ after, placeAll Entry.isDirectory dir items = some after ∧ storeAll outside dir artifacts =
        .ok (List.zipWith describeItem artifacts items, after)) ∨
      placeAll Entry.isDirectory dir items = none ∧
        ∃ e, storeAll outside dir artifacts = .error e := by
  cases hplace : placeAll Entry.isDirectory dir items with
  | some after => exact .inl ⟨after, rfl, storeAll_eq_ok.2 ⟨items, h, hplace, rfl⟩⟩
  | none =>
    refine .inr ⟨rfl, ?_⟩
    cases hstore : storeAll outside dir artifacts with
    | error e => exact ⟨e, rfl⟩
    | ok result =>
      obtain ⟨items', hitems, hsome, -⟩ := storeAll_eq_ok.1 hstore
      obtain rfl := Option.some.inj (h.symm.trans hitems)
      cases hplace.symm.trans hsome

/-- An attempt that was killed after `before` and the one after it do together what one attempt in an
empty directory does, just when no directory had been stored or the list cannot be stored at all. -/
theorem reexecutes_iff (outside : ChildOutside) (before rest : List Artifact)
    (stored : List StoredDescriptor) (left : ArtifactDir)
    (h : storeAll outside noArtifacts before = .ok (stored, left)) :
    Reexecutes outside (before ++ rest) left ↔
      OnlyFiles outside before ∨ ¬ Storable outside (before ++ rest) := by
  obtain ⟨items, hitems, hleft, -⟩ := storeAll_eq_ok.1 h
  have hfiles : OnlyFiles outside before ↔ ∀ item ∈ items, item.2.isDirectory = false := by
    simp only [mem_of_landAll hitems]
    exact ⟨fun hfiles item ⟨a, ha, hitem⟩ ↦ hfiles a ha item hitem,
      fun hfiles a ha item hitem ↦ hfiles item ⟨a, ha, hitem⟩⟩
  cases hmore : landAll outside rest with
  | none =>
    -- an artifact of the rest cannot be stored, in whichever directory
    have hnone : landAll outside (before ++ rest) = none := by
      rw [landAll_append, hitems, Option.bind_some, hmore, Option.map_none]
    have hfails (dir : ArtifactDir) : ∃ e, storeAll outside dir (before ++ rest) = .error e := by
      cases hstore : storeAll outside dir (before ++ rest) with
      | error e => exact ⟨e, rfl⟩
      | ok result =>
        obtain ⟨all, hall, -⟩ := storeAll_eq_ok.1 hstore
        cases hnone.symm.trans hall
    obtain ⟨e, he⟩ := hfails noArtifacts
    obtain ⟨e', he'⟩ := hfails left
    refine iff_of_true ?_ (.inr fun ⟨all, hall, _⟩ ↦ by cases hnone.symm.trans hall)
    rw [Reexecutes, he, he']
    trivial
  | some more =>
    have hall : landAll outside (before ++ rest) = some (items ++ more) := by
      rw [landAll_append, hitems, Option.bind_some, hmore, Option.map_some]
    have hstorable : Storable outside (before ++ rest) ↔
        Compatible Entry.isDirectory (items ++ more) :=
      ⟨fun ⟨_, hland, hcompatible⟩ ↦ Option.some.inj (hland.symm.trans hall) ▸ hcompatible,
        fun hcompatible ↦ ⟨_, hall, hcompatible⟩⟩
    rw [hfiles, hstorable, ← @again_eq_iff _ _ _ _ left items more hleft]
    obtain ⟨dir, hfresh, hok⟩ | ⟨hfresh, e, hok⟩ := storeAll_of_landAll hall noArtifacts <;>
      obtain ⟨dir', hagain, hok'⟩ | ⟨hagain, e', hok'⟩ := storeAll_of_landAll hall left <;>
      rw [Reexecutes, hok, hok', hagain, show placeAll _ (fun _ ↦ none) _ = _ from hfresh]
    · obtain rfl := Option.some.inj ((again_eq_of_some hleft hagain).symm.trans hfresh)
      exact iff_of_true ⟨rfl, fun _ _ ↦ rfl⟩ rfl
    · exact iff_of_false not_false nofun
    · exact iff_of_false not_false nofun
    · exact iff_of_true trivial rfl

/-! ## A site -/

/-- A file system with the pages and the data of a site. -/
def siteOutside : ChildOutside where
  source path :=
    if path = str "dist" then .directory (.ok [(str "index.html", some [0x68, 0x69])])
    else if path = str "data" then .directory (.ok [(str "a.bin", some [0x00])])
    else if path = str "report.csv" then .file (.ok [0x61])
    else if path = str "run.log" then .file (.ok [0x62])
    else .absent
  creates _ := none
  reprOf _ := []
  reprText _ := []

/-- `{"name": name, "path": path}` -/
def pathArtifact (name path : String) : Artifact :=
  .dict [(str "name", .json (.text (str name))), (str "path", .json (.text (str path)))]

/-- What the first attempt has stored when it ends. -/
def siteBefore : List Artifact := [pathArtifact "report" "report.csv", pathArtifact "site" "dist"]

/-- What it has not come to. -/
def siteRest : List Artifact := [pathArtifact "log" "run.log", pathArtifact "data" "data"]

def siteDescriptor (name : String) (isDirectory : Bool) (size : ℕ) : StoredDescriptor :=
  ⟨str name, .json (.text (str "application/octet-stream")), false, str name, isDirectory, size⟩

/-- The artifact directory that the first attempt leaves. -/
def siteStored : ArtifactDir :=
  Function.update
    (Function.update noArtifacts (str "report") (some (.file [0x61])))
    (str "site") (some (.directory [(str "index.html", some [0x68, 0x69])]))

theorem storeAll_site : storeAll siteOutside noArtifacts siteBefore =
    .ok ([siteDescriptor "report" false 1, siteDescriptor "site" true 2], siteStored) := by
  rfl

/-- The copy of the first attempt is in the way of the second one's. -/
theorem site_not_reexecutes : ¬ ∀ outside before rest stored left,
    storeAll outside noArtifacts before = .ok (stored, left) →
      Reexecutes outside (before ++ rest) left := by
  intro h
  have hsite := h siteOutside siteBefore siteRest _ _ storeAll_site
  have hagain : storeAll siteOutside siteStored (siteBefore ++ siteRest) =
      .error (.raised .osError (str "File exists")) := by rfl
  have hfresh : ∃ result, storeAll siteOutside noArtifacts (siteBefore ++ siteRest) = .ok result :=
    ⟨_, rfl⟩
  obtain ⟨result, hfresh⟩ := hfresh
  rw [Reexecutes, hfresh, hagain] at hsite
  exact hsite

theorem reexecutes_iff_site :
    Reexecutes siteOutside (siteBefore ++ siteRest) siteStored ↔
      OnlyFiles siteOutside siteBefore ∨ ¬ Storable siteOutside (siteBefore ++ siteRest) :=
  reexecutes_iff siteOutside siteBefore siteRest _ siteStored storeAll_site

end DatumSync.Worker
