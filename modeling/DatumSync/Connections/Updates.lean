import DatumSync.Connections.Store
import DatumSync.Schedules.Patching
import DatumSync.Schedules.Race

/-!
# Concurrent updates of a connection or of a schedule

`update` of both stores reads a row, merges, and writes every column back by a second statement with
no transaction around the two.  The columns two updates touch are disjoint and each update is valid
on the stored row; the row has the changes of both in the end unless one of them carries back an
older value or is refused on account of what the other has changed.
-/

namespace DatumSync.Connections

open Foundation Python

inductive Column where
  | type
  | tier
  | scope
  | scopeTargets
  | access
  | description
  | config
  | secret

def Column.Value : Column → Type
  | type => Str
  | tier => ℤ
  | scope => Str
  | scopeTargets => List Str
  | access => Str
  | description => Option Str
  | config => Str
  | secret => Option (List UInt8)

/-- One call of `update`: its changes, and `crypto.seal` for its name with the nonce it draws. -/
structure Update where
  changes : Changes
  encrypt : List (Str × Json) → Except Exc (List UInt8)

def Row.column (row : Row) : ∀ c : Column, c.Value
  | .type => row.type
  | .tier => row.tier
  | .scope => row.scope
  | .scopeTargets => row.scopeTargets
  | .access => row.access
  | .description => row.description
  | .config => row.config
  | .secret => row.secret

variable (server : Server)

/-- What an update asks the columns to be. -/
def Update.column (update : Update) : ∀ c : Column, Option c.Value
  | .type => update.changes.type
  | .tier => update.changes.tier
  | .scope => update.changes.scope
  | .scopeTargets => update.changes.scopeTargets
  | .access => update.changes.access
  | .description => update.changes.description
  | .config => update.changes.config.map server.stored
  | .secret => (sealSecret update.encrypt update.changes.secret).toOption.join

/-- What `merged` has of the row that was read, as it is written back: every column but the
secret. -/
def Row.carried (row : Row) : ∀ c : Column, Option c.Value
  | .type => some row.type
  | .tier => some row.tier
  | .scope => some row.scope
  | .scopeTargets => some row.scopeTargets
  | .access => some row.access
  | .description => some row.description
  | .config => (row.loadConfig server).toOption.map server.stored
  | .secret => none

/-- The merged row passes every check. -/
structure Update.Merges (update : Update) (read : Row) (config : List (Str × Json)) : Prop where
  valid : validate server (update.changes.type.getD read.type)
    (update.changes.scope.getD read.scope) (update.changes.scopeTargets.getD read.scopeTargets)
    (update.changes.access.getD read.access) (update.changes.tier.getD read.tier) config = .ok ()
  storable : server.storable (read.merge (server.stored config) update.changes) = true

/-- The update passes every check on the row it has read. -/
structure Update.Valid (update : Update) (read : Row) : Prop where
  known : update.changes.unknown = []
  seals : ∃ secret, sealSecret update.encrypt update.changes.secret = .ok secret
  merges : ∃ loaded, read.loadConfig server = .ok loaded ∧
    update.Merges server read (update.changes.config.getD loaded)

/-- `update` for the row it has read, as what it does to the row it writes to. -/
def Update.apply (update : Update) (read : Row) : Option (Row → Row) :=
  match plan server update.encrypt read update.changes with
  | .ok written => some fun now ↦ now.write written
  | .error _ => none

variable {server}

theorem Update.isSome_apply {update : Update} {read : Row} :
    (update.apply server read).isSome = true ↔ update.Valid server read := by
  have hplan : (update.apply server read).isSome = true ↔
      ∃ written, plan server update.encrypt read update.changes = .ok written := by
    unfold Update.apply
    cases plan server update.encrypt read update.changes <;> simp
  rw [hplan]
  constructor
  · rintro ⟨written, h⟩
    obtain ⟨_, hknown, h⟩ := bind_ok h
    obtain ⟨loaded, hloaded, h⟩ := bind_ok h
    obtain ⟨_, hvalid, h⟩ := bind_ok h
    obtain ⟨secret, hsecret, h⟩ := bind_ok h
    refine ⟨?_, ⟨secret, hsecret⟩, loaded, hloaded, hvalid, ?_⟩
    · unfold checkKeys at hknown
      split at hknown
      · assumption
      · cases hknown
    · split at h
      · assumption
      · cases h
  · rintro ⟨hknown, ⟨secret, hsecret⟩, loaded, hloaded, hvalid, hstorable⟩
    refine ⟨⟨read.merge (server.stored (update.changes.config.getD loaded)) update.changes,
      secret⟩, ?_⟩
    have hkeys : checkKeys update.changes = .ok () := if_pos hknown
    unfold plan
    rw [hkeys, hloaded]
    dsimp only [Bind.bind, Except.bind, Row.merge]
    rw [hvalid]
    dsimp only
    rw [hsecret]
    exact if_pos hstorable

variable (server)

/-- `update` as a partial update of the patchable columns. -/
def patching : Patching Row Update Column Column.Value where
  get := Row.column
  asked := Update.column server
  carried := Row.carried server
  Valid := Update.Valid server
  update := Update.apply server
  isSome_update := Update.isSome_apply
  get_update := by
    intro update read write h now c
    unfold Update.apply at h
    split at h
    · next written hplan =>
      obtain ⟨loaded, hloaded, hrow, -, hsecret⟩ := plan_ok hplan
      rw [← Option.some.inj h]
      cases c with
      | config =>
        change written.row.config = _
        rw [hrow, Row.carried, hloaded, Update.column, Row.merge]
        cases update.changes.config <;> rfl
      | secret =>
        change written.secret.getD now.secret = _
        rw [Update.column, hsecret]
        rfl
      | type | tier | scope | scopeTargets | access | description =>
        simp only [Row.column, Row.write, hrow, Row.merge]
        rfl
    · cases h

variable {server}

/-- In a run of updates that touch disjoint columns and are each valid on the stored row, the row of
a connection, and the row of a schedule, has throughout every change of the updates that have ended
exactly when no update of the run writes back another value than the row's for a column another has
changed, and none is refused on account of what others have changed. -/
theorem updates_kept_iff {ι κ : Type} [DecidableEq ι] [DecidableEq κ]
    {updates : ι → Update} (hdisjoint : (patching server).Disjoint updates) {row : Row}
    (hvalid : ∀ u, (updates u).Valid server row)
    {s : Patching.State Row ι} {actions : List (Patching.Action ι)}
    (hrun : ((patching server).machine updates).run (.start row) actions = some s)
    {api : Schedules.Api} {retimings : κ → Schedules.Update}
    (hdistinct : (Schedules.patching api).Disjoint retimings) {schedule : Schedules.Row}
    (hpassing : ∀ u, (retimings u).Valid api schedule)
    {t : Patching.State Schedules.Row κ} {statements : List (Patching.Action κ)}
    (htake : ((Schedules.patching api).machine retimings).run (.start schedule) statements =
      some t) :
    (((patching server).machine updates).Always ((patching server).Kept updates) (.start row)
        actions ↔
      ((patching server).machine updates).Meets ((patching server).Unspoiled updates row)
        (.start row) actions) ∧
    (((Schedules.patching api).machine retimings).Always
        ((Schedules.patching api).Kept retimings) (.start schedule) statements ↔
      ((Schedules.patching api).machine retimings).Meets
        ((Schedules.patching api).Unspoiled retimings schedule) (.start schedule) statements) :=
  ⟨Patching.kept_iff_unspoiled hdisjoint hvalid hrun,
    Patching.kept_iff_unspoiled hdistinct hpassing htake⟩

/-! ## A tightening and a description -/

def sampleServer : Server where
  reprOf := id
  reprFloat _ := []
  depth := 10
  jsonb := id
  storable _ := true

/-- A connection that any repository may resolve. -/
def sampleRow : Row where
  name := str "share"
  type := str "file"
  tier := 1
  scope := str "global"
  scopeTargets := []
  access := str "read"
  description := none
  config := str "\x7b\"root\": \"/srv\"\x7d"
  secret := none

/-- One update narrows the scope and raises the tier, the other describes the connection. -/
def tightenAndDescribe : Bool → Update
  | true => ⟨{ tier := some 4, scope := some (str "repository"), scopeTargets := some [str "ops"] },
      fun _ ↦ .ok []⟩
  | false => ⟨{ description := some (some (str "Shared files")) }, fun _ ↦ .ok []⟩

theorem tightenAndDescribe_disjoint : (patching sampleServer).Disjoint tightenAndDescribe := by
  intro u v huv c
  cases u <;> cases v <;> first
    | exact absurd rfl huv
    | cases c <;> first | exact .inl rfl | exact .inr rfl

/-- One update disables the schedule, the other changes its interval. -/
def disableAndRetime : Bool → Schedules.Update
  | true => { changes := { enabled := some false }, now := 50 }
  | false => { changes := { intervalS := some (some 7200) }, now := 50 }

theorem disableAndRetime_disjoint :
    (Schedules.patching Schedules.hourlyApi).Disjoint disableAndRetime := by
  intro u v huv c
  cases u <;> cases v <;> first
    | exact absurd rfl huv
    | cases c <;> first | exact .inl rfl | exact .inr rfl

theorem tightenAndDescribe_valid (u : Bool) :
    (tightenAndDescribe u).Valid sampleServer sampleRow := by
  rw [← Update.isSome_apply]
  cases u <;> decide +kernel

theorem disableAndRetime_valid (u : Bool) :
    (disableAndRetime u).Valid Schedules.hourlyApi Schedules.hourlyRow := by
  rw [← Schedules.Update.isSome_apply]
  cases u <;> decide +kernel

/-- One update after the other. -/
def inTurn : List (Patching.Action Bool) := [.read true, .write true, .read false, .write false]

/-- Both updates read before either writes. -/
def crossing : List (Patching.Action Bool) := [.read true, .read false, .write true, .write false]

/-- Every update of the final state was acknowledged. -/
def bothAcknowledged {Row : Type} (s : Patching.State Row Bool) : Bool :=
  match s.phases true, s.phases false with
  | .acknowledged, .acknowledged => true
  | _, _ => false

theorem bothAcknowledged_iff {Row : Type} {s : Patching.State Row Bool}
    (h : bothAcknowledged s = true) (u : Bool) : s.phases u = .acknowledged := by
  unfold bothAcknowledged at h
  split at h
  · next htrue hfalse =>
    cases u
    · exact hfalse
    · exact htrue
  · cases h

theorem updates_kept_iff_inTurn :
    (((patching sampleServer).machine tightenAndDescribe).Always
        ((patching sampleServer).Kept tightenAndDescribe) (.start sampleRow) inTurn ↔
      ((patching sampleServer).machine tightenAndDescribe).Meets
        ((patching sampleServer).Unspoiled tightenAndDescribe sampleRow) (.start sampleRow)
        inTurn) ∧
    (((Schedules.patching Schedules.hourlyApi).machine disableAndRetime).Always
        ((Schedules.patching Schedules.hourlyApi).Kept disableAndRetime)
        (.start Schedules.hourlyRow) inTurn ↔
      ((Schedules.patching Schedules.hourlyApi).machine disableAndRetime).Meets
        ((Schedules.patching Schedules.hourlyApi).Unspoiled disableAndRetime Schedules.hourlyRow)
        (.start Schedules.hourlyRow) inTurn) := by
  have hsome : (((patching sampleServer).machine tightenAndDescribe).run (.start sampleRow)
      inTurn).isSome = true := by decide +kernel
  have htaken : (((Schedules.patching Schedules.hourlyApi).machine disableAndRetime).run
      (.start Schedules.hourlyRow) inTurn).isSome = true := by decide +kernel
  obtain ⟨s, hs⟩ := Option.isSome_iff_exists.mp hsome
  obtain ⟨t, ht⟩ := Option.isSome_iff_exists.mp htaken
  exact updates_kept_iff tightenAndDescribe_disjoint tightenAndDescribe_valid hs
    disableAndRetime_disjoint disableAndRetime_valid ht

/-- Both updates of the connection, and both of the schedule, are valid on the stored row, both are
acknowledged, and the description undoes the tightening as the new interval enables the schedule. -/
theorem crossing_not_kept :
    (∀ u, (tightenAndDescribe u).Valid sampleServer sampleRow) ∧
    (∀ u, (disableAndRetime u).Valid Schedules.hourlyApi Schedules.hourlyRow) ∧
    (∃ s, ((patching sampleServer).machine tightenAndDescribe).run (.start sampleRow) crossing =
        some s ∧ (∀ u, s.phases u = .acknowledged) ∧ s.row.tier = 1 ∧
        s.row.scope = str "global" ∧ ¬ (patching sampleServer).Kept tightenAndDescribe s) ∧
    ∃ t, ((Schedules.patching Schedules.hourlyApi).machine disableAndRetime).run
        (.start Schedules.hourlyRow) crossing = some t ∧ (∀ u, t.phases u = .acknowledged) ∧
        t.row.enabled = true ∧
        ¬ (Schedules.patching Schedules.hourlyApi).Kept disableAndRetime t := by
  have hrun : (((patching sampleServer).machine tightenAndDescribe).run (.start sampleRow)
      crossing).map (fun s ↦ (bothAcknowledged s, s.row.tier, s.row.scope)) =
      some (true, 1, str "global") := by decide +kernel
  have htake : (((Schedules.patching Schedules.hourlyApi).machine disableAndRetime).run
      (.start Schedules.hourlyRow) crossing).map (fun t ↦ (bothAcknowledged t, t.row.enabled)) =
      some (true, true) := by decide +kernel
  obtain ⟨s, hs, hs'⟩ := Option.map_eq_some_iff.mp hrun
  obtain ⟨t, ht, ht'⟩ := Option.map_eq_some_iff.mp htake
  obtain ⟨hacknowledged, htier, hscope⟩ : bothAcknowledged s = true ∧ s.row.tier = 1 ∧
      s.row.scope = str "global" := by
    simpa only [Prod.mk.injEq] using hs'
  obtain ⟨hended, henabled⟩ : bothAcknowledged t = true ∧ t.row.enabled = true := by
    simpa only [Prod.mk.injEq] using ht'
  refine ⟨tightenAndDescribe_valid, disableAndRetime_valid,
    ⟨s, hs, bothAcknowledged_iff hacknowledged, htier, hscope, fun hkept ↦ ?_⟩,
    ⟨t, ht, bothAcknowledged_iff hended, henabled, fun hkept ↦ ?_⟩⟩
  · have hfour : s.row.tier = 4 :=
      hkept true (by rw [bothAcknowledged_iff hacknowledged true]; exact .acknowledged) .tier
        (4 : ℤ) rfl
    rw [htier] at hfour
    cases hfour
  · have hoff : t.row.enabled = false :=
      hkept true (by rw [bothAcknowledged_iff hended true]; exact .acknowledged) .enabled false rfl
    rw [henabled] at hoff
    cases hoff

end DatumSync.Connections
