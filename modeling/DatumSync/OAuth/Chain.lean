import DatumSync.OAuth.Server

/-!
# The chain of tokens that descends from a code

A code is exchanged once and a refresh token is rotated once, at most one refresh token of a chain
is unrevoked, and every token of the chain carries what the code grants.  The tables keep this
because a request that is about to mint holds the lock of a row that has not been spent.
-/

namespace DatumSync.OAuth

open Foundation Python

structure GrantToken.Carries (row : GrantToken) (code : CodeRow) : Prop where
  client : row.clientId = some code.clientId
  account : row.accountId = code.accountId
  resource : row.resource = code.resource
  scope : row.scope = code.scope

/-- A refresh token that has not been revoked. -/
def GrantToken.IsLive (row : GrantToken) : Prop := row.kind = .refresh ∧ row.revokedAt = none

structure Server.Chains (s : Server) : Prop where
  exchangedOnce : s.exchanged.Nodup
  rotatedOnce : s.rotated.Nodup
  single : ∀ i j row other, s.tokens i = some row → s.tokens j = some other →
    row.IsLive → other.IsLive → row.origin = other.origin → i = j
  carried : ∀ id row, s.tokens id = some row →
    ∃ code, s.codes row.origin = some code ∧ row.Carries code

/-! ## The tables -/

/-- What holds of the committed tables. -/
structure Server.WellFormed (s : Server) : Prop where
  codeKey : Keyed CodeRow.code s.codes
  tokenKey : Keyed (fun row ↦ row.id) s.tokens
  id_lt : ∀ id row, s.tokens id = some row → id < s.nextId
  minter_lt : ∀ id row, s.tokens id = some row → row.minter < s.nextRequest
  lineage : ∀ id row, s.tokens id = some row →
    ∃ code, s.codes row.origin = some code ∧ code.usedAt.isSome = true ∧ row.Carries code
  single : ∀ i j row other, s.tokens i = some row → s.tokens j = some other →
    row.IsLive → other.IsLive → row.origin = other.origin → i = j
  exchangedOnce : s.exchanged.Nodup
  exchanged : ∀ code ∈ s.exchanged, ∃ row, s.codes code = some row ∧ row.usedAt.isSome = true
  rotatedOnce : s.rotated.Nodup
  rotated : ∀ id ∈ s.rotated, ∃ row, s.tokens id = some row ∧ row.revokedAt.isSome = true

theorem Server.WellFormed.chains {s : Server} (h : s.WellFormed) : s.Chains where
  exchangedOnce := h.exchangedOnce
  rotatedOnce := h.rotatedOnce
  single := h.single
  carried id row hrow := by
    obtain ⟨code, hcode, -, hcarries⟩ := h.lineage id row hrow
    exact ⟨code, hcode, hcarries⟩

/-! ## The requests -/

/-- The row that has been selected is the committed one. -/
def Grant.IsCurrent (s : Server) : Grant → Prop
  | code _ _ row => s.codes row.code = some row
  | token row => s.tokens row.id = some row ∧ row.kind = .refresh

/-- The grant is one of the client and has not been spent. -/
def Grant.IsUsable (clientId : Str) : Grant → Prop
  | code _ _ row => row.clientId = clientId ∧ row.usedAt = none
  | token row => row.clientId = some clientId ∧ row.revokedAt = none

/-- The rows that a request has minted on a grant. -/
structure IsMinted (q : ℕ) (clientId : Str) (grant : Grant) (rows : List GrantToken) : Prop where
  ids : (rows.map fun row ↦ row.id).Nodup
  minter : ∀ row ∈ rows, row.minter = q
  origin : ∀ row ∈ rows, row.origin = grant.origin
  client : ∀ row ∈ rows, row.clientId = some clientId
  account : ∀ row ∈ rows, row.accountId = grant.accountId
  resource : ∀ row ∈ rows, row.resource = grant.resource
  scope : ∀ row ∈ rows, row.scope = grant.scope
  unrevoked : ∀ row ∈ rows, row.revokedAt = none
  single : ∀ row ∈ rows, ∀ other ∈ rows, row.kind = .refresh → other.kind = .refresh → row = other

def Phase.Ok (s : Server) (q : ℕ) : Phase → Prop
  | idle => True
  | started _ => True
  | locked _ grant => grant.IsCurrent s
  | checked request grant => grant.IsCurrent s ∧ grant.IsUsable request.clientId
  | used request grant => grant.IsCurrent s ∧ grant.IsUsable request.clientId
  | active request grant => grant.IsCurrent s ∧ grant.IsUsable request.clientId
  | minted request grant _ rows =>
    (grant.IsCurrent s ∧ grant.IsUsable request.clientId) ∧ IsMinted q request.clientId grant rows
  | replaced request row _ rows =>
    ((Grant.token row).IsCurrent s ∧ (Grant.token row).IsUsable request.clientId) ∧
      IsMinted q request.clientId (.token row) rows
  | revokes _ => True
  | updating target update => update.Matching target.wants s.tokens

/-- The `UPDATE` of a family has come to all of its unrevoked tokens, or has still to. -/
def Phase.Covers (s : Server) : Phase → Prop
  | updating (.family clientId accountId) update =>
    update.Covers (Target.family clientId accountId).wants s.tokens
  | _ => True

structure Server.Numbered (s : Server) : Prop where
  next : 0 ≤ s.nextId
  tokens : ∀ id row, s.tokens id = some row → 0 ≤ id
  inserted : ∀ q, ∀ row ∈ (s.phases q).inserted, 0 ≤ row.id

/-- What holds of the requests together. -/
structure Server.Orderly (s : Server) : Prop where
  locks : Exclusive (fun phase key ↦ key ∈ Phase.held phase) s.phases
  inserts : Exclusive (fun phase id ↦ ∃ row ∈ Phase.inserted phase, row.id = id) s.phases
  fresh : ∀ q, ∀ row ∈ (s.phases q).inserted, s.tokens row.id = none ∧ row.id < s.nextId
  ok : ∀ q, (s.phases q).Ok s q
  idle : ∀ q, s.nextRequest ≤ q → s.phases q = .idle

def RowKey.Same (s t : Server) : RowKey → Prop
  | code c => t.codes c = s.codes c
  | token id => t.tokens id = s.tokens id

def RowKey.IsThere (s : Server) : RowKey → Prop
  | code c => (s.codes c).isSome = true
  | token id => (s.tokens id).isSome = true

variable {s t : Server} {q : ℕ}

theorem Grant.IsCurrent.congr {grant : Grant} (h : grant.IsCurrent s)
    (hsame : grant.key.Same s t) : grant.IsCurrent t := by
  cases grant with
  | code verifier redirectUri row => exact Eq.trans hsame h
  | token row => exact ⟨Eq.trans hsame h.1, h.2⟩

/-- A request relies on the rows it has locked only. -/
theorem Phase.Ok.congr {phase : Phase} (h : phase.Ok s q)
    (hsame : ∀ key ∈ phase.held, key.Same s t) : phase.Ok t q := by
  cases phase with
  | idle => trivial
  | started request => trivial
  | locked request grant => exact Grant.IsCurrent.congr h (hsame _ List.mem_cons_self)
  | checked request grant => exact ⟨h.1.congr (hsame _ List.mem_cons_self), h.2⟩
  | used request grant => exact ⟨h.1.congr (hsame _ List.mem_cons_self), h.2⟩
  | active request grant => exact ⟨h.1.congr (hsame _ List.mem_cons_self), h.2⟩
  | minted request grant refreshHash rows =>
    exact ⟨⟨h.1.1.congr (hsame _ List.mem_cons_self), h.1.2⟩, h.2⟩
  | replaced request row replacement rows =>
    exact ⟨⟨h.1.1.congr (hsame _ List.mem_cons_self), h.1.2⟩, h.2⟩
  | revokes target => trivial
  | updating target update =>
    exact SetUpdate.Matching.congr h fun id hid ↦ hsame _ (List.mem_map_of_mem hid)

theorem Grant.IsCurrent.isThere {grant : Grant} (h : grant.IsCurrent s) : grant.key.IsThere s := by
  cases grant with
  | code verifier redirectUri row => exact Option.isSome_of_eq_some h
  | token row => exact Option.isSome_of_eq_some h.1

/-- A row that is locked is committed. -/
theorem Phase.Ok.isThere {phase : Phase} (h : phase.Ok s q) {key : RowKey}
    (hheld : key ∈ phase.held) : key.IsThere s := by
  cases phase with
  | idle => cases hheld
  | started request => cases hheld
  | locked request grant => exact List.mem_singleton.mp hheld ▸ Grant.IsCurrent.isThere h
  | checked request grant => exact List.mem_singleton.mp hheld ▸ h.1.isThere
  | used request grant => exact List.mem_singleton.mp hheld ▸ h.1.isThere
  | active request grant => exact List.mem_singleton.mp hheld ▸ h.1.isThere
  | minted request grant refreshHash rows => exact List.mem_singleton.mp hheld ▸ h.1.1.isThere
  | replaced request row replacement rows => exact List.mem_singleton.mp hheld ▸ h.1.1.isThere
  | revokes target => cases hheld
  | updating target update =>
    obtain ⟨id, hdone, rfl⟩ := List.mem_map.mp hheld
    exact Option.isSome_of_any (h id hdone)

namespace Server.Orderly

/-- Writes to rows that no request has locked or inserted. -/
theorem congr (h : s.Orderly) (hphases : t.phases = s.phases) (hid : t.nextId = s.nextId)
    (hrequest : t.nextRequest = s.nextRequest)
    (hsame : ∀ q, ∀ key ∈ (s.phases q).held, key.Same s t)
    (hnew : ∀ q, ∀ row ∈ (s.phases q).inserted, t.tokens row.id = s.tokens row.id) :
    t.Orderly where
  locks := hphases ▸ h.locks
  inserts := hphases ▸ h.inserts
  fresh q row hrow := by
    rw [hphases] at hrow
    rw [hnew q row hrow, hid]
    exact h.fresh q row hrow
  ok q := by
    rw [hphases]
    exact (h.ok q).congr (hsame q)
  idle q hq := by
    rw [hphases]
    exact h.idle q (hrequest ▸ hq)

/-- A request that is not idle has begun. -/
theorem lt_of_phase (h : s.Orderly) (hq : s.phases q ≠ .idle) : q < s.nextRequest := by
  by_contra hge
  exact hq (h.idle q (Nat.le_of_not_lt hge))

/-- No lock of a free row is held, by any request. -/
theorem not_held_of_isFree (h : s.Orderly) {key : RowKey} (hfree : s.IsFree q key) {r : ℕ}
    (hr : r ≠ q) : key ∉ (s.phases r).held := by
  intro hheld
  refine hfree r (h.lt_of_phase fun hidle ↦ ?_) hr hheld
  rw [hidle] at hheld
  cases hheld

/-- Rows inserted by different requests have different ids. -/
theorem id_ne (h : s.Orderly) {r : ℕ} (hr : r ≠ q) {row other : GrantToken}
    (hrow : row ∈ (s.phases q).inserted) (hother : other ∈ (s.phases r).inserted) :
    other.id ≠ row.id := by
  intro hid
  exact hr (@h.inserts r q row.id ⟨other, hother, hid⟩ ⟨row, hrow, rfl⟩)

/-- A token that is locked has not just been inserted. -/
theorem held_ne_inserted (h : s.Orderly) {r : ℕ} {row : GrantToken} {key : RowKey}
    (hheld : key ∈ (s.phases q).held) (hrow : row ∈ (s.phases r).inserted) :
    key ≠ .token row.id := by
  rintro rfl
  have hthere : (s.tokens row.id).isSome = true := (h.ok q).isThere hheld
  rw [(h.fresh r row hrow).1] at hthere
  cases hthere

/-- A request ends and writes rows that it has locked or inserted. -/
theorem leave (h : s.Orderly) (hphases : t.phases = Function.update s.phases q .idle)
    (hid : t.nextId = s.nextId) (hrequest : t.nextRequest = s.nextRequest)
    (hsame : ∀ key, key ∉ (s.phases q).held →
      (∀ row ∈ (s.phases q).inserted, key ≠ .token row.id) → key.Same s t) : t.Orderly where
  locks := by
    rw [hphases]
    exact h.locks.update fun key hkey ↦ absurd hkey List.not_mem_nil
  inserts := by
    rw [hphases]
    apply h.inserts.update
    rintro id ⟨row, hrow, -⟩
    cases hrow
  fresh r row hrow := by
    rw [hphases] at hrow
    rcases eq_or_ne r q with rfl | hr
    · rw [Function.update_self] at hrow
      cases hrow
    · rw [Function.update_of_ne hr] at hrow
      have hrowSame : t.tokens row.id = s.tokens row.id :=
        hsame (.token row.id) (fun hheld ↦ h.held_ne_inserted hheld hrow rfl)
          fun other hother hkey ↦ h.id_ne hr hother hrow (RowKey.token.inj hkey)
      rw [hrowSame, hid]
      exact h.fresh r row hrow
  ok r := by
    rw [hphases]
    rcases eq_or_ne r q with rfl | hr
    · rw [Function.update_self]
      trivial
    · rw [Function.update_of_ne hr]
      refine (h.ok r).congr fun key hkey ↦ hsame key (fun hheld ↦ hr (h.locks hkey hheld)) ?_
      exact fun row hrow ↦ h.held_ne_inserted hkey hrow
  idle r hr := by
    rw [hphases]
    rcases eq_or_ne r q with rfl | hne
    · exact Function.update_self ..
    · rw [Function.update_of_ne hne]
      exact h.idle r (hrequest ▸ hr)

end Server.Orderly

/-! ## Steps -/

/-- What a request does that goes on without writing a committed row. -/
structure Advances (s : Server) (q : ℕ) (phase : Phase) (nextId : ℤ) (nextRequest : ℕ) : Prop where
  begun : s.phases q = .idle → q < nextRequest
  nextId_le : s.nextId ≤ nextId
  nextRequest_le : s.nextRequest ≤ nextRequest
  held : ∀ key ∈ phase.held, key ∈ (s.phases q).held ∨ s.IsFree q key
  inserted : ∀ row ∈ phase.inserted,
    row ∈ (s.phases q).inserted ∨ s.nextId ≤ row.id ∧ row.id < nextId
  ok : s.WellFormed → (s.phases q).Ok s q → phase.Ok s q
  covers : s.WellFormed → s.Numbered → (s.phases q).Covers s → phase.Covers s

theorem Server.Orderly.advance (h : s.Orderly) (hwell : s.WellFormed) {phase : Phase} {nextId : ℤ}
    {nextRequest : ℕ} (hadvances : Advances s q phase nextId nextRequest)
    (hphases : t.phases = Function.update s.phases q phase) (hcodes : t.codes = s.codes)
    (htokens : t.tokens = s.tokens) (hid : t.nextId = nextId)
    (hrequest : t.nextRequest = nextRequest) : t.Orderly where
  locks := by
    rw [hphases]
    refine h.locks.update fun key hkey ↦ (hadvances.held key hkey).imp_right fun hfree r hr ↦ ?_
    exact h.not_held_of_isFree hfree hr
  inserts := by
    rw [hphases]
    apply h.inserts.update
    rintro id ⟨row, hrow, rfl⟩
    refine (hadvances.inserted row hrow).imp (fun hold ↦ ⟨row, hold, rfl⟩) ?_
    rintro ⟨hnew, -⟩ r hr ⟨other, hother, hsame⟩
    have hlt := (h.fresh r other hother).2
    omega
  fresh r row hrow := by
    rw [hphases] at hrow
    have hle := hadvances.nextId_le
    rw [htokens, hid]
    rcases eq_or_ne r q with rfl | hr
    · rw [Function.update_self] at hrow
      rcases hadvances.inserted row hrow with hold | ⟨hnew, hlt⟩
      · exact ⟨(h.fresh r row hold).1, lt_of_lt_of_le (h.fresh r row hold).2 hle⟩
      · refine ⟨?_, hlt⟩
        by_contra hsome
        obtain ⟨other, hother⟩ := Option.ne_none_iff_exists'.mp hsome
        have hold := hwell.id_lt row.id other hother
        omega
    · rw [Function.update_of_ne hr] at hrow
      exact ⟨(h.fresh r row hrow).1, lt_of_lt_of_le (h.fresh r row hrow).2 hle⟩
  ok r := by
    have hsame (key : RowKey) : key.Same s t := by
      cases key with
      | code c => exact congrFun hcodes c
      | token id => exact congrFun htokens id
    rw [hphases]
    rcases eq_or_ne r q with rfl | hr
    · rw [Function.update_self]
      exact (hadvances.ok hwell (h.ok r)).congr fun key _ ↦ hsame key
    · rw [Function.update_of_ne hr]
      exact (h.ok r).congr fun key _ ↦ hsame key
  idle r hr := by
    rw [hphases]
    have hle := hadvances.nextRequest_le
    have hidle : s.phases r = .idle := h.idle r (by omega)
    have hne : r ≠ q := by
      rintro rfl
      have hlt := hadvances.begun hidle
      omega
    rw [Function.update_of_ne hne]
    exact hidle

/-- The two actions that write `oauth_tokens`. -/
def Action.writesTokens : Action → Bool
  | commit _ => true
  | finish _ _ => true
  | _ => false

inductive Moved (s : Server) : Action → Server → Prop
  | advance {a : Action} {q : ℕ} {phase : Phase} {nextId : ℤ} {nextRequest : ℕ}
      (hquiet : a.writesTokens = false) (h : Advances s q phase nextId nextRequest) :
      Moved s a { s.setPhase q phase with nextId := nextId, nextRequest := nextRequest }
  | outside {a : Action} {clients : List RegisteredClient} {accounts : List AccountRow}
      (hquiet : a.writesTokens = false) :
      Moved s a { s with clients := clients, accounts := accounts }
  | authorize {a : Action} {row : CodeRow} (hquiet : a.writesTokens = false)
      (hnew : s.codes row.code = none) :
      Moved s a { s with codes := Function.update s.codes row.code (some row) }
  | exchange {q : ℕ} {request : Request} {verifier : Str} {redirectUri : Option Str} {row : CodeRow}
      {refreshHash : Str} {rows : List GrantToken}
      (h : s.phases q = .minted request (.code verifier redirectUri row) refreshHash rows) :
      Moved s (.commit q) (s.commitExchange q request row rows)
  | rotation {q : ℕ} {request : Request} {row : GrantToken} {replacement : Option ℤ}
      {rows : List GrantToken} (h : s.phases q = .replaced request row replacement rows) :
      Moved s (.commit q) (s.commitRotation q request row replacement rows)
  | revocation {q : ℕ} {dbNow : ℤ} {target : Target} {update : SetUpdate ℤ}
      (h : s.phases q = .updating target update) (hpending : update.pending = []) :
      Moved s (.finish q dbNow) { s.setPhase q .idle with
        tokens := modifyAll (GrantToken.revoke dbNow) update.done s.tokens
        revocations := target.record s.nextRequest s.revocations }

variable {p : Provider} {a : Action}

/-- A request that goes on to a phase with no new lock and no new row. -/
theorem Moved.setPhase {phase : Phase} (hquiet : a.writesTokens = false)
    (hq : s.phases q ≠ .idle) (hheld : ∀ key ∈ phase.held, key ∈ (s.phases q).held)
    (hinserted : ∀ row ∈ phase.inserted, row ∈ (s.phases q).inserted)
    (hok : s.WellFormed → (s.phases q).Ok s q → phase.Ok s q)
    (hcovers : s.WellFormed → s.Numbered → phase.Covers s) :
    Moved s a (s.setPhase q phase) :=
  .advance hquiet
    { begun := fun hidle ↦ absurd hidle hq
      nextId_le := le_rfl
      nextRequest_le := le_rfl
      held := fun key hkey ↦ .inl (hheld key hkey)
      inserted := fun row hrow ↦ .inl (hinserted row hrow)
      ok := hok
      covers := fun hwell hnumbered _ ↦ hcovers hwell hnumbered }

/-- A request that is rolled back. -/
theorem Moved.setIdle (hquiet : a.writesTokens = false) (hq : s.phases q ≠ .idle) :
    Moved s a (s.setPhase q .idle) :=
  .setPhase hquiet hq (fun _ h ↦ absurd h List.not_mem_nil) (fun _ h ↦ absurd h List.not_mem_nil)
    (fun _ _ ↦ trivial) fun _ _ ↦ trivial

/-- A request that begins. -/
theorem Moved.enter {phase : Phase} (hquiet : a.writesTokens = false) (hheld : phase.held = [])
    (hinserted : phase.inserted = []) (hok : phase.Ok s s.nextRequest)
    (hcovers : phase.Covers s) :
    Moved s a (s.enter phase) :=
  .advance hquiet
    { begun := fun _ ↦ Nat.lt_succ_self _
      nextId_le := le_rfl
      nextRequest_le := Nat.le_succ _
      held := fun _ hkey ↦ absurd (hheld ▸ hkey) List.not_mem_nil
      inserted := fun _ hrow ↦ absurd (hinserted ▸ hrow) List.not_mem_nil
      ok := fun _ _ ↦ hok
      covers := fun _ _ _ ↦ hcovers }

/-- Every committed row stands at its id. -/
theorem Server.WellFormed.of_mem_committed (h : s.WellFormed) {row : GrantToken}
    (hrow : row ∈ s.committed) : s.tokens row.id = some row := by
  obtain ⟨id, -, hid⟩ := List.mem_filterMap.mp hrow
  have hkey : row.id = id := h.tokenKey id row hid
  rw [hkey]
  exact hid

theorem Server.WellFormed.isCurrent_of_select (h : s.WellFormed) {credential : Credential}
    {grant : Grant} (hselect : s.select p credential = some grant) : grant.IsCurrent s := by
  unfold Server.select at hselect
  split at hselect
  · next code verifier redirectUri =>
    obtain ⟨row, hrow, rfl⟩ := Option.map_eq_some_iff.mp hselect
    have hcode : row.code = code := h.codeKey code row hrow
    rw [← hcode] at hrow
    exact hrow
  · split at hselect
    · cases hselect
    · obtain ⟨row, hrow, rfl⟩ := Option.map_eq_some_iff.mp hselect
      refine ⟨h.of_mem_committed (List.mem_of_find?_eq_some hrow), ?_⟩
      have hkind := List.find?_some hrow
      rw [Bool.and_eq_true, beq_iff_eq, beq_iff_eq] at hkind
      exact hkind.2

/-- A grant that passes the checks is one of the client and has not been spent. -/
theorem Grant.isUsable_of_check {grant : Grant} {now : ℤ} {request : Request}
    (h : grant.check p now request = .ok ()) : grant.IsUsable request.clientId := by
  cases grant with
  | code verifier redirectUri row =>
    simp only [Grant.check, Provider.checkCode] at h
    split at h
    · cases h
    · next hchecks =>
      unfold Provider.checkCodeRow at hchecks
      split_ifs at hchecks with hclient hused
      exact ⟨not_not.mp hclient, by simpa using hused⟩
  | token row =>
    simp only [Grant.check, Provider.checkRefresh] at h
    split_ifs at h with hclient hrotated hrevoked
    exact ⟨not_not.mp hclient, by simpa using hrevoked⟩

theorem isMinted_mintedRows {request : Request} {grant : Grant} {now nextId : ℤ}
    {accessHash refreshHash : Str} :
    IsMinted q request.clientId grant
      (Server.mintedRows p q request grant now nextId accessHash refreshHash) := by
  unfold Server.mintedRows Provider.mintedRows
  constructor <;> simp

/-! ### Each action -/

theorem moved_authorizeSubmit {form : AuthorizeForm} {accountId now : ℤ} {code : Str}
    (h : s.authorizeSubmit p form accountId code now = some t) :
    Moved s (.authorizeSubmit form accountId code now) t := by
  unfold Server.authorizeSubmit at h
  split at h
  · exact Option.some.inj h ▸ .outside rfl
  · next row hrow =>
    have hcode : row.code = code := by
      unfold authorizeRow at hrow
      split at hrow
      · cases hrow
      · split at hrow
        · cases hrow
        · split_ifs at hrow
          split at hrow
          · cases hrow
          · exact (congrArg CodeRow.code (Except.ok.inj hrow)).symm
    split_ifs at h with hsome
    · exact Option.some.inj h ▸ .outside rfl
    · rw [← Option.some.inj h, ← hcode]
      refine .authorize rfl ?_
      rw [hcode]
      simpa using hsome

theorem moved_begin {request : Request} (h : s.begin request = some t) :
    Moved s (.begin request) t := by
  unfold Server.begin at h
  split_ifs at h
  exact Option.some.inj h ▸ .enter rfl rfl rfl trivial trivial

theorem moved_lock (h : s.lock p q = some t) : Moved s (.lock q) t := by
  unfold Server.lock at h
  split at h
  · next request hphase =>
    have hq : s.phases q ≠ .idle := by rw [hphase]; nofun
    split at h
    · exact Option.some.inj h ▸ .setIdle rfl hq
    · next grant hselect =>
      split_ifs at h with hfree
      refine Option.some.inj h ▸ .advance rfl
        { begun := fun hidle ↦ absurd hidle hq
          nextId_le := le_rfl
          nextRequest_le := le_rfl
          held := fun key hkey ↦ .inr (List.mem_singleton.mp hkey ▸ hfree)
          inserted := fun row hrow ↦ absurd hrow List.not_mem_nil
          ok := fun hwell _ ↦ hwell.isCurrent_of_select hselect
          covers := fun _ _ _ ↦ trivial }
  · cases h

theorem moved_check {now : ℤ} (h : s.check p q now = some t) : Moved s (.check q now) t := by
  unfold Server.check at h
  split at h
  · next request grant hphase =>
    have hq : s.phases q ≠ .idle := by rw [hphase]; nofun
    split at h
    · next hchecks =>
      refine Option.some.inj h ▸ .setPhase rfl hq ?_ ?_ ?_ fun _ _ ↦ trivial
      · rw [hphase]
        exact fun _ hkey ↦ hkey
      · exact fun _ hrow ↦ absurd hrow List.not_mem_nil
      · rw [hphase]
        exact fun _ hok ↦ ⟨hok, Grant.isUsable_of_check hchecks⟩
    · exact Option.some.inj h ▸ .setIdle rfl hq
    · exact Option.some.inj h ▸ .setPhase rfl hq (fun _ hkey ↦ absurd hkey List.not_mem_nil)
        (fun _ hrow ↦ absurd hrow List.not_mem_nil) (fun _ _ ↦ trivial) fun _ _ ↦ trivial
  · cases h

/-- A request keeps its lock and what it relies on. -/
theorem Moved.keep {before phase : Phase} (hquiet : a.writesTokens = false)
    (hphase : s.phases q = before) (hbefore : before ≠ .idle) (hheld : phase.held = before.held)
    (hinserted : phase.inserted = before.inserted) (hok : before.Ok s q → phase.Ok s q)
    (hcovers : s.WellFormed → s.Numbered → phase.Covers s) :
    Moved s a (s.setPhase q phase) := by
  subst hphase
  exact .setPhase hquiet hbefore (fun _ hkey ↦ hheld ▸ hkey) (fun _ hrow ↦ hinserted ▸ hrow)
    (fun _ ↦ hok) hcovers

theorem moved_use (h : s.use q = some t) : Moved s (.use q) t := by
  unfold Server.use at h
  split at h
  · next hphase => exact Option.some.inj h ▸ .keep rfl hphase nofun rfl rfl id fun _ _ ↦ trivial
  · cases h

theorem moved_lookUp {request : Request} {grant : Grant} {before : Phase}
    (hphase : s.phases q = before) (hbefore : before ≠ .idle) (hheld : [grant.key] = before.held)
    (hinserted : [] = before.inserted)
    (hok : before.Ok s q → grant.IsCurrent s ∧ grant.IsUsable request.clientId)
    (h : s.lookUp q request grant = some t) : Moved s (.account q) t := by
  unfold Server.lookUp at h
  split_ifs at h
  · exact Option.some.inj h ▸ .keep rfl hphase hbefore hheld hinserted hok fun _ _ ↦ trivial
  · exact Option.some.inj h ▸ .setIdle rfl (hphase ▸ hbefore)

theorem moved_account (h : s.account q = some t) : Moved s (.account q) t := by
  unfold Server.account at h
  split at h
  · next hphase => exact moved_lookUp hphase nofun rfl rfl id h
  · next hphase => exact moved_lookUp hphase nofun rfl rfl id h
  · cases h

theorem moved_mint {access refresh : Str} {now : ℤ} (h : s.mint p q access refresh now = some t) :
    Moved s (.mint q access refresh now) t := by
  unfold Server.mint at h
  split at h
  · next request grant accessHash refreshHash hphase haccess hrefresh =>
    split_ifs at h
    refine Option.some.inj h ▸ .advance rfl
      { begun := fun hidle ↦ by rw [hphase] at hidle; cases hidle
        nextId_le := by omega
        nextRequest_le := le_rfl
        held := fun key hkey ↦ .inl (by rw [hphase]; exact hkey)
        inserted := fun row hrow ↦ .inr ?_
        ok := fun _ hok ↦ ⟨by rw [hphase] at hok; exact hok, isMinted_mintedRows⟩
        covers := fun _ _ _ ↦ trivial }
    simp only [Phase.inserted, Server.mintedRows, Provider.mintedRows, List.map_cons, List.map_nil,
      List.mem_cons, List.not_mem_nil, or_false] at hrow
    rcases hrow with rfl | rfl
    · exact ⟨le_rfl, by dsimp only; omega⟩
    · exact ⟨by dsimp only; omega, by dsimp only; omega⟩
  · cases h

theorem moved_replace (h : s.replace q = some t) : Moved s (.replace q) t := by
  unfold Server.replace at h
  split at h
  · next hphase => exact Option.some.inj h ▸ .keep rfl hphase nofun rfl rfl id fun _ _ ↦ trivial
  · cases h

theorem moved_commit (h : s.commit q = some t) : Moved s (.commit q) t := by
  unfold Server.commit at h
  split at h
  · next hphase => exact Option.some.inj h ▸ .exchange hphase
  · next hphase => exact Option.some.inj h ▸ .rotation hphase
  · cases h

theorem moved_abort (h : s.abort q = some t) : Moved s (.abort q) t := by
  unfold Server.abort at h
  split at h
  · cases h
  · next hphase => exact Option.some.inj h ▸ .setIdle rfl hphase

theorem moved_revoke {clientId token : Str} (h : s.revoke p clientId token = some t) :
    Moved s (.revoke clientId token) t := by
  unfold Server.revoke at h
  split at h
  · exact Option.some.inj h ▸ .outside rfl
  · split_ifs at h
    · exact Option.some.inj h ▸ .enter rfl rfl rfl trivial trivial
    · exact Option.some.inj h ▸ .outside rfl

theorem mem_ids_committed (hwell : s.WellFormed) (hnumbered : s.Numbered) {id : ℤ}
    {row : GrantToken} (hrow : s.tokens id = some row) : id ∈ s.committed.map fun row ↦ row.id := by
  have hnonneg := hnumbered.tokens id row hrow
  have hlt := hwell.id_lt id row hrow
  refine List.mem_map.mpr
    ⟨row, List.mem_filterMap.mpr ⟨id, ?_, hrow⟩, hwell.tokenKey id row hrow⟩
  simp only [List.bind_eq_flatMap, List.mem_flatMap, List.mem_range, List.pure_def,
    List.mem_singleton]
  exact ⟨id.toNat, by omega, by omega⟩

theorem moved_snapshot (h : s.snapshot q = some t) : Moved s (.snapshot q) t := by
  unfold Server.snapshot at h
  split at h
  · next target hphase =>
    refine Option.some.inj h ▸
      .keep rfl hphase nofun rfl rfl (fun _ ↦ SetUpdate.matching_start _) fun hwell hnumbered ↦ ?_
    cases target with
    | family clientId accountId =>
      refine SetUpdate.covers_start fun id hwanted ↦ ?_
      obtain ⟨row, hrow, -⟩ := (Option.any_eq_true _ _).mp hwanted
      exact mem_ids_committed hwell hnumbered hrow
    | token tokenHash clientId => trivial
    | account accountId => trivial
  · cases h

theorem moved_visit {id : ℤ} (h : s.visit q id = some t) : Moved s (.visit q id) t := by
  unfold Server.visit at h
  split at h
  · next target update hphase =>
    split_ifs at h with hvisit
    refine Option.some.inj h ▸ .advance rfl
      { begun := fun hidle ↦ by rw [hphase] at hidle; cases hidle
        nextId_le := le_rfl
        nextRequest_le := le_rfl
        held := fun key hkey ↦ ?_
        inserted := fun _ hrow ↦ absurd hrow List.not_mem_nil
        ok := fun _ hok ↦ ?_
        covers := fun _ _ hcovers ↦ ?_ }
    · obtain ⟨j, hj, rfl⟩ := List.mem_map.mp hkey
      rw [hphase]
      rcases SetUpdate.mem_done_visit hj with hdone | ⟨rfl, -⟩
      · exact .inl (List.mem_map_of_mem hdone)
      · exact .inr hvisit.2
    · rw [hphase] at hok
      exact SetUpdate.Matching.visit hok id
    · rw [hphase] at hcovers
      cases target with
      | family clientId accountId => exact SetUpdate.Covers.visit hcovers id
      | token tokenHash clientId => trivial
      | account accountId => trivial
  · cases h

theorem moved_finish {dbNow : ℤ} (h : s.finish q dbNow = some t) : Moved s (.finish q dbNow) t := by
  unfold Server.finish at h
  split at h
  · next hphase =>
    split_ifs at h with hpending
    exact Option.some.inj h ▸ .revocation hphase hpending
  · cases h

theorem moved_of_step (h : s.step p a = some t) : Moved s a t := by
  cases a with
  | register client =>
    simp only [Server.step] at h
    split_ifs at h
    exact Option.some.inj h ▸ .outside rfl
  | putAccounts accounts => exact Option.some.inj h ▸ .outside rfl
  | authorizeSubmit form accountId code now => exact moved_authorizeSubmit h
  | begin request => exact moved_begin h
  | lock q => exact moved_lock h
  | check q now => exact moved_check h
  | use q => exact moved_use h
  | account q => exact moved_account h
  | mint q access refresh now => exact moved_mint h
  | replace q => exact moved_replace h
  | commit q => exact moved_commit h
  | abort q => exact moved_abort h
  | revoke clientId token => exact moved_revoke h
  | revokeGrants accountId => exact Option.some.inj h ▸ .enter rfl rfl rfl trivial trivial
  | snapshot q => exact moved_snapshot h
  | visit q id => exact moved_visit h
  | finish q dbNow => exact moved_finish h

/-! ## Writes -/

/-- A token of an exchanged code is also one of the code once it is used. -/
theorem GrantToken.Carries.use {row : GrantToken} {code : CodeRow} (h : row.Carries code)
    (now : ℤ) : row.Carries (code.use now) :=
  ⟨h.client, h.account, h.resource, h.scope⟩

/-- What is minted on a grant carries what the code of the grant does. -/
theorem IsMinted.carries {clientId : Str} {grant : Grant} {rows : List GrantToken} {code : CodeRow}
    (h : IsMinted q clientId grant rows) (hclient : clientId = code.clientId)
    (haccount : grant.accountId = code.accountId) (hresource : grant.resource = code.resource)
    (hscope : grant.scope = code.scope) : ∀ row ∈ rows, row.Carries code := by
  intro row hrow
  constructor
  · rw [h.client row hrow, hclient]
  · rw [h.account row hrow, haccount]
  · rw [h.resource row hrow, hresource]
  · rw [h.scope row hrow, hscope]

/-- A write to a token that revokes it and keeps what it carries. -/
structure Spends (f : GrantToken → GrantToken) : Prop where
  id : ∀ row, (f row).id = row.id
  minter : ∀ row, (f row).minter = row.minter
  origin : ∀ row, (f row).origin = row.origin
  carries : ∀ row code, row.Carries code → (f row).Carries code
  revoked : ∀ row, (f row).revokedAt.isSome = true

theorem spends_rotate (now : ℤ) (replacement : Option ℤ) :
    Spends (GrantToken.rotate now replacement) where
  id _ := rfl
  minter _ := rfl
  origin _ := rfl
  carries _ _ h := ⟨h.client, h.account, h.resource, h.scope⟩
  revoked _ := rfl

theorem spends_revoke (now : ℤ) : Spends (GrantToken.revoke now) where
  id _ := rfl
  minter _ := rfl
  origin _ := rfl
  carries _ _ h := ⟨h.client, h.account, h.resource, h.scope⟩
  revoked _ := rfl

theorem Spends.not_isLive {f : GrantToken → GrantToken} (hf : Spends f) (row : GrantToken) :
    ¬ (f row).IsLive := by
  intro hlive
  have hrevoked := hf.revoked row
  rw [hlive.2] at hrevoked
  cases hrevoked

namespace Server.WellFormed

/-- Steps that write no committed row of a code or a token. -/
theorem congr (h : s.WellFormed) (hcodes : t.codes = s.codes) (htokens : t.tokens = s.tokens)
    (hid : s.nextId ≤ t.nextId) (hrequest : s.nextRequest ≤ t.nextRequest)
    (hexchanged : t.exchanged = s.exchanged) (hrotated : t.rotated = s.rotated) : t.WellFormed where
  codeKey := hcodes ▸ h.codeKey
  tokenKey := htokens ▸ h.tokenKey
  id_lt id row hrow := by
    rw [htokens] at hrow
    exact lt_of_lt_of_le (h.id_lt id row hrow) hid
  minter_lt id row hrow := by
    rw [htokens] at hrow
    exact lt_of_lt_of_le (h.minter_lt id row hrow) hrequest
  lineage := by
    rw [htokens, hcodes]
    exact h.lineage
  single := by
    rw [htokens]
    exact h.single
  exchangedOnce := hexchanged ▸ h.exchangedOnce
  exchanged := by
    rw [hexchanged, hcodes]
    exact h.exchanged
  rotatedOnce := hrotated ▸ h.rotatedOnce
  rotated := by
    rw [hrotated, htokens]
    exact h.rotated

/-- A code that is new is no token's origin. -/
theorem authorize (h : s.WellFormed) {row : CodeRow} (hnew : s.codes row.code = none) :
    { s with codes := Function.update s.codes row.code (some row) : Server }.WellFormed := by
  have hold (code : Str) (old : CodeRow) (hcode : s.codes code = some old) :
      Function.update s.codes row.code (some row) code = some old := by
    rw [Function.update_of_ne, hcode]
    rintro rfl
    rw [hnew] at hcode
    cases hcode
  refine { h with codeKey := ?_, lineage := ?_, exchanged := ?_ }
  · intro code other hcode
    dsimp only at hcode
    rcases eq_or_ne code row.code with rfl | hne
    · rw [Function.update_self] at hcode
      rw [← Option.some.inj hcode]
    · rw [Function.update_of_ne hne] at hcode
      exact h.codeKey code other hcode
  · intro id token htoken
    obtain ⟨code, hcode, hused, hcarries⟩ := h.lineage id token htoken
    exact ⟨code, hold _ code hcode, hused, hcarries⟩
  · intro code hexchanged
    obtain ⟨other, hcode, hused⟩ := h.exchanged code hexchanged
    exact ⟨other, hold code other hcode, hused⟩

/-- Codes are used; those that were stay so. -/
theorem use (h : s.WellFormed) (now : ℤ) (keys : List Str) :
    { s with codes := modifyAll (CodeRow.use now) keys s.codes : Server }.WellFormed := by
  have hused {code : Str} {row : CodeRow} (hrow : s.codes code = some row)
      (hused : row.usedAt.isSome = true) :
      ∃ after, modifyAll (CodeRow.use now) keys s.codes code = some after ∧
        after.usedAt.isSome = true ∧
        ∀ token : GrantToken, token.Carries row → token.Carries after := by
    by_cases hmem : code ∈ keys
    · rw [modifyAll_of_mem hmem, hrow]
      exact ⟨row.use now, rfl, rfl, fun _ hcarries ↦ hcarries.use now⟩
    · rw [modifyAll_of_not_mem hmem, hrow]
      exact ⟨row, rfl, hused, fun _ hcarries ↦ hcarries⟩
  refine { h with codeKey := h.codeKey.modifyAll fun _ ↦ rfl, lineage := ?_, exchanged := ?_ }
  · intro id token htoken
    obtain ⟨code, hcode, husedBefore, hcarries⟩ := h.lineage id token htoken
    obtain ⟨after, hafter, husedAfter, hall⟩ := hused hcode husedBefore
    exact ⟨after, hafter, husedAfter, hall token hcarries⟩
  · intro code hexchanged
    obtain ⟨row, hrow, husedBefore⟩ := h.exchanged code hexchanged
    obtain ⟨after, hafter, husedAfter, -⟩ := hused hrow husedBefore
    exact ⟨after, hafter, husedAfter⟩

/-- Tokens are rotated or revoked. -/
theorem spend (h : s.WellFormed) {f : GrantToken → GrantToken} (hf : Spends f) (keys : List ℤ) :
    { s with tokens := modifyAll f keys s.tokens : Server }.WellFormed := by
  refine
    { h with
      tokenKey := h.tokenKey.modifyAll hf.id
      id_lt := ?_
      minter_lt := ?_
      lineage := ?_
      single := ?_
      rotated := ?_ }
  · intro id row hrow
    rcases modifyAll_eq_some hrow with ⟨hold, -⟩ | ⟨old, hold, -, rfl⟩
    · exact h.id_lt id row hold
    · exact h.id_lt id old hold
  · intro id row hrow
    rcases modifyAll_eq_some hrow with ⟨hold, -⟩ | ⟨old, hold, -, rfl⟩
    · exact h.minter_lt id row hold
    · exact (hf.minter old).symm ▸ h.minter_lt id old hold
  · intro id row hrow
    rcases modifyAll_eq_some hrow with ⟨hold, -⟩ | ⟨old, hold, -, rfl⟩
    · exact h.lineage id row hold
    · obtain ⟨code, hcode, hused, hcarries⟩ := h.lineage id old hold
      exact ⟨code, (hf.origin old).symm ▸ hcode, hused, hf.carries old code hcarries⟩
  · intro i j row other hrow hother hlive hotherLive horigin
    rcases modifyAll_eq_some hrow with ⟨hold, -⟩ | ⟨old, -, -, rfl⟩
    · rcases modifyAll_eq_some hother with ⟨holdOther, -⟩ | ⟨oldOther, -, -, rfl⟩
      · exact h.single i j row other hold holdOther hlive hotherLive horigin
      · exact absurd hotherLive (hf.not_isLive oldOther)
    · exact absurd hlive (hf.not_isLive old)
  · intro id hrotated
    obtain ⟨row, hrow, hrevoked⟩ := h.rotated id hrotated
    by_cases hmem : id ∈ keys
    · refine ⟨f row, ?_, hf.revoked row⟩
      change modifyAll f keys s.tokens id = _
      rw [modifyAll_of_mem hmem, hrow]
      rfl
    · refine ⟨row, ?_, hrevoked⟩
      change modifyAll f keys s.tokens id = _
      rw [modifyAll_of_not_mem hmem, hrow]

/-- Tokens are added to a chain that has no unrevoked refresh token. -/
theorem insert (h : s.WellFormed) {origin : Str} {code : CodeRow} {rows : List GrantToken}
    (hcode : s.codes origin = some code) (hused : code.usedAt.isSome = true)
    (horigin : ∀ row ∈ rows, row.origin = origin) (hcarries : ∀ row ∈ rows, row.Carries code)
    (hminter : ∀ row ∈ rows, row.minter < s.nextRequest)
    (hfresh : ∀ row ∈ rows, s.tokens row.id = none ∧ row.id < s.nextId)
    (hsingle : ∀ row ∈ rows, ∀ other ∈ rows, row.kind = .refresh → other.kind = .refresh →
      row = other)
    (hnone : ∀ id row, s.tokens id = some row → row.origin = origin → ¬ row.IsLive) :
    { s with tokens := insertAll (fun row ↦ row.id) rows s.tokens : Server }.WellFormed := by
  refine
    { h with
      tokenKey := h.tokenKey.insertAll
      id_lt := ?_
      minter_lt := ?_
      lineage := ?_
      single := ?_
      rotated := ?_ }
  · intro id row hrow
    rcases insertAll_eq_some hrow with ⟨hnew, rfl⟩ | ⟨hold, -⟩
    · exact (hfresh row hnew).2
    · exact h.id_lt id row hold
  · intro id row hrow
    rcases insertAll_eq_some hrow with ⟨hnew, -⟩ | ⟨hold, -⟩
    · exact hminter row hnew
    · exact h.minter_lt id row hold
  · intro id row hrow
    rcases insertAll_eq_some hrow with ⟨hnew, -⟩ | ⟨hold, -⟩
    · exact ⟨code, (horigin row hnew).symm ▸ hcode, hused, hcarries row hnew⟩
    · exact h.lineage id row hold
  · intro i j row other hrow hother hlive hotherLive hsame
    rcases insertAll_eq_some hrow with ⟨hnew, rfl⟩ | ⟨hold, -⟩
    · rcases insertAll_eq_some hother with ⟨hnewOther, rfl⟩ | ⟨holdOther, -⟩
      · rw [hsingle row hnew other hnewOther hlive.1 hotherLive.1]
      · exact absurd hotherLive (hnone j other holdOther (hsame.symm.trans (horigin row hnew)))
    · rcases insertAll_eq_some hother with ⟨hnewOther, rfl⟩ | ⟨holdOther, -⟩
      · exact absurd hlive (hnone i row hold (hsame.trans (horigin other hnewOther)))
      · exact h.single i j row other hold holdOther hlive hotherLive hsame
  · intro id hrotated
    obtain ⟨row, hrow, hrevoked⟩ := h.rotated id hrotated
    refine ⟨row, ?_, hrevoked⟩
    change insertAll _ rows s.tokens id = _
    rw [insertAll_of_not_mem, hrow]
    rintro new hnew rfl
    rw [(hfresh new hnew).1] at hrow
    cases hrow

theorem commitExchange (h : s.WellFormed) (hq : q < s.nextRequest) {request : Request}
    {verifier : Str} {redirectUri : Option Str} {row : CodeRow} {rows : List GrantToken}
    (hcurrent : s.codes row.code = some row)
    (husable : row.clientId = request.clientId ∧ row.usedAt = none)
    (hminted : IsMinted q request.clientId (.code verifier redirectUri row) rows)
    (hfresh : ∀ new ∈ rows, s.tokens new.id = none ∧ new.id < s.nextId) :
    (s.commitExchange q request row rows).WellFormed := by
  have hused : modifyAll (CodeRow.use request.dbNow) [row.code] s.codes row.code =
      some (row.use request.dbNow) := by
    rw [modifyAll_of_mem List.mem_cons_self, hcurrent]
    rfl
  have hunused {id : ℤ} {old : GrantToken} (hold : s.tokens id = some old) :
      old.origin ≠ row.code := by
    intro horigin
    obtain ⟨code, hcode, hcodeUsed, -⟩ := h.lineage id old hold
    rw [horigin, hcurrent] at hcode
    rw [← Option.some.inj hcode, husable.2] at hcodeUsed
    cases hcodeUsed
  have hnotExchanged : row.code ∉ s.exchanged := by
    intro hmem
    obtain ⟨code, hcode, hcodeUsed⟩ := h.exchanged row.code hmem
    rw [hcurrent] at hcode
    rw [← Option.some.inj hcode, husable.2] at hcodeUsed
    cases hcodeUsed
  have hcarries : ∀ new ∈ rows, new.Carries (row.use request.dbNow) :=
    hminted.carries husable.1.symm rfl rfl rfl
  have hinserted := (h.use request.dbNow [row.code]).insert hused rfl hminted.origin hcarries
    (fun new hnew ↦ (hminted.minter new hnew).symm ▸ hq) hfresh hminted.single
    fun id old hold horigin ↦ absurd horigin (hunused hold)
  refine
    { hinserted with
      exchangedOnce := List.nodup_cons.mpr ⟨hnotExchanged, h.exchangedOnce⟩
      exchanged := fun code hmem ↦ ?_ }
  rcases List.mem_cons.mp hmem with rfl | hold
  · exact ⟨_, hused, rfl⟩
  · exact hinserted.exchanged code hold

theorem commitRotation (h : s.WellFormed) (hq : q < s.nextRequest) {request : Request}
    {row : GrantToken} {replacement : Option ℤ} {rows : List GrantToken}
    (hcurrent : s.tokens row.id = some row ∧ row.kind = .refresh)
    (husable : row.clientId = some request.clientId ∧ row.revokedAt = none)
    (hminted : IsMinted q request.clientId (.token row) rows)
    (hfresh : ∀ new ∈ rows, s.tokens new.id = none ∧ new.id < s.nextId) :
    (s.commitRotation q request row replacement rows).WellFormed := by
  have hspends := spends_rotate request.dbNow replacement
  obtain ⟨code, hcode, hused, hcarries⟩ := h.lineage row.id row hcurrent.1
  have hnotRotated : row.id ∉ s.rotated := by
    intro hmem
    obtain ⟨old, hold, hrevoked⟩ := h.rotated row.id hmem
    rw [hcurrent.1] at hold
    rw [← Option.some.inj hold, husable.2] at hrevoked
    cases hrevoked
  have hnone (id : ℤ) (other : GrantToken)
      (hother : modifyAll (GrantToken.rotate request.dbNow replacement) [row.id] s.tokens id =
        some other) (horigin : other.origin = row.origin) : ¬ other.IsLive := by
    rcases modifyAll_eq_some hother with ⟨hold, hnot⟩ | ⟨old, -, -, rfl⟩
    · intro hlive
      have hid := h.single id row.id other row hold hcurrent.1 hlive ⟨hcurrent.2, husable.2⟩ horigin
      exact hnot (hid ▸ List.mem_cons_self)
    · exact hspends.not_isLive old
  have hfreshAfter (new : GrantToken) (hnew : new ∈ rows) :
      modifyAll (GrantToken.rotate request.dbNow replacement) [row.id] s.tokens new.id = none ∧
        new.id < s.nextId := by
    refine ⟨?_, (hfresh new hnew).2⟩
    unfold modifyAll
    rw [(hfresh new hnew).1]
    exact ite_self none
  have hclient : request.clientId = code.clientId :=
    Option.some.inj (husable.1.symm.trans hcarries.client)
  have hcarriesNew : ∀ new ∈ rows, new.Carries code :=
    hminted.carries hclient hcarries.account hcarries.resource hcarries.scope
  have hinserted := (h.spend hspends [row.id]).insert hcode hused hminted.origin hcarriesNew
    (fun new hnew ↦ (hminted.minter new hnew).symm ▸ hq) hfreshAfter hminted.single hnone
  refine
    { hinserted with
      rotatedOnce := List.nodup_cons.mpr ⟨hnotRotated, h.rotatedOnce⟩
      rotated := fun id hmem ↦ ?_ }
  rcases List.mem_cons.mp hmem with rfl | hold
  · refine ⟨row.rotate request.dbNow replacement, ?_, rfl⟩
    change insertAll _ rows _ row.id = _
    rw [insertAll_of_not_mem, modifyAll_of_mem List.mem_cons_self, hcurrent.1]
    · rfl
    · intro new hnew hid
      have hnew' := (hfresh new hnew).1
      rw [hid, hcurrent.1] at hnew'
      cases hnew'
  · exact hinserted.rotated id hold

end Server.WellFormed

/-! ## Runs -/

structure Server.Inv (s : Server) : Prop where
  wellFormed : s.WellFormed
  orderly : s.Orderly

theorem wellFormed_init : ({} : Server).WellFormed where
  codeKey _ _ h := by cases h
  tokenKey _ _ h := by cases h
  id_lt _ _ h := by cases h
  minter_lt _ _ h := by cases h
  lineage _ _ h := by cases h
  single _ _ _ _ h := by cases h
  exchangedOnce := List.nodup_nil
  exchanged _ h := by cases h
  rotatedOnce := List.nodup_nil
  rotated _ h := by cases h

theorem orderly_init : ({} : Server).Orderly where
  locks _ _ _ h := by cases h
  inserts _ _ _ h := by
    obtain ⟨row, hrow, -⟩ := h
    cases hrow
  fresh _ _ h := by cases h
  ok _ := trivial
  idle _ _ := rfl

theorem Server.Inv.moved (h : s.Inv) (hmoved : Moved s a t) : t.Inv := by
  cases hmoved with
  | advance hquiet hadvances =>
    exact ⟨h.wellFormed.congr rfl rfl hadvances.nextId_le hadvances.nextRequest_le rfl rfl,
      h.orderly.advance h.wellFormed hadvances rfl rfl rfl rfl rfl⟩
  | outside hquiet =>
    exact ⟨h.wellFormed.congr rfl rfl le_rfl le_rfl rfl rfl,
      h.orderly.congr rfl rfl rfl (fun _ key _ ↦ by cases key <;> rfl) fun _ _ _ ↦ rfl⟩
  | @authorize a row hquiet hnew =>
    refine ⟨h.wellFormed.authorize hnew, h.orderly.congr rfl rfl rfl ?_ fun _ _ _ ↦ rfl⟩
    intro q key hkey
    cases key with
    | token id => rfl
    | code c =>
      refine Function.update_of_ne ?_ _ _
      rintro rfl
      have hthere : (s.codes row.code).isSome = true := (h.orderly.ok q).isThere hkey
      rw [hnew] at hthere
      cases hthere
  | @exchange q request verifier redirectUri row refreshHash rows hphase =>
    have hok := h.orderly.ok q
    have hfresh := h.orderly.fresh q
    have hq := h.orderly.lt_of_phase (q := q) (by rw [hphase]; nofun)
    rw [hphase] at hok hfresh
    refine ⟨h.wellFormed.commitExchange hq hok.1.1 hok.1.2 hok.2 hfresh,
      h.orderly.leave rfl rfl rfl fun key hheld hinserted ↦ ?_⟩
    rw [hphase] at hheld hinserted
    cases key with
    | code c =>
      refine modifyAll_of_not_mem fun hmem ↦ hheld ?_
      rw [List.mem_singleton.mp hmem]
      exact List.mem_cons_self
    | token id => exact insertAll_of_not_mem fun row hrow hid ↦ hinserted row hrow (hid ▸ rfl)
  | @rotation q request row replacement rows hphase =>
    have hok := h.orderly.ok q
    have hfresh := h.orderly.fresh q
    have hq := h.orderly.lt_of_phase (q := q) (by rw [hphase]; nofun)
    rw [hphase] at hok hfresh
    refine ⟨h.wellFormed.commitRotation hq hok.1.1 hok.1.2 hok.2 hfresh,
      h.orderly.leave rfl rfl rfl fun key hheld hinserted ↦ ?_⟩
    rw [hphase] at hheld hinserted
    cases key with
    | code c => rfl
    | token id =>
      calc insertAll _ rows _ id
        _ = modifyAll _ [row.id] s.tokens id :=
          insertAll_of_not_mem fun row hrow hid ↦ hinserted row hrow (hid ▸ rfl)
        _ = s.tokens id := modifyAll_of_not_mem fun hmem ↦
          hheld (List.mem_singleton.mp hmem ▸ List.mem_cons_self)
  | @revocation q dbNow target update hphase hpending =>
    refine ⟨(h.wellFormed.spend (spends_revoke dbNow) update.done).congr rfl rfl le_rfl le_rfl rfl
      rfl, h.orderly.leave rfl rfl rfl fun key hheld hinserted ↦ ?_⟩
    rw [hphase] at hheld
    cases key with
    | code c => rfl
    | token id =>
      exact modifyAll_of_not_mem fun hmem ↦ hheld (List.mem_map_of_mem hmem)

theorem inv_of_run {actions : List Action} (h : (server p).run {} actions = some s) : s.Inv :=
  (server p).invariant (fun _ _ _ hinv hstep ↦ hinv.moved (moved_of_step hstep)) h
    ⟨wellFormed_init, orderly_init⟩

/-- In every state, a code has been exchanged once at most, a refresh token has been rotated once
at most, a chain has one unrevoked refresh token at most, and its tokens carry what the code
grants. -/
theorem chains_of_run {p : Provider} {actions : List Action} {s : Server}
    (h : (server p).run {} actions = some s) : s.Chains :=
  (inv_of_run h).wellFormed.chains

/-! ## A grant and its rotation -/

def sampleRequest (credential : Credential) : Request where
  clientId := str "mcp-desktop"
  credential := credential
  dbNow := 0

/-- A code is issued and exchanged for `a0` and `r0`. -/
def sampleGrant : List Action :=
  [.register { clientId := str "mcp-desktop", redirectUris := [str "http://localhost/cb"] },
    .putAccounts [{ id := 1, disabled := false }],
    .authorizeSubmit
      { clientId := str "mcp-desktop", redirectUri := str "http://localhost/cb"
        codeChallenge := sampleChallenge, scope := str "mcp" }
      1 (str "SplxlOBeZQQYbYS6WxSbIA") 0,
    .begin (sampleRequest
      (.code (str "SplxlOBeZQQYbYS6WxSbIA") sampleVerifier (some (str "http://localhost/cb")))),
    .lock 0, .check 0 0, .use 0, .account 0, .mint 0 (str "a0") (str "r0") 0, .commit 0]

/-- Request `q` rotates a refresh token. -/
def sampleRotation (q : ℕ) (old access refresh : Str) : List Action :=
  [.begin (sampleRequest (.refresh old)), .lock q, .check q 0, .account q,
    .mint q access refresh 0, .replace q, .commit q]

theorem chains_of_run_sampleRotation :
    ∃ s, (server sampleProvider).run {}
        (sampleGrant ++ sampleRotation 1 (str "r0") (str "a1") (str "r1")) = some s ∧
      s.Chains := by
  have hsome : ((server sampleProvider).run {}
      (sampleGrant ++ sampleRotation 1 (str "r0") (str "a1") (str "r1"))).isSome = true := by
    decide +kernel
  obtain ⟨s, hs⟩ := Option.isSome_iff_exists.mp hsome
  exact ⟨s, hs, chains_of_run hs⟩

end DatumSync.OAuth
