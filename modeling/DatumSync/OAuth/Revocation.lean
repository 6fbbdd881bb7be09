import DatumSync.OAuth.Chain

/-!
# The revocation that answers a replay

A replay revokes the tokens of its grant by an `UPDATE` of its own.  A request that had begun before
can be about to mint for the same grant: its rows are not in the snapshot of the `UPDATE`, so they
stay unless it does not commit.  Where no such request commits after the `UPDATE` has begun, the
`UPDATE` comes to every token of the family, and the family is revoked in every later state.
-/

namespace DatumSync.OAuth

open Foundation Python

/-- Once a family has been revoked, so are the tokens of the requests that had begun by then. -/
def Server.FamiliesRevoked (s : Server) : Prop :=
  ∀ revocation ∈ s.revocations, ∀ id row, s.tokens id = some row →
    row.clientId = some revocation.clientId → row.accountId = revocation.accountId →
    row.minter < revocation.bound → row.revokedAt.isSome = true

/-- An `UPDATE` for the family of a token has started. -/
def Phase.isRevoking (row : GrantToken) : Phase → Bool
  | updating (.family clientId accountId) _ =>
    row.clientId == some clientId && row.accountId == accountId
  | _ => false

/-- A request that commits what it has minted for a family began after every revocation of the
family, and none is under way. -/
def Server.Timely (s : Server) : Action → Prop
  | .commit q => ∀ row ∈ (s.phases q).inserted,
      (∀ revocation ∈ s.revocations, row.clientId = some revocation.clientId →
        row.accountId = revocation.accountId → revocation.bound ≤ q) ∧
      ∀ r < s.nextRequest, (s.phases r).isRevoking row = false
  | _ => True

instance (s : Server) : (a : Action) → Decidable (s.Timely a)
  | .commit q => inferInstanceAs (Decidable (∀ row ∈ (s.phases q).inserted,
      (∀ revocation ∈ s.revocations, row.clientId = some revocation.clientId →
        row.accountId = revocation.accountId → revocation.bound ≤ q) ∧
      ∀ r < s.nextRequest, (s.phases r).isRevoking row = false))
  | .register _ | .putAccounts _ | .authorizeSubmit .. | .begin _ | .lock _ | .check .. | .use _
  | .account _ | .mint .. | .replace _ | .abort _ | .revoke .. | .revokeGrants _ | .snapshot _
  | .visit .. | .finish .. => isTrue trivial

variable {p : Provider} {s t : Server} {a : Action} {q : ℕ}

theorem inFamily_iff {row : TokenRow} {clientId : Str} {accountId : ℤ} :
    row.inFamily clientId accountId = true ↔
      row.clientId = some clientId ∧ row.accountId = accountId ∧ row.revokedAt = none := by
  rw [TokenRow.inFamily, Bool.and_eq_true, Bool.and_eq_true, beq_iff_eq, beq_iff_eq,
    Option.isNone_iff_eq_none, and_assoc]

namespace Server.FamiliesRevoked

theorem congr (h : s.FamiliesRevoked) (htokens : t.tokens = s.tokens)
    (hrevocations : t.revocations = s.revocations) : t.FamiliesRevoked := by
  unfold FamiliesRevoked
  rw [htokens, hrevocations]
  exact h

/-- Rotations and revocations leave revoked tokens. -/
theorem spend (h : s.FamiliesRevoked) {f : GrantToken → GrantToken} (hf : Spends f)
    (keys : List ℤ) : { s with tokens := modifyAll f keys s.tokens : Server }.FamiliesRevoked := by
  intro revocation hrevocation id row hrow hclient haccount hminter
  rcases modifyAll_eq_some hrow with ⟨hold, -⟩ | ⟨old, -, -, rfl⟩
  · exact h revocation hrevocation id row hold hclient haccount hminter
  · exact hf.revoked old

/-- A request commits what it has minted. -/
theorem insert (h : s.FamiliesRevoked) {rows : List GrantToken}
    (hminter : ∀ row ∈ rows, row.minter = q)
    (htimely : ∀ row ∈ rows, ∀ revocation ∈ s.revocations,
      row.clientId = some revocation.clientId → row.accountId = revocation.accountId →
      revocation.bound ≤ q) :
    { s with tokens := insertAll (fun row ↦ row.id) rows s.tokens : Server }.FamiliesRevoked := by
  intro revocation hrevocation id row hrow hclient haccount hlt
  rcases insertAll_eq_some hrow with ⟨hnew, -⟩ | ⟨hold, -⟩
  · have hle := htimely row hnew revocation hrevocation hclient haccount
    rw [hminter row hnew] at hlt
    omega
  · exact h revocation hrevocation id row hold hclient haccount hlt

/-- A revocation of a family that has come to all of its tokens. -/
theorem record (h : s.FamiliesRevoked) {target : Target}
    (htarget : ∀ clientId accountId, target = .family clientId accountId → ∀ id,
      (s.tokens id).any (Target.family clientId accountId).wants = false) {bound : ℕ} :
    { s with revocations := target.record bound s.revocations : Server }.FamiliesRevoked := by
  cases target with
  | token tokenHash clientId => exact h
  | account accountId => exact h
  | family clientId accountId =>
    intro revocation hrevocation id row hrow hclient haccount hlt
    rcases List.mem_cons.mp hrevocation with rfl | hold
    · by_contra hunrevoked
      have hout := htarget clientId accountId rfl id
      have hin : row.inFamily clientId accountId = true :=
        inFamily_iff.mpr ⟨hclient, haccount, by simpa using hunrevoked⟩
      rw [hrow, Option.any_some] at hout
      exact Bool.false_ne_true (hout.symm.trans hin)
    · exact h revocation hold id row hrow hclient haccount hlt

end Server.FamiliesRevoked

/-! ## What an `UPDATE` covers -/

theorem Server.Numbered.moved (h : s.Numbered) (hmoved : Moved s a t) : t.Numbered := by
  have hidle {phases : ℕ → Phase} {q : ℕ} (hphases : phases = Function.update s.phases q .idle) :
      ∀ r, ∀ row ∈ (phases r).inserted, 0 ≤ row.id := by
    intro r row hrow
    rw [hphases] at hrow
    rcases eq_or_ne r q with rfl | hr
    · rw [Function.update_self] at hrow
      cases hrow
    · rw [Function.update_of_ne hr] at hrow
      exact h.inserted r row hrow
  have hspend {f : GrantToken → GrantToken} {keys : List ℤ} {id : ℤ} {row : GrantToken}
      (hrow : modifyAll f keys s.tokens id = some row) : 0 ≤ id := by
    rcases modifyAll_eq_some hrow with ⟨hold, -⟩ | ⟨old, hold, -⟩
    · exact h.tokens id row hold
    · exact h.tokens id old hold
  cases hmoved with
  | @advance _ q phase nextId nextRequest hquiet hadvances =>
    refine ⟨h.next.trans hadvances.nextId_le, h.tokens, fun r row hrow ↦ ?_⟩
    have hrow : row ∈ (Function.update s.phases q phase r).inserted := hrow
    rcases eq_or_ne r q with rfl | hr
    · rw [Function.update_self] at hrow
      exact (hadvances.inserted row hrow).elim (h.inserted r row) fun hnew ↦ h.next.trans hnew.1
    · rw [Function.update_of_ne hr] at hrow
      exact h.inserted r row hrow
  | outside hquiet => exact ⟨h.next, h.tokens, h.inserted⟩
  | authorize hquiet hnew => exact ⟨h.next, h.tokens, h.inserted⟩
  | @exchange q request verifier redirectUri row refreshHash rows hphase =>
    refine ⟨h.next, fun id new hnew ↦ ?_, hidle rfl⟩
    rcases insertAll_eq_some hnew with ⟨hrow, rfl⟩ | ⟨hold, -⟩
    · exact h.inserted q new (hphase ▸ hrow)
    · exact h.tokens id new hold
  | @rotation q request row replacement rows hphase =>
    refine ⟨h.next, fun id new hnew ↦ ?_, hidle rfl⟩
    rcases insertAll_eq_some hnew with ⟨hrow, rfl⟩ | ⟨hold, -⟩
    · exact h.inserted q new (hphase ▸ hrow)
    · exact hspend hold
  | revocation hphase hpending => exact ⟨h.next, fun id row hrow ↦ hspend hrow, hidle rfl⟩

/-- Every family that is being revoked is covered. -/
def Server.Covering (s : Server) : Prop := ∀ q, (s.phases q).Covers s

/-- An `UPDATE` still covers its family where no token has come to be in it. -/
theorem Phase.Covers.mono {phase : Phase} (h : phase.Covers s)
    (hmatch : ∀ clientId accountId update, phase = .updating (.family clientId accountId) update →
      ∀ id, (t.tokens id).any (Target.family clientId accountId).wants = true →
        (s.tokens id).any (Target.family clientId accountId).wants = true) :
    phase.Covers t := by
  cases phase with
  | updating target update =>
    cases target with
    | family clientId accountId => exact SetUpdate.Covers.mono h (hmatch clientId accountId update rfl)
    | token tokenHash clientId => trivial
    | account accountId => trivial
  | _ => trivial

/-- Rotations and revocations bring no token into a family. -/
theorem any_wants_of_spent {f : GrantToken → GrantToken} (hf : Spends f) {keys : List ℤ}
    {table : ℤ → Option GrantToken} {id : ℤ} {clientId : Str} {accountId : ℤ}
    (h : (modifyAll f keys table id).any (Target.family clientId accountId).wants = true) :
    (table id).any (Target.family clientId accountId).wants = true := by
  obtain ⟨row, hrow, hwanted⟩ := (Option.any_eq_true _ _).mp h
  rcases modifyAll_eq_some hrow with ⟨hold, -⟩ | ⟨old, -, -, rfl⟩
  · exact (Option.any_eq_true _ _).mpr ⟨row, hold, hwanted⟩
  · have hunrevoked := (inFamily_iff.mp hwanted).2.2
    have hrevoked := hf.revoked old
    rw [hunrevoked] at hrevoked
    cases hrevoked

/-- Neither does a timely commit into a family that is being revoked. -/
theorem any_wants_of_timely (horderly : s.Orderly) (htimely : s.Timely (.commit q)) {r : ℕ}
    {clientId : Str} {accountId : ℤ} {update : SetUpdate ℤ}
    (hphase : s.phases r = .updating (.family clientId accountId) update)
    {table : ℤ → Option GrantToken} {id : ℤ}
    (h : (insertAll (fun row ↦ row.id) (s.phases q).inserted table id).any
      (Target.family clientId accountId).wants = true) :
    (table id).any (Target.family clientId accountId).wants = true := by
  obtain ⟨row, hrow, hwanted⟩ := (Option.any_eq_true _ _).mp h
  rcases insertAll_eq_some hrow with ⟨hnew, -⟩ | ⟨hold, -⟩
  · obtain ⟨hclient, haccount, -⟩ := inFamily_iff.mp hwanted
    have hbegun : r < s.nextRequest := horderly.lt_of_phase (by rw [hphase]; nofun)
    have hquiet := (htimely row hnew).2 r hbegun
    rw [hphase, Phase.isRevoking, hclient, haccount, beq_self_eq_true, beq_self_eq_true] at hquiet
    cases hquiet
  · exact (Option.any_eq_true _ _).mpr ⟨row, hold, hwanted⟩

/-- A request that ends covers nothing, and the others cover what they did. -/
theorem Server.Covering.leave (h : s.Covering)
    (hphases : t.phases = Function.update s.phases q .idle)
    (hmatch : ∀ r clientId accountId update,
      s.phases r = .updating (.family clientId accountId) update →
      ∀ id, (t.tokens id).any (Target.family clientId accountId).wants = true →
        (s.tokens id).any (Target.family clientId accountId).wants = true) : t.Covering := by
  intro r
  rw [hphases]
  rcases eq_or_ne r q with rfl | hr
  · rw [Function.update_self]
    trivial
  · rw [Function.update_of_ne hr]
    exact (h r).mono (hmatch r)

/-- A timely step keeps every family covered that is being revoked. -/
theorem Server.Covering.moved (h : s.Covering) (hinv : s.Inv) (hnumbered : s.Numbered)
    (htimely : s.Timely a) (hmoved : Moved s a t) : t.Covering := by
  cases hmoved with
  | @advance _ q phase nextId nextRequest hquiet hadvances =>
    intro r
    have hcovers : (Function.update s.phases q phase r).Covers s := by
      rcases eq_or_ne r q with rfl | hr
      · rw [Function.update_self]
        exact hadvances.covers hinv.wellFormed hnumbered (h r)
      · rw [Function.update_of_ne hr]
        exact h r
    exact hcovers.mono fun _ _ _ _ _ hwanted ↦ hwanted
  | outside hquiet => exact fun r ↦ (h r).mono fun _ _ _ _ _ hwanted ↦ hwanted
  | authorize hquiet hnew => exact fun r ↦ (h r).mono fun _ _ _ _ _ hwanted ↦ hwanted
  | @exchange q request verifier redirectUri row refreshHash rows hphase =>
    refine h.leave rfl fun r clientId accountId update hupdating id hwanted ↦ ?_
    refine any_wants_of_timely hinv.orderly htimely hupdating ?_
    rw [hphase]
    exact hwanted
  | @rotation q request row replacement rows hphase =>
    refine h.leave rfl fun r clientId accountId update hupdating id hwanted ↦ ?_
    refine @any_wants_of_spent _ (spends_rotate request.dbNow replacement) [row.id] _ _ _ _ ?_
    refine any_wants_of_timely hinv.orderly htimely hupdating ?_
    rw [hphase]
    exact hwanted
  | @revocation q dbNow target update hphase hpending =>
    exact h.leave rfl fun r clientId accountId update' _ id hwanted ↦
      any_wants_of_spent (spends_revoke dbNow) hwanted

/-! ## Runs -/

/-- A timely step keeps the families revoked: what is committed came after their revocations, and
an `UPDATE` that ends has changed all that it covers. -/
theorem Server.FamiliesRevoked.moved (h : s.FamiliesRevoked) (hinv : s.Inv) (hcovering : s.Covering)
    (htimely : s.Timely a) (hmoved : Moved s a t) : t.FamiliesRevoked := by
  cases hmoved with
  | advance hquiet hadvances => exact h.congr rfl rfl
  | outside hquiet => exact h.congr rfl rfl
  | authorize hquiet hnew => exact h.congr rfl rfl
  | @exchange q request verifier redirectUri row refreshHash rows hphase =>
    have hok := hinv.orderly.ok q
    rw [hphase] at hok
    simp only [Timely, hphase] at htimely
    exact (h.insert hok.2.minter fun row hrow ↦ (htimely row hrow).1).congr rfl rfl
  | @rotation q request row replacement rows hphase =>
    have hok := hinv.orderly.ok q
    rw [hphase] at hok
    simp only [Timely, hphase] at htimely
    have hspent := h.spend (spends_rotate request.dbNow replacement) [row.id]
    exact (hspent.insert hok.2.minter fun row hrow ↦ (htimely row hrow).1).congr rfl rfl
  | @revocation q dbNow target update hphase hpending =>
    have hspent := h.spend (spends_revoke dbNow) update.done
    refine (@hspent.record _ target ?_ s.nextRequest).congr rfl rfl
    rintro clientId accountId rfl id
    have hcovers := hcovering q
    rw [hphase] at hcovers
    refine hcovers.finish hpending (fun row ↦ ?_) id
    apply Bool.eq_false_iff.mpr
    intro hwanted
    cases (inFamily_iff.mp hwanted).2.2

/-- In a run in which no request commits what it has minted for a family after a revocation of the
family that it did not begin after, or while one is under way, the families that have been revoked
are so in every state. -/
theorem families_revoked_of_timely {p : Provider} {actions : List Action}
    (hmeets : (server p).Meets Server.Timely {} actions) :
    (server p).Always Server.FamiliesRevoked {} actions := by
  refine (server p).always_of_meets
    (I := fun s ↦ (s.Inv ∧ s.Numbered) ∧ s.Covering ∧ s.FamiliesRevoked) (fun _ h ↦ h.2.2) ?_ hmeets
    ⟨⟨⟨wellFormed_init, orderly_init⟩, ?_⟩, fun _ ↦ trivial,
      fun _ hrevocation ↦ nomatch hrevocation⟩
  · intro s a t h htimely hstep
    have hmoved := moved_of_step hstep
    exact ⟨⟨h.1.1.moved hmoved, h.1.2.moved hmoved⟩, h.2.1.moved h.1.1 h.1.2 htimely hmoved,
      h.2.2.moved h.1.1 h.2.1 htimely hmoved⟩
  · exact ⟨Int.le_of_lt Int.one_pos, fun _ _ h ↦ (nomatch h), fun _ _ h ↦ (nomatch h)⟩

/-! ## A replay -/

/-- The refresh token `r0`, already rotated to `r1`, is presented again; after that the account
grants the client another code, which is exchanged. -/
def lateReplay : List Action :=
  sampleGrant ++ sampleRotation 1 (str "r0") (str "a1") (str "r1") ++
    [.begin (sampleRequest (.refresh (str "r0"))), .lock 2, .check 2 0, .snapshot 2, .visit 2 1,
      .visit 2 3, .visit 2 4, .finish 2 0,
      .authorizeSubmit
        { clientId := str "mcp-desktop", redirectUri := str "http://localhost/cb"
          codeChallenge := sampleChallenge, scope := str "mcp" }
        1 (str "n3WcD3") 0,
      .begin (sampleRequest
        (.code (str "n3WcD3") sampleVerifier (some (str "http://localhost/cb")))),
      .lock 3, .check 3 0, .use 3, .account 3, .mint 3 (str "a2") (str "r2") 0, .commit 3]

theorem families_revoked_of_timely_lateReplay :
    ((server sampleProvider).run {} lateReplay).any (fun s ↦
      s.revocations.contains ⟨str "mcp-desktop", 1, 3⟩ &&
        (s.tokens 4).any (fun row ↦ row.revokedAt.isSome) &&
          (s.tokens 6).any fun row ↦ row.revokedAt.isNone) = true ∧
    (server sampleProvider).Meets Server.Timely {} lateReplay ∧
      (server sampleProvider).Always Server.FamiliesRevoked {} lateReplay := by
  have hmeets : (server sampleProvider).Meets Server.Timely {} lateReplay := by decide +kernel
  exact ⟨by decide +kernel, hmeets, families_revoked_of_timely hmeets⟩

/-! ## A rotation that straddles a replay -/

/-- The refresh token `r0`, already rotated to `r1`, is presented again while `r1` is being
rotated. -/
def straddledReplay : List Action :=
  sampleGrant ++ sampleRotation 1 (str "r0") (str "a1") (str "r1") ++
    [.begin (sampleRequest (.refresh (str "r1"))), .lock 2, .check 2 0, .account 2,
      .mint 2 (str "a2") (str "r2") 0, .replace 2,
      .begin (sampleRequest (.refresh (str "r0"))), .lock 3, .check 3 0, .snapshot 3, .visit 3 1,
      .visit 3 3, .commit 2, .visit 3 4, .finish 3 0]

/-- The family is revoked and answered for, and the refresh token `r2` of a request that had begun
before stays valid. -/
theorem straddledReplay_not_revoked :
    ¬ (server sampleProvider).Always Server.FamiliesRevoked {} straddledReplay := by
  have hend : ((server sampleProvider).run {} straddledReplay).any (fun s ↦
      (s.tokens 6).any (fun row ↦ row.inFamily (str "mcp-desktop") 1 && decide (row.minter < 4)) &&
        s.revocations.contains ⟨str "mcp-desktop", 1, 4⟩) = true := by
    decide +kernel
  obtain ⟨s, hs, hs'⟩ := (Option.any_eq_true _ _).mp hend
  rw [Bool.and_eq_true, Option.any_eq_true] at hs'
  obtain ⟨⟨row, hrow, hlate⟩, hrevocation⟩ := hs'
  rw [Bool.and_eq_true, inFamily_iff, decide_eq_true_eq] at hlate
  intro halways
  have hrevoked := halways straddledReplay [] s (List.append_nil _).symm hs
  have hsome := hrevoked _ (List.contains_iff_mem.mp hrevocation) 6 row hrow hlate.1.1 hlate.1.2.1
    hlate.2
  rw [hlate.1.2.2] at hsome
  cases hsome

end DatumSync.OAuth
