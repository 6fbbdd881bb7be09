import DatumSync.Auth.Lifetime

/-!
# Where credentials and permissions come from

Starting with empty tables, whoever is let in has presented a value that some statement of the run
had drawn and stored for that account or agent, and the repositories, the vault scope and the
administrator flag of the principal are those with which the command line created the account: no
statement ever widens them.
-/

namespace DatumSync.Auth

open Foundation OAuth Python

/-- The tables before anything has been created. -/
def Store.empty : Store := ⟨⟨[], [], [], []⟩, by decide⟩

/-- The command line created the account of the principal, with these permissions. -/
structure Authorised (actions : List Write) (principal : Principal) : Prop where
  created : ∃ tokenId values maxTier admin raw,
    .createAccount principal.accountId tokenId principal.name values maxTier admin
      principal.vaultScope raw ∈ actions ∧
    principal.repoScope = Accounts.scopes values ∧ (principal.isAdmin = true → admin = true)

/-- A statement of the run stored the hash for the account of the principal, or for its agent. -/
inductive Issued (p : Provider) (sessionTtl : ℤ) (actions : List Write) (hash : Str)
    (principal : Principal) : Prop where
  | token (a : Write) (row : AccountToken) (ha : a ∈ actions) (hrow : row ∈ a.tokenInserts p)
      (hhash : row.tokenHash = hash) (howner : row.accountId = principal.accountId)
  | oauth (a : Write) (row : TokenRow) (ha : a ∈ actions) (hrow : row ∈ a.oauthInserts p sessionTtl)
      (hhash : row.tokenHash = hash) (howner : row.accountId = principal.accountId)
  | agent (a : Write) (row : Agent) (ha : a ∈ actions) (hrow : row ∈ a.agentInserts p)
      (hhash : row.tokenHash = some hash ∨
        ∃ drawn, .mintAgentToken row.name drawn ∈ actions ∧ p.hashToken drawn = .ok hash)
      (howner : row.accountId = principal.accountId) (hid : principal.agentId = some row.id)
      (hadmin : principal.isAdmin = false)

variable {p : Provider} {sessionTtl now dbNow : ℤ} {actions : List Write} {s t : Store}
  {raw hash : Str} {principal : Principal}

theorem accountFate_fixed {a : Write} {row next : Account} (h : a.accountFate row = some next) :
    next.fixed = row.fixed := by
  cases a with
  | disableAccount | rateLimit | updateAccount | useAccount =>
    obtain rfl := Option.some.inj h
    split <;> rfl
  | _ =>
    obtain rfl := Option.some.inj h
    rfl

/-- The command line created the account, as far as its fixed columns go. -/
def Created (actions : List Write) (account : Account) : Prop :=
  ∃ id tokenId name values maxTier admin vaultScope raw,
    .createAccount id tokenId name values maxTier admin vaultScope raw ∈ actions ∧
    account.fixed = (Accounts.row id name values maxTier admin vaultScope).fixed

/-- A statement inserted the agent; its hash is that of its creation or was minted for it since. -/
def AgentIssued (p : Provider) (actions : List Write) (row : Agent) : Prop :=
  ∃ a ∈ actions, ∃ new ∈ a.agentInserts p, row.fixed = new.fixed ∧
    ∀ hash, row.tokenHash = some hash → new.tokenHash = some hash ∨
      ∃ drawn, .mintAgentToken new.name drawn ∈ actions ∧ p.hashToken drawn = .ok hash

section Run

variable (hrun : (credentials p sessionTtl).run Store.empty actions = some t)
include hrun

/-- Every account was created by the command line, and keeps what it was created with. -/
theorem accounts_created : ∀ account ∈ t.db.accounts, Created actions account := by
  apply writes_accounts.forall_mem (P := Created actions) hrun
  · intro account haccount
    cases haccount
  · intro a ha account haccount
    cases a with
    | createAccount id tokenId name values maxTier admin vaultScope raw =>
      obtain rfl := List.mem_singleton.mp haccount
      exact ⟨id, tokenId, name, values, maxTier, admin, vaultScope, raw, ha, rfl⟩
    | _ => cases haccount
  · intro a ha row next hrow hfate
    obtain ⟨id, tokenId, name, values, maxTier, admin, vaultScope, raw, hcreated, hfixed⟩ := hrow
    exact ⟨id, tokenId, name, values, maxTier, admin, vaultScope, raw, hcreated,
      (accountFate_fixed hfate).trans hfixed⟩

/-- Whose permissions are the columns of an account is authorised by its creation. -/
theorem authorised_of_backs {account : Account} (haccount : account ∈ t.db.accounts)
    (hbacks : account.Backs principal)
    (hadmin : principal.isAdmin = true → account.isAdmin = true) :
    Authorised actions principal := by
  obtain ⟨id, tokenId, name, values, maxTier, admin, vaultScope, raw, hcreated, hfixed⟩ :=
    accounts_created hrun account haccount
  obtain ⟨hid, hname, -, hscope, hflag, -, hvault, -⟩ := (Account.mk.injEq ..).mp hfixed
  refine ⟨tokenId, values, maxTier, admin, raw, ?_, hbacks.repoScope.trans hscope, ?_⟩
  · rw [hbacks.id, hbacks.name, hbacks.vaultScope, hid, hname, hvault]
    exact hcreated
  · intro h
    exact hflag.symm.trans (hadmin h)

theorem accountToken_issued {row : AccountToken} (hrow : row ∈ t.db.accountTokens) :
    ∃ a ∈ actions, ∃ new ∈ a.tokenInserts p, row.fixed = new.fixed := by
  apply writes_accountTokens.forall_mem hrun
    (P := fun row ↦ ∃ a ∈ actions, ∃ new ∈ a.tokenInserts p, row.fixed = new.fixed) ?_ ?_ ?_ row hrow
  · intro row hrow
    cases hrow
  · intro a ha row hrow
    exact ⟨a, ha, row, hrow, rfl⟩
  · intro a ha row next hrow hfate
    obtain ⟨b, hb, new, hnew, hfixed⟩ := hrow
    obtain ⟨same, hsame, hkept, -⟩ := tokenFate_marked a row
    rw [hfate, Option.some.injEq] at hsame
    exact ⟨b, hb, new, hnew, hsame ▸ hkept.trans hfixed⟩

theorem oauthToken_issued {row : TokenRow} (hrow : row ∈ t.db.oauthTokens) :
    ∃ a ∈ actions, ∃ new ∈ a.oauthInserts p sessionTtl, fixedToken row = fixedToken new := by
  apply writes_oauthTokens.forall_mem hrun (P := fun row ↦
    ∃ a ∈ actions, ∃ new ∈ a.oauthInserts p sessionTtl, fixedToken row = fixedToken new)
    ?_ ?_ ?_ row hrow
  · intro row hrow
    cases hrow
  · intro a ha row hrow
    exact ⟨a, ha, row, hrow, rfl⟩
  · intro a ha row next hrow hfate
    obtain ⟨b, hb, new, hnew, hfixed⟩ := hrow
    obtain ⟨same, hsame, hkept, -⟩ := oauthFate_marked (p := p) a row
    rw [hfate, Option.some.injEq] at hsame
    exact ⟨b, hb, new, hnew, hsame ▸ hkept.trans hfixed⟩

theorem agents_issued : ∀ row ∈ t.db.agents, AgentIssued p actions row := by
  apply writes_agents.forall_mem (P := AgentIssued p actions) hrun
  · intro row hrow
    cases hrow
  · intro a ha row hrow
    exact ⟨a, ha, row, hrow, rfl, fun hash hhash ↦ .inl hhash⟩
  · intro a ha row next hrow hfate
    obtain ⟨b, hb, new, hnew, hfixed, horigin⟩ := hrow
    obtain ⟨hkept, hcases⟩ := agentFate_hash (fun raw ↦ exists_hash_of_draw hrun ha) hfate
    refine ⟨b, hb, new, hnew, hkept.trans hfixed, fun hash hhash ↦ ?_⟩
    cases hcases with
    | inl hsame => exact horigin hash (hsame.1 ▸ hhash)
    | inr hdrawn =>
      obtain ⟨drawn, other, rfl, hother, hnext⟩ := hdrawn
      rw [hnext, Option.some.injEq] at hhash
      have hname : row.name = new.name := congrArg (fun key ↦ key.2.2) hfixed
      exact .inr ⟨drawn, hname ▸ ha, hhash ▸ hother⟩

/-- Whoever is let in by either channel presents what was issued in the run to the account or agent
that the principal names, and has the permissions with which the command line created it. -/
theorem principal_issued (hhash : p.hashToken raw = .ok hash) :
    (∀ after, resolve p now dbNow t.db raw = .ok (principal, after) →
      Authorised actions principal ∧ Issued p sessionTtl actions hash principal) ∧
    ∀ after, resolveSession p now dbNow t.db raw = .ok (principal, after) →
      Authorised actions principal ∧ Issued p sessionTtl actions hash principal := by
  constructor
  · intro after h
    obtain ⟨other, hother, hbears⟩ := resolve_sound h
    rw [hhash, Except.ok.injEq] at hother
    subst hother
    cases hbears with
    | agent row account hrow haccount howner htoken henabled hbacks hagent hadmin =>
      obtain ⟨a, ha, new, hnew, hfixed, horigin⟩ := agents_issued hrun row hrow
      have hnever : principal.isAdmin = true → account.isAdmin = true :=
        fun h ↦ absurd (hadmin.symm.trans h) Bool.false_ne_true
      have hid : row.id = new.id := congrArg Prod.fst hfixed
      have hsame : row.accountId = new.accountId := congrArg (fun key ↦ key.2.1) hfixed
      refine ⟨authorised_of_backs hrun haccount hbacks hnever, .agent a new ha hnew
        (horigin hash htoken) ?_ (hid ▸ hagent) hadmin⟩
      rw [← hsame, ← howner, hbacks.id]
    | access row account hrow haccount howner htoken hkind hlive hexpiry haudience hbacks hagent
        hadmin =>
      obtain ⟨a, ha, new, hnew, hfixed⟩ := oauthToken_issued hrun hrow
      obtain ⟨hsame, -, -, hid, -⟩ := token_columns hfixed
      refine ⟨authorised_of_backs hrun haccount hbacks fun h ↦ hadmin.symm.trans h,
        .oauth a new ha hnew (hsame.symm.trans htoken) ?_⟩
      rw [← hid, ← howner, hbacks.id]
    | account row account hrow haccount howner htoken hlive hexpiry hbacks hagent hadmin =>
      obtain ⟨a, ha, new, hnew, hfixed⟩ := accountToken_issued hrun hrow
      obtain ⟨hid, hsame, -⟩ := AccountToken.columns hfixed
      refine ⟨authorised_of_backs hrun haccount hbacks fun h ↦ hadmin.symm.trans h,
        .token a new ha hnew (hsame.symm.trans htoken) ?_⟩
      rw [← hid, ← howner, hbacks.id]
  · intro after h
    obtain ⟨other, hother, hsigned⟩ := resolveSession_sound h
    rw [hhash, Except.ok.injEq] at hother
    subst hother
    cases hsigned with
    | session row account hrow haccount howner htoken hkind hlive hexpiry hbacks hagent hadmin =>
      obtain ⟨a, ha, new, hnew, hfixed⟩ := oauthToken_issued hrun hrow
      obtain ⟨hsame, -, -, hid, -⟩ := token_columns hfixed
      refine ⟨authorised_of_backs hrun haccount hbacks fun h ↦ hadmin.symm.trans h,
        .oauth a new ha hnew (hsame.symm.trans htoken) ?_⟩
      rw [← hid, ← howner, hbacks.id]

end Run

/-- An account, an agent of it, and a sign-in. -/
def founding : List Write :=
  [.createAccount 1 1 (str "scimac") [str "SCIMAC/*"] 2 false none (str "a0"),
    .createAgent 1 1 (str "crawler") [] (str "r0"), .signIn 1 1 (str "r1") 0]

theorem principal_issued_founding : ∃ t,
    (credentials sampleProvider 3600).run Store.empty founding = some t ∧ ∀ principal,
    (∀ after, resolve sampleProvider 5 5 t.db (str "a0") = .ok (principal, after) →
      Authorised founding principal ∧
        Issued sampleProvider 3600 founding (digestIn sampleDigests [97, 48]) principal) ∧
    ∀ after, resolveSession sampleProvider 5 5 t.db (str "a0") = .ok (principal, after) →
      Authorised founding principal ∧
        Issued sampleProvider 3600 founding (digestIn sampleDigests [97, 48]) principal := by
  obtain ⟨t, ht⟩ : ∃ t, (credentials sampleProvider 3600).run Store.empty founding = some t :=
    Option.isSome_iff_exists.mp (by decide +kernel)
  exact ⟨t, ht, fun principal ↦ principal_issued ht (by decide +kernel)⟩

end DatumSync.Auth
