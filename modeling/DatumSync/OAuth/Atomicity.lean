import DatumSync.OAuth.Token

/-!
# Failed requests of the token endpoint

A request that fails leaves codes and tokens as they are, unless it replays a used code or a rotated
refresh token: then the unrevoked tokens of that grant are revoked, and nothing else.  The failure
is an `OAuthError` exactly when no text that cannot be encoded reaches a query, a hash or the
comparison of digests, and no hash that the table already has is inserted.
-/

namespace DatumSync.OAuth

open Python

variable (p : Provider) (draw : Draw) (db : Db) (form : TokenForm)

def Failure.isOAuth : Failure → Bool
  | oauth _ _ _ => true
  | raised _ => false

/-- The tokens to mint have hashes, and these are new to the table. -/
def Draw.Fresh : Prop :=
  ∃ accessHash refreshHash, p.hashToken draw.access = .ok accessHash ∧
    p.hashToken draw.refresh = .ok refreshHash ∧ accessHash ≠ refreshHash ∧
    ∀ row ∈ db.tokens, row.tokenHash ≠ accessHash ∧ row.tokenHash ≠ refreshHash

/-- The request presents a used code or a rotated refresh token of this client and account. -/
inductive Replays : Str → ℤ → Prop
  | code {client : ClientRow} {code verifier : Str} {row : CodeRow}
      (hgrant : form.grantType = str "authorization_code")
      (hauth : authenticateClient p db form = .ok client)
      (hcode : given form.code = some code) (hverifier : given form.codeVerifier = some verifier)
      (hparameter : isParameter code = true)
      (hrow : (db.codes.find? fun row ↦ row.code == code) = some row)
      (hclient : row.clientId = client.clientId) (hused : row.usedAt.isSome = true) :
      Replays row.clientId row.accountId
  | refresh {client : ClientRow} {refreshToken hash : Str} {row : TokenRow}
      (hgrant : form.grantType = str "refresh_token")
      (hauth : authenticateClient p db form = .ok client)
      (hrefresh : given form.refreshToken = some refreshToken)
      (hhash : p.hashToken refreshToken = .ok hash)
      (hrow : (db.tokens.find? fun row ↦ row.tokenHash == hash && row.kind == .refresh) = some row)
      (hclient : row.clientId = some client.clientId) (hrotated : row.rotatedTo.isSome = true) :
      Replays client.clientId row.accountId

/-- An unrevoked row of the grant becomes revoked, any other row stays. -/
def RevokedOnly (clientId : Str) (accountId : ℤ) (before after : TokenRow) : Prop :=
  if before.inFamily clientId accountId then
    ∃ now, after = { before with revokedAt := some now }
  else after = before

/-- What a failed request leaves. -/
structure Kept (after : Db) : Prop where
  codes : after.codes = db.codes
  replay : ∀ clientId accountId, Replays p db form clientId accountId →
    List.Forall₂ (RevokedOnly clientId accountId) db.tokens after.tokens
  other : (¬ ∃ clientId accountId, Replays p db form clientId accountId) →
    after.tokens = db.tokens

/-- A request that fails does so with an `OAuthError` and leaves the tables. -/
def Atomic : Prop :=
  ∀ f, (token p draw db form).1 = .error f →
    f.isOAuth = true ∧ Kept p db form (token p draw db form).2

/-- A text that cannot be encoded reaches a query, a hash or the comparison of digests. -/
inductive Unencodable : Prop
  | clientId {clientId : Str} (hgrant : form.grantType = str "authorization_code" ∨
      form.grantType = str "refresh_token") (hid : given form.clientId = some clientId)
      (hbad : isParameter clientId = false)
  | secret {client : ClientRow} {stored secret : Str}
      (hgrant : form.grantType = str "authorization_code" ∨
        form.grantType = str "refresh_token")
      (hclient : fetchClient db form.clientId = .ok client)
      (hstored : client.secretHash = some stored) (hsecret : given form.clientSecret = some secret)
      (hbad : encodeUtf8 secret = none ∨ ¬ IsAscii stored)
  | code {client : ClientRow} {code verifier : Str}
      (hgrant : form.grantType = str "authorization_code")
      (hauth : authenticateClient p db form = .ok client)
      (hcode : given form.code = some code) (hverifier : given form.codeVerifier = some verifier)
      (hbad : isParameter code = false)
  | verifier {client : ClientRow} {code verifier : Str} {row : CodeRow}
      (hgrant : form.grantType = str "authorization_code")
      (hauth : authenticateClient p db form = .ok client)
      (hcode : given form.code = some code) (hverifier : given form.codeVerifier = some verifier)
      (hparameter : isParameter code = true)
      (hrow : (db.codes.find? fun row ↦ row.code == code) = some row)
      (hchecks : Provider.checkCodeRow draw.now client.clientId row form.redirectUri = .ok ())
      (hbad : ¬ IsAscii verifier ∨ ¬ IsAscii row.codeChallenge)
  | refresh {client : ClientRow} {refreshToken : Str}
      (hgrant : form.grantType = str "refresh_token")
      (hauth : authenticateClient p db form = .ok client)
      (hrefresh : given form.refreshToken = some refreshToken)
      (hbad : encodeUtf8 refreshToken = none)

/-- The tokens drawn for a request that may mint are not fresh. -/
inductive Repeated : Prop
  | code {client : ClientRow} {code verifier : Str} {row : CodeRow}
      (hgrant : form.grantType = str "authorization_code")
      (hauth : authenticateClient p db form = .ok client)
      (hcode : given form.code = some code) (hverifier : given form.codeVerifier = some verifier)
      (hparameter : isParameter code = true)
      (hrow : (db.codes.find? fun row ↦ row.code == code) = some row)
      (hchecks : p.checkCode draw.now client.clientId row form.redirectUri verifier form.resource =
        .ok ())
      (hactive : db.isActive row.accountId = true) (hbad : ¬ draw.Fresh p db)
  | refresh {client : ClientRow} {refreshToken hash : Str} {row : TokenRow}
      (hgrant : form.grantType = str "refresh_token")
      (hauth : authenticateClient p db form = .ok client)
      (hrefresh : given form.refreshToken = some refreshToken)
      (hhash : p.hashToken refreshToken = .ok hash)
      (hrow : (db.tokens.find? fun row ↦ row.tokenHash == hash && row.kind == .refresh) = some row)
      (hchecks : p.checkRefresh draw.now client.clientId row form.resource = .ok ())
      (hactive : db.isActive row.accountId = true) (hbad : ¬ draw.Fresh p db)

variable {p draw db form}

/-! ## What raises -/

theorem encodeAscii_error {raw : Str} (h : ¬ IsAscii raw) : ∃ e, encodeAscii raw = .error e :=
  ⟨_, if_neg h⟩

theorem compareDigest_error_iff {a b : Str} (ha : IsAscii a) :
    (∃ e, compareDigest a b = .error e) ↔ ¬ IsAscii b := by
  unfold compareDigest
  by_cases hb : IsAscii b
  · rw [if_pos ⟨ha, hb⟩]
    exact iff_of_false nofun (not_not_intro hb)
  · rw [if_neg fun h ↦ hb h.2]
    exact iff_of_true ⟨_, rfl⟩ hb

theorem pkceOk_error_iff {verifier challenge : Str} :
    (∃ e, p.pkceOk verifier challenge = .error e) ↔
      ¬ IsAscii verifier ∨ ¬ IsAscii challenge := by
  unfold Provider.pkceOk
  by_cases hverifier : IsAscii verifier
  · have hencoded : encodeAscii verifier = .ok (verifier.map fun c ↦ UInt8.ofNat c.val) :=
      if_pos hverifier
    rw [hencoded]
    dsimp only
    rw [compareDigest_error_iff (p.s256_ascii _)]
    exact (or_iff_right (not_not_intro hverifier)).symm
  · obtain ⟨e, he⟩ := encodeAscii_error hverifier
    rw [he]
    exact iff_of_true ⟨e, rfl⟩ (.inl hverifier)

theorem hashToken_error_iff {raw : Str} :
    (∃ e, p.hashToken raw = .error e) ↔ encodeUtf8 raw = none := by
  unfold Provider.hashToken
  cases encodeUtf8 raw with
  | none => exact iff_of_true ⟨_, rfl⟩ rfl
  | some bytes => exact iff_of_false nofun nofun

theorem isAscii_of_hashToken {raw hash : Str} (h : p.hashToken raw = .ok hash) : IsAscii hash := by
  unfold Provider.hashToken at h
  split at h
  · cases h
  · exact Except.ok.inj h ▸ p.sha256Hex_ascii _

theorem fetchClient_raised_iff {clientId : Option Str} :
    (∃ e, fetchClient db clientId = .error (.raised e)) ↔
      ∃ id, given clientId = some id ∧ isParameter id = false := by
  unfold fetchClient
  cases given clientId with
  | none => exact iff_of_false nofun nofun
  | some id =>
    dsimp only
    cases hparameter : isParameter id with
    | false => exact iff_of_true ⟨_, rfl⟩ ⟨id, rfl, hparameter⟩
    | true =>
      refine iff_of_false ?_ ?_
      · rw [if_neg (by simp)]
        rintro ⟨e, he⟩
        split at he <;> cases he
      · rintro ⟨other, hother, hbad⟩
        rw [← Option.some.inj hother, hparameter] at hbad
        cases hbad

theorem checkSecret_raised_iff {stored : Str} {clientSecret : Option Str} :
    (∃ e, checkSecret p stored clientSecret = .error (.raised e)) ↔
      ∃ secret, given clientSecret = some secret ∧
        (encodeUtf8 secret = none ∨ ¬ IsAscii stored) := by
  unfold checkSecret
  cases given clientSecret with
  | none => exact iff_of_false nofun nofun
  | some secret =>
    simp only [Option.some.injEq, exists_eq_left']
    cases hhash : p.hashToken secret with
    | error e => exact iff_of_true ⟨e, rfl⟩ (.inl (hashToken_error_iff.mp ⟨e, hhash⟩))
    | ok hash =>
      have hencoded : encodeUtf8 secret ≠ none := fun hnone ↦ by
        obtain ⟨e, he⟩ := (@hashToken_error_iff p secret).mpr hnone
        rw [hhash] at he
        cases he
      rw [or_iff_right hencoded, ← compareDigest_error_iff (isAscii_of_hashToken hhash)]
      dsimp only
      cases compareDigest hash stored with
      | error e => exact iff_of_true ⟨e, rfl⟩ ⟨e, rfl⟩
      | ok same => cases same <;> exact iff_of_false nofun nofun

/-- Client authentication raises on a client id or a secret that cannot be encoded. -/
theorem authenticateClient_raised_iff :
    (∃ e, authenticateClient p db form = .error (.raised e)) ↔
      (∃ id, given form.clientId = some id ∧ isParameter id = false) ∨
        ∃ client stored secret, fetchClient db form.clientId = .ok client ∧
          client.secretHash = some stored ∧ given form.clientSecret = some secret ∧
          (encodeUtf8 secret = none ∨ ¬ IsAscii stored) := by
  rw [← @fetchClient_raised_iff db]
  unfold authenticateClient
  cases hclient : fetchClient db form.clientId with
  | error f =>
    refine ⟨fun h ↦ .inl h, fun h ↦ ?_⟩
    rcases h with h | ⟨client, stored, secret, hok, -⟩
    · exact h
    · cases hok
  | ok client =>
    dsimp only
    cases hstored : client.secretHash with
    | none =>
      apply iff_of_false nofun
      rintro (⟨e, he⟩ | ⟨other, stored, secret, hok, hsome, -⟩)
      · cases he
      · rw [← Except.ok.inj hok, hstored] at hsome
        cases hsome
    | some stored =>
      have hraised := @checkSecret_raised_iff p stored form.clientSecret
      dsimp only
      constructor
      · rintro ⟨e, he⟩
        split at he
        · next f hf =>
          rw [Except.error.inj he] at hf
          obtain ⟨secret, hsecret, hbad⟩ := hraised.mp ⟨e, hf⟩
          exact .inr ⟨client, stored, secret, rfl, hstored, hsecret, hbad⟩
        · cases he
      · rintro (⟨e, he⟩ | ⟨other, stored', secret, hok, hsome, hsecret, hbad⟩)
        · cases he
        · rw [← Except.ok.inj hok, hstored] at hsome
          obtain rfl := Option.some.inj hsome
          obtain ⟨e, he⟩ := hraised.mpr ⟨secret, hsecret, hbad⟩
          rw [he]
          exact ⟨e, rfl⟩

theorem checkCodeRow_not_raised {now : ℤ} {clientId : Str} {row : CodeRow}
    {redirectUri : Option Str} {e : Exc} :
    Provider.checkCodeRow now clientId row redirectUri ≠ .error (.failure (.raised e)) := by
  intro h
  unfold Provider.checkCodeRow at h
  split_ifs at h <;> cases h

theorem checkGrantResource_not_raised {granted resource : Option Str} {f : TxnFailure}
    (h : p.checkGrantResource granted resource = .error f) :
    ∃ failure, f = .failure failure ∧ failure.isOAuth = true := by
  unfold Provider.checkGrantResource at h
  split at h
  · cases h
  · split_ifs at h
    exact ⟨_, (Except.error.inj h).symm, rfl⟩

/-- The checks of a code raise in PKCE only. -/
theorem checkCode_raised_iff {now : ℤ} {clientId : Str} {row : CodeRow} {redirectUri : Option Str}
    {verifier : Str} {resource : Option Str} :
    (∃ e, p.checkCode now clientId row redirectUri verifier resource =
      .error (.failure (.raised e))) ↔
      Provider.checkCodeRow now clientId row redirectUri = .ok () ∧
        (¬ IsAscii verifier ∨ ¬ IsAscii row.codeChallenge) := by
  rw [← pkceOk_error_iff (p := p)]
  unfold Provider.checkCode
  cases hchecks : Provider.checkCodeRow now clientId row redirectUri with
  | error f =>
    refine iff_of_false ?_ nofun
    rintro ⟨e, he⟩
    exact checkCodeRow_not_raised (hchecks.trans he)
  | ok =>
    dsimp only
    cases p.pkceOk verifier row.codeChallenge with
    | error e => exact iff_of_true ⟨e, rfl⟩ ⟨rfl, e, rfl⟩
    | ok same =>
      refine iff_of_false ?_ nofun
      rintro ⟨e, he⟩
      cases same with
      | false => cases he
      | true =>
        obtain ⟨failure, hfailure, hoauth⟩ := checkGrantResource_not_raised he
        cases hfailure
        cases hoauth

theorem checkRefresh_not_raised {now : ℤ} {clientId : Str} {row : TokenRow}
    {resource : Option Str} {e : Exc} :
    p.checkRefresh now clientId row resource ≠ .error (.failure (.raised e)) := by
  intro h
  unfold Provider.checkRefresh at h
  split_ifs at h
  · cases h
  · cases h
  · cases h
  · cases h
  · obtain ⟨failure, hfailure, hoauth⟩ := checkGrantResource_not_raised h
    cases hfailure
    cases hoauth

/-- Minting raises exactly when the drawn tokens are not fresh. -/
theorem mint_raised_iff {clientId : Str} {accountId : ℤ} {resource scope : Option Str} :
    (∃ e, (mint p draw db clientId accountId resource scope).1 =
      .error (.failure (.raised e))) ↔ ¬ draw.Fresh p db := by
  unfold mint Draw.Fresh
  cases p.hashToken draw.access with
  | error e => exact iff_of_true ⟨e, rfl⟩ nofun
  | ok accessHash =>
    cases p.hashToken draw.refresh with
    | error e => exact iff_of_true ⟨e, rfl⟩ nofun
    | ok refreshHash =>
      simp only [Except.ok.injEq, exists_and_left, exists_eq_left']
      split
      · next hdup =>
        refine iff_of_true ⟨_, rfl⟩ ?_
        rintro ⟨hne, hnew⟩
        rcases hdup with hsame | hany
        · exact hne hsame
        · obtain ⟨row, hrow, hhash⟩ := List.any_eq_true.mp hany
          rw [Bool.or_eq_true, beq_iff_eq, beq_iff_eq] at hhash
          exact hhash.elim (hnew row hrow).1 (hnew row hrow).2
      · next hfresh =>
        refine iff_of_false nofun (not_not_intro ?_)
        rw [not_or] at hfresh
        refine ⟨hfresh.1, fun row hrow ↦ ?_⟩
        have hneither := mt List.any_eq_true.mpr hfresh.2
        constructor
        · intro hhash
          exact hneither ⟨row, hrow, by rw [hhash]; simp⟩
        · intro hhash
          exact hneither ⟨row, hrow, by rw [hhash]; simp⟩

/-- The exchange of a code raises on the code, in PKCE, or in minting. -/
theorem exchangeBody_raised_iff {client : ClientRow} {code : Str} {redirectUri : Option Str}
    {verifier : Str} {resource : Option Str} :
    (∃ e, (exchangeBody p draw db client code redirectUri verifier resource).1 =
      .error (.failure (.raised e))) ↔
      isParameter code = false ∨ isParameter code = true ∧
        ∃ row, (db.codes.find? fun row ↦ row.code == code) = some row ∧
          (Provider.checkCodeRow draw.now client.clientId row redirectUri = .ok () ∧
              (¬ IsAscii verifier ∨ ¬ IsAscii row.codeChallenge) ∨
            p.checkCode draw.now client.clientId row redirectUri verifier resource = .ok () ∧
              db.isActive row.accountId = true ∧ ¬ draw.Fresh p db) := by
  unfold exchangeBody
  cases hparameter : isParameter code with
  | false => exact iff_of_true ⟨_, rfl⟩ (.inl rfl)
  | true =>
    rw [if_neg (by simp), or_iff_right (by simp), and_iff_right rfl]
    cases db.codes.find? fun row ↦ row.code == code with
    | none =>
      apply iff_of_false nofun
      rintro ⟨row, hrow, -⟩
      cases hrow
    | some row =>
      simp only [Option.some.injEq, exists_eq_left']
      rw [← @checkCode_raised_iff p draw.now client.clientId row redirectUri verifier resource]
      cases p.checkCode draw.now client.clientId row redirectUri verifier resource with
      | error f => simp only [Except.error.injEq, reduceCtorEq, false_and, or_false]
      | ok =>
        have hactive : ({ db with codes := useCode draw.dbNow code db.codes } : Db).isActive
            row.accountId = db.isActive row.accountId := rfl
        rw [or_iff_right (by rintro ⟨e, he⟩; cases he), and_iff_right rfl]
        dsimp only
        rw [hactive]
        cases db.isActive row.accountId with
        | false => exact iff_of_false nofun fun h ↦ by cases h.1
        | true =>
          rw [if_pos rfl, and_iff_right rfl]
          exact mint_raised_iff

/-- The rotation of a token raises on the token, or in minting. -/
theorem rotateBody_raised_iff {client : ClientRow} {refreshToken : Str} {resource : Option Str} :
    (∃ e, (rotateBody p draw db client refreshToken resource).1 =
      .error (.failure (.raised e))) ↔
      encodeUtf8 refreshToken = none ∨ ∃ hash, p.hashToken refreshToken = .ok hash ∧
        ∃ row, (db.tokens.find? fun row ↦ row.tokenHash == hash && row.kind == .refresh) =
            some row ∧
          p.checkRefresh draw.now client.clientId row resource = .ok () ∧
          db.isActive row.accountId = true ∧ ¬ draw.Fresh p db := by
  rw [← hashToken_error_iff (p := p)]
  unfold rotateBody
  cases p.hashToken refreshToken with
  | error e => exact iff_of_true ⟨e, rfl⟩ (.inl ⟨e, rfl⟩)
  | ok hash =>
    rw [or_iff_right (by rintro ⟨e, he⟩; cases he)]
    simp only [Except.ok.injEq, exists_eq_left']
    cases db.tokens.find? fun row ↦ row.tokenHash == hash && row.kind == .refresh with
    | none =>
      apply iff_of_false nofun
      rintro ⟨row, hrow, -⟩
      cases hrow
    | some row =>
      simp only [Option.some.injEq, exists_eq_left']
      cases hchecks : p.checkRefresh draw.now client.clientId row resource with
      | error f =>
        refine iff_of_false ?_ fun h ↦ by cases h.1
        rintro ⟨e, he⟩
        rw [Except.error.inj he] at hchecks
        exact checkRefresh_not_raised hchecks
      | ok =>
        rw [and_iff_right rfl, ← @mint_raised_iff p draw db client.clientId row.accountId
          row.resource row.scope]
        cases db.isActive row.accountId with
        | false => exact iff_of_false nofun fun h ↦ by cases h.1
        | true =>
          rw [if_pos rfl, and_iff_right rfl]
          rcases mint p draw db client.clientId row.accountId row.resource row.scope with
            ⟨f | body, minted⟩
          · rfl
          · exact iff_of_false nofun nofun

theorem answerReuse_raised_iff {body : Txn TokenBody} :
    (∃ e, (answerReuse draw (transaction db body)).1 = .error (.raised e)) ↔
      ∃ e, body.1 = .error (.failure (.raised e)) := by
  obtain ⟨outcome, written⟩ := body
  cases outcome with
  | ok value => exact iff_of_false nofun nofun
  | error f =>
    cases f with
    | failure f =>
      simp [transaction, answerReuse]
    | reuse clientId accountId message => exact iff_of_false nofun nofun

theorem exchangeCode_of_given {client : ClientRow} {code verifier : Str}
    (hcode : given form.code = some code) (hverifier : given form.codeVerifier = some verifier) :
    exchangeCode p draw db client form = answerReuse draw (transaction db
      (exchangeBody p draw db client code form.redirectUri verifier form.resource)) := by
  rw [exchangeCode, hcode, hverifier]

theorem rotateRefresh_of_given {client : ClientRow} {refreshToken : Str}
    (hrefresh : given form.refreshToken = some refreshToken) :
    rotateRefresh p draw db client form = answerReuse draw (transaction db
      (rotateBody p draw db client refreshToken form.resource)) := by
  rw [rotateRefresh, hrefresh]

theorem token_of_code {client : ClientRow} (hgrant : form.grantType = str "authorization_code")
    (hauth : authenticateClient p db form = .ok client) :
    token p draw db form = exchangeCode p draw db client form := by
  rw [token, if_pos (.inl hgrant), hauth]
  exact if_pos hgrant

theorem token_of_refresh {client : ClientRow} (hgrant : form.grantType = str "refresh_token")
    (hauth : authenticateClient p db form = .ok client) :
    token p draw db form = rotateRefresh p draw db client form := by
  rw [token, if_pos (.inr hgrant), hauth]
  apply if_neg
  rw [hgrant]
  decide

/-- A request raises exactly when a text that cannot be encoded reaches an encoding, or a hash is
inserted twice. -/
theorem token_raised_iff :
    (∃ e, (token p draw db form).1 = .error (.raised e)) ↔
      Unencodable p draw db form ∨ Repeated p draw db form := by
  constructor
  · rintro ⟨e, he⟩
    rw [token] at he
    split at he
    · next hgrant =>
      split at he
      · next f hf =>
        rw [Except.error.inj he] at hf
        rcases authenticateClient_raised_iff.mp ⟨e, hf⟩ with
          ⟨id, hid, hbad⟩ | ⟨client, stored, secret, hclient, hstored, hsecret, hbad⟩
        · exact .inl (.clientId hgrant hid hbad)
        · exact .inl (.secret hgrant hclient hstored hsecret hbad)
      · next client hauth =>
        split at he
        · next hcodeGrant =>
          unfold exchangeCode at he
          split at he
          · next code verifier hcode hverifier =>
            rcases exchangeBody_raised_iff.mp (answerReuse_raised_iff.mp ⟨e, he⟩) with
              hbad | ⟨hparameter, row, hrow, ⟨hchecks, hbad⟩ | ⟨hchecks, hactive, hbad⟩⟩
            · exact .inl (.code hcodeGrant hauth hcode hverifier hbad)
            · exact .inl (.verifier hcodeGrant hauth hcode hverifier hparameter hrow hchecks hbad)
            · exact .inr (.code hcodeGrant hauth hcode hverifier hparameter hrow hchecks hactive
                hbad)
          · cases he
        · next hnot =>
          unfold rotateRefresh at he
          split at he
          · next refreshToken hrefresh =>
            rcases rotateBody_raised_iff.mp (answerReuse_raised_iff.mp ⟨e, he⟩) with
              hbad | ⟨hash, hhash, row, hrow, hchecks, hactive, hbad⟩
            · exact .inl (.refresh (hgrant.resolve_left hnot) hauth hrefresh hbad)
            · exact .inr (.refresh (hgrant.resolve_left hnot) hauth hrefresh hhash hrow hchecks
                hactive hbad)
          · cases he
    · cases he
  · intro h
    rcases h with h | h
    · cases h with
      | clientId hgrant hid hbad =>
        obtain ⟨e, he⟩ := (authenticateClient_raised_iff (p := p)).mpr (.inl ⟨_, hid, hbad⟩)
        rw [token, if_pos hgrant, he]
        exact ⟨e, rfl⟩
      | secret hgrant hclient hstored hsecret hbad =>
        obtain ⟨e, he⟩ := (authenticateClient_raised_iff (p := p)).mpr
          (.inr ⟨_, _, _, hclient, hstored, hsecret, hbad⟩)
        rw [token, if_pos hgrant, he]
        exact ⟨e, rfl⟩
      | code hgrant hauth hcode hverifier hbad =>
        rw [token_of_code hgrant hauth, exchangeCode_of_given hcode hverifier]
        exact answerReuse_raised_iff.mpr (exchangeBody_raised_iff.mpr (.inl hbad))
      | verifier hgrant hauth hcode hverifier hparameter hrow hchecks hbad =>
        rw [token_of_code hgrant hauth, exchangeCode_of_given hcode hverifier]
        exact answerReuse_raised_iff.mpr (exchangeBody_raised_iff.mpr
          (.inr ⟨hparameter, _, hrow, .inl ⟨hchecks, hbad⟩⟩))
      | refresh hgrant hauth hrefresh hbad =>
        rw [token_of_refresh hgrant hauth, rotateRefresh_of_given hrefresh]
        exact answerReuse_raised_iff.mpr (rotateBody_raised_iff.mpr (.inl hbad))
    · cases h with
      | code hgrant hauth hcode hverifier hparameter hrow hchecks hactive hbad =>
        rw [token_of_code hgrant hauth, exchangeCode_of_given hcode hverifier]
        exact answerReuse_raised_iff.mpr (exchangeBody_raised_iff.mpr
          (.inr ⟨hparameter, _, hrow, .inr ⟨hchecks, hactive, hbad⟩⟩))
      | refresh hgrant hauth hrefresh hhash hrow hchecks hactive hbad =>
        rw [token_of_refresh hgrant hauth, rotateRefresh_of_given hrefresh]
        exact answerReuse_raised_iff.mpr (rotateBody_raised_iff.mpr
          (.inr ⟨_, hhash, _, hrow, hchecks, hactive, hbad⟩))

/-! ## What is left of the tables -/

/-- A replay is answered with `invalid_grant`, and the family is revoked. -/
theorem token_of_replays {clientId : Str} {accountId : ℤ}
    (h : Replays p db form clientId accountId) :
    ∃ message, token p draw db form =
      (.error (invalidGrant message), revokeFamily draw db clientId accountId) := by
  cases h with
  | @code client code verifier row hgrant hauth hcode hverifier hparameter hrow hclient hused =>
    refine ⟨str "authorization code has already been used", ?_⟩
    rw [token_of_code hgrant hauth, exchangeCode_of_given hcode hverifier, exchangeBody,
      if_neg (by simp [hparameter]), hrow]
    dsimp only
    rw [Provider.checkCode, Provider.checkCodeRow, if_neg (not_not_intro hclient), if_pos hused]
    rfl
  | @refresh client refreshToken hash row hgrant hauth hrefresh hhash hrow hclient hrotated =>
    refine ⟨str "refresh token has already been used", ?_⟩
    rw [token_of_refresh hgrant hauth, rotateRefresh_of_given hrefresh, rotateBody, hhash]
    dsimp only
    rw [hrow]
    dsimp only
    rw [Provider.checkRefresh, if_neg (not_not_intro hclient), if_pos hrotated]
    rfl

theorem checkCode_reuse {now : ℤ} {clientId clientId' : Str} {row : CodeRow}
    {redirectUri : Option Str} {verifier : Str} {resource : Option Str} {accountId : ℤ}
    {message : Str} (h : p.checkCode now clientId row redirectUri verifier resource =
      .error (.reuse clientId' accountId message)) :
    row.clientId = clientId ∧ row.usedAt.isSome = true := by
  unfold Provider.checkCode at h
  split at h
  · next f hf =>
    rw [Except.error.inj h] at hf
    unfold Provider.checkCodeRow at hf
    split_ifs at hf with hclient hused
    · cases hf
    · exact ⟨not_not.mp hclient, hused⟩
    · cases hf
    · cases hf
  · split at h
    · cases h
    · cases h
    · obtain ⟨failure, hfailure, -⟩ := checkGrantResource_not_raised h
      cases hfailure

theorem checkRefresh_reuse {now : ℤ} {clientId clientId' : Str} {row : TokenRow}
    {resource : Option Str} {accountId : ℤ} {message : Str}
    (h : p.checkRefresh now clientId row resource =
      .error (.reuse clientId' accountId message)) :
    row.clientId = some clientId ∧ row.rotatedTo.isSome = true := by
  unfold Provider.checkRefresh at h
  split_ifs at h with hclient hrotated
  · cases h
  · exact ⟨not_not.mp hclient, hrotated⟩
  · cases h
  · cases h
  · obtain ⟨failure, hfailure, -⟩ := checkGrantResource_not_raised h
    cases hfailure

/-- A failed transaction leaves the tables, or it found a replay. -/
theorem answerReuse_of_error {body : Txn TokenBody} {f : Failure}
    (h : (answerReuse draw (transaction db body)).1 = .error f) :
    (answerReuse draw (transaction db body)).2 = db ∨
      ∃ clientId accountId message, body.1 = .error (.reuse clientId accountId message) := by
  obtain ⟨outcome, written⟩ := body
  cases outcome with
  | ok value => cases h
  | error g =>
    cases g with
    | failure g => exact .inl rfl
    | reuse clientId accountId message => exact .inr ⟨clientId, accountId, message, rfl⟩

theorem mint_not_reuse {clientId clientId' : Str} {accountId accountId' : ℤ}
    {resource scope : Option Str} {message : Str} :
    (mint p draw db clientId accountId resource scope).1 ≠
      .error (.reuse clientId' accountId' message) := by
  intro h
  unfold mint at h
  split at h
  · cases h
  · cases h
  · split at h <;> cases h

/-- An exchange finds a replay on a used code only. -/
theorem exchangeBody_reuse {client : ClientRow} {code verifier clientId message : Str}
    {redirectUri resource : Option Str} {accountId : ℤ}
    (h : (exchangeBody p draw db client code redirectUri verifier resource).1 =
      .error (.reuse clientId accountId message)) :
    isParameter code = true ∧ ∃ row, (db.codes.find? fun row ↦ row.code == code) = some row ∧
      row.clientId = client.clientId ∧ row.usedAt.isSome = true := by
  unfold exchangeBody at h
  split at h
  · cases h
  · next hparameter =>
    rw [Bool.not_eq_false] at hparameter
    split at h
    · cases h
    · next row hrow =>
      refine ⟨hparameter, row, hrow, ?_⟩
      split at h
      · next g hchecks =>
        rw [Except.error.inj h] at hchecks
        exact checkCode_reuse hchecks
      · dsimp only at h
        split at h
        · exact absurd h mint_not_reuse
        · cases h

/-- A rotation finds a replay on a rotated token only. -/
theorem rotateBody_reuse {client : ClientRow} {refreshToken clientId message : Str}
    {resource : Option Str} {accountId : ℤ}
    (h : (rotateBody p draw db client refreshToken resource).1 =
      .error (.reuse clientId accountId message)) :
    ∃ hash, p.hashToken refreshToken = .ok hash ∧
      ∃ row, (db.tokens.find? fun row ↦ row.tokenHash == hash && row.kind == .refresh) =
          some row ∧
        row.clientId = some client.clientId ∧ row.rotatedTo.isSome = true := by
  unfold rotateBody at h
  split at h
  · cases h
  · next hash hhash =>
    split at h
    · cases h
    · next row hrow =>
      refine ⟨hash, hhash, row, hrow, ?_⟩
      split at h
      · next g hchecks =>
        rw [Except.error.inj h] at hchecks
        exact checkRefresh_reuse hchecks
      · split at h
        · split at h
          · next hmint =>
            have hminted := @mint_not_reuse p draw db client.clientId clientId row.accountId
              accountId row.resource row.scope message
            rw [hmint] at hminted
            exact absurd h hminted
          · cases h
        · cases h

/-- A request that fails leaves the tables, or it is a replay. -/
theorem token_of_error {f : Failure} (h : (token p draw db form).1 = .error f) :
    (token p draw db form).2 = db ∨
      ∃ clientId accountId, Replays p db form clientId accountId := by
  unfold token at h ⊢
  split at h
  · next hgrant =>
    rw [if_pos hgrant]
    split at h
    · exact .inl rfl
    · next client hauth =>
      split at h
      · next hcodeGrant =>
        rw [if_pos hcodeGrant]
        unfold exchangeCode at h ⊢
        split at h
        · next code verifier hcode hverifier =>
          apply (answerReuse_of_error h).imp_right
          rintro ⟨clientId, accountId, message, hreuse⟩
          obtain ⟨hparameter, row, hrow, hclient, hused⟩ := exchangeBody_reuse hreuse
          exact ⟨_, _, .code hcodeGrant hauth hcode hverifier hparameter hrow hclient hused⟩
        · exact .inl rfl
      · next hnot =>
        rw [if_neg hnot]
        unfold rotateRefresh at h ⊢
        split at h
        · next refreshToken hrefresh =>
          apply (answerReuse_of_error h).imp_right
          rintro ⟨clientId, accountId, message, hreuse⟩
          obtain ⟨hash, hhash, row, hrow, hclient, hrotated⟩ := rotateBody_reuse hreuse
          exact ⟨_, _, .refresh (hgrant.resolve_left hnot) hauth hrefresh hhash hrow hclient
            hrotated⟩
        · exact .inl rfl
  · next hgrant =>
    rw [if_neg hgrant]
    exact .inl rfl

theorem revokeFamily_revokedOnly (clientId : Str) (accountId : ℤ) :
    List.Forall₂ (RevokedOnly clientId accountId) db.tokens
      (revokeFamily draw db clientId accountId).tokens := by
  unfold revokeFamily
  rw [List.forall₂_map_right_iff, List.forall₂_same]
  intro row _
  unfold RevokedOnly
  split
  · exact ⟨draw.dbNow, rfl⟩
  · rfl

/-- What a failed request leaves, whatever it fails with. -/
theorem token_kept {f : Failure} (h : (token p draw db form).1 = .error f) :
    Kept p db form (token p draw db form).2 where
  codes := by
    rcases token_of_error h with hsame | ⟨clientId, accountId, hreplays⟩
    · rw [hsame]
    · obtain ⟨message, htoken⟩ := @token_of_replays p draw db form _ _ hreplays
      rw [htoken]
      rfl
  replay clientId accountId hreplays := by
    obtain ⟨message, htoken⟩ := @token_of_replays p draw db form _ _ hreplays
    rw [htoken]
    exact revokeFamily_revokedOnly clientId accountId
  other hnone := by
    rcases token_of_error h with hsame | hreplays
    · rw [hsame]
    · exact absurd hreplays hnone

/-- A request to the token endpoint is atomic exactly when no text that cannot be encoded reaches a
query, a hash or the comparison of digests and no hash is inserted twice; the tables are kept in any
case. -/
theorem token_atomic_iff (p : Provider) (draw : Draw) (db : Db) (form : TokenForm) :
    (Atomic p draw db form ↔ ¬ Unencodable p draw db form ∧ ¬ Repeated p draw db form) ∧
      ∀ f, (token p draw db form).1 = .error f → Kept p db form (token p draw db form).2 := by
  refine ⟨?_, fun f h ↦ token_kept h⟩
  rw [← not_or, ← token_raised_iff]
  constructor
  · rintro hatomic ⟨e, he⟩
    cases (hatomic _ he).1
  · intro hraised f h
    refine ⟨?_, token_kept h⟩
    cases f with
    | oauth error description status => rfl
    | raised e => exact absurd ⟨e, h⟩ hraised

/-! ## A verifier outside ASCII -/

/-- A public client with a code that has not been used. -/
def issuedCode : Db where
  clients := [{ clientId := str "mcp-desktop", secretHash := none }]
  accounts := [{ id := 1, disabled := false }]
  codes := [
    { code := str "SplxlOBeZQQYbYS6WxSbIA"
      clientId := str "mcp-desktop"
      accountId := 1
      redirectUri := str "http://localhost/cb"
      codeChallenge := sampleChallenge
      resource := none
      scope := some (str "mcp")
      expiresAt := 300000000 }]
  tokens := []
  nextId := 1

/-- The code is presented with the verifier `é`. -/
def accentedForm : TokenForm where
  grantType := str "authorization_code"
  code := some (str "SplxlOBeZQQYbYS6WxSbIA")
  redirectUri := some (str "http://localhost/cb")
  codeVerifier := some (str "é")
  clientId := some (str "mcp-desktop")

def sampleDraw : Draw where
  access := str "a0"
  refresh := str "r0"
  now := 0
  dbNow := 0

theorem accentedForm_not_atomic : ¬ Atomic sampleProvider sampleDraw issuedCode accentedForm := by
  intro hatomic
  have hraised : (token sampleProvider sampleDraw issuedCode accentedForm).1 =
      .error (.raised (.raised .unicodeError (str "ordinal not in range(128)"))) := by
    decide +kernel
  cases (hatomic _ hraised).1

end DatumSync.OAuth
