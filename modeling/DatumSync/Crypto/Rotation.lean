import DatumSync.Crypto.Seal

/-!
# Sealed values across changes of the environment

The environment changes in any way between calls of `seal`, and any name and any bytes may then be
opened.  A value is returned for what was sealed for the name under material the environment holds
under the id, but the id is the byte in front, which is not authenticated: where two ids hold the
same material, that byte can be exchanged.
-/

namespace DatumSync.Crypto

open Foundation Python

variable {py : Interpreter} (gcm : Gcm)

/-- A call of `seal` that returned: its name and its payload, and what it made. -/
structure Record (py : Interpreter) where
  name : Str
  payload : Payload py
  value : Sealed

/-- The environment, and what was sealed so far. -/
structure State (py : Interpreter) where
  env : Environment
  records : List (Record py) := []

/-- The environment changes, or `seal` is called with the nonce it draws. -/
inductive Action (py : Interpreter) where
  | setEnv (env : Environment)
  | sealing (nonce : Nonce) (name : Str) (payload : Payload py)

def State.step (s : State py) : Action py → State py
  | .setEnv env => { s with env := env }
  | .sealing nonce name payload =>
    match sealCall s.env nonce name payload with
    | .ok value => { s with records := s.records ++ [⟨name, payload, value⟩] }
    | .error _ => s

def State.run (s : State py) (actions : List (Action py)) : State py := actions.foldl State.step s

theorem State.run_append (s : State py) (first : List (Action py)) (a : Action py)
    (later : List (Action py)) :
    s.run (first ++ a :: later) = ((s.run first).step a).run later := by
  rw [State.run, List.foldl_append, List.foldl_cons]
  rfl

def State.calls (s : State py) : List (Encryption Material Bytes Bytes Bytes) :=
  s.records.map fun r ↦ r.value.call

/-- `open_(name, blob)` in the state. -/
def State.opens (s : State py) (name : Str) (blob : Bytes) : Except Raised Json :=
  open_ gcm py s.calls s.env name blob

/-! ## Records -/

/-- Every record is what `seal` makes for its name and its payload. -/
def State.Recorded (s : State py) : Prop := ∀ r ∈ s.records, r.value.For r.name r.payload

theorem State.Recorded.step {s : State py} (h : s.Recorded) (a : Action py) :
    (s.step a).Recorded := by
  cases a with
  | setEnv env => exact h
  | sealing nonce name payload =>
    rw [State.step]
    cases hcall : sealCall s.env nonce name payload with
    | error e => exact h
    | ok value =>
      intro r hr
      rcases List.mem_append.mp hr with hr | hr
      · exact h r hr
      · rw [List.mem_singleton.mp hr]
        exact (sealCall_eq_ok hcall).1

/-- Whatever the environment was made to be between them. -/
theorem State.Recorded.run {s : State py} (h : s.Recorded) (actions : List (Action py)) :
    (s.run actions).Recorded := by
  induction actions generalizing s with
  | nil => exact h
  | cons a rest ih => exact ih (h.step a)

theorem State.mem_run {s : State py} {r : Record py} (h : r ∈ s.records)
    (actions : List (Action py)) : r ∈ (s.run actions).records := by
  induction actions generalizing s with
  | nil => exact h
  | cons a rest ih =>
    refine ih ?_
    cases a with
    | setEnv env => exact h
    | sealing nonce name payload =>
      rw [State.step]
      cases sealCall s.env nonce name payload with
      | error e => exact h
      | ok value => exact List.mem_append_left _ h

/-- What `seal` returns is recorded, with the current key. -/
theorem recorded_of_sealValue {s : State py} {nonce : Nonce} {name : Str} {payload : Payload py}
    {blob : Bytes} (h : sealValue gcm s.env nonce name payload = .ok blob) :
    ∃ value : Sealed, ⟨name, payload, value⟩ ∈ (s.step (.sealing nonce name payload)).records ∧
      value.blob gcm = blob ∧ currentKeyId s.env = .ok value.keyId ∧
      s.env.Holds value.keyId value.call.key := by
  rw [sealValue] at h
  cases hcall : sealCall s.env nonce name payload with
  | error e =>
    rw [hcall] at h
    cases h
  | ok value =>
    rw [hcall] at h
    cases h
    obtain ⟨-, hkeyId, hkey⟩ := sealCall_eq_ok hcall
    refine ⟨value, ?_, rfl, hkeyId, hkey⟩
    rw [State.step, hcall]
    exact List.mem_append_right _ (List.mem_singleton_self _)

/-- What follows the id of a record. -/
theorem blob_tail (value : Sealed) :
    (value.blob gcm).tail = value.call.nonce ++ gcm.ciphertext value.call := rfl

theorem blob_head {value : Sealed} (h : value.keyId ≤ maxKeyId) :
    ((value.blob gcm).headD 0).toNat = value.keyId := by
  have hbyte : value.keyId < 256 := by
    rw [maxKeyId] at h
    omega
  exact toNat_ofNat hbyte

/-- Two records with the same bytes after the id come from the same call of `encrypt`. -/
theorem call_eq_of_tail {s t : Sealed} (hs : s.call.nonce.length = nonceBytes)
    (ht : t.call.nonce.length = nonceBytes)
    (h : (s.blob gcm).tail = (t.blob gcm).tail) : s.call = t.call := by
  rw [blob_tail, blob_tail] at h
  have hcipher := (List.append_inj h (hs.trans ht.symm)).2
  obtain ⟨hkey, hnonce, hplaintext, hdata⟩ := gcm.injective hcipher
  exact Encryption.ext hkey hnonce hplaintext hdata

/-! ## Opening -/

/-- `open_` decrypts: the bytes are long enough, and the environment holds a key under the id. -/
def Reaches (env : Environment) (blob : Bytes) : Prop :=
  keyIdBytes + nonceBytes < blob.length ∧ ∃ key, env.Holds (blob.headD 0).toNat key

/-- A record for the name with the bytes after the id, under the material the environment holds
under the id. -/
def Matches (s : State py) (name : Str) (blob : Bytes) (r : Record py) : Prop :=
  r ∈ s.records ∧ r.name = name ∧ (r.value.blob gcm).tail = blob.tail ∧
    s.env.Holds (blob.headD 0).toNat r.value.call.key

variable {gcm} {s : State py} {name : Str} {blob : Bytes}

/-- `open_` where it does not decrypt raises a `CryptoError`. -/
theorem opens_of_not_reaches (gcm : Gcm) (name : Str) (h : ¬ Reaches s.env blob) :
    ∃ e, s.opens gcm name blob = .error (.crypto e) := by
  rw [State.opens, open_]
  split
  · exact ⟨_, rfl⟩
  · next hlength =>
    cases hkeys : loadKeys s.env with
    | error e => exact ⟨e, rfl⟩
    | ok keys =>
      dsimp only
      cases hlookup : keys.lookup (blob.headD 0).toNat with
      | none => exact ⟨_, rfl⟩
      | some key => exact absurd ⟨not_le.mp hlength, key, keys, hkeys, hlookup⟩ h

/-- `open_` where it decrypts. -/
theorem opens_of_holds (gcm : Gcm) (name : Str)
    (hlength : keyIdBytes + nonceBytes < blob.length) {key : Material}
    (hkey : s.env.Holds (blob.headD 0).toNat key) :
    s.opens gcm name blob =
      match encodeUtf8 name with
      | none => .error .unicodeEncodeError
      | some data =>
        match gcm.decrypt s.calls key (blob.tail.take nonceBytes) (blob.tail.drop nonceBytes)
          data with
        | none => .error (.crypto (.cannotOpen name))
        | some plaintext => (jsonLoadsBytes py.depth plaintext).mapError .load := by
  obtain ⟨keys, hkeys, hlookup⟩ := hkey
  have htail : blob.drop keyIdBytes = blob.tail := List.drop_one
  have hct : blob.drop (keyIdBytes + nonceBytes) = blob.tail.drop nonceBytes := by
    rw [← htail, List.drop_drop]
  rw [State.opens, open_, if_neg (not_le.mpr hlength), hkeys]
  dsimp only
  rw [hlookup]
  dsimp only
  rw [htail, hct, aad, encoded]
  cases encodeUtf8 name <;> rfl

/-- What `open_` returns is the payload of a matching record. -/
theorem matches_of_opens (hs : s.Recorded) {v : Json} (h : s.opens gcm name blob = .ok v) :
    ∃ r, Matches gcm s name blob r ∧ v = .obj r.payload.fields := by
  by_cases hreaches : Reaches s.env blob
  · obtain ⟨hlength, key, hkey⟩ := hreaches
    rw [opens_of_holds gcm _ hlength hkey] at h
    cases hdata : encodeUtf8 name with
    | none =>
      rw [hdata] at h
      cases h
    | some data =>
      rw [hdata] at h
      dsimp only at h
      cases hdecrypt : gcm.decrypt s.calls key (blob.tail.take nonceBytes)
          (blob.tail.drop nonceBytes) data with
      | none =>
        rw [hdecrypt] at h
        cases h
      | some plaintext =>
        rw [hdecrypt] at h
        obtain ⟨hmem, hcipher⟩ := IdealAead.mem_of_decrypt hdecrypt
        obtain ⟨r, hr, hcall⟩ := List.mem_map.mp hmem
        have hfor := hs r hr
        have hplaintext := hfor.plaintext
        rw [hcall] at hplaintext
        dsimp only at h
        rw [jsonLoadsBytes_payloadText hplaintext] at h
        have hname : r.name = name := by
          refine encodeUtf8_injective hfor.data ?_
          rw [hcall, hdata]
        have htail : (r.value.blob gcm).tail = blob.tail := by
          rw [blob_tail, hcall, IdealAead.ciphertext, hcipher, List.take_append_drop]
        cases h
        refine ⟨r, ⟨hr, hname, htail, ?_⟩, rfl⟩
        rwa [hcall]
  · obtain ⟨e, he⟩ := opens_of_not_reaches gcm name hreaches
    rw [he] at h
    cases h

/-- A record is decrypted: its bytes are long enough and its material is held. -/
theorem Matches.reaches (hs : s.Recorded) {r : Record py} (h : Matches gcm s name blob r) :
    keyIdBytes + nonceBytes < blob.length := by
  obtain ⟨hr, -, htail, -⟩ := h
  have hlength := congrArg List.length htail
  have htagged := gcm.tagged r.value.call.key r.value.call.nonce r.value.call.plaintext
    r.value.call.data
  rw [blob_tail, List.length_append, (hs r hr).nonce_length, List.length_tail,
    IdealAead.ciphertext] at hlength
  rw [keyIdBytes]
  omega

/-- A matching record is opened. -/
theorem Matches.opens (hs : s.Recorded) {r : Record py} (h : Matches gcm s name blob r) :
    s.opens gcm name blob = .ok (.obj r.payload.fields) := by
  have hlength := h.reaches hs
  obtain ⟨hr, rfl, htail, hkey⟩ := h
  have hfor := hs r hr
  have hcall : r.value.call ∈ s.calls := List.mem_map_of_mem hr
  have hdecrypt := IdealAead.decrypt_ciphertext gcm.toIdealAead hcall
  rw [opens_of_holds gcm _ hlength hkey, hfor.data]
  dsimp only
  rw [← htail, blob_tail, List.take_left' hfor.nonce_length, List.drop_left' hfor.nonce_length,
    hdecrypt]
  dsimp only
  rw [jsonLoadsBytes_payloadText hfor.plaintext]
  rfl

/-- What was sealed while `keyId` was the current id opens after any further changes that leave the
material available under the id. -/
theorem opens_of_sealValue (hs : s.Recorded) {nonce : Nonce} {payload : Payload py}
    (hseal : sealValue gcm s.env nonce name payload = .ok blob) {keyId : ℕ} {key : Material}
    (hcurrent : currentKeyId s.env = .ok keyId) (hkey : s.env.Holds keyId key)
    {later : List (Action py)}
    (hheld : ((s.step (.sealing nonce name payload)).run later).env.Holds keyId key) :
    ((s.step (.sealing nonce name payload)).run later).opens gcm name blob =
      .ok (.obj payload.fields) := by
  obtain ⟨value, hmem, rfl, hkeyId, hvalue⟩ := recorded_of_sealValue gcm hseal
  rw [hcurrent, Except.ok.injEq] at hkeyId
  rw [hkeyId] at hkey hheld
  have hs' := (hs.step (.sealing nonce name payload)).run later
  have hmem' := State.mem_run hmem later
  refine Matches.opens hs' ⟨hmem', rfl, rfl, ?_⟩
  rw [blob_head gcm (hs' _ hmem').keyId_le]
  rwa [hvalue.unique hkey]

/-- Any error but a `CryptoError` is that of a name without bytes. -/
theorem crypto_of_opens (hs : s.Recorded) (hname : Reaches s.env blob → (encodeUtf8 name).isSome)
    {e : Raised} (h : s.opens gcm name blob = .error e) : ∃ c, e = .crypto c := by
  by_cases hreaches : Reaches s.env blob
  · obtain ⟨data, hdata⟩ := Option.isSome_iff_exists.mp (hname hreaches)
    obtain ⟨hlength, key, hkey⟩ := hreaches
    have hopens := opens_of_holds gcm name hlength hkey
    rw [hdata] at hopens
    dsimp only at hopens
    cases hdecrypt : gcm.decrypt s.calls key (blob.tail.take nonceBytes)
        (blob.tail.drop nonceBytes) data with
    | none =>
      rw [hopens, hdecrypt] at h
      cases h
      exact ⟨_, rfl⟩
    | some plaintext =>
      obtain ⟨hmem, -⟩ := IdealAead.mem_of_decrypt hdecrypt
      obtain ⟨r, hr, hcall⟩ := List.mem_map.mp hmem
      have hplaintext := (hs r hr).plaintext
      rw [hcall] at hplaintext
      rw [hopens, hdecrypt] at h
      dsimp only at h
      rw [jsonLoadsBytes_payloadText hplaintext] at h
      cases h
  · obtain ⟨c, hc⟩ := opens_of_not_reaches gcm name hreaches
    rw [hc] at h
    cases h
    exact ⟨c, rfl⟩

/-! ## What sealing promises -/

/-- What is sealed for a name opens under the name, as long as its material is held under its id;
everything else raises a `CryptoError`. -/
structure OpensOwn (gcm : Gcm) (s : State py) (name : Str) (blob : Bytes) : Prop where
  opens : ∀ r ∈ s.records, r.name = name → r.value.blob gcm = blob →
    s.env.Holds r.value.keyId r.value.call.key →
    s.opens gcm name blob = .ok (.obj r.payload.fields)
  returns : ∀ v, s.opens gcm name blob = .ok v → ∃ r ∈ s.records, r.name = name ∧
    r.value.blob gcm = blob ∧ s.env.Holds r.value.keyId r.value.call.key ∧
    v = .obj r.payload.fields
  raises : ∀ e, s.opens gcm name blob = .error e → ∃ c, e = .crypto c

/-- The name has bytes where they are asked for, and where the bytes after the id were sealed for
the name under material that is held under the id, they were sealed with this id. -/
structure Unmixed (gcm : Gcm) (s : State py) (name : Str) (blob : Bytes) : Prop where
  name_encodes : Reaches s.env blob → (encodeUtf8 name).isSome
  id_own : ∀ r, Matches gcm s name blob r → ∃ t ∈ s.records, t.name = name ∧
    t.value.blob gcm = blob

theorem opensOwn_iff (hs : s.Recorded) (name : Str) (blob : Bytes) :
    OpensOwn gcm s name blob ↔ Unmixed gcm s name blob := by
  constructor
  · intro h
    constructor
    · intro hreaches
      by_contra hnone
      rw [Option.not_isSome_iff_eq_none] at hnone
      obtain ⟨hlength, key, hkey⟩ := hreaches
      have hopens := opens_of_holds gcm name hlength hkey
      rw [hnone] at hopens
      obtain ⟨c, hc⟩ := h.raises _ hopens
      cases hc
    · intro r hr
      obtain ⟨t, ht, hname, hblob, -, -⟩ := h.returns _ (hr.opens hs)
      exact ⟨t, ht, hname, hblob⟩
  · intro h
    refine ⟨?_, ?_, fun e ↦ crypto_of_opens hs h.name_encodes⟩
    · rintro r hr hname rfl hkey
      refine Matches.opens hs ⟨hr, hname, rfl, ?_⟩
      rwa [blob_head gcm (hs r hr).keyId_le]
    · intro v hv
      obtain ⟨r, hr, rfl⟩ := matches_of_opens hs hv
      obtain ⟨t, ht, hname, rfl⟩ := h.id_own r hr
      obtain ⟨hmem, -, htail, hkey⟩ := hr
      have hcall := call_eq_of_tail gcm (hs r hmem).nonce_length (hs t ht).nonce_length htail
      rw [blob_head gcm (hs t ht).keyId_le, hcall] at hkey
      have hown : Matches gcm s name (t.value.blob gcm) t := by
        refine ⟨ht, hname, rfl, ?_⟩
        rwa [blob_head gcm (hs t ht).keyId_le]
      have hsame := (hown.opens hs).symm.trans hv
      exact ⟨t, ht, hname, rfl, hkey, (Except.ok.inj hsame).symm⟩

/-- Where no id holds the material under which another id has sealed, ids are not mixed up. -/
theorem Unmixed.of_ids {s : State py} (hs : s.Recorded) (hname : (encodeUtf8 name).isSome)
    (hids : ∀ r ∈ s.records, ∀ keyId, s.env.Holds keyId r.value.call.key →
      keyId = r.value.keyId) (blob : Bytes) : Unmixed gcm s name blob := by
  refine ⟨fun _ ↦ hname, fun r hr ↦ ?_⟩
  have hlength := hr.reaches hs
  obtain ⟨hmem, hrname, htail, hkey⟩ := hr
  refine ⟨r, hmem, hrname, ?_⟩
  cases blob with
  | nil => exact absurd hlength (Nat.not_lt_zero _)
  | cons b rest =>
    have hb : b = UInt8.ofNat r.value.keyId := by
      rw [← hids r hmem _ hkey]
      exact UInt8.ofNat_toNat.symm
    rw [hb]
    exact congrArg (UInt8.ofNat r.value.keyId :: ·) htail

/-- After any changes of the environment and any calls of `seal`, what `seal` returns opens for as
long as the material is available under its id; opening keeps its promise for just the names and
bytes that are not mixed up; and the keyring of an environment does not depend on its order exactly
when a variable is refused or no id is spelt twice with different material. -/
theorem rotation_iff (gcm : Gcm) (env : Environment) (actions : List (Action py)) :
    (∀ nonce name (payload : Payload py) blob keyId key later (t : State py),
        sealValue gcm (State.run ⟨env, []⟩ actions).env nonce name payload = .ok blob →
        currentKeyId (State.run ⟨env, []⟩ actions).env = .ok keyId →
        (State.run ⟨env, []⟩ actions).env.Holds keyId key →
        t = State.run ⟨env, []⟩ (actions ++ .sealing nonce name payload :: later) →
        t.env.Holds keyId key → t.opens gcm name blob = .ok (.obj payload.fields)) ∧
      (∀ name blob, OpensOwn gcm (State.run ⟨env, []⟩ actions) name blob ↔
        Unmixed gcm (State.run ⟨env, []⟩ actions) name blob) ∧
      ∀ environ : Environment, OrderFree environ ↔
        Refused readVariable environ.items ∨ SingleValued readVariable environ.items := by
  have hstart : State.Recorded (⟨env, []⟩ : State py) := fun r hr ↦ absurd hr List.not_mem_nil
  refine ⟨?_, opensOwn_iff (hstart.run actions), orderFree_iff⟩
  rintro nonce name payload blob keyId key later t hseal hcurrent hkey rfl hheld
  rw [State.run_append] at hheld ⊢
  exact opens_of_sealValue (hstart.run actions) hseal hcurrent hkey hheld

/-! ## Ids spelt twice and material held twice -/

/-- The base64 of thirty-two zero bytes. -/
def zeroKeyText : Str := str "AAAAAAAAAAAAAAAAAAAAAAAAAAAAAAAAAAAAAAAAAAA="

def zeroKey : Material := ⟨List.replicate 32 0, by decide⟩

def onesKey : Material := ⟨List.replicate 32 0xFF, by decide⟩

/-- The id 1 spelt in two ways, with different material. -/
def spelledTwice : Environment where
  items :=
    [(keyEnvPrefix ++ str "1", zeroKeyText),
      (keyEnvPrefix ++ str "01", str "__________________________________________8=")]
  nodup := by decide +kernel

/-- Two ids with the same material. -/
def sharedMaterial : Environment where
  items := [(keyEnvPrefix ++ str "1", zeroKeyText), (keyEnvPrefix ++ str "2", zeroKeyText),
    (currentKeyEnv, str "1")]
  nodup := by decide +kernel

theorem sharedMaterial_holds {keyId : ℕ} (h : keyId = 1 ∨ keyId = 2) :
    sharedMaterial.Holds keyId zeroKey := by
  have hkeys : loadKeys sharedMaterial = .ok [(2, zeroKey), (1, zeroKey)] := by decide +kernel
  rcases h with rfl | rfl
  · exact ⟨_, hkeys, rfl⟩
  · exact ⟨_, hkeys, rfl⟩

/-- `{"password": "s3cret"}` -/
def samplePayload (py : Interpreter) (hdepth : 1 ≤ py.depth) : Payload py where
  fields := [(str "password", .text (str "s3cret"))]
  plain := ⟨List.nodup_cons.mpr ⟨List.not_mem_nil, List.nodup_nil⟩, by decide +kernel,
    (by decide +kernel : Unpaired (str "s3cret")), trivial⟩
  shallow := hdepth

def zeroNonce : Nonce := ⟨List.replicate 12 0, by decide⟩

/-- A secret is sealed once with an id whose material another id holds too. -/
def sealedOnce (py : Interpreter) (hdepth : 1 ≤ py.depth) : State py :=
  State.run ⟨sharedMaterial, []⟩
    [.sealing zeroNonce (str "conn") (samplePayload py hdepth)]

/-- What was sealed, and the environment still holds its material under two ids. -/
theorem sealedOnce_records (py : Interpreter) (hdepth : 1 ≤ py.depth) :
    ∃ value : Sealed, (sealedOnce py hdepth).env = sharedMaterial ∧
      (sealedOnce py hdepth).records = [⟨str "conn", samplePayload py hdepth, value⟩] ∧
      value.keyId = 1 ∧ value.call.key = zeroKey := by
  have hcurrent : currentKeyId sharedMaterial = .ok 1 := by decide +kernel
  obtain ⟨data, hdata⟩ : ∃ data, encodeUtf8 (str "conn") = some data :=
    ⟨_, if_neg (by decide +kernel)⟩
  have havailable : available sharedMaterial = true := by decide +kernel
  obtain ⟨value, hcall⟩ := exists_sealCall havailable zeroNonce hdata
    (samplePayload py hdepth)
  obtain ⟨-, hkeyId, hkey⟩ := sealCall_eq_ok hcall
  rw [hcurrent, Except.ok.injEq] at hkeyId
  rw [← hkeyId] at hkey
  refine ⟨value, ?_, ?_, hkeyId.symm, hkey.unique (sharedMaterial_holds (.inl rfl))⟩
  · rw [sealedOnce, State.run, List.foldl_cons, List.foldl_nil, State.step]
    dsimp only
    rw [hcall]
  · rw [sealedOnce, State.run, List.foldl_cons, List.foldl_nil, State.step]
    dsimp only
    rw [hcall]
    rfl

/-- Two variables that spell one id differently leave the keyring to the order of the environment,
and a value whose id byte is exchanged for one with the same material opens. -/
theorem not_rotation : ¬ OrderFree spelledTwice ∧
    ∀ (gcm : Gcm) (py : Interpreter) (hdepth : 1 ≤ py.depth),
      ∃ blob, ¬ OpensOwn gcm (sealedOnce py hdepth) (str "conn") blob := by
  constructor
  · obtain ⟨first, second, hitems, hfirst, hsecond⟩ : ∃ first second,
        spelledTwice.items = [first, second] ∧ readVariable first = some (.ok (1, zeroKey)) ∧
          readVariable second = some (.ok (1, onesKey)) :=
      ⟨_, _, rfl, by decide +kernel, by decide +kernel⟩
    rw [orderFree_iff, hitems]
    rintro (⟨item, hitem, e, he⟩ | hsingle)
    · rcases List.mem_pair.mp hitem with rfl | rfl
      · rw [hfirst] at he
        cases he
      · rw [hsecond] at he
        cases he
    · have hsame := hsingle 1 zeroKey onesKey ⟨first, List.mem_cons_self, hfirst⟩
        ⟨second, List.mem_cons_of_mem _ List.mem_cons_self, hsecond⟩
      exact absurd hsame (by decide)
  · intro gcm py hdepth
    obtain ⟨value, henv, hrecords, hkeyId, hkey⟩ := sealedOnce_records py hdepth
    have hs : (sealedOnce py hdepth).Recorded :=
      State.Recorded.run (fun r hr ↦ absurd hr List.not_mem_nil) _
    refine ⟨2 :: (value.blob gcm).tail, fun h ↦ ?_⟩
    have hmatches : Matches gcm (sealedOnce py hdepth) (str "conn")
        (2 :: (value.blob gcm).tail) ⟨str "conn", samplePayload py hdepth, value⟩ := by
      refine ⟨?_, rfl, rfl, ?_⟩
      · rw [hrecords]
        exact List.mem_singleton_self _
      · rw [henv, hkey]
        exact sharedMaterial_holds (.inr rfl)
    obtain ⟨t, ht, -, hblob⟩ := ((opensOwn_iff hs _ _).mp h).id_own _ hmatches
    rw [hrecords, List.mem_singleton] at ht
    rw [ht, Sealed.blob, hkeyId] at hblob
    exact absurd (List.cons.inj hblob).1 (by decide)

end DatumSync.Crypto
