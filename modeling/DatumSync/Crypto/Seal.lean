import DatumSync.Crypto.Keys
import DatumSync.Foundation.IdealAead
import DatumSync.Python.JsonBytes

/-!
# Sealing and opening a secret

A sealed value is the id of the key, the nonce and the ciphertext with its tag.  The associated data
is the name of the connection.  The id is not part of it: it selects the key and is not
authenticated.
-/

namespace DatumSync.Crypto

open Foundation Python

abbrev Bytes := List UInt8

/-- The size that GCM is defined for. -/
def nonceBytes : ℕ := 12

def keyIdBytes : ℕ := 1

/-- `os.urandom(NONCE_BYTES)` -/
structure Nonce where
  bytes : Bytes
  length_eq : bytes.length = nonceBytes

/-- `AESGCM`, as an ideal AEAD whose ciphertexts end in a tag of sixteen bytes. -/
structure Gcm extends IdealAead Material Bytes Bytes Bytes Bytes where
  tagged : ∀ key nonce plaintext data, 16 ≤ (encrypt key nonce plaintext data).length

/-- A text that ends at its zero, each byte of it after a one. -/
def framed (bytes : Bytes) : Bytes := (bytes.flatMap fun b ↦ [1, b]) ++ [0]

theorem framed_append_inj {s t rest other : Bytes} (h : framed s ++ rest = framed t ++ other) :
    s = t ∧ rest = other := by
  induction s generalizing t with
  | nil =>
    cases t with
    | nil => exact ⟨rfl, (List.cons.inj h).2⟩
    | cons c t => exact absurd (List.cons.inj h).1 (by decide)
  | cons b s ih =>
    cases t with
    | nil => exact absurd (List.cons.inj h).1 (by decide)
    | cons c t =>
      obtain ⟨rfl, htail⟩ := List.cons.inj (List.cons.inj h).2
      obtain ⟨rfl, hrest⟩ := ih htail
      exact ⟨rfl, hrest⟩

/-- A scheme that writes its inputs down hides nothing, but has the properties asked for. -/
instance : Inhabited Gcm where
  default :=
    { encrypt := fun key nonce plaintext data ↦
        List.replicate 16 0 ++
          (framed key.bytes ++ (framed nonce ++ (framed plaintext ++ framed data)))
      injective := by
        intro k k' n n' p p' a a' h
        obtain ⟨hkey, h⟩ := framed_append_inj (List.append_cancel_left h)
        obtain ⟨hnonce, h⟩ := framed_append_inj h
        obtain ⟨hplaintext, h⟩ := framed_append_inj h
        obtain ⟨hdata, -⟩ := framed_append_inj (congrArg (· ++ ([] : Bytes)) h)
        refine ⟨?_, hnonce, hplaintext, hdata⟩
        cases k
        cases k'
        congr
      tagged := fun key nonce plaintext data ↦ by
        rw [List.length_append, List.length_replicate]
        exact Nat.le_add_right 16 _ }

/-- How deep `json` may nest containers, and how Python shows a float. -/
structure Interpreter where
  depth : ℕ
  floatText : PyFloat → Str
  floatText_isAscii : ∀ x, IsAscii (floatText x)

/-- A dict that JSON text can hold, within the limits of the interpreter. -/
structure Payload (py : Interpreter) where
  fields : List (Str × Json)
  plain : (Json.obj fields).Plain py.floatText
  shallow : (Json.obj fields).depth ≤ py.depth

/-- What `seal` and `open_` may raise. -/
inductive Raised where
  | crypto (e : CryptoError)
  | unicodeEncodeError
  | load (e : BytesError)
  deriving DecidableEq

def encoded (text : Str) : Except Raised Bytes :=
  match encodeUtf8 text with
  | some bytes => .ok bytes
  | none => .error .unicodeEncodeError

def aad (name : Str) : Except Raised Bytes := encoded name

variable {py : Interpreter}

/-- `json.dumps(payload, separators=(",", ":"))` -/
def payloadText (payload : Payload py) : Str :=
  dumpsWith (str ",") (str ":") py.floatText (.obj payload.fields)

/-- The id of a key and the call of `encrypt` under the key. -/
structure Sealed where
  keyId : ℕ
  call : Encryption Material Bytes Bytes Bytes

/-- `bytes([kid]) + nonce + AESGCM(key).encrypt(nonce, plaintext, _aad(name))` -/
def Sealed.blob (gcm : Gcm) (s : Sealed) : Bytes :=
  UInt8.ofNat s.keyId :: (s.call.nonce ++ gcm.ciphertext s.call)

/-- `seal(name, payload)` up to the call of `encrypt`. -/
def sealCall (env : Environment) (nonce : Nonce) (name : Str) (payload : Payload py) :
    Except Raised Sealed := do
  let keys ← (loadKeys env).mapError .crypto
  let keyId ← (currentKeyId env).mapError .crypto
  match keys.lookup keyId with
  | none => .error (.crypto (.currentNotLoaded keyId))
  | some key => do
    let plaintext ← encoded (payloadText payload)
    let data ← aad name
    .ok { keyId := keyId, call := ⟨key, nonce.bytes, plaintext, data⟩ }

/-- `seal(name, payload)` -/
def sealValue (gcm : Gcm) (env : Environment) (nonce : Nonce) (name : Str) (payload : Payload py) :
    Except Raised Bytes := (sealCall env nonce name payload).map (Sealed.blob gcm)

/-- `open_(name, blob)` after the calls of `encrypt` so far. -/
def open_ (gcm : Gcm) (py : Interpreter) (calls : List (Encryption Material Bytes Bytes Bytes))
    (env : Environment) (name : Str) (blob : Bytes) : Except Raised Json :=
  if blob.length ≤ keyIdBytes + nonceBytes then .error (.crypto (.truncated name))
  else
    let keyId := (blob.headD 0).toNat
    match loadKeys env with
    | .error e => .error (.crypto e)
    | .ok keys =>
      match keys.lookup keyId with
      | none => .error (.crypto (.keyNotLoaded name keyId))
      | some key =>
        let nonce := (blob.drop keyIdBytes).take nonceBytes
        let ct := blob.drop (keyIdBytes + nonceBytes)
        match aad name with
        | .error e => .error e
        | .ok data =>
          match gcm.decrypt calls key nonce ct data with
          | none => .error (.crypto (.cannotOpen name))
          | some plaintext => (jsonLoadsBytes py.depth plaintext).mapError .load

/-! ## What `seal` makes -/

theorem encoded_eq_ok_iff {text : Str} {bytes : Bytes} :
    encoded text = .ok bytes ↔ encodeUtf8 text = some bytes := by
  rw [encoded]
  cases encodeUtf8 text with
  | none => simp
  | some b => simp

/-- The text of a payload is ASCII, so that it has bytes. -/
theorem exists_encoded_payloadText (payload : Payload py) :
    ∃ bytes, encoded (payloadText payload) = .ok bytes := by
  have hascii : IsAscii (payloadText payload) :=
    dumpsWith_isAscii (by decide) (by decide) py.floatText_isAscii _
  obtain ⟨bytes, hbytes, -⟩ := encodeUtf8_of_isAscii hascii
  exact ⟨bytes, encoded_eq_ok_iff.mpr hbytes⟩

/-- The bytes of a payload are read back as the payload. -/
theorem jsonLoadsBytes_payloadText {payload : Payload py} {plaintext : Bytes}
    (h : encodeUtf8 (payloadText payload) = some plaintext) :
    jsonLoadsBytes py.depth plaintext = .ok (.obj payload.fields) := by
  have hnone : ∀ c ∈ ([] : Str), isBlank c = true := fun _ hc ↦ absurd hc List.not_mem_nil
  exact jsonLoadsBytes_dumpsWith hnone hnone payload.plain payload.shallow h

/-- How a call of `seal` is related to the name and the payload it was made for. -/
structure Sealed.For (s : Sealed) (name : Str) (payload : Payload py) : Prop where
  keyId_le : s.keyId ≤ maxKeyId
  nonce_length : s.call.nonce.length = nonceBytes
  plaintext : encodeUtf8 (payloadText payload) = some s.call.plaintext
  data : encodeUtf8 name = some s.call.data

/-- What `seal` makes: the current key of the environment, for the name and the payload. -/
theorem sealCall_eq_ok {env : Environment} {nonce : Nonce} {name : Str} {payload : Payload py}
    {s : Sealed} (h : sealCall env nonce name payload = .ok s) :
    s.For name payload ∧ currentKeyId env = .ok s.keyId ∧ env.Holds s.keyId s.call.key := by
  rw [sealCall] at h
  cases hkeys : loadKeys env with
  | error e =>
    rw [hkeys] at h
    cases h
  | ok keys =>
    cases hkeyId : currentKeyId env with
    | error e =>
      rw [hkeys, hkeyId] at h
      cases h
    | ok keyId =>
      rw [hkeys, hkeyId] at h
      change (match keys.lookup keyId with
        | none => _
        | some key => _) = _ at h
      cases hlookup : keys.lookup keyId with
      | none =>
        rw [hlookup] at h
        cases h
      | some key =>
        rw [hlookup] at h
        cases hplaintext : encoded (payloadText payload) with
        | error e =>
          obtain ⟨bytes, hbytes⟩ := exists_encoded_payloadText payload
          rw [hplaintext] at hbytes
          cases hbytes
        | ok plaintext =>
          cases hdata : aad name with
          | error e =>
            rw [hplaintext, hdata] at h
            cases h
          | ok data =>
            rw [hplaintext, hdata] at h
            cases h
            exact ⟨⟨currentKeyId_le hkeyId, nonce.length_eq, encoded_eq_ok_iff.mp hplaintext,
              encoded_eq_ok_iff.mp hdata⟩, rfl, keys, hkeys, hlookup⟩

/-- Where the service reports a usable key, every name that has bytes can be sealed for. -/
theorem exists_sealCall {env : Environment} (havailable : available env = true) (nonce : Nonce)
    {name : Str} {data : Bytes} (hname : encodeUtf8 name = some data) (payload : Payload py) :
    ∃ s, sealCall env nonce name payload = .ok s := by
  obtain ⟨plaintext, hplaintext⟩ := exists_encoded_payloadText payload
  have hdata : aad name = .ok data := encoded_eq_ok_iff.mpr hname
  rw [available] at havailable
  split at havailable
  · next keys keyId hkeys hkeyId =>
    obtain ⟨key, hlookup⟩ := Option.isSome_iff_exists.mp havailable
    refine ⟨⟨keyId, ⟨key, nonce.bytes, plaintext, data⟩⟩, ?_⟩
    rw [sealCall, hkeys, hkeyId]
    change (match keys.lookup keyId with
      | none => _
      | some key => _) = _
    rw [hlookup]
    dsimp only
    rw [hplaintext, hdata]
    rfl
  · cases havailable

end DatumSync.Crypto
