import DatumSync.Foundation.KeyedLoad
import DatumSync.Python.Decoding

/-!
# The keys of the environment

`_load_keys` reads every variable whose name is the prefix and up to three digits, so that an id can
be spelt in several ways: `…_1`, `…_01` and `…_001` all give the key of id 1, and the variable the
environment lists last is the one that counts.  The keyring is therefore the same in every order of
the environment exactly when a variable is refused, or no id is spelt twice with different material.
-/

namespace DatumSync.Crypto

open Foundation Python

/-- `DATUM_SYNC_SECRET_KEY_` -/
def keyEnvPrefix : Str := str "DATUM_SYNC_SECRET_KEY_"

def currentKeyEnv : Str := str "DATUM_SYNC_SECRET_KEY_CURRENT"

/-- AES-256 -/
def keyBytes : ℕ := 32

/-- One byte. -/
def maxKeyId : ℕ := 255

structure Material where
  bytes : List UInt8
  length_eq : bytes.length = keyBytes
  deriving DecidableEq

/-- `os.environ`, in the order in which it lists its variables. -/
structure Environment where
  items : List (Str × Str)
  nodup : (items.map Prod.fst).Nodup

/-! ## Errors -/

/-- `CryptoError` and `KeyUnavailable`, by what they report. -/
inductive CryptoError where
  | idTooLarge (name : Str) (keyId : ℕ)
  | notBase64 (name : Str) (reason : Base64Error)
  | wrongLength (name : Str) (length : ℕ)
  | noKeys
  | currentUnset
  | currentNotInteger (raw : Str)
  | currentOutOfRange (keyId : ℤ)
  | currentNotLoaded (keyId : ℕ)
  | truncated (connection : Str)
  | keyNotLoaded (connection : Str) (keyId : ℕ)
  | cannotOpen (connection : Str)
  deriving DecidableEq

namespace CryptoError

/-- `{n:02d}` -/
def twoDigits (n : ℕ) : Str := if n < 10 then cp '0' :: decimal n else decimal n

/-- `str(e)`; `reprOf` is `repr` of a text. -/
def message (reprOf : Str → Str) : CryptoError → Str
  | idTooLarge name keyId =>
    name ++ str ": key id " ++ decimal keyId ++ str " exceeds " ++ decimal maxKeyId ++
      str " (must fit in one byte)."
  | notBase64 name reason =>
    name ++ str " is not valid base64: " ++ reason.message ++
      str ". Expected the output of `python -m datum_sync.crypto`."
  | wrongLength name length =>
    name ++ str " decodes to " ++ decimal length ++ str " bytes; AES-256 needs " ++
      decimal keyBytes ++ str ". Expected the output of `python -m datum_sync.crypto`."
  | noKeys =>
    str "No secret keys configured. Set " ++ keyEnvPrefix ++
      str ("01 (and optionally more) in the environment. Generate one with " ++
        "`python -m datum_sync.crypto`. Keys are deliberately not auto-generated into the data " ++
        "directory: a key stored beside the ciphertext it protects gives no protection against " ++
        "anyone who can copy the directory. Losing a key makes every secret it sealed " ++
        "unrecoverable -- back it up separately.")
  | currentUnset =>
    currentKeyEnv ++ str (" is not set. It must name the id of the key to use for sealing " ++
      "(e.g. '1' if the key is in ") ++ keyEnvPrefix ++ str "01)."
  | currentNotInteger raw => currentKeyEnv ++ cp '=' :: reprOf raw ++ str " is not an integer."
  | currentOutOfRange keyId =>
    currentKeyEnv ++ cp '=' :: decimal keyId ++ str " is out of range (0.." ++ decimal maxKeyId ++
      str ")."
  | currentNotLoaded keyId =>
    currentKeyEnv ++ cp '=' :: decimal keyId ++ str " but " ++ keyEnvPrefix ++ twoDigits keyId ++
      str " is not set. The current key must be loadable."
  | truncated name => str "sealed value for " ++ reprOf name ++ str " is truncated"
  | keyNotLoaded name keyId =>
    str "sealed value for " ++ reprOf name ++ str " uses key id " ++ decimal keyId ++
      str ", but " ++ keyEnvPrefix ++ twoDigits keyId ++
      str " is not in the environment. The key may have been removed after rotation."
  | cannotOpen name =>
    str "cannot open the secret for connection " ++ reprOf name ++
      str ": wrong key, altered ciphertext, or a value sealed for a different connection"

end CryptoError

/-! ## The keyring -/

/-- `_KEY_SUFFIX_RE.match(suffix)`: one to three digits, then the end or a last line feed. -/
def keySuffix (suffix : Str) : Option Str :=
  let digits := suffix.takeWhile fun c ↦ (decimalValue c).isSome
  let rest := suffix.dropWhile fun c ↦ (decimalValue c).isSome
  if 1 ≤ digits.length ∧ digits.length ≤ 3 ∧ (rest = [] ∨ rest = [cp '\n']) then some digits
  else none

/-- One turn of the loop of `_load_keys`: nothing, the key of an id, or the error raised. -/
def readVariable (item : Str × Str) : Option (Except CryptoError (ℕ × Material)) :=
  let (name, val) := item
  if startsWith name keyEnvPrefix then
    let suffix := name.drop keyEnvPrefix.length
    if suffix = str "CURRENT" then none
    else match keySuffix suffix with
      | none => none
      | some digits =>
        let keyId := decimalsValue digits
        if maxKeyId < keyId then some (.error (.idTooLarge name keyId))
        else match urlsafeB64decode val with
          | .error reason => some (.error (.notBase64 name reason))
          | .ok raw =>
            if h : raw.length = keyBytes then some (.ok (keyId, ⟨raw, h⟩))
            else some (.error (.wrongLength name raw.length))
  else none

def loadKeys (env : Environment) : Except CryptoError (List (ℕ × Material)) :=
  loadAll .noKeys readVariable env.items

def currentKeyId (env : Environment) : Except CryptoError ℕ :=
  match env.items.lookup currentKeyEnv with
  | none => .error .currentUnset
  | some [] => .error .currentUnset
  | some raw =>
    match parseInt raw with
    | none => .error (.currentNotInteger raw)
    | some keyId =>
      if keyId < 0 ∨ (maxKeyId : ℤ) < keyId then .error (.currentOutOfRange keyId)
      else .ok keyId.toNat

def available (env : Environment) : Bool :=
  match loadKeys env, currentKeyId env with
  | .ok keys, .ok keyId => (keys.lookup keyId).isSome
  | _, _ => false

/-- The environment makes the material available as the key of the id. -/
def Environment.Holds (env : Environment) (keyId : ℕ) (key : Material) : Prop :=
  ∃ keys, loadKeys env = .ok keys ∧ keys.lookup keyId = some key

theorem currentKeyId_le {env : Environment} {keyId : ℕ} (h : currentKeyId env = .ok keyId) :
    keyId ≤ maxKeyId := by
  rw [currentKeyId] at h
  split at h
  · cases h
  · cases h
  · split at h
    · cases h
    · split at h
      · cases h
      · next hrange =>
        cases h
        omega

theorem Environment.Holds.unique {env : Environment} {keyId : ℕ} {key other : Material}
    (h : env.Holds keyId key) (hother : env.Holds keyId other) : key = other := by
  obtain ⟨keys, hkeys, hlookup⟩ := h
  obtain ⟨keys', hkeys', hlookup'⟩ := hother
  rw [hkeys, Except.ok.injEq] at hkeys'
  rw [← hkeys', hlookup, Option.some_inj] at hlookup'
  exact hlookup'

/-! ## The order of the environment -/

/-- Every order in which the environment may list its variables gives the same keyring. -/
def OrderFree (env : Environment) : Prop :=
  ∀ other : Environment, env.items.Perm other.items → Agree (loadKeys env) (loadKeys other)

/-- The keyring is the same in every order exactly when a variable is refused, or no id is spelt
twice with different material. -/
theorem orderFree_iff (env : Environment) :
    OrderFree env ↔ Refused readVariable env.items ∨ SingleValued readVariable env.items := by
  rw [← agree_perm_iff CryptoError.noKeys]
  constructor
  · intro h other hperm
    have hnodup : (other.map Prod.fst).Nodup := (hperm.map Prod.fst).nodup_iff.mp env.nodup
    exact h ⟨other, hnodup⟩ hperm
  · exact fun h other hperm ↦ h other.items hperm

end DatumSync.Crypto
