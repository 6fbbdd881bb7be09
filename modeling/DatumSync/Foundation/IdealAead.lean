import Mathlib.Data.List.Basic

/-!
# Ideal authenticated encryption

Two calls of `encrypt` with anything different between them give different ciphertexts.  Decryption
succeeds on what some call has given, under the key, the nonce and the associated data of the call,
and on nothing else, so no ciphertext is forged, moved or opened under another key.
-/

namespace DatumSync.Foundation

structure IdealAead (Key Nonce Plain Data Cipher : Type*) where
  encrypt : Key → Nonce → Plain → Data → Cipher
  injective : ∀ {k k' n n' p p' a a'}, encrypt k n p a = encrypt k' n' p' a' →
    k = k' ∧ n = n' ∧ p = p' ∧ a = a'

@[ext]
structure Encryption (Key Nonce Plain Data : Type*) where
  key : Key
  nonce : Nonce
  plaintext : Plain
  data : Data

namespace IdealAead

variable {Key Nonce Plain Data Cipher : Type*} (aead : IdealAead Key Nonce Plain Data Cipher)

def ciphertext (call : Encryption Key Nonce Plain Data) : Cipher :=
  aead.encrypt call.key call.nonce call.plaintext call.data

variable [DecidableEq Key] [DecidableEq Nonce] [DecidableEq Data] [DecidableEq Cipher]

/-- `decrypt` after the calls of `encrypt` so far; `none` is the tag that does not verify. -/
def decrypt (calls : List (Encryption Key Nonce Plain Data)) (key : Key) (nonce : Nonce)
    (cipher : Cipher) (data : Data) : Option Plain :=
  (calls.find? fun call ↦ decide (call.key = key ∧ call.nonce = nonce ∧ call.data = data ∧
    aead.ciphertext call = cipher)).map Encryption.plaintext

variable {aead} {calls : List (Encryption Key Nonce Plain Data)} {key : Key} {nonce : Nonce}
  {cipher : Cipher} {data : Data} {plaintext : Plain}

/-- A plaintext that decryption returns was encrypted to just this ciphertext. -/
theorem mem_of_decrypt (h : aead.decrypt calls key nonce cipher data = some plaintext) :
    ⟨key, nonce, plaintext, data⟩ ∈ calls ∧ aead.encrypt key nonce plaintext data = cipher := by
  rw [decrypt, Option.map_eq_some_iff] at h
  obtain ⟨call, hfind, rfl⟩ := h
  have hmem := List.mem_of_find?_eq_some hfind
  have hsame := List.find?_some hfind
  obtain ⟨rfl, rfl, rfl, hcipher⟩ := of_decide_eq_true hsame
  exact ⟨hmem, hcipher⟩

/-- What was encrypted is decrypted. -/
theorem decrypt_ciphertext (aead : IdealAead Key Nonce Plain Data Cipher)
    {call : Encryption Key Nonce Plain Data} (h : call ∈ calls) :
    aead.decrypt calls call.key call.nonce (aead.ciphertext call) call.data =
      some call.plaintext := by
  cases hdecrypt : aead.decrypt calls call.key call.nonce (aead.ciphertext call) call.data with
  | none =>
    rw [decrypt, Option.map_eq_none_iff, List.find?_eq_none] at hdecrypt
    exact absurd (decide_eq_true ⟨rfl, rfl, rfl, rfl⟩) (hdecrypt call h)
  | some plaintext =>
    have hsame := (aead.injective (mem_of_decrypt hdecrypt).2).2.2.1
    rw [hsame]

end IdealAead

end DatumSync.Foundation
