import DatumSync.Python.JsonRoundTrip

/-!
# `json.loads` of bytes

The encoding is detected from where the first bytes are zero, and decoded with `surrogatepass`,
which lets a surrogate through on its own.  UTF-8 decoded this way gives back every text from the
bytes of its code points, so that two texts with the same bytes are the same.
-/

namespace DatumSync.Python

/-! ## UTF-8 with `surrogatepass` -/

/-- `leadByte`, where three bytes may hold a surrogate too. -/
def leadBytePass (b : UInt8) : Option (ℕ × ℕ × ℕ) :=
  if b.toNat = 0xED then some (0x80, 0xBF, 1) else leadByte b

/-- One byte: the code points it completes, and the state after it. -/
def passByte (state : DecodeState) (b : UInt8) : Option (Str × DecodeState) :=
  match state with
  | .start =>
    if b.toNat < 0x80 then some ([Fin.ofNat _ b.toNat], .start)
    else (leadBytePass b).map fun (low, high, more) ↦ ([], .inside (leadBits b) low high more)
  | .inside bits low high more =>
    if low ≤ b.toNat ∧ b.toNat ≤ high then
      let bits := bits * 64 + b.toNat % 64
      match more with
      | 0 => some ([Fin.ofNat _ bits], .start)
      | left + 1 => some ([], .inside bits 0x80 0xBF left)
    else none

/-- `bytes.decode("utf-8", "surrogatepass")` -/
def passFrom : DecodeState → List UInt8 → Option Str
  | state, [] => match state with
    | .start => some []
    | .inside .. => none
  | state, b :: rest => do
    let (out, next) ← passByte state b
    let tail ← passFrom next rest
    some (out ++ tail)

theorem passFrom_cons {state next : DecodeState} {b : UInt8} {out : Str}
    (h : passByte state b = some (out, next)) (rest : List UInt8) :
    passFrom state (b :: rest) = (passFrom next rest).map (out ++ ·) := by
  rw [passFrom, h, Option.bind_eq_bind, Option.bind_some]
  dsimp only
  cases passFrom next rest <;> rfl

theorem toNat_ofNat {n : ℕ} (hn : n < 256) : (UInt8.ofNat n).toNat = n := by
  rw [UInt8.toNat_ofNat']
  exact Nat.mod_eq_of_lt hn

theorem passByte_ascii {n : ℕ} (hn : n < 0x80) :
    passByte .start (UInt8.ofNat n) = some ([Fin.ofNat _ n], .start) := by
  have htoNat := toNat_ofNat (n := n) (by omega)
  rw [passByte, htoNat, if_pos hn]

/-- The lead byte of a character of two, three or four bytes. -/
theorem passByte_lead {n bits low high more : ℕ} (hn : n < 256) (hlow : ¬ n < 0x80)
    (hlead : leadBytePass (UInt8.ofNat n) = some (low, high, more))
    (hbits : leadBits (UInt8.ofNat n) = bits) :
    passByte .start (UInt8.ofNat n) = some ([], .inside bits low high more) := by
  rw [passByte, toNat_ofNat hn, if_neg hlow, hlead, ← hbits]
  rfl

/-- A continuation byte with six bits, the last of its character or not. -/
theorem passByte_more (bits : ℕ) {low high n : ℕ} (hn : n < 64) (hlow : low ≤ 0x80 + n)
    (hhigh : 0x80 + n ≤ high) (left : ℕ) :
    passByte (.inside bits low high (left + 1)) (UInt8.ofNat (0x80 + n)) =
      some ([], .inside (bits * 64 + n) 0x80 0xBF left) := by
  have hsix : (0x80 + n) % 64 = n := by omega
  rw [passByte, toNat_ofNat (by omega), if_pos ⟨hlow, hhigh⟩, hsix]

theorem passByte_last (bits : ℕ) {low high n : ℕ} (hn : n < 64) (hlow : low ≤ 0x80 + n)
    (hhigh : 0x80 + n ≤ high) :
    passByte (.inside bits low high 0) (UInt8.ofNat (0x80 + n)) =
      some ([Fin.ofNat _ (bits * 64 + n)], .start) := by
  have hsix : (0x80 + n) % 64 = n := by omega
  rw [passByte, toNat_ofNat (by omega), if_pos ⟨hlow, hhigh⟩, hsix]

/-- The lead byte of two bytes. -/
theorem lead_two {n : ℕ} (hlow : 2 ≤ n) (hhigh : n < 32) :
    passByte .start (UInt8.ofNat (0xC0 + n)) = some ([], .inside n 0x80 0xBF 0) := by
  refine passByte_lead (by omega) (by omega) ?_ ?_
  · rw [leadBytePass, leadByte, toNat_ofNat (by omega), if_neg (by omega)]
    rw [if_pos (by omega)]
  · rw [leadBits, toNat_ofNat (by omega)]
    rw [if_pos (by omega)]
    omega

/-- The lead byte of three bytes; a small one limits the byte after it. -/
theorem lead_three {n : ℕ} (hn : n < 16) :
    passByte .start (UInt8.ofNat (0xE0 + n)) =
      some ([], .inside n (if n = 0 then 0xA0 else 0x80) 0xBF 1) := by
  refine passByte_lead (by omega) (by omega) ?_ ?_
  · rw [leadBytePass, leadByte, toNat_ofNat (by omega)]
    split_ifs <;> first | rfl | omega
  · rw [leadBits, toNat_ofNat (by omega)]
    rw [if_neg (by omega), if_pos (by omega)]
    omega

/-- The lead byte of four bytes; the smallest and the largest limit the byte after them. -/
theorem lead_four {n : ℕ} (hn : n ≤ 4) :
    passByte .start (UInt8.ofNat (0xF0 + n)) =
      some ([], .inside n (if n = 0 then 0x90 else 0x80) (if n = 4 then 0x8F else 0xBF) 2) := by
  refine passByte_lead (by omega) (by omega) ?_ ?_
  · rw [leadBytePass, leadByte, toNat_ofNat (by omega)]
    split_ifs <;> first | rfl | omega
  · rw [leadBits, toNat_ofNat (by omega)]
    rw [if_neg (by omega), if_neg (by omega)]
    omega

/-- The bytes of a code point give the code point back. -/
theorem passFrom_encodeCodePoint (c : CodePoint) (rest : List UInt8) :
    passFrom .start (encodeCodePoint c ++ rest) = (passFrom .start rest).map (c :: ·) := by
  have hc := c.isLt
  have hself {n : ℕ} (hn : n = c.val) : (Fin.ofNat 0x110000 n : CodePoint) = c := by
    rw [hn]
    exact Fin.ofNat_val_eq_self c
  rw [encodeCodePoint]
  split_ifs with hone htwo hthree
  · rw [List.map_singleton, List.singleton_append, passFrom_cons (passByte_ascii hone),
      hself rfl]
    rfl
  · have hlead := lead_two (n := c.val / 64) (by omega) (by omega)
    have hlast := passByte_last (c.val / 64) (Nat.mod_lt c.val (by decide : 0 < 64))
      (by omega : 0x80 ≤ _) (by omega : _ ≤ 0xBF)
    rw [List.map_cons, List.map_singleton, List.cons_append, List.singleton_append,
      passFrom_cons hlead, passFrom_cons hlast, hself (by omega), Option.map_map]
    rfl
  · have hlead := lead_three (n := c.val / 4096) (by omega)
    have hlow : (if c.val / 4096 = 0 then 0xA0 else 0x80) ≤ 0x80 + c.val / 64 % 64 := by
      split_ifs <;> omega
    have hmore := passByte_more (c.val / 4096) (Nat.mod_lt (c.val / 64) (by decide : 0 < 64)) hlow
      (by omega : _ ≤ 0xBF) 0
    have hlast := passByte_last (c.val / 4096 * 64 + c.val / 64 % 64)
      (Nat.mod_lt c.val (by decide : 0 < 64)) (by omega : 0x80 ≤ _) (by omega : _ ≤ 0xBF)
    rw [List.map_cons, List.map_cons, List.map_singleton, List.cons_append, List.cons_append,
      List.singleton_append, passFrom_cons hlead, passFrom_cons hmore, passFrom_cons hlast,
      hself (by omega), Option.map_map, Option.map_map]
    rfl
  · have hlead := lead_four (n := c.val / 262144) (by omega)
    have hlow : (if c.val / 262144 = 0 then 0x90 else 0x80) ≤ 0x80 + c.val / 4096 % 64 := by
      split_ifs <;> omega
    have hhigh : 0x80 + c.val / 4096 % 64 ≤ (if c.val / 262144 = 4 then 0x8F else 0xBF) := by
      split_ifs <;> omega
    have hmore := passByte_more (c.val / 262144)
      (Nat.mod_lt (c.val / 4096) (by decide : 0 < 64)) hlow hhigh 1
    have hnext := passByte_more (c.val / 262144 * 64 + c.val / 4096 % 64)
      (Nat.mod_lt (c.val / 64) (by decide : 0 < 64)) (by omega : 0x80 ≤ _) (by omega : _ ≤ 0xBF) 0
    have hlast := passByte_last
      ((c.val / 262144 * 64 + c.val / 4096 % 64) * 64 + c.val / 64 % 64)
      (Nat.mod_lt c.val (by decide : 0 < 64)) (by omega : 0x80 ≤ _) (by omega : _ ≤ 0xBF)
    rw [List.map_cons, List.map_cons, List.map_cons, List.map_singleton, List.cons_append,
      List.cons_append, List.cons_append, List.singleton_append, passFrom_cons hlead,
      passFrom_cons hmore, passFrom_cons hnext, passFrom_cons hlast, hself (by omega),
      Option.map_map, Option.map_map, Option.map_map]
    rfl

theorem passFrom_encode (s : Str) : passFrom .start (s.flatMap encodeCodePoint) = some s := by
  induction s with
  | nil => rfl
  | cons c s ih => rw [List.flatMap_cons, passFrom_encodeCodePoint, ih, Option.map_some]

/-- Two texts with the same bytes are the same. -/
theorem encodeUtf8_injective {s t : Str} {bytes : List UInt8} (hs : encodeUtf8 s = some bytes)
    (ht : encodeUtf8 t = some bytes) : s = t := by
  rw [encodeUtf8, Option.ite_none_left_eq_some, Option.some_inj] at hs ht
  have hdecode := passFrom_encode s
  rw [hs.2, ← ht.2, passFrom_encode t, Option.some_inj] at hdecode
  exact hdecode.symm

/-! ## The other encodings -/

/-- Two bytes each, the first of them the high one where `big`. -/
def units16 (big : Bool) : List UInt8 → Option (List ℕ)
  | [] => some []
  | a :: b :: rest =>
    let unit := if big then a.toNat * 256 + b.toNat else b.toNat * 256 + a.toNat
    (units16 big rest).map (unit :: ·)
  | [_] => none

/-- A high and a low surrogate in a row make one character, and any other stands for itself. -/
def joinUnits : List ℕ → Str
  | high :: low :: rest =>
    if 0xD800 ≤ high ∧ high ≤ 0xDBFF ∧ 0xDC00 ≤ low ∧ low ≤ 0xDFFF then
      Fin.ofNat _ (0x10000 + (high - 0xD800) * 1024 + (low - 0xDC00)) :: joinUnits rest
    else Fin.ofNat _ high :: joinUnits (low :: rest)
  | [unit] => [Fin.ofNat _ unit]
  | [] => []

def decodeUtf16 (big : Bool) (bytes : List UInt8) : Option Str := (units16 big bytes).map joinUnits

def decodeUtf32 (big : Bool) : List UInt8 → Option Str
  | [] => some []
  | a :: b :: c :: d :: rest =>
    let unit := if big then ((a.toNat * 256 + b.toNat) * 256 + c.toNat) * 256 + d.toNat
      else ((d.toNat * 256 + c.toNat) * 256 + b.toNat) * 256 + a.toNat
    if h : unit < 0x110000 then (decodeUtf32 big rest).map (⟨unit, h⟩ :: ·) else none
  | _ => none

inductive Encoding where
  | utf8
  | utf8Sig
  | utf16
  | utf16be
  | utf16le
  | utf32
  | utf32be
  | utf32le

def detectEncoding (bytes : List UInt8) : Encoding :=
  if [0x00, 0x00, 0xFE, 0xFF].isPrefixOf bytes || [0xFF, 0xFE, 0x00, 0x00].isPrefixOf bytes then
    .utf32
  else if [0xFE, 0xFF].isPrefixOf bytes || [0xFF, 0xFE].isPrefixOf bytes then .utf16
  else if [0xEF, 0xBB, 0xBF].isPrefixOf bytes then .utf8Sig
  else match bytes with
    | a :: b :: c :: d :: _ =>
      if a = 0 then if b ≠ 0 then .utf16be else .utf32be
      else if b = 0 then if c ≠ 0 ∨ d ≠ 0 then .utf16le else .utf32le
      else .utf8
    | [a, b] => if a = 0 then .utf16be else if b = 0 then .utf16le else .utf8
    | _ => .utf8

/-- `s.decode(detect_encoding(s), "surrogatepass")`; undefined where it raises
`UnicodeDecodeError`. -/
def decodeDetected (bytes : List UInt8) : Option Str :=
  match detectEncoding bytes with
  | .utf8 => passFrom .start bytes
  | .utf8Sig => passFrom .start (bytes.drop 3)
  | .utf16 => decodeUtf16 ([0xFE, 0xFF].isPrefixOf bytes) (bytes.drop 2)
  | .utf16be => decodeUtf16 true bytes
  | .utf16le => decodeUtf16 false bytes
  | .utf32 => decodeUtf32 ([0x00, 0x00, 0xFE, 0xFF].isPrefixOf bytes) (bytes.drop 4)
  | .utf32be => decodeUtf32 true bytes
  | .utf32le => decodeUtf32 false bytes

inductive BytesError where
  | unicodeDecodeError
  | load (e : LoadError)
  deriving DecidableEq

/-- `json.loads(bytes)`.  A decoded text that starts with a byte order mark is no JSON, as for
`jsonLoads`. -/
def jsonLoadsBytes (depth : ℕ) (bytes : List UInt8) : Except BytesError Json :=
  match decodeDetected bytes with
  | none => .error .unicodeDecodeError
  | some text => (jsonLoads depth text).mapError .load

/-! ## Reading back an object -/

theorem dumpsWith_obj_starts (item key : Str) (reprFloat : PyFloat → Str)
    (fields : List (Str × Json)) : ∃ c rest,
      dumpsWith item key reprFloat (.obj fields) = cp '\x7b' :: c :: rest ∧
        (c = cp '"' ∨ c = cp '\x7d') := by
  rw [dumpsWith]
  cases fields with
  | nil => exact ⟨_, _, rfl, .inr rfl⟩
  | cons field others =>
    obtain ⟨k, v⟩ := field
    rw [dumpsWith.dumpsFields]
    cases others with
    | nil => exact ⟨_, _, rfl, .inl rfl⟩
    | cons second others => exact ⟨_, _, rfl, .inl rfl⟩

/-- A text that starts with two ASCII characters, the first of them a brace, is taken for UTF-8. -/
theorem detectEncoding_brace {b : UInt8} (hb : b ≠ 0) (rest : List UInt8) :
    detectEncoding (0x7B :: b :: rest) = .utf8 := by
  rw [detectEncoding.eq_def]
  dsimp only [List.isPrefixOf]
  match rest with
  | [] => simp [hb]
  | [c] => simp
  | c :: d :: more => simp [hb]

/-- `json.loads(json.dumps(v).encode())` of an object. -/
theorem jsonLoadsBytes_dumpsWith {blanks gap : Str} {reprFloat : PyFloat → Str}
    (hblanks : ∀ c ∈ blanks, isBlank c = true) (hgap : ∀ c ∈ gap, isBlank c = true)
    {fields : List (Str × Json)} (hv : (Json.obj fields).Plain reprFloat) {depth : ℕ}
    (hdepth : (Json.obj fields).depth ≤ depth) {bytes : List UInt8}
    (hbytes : encodeUtf8 (dumpsWith (cp ',' :: blanks) (cp ':' :: gap) reprFloat (.obj fields)) =
      some bytes) : jsonLoadsBytes depth bytes = .ok (.obj fields) := by
  have hload := jsonLoads_dumpsWith hblanks hgap hv hdepth
  obtain ⟨c, rest, hshape, hc⟩ := dumpsWith_obj_starts (cp ',' :: blanks)
    (cp ':' :: gap) reprFloat fields
  rw [encodeUtf8, Option.ite_none_left_eq_some, Option.some_inj] at hbytes
  have hdecode := passFrom_encode
    (dumpsWith (cp ',' :: blanks) (cp ':' :: gap) reprFloat (.obj fields))
  have hdetect : detectEncoding bytes = .utf8 := by
    rw [← hbytes.2, hshape, List.flatMap_cons, List.flatMap_cons]
    rcases hc with rfl | rfl
    · exact detectEncoding_brace (b := 0x22) (by decide) _
    · exact detectEncoding_brace (b := 0x7D) (by decide) _
  rw [hbytes.2] at hdecode
  rw [jsonLoadsBytes, decodeDetected, hdetect]
  dsimp only
  rw [hdecode]
  dsimp only
  rw [hload]
  rfl

end DatumSync.Python
