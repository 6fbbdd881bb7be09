import DatumSync.Errors
import DatumSync.Python.JsonbIn
import DatumSync.Python.Values

/-!
# The detail of an audit row

`_bounded` writes the detail of a row as JSON for a `jsonb` column, and puts the names of its keys
in its place where it is too long.  Neither how long the keys are, nor what the column refuses, nor
what `json.dumps` raises is looked at.
-/

namespace DatumSync.Audit

open Python JsonbIn

/-! ## Details -/

/-- What a detail may hold: the values of JSON, and objects that `default=str` writes, with what
`str` gives or raises. -/
inductive Detail where
  | null
  | bool (b : Bool)
  | int (n : ℤ)
  | float (x : PyFloat)
  | text (s : Str)
  | arr (items : List Detail)
  | obj (fields : List (Str × Detail))
  | object (shown : Except Exc Str)

namespace Detail

/-- What `json.dumps(v, default=str)` goes through; `depth` levels may still be opened. -/
def encode : Detail → (depth : ℕ) → Except Exc Json
  | null, _ => .ok .null
  | bool b, _ => .ok (.bool b)
  | int n, _ => if hasText n then .ok (.int n) else .error (loadException .digitLimit)
  | float x, _ => .ok (.float x)
  | text s, _ => .ok (.text s)
  | arr _, 0 => .error (loadException .recursionLimit)
  | arr items, depth + 1 => (encodeItems items depth).map .arr
  | obj _, 0 => .error (loadException .recursionLimit)
  | obj fields, depth + 1 => (encodeFields fields depth).map .obj
  | object shown, depth => do
    let s ← shown
    if depth = 0 then throw (loadException .recursionLimit) else return .text s
where
  encodeItems : List Detail → ℕ → Except Exc (List Json)
    | [], _ => .ok []
    | v :: rest, depth => do
      let first ← encode v depth
      let others ← encodeItems rest depth
      return first :: others
  encodeFields : List (Str × Detail) → ℕ → Except Exc (List (Str × Json))
    | [], _ => .ok []
    | (k, v) :: rest, depth => do
      let first ← encode v depth
      let others ← encodeFields rest depth
      return (k, first) :: others

/-- Its integers are within the limit on digits, its objects can be shown, and it is nested no
deeper than the interpreter allows. -/
def writable : Detail → (depth : ℕ) → Bool
  | int n, _ => hasText n
  | arr _, 0 => false
  | arr items, depth + 1 => writableItems items depth
  | obj _, 0 => false
  | obj fields, depth + 1 => writableFields fields depth
  | object shown, depth => shown.isOk && depth != 0
  | _, _ => true
where
  writableItems : List Detail → ℕ → Bool
    | [], _ => true
    | v :: rest, depth => writable v depth && writableItems rest depth
  writableFields : List (Str × Detail) → ℕ → Bool
    | [], _ => true
    | (_, v) :: rest, depth => writable v depth && writableFields rest depth

/-- The value with its objects as the texts that show them. -/
def shown : Detail → Json
  | null => .null
  | bool b => .bool b
  | int n => .int n
  | float x => .float x
  | text s => .text s
  | arr items => .arr (shownItems items)
  | obj fields => .obj (shownFields fields)
  | object (.ok s) => .text s
  | object (.error _) => .null
where
  shownItems : List Detail → List Json
    | [] => []
    | v :: rest => shown v :: shownItems rest
  shownFields : List (Str × Detail) → List (Str × Json)
    | [] => []
    | (k, v) :: rest => (k, shown v) :: shownFields rest

end Detail

def maxDetailBytes : ℕ := 2048

/-- What stands for a detail that is too long. -/
def truncatedDetail (keys : List Str) : Json :=
  .obj [(str "truncated", .bool true), (str "keys", .arr ((sortTexts keys).map .text))]

variable (reprFloat : PyFloat → Str) (limit : ℕ)

/-- `_bounded`; `limit` is how deep the encoder may nest. -/
def bounded (detail : Option (List (Str × Detail))) : Except Exc (Option Str) :=
  match detail with
  | none => .ok none
  | some fields => do
    let v ← (Detail.obj fields).encode limit
    let encoded := dumps reprFloat v
    match encodeUtf8 encoded with
    | none => throw (.raised .unicodeError (str "surrogates not allowed"))
    | some bytes =>
      if bytes.length ≤ maxDetailBytes then return some encoded
      else return some (dumps reprFloat (truncatedDetail (fields.map Prod.fst)))

/-! ## What is promised -/

/-- The detail is written as a document that the column takes and that keeps to the bound. -/
def Stored (fields : List (Str × Detail)) : Prop :=
  ∃ text bytes, bounded reprFloat limit (some fields) = .ok (some text) ∧ accepts text = true ∧
    encodeUtf8 text = some bytes ∧ bytes.length ≤ maxDetailBytes

/-- How many characters the detail takes. -/
def detailWidth (fields : List (Str × Detail)) : ℕ := dumpsWidth reprFloat (Detail.obj fields).shown

/-- The detail can be written; where it is short, its floats and texts can be stored; where it is
long, its keys can, and are together short enough. -/
structure Fits (fields : List (Str × Detail)) : Prop where
  writable : (Detail.obj fields).writable limit = true
  short : detailWidth reprFloat fields ≤ maxDetailBytes →
    storable (Detail.obj fields).shown = true
  long : maxDetailBytes < detailWidth reprFloat fields →
    (∀ field ∈ fields, keeps field.1 = true) ∧
      (fields.map fun field ↦ escapedWidth field.1 + 4).sum + 29 ≤ maxDetailBytes

/-! ## The encoder -/

namespace Detail

variable {depth : ℕ}

mutual

theorem encode_eq : ∀ (v : Detail) (depth : ℕ), v.writable depth = true →
    v.encode depth = .ok v.shown
  | null, _, _ => rfl
  | bool _, _, _ => rfl
  | int n, _, h => by
    rw [writable] at h
    rw [encode, if_pos h]
    rfl
  | float _, _, _ => rfl
  | text _, _, _ => rfl
  | arr items, depth + 1, h => by
    rw [encode, encodeItems_eq items depth h]
    rfl
  | obj fields, depth + 1, h => by
    rw [encode, encodeFields_eq fields depth h]
    rfl
  | object (.ok s), depth + 1, _ => rfl

theorem encodeItems_eq : ∀ (items : List Detail) (depth : ℕ),
    writable.writableItems items depth = true →
      encode.encodeItems items depth = .ok (shown.shownItems items)
  | [], _, _ => rfl
  | v :: rest, depth, h => by
    rw [writable.writableItems, Bool.and_eq_true] at h
    rw [encode.encodeItems, encode_eq v depth h.1, encodeItems_eq rest depth h.2]
    rfl

theorem encodeFields_eq : ∀ (fields : List (Str × Detail)) (depth : ℕ),
    writable.writableFields fields depth = true →
      encode.encodeFields fields depth = .ok (shown.shownFields fields)
  | [], _, _ => rfl
  | (k, v) :: rest, depth, h => by
    rw [writable.writableFields, Bool.and_eq_true] at h
    rw [encode.encodeFields, encode_eq v depth h.1, encodeFields_eq rest depth h.2]
    rfl

end

mutual

theorem writable_of_encode : ∀ (v : Detail) (depth : ℕ) {j : Json}, v.encode depth = .ok j →
    v.writable depth = true
  | null, _, _, _ => rfl
  | bool _, _, _, _ => rfl
  | int n, _, _, h => by
    rw [encode] at h
    split at h
    · next htext => exact htext
    · cases h
  | float _, _, _, _ => rfl
  | text _, _, _, _ => rfl
  | arr items, depth + 1, _, h => by
    rw [encode] at h
    cases hitems : encode.encodeItems items depth with
    | error e =>
      rw [hitems] at h
      cases h
    | ok found => exact writableItems_of_encode items depth hitems
  | obj fields, depth + 1, _, h => by
    rw [encode] at h
    cases hfields : encode.encodeFields fields depth with
    | error e =>
      rw [hfields] at h
      cases h
    | ok found => exact writableFields_of_encode fields depth hfields
  | object (.ok s), depth + 1, _, _ => rfl

theorem writableItems_of_encode : ∀ (items : List Detail) (depth : ℕ) {found : List Json},
    encode.encodeItems items depth = .ok found → writable.writableItems items depth = true
  | [], _, _, _ => rfl
  | v :: rest, depth, _, h => by
    rw [encode.encodeItems] at h
    obtain ⟨first, hfirst, h⟩ := bind_ok h
    obtain ⟨others, hothers, -⟩ := bind_ok h
    rw [writable.writableItems, writable_of_encode v depth hfirst,
      writableItems_of_encode rest depth hothers]
    rfl

theorem writableFields_of_encode : ∀ (fields : List (Str × Detail)) (depth : ℕ)
    {found : List (Str × Json)},
    encode.encodeFields fields depth = .ok found → writable.writableFields fields depth = true
  | [], _, _, _ => rfl
  | (k, v) :: rest, depth, _, h => by
    rw [encode.encodeFields] at h
    obtain ⟨first, hfirst, h⟩ := bind_ok h
    obtain ⟨others, hothers, -⟩ := bind_ok h
    rw [writable.writableFields, writable_of_encode v depth hfirst,
      writableFields_of_encode rest depth hothers]
    rfl

end

end Detail

/-! ## The detail that stands for one that is too long -/

section Truncated

variable {reprFloat : PyFloat → Str} {keys : List Str}

theorem widthItems_texts : dumpsWidth.widthItems reprFloat (keys.map .text) =
    (keys.map fun k ↦ escapedWidth k + 4).sum := by
  induction keys with
  | nil => rfl
  | cons k rest ih => rw [List.map_cons, List.map_cons, List.sum_cons, dumpsWidth.widthItems,
      dumpsWidth, ih]

/-- Besides the keys it takes 29 characters. -/
theorem width_truncatedDetail : dumpsWidth reprFloat (truncatedDetail keys) =
    29 + max 2 (keys.map fun k ↦ escapedWidth k + 4).sum := by
  have hwidths : escapedWidth (str "truncated") = 9 ∧ escapedWidth (str "keys") = 4 := by
    decide +kernel
  have hsorted : ((sortTexts keys).map fun k ↦ escapedWidth k + 4).sum =
      (keys.map fun k ↦ escapedWidth k + 4).sum :=
    ((List.mergeSort_perm keys _).map _).sum_eq
  simp only [truncatedDetail, dumpsWidth, dumpsWidth.widthFields, widthItems_texts, hwidths,
    hsorted]
  simp only [if_true]
  omega

theorem storableItems_texts : storable.storableItems (keys.map .text) = keys.all keeps := by
  induction keys with
  | nil => rfl
  | cons k rest ih => rw [List.map_cons, storable.storableItems, storable, ih, List.all_cons]

theorem storable_truncatedDetail :
    storable (truncatedDetail keys) = true ↔ ∀ k ∈ keys, keeps k = true := by
  have hkeys : keeps (str "truncated") = true ∧ keeps (str "keys") = true := by decide +kernel
  simp only [truncatedDetail, storable, storable.storableFields, storableItems_texts, hkeys,
    Bool.and_true, Bool.true_and, List.all_eq_true, sortTexts, List.mem_mergeSort]

end Truncated

/-! ## When the detail is stored -/

section Stored

variable {reprFloat : PyFloat → Str} {limit : ℕ} {fields : List (Str × Detail)}

/-- A document of an object is stored just when its value can be and it keeps to the bound. -/
theorem storedDocument_iff (hfloat : FloatText reprFloat) (found : List (Str × Json)) :
    (∃ bytes, accepts (dumps reprFloat (.obj found)) = true ∧
      encodeUtf8 (dumps reprFloat (.obj found)) = some bytes ∧ bytes.length ≤ maxDetailBytes) ↔
      storable (.obj found) = true ∧ dumpsWidth reprFloat (.obj found) ≤ maxDetailBytes := by
  obtain ⟨bytes, hbytes, hlength⟩ :=
    encodeUtf8_of_isAscii (dumps_isAscii hfloat.isAscii (.obj found))
  rw [length_dumps] at hlength
  rw [accepts_dumps_obj hfloat, hbytes, ← hlength]
  simp only [Option.some.injEq, exists_and_left, exists_eq_left']

/-- What `_bounded` gives of a detail that can be written. -/
theorem bounded_of_writable (hfloat : FloatText reprFloat)
    (h : (Detail.obj fields).writable limit = true) :
    bounded reprFloat limit (some fields) =
      if detailWidth reprFloat fields ≤ maxDetailBytes then
        .ok (some (dumps reprFloat (Detail.obj fields).shown))
      else .ok (some (dumps reprFloat (truncatedDetail (fields.map Prod.fst)))) := by
  obtain ⟨bytes, hbytes, hlength⟩ :=
    encodeUtf8_of_isAscii (dumps_isAscii hfloat.isAscii (Detail.obj fields).shown)
  rw [length_dumps] at hlength
  rw [bounded, Detail.encode_eq _ _ h]
  simp only [bind, Except.bind, hbytes, hlength, detailWidth]
  rfl

theorem writable_of_bounded {text : Option Str}
    (h : bounded reprFloat limit (some fields) = .ok text) :
    (Detail.obj fields).writable limit = true := by
  rw [bounded] at h
  obtain ⟨v, hv, -⟩ := bind_ok h
  exact Detail.writable_of_encode _ _ hv

/-- A detail that can be written is stored just when the document it gives is. -/
theorem stored_iff_document {found : List (Str × Json)}
    (h : bounded reprFloat limit (some fields) = .ok (some (dumps reprFloat (.obj found)))) :
    Stored reprFloat limit fields ↔ ∃ bytes, accepts (dumps reprFloat (.obj found)) = true ∧
      encodeUtf8 (dumps reprFloat (.obj found)) = some bytes ∧ bytes.length ≤ maxDetailBytes := by
  constructor
  · rintro ⟨text, bytes, htext, hstored⟩
    obtain rfl := Option.some.inj (Except.ok.inj (h.symm.trans htext))
    exact ⟨bytes, hstored⟩
  · rintro ⟨bytes, hstored⟩
    exact ⟨_, bytes, h, hstored⟩

/-- A detail is stored just when it fits. -/
theorem fits_iff (hfloat : FloatText reprFloat) :
    Stored reprFloat limit fields ↔ Fits reprFloat limit fields := by
  by_cases hwritable : (Detail.obj fields).writable limit = true
  swap
  · refine iff_of_false ?_ fun h ↦ hwritable h.writable
    rintro ⟨text, bytes, htext, -⟩
    exact hwritable (writable_of_bounded htext)
  have hbounded := bounded_of_writable hfloat hwritable
  by_cases hshort : detailWidth reprFloat fields ≤ maxDetailBytes
  · rw [if_pos hshort] at hbounded
    rw [stored_iff_document hbounded, storedDocument_iff hfloat]
    constructor
    · rintro ⟨hstorable, -⟩
      exact ⟨hwritable, fun _ ↦ hstorable, fun hlong ↦ absurd hshort (not_le.mpr hlong)⟩
    · intro h
      exact ⟨h.short hshort, hshort⟩
  · have hlong := not_le.mp hshort
    rw [if_neg hshort] at hbounded
    have hkeys : (∀ k ∈ fields.map Prod.fst, keeps k = true) ↔
        ∀ field ∈ fields, keeps field.1 = true := List.forall_mem_map
    have hwidth : dumpsWidth reprFloat (truncatedDetail (fields.map Prod.fst)) ≤ maxDetailBytes ↔
        (fields.map fun field ↦ escapedWidth field.1 + 4).sum + 29 ≤ maxDetailBytes := by
      have hmap : (fields.map Prod.fst).map (fun k ↦ escapedWidth k + 4) =
          fields.map fun field ↦ escapedWidth field.1 + 4 := List.map_map
      rw [width_truncatedDetail, hmap]
      unfold maxDetailBytes
      exact ⟨fun h ↦ by omega, fun h ↦ by omega⟩
    rw [truncatedDetail] at hbounded
    rw [stored_iff_document hbounded, storedDocument_iff hfloat, ← truncatedDetail,
      storable_truncatedDetail, hkeys, hwidth]
    constructor
    · intro h
      exact ⟨hwritable, fun hnot ↦ absurd hnot hshort, fun _ ↦ h⟩
    · intro h
      exact h.long hlong

end Stored

/-- The detail of a row is stored just when it fits. -/
theorem bounded_stored_iff {reprFloat : PyFloat → Str} (hfloat : FloatText reprFloat) (limit : ℕ)
    (fields : List (Str × Detail)) :
    Stored reprFloat limit fields ↔ Fits reprFloat limit fields := fits_iff hfloat

/-- How Python shows zero and the special floats. -/
def zeroText : PyFloat → Str
  | .nan => str "NaN"
  | .infinite negative => if negative then str "-Infinity" else str "Infinity"
  | .finite .. => str "0.0"

theorem floatText_zeroText : FloatText zeroText where
  finite x hx := by
    cases x with
    | nan => cases hx
    | infinite negative => cases hx
    | finite negative mantissa exponent =>
      rw [zeroText]
      decide +kernel
  nan := rfl
  infinite _ := rfl

/-- A failed proxy call of an agent. -/
def proxyDetail : List (Str × Detail) :=
  [(str "upstream_status", .int 502), (str "account", .text (str "ana"))]

theorem bounded_stored_proxy : Stored zeroText 1000 proxyDetail :=
  (bounded_stored_iff floatText_zeroText 1000 proxyDetail).mpr {
    writable := by decide +kernel
    short := fun _ ↦ by decide +kernel
    long := fun hlong ↦ absurd hlong (by decide +kernel) }

/-- A key that is too long, a float that is no number, and a text with a NUL. -/
theorem bounded_not_stored :
    ¬ Stored zeroText 1000 [(List.replicate 3000 (cp 'k'), .int 1)] ∧
      ¬ Stored zeroText 1000 [(str "ratio", .float .nan)] ∧
      ¬ Stored zeroText 1000 [(str "message", .text [0])] := by
  have hk : escapeWidth (cp 'k') = 1 := by decide +kernel
  have hlong : escapedWidth (List.replicate 3000 (cp 'k')) = 3000 := by
    rw [escapedWidth_replicate, hk]
  refine ⟨fun h ↦ ?_, fun h ↦ ?_, fun h ↦ ?_⟩
  · have hwidth : maxDetailBytes <
        detailWidth zeroText [(List.replicate 3000 (cp 'k'), .int 1)] := by
      simp only [detailWidth, Detail.shown, Detail.shown.shownFields, dumpsWidth,
        dumpsWidth.widthFields, hlong, maxDetailBytes]
      omega
    have hsum := (((fits_iff floatText_zeroText).mp h).long hwidth).2
    simp only [List.map_cons, List.map_nil, List.sum_cons, List.sum_nil, hlong, maxDetailBytes]
      at hsum
    omega
  · have hstorable := ((fits_iff floatText_zeroText).mp h).short (by decide +kernel)
    exact absurd hstorable (by decide +kernel)
  · have hstorable := ((fits_iff floatText_zeroText).mp h).short (by decide +kernel)
    exact absurd hstorable (by decide +kernel)

end DatumSync.Audit
