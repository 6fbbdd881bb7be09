import DatumSync.Python.JsonBytes

/-!
# Forms in a query string

`urllib.parse.urlencode` writes pairs of texts as a query, and `parse_qsl` reads a query, keeping
blank values.  What is written comes back, also behind a query that is there already.
-/

namespace DatumSync.Python

/-! ## UTF-8 with `replace` -/

theorem decodeFrom_cons {state next : DecodeState} {b : UInt8} {out : Str}
    (h : decodeByte state b = (out, next)) (rest : List UInt8) :
    decodeFrom state (b :: rest) = out ++ decodeFrom next rest := by
  cases state with
  | start | inside => rw [decodeFrom, h]

/-- A byte that `surrogatepass` takes is taken alike, but for the lead byte of surrogates. -/
theorem decodeByte_of_passByte {state : DecodeState} {b : UInt8} {r : Str × DecodeState}
    (h : passByte state b = some r) (hlead : state = .start → b.toNat ≠ 0xED) :
    decodeByte state b = r := by
  cases state with
  | start =>
    unfold passByte at h
    unfold decodeByte decodeStart
    dsimp only at h ⊢
    split at h
    · next hascii =>
      rw [if_pos hascii]
      exact Option.some.inj h
    · next hascii =>
      rw [if_neg hascii]
      rw [leadBytePass, if_neg (hlead rfl)] at h
      obtain ⟨range, hrange, hr⟩ := Option.map_eq_some_iff.mp h
      rw [hrange]
      exact hr
  | inside bits low high more =>
    unfold passByte at h
    unfold decodeByte
    dsimp only at h ⊢
    split at h
    · next hrange =>
      rw [if_pos hrange]
      cases more with
      | zero => exact Option.some.inj h
      | succ left => exact Option.some.inj h
    · cases h

/-- The bytes of a code point that is no surrogate give it back. -/
theorem decodeFrom_encodeCodePoint {c : CodePoint} (hc : isSurrogate c = false)
    (rest : List UInt8) :
    decodeFrom .start (encodeCodePoint c ++ rest) = c :: decodeFrom .start rest := by
  have hlt := c.isLt
  have hpair : ¬ (0xD800 ≤ c.val ∧ c.val ≤ 0xDFFF) := of_decide_eq_false hc
  have hself {n : ℕ} (hn : n = c.val) : (Fin.ofNat 0x110000 n : CodePoint) = c := by
    rw [hn]
    exact Fin.ofNat_val_eq_self c
  have hinside {bits low high more : ℕ} {b : UInt8} {r : Str × DecodeState}
      (h : passByte (.inside bits low high more) b = some r) :
      decodeByte (.inside bits low high more) b = r :=
    decodeByte_of_passByte h fun hstart ↦ DecodeState.noConfusion hstart
  rw [encodeCodePoint]
  split_ifs with hone htwo hthree
  · have hbyte := decodeByte_of_passByte (passByte_ascii hone) fun _ ↦ by
      rw [toNat_ofNat (by omega)]
      omega
    rw [List.map_singleton, List.singleton_append, decodeFrom_cons hbyte, hself rfl]
    rfl
  · have hlead := decodeByte_of_passByte (lead_two (n := c.val / 64) (by omega) (by omega))
      fun _ ↦ by
        rw [toNat_ofNat (by omega)]
        omega
    have hlast := hinside (passByte_last (c.val / 64) (Nat.mod_lt c.val (by decide : 0 < 64))
      (by omega : 0x80 ≤ _) (by omega : _ ≤ 0xBF))
    rw [List.map_cons, List.map_singleton, List.cons_append, List.singleton_append,
      decodeFrom_cons hlead, decodeFrom_cons hlast, hself (by omega)]
    rfl
  · have hlead : decodeByte .start (UInt8.ofNat (0xE0 + c.val / 4096)) =
        ([], .inside (c.val / 4096) (if c.val / 4096 = 0 then 0xA0 else 0x80)
          (if c.val / 4096 = 13 then 0x9F else 0xBF) 1) := by
      by_cases hthirteen : c.val / 4096 = 13
      · rw [hthirteen]
        rfl
      · rw [if_neg hthirteen]
        refine decodeByte_of_passByte (lead_three (by omega)) fun _ ↦ ?_
        rw [toNat_ofNat (by omega)]
        omega
    have hlow : (if c.val / 4096 = 0 then 0xA0 else 0x80) ≤ 0x80 + c.val / 64 % 64 := by
      split_ifs <;> omega
    have hhigh : 0x80 + c.val / 64 % 64 ≤ (if c.val / 4096 = 13 then 0x9F else 0xBF) := by
      split_ifs <;> omega
    have hmore := hinside (passByte_more (c.val / 4096)
      (Nat.mod_lt (c.val / 64) (by decide : 0 < 64)) hlow hhigh 0)
    have hlast := hinside (passByte_last (c.val / 4096 * 64 + c.val / 64 % 64)
      (Nat.mod_lt c.val (by decide : 0 < 64)) (by omega : 0x80 ≤ _) (by omega : _ ≤ 0xBF))
    rw [List.map_cons, List.map_cons, List.map_singleton, List.cons_append, List.cons_append,
      List.singleton_append, decodeFrom_cons hlead, decodeFrom_cons hmore, decodeFrom_cons hlast,
      hself (by omega)]
    rfl
  · have hlead := decodeByte_of_passByte (lead_four (n := c.val / 262144) (by omega))
      fun _ ↦ by
        rw [toNat_ofNat (by omega)]
        omega
    have hlow : (if c.val / 262144 = 0 then 0x90 else 0x80) ≤ 0x80 + c.val / 4096 % 64 := by
      split_ifs <;> omega
    have hhigh : 0x80 + c.val / 4096 % 64 ≤ (if c.val / 262144 = 4 then 0x8F else 0xBF) := by
      split_ifs <;> omega
    have hmore := hinside (passByte_more (c.val / 262144)
      (Nat.mod_lt (c.val / 4096) (by decide : 0 < 64)) hlow hhigh 1)
    have hnext := hinside (passByte_more (c.val / 262144 * 64 + c.val / 4096 % 64)
      (Nat.mod_lt (c.val / 64) (by decide : 0 < 64)) (by omega : 0x80 ≤ _) (by omega : _ ≤ 0xBF) 0)
    have hlast := hinside (passByte_last
      ((c.val / 262144 * 64 + c.val / 4096 % 64) * 64 + c.val / 64 % 64)
      (Nat.mod_lt c.val (by decide : 0 < 64)) (by omega : 0x80 ≤ _) (by omega : _ ≤ 0xBF))
    rw [List.map_cons, List.map_cons, List.map_cons, List.map_singleton, List.cons_append,
      List.cons_append, List.cons_append, List.singleton_append, decodeFrom_cons hlead,
      decodeFrom_cons hmore, decodeFrom_cons hnext, decodeFrom_cons hlast, hself (by omega)]
    rfl

/-- A text that can be encoded comes back. -/
theorem decodeUtf8_encodeUtf8 {s : Str} {bytes : List UInt8} (h : encodeUtf8 s = some bytes) :
    decodeUtf8 bytes = s := by
  obtain ⟨hsurrogate, hbytes⟩ := Option.ite_none_left_eq_some.mp h
  rw [← Option.some.inj hbytes]
  clear h hbytes
  induction s with
  | nil => rfl
  | cons c rest ih =>
    rw [List.any_cons, Bool.or_eq_true, not_or, Bool.not_eq_true] at hsurrogate
    rw [decodeUtf8, List.flatMap_cons, decodeFrom_encodeCodePoint hsurrogate.1]
    exact congrArg (c :: ·) (ih hsurrogate.2)

/-! ## One component -/

def upperHexDigit (n : ℕ) : CodePoint := Fin.ofNat _ (if n < 10 then 0x30 + n else 0x41 + n - 10)

def isAlwaysSafe (b : UInt8) : Bool :=
  let n := b.toNat
  decide (0x41 ≤ n ∧ n ≤ 0x5A) || decide (0x61 ≤ n ∧ n ≤ 0x7A) || decide (0x30 ≤ n ∧ n ≤ 0x39) ||
    n == 0x5F || n == 0x2E || n == 0x2D || n == 0x7E

def quoteByte (b : UInt8) : Str :=
  if b.toNat = 0x20 then [cp '+']
  else if isAlwaysSafe b then [Fin.ofNat _ b.toNat]
  else [cp '%', upperHexDigit (b.toNat / 16), upperHexDigit (b.toNat % 16)]

def quotePlus (s : Str) : Option Str := (encodeUtf8 s).map fun bytes ↦ bytes.flatMap quoteByte

/-- The bytes of a text with its escapes replaced. -/
def unquoteBytes : Str → List UInt8
  | c :: high :: low :: rest =>
    if c = cp '%' then
      match hexDigit high, hexDigit low with
      | some x, some y => UInt8.ofNat (x * 16 + y) :: unquoteBytes rest
      | _, _ => encodeCodePoint c ++ unquoteBytes (high :: low :: rest)
    else encodeCodePoint c ++ unquoteBytes (high :: low :: rest)
  | c :: rest => encodeCodePoint c ++ unquoteBytes rest
  | [] => []

/-- One character of `s.replace("+", " ")`. -/
def plusToSpace (c : CodePoint) : CodePoint := if c = cp '+' then cp ' ' else c

def unquotePlus (s : Str) : Str :=
  decodeUtf8 (unquoteBytes (s.map plusToSpace))

/-! ## Pairs -/

def encodePair (pair : Str × Str) : Option Str := do
  let key ← quotePlus pair.1
  let value ← quotePlus pair.2
  some (key ++ cp '=' :: value)

def urlencode (pairs : List (Str × Str)) : Option Str :=
  (pairs.mapM encodePair).map (join (cp '&'))

/-- What `parse_qsl` makes of one part. -/
def parsePair (part : Str) : Str × Str :=
  (unquotePlus (part.takeWhile (· != cp '=')),
    unquotePlus ((part.dropWhile (· != cp '=')).drop 1))

/-- `parse_qsl(query, keep_blank_values=True)` -/
def parseQsl (query : Str) : List (Str × Str) :=
  ((split (cp '&') query).filter (· ≠ [])).map parsePair

/-! ## What is written comes back -/

/-- The characters that `quote_plus` writes. -/
def isQuoted (c : CodePoint) : Bool :=
  decide (0x41 ≤ c.val ∧ c.val ≤ 0x5A) || decide (0x61 ≤ c.val ∧ c.val ≤ 0x7A) || isDigit c ||
    (str "_.-~+%").contains c

theorem quoteByte_isQuoted (b : UInt8) : ∀ c ∈ quoteByte b, isQuoted c = true := by
  have hall : ∀ n < 256, (quoteByte (UInt8.ofNat n)).all isQuoted = true := by decide +kernel
  have hb := hall b.toNat b.toNat_lt
  rw [UInt8.ofNat_toNat] at hb
  exact List.all_eq_true.mp hb

theorem quotePlus_isQuoted {s t : Str} (h : quotePlus s = some t) :
    ∀ c ∈ t, isQuoted c = true := by
  obtain ⟨bytes, -, rfl⟩ := Option.map_eq_some_iff.mp h
  intro c hc
  obtain ⟨b, -, hb⟩ := List.mem_flatMap.mp hc
  exact quoteByte_isQuoted b c hb

theorem unquoteBytes_cons {c : CodePoint} (hc : c ≠ cp '%') (rest : Str) :
    unquoteBytes (c :: rest) = encodeCodePoint c ++ unquoteBytes rest := by
  cases rest with
  | nil => rfl
  | cons high rest =>
    cases rest with
    | nil => rfl
    | cons low rest => rw [unquoteBytes, if_neg hc]

theorem unquoteBytes_escape {high low : CodePoint} {x y : ℕ} (hx : hexDigit high = some x)
    (hy : hexDigit low = some y) (rest : Str) :
    unquoteBytes (cp '%' :: high :: low :: rest) = UInt8.ofNat (x * 16 + y) :: unquoteBytes rest := by
  rw [unquoteBytes, if_pos rfl, hx, hy]

theorem hexDigit_upperHexDigit {n : ℕ} (hn : n < 16) : hexDigit (upperHexDigit n) = some n := by
  have hall : ∀ n < 16, hexDigit (upperHexDigit n) = some n := by decide +kernel
  exact hall n hn

/-- A byte comes back, whatever is behind it. -/
theorem unquoteBytes_quoteByte (b : UInt8) (rest : Str) :
    unquoteBytes ((quoteByte b).map plusToSpace ++ rest) = b :: unquoteBytes rest := by
  have hlt := b.toNat_lt
  unfold quoteByte
  split_ifs with hspace hsafe
  · have hb : b = 0x20 := UInt8.toNat_inj.mp hspace
    rw [hb]
    exact unquoteBytes_cons (by decide) rest
  · have hall : ∀ n < 256, isAlwaysSafe (UInt8.ofNat n) = true →
        plusToSpace (Fin.ofNat _ n) ≠ cp '%' ∧
          encodeCodePoint (plusToSpace (Fin.ofNat _ n)) = [UInt8.ofNat n] := by decide +kernel
    have hb := hall b.toNat hlt
    rw [UInt8.ofNat_toNat] at hb
    rw [List.map_singleton, List.singleton_append, unquoteBytes_cons (hb hsafe).1, (hb hsafe).2]
    rfl
  · have hdigit : ∀ n < 16, plusToSpace (upperHexDigit n) = upperHexDigit n := by decide +kernel
    have hpercent : plusToSpace (cp '%') = cp '%' := by decide
    have hhigh : b.toNat / 16 < 16 := by omega
    have hlow : b.toNat % 16 < 16 := by omega
    rw [List.map_cons, List.map_cons, List.map_singleton, hpercent, hdigit _ hhigh, hdigit _ hlow]
    have hescape := unquoteBytes_escape (hexDigit_upperHexDigit hhigh)
      (hexDigit_upperHexDigit hlow) rest
    have hvalue : b.toNat / 16 * 16 + b.toNat % 16 = b.toNat := Nat.div_add_mod' _ _
    rw [hvalue, UInt8.ofNat_toNat] at hescape
    exact hescape

theorem unquoteBytes_quoteBytes (bytes : List UInt8) :
    unquoteBytes ((bytes.flatMap quoteByte).map plusToSpace) = bytes := by
  induction bytes with
  | nil => rfl
  | cons b rest ih => rw [List.flatMap_cons, List.map_append, unquoteBytes_quoteByte, ih]

/-- A component comes back. -/
theorem unquotePlus_quotePlus {s t : Str} (h : quotePlus s = some t) : unquotePlus t = s := by
  obtain ⟨bytes, hbytes, rfl⟩ := Option.map_eq_some_iff.mp h
  rw [unquotePlus, unquoteBytes_quoteBytes]
  exact decodeUtf8_encodeUtf8 hbytes

theorem not_mem_of_isQuoted {c : CodePoint} {s : Str} (h : ∀ c ∈ s, isQuoted c = true)
    (hc : isQuoted c = false) : c ∉ s := by
  intro hmem
  rw [h c hmem] at hc
  cases hc

/-- What is in a part: it holds the equals sign, and reads as its pair. -/
theorem encodePair_spec {pair : Str × Str} {part : Str} (h : encodePair pair = some part) :
    (∀ c ∈ part, isQuoted c = true ∨ c = cp '=') ∧ part ≠ [] ∧ parsePair part = pair := by
  obtain ⟨key, hkey, h⟩ := Option.bind_eq_some_iff.mp h
  obtain ⟨value, hvalue, h⟩ := Option.bind_eq_some_iff.mp h
  rw [← Option.some.inj h]
  have hquoted := quotePlus_isQuoted hkey
  have hequals : cp '=' ∉ key := not_mem_of_isQuoted hquoted (by decide)
  have hhead : ∀ c ∈ key, (c != cp '=') = true := fun c hc ↦ by
    rw [bne_iff_ne]
    exact fun heq ↦ hequals (heq ▸ hc)
  refine ⟨fun c hc ↦ ?_, List.append_ne_nil_of_right_ne_nil _ (List.cons_ne_nil _ _), ?_⟩
  · rcases List.mem_append.mp hc with hc | hc
    · exact .inl (hquoted c hc)
    · cases List.mem_cons.mp hc with
      | inl heq => exact .inr heq
      | inr hc => exact .inl (quotePlus_isQuoted hvalue c hc)
  · rw [parsePair, List.takeWhile_append_of_pos hhead, List.dropWhile_append_of_pos hhead,
      List.takeWhile_cons_of_neg (by decide), List.dropWhile_cons_of_neg (by decide),
      List.append_nil, List.drop_one, List.tail_cons, unquotePlus_quotePlus hkey,
      unquotePlus_quotePlus hvalue]

/-- The parts of a query that is written. -/
theorem urlencode_spec {pairs : List (Str × Str)} {query : Str} (h : urlencode pairs = some query)
    (hpairs : pairs ≠ []) :
    ∃ parts, split (cp '&') query = parts ∧
      (∀ part ∈ parts, part ≠ [] ∧ ∀ c ∈ part, isQuoted c = true ∨ c = cp '=') ∧
      parts.map parsePair = pairs := by
  obtain ⟨parts, hparts, rfl⟩ := Option.map_eq_some_iff.mp h
  have hspec : (∀ part ∈ parts, part ≠ [] ∧ ∀ c ∈ part, isQuoted c = true ∨ c = cp '=') ∧
      parts.map parsePair = pairs := by
    clear h hpairs
    induction pairs generalizing parts with
    | nil =>
      obtain rfl := Option.some.inj hparts
      exact ⟨List.forall_mem_nil _, rfl⟩
    | cons pair rest ih =>
      rw [List.mapM_cons] at hparts
      obtain ⟨part, hpart, hparts⟩ := Option.bind_eq_some_iff.mp hparts
      obtain ⟨others, hothers, hparts⟩ := Option.bind_eq_some_iff.mp hparts
      rw [← Option.some.inj hparts]
      obtain ⟨hall, hmap⟩ := ih others hothers
      obtain ⟨hchars, hne, hpair⟩ := encodePair_spec hpart
      exact ⟨List.forall_mem_cons.mpr ⟨⟨hne, hchars⟩, hall⟩, by rw [List.map_cons, hmap, hpair]⟩
  refine ⟨parts, ?_, hspec⟩
  apply List.splitOn_intercalate
  · intro part hpart hmem
    have hchar := (hspec.1 part hpart).2 _ hmem
    exact absurd hchar (by decide)
  · rintro rfl
    exact hpairs hspec.2.symm

/-- What `urlencode` writes has only these characters. -/
theorem urlencode_chars {pairs : List (Str × Str)} {query : Str} (h : urlencode pairs = some query) :
    ∀ c ∈ query, isQuoted c = true ∨ c = cp '=' ∨ c = cp '&' := by
  intro c hc
  by_cases hpairs : pairs = []
  · rw [hpairs] at h
    rw [← Option.some.inj h] at hc
    cases hc
  · obtain ⟨parts, hsplit, hall, -⟩ := urlencode_spec h hpairs
    by_cases hsep : c = cp '&'
    · exact .inr (.inr hsep)
    · obtain ⟨part, hpart, hmem⟩ := mem_split hc hsep
      cases (hall part (hsplit ▸ hpart)).2 c hmem with
      | inl hquoted => exact .inl hquoted
      | inr hequals => exact .inr (.inl hequals)

/-- What `urlencode` writes is read back. -/
theorem parseQsl_urlencode {pairs : List (Str × Str)} {query : Str}
    (h : urlencode pairs = some query) (hpairs : pairs ≠ []) : parseQsl query = pairs := by
  obtain ⟨parts, hsplit, hall, hmap⟩ := urlencode_spec h hpairs
  rw [parseQsl, hsplit, List.filter_eq_self.mpr, hmap]
  exact fun part hpart ↦ decide_eq_true (hall part hpart).1

theorem parseQsl_append_amp (front back : Str) :
    parseQsl (front ++ cp '&' :: back) = parseQsl front ++ parseQsl back := by
  rw [parseQsl, split, List.splitOn_append_cons_self, List.filter_append, List.map_append]
  rfl

theorem unquotePlus_question (s : Str) : unquotePlus (cp '?' :: s) = cp '?' :: unquotePlus s := by
  have hbyte : encodeCodePoint (cp '?') = [0x3F] := by decide
  have hplus : plusToSpace (cp '?') = cp '?' := by decide
  have hdecoded : decodeByte .start 0x3F = ([cp '?'], .start) := rfl
  rw [unquotePlus, List.map_cons, hplus, unquoteBytes_cons (by decide), hbyte, decodeUtf8,
    List.singleton_append, decodeFrom_cons hdecoded]
  rfl

/-- A question mark in front of a query goes to its first key. -/
theorem parseQsl_question {pair : Str × Str} {pairs : List (Str × Str)} {query : Str}
    (h : urlencode (pair :: pairs) = some query) :
    parseQsl (cp '?' :: query) = (cp '?' :: pair.1, pair.2) :: pairs := by
  obtain ⟨parts, hsplit, hall, hmap⟩ := urlencode_spec h (List.cons_ne_nil _ _)
  cases parts with
  | nil => cases hmap
  | cons part others =>
    rw [List.map_cons, List.cons.injEq] at hmap
    have hlonger : split (cp '&') (cp '?' :: query) = (cp '?' :: part) :: others := by
      rw [split, List.splitOn_cons_eq_if_modifyHead, if_neg (by decide), ← split, hsplit]
      rfl
    have hothers : others.filter (· ≠ []) = others := List.filter_eq_self.mpr fun part hpart ↦
      decide_eq_true (hall part (List.mem_cons_of_mem _ hpart)).1
    have hpart : parsePair (cp '?' :: part) = (cp '?' :: pair.1, pair.2) := by
      rw [← hmap.1, parsePair, List.takeWhile_cons_of_pos (by decide),
        List.dropWhile_cons_of_pos (by decide), unquotePlus_question]
      rfl
    rw [parseQsl, hlonger, List.filter_cons_of_pos (by simp), hothers, List.map_cons, hpart,
      hmap.2]

/-- Behind another query it adds its pairs. -/
theorem parseQsl_append {pairs : List (Str × Str)} {query : Str} (front : Str)
    (h : urlencode pairs = some query) (hpairs : pairs ≠ []) :
    parseQsl (front ++ cp '&' :: query) = parseQsl front ++ pairs := by
  rw [parseQsl_append_amp, parseQsl_urlencode h hpairs]

end DatumSync.Python
