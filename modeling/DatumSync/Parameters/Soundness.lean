import DatumSync.Parameters

/-!
# Validated parameters

What `validate_params` returns, as a set of typed values and as its own input.  Defaults go into the
result as the manifest has them, and `float` takes texts that no finite number is.
-/

namespace DatumSync

open Python

/-! ## Types -/

def Parameter.HasType (p : Parameter) (v : Json) : Prop :=
  match p.type, v with
  | .boolean, .bool _ => True
  | .integer, .int _ => True
  | .float, .int _ => True
  | .float, .float x => x.isFinite = true
  | .lookupChoice, .text s => s ∈ p.choices.getD []
  | .string, .text _ => True
  | .file, .text _ => True
  | _, _ => False

/-- A default of the declared type that reads as itself: an integer is within the limit on digits,
or for a `FLOAT` one that a double holds. -/
def Parameter.Fits (p : Parameter) (v : Json) : Prop :=
  match p.type, v with
  | .boolean, .bool _ => True
  | .integer, .int n => hasText n = true
  | .float, .int n => DoubleExact n.natAbs
  | .float, .float x => x.isFinite = true
  | .lookupChoice, .text s => s ∈ p.choices.getD []
  | .string, .text _ => True
  | .file, .text _ => True
  | _, _ => False

/-- A value that spells a number of a double's range, where it spells anything. -/
def InRange (v : Json) : Prop :=
  match v with
  | .int n => n.natAbs < doubleOverflow
  | .float x => x.isFinite = true
  | .text s => ∀ t, scanFloat (strip s) = some t → t.InRange
  | _ => True

/-- `float(repr(x)) == x` -/
def ReadsBack (display : Display) (x : PyFloat) : Prop :=
  ∃ t, scanFloat (strip (display.reprFloat x)) = some t ∧ t.rounded.value = x.value

theorem isFinite_iff_value {x : PyFloat} : x.isFinite = true ↔ x.value ≠ none := by
  cases x <;> simp [PyFloat.isFinite, PyFloat.value]

/-- A float that a submitted value reads as is finite just in range. -/
theorem rounded_isFinite_iff {display : Display} {value : Json} {s : Str} {t : FloatText}
    (htext : value.strOf display = some s) (hscan : scanFloat (strip s) = some t)
    (hread : ∀ x, value = .float x → ReadsBack display x) :
    t.rounded.isFinite = true ↔ InRange value := by
  have hother : value.isOther = false := by
    rw [Bool.eq_false_iff]
    intro hother
    rw [(Json.strOf_isOther hother htext).1] at hscan
    cases hscan
  cases value with
  | null => cases hother
  | bool b => cases hother
  | int n =>
    obtain ⟨-, rfl⟩ := (Json.strOf_eq_some (v := .int n) rfl).mp htext
    rw [Display.reprValue, strip_decimal, scanFloat_decimal] at hscan
    rw [← Option.some.inj hscan, FloatText.rounded_isFinite_iff, FloatText.InRange, zpow_zero,
      mul_one, Nat.cast_lt, InRange]
  | float x =>
    have hs : display.reprFloat x = s := Option.some.inj htext
    obtain ⟨u, hu, hvalue⟩ := hread x rfl
    rw [← hs, hu] at hscan
    rw [← Option.some.inj hscan, isFinite_iff_value, hvalue, ← isFinite_iff_value, InRange]
  | text r =>
    have hs : r = s := Option.some.inj htext
    subst hs
    rw [FloatText.rounded_isFinite_iff, InRange]
    constructor
    · intro h u hu
      rw [hscan] at hu
      exact Option.some.inj hu ▸ h
    · intro h
      exact h t hscan
  | arr items => cases hother
  | obj fields => cases hother

/-! ## Reading a result again -/

/-- `validate_params` takes the value of a parameter as itself. -/
def Parameter.Rereads (display : Display) (p : Parameter) (v : Json) : Prop :=
  ∃ w, coerce display p v = .ok w ∧ w.equals v = true

/-- A value has its type and is read as itself where it fits, and only there. -/
theorem hasType_and_rereads_iff {display : Display} {p : Parameter} {v : Json}
    (hread : ∀ x, v = .float x → ReadsBack display x) :
    p.HasType v ∧ p.Rereads display v ↔ p.Fits v := by
  unfold Parameter.HasType Parameter.Rereads Parameter.Fits coerce
  cases htype : p.type with
  | string =>
    cases v with
    | text s => exact iff_of_true ⟨trivial, .text s, rfl, beq_self_eq_true s⟩ trivial
    | _ => simp
  | file =>
    cases v with
    | text s => exact iff_of_true ⟨trivial, .text s, rfl, beq_self_eq_true s⟩ trivial
    | _ => simp
  | boolean =>
    cases v with
    | bool b => exact iff_of_true ⟨trivial, .bool b, rfl, by cases b <;> decide⟩ trivial
    | _ => simp
  | lookupChoice =>
    cases v with
    | text s =>
      constructor
      · exact fun h ↦ h.1
      · intro h
        refine ⟨h, .text s, ?_, beq_self_eq_true s⟩
        exact if_pos h
    | _ => simp
  | integer =>
    cases v with
    | int n =>
      have htext : (Json.int n).strOf display = if hasText n then some (decimal n) else none := rfl
      dsimp only
      rw [htext]
      by_cases hlimit : hasText n = true
      · have hparse := parseInt_decimal (of_decide_eq_true hlimit)
        rw [if_pos hlimit, Option.bind_some, strip_decimal, hparse]
        refine iff_of_true ⟨trivial, .int n, rfl, ?_⟩ hlimit
        exact (Json.equals_number rfl).mpr rfl
      · rw [if_neg hlimit]
        refine iff_of_false ?_ hlimit
        rintro ⟨-, w, hw, -⟩
        exact not_refuseValue hw
    | _ => simp
  | float =>
    cases v with
    | int n =>
      have htext : (Json.int n).strOf display = if hasText n then some (decimal n) else none := rfl
      dsimp only
      rw [htext]
      by_cases hlimit : hasText n = true
      · have hvalue := decimalFloat_value_iff (decide (n < 0)) n.natAbs
        rw [← cast_eq_sign_natAbs] at hvalue
        rw [if_pos hlimit, Option.bind_some, strip_decimal, parseFloat, scanFloat_decimal,
          Option.map_some, FloatText.rounded, ← hvalue]
        dsimp only
        constructor
        · rintro ⟨-, w, hw, hequals⟩
          cases hw
          exact (Json.equals_number rfl).mp hequals
        · intro h
          exact ⟨trivial, _, rfl, (Json.equals_number rfl).mpr h⟩
      · rw [if_neg hlimit]
        refine iff_of_false ?_ ?_
        · rintro ⟨-, w, hw, -⟩
          exact not_refuseValue hw
        · intro hexact
          exact hlimit (decide_eq_true (length_digitsOf_of_lt hexact.1))
    | float x =>
      obtain ⟨t, ht, hvalue⟩ := hread x rfl
      have htext : (Json.float x).strOf display = some (display.reprFloat x) := rfl
      dsimp only
      rw [htext, Option.bind_some, parseFloat, ht, Option.map_some]
      dsimp only
      refine ⟨fun h ↦ h.1, fun h ↦ ⟨h, .float t.rounded, rfl, ?_⟩⟩
      obtain ⟨q, hq⟩ := Option.ne_none_iff_exists'.mp (isFinite_iff_value.mp h)
      exact (Json.equals_number (b := .float x) hq).mpr (hvalue.trans hq)
    | _ => simp

/-- A coerced value fits, unless a float is out of range. -/
theorem Coerced.fits_iff {display : Display} {p : Parameter} {value w : Json}
    (h : Coerced display p value w) (hread : ∀ x, value = .float x → ReadsBack display x) :
    p.Fits w ↔ (p.type = .float → InRange value) := by
  unfold Parameter.Fits
  cases h with
  | boolean b htype => simp [htype]
  | integer n htype hlimit => simp [htype, hlimit]
  | float s t htype htext hscan =>
    rw [htype]
    simpa using rounded_isFinite_iff htext hscan hread
  | choice s htype hmem =>
    rw [htype]
    simpa using hmem
  | text s htype =>
    rcases htype with htype | htype
    · simp [htype]
    · simp [htype]

/-! ## The whole result -/

/-- Only declared names, every required one, and values of the declared types. -/
structure Interface.Sound (manifest : Interface) (result : List (Str × Json)) : Prop where
  typed : ∀ entry ∈ result, ∃ p ∈ manifest.parameters, p.name = entry.1 ∧ p.HasType entry.2
  complete : ∀ p ∈ manifest.parameters, p.required = true → p.name ∈ result.map Prod.fst

/-- The result validates, and gives an equal dict. -/
def Interface.Idempotent (display : Display) (manifest : Interface)
    (result : List (Str × Json)) : Prop :=
  ∃ again, validateParams display manifest result = .ok again ∧
    (Json.obj again).equals (.obj result) = true

/-- Where a default stands in it has the declared type, and no number is out of range. -/
def Interface.DefaultsFit (manifest : Interface) (raw : List (Str × Json)) : Prop :=
  ∀ p ∈ manifest.parameters,
    (Json.fieldD raw p.name .null = .null → p.default ≠ .null → p.Fits p.default) ∧
    (Json.fieldD raw p.name .null ≠ .null → p.type = .float →
      InRange (Json.fieldD raw p.name .null))

theorem mem_of_fieldD {raw : List (Str × Json)} {key : Str} {v : Json}
    (h : Json.fieldD raw key .null = v) (hne : v ≠ .null) : (key, v) ∈ raw := by
  rw [Json.fieldD, Json.field] at h
  cases hlookup : raw.lookup key with
  | none =>
    rw [hlookup] at h
    exact absurd h.symm hne
  | some w =>
    rw [hlookup, Option.getD_some] at h
    obtain ⟨before, after, hsplit, -⟩ := List.lookup_eq_some_iff.mp hlookup
    rw [hsplit, h]
    simp

/-- Parameters with one name are one. -/
theorem Interface.eq_of_name (manifest : Interface) {p q : Parameter}
    (hp : p ∈ manifest.parameters) (hq : q ∈ manifest.parameters) (h : p.name = q.name) : p = q :=
  List.inj_on_of_nodup_map manifest.distinct hp hq h

section Result

variable {display : Display} {manifest : Interface} {raw result : List (Str × Json)}

theorem sound_iff (h : validateParams display manifest raw = .ok result) :
    manifest.Sound result ↔
      ∀ p ∈ manifest.parameters, ∀ v, p.chosen display raw = some v → p.HasType v := by
  obtain ⟨-, hsettled, rfl⟩ := validateParams_eq_ok.mp h
  constructor
  · intro hsound p hp v hv
    obtain ⟨q, hq, hname, htype⟩ := hsound.typed (p.name, v) (mem_selected.mpr ⟨p, hp, hv, rfl⟩)
    exact manifest.eq_of_name hq hp hname ▸ htype
  · intro hall
    constructor
    · intro entry hentry
      obtain ⟨p, hp, hv, hname⟩ := mem_selected.mp hentry
      exact ⟨p, hp, hname, hall p hp _ hv⟩
    · intro p hp hrequired
      cases hchosen : p.chosen display raw with
      | none =>
        rw [(hsettled p hp).2 hchosen] at hrequired
        cases hrequired
      | some v => exact List.mem_map.mpr ⟨(p.name, v), mem_selected.mpr ⟨p, hp, hchosen, rfl⟩, rfl⟩

/-- The second run finds the values of the first. -/
theorem fieldD_selected {p : Parameter} (hp : p ∈ manifest.parameters) :
    Json.fieldD (selected display raw manifest.parameters) p.name .null =
      (p.chosen display raw).getD .null := by
  rw [Json.fieldD, Json.field, lookup_selected manifest.distinct hp]

/-- The second run coerces a value of the first and keeps an absence. -/
theorem outcome_selected {p : Parameter} (hp : p ∈ manifest.parameters)
    (hsettled : p.Settled display raw) :
    p.outcome display (selected display raw manifest.parameters) =
      match p.chosen display raw with
      | some v => (coerce display p v).map some
      | none => .ok none := by
  rw [Parameter.outcome, fieldD_selected hp]
  cases hchosen : p.chosen display raw with
  | some v =>
    dsimp only
    rw [Option.getD_some, if_pos (chosen_ne_null hchosen)]
  | none =>
    have hnone := hsettled.1
    rw [hchosen, Parameter.outcome] at hnone
    rw [Option.getD_none, if_neg (not_not.mpr rfl)]
    split at hnone
    · cases hcoerce : coerce display p (Json.fieldD raw p.name .null) with
      | error e =>
        rw [hcoerce] at hnone
        cases hnone
      | ok w =>
        rw [hcoerce] at hnone
        cases hnone
    · exact hnone

theorem length_selected {raw' : List (Str × Json)} {params : List Parameter}
    (h : ∀ p ∈ params, (p.chosen display raw).isSome = (p.chosen display raw').isSome) :
    (selected display raw params).length = (selected display raw' params).length := by
  induction params with
  | nil => rfl
  | cons p rest ih =>
    have hp := h p List.mem_cons_self
    have hrest := ih fun q hq ↦ h q (List.mem_cons_of_mem _ hq)
    unfold selected at hrest ⊢
    rw [List.filterMap_cons, List.filterMap_cons]
    cases hone : p.chosen display raw with
    | none =>
      rw [hone] at hp
      cases htwo : p.chosen display raw' with
      | none => exact hrest
      | some w =>
        rw [htwo] at hp
        cases hp
    | some v =>
      rw [hone] at hp
      cases htwo : p.chosen display raw' with
      | none =>
        rw [htwo] at hp
        cases hp
      | some w => exact congrArg (· + 1) hrest

theorem idempotent_iff (h : validateParams display manifest raw = .ok result) :
    manifest.Idempotent display result ↔
      ∀ p ∈ manifest.parameters, ∀ v, p.chosen display raw = some v → p.Rereads display v := by
  obtain ⟨-, hsettled, rfl⟩ := validateParams_eq_ok.mp h
  constructor
  · rintro ⟨again, hagain, hequals⟩ p hp v hv
    obtain ⟨-, hagainSettled, rfl⟩ := validateParams_eq_ok.mp hagain
    have houtcome := outcome_selected hp (hsettled p hp)
    rw [hv, (hagainSettled p hp).1] at houtcome
    dsimp only at houtcome
    cases hcoerce : coerce display p v with
    | error e =>
      rw [hcoerce] at houtcome
      cases houtcome
    | ok w =>
      rw [hcoerce] at houtcome
      have hchosen := Except.ok.inj houtcome
      rw [Json.equals, Bool.and_eq_true, Json.equalsFields_iff] at hequals
      obtain ⟨b, hb, hwb⟩ := hequals.2 (p.name, w) (mem_selected.mpr ⟨p, hp, hchosen, rfl⟩)
      rw [lookup_selected manifest.distinct hp, hv] at hb
      cases hb
      exact ⟨w, hcoerce, hwb⟩
  · intro hall
    have hagain : ∀ p ∈ manifest.parameters,
        (p.chosen display raw = none ∧
          p.outcome display (selected display raw manifest.parameters) = .ok none) ∨
        ∃ v w, p.chosen display raw = some v ∧ w.equals v = true ∧
          p.outcome display (selected display raw manifest.parameters) = .ok (some w) := by
      intro p hp
      have houtcome := outcome_selected hp (hsettled p hp)
      cases hchosen : p.chosen display raw with
      | none =>
        rw [hchosen] at houtcome
        exact .inl ⟨rfl, houtcome⟩
      | some v =>
        obtain ⟨w, hcoerce, hequals⟩ := hall p hp v hchosen
        rw [hchosen] at houtcome
        dsimp only at houtcome
        rw [hcoerce] at houtcome
        exact .inr ⟨v, w, rfl, hequals, houtcome⟩
    have hchosen : ∀ {p : Parameter} {o : Option Json},
        p.outcome display (selected display raw manifest.parameters) = .ok o →
        p.chosen display (selected display raw manifest.parameters) = o := by
      intro p o ho
      rw [Parameter.chosen, ho]
    refine ⟨_, validateParams_eq_ok.mpr ⟨?_, ?_, rfl⟩, ?_⟩
    · intro entry hentry
      obtain ⟨p, hp, -, hname⟩ := mem_selected.mp hentry
      exact hname ▸ List.mem_map_of_mem hp
    · intro p hp
      rcases hagain p hp with ⟨hnone, houtcome⟩ | ⟨v, w, -, -, houtcome⟩
      · rw [Parameter.Settled, hchosen houtcome]
        exact ⟨houtcome, fun _ ↦ (hsettled p hp).2 hnone⟩
      · rw [Parameter.Settled, hchosen houtcome]
        exact ⟨houtcome, fun hnone ↦ absurd hnone (Option.some_ne_none w)⟩
    · rw [Json.equals, Bool.and_eq_true, beq_iff_eq, Json.equalsFields_iff]
      constructor
      · refine length_selected fun p hp ↦ ?_
        rcases hagain p hp with ⟨hnone, houtcome⟩ | ⟨v, w, hv, -, houtcome⟩
        · rw [hnone, hchosen houtcome]
        · rw [hv, hchosen houtcome]
          rfl
      · intro entry hentry
        obtain ⟨p, hp, hentry, hname⟩ := mem_selected.mp hentry
        rw [← hname, lookup_selected manifest.distinct hp]
        rcases hagain p hp with ⟨-, houtcome⟩ | ⟨v, w, hv, hequals, houtcome⟩
        · rw [hchosen houtcome] at hentry
          cases hentry
        · rw [hchosen houtcome] at hentry
          exact ⟨v, hv, Option.some.inj hentry ▸ hequals⟩

/-- A validated dict is sound and validates as itself just where every default in it fits and no
`FLOAT` was given a number out of range. -/
theorem sound_and_idempotent_iff (h : validateParams display manifest raw = .ok result)
    (hread : ∀ name x, (name, .float x) ∈ raw ++ result → ReadsBack display x) :
    manifest.Sound result ∧ manifest.Idempotent display result ↔ manifest.DefaultsFit raw := by
  rw [sound_iff h, idempotent_iff h]
  obtain ⟨-, hsettled, hresult⟩ := validateParams_eq_ok.mp h
  have hfits : ∀ p ∈ manifest.parameters, ∀ v, p.chosen display raw = some v →
      (p.HasType v ∧ p.Rereads display v ↔ p.Fits v) := by
    intro p hp v hv
    refine hasType_and_rereads_iff fun x hx ↦ hread p.name x (List.mem_append_right _ ?_)
    rw [hresult]
    exact mem_selected.mpr ⟨p, hp, hx ▸ hv, rfl⟩
  have hgiven : ∀ p ∈ manifest.parameters, ∀ w,
      coerce display p (Json.fieldD raw p.name .null) = .ok w →
      Json.fieldD raw p.name .null ≠ .null →
      (p.Fits w ↔ (p.type = .float → InRange (Json.fieldD raw p.name .null))) := by
    intro p hp w hw hne
    refine (Coerced.of_coerce hw).fits_iff fun x hx ↦ hread p.name x (List.mem_append_left _ ?_)
    exact mem_of_fieldD hx (hx ▸ hne)
  constructor
  · rintro ⟨htyped, hreread⟩ p hp
    have hchosenFits : ∀ v, p.chosen display raw = some v → p.Fits v := fun v hv ↦
      (hfits p hp v hv).mp ⟨htyped p hp v hv, hreread p hp v hv⟩
    have houtcome := (hsettled p hp).1
    rw [Parameter.outcome] at houtcome
    constructor
    · intro habsent hdefault
      rw [if_neg (not_not.mpr habsent), if_pos hdefault] at houtcome
      exact hchosenFits _ (Except.ok.inj houtcome).symm
    · intro hne
      rw [if_pos hne] at houtcome
      cases hcoerce : coerce display p (Json.fieldD raw p.name .null) with
      | error e =>
        rw [hcoerce] at houtcome
        cases houtcome
      | ok w =>
        rw [hcoerce] at houtcome
        exact (hgiven p hp w hcoerce hne).mp (hchosenFits w (Except.ok.inj houtcome).symm)
  · intro hdefaults
    have hall : ∀ p ∈ manifest.parameters, ∀ v, p.chosen display raw = some v →
        p.HasType v ∧ p.Rereads display v := by
      intro p hp v hv
      refine (hfits p hp v hv).mpr ?_
      rcases chosen_cases hv with ⟨hne, hcoerce⟩ | ⟨habsent, hdefault, rfl⟩
      · exact (hgiven p hp v hcoerce hne).mpr ((hdefaults p hp).2 hne)
      · exact (hdefaults p hp).1 habsent hdefault
    exact ⟨fun p hp v hv ↦ (hall p hp v hv).1, fun p hp v hv ↦ (hall p hp v hv).2⟩

end Result

/-! ## Manifests with one parameter -/

def onlyParameter (p : Parameter) (h : ∀ display, p.check display = .ok ()) : Interface where
  parameters := [p]
  accepted := Parameter.check_singleton h
  distinct := Parameter.nodup_singleton p

/-- The one value of its result. -/
theorem validateParams_onlyParameter {display : Display} {p : Parameter}
    {h : ∀ display, p.check display = .ok ()} {raw : List (Str × Json)} {v : Json}
    (hnames : ∀ entry ∈ raw, entry.1 = p.name) (hv : p.outcome display raw = .ok (some v)) :
    validateParams display (onlyParameter p h) raw = .ok [(p.name, v)] := by
  have hchosen : p.chosen display raw = some v := by rw [Parameter.chosen, hv]
  refine validateParams_eq_ok.mpr ⟨fun entry hentry ↦ ?_, fun q hq ↦ ?_, ?_⟩
  · exact List.mem_singleton.mpr (hnames entry hentry)
  · rw [List.mem_singleton.mp hq, Parameter.Settled, hchosen]
    exact ⟨hv, fun hnone ↦ absurd hnone (Option.some_ne_none v)⟩
  · simp [onlyParameter, selected, hchosen]

/-- `ratio: FLOAT`, with the integer 2 for a default. -/
def ratioManifest : Interface :=
  onlyParameter { name := str "ratio", type := .float, default := .int 2 } fun _ ↦ rfl

/-- `count: INTEGER`, with the text `many` for a default. -/
def countManifest : Interface :=
  onlyParameter { name := str "count", type := .integer, default := .text (str "many") } fun _ ↦ rfl

def halvesDisplay : Display where
  reprFloat _ := str "1.5"
  printable _ := true

/-- `{"ratio": 1.5}` -/
theorem sound_and_idempotent_iff_ratio :
    ratioManifest.Sound [(str "ratio", .float (decimalFloat false 15 (-1)))] ∧
      ratioManifest.Idempotent halvesDisplay
        [(str "ratio", .float (decimalFloat false 15 (-1)))] ↔
      ratioManifest.DefaultsFit [(str "ratio", .float (.finite false 3 (-1)))] := by
  have hscan : scanFloat (strip (str "1.5")) = some (.decimal false 15 (-1)) := by decide
  have hround : decimalFloat false 15 (-1) = .finite false 6755399441055744 (-52) := by
    decide +kernel
  refine @sound_and_idempotent_iff halvesDisplay _ _ _ ?_ ?_
  · refine validateParams_onlyParameter (by simp) ?_
    have hcoerce : coerce halvesDisplay { name := str "ratio", type := .float, default := .int 2 }
        (.float (.finite false 3 (-1))) = .ok (.float (decimalFloat false 15 (-1))) := by
      have htext : (Json.float (.finite false 3 (-1))).strOf halvesDisplay = some (str "1.5") := rfl
      unfold coerce
      dsimp only
      rw [htext, Option.bind_some, parseFloat, hscan]
      rfl
    have hvalue : Json.fieldD [(str "ratio", .float (.finite false 3 (-1)))] (str "ratio") .null =
        .float (.finite false 3 (-1)) := by decide
    rw [Parameter.outcome]
    dsimp only
    rw [hvalue, if_pos (by decide), hcoerce]
    rfl
  · intro name x hx
    refine ⟨_, hscan, ?_⟩
    rw [FloatText.rounded, hround]
    simp only [List.singleton_append, List.mem_cons, Prod.mk.injEq, Json.float.injEq,
      List.not_mem_nil, or_false] at hx
    rcases hx with ⟨-, rfl⟩ | ⟨-, rfl⟩
    · norm_num [PyFloat.value]
    · rw [hround]

/-- The default goes into the result as it is, and an infinity passes. -/
theorem defaults_not_sound :
    (∃ result, validateParams halvesDisplay countManifest [] = .ok result ∧
      ¬ (countManifest.Sound result ∧ countManifest.Idempotent halvesDisplay result)) ∧
    ∃ result, validateParams halvesDisplay ratioManifest [(str "ratio", .text (str "inf"))] =
        .ok result ∧
      ¬ (ratioManifest.Sound result ∧ ratioManifest.Idempotent halvesDisplay result) := by
  refine ⟨⟨_, validateParams_onlyParameter (v := .text (str "many")) (by simp) rfl, ?_⟩,
    _, validateParams_onlyParameter (v := .float (.infinite false)) (by simp) (by decide), ?_⟩
  · rintro ⟨hsound, -⟩
    obtain ⟨p, hp, -, htype⟩ := hsound.typed _ List.mem_cons_self
    rw [List.mem_singleton.mp hp] at htype
    exact htype
  · rintro ⟨hsound, -⟩
    obtain ⟨p, hp, -, htype⟩ := hsound.typed _ List.mem_cons_self
    rw [List.mem_singleton.mp hp] at htype
    exact Bool.false_ne_true htype

end DatumSync
