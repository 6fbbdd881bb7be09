import DatumSync.Connections.Store
import DatumSync.Foundation.Collect
import DatumSync.Proxy.Request
import DatumSync.Python.Values

/-!
# Rules that were stored and rules that apply

`inject_auth` on the dicts it is given, whose keys may be any hashable value.  `validate` checks the
type of a rule only; the fields that a type reads are looked up when a request is made.
-/

namespace DatumSync.Proxy

open Connections Foundation Python

/-- The headers and the parameters of a request, which `inject_auth` changes in place. -/
structure Maps where
  headers : List (Json × Json)
  params : List (Json × Json)

/-- The entry of `headers` or of `params` that a rule sets. -/
inductive Slot where
  | header (name : Json)
  | param (name : Json)

def Slot.key : Slot → Json
  | header name => name
  | param name => name

/-- `entries[key] = value` for a hashable key; a key that is equal keeps its place and its
spelling. -/
def setKey (key value : Json) : List (Json × Json) → List (Json × Json)
  | [] => [(key, value)]
  | (k, v) :: rest => if k.equals key then (k, value) :: rest else (k, v) :: setKey key value rest

/-- The maps after the assignment to a slot. -/
def Maps.assign (maps : Maps) (value : Json) : Slot → Maps
  | .header name => { maps with headers := setKey name value maps.headers }
  | .param name => { maps with params := setKey name value maps.params }

variable (display : Display)

/-- `f"{v}"` or `str(v)` -/
def textOrRaise (v : Json) : Except Exc Str :=
  match v.strOf display with
  | some s => .ok s
  | none => .error (.raised .valueError (str "Exceeds the limit for integer string conversion"))

/-- `secret.get(rule["secret_field"])`, which must be truthy. -/
def secretValue (rule secret : List (Str × Json)) (use : Str) : Except Exc Json := do
  let name ← requiredItem rule (str "secret_field")
  let value ← getItem secret name .null
  if value.truthy then return value
  match name.reprOf display with
  | some shown => throw (apiError 500 "MISSING_SECRET_FIELD"
      (str "secret has no " ++ shown ++ str " for " ++ use ++ str " injection"))
  | none => throw (.raised .valueError (str "Exceeds the limit for integer string conversion"))

def basicCredential (rule secret : List (Str × Json)) : Except Exc Str := do
  let user ← getItem secret (Json.fieldD rule (str "user_field") (.text (str "username"))) (.text [])
  let password ← getItem secret (Json.fieldD rule (str "pass_field") (.text (str "password")))
    (.text [])
  let user ← textOrRaise display user
  let password ← textOrRaise display password
  match encodeUtf8 (user ++ [cp ':'] ++ password) with
  | some bytes => return base64 bytes
  | none => throw (.raised .unicodeError (str "surrogates not allowed"))

/-- The key a `header` or `query_param` rule names, and its value. -/
def namedCredential (rule secret : List (Str × Json)) (key use : Str) : Except Exc (Json × Str) := do
  let name ← requiredItem rule key
  let value ← secretValue display rule secret use
  let text ← textOrRaise display value
  return (name, text)

/-- What the rule of a config assigns, up to the assignment; `none` where there is no rule. -/
def credential (config secret : List (Str × Json)) : Except Exc (Option (Slot × Str)) :=
  match Json.fieldD config (str "auth_inject") .null with
  | .null => .ok none
  | .obj rule =>
    let kind := Json.fieldD rule (str "type") .null
    if kind.eqText (str "bearer") then do
      let value ← secretValue display rule secret (str "bearer")
      let text ← textOrRaise display value
      return some (.header (.text (str "Authorization")), str "Bearer " ++ text)
    else if kind.eqText (str "basic") then do
      let encoded ← basicCredential display rule secret
      return some (.header (.text (str "Authorization")), str "Basic " ++ encoded)
    else if kind.eqText (str "header") then do
      let (name, text) ← namedCredential display rule secret (str "header") (str "header")
      return some (.header name, text)
    else if kind.eqText (str "query_param") then do
      let (name, text) ← namedCredential display rule secret (str "param") (str "query_param")
      return some (.param name, text)
    else match kind.reprOf display with
      | some shown => .error (apiError 500 "UNKNOWN_AUTH_INJECT"
          (str "auth_inject type " ++ shown ++ str " is not supported"))
      | none => .error (.raised .valueError (str "Exceeds the limit for integer string conversion"))
  | _ => .error (.raised .attributeError (str "object has no attribute 'get'"))

/-- `inject_auth`: how it ends, and the maps it leaves. -/
def injectInto (config secret : List (Str × Json)) (maps : Maps) : Except Exc Unit × Maps :=
  match credential display config secret with
  | .error e => (.error e, maps)
  | .ok none => (.ok (), maps)
  | .ok (some (slot, value)) =>
    if slot.key.hashable then (.ok (), maps.assign (.text value) slot)
    else (.error (.raised .typeError (str "unhashable type")), maps)

/-! ## One credential or an `ApiError` -/

/-- One entry has been added under the key, or has replaced the value under an equal one. -/
inductive SetsOne (key value : Json) : List (Json × Json) → List (Json × Json) → Prop where
  | added (entries : List (Json × Json)) (h : ∀ entry ∈ entries, entry.1.equals key = false) :
    SetsOne key value entries (entries ++ [(key, value)])
  | replaced (front back : List (Json × Json)) (k old : Json) (h : k.equals key = true) :
    SetsOne key value (front ++ (k, old) :: back) (front ++ (k, value) :: back)

def ruleSlot (rule : List (Str × Json)) : Option Slot :=
  let kind := Json.fieldD rule (str "type") .null
  if kind.eqText (str "bearer") || kind.eqText (str "basic") then
    some (.header (.text (str "Authorization")))
  else if kind.eqText (str "header") then (Json.field rule (str "header")).map .header
  else if kind.eqText (str "query_param") then (Json.field rule (str "param")).map .param
  else none

/-- Between the maps only the entry of the slot differs. -/
def Slot.SetsOnly (value : Json) (before after : Maps) : Slot → Prop
  | header name => SetsOne name value before.headers after.headers ∧ after.params = before.params
  | param name => SetsOne name value before.params after.params ∧ after.headers = before.headers

/-- The entry that the rule is about is set and nothing else; or an `ApiError` is raised and both
maps are as they were. -/
def Applied (config : List (Str × Json)) (before : Maps) (result : Except Exc Unit × Maps) : Prop :=
  (∃ rule slot value, Json.fieldD config (str "auth_inject") .null = .obj rule ∧
    ruleSlot rule = some slot ∧ result.1 = .ok () ∧ slot.SetsOnly (.text value) before result.2) ∨
  ∃ e, result = (.error e, before) ∧ e.isApi = true

/-! ## The rules that apply -/

/-- `secret.get(name)` for a hashable key. -/
def secretItem (secret : List (Str × Json)) (name default : Json) : Json :=
  match name with
  | .text s => Json.fieldD secret s default
  | _ => default

/-- The rule names a field, by a value that may be a key, and what is shown of it has a text. -/
def NamesField (rule secret : List (Str × Json)) : Prop :=
  ∃ name, Json.field rule (str "secret_field") = some name ∧ name.hashable = true ∧
    if (secretItem secret name .null).truthy then (secretItem secret name .null).hasText = true
    else name.hasText = true

/-- The values of a `basic` rule have texts that UTF-8 can encode. -/
def BasicEncodes (rule secret : List (Str × Json)) : Prop :=
  ∃ user password,
    (Json.fieldD rule (str "user_field") (.text (str "username"))).hashable = true ∧
    (Json.fieldD rule (str "pass_field") (.text (str "password"))).hashable = true ∧
    (secretItem secret (Json.fieldD rule (str "user_field") (.text (str "username")))
      (.text [])).strOf display = some user ∧
    (secretItem secret (Json.fieldD rule (str "pass_field") (.text (str "password")))
      (.text [])).strOf display = some password ∧
    (user ++ password).any isSurrogate = false

/-- The rule names its header or parameter, by a value that may be a key unless the secret lacks the
field. -/
def NamesKey (rule secret : List (Str × Json)) (key : Str) : Prop :=
  ∃ name, Json.field rule key = some name ∧ NamesField rule secret ∧
    (name.hashable = true ∨ ∀ field, Json.field rule (str "secret_field") = some field →
      (secretItem secret field .null).truthy = false)

/-- The rule has what its type reads. -/
def Complete (rule secret : List (Str × Json)) : Prop :=
  let kind := Json.fieldD rule (str "type") .null
  if kind.eqText (str "bearer") then NamesField rule secret
  else if kind.eqText (str "basic") then BasicEncodes display rule secret
  else if kind.eqText (str "header") then NamesKey rule secret (str "header")
  else NamesKey rule secret (str "param")

variable {display}

theorem setKey_setsOne (key value : Json) (entries : List (Json × Json)) :
    SetsOne key value entries (setKey key value entries) := by
  have hstep (front rest : List (Json × Json)) (hfront : ∀ entry ∈ front,
      entry.1.equals key = false) :
      SetsOne key value (front ++ rest) (front ++ setKey key value rest) := by
    induction rest generalizing front with
    | nil =>
      rw [List.append_nil, setKey]
      exact .added front hfront
    | cons entry rest ih =>
      obtain ⟨k, v⟩ := entry
      rw [setKey]
      split
      · next h => exact .replaced front rest k v h
      · next h =>
        have hnext := ih (front ++ [(k, v)]) (List.forall_mem_append.mpr
          ⟨hfront, List.forall_mem_singleton.mpr (Bool.eq_false_iff.mpr h)⟩)
        rwa [List.append_assoc, List.append_assoc] at hnext
  exact hstep [] entries (List.forall_mem_nil _)

theorem Maps.assign_setsOnly (maps : Maps) (value : Json) (slot : Slot) :
    slot.SetsOnly value maps (maps.assign value slot) := by
  cases slot with
  | header name => exact ⟨setKey_setsOne name value maps.headers, rfl⟩
  | param name => exact ⟨setKey_setsOne name value maps.params, rfl⟩

theorem getItem_eq {secret : List (Str × Json)} {name default : Json}
    (h : name.hashable = true) :
    getItem secret name default = .ok (secretItem secret name default) := by
  cases name with
  | text s => rfl
  | arr items => cases h
  | obj fields => cases h
  | _ => rfl

theorem getItem_unhashable {secret : List (Str × Json)} {name default : Json}
    (h : name.hashable = false) :
    getItem secret name default = .error (.raised .typeError (str "unhashable type")) := by
  cases name with
  | arr items => rfl
  | obj fields => rfl
  | _ => cases h

theorem isSome_strOf (v : Json) : (v.strOf display).isSome = v.hasText := by
  cases v with
  | text s => rfl
  | _ =>
    change (Json.reprOf display _).isSome = _
    rw [Json.reprOf]
    split
    · next h => exact h.symm
    · next h => exact (Bool.eq_false_iff.mpr h).symm

theorem onlyRaises_textOrRaise {v : Json} :
    OnlyRaises Exc.isApi (textOrRaise display v) ↔ v.hasText = true := by
  rw [← @isSome_strOf display, textOrRaise]
  cases v.strOf display with
  | none => exact iff_of_false (fun h ↦ nomatch h _ rfl) nofun
  | some s => exact iff_of_true onlyRaises_ok rfl

/-- How a lookup of a secret field ends for a rule that names one. -/
theorem secretValue_eq {rule secret : List (Str × Json)} {use : Str} {name : Json}
    (hname : Json.field rule (str "secret_field") = some name) (hhashable : name.hashable = true) :
    secretValue display rule secret use =
      if (secretItem secret name .null).truthy then .ok (secretItem secret name .null)
      else match name.reprOf display with
        | some shown => .error (apiError 500 "MISSING_SECRET_FIELD"
            (str "secret has no " ++ shown ++ str " for " ++ use ++ str " injection"))
        | none =>
          .error (.raised .valueError (str "Exceeds the limit for integer string conversion")) := by
  unfold secretValue
  rw [requiredItem, hname]
  dsimp only [bind, Except.bind]
  rw [getItem_eq hhashable]
  dsimp only
  split
  · rfl
  · cases name.reprOf display <;> rfl

theorem secretValue_raises {rule secret : List (Str × Json)} {use : Str}
    (h : ∀ name, Json.field rule (str "secret_field") = some name → name.hashable = false) :
    ¬ OnlyRaises Exc.isApi (secretValue display rule secret use) := by
  unfold secretValue
  rw [requiredItem]
  cases hname : Json.field rule (str "secret_field") with
  | none => exact fun hraises ↦ nomatch hraises _ rfl
  | some name =>
    dsimp only [bind, Except.bind]
    rw [getItem_unhashable (h name hname)]
    exact fun hraises ↦ nomatch hraises _ rfl

/-- A secret field is looked up and shown without another exception just when the rule names it. -/
theorem onlyRaises_secretValue {α : Type} {rule secret : List (Str × Json)} {use : Str}
    {f : Str → Except Exc α} :
    OnlyRaises Exc.isApi (do
      let value ← secretValue display rule secret use
      let text ← textOrRaise display value
      f text) ↔
      NamesField rule secret ∧ ∀ name text, Json.field rule (str "secret_field") = some name →
        (secretItem secret name .null).truthy = true →
          (secretItem secret name .null).strOf display = some text →
            OnlyRaises Exc.isApi (f text) := by
  by_cases hnamed : ∃ name, Json.field rule (str "secret_field") = some name ∧ name.hashable = true
  · obtain ⟨name, hname, hhashable⟩ := hnamed
    have hfield : NamesField rule secret ↔
        if (secretItem secret name .null).truthy then (secretItem secret name .null).hasText = true
        else name.hasText = true := by
      constructor
      · rintro ⟨other, hother, -, h⟩
        rwa [Option.some.inj (hname.symm.trans hother)]
      · exact fun h ↦ ⟨name, hname, hhashable, h⟩
    rw [secretValue_eq hname hhashable, hfield]
    cases htruthy : (secretItem secret name .null).truthy with
    | true =>
      simp only [if_true]
      change OnlyRaises Exc.isApi (textOrRaise display _ >>= f) ↔ _
      rw [onlyRaises_bind, onlyRaises_textOrRaise]
      refine and_congr_right fun htext ↦ ⟨fun h other text hother _ htext' ↦ ?_, fun h text ht ↦ ?_⟩
      · obtain rfl := Option.some.inj (hname.symm.trans hother)
        exact h text (by rw [textOrRaise, htext'])
      · refine h name text hname htruthy ?_
        rw [textOrRaise] at ht
        cases hstr : (secretItem secret name .null).strOf display with
        | none => rw [hstr] at ht; cases ht
        | some s => rw [hstr] at ht; rw [Except.ok.inj ht]
    | false =>
      simp only [Bool.false_eq_true, if_false]
      have hrest : ∀ other text, Json.field rule (str "secret_field") = some other →
          (secretItem secret other .null).truthy = true →
            (secretItem secret other .null).strOf display = some text →
              OnlyRaises Exc.isApi (f text) := by
        intro other text hother htrue
        rw [← Option.some.inj (hname.symm.trans hother), htruthy] at htrue
        cases htrue
      rw [and_iff_left hrest, Json.reprOf]
      split
      · next hshown =>
        split at hshown
        · next htext => exact iff_of_true (fun e he ↦ by cases he; rfl) htext
        · cases hshown
      · next hshown =>
        split at hshown
        · cases hshown
        · next htext => exact iff_of_false (fun h ↦ Bool.false_ne_true (h _ rfl)) htext
  · have hraises : ∀ name, Json.field rule (str "secret_field") = some name →
        name.hashable = false := by
      intro name hname
      by_contra h
      exact hnamed ⟨name, hname, Bool.not_eq_false _ ▸ h⟩
    rw [onlyRaises_bind]
    refine iff_of_false (fun h ↦ secretValue_raises hraises h.1) ?_
    rintro ⟨⟨name, hname, hhashable, _⟩, _⟩
    exact hnamed ⟨name, hname, hhashable⟩

theorem onlyRaises_getItem {α : Type} {secret : List (Str × Json)} {name default : Json}
    {f : Json → Except Exc α} : OnlyRaises Exc.isApi (getItem secret name default >>= f) ↔
      name.hashable = true ∧ OnlyRaises Exc.isApi (f (secretItem secret name default)) := by
  cases h : name.hashable with
  | true =>
    rw [getItem_eq h, and_iff_right rfl]
    rfl
  | false =>
    rw [getItem_unhashable h]
    exact iff_of_false (fun hraises ↦ nomatch hraises _ rfl) fun h ↦ nomatch h.1

theorem onlyRaises_text {α : Type} {v : Json} {f : Str → Except Exc α} :
    OnlyRaises Exc.isApi (textOrRaise display v >>= f) ↔
      ∃ text, v.strOf display = some text ∧ OnlyRaises Exc.isApi (f text) := by
  rw [textOrRaise]
  cases v.strOf display with
  | none => exact iff_of_false (fun hraises ↦ nomatch hraises _ rfl) fun ⟨_, h, _⟩ ↦ nomatch h
  | some s => exact ⟨fun h ↦ ⟨s, rfl, h⟩, fun ⟨_, hs, h⟩ ↦ by rwa [Option.some.inj hs]⟩

theorem onlyRaises_basicCredential {rule secret : List (Str × Json)} :
    OnlyRaises Exc.isApi (basicCredential display rule secret) ↔
      BasicEncodes display rule secret := by
  have hencode (user password : Str) : OnlyRaises Exc.isApi
      (match encodeUtf8 (user ++ [cp ':'] ++ password) with
        | some bytes => pure (base64 bytes)
        | none => throw (.raised .unicodeError (str "surrogates not allowed")) : Except Exc Str) ↔
      (user ++ password).any isSurrogate = false := by
    have hcolon : (user ++ [cp ':'] ++ password).any isSurrogate =
        (user ++ password).any isSurrogate := by
      rw [List.any_append, List.any_append, List.any_append,
        (by decide : [cp ':'].any isSurrogate = false), Bool.or_false]
    rw [encodeUtf8, hcolon]
    cases (user ++ password).any isSurrogate with
    | true => exact iff_of_false (fun hraises ↦ nomatch hraises _ rfl) nofun
    | false => exact iff_of_true nofun rfl
  unfold basicCredential
  simp only [onlyRaises_getItem, onlyRaises_text, hencode, BasicEncodes]
  constructor
  · rintro ⟨huser, hpassword, user, htext, password, htext', h⟩
    exact ⟨user, password, huser, hpassword, htext, htext', h⟩
  · rintro ⟨user, password, huser, hpassword, htext, htext', h⟩
    exact ⟨huser, hpassword, user, htext, password, htext', h⟩

/-- A named credential is found and may be assigned just when the rule names its key and field. -/
theorem onlyRaises_namedCredential {α : Type} {rule secret : List (Str × Json)} {key use : Str}
    {f : Json × Str → Except Exc α}
    (hf : ∀ name text, OnlyRaises Exc.isApi (f (name, text)) ↔ name.hashable = true) :
    OnlyRaises Exc.isApi (namedCredential display rule secret key use >>= f) ↔
      NamesKey rule secret key := by
  unfold namedCredential
  rw [requiredItem]
  cases hname : Json.field rule key with
  | none =>
    refine iff_of_false (fun hraises ↦ nomatch hraises _ rfl) ?_
    rintro ⟨name, h, _⟩
    rw [hname] at h
    cases h
  | some name =>
    have hkey : NamesKey rule secret key ↔ NamesField rule secret ∧ (name.hashable = true ∨
        ∀ field, Json.field rule (str "secret_field") = some field →
          (secretItem secret field .null).truthy = false) := by
      constructor
      · rintro ⟨other, hother, h⟩
        rwa [Option.some.inj (hname.symm.trans hother)]
      · exact fun h ↦ ⟨name, hname, h⟩
    rw [hkey, bind_assoc]
    change OnlyRaises Exc.isApi (_ >>= _) ↔ _
    simp only [bind_assoc, pure_bind]
    change OnlyRaises Exc.isApi (do
      let value ← secretValue display rule secret use
      let text ← textOrRaise display value
      f (name, text)) ↔ _
    rw [onlyRaises_secretValue]
    simp only [hf]
    refine and_congr_right fun hfield ↦ ⟨fun h ↦ ?_, fun h field text hfound htruthy htext ↦ ?_⟩
    · by_cases hhashable : name.hashable = true
      · exact .inl hhashable
      · refine .inr fun field hfound ↦ Bool.eq_false_iff.mpr fun htruthy ↦ hhashable ?_
        obtain ⟨other, hother, _, hshown⟩ := hfield
        rw [← Option.some.inj (hfound.symm.trans hother), if_pos htruthy,
          ← @isSome_strOf display] at hshown
        obtain ⟨text, htext⟩ := Option.isSome_iff_exists.mp hshown
        exact h field text hfound htruthy htext
    · obtain h | h := h
      · exact h
      · rw [h field hfound] at htruthy
        cases htruthy

/-- The assignment raises for a key that is no key. -/
def assignable : Option (Slot × Str) → Except Exc Unit
  | none => .ok ()
  | some (slot, _) =>
    if slot.key.hashable then .ok () else .error (.raised .typeError (str "unhashable type"))

theorem injectInto_fst (config secret : List (Str × Json)) (maps : Maps) :
    (injectInto display config secret maps).1 = credential display config secret >>= assignable := by
  unfold injectInto
  cases credential display config secret with
  | error e => rfl
  | ok found =>
    cases found with
    | none => rfl
    | some entry =>
      change (if _ then _ else _ : Except Exc Unit × Maps).1 = if _ then _ else _
      split <;> rfl

theorem onlyRaises_assignable {slot : Slot} {text : Str} :
    OnlyRaises Exc.isApi (assignable (some (slot, text))) ↔ slot.key.hashable = true := by
  rw [assignable]
  split
  · next h => exact iff_of_true onlyRaises_ok h
  · next h => exact iff_of_false (fun hraises ↦ nomatch hraises _ rfl) h

/-- The kinds that `validate` accepts. -/
theorem kind_of_accepted {fields : List (Str × Json)} {type : Str}
    (h : checkAuthInject type fields = .ok ()) {rule : List (Str × Json)}
    (hrule : Json.fieldD fields (str "auth_inject") .null = .obj rule) :
    ∃ kind ∈ authInjectTypes, Json.fieldD rule (str "type") .null = .text kind := by
  unfold checkAuthInject at h
  rw [hrule] at h
  dsimp only at h
  split at h
  · cases h
  · split at h
    · cases h
    · split at h
      · next hany =>
        obtain ⟨kind, hkind, heq⟩ := List.any_eq_true.mp hany
        refine ⟨kind, hkind, ?_⟩
        cases hv : Json.fieldD rule (str "type") .null with
        | text s => rw [hv] at heq; rw [beq_iff_eq.mp heq]
        | _ => rw [hv] at heq; cases heq
      · cases h

/-- A stored rule is applied without another exception just when it is complete. -/
theorem onlyRaises_credential {config secret rule : List (Str × Json)} {type : Str}
    (h : checkAuthInject type config = .ok ())
    (hrule : Json.fieldD config (str "auth_inject") .null = .obj rule) :
    OnlyRaises Exc.isApi (credential display config secret >>= assignable) ↔
      Complete display rule secret := by
  obtain ⟨kind, hkind, htype⟩ := kind_of_accepted h hrule
  have hself (s : Str) : (Json.text s).eqText s = true := beq_self_eq_true s
  have hbasic : (Json.text (str "basic")).eqText (str "bearer") = false := by decide
  have hheader : (Json.text (str "header")).eqText (str "bearer") = false ∧
      (Json.text (str "header")).eqText (str "basic") = false := by decide
  have hparam : (Json.text (str "query_param")).eqText (str "bearer") = false ∧
      (Json.text (str "query_param")).eqText (str "basic") = false ∧
        (Json.text (str "query_param")).eqText (str "header") = false := by decide
  have hauthorization (text : Str) : OnlyRaises Exc.isApi
      (assignable (some (.header (.text (str "Authorization")), text))) :=
    onlyRaises_assignable.mpr rfl
  unfold credential Complete
  rw [hrule]
  dsimp only
  rw [htype]
  obtain rfl | rfl | rfl | rfl : kind = str "basic" ∨ kind = str "bearer" ∨ kind = str "header" ∨
      kind = str "query_param" := by simpa [authInjectTypes] using hkind
  · simp only [hself, hbasic, Bool.false_eq_true, if_false, if_true, bind_assoc, pure_bind]
    rw [onlyRaises_bind, onlyRaises_basicCredential]
    exact and_iff_left fun _ _ ↦ hauthorization _
  · simp only [hself, if_true, bind_assoc, pure_bind]
    rw [onlyRaises_secretValue]
    exact and_iff_left fun _ _ _ _ _ ↦ hauthorization _
  · simp only [hself, hheader, Bool.false_eq_true, if_false, if_true, bind_assoc, pure_bind]
    exact onlyRaises_namedCredential fun _ _ ↦ onlyRaises_assignable
  · simp only [hself, hparam, Bool.false_eq_true, if_false, if_true, bind_assoc, pure_bind]
    exact onlyRaises_namedCredential fun _ _ ↦ onlyRaises_assignable

theorem namedCredential_ok {rule secret : List (Str × Json)} {key use : Str}
    {found : Json × Str} (h : namedCredential display rule secret key use = .ok found) :
    Json.field rule key = some found.1 := by
  obtain ⟨name, hname, h⟩ := DatumSync.bind_ok h
  obtain ⟨value, _, h⟩ := DatumSync.bind_ok h
  obtain ⟨text, _, h⟩ := DatumSync.bind_ok h
  rw [← Except.ok.inj h]
  rw [requiredItem] at hname
  split at hname
  · next hfield => rw [hfield, Except.ok.inj hname]
  · cases hname

/-- A rule that is there gives a credential, for the entry that it is about. -/
theorem credential_ok {config secret rule : List (Str × Json)} {found : Option (Slot × Str)}
    (hrule : Json.fieldD config (str "auth_inject") .null = .obj rule)
    (h : credential display config secret = .ok found) :
    ∃ slot text, found = some (slot, text) ∧ ruleSlot rule = some slot := by
  unfold credential at h
  rw [hrule] at h
  dsimp only at h
  rw [ruleSlot]
  split at h
  · next hkind =>
    obtain ⟨value, _, h⟩ := DatumSync.bind_ok h
    obtain ⟨shown, _, h⟩ := DatumSync.bind_ok h
    refine ⟨_, _, (Except.ok.inj h).symm, ?_⟩
    rw [hkind]
    rfl
  · split at h
    · next hkind =>
      obtain ⟨encoded, _, h⟩ := DatumSync.bind_ok h
      refine ⟨_, _, (Except.ok.inj h).symm, ?_⟩
      rw [hkind, Bool.or_true]
      rfl
    · next hbearer hbasic =>
      rw [Bool.not_eq_true] at hbearer hbasic
      split at h
      · next hkind =>
        obtain ⟨credential, hcredential, h⟩ := DatumSync.bind_ok h
        refine ⟨_, _, (Except.ok.inj h).symm, ?_⟩
        rw [hbearer, hbasic, hkind, namedCredential_ok hcredential]
        rfl
      · next hheader =>
        rw [Bool.not_eq_true] at hheader
        split at h
        · next hkind =>
          obtain ⟨credential, hcredential, h⟩ := DatumSync.bind_ok h
          refine ⟨_, _, (Except.ok.inj h).symm, ?_⟩
          rw [hbearer, hbasic, hheader, hkind, namedCredential_ok hcredential]
          rfl
        · split at h <;> cases h

/-- A rule that is there leaves one entry set or the maps as they were; it is applied just when no
other exception than an `ApiError` escapes. -/
theorem applied_iff_onlyRaises {config secret rule : List (Str × Json)} {maps : Maps}
    (hrule : Json.fieldD config (str "auth_inject") .null = .obj rule) :
    Applied config maps (injectInto display config secret maps) ↔
      OnlyRaises Exc.isApi (injectInto display config secret maps).1 := by
  unfold injectInto
  cases hcredential : credential display config secret with
  | error e =>
    rw [onlyRaises_error]
    constructor
    · rintro (⟨_, _, _, _, _, h, _⟩ | ⟨f, h, hapi⟩)
      · cases h
      · rw [Except.error.inj (congrArg Prod.fst h)]
        exact hapi
    · exact fun hapi ↦ .inr ⟨e, rfl, hapi⟩
  | ok found =>
    obtain ⟨slot, text, rfl, hslot⟩ := credential_ok hrule hcredential
    dsimp only
    split
    · exact iff_of_true (.inl ⟨rule, slot, text, hrule, hslot, rfl, maps.assign_setsOnly _ slot⟩)
        onlyRaises_ok
    · refine iff_of_false ?_ fun hraises ↦ nomatch hraises _ rfl
      rintro (⟨_, _, _, _, _, h, _⟩ | ⟨f, h, hapi⟩)
      · cases h
      · rw [← Except.error.inj (congrArg Prod.fst h)] at hapi
        cases hapi

/-- Without a rule nothing is set, and no `ApiError` is raised. -/
theorem not_applied {config secret : List (Str × Json)} {maps : Maps}
    (hrule : ¬ ∃ rule, Json.fieldD config (str "auth_inject") .null = .obj rule) :
    ¬ Applied config maps (injectInto display config secret maps) := by
  rintro (⟨rule, _, _, h, _⟩ | ⟨e, he, hapi⟩)
  · exact hrule ⟨rule, h⟩
  · unfold injectInto credential at he
    cases hvalue : Json.fieldD config (str "auth_inject") .null with
    | null =>
      rw [hvalue] at he
      cases he
    | obj rule => exact hrule ⟨rule, hvalue⟩
    | _ =>
      rw [hvalue] at he
      rw [← Except.error.inj (congrArg Prod.fst he)] at hapi
      cases hapi

/-- Of a stored config just a complete rule is applied. -/
theorem applied_iff_complete {server : Server} {scope : Str} {targets : List Str} {access : Str}
    {tier : ℤ} {config secret : List (Str × Json)}
    (h : validate server (str "http") scope targets access tier config = .ok ()) (maps : Maps) :
    Applied config maps (injectInto display config secret maps) ↔
      ∃ rule, Json.fieldD config (str "auth_inject") .null = .obj rule ∧
        Complete display rule secret := by
  obtain ⟨_, _, h⟩ := DatumSync.bind_ok h
  obtain ⟨_, _, h⟩ := DatumSync.bind_ok h
  obtain ⟨_, _, h⟩ := DatumSync.bind_ok h
  obtain ⟨_, _, h⟩ := DatumSync.bind_ok h
  obtain ⟨_, _, h⟩ := DatumSync.bind_ok h
  obtain ⟨_, _, h⟩ := DatumSync.bind_ok h
  obtain ⟨_, _, h⟩ := DatumSync.bind_ok h
  by_cases hrule : ∃ rule, Json.fieldD config (str "auth_inject") .null = .obj rule
  · obtain ⟨rule, hrule⟩ := hrule
    rw [applied_iff_onlyRaises hrule, injectInto_fst, onlyRaises_credential h hrule]
    constructor
    · exact fun hcomplete ↦ ⟨rule, hrule, hcomplete⟩
    · rintro ⟨other, hother, hcomplete⟩
      rwa [Json.obj.inj (hrule.symm.trans hother)]
  · exact iff_of_false (not_applied hrule) fun ⟨rule, h, _⟩ ↦ hrule ⟨rule, h⟩

/-- A display of texts and small integers. -/
def plainDisplay : Display where
  reprFloat _ := []
  printable _ := false

/-- The server of a store that shows texts as they are. -/
def plainServer : Server where
  reprOf := id
  reprFloat _ := []
  depth := 10
  jsonb := id
  storable _ := true

/-- The config of an API whose key is sent in a header. -/
def keyConfig (rule : List (Str × Json)) : List (Str × Json) :=
  [(str "base_url", .text (str "https://api.example.org")), (str "auth_inject", .obj rule)]

def keyRule : List (Str × Json) :=
  [(str "type", .text (str "header")), (str "header", .text (str "X-Key")),
    (str "secret_field", .text (str "api_key"))]

def callerMaps : Maps where
  headers := [(.text (str "Accept"), .text (str "*/*"))]
  params := []

theorem applied_iff_complete_key :
    Applied (keyConfig keyRule) callerMaps (injectInto plainDisplay (keyConfig keyRule)
        [(str "api_key", .text (str "k1"))] callerMaps) ↔
      ∃ rule, Json.fieldD (keyConfig keyRule) (str "auth_inject") .null = .obj rule ∧
        Complete plainDisplay rule [(str "api_key", .text (str "k1"))] :=
  @applied_iff_complete plainDisplay plainServer (str "global") [] (str "read") 1 (keyConfig keyRule)
    [(str "api_key", .text (str "k1"))] (by decide +kernel) callerMaps

/-- A rule that names no secret field is stored, and is a `KeyError` on every call. -/
theorem bearer_not_applied :
    validate plainServer (str "http") (str "global") [] (str "read") 1
        (keyConfig [(str "type", .text (str "bearer"))]) = .ok () ∧
      ¬ Applied (keyConfig [(str "type", .text (str "bearer"))]) callerMaps
        (injectInto plainDisplay (keyConfig [(str "type", .text (str "bearer"))])
          [(str "token", .text (str "t1"))] callerMaps) := by
  refine ⟨by decide +kernel, ?_⟩
  rintro (⟨_, _, _, _, _, h, _⟩ | ⟨e, h, hapi⟩)
  · exact nomatch h
  · have hraised : (injectInto plainDisplay (keyConfig [(str "type", .text (str "bearer"))])
        [(str "token", .text (str "t1"))] callerMaps).1 =
          .error (.raised .keyError (str "secret_field")) := by decide +kernel
    rw [h] at hraised
    rw [Except.error.inj hraised] at hapi
    cases hapi

end DatumSync.Proxy
