import DatumSync.Foundation.Markup
import DatumSync.OAuth.Tables

/-!
# The consent screen

The page holds texts that anyone may choose: a client registers its own name, and the state comes
with the request.  Whatever they are, the page has the same tags, and its form posts the hidden
fields as they were given.
-/

namespace DatumSync.OAuth

open Foundation.Markup Python

def styleLines : List String := [
  ":root \x7b --navy:#1D3A5C; --amber:#C89632; --dark:#0F1923; --line:#2d4e76; \x7d",
  "* \x7b box-sizing:border-box; \x7d",
  "body \x7b margin:0; min-height:100vh; display:flex; align-items:center;",
  "       justify-content:center; background:var(--dark); color:#e8edf3;",
  "       font:15px/1.5 system-ui,-apple-system,\"Segoe UI\",sans-serif; \x7d",
  ".card \x7b width:100%; max-width:380px; padding:32px; background:var(--navy);",
  "        border:1px solid var(--line); border-radius:10px; \x7d",
  "h1 \x7b margin:0 0 4px; font-size:19px; font-weight:600; \x7d",
  "p \x7b margin:0 0 20px; color:#a9bcd0; font-size:13px; \x7d",
  "strong \x7b color:var(--amber); font-weight:600; \x7d",
  "label \x7b display:block; margin-bottom:6px; font-size:12px; color:#a9bcd0;",
  "        text-transform:uppercase; letter-spacing:.04em; \x7d",
  "input \x7b width:100%; padding:10px 12px; margin-bottom:16px; border-radius:6px;",
  "        border:1px solid var(--line); background:var(--dark); color:#e8edf3;",
  "        font-size:14px; \x7d",
  "input:focus \x7b outline:2px solid var(--amber); outline-offset:-1px; \x7d",
  "button \x7b width:100%; padding:11px; border:0; border-radius:6px; cursor:pointer;",
  "         background:var(--amber); color:var(--dark); font-size:14px;",
  "         font-weight:600; \x7d",
  ".err \x7b padding:10px 12px; margin-bottom:16px; border-radius:6px; font-size:13px;",
  "       background:#4a1d1d; border:1px solid #7a2e2e; color:#f3c4c4; \x7d",
  ".scope \x7b margin:0 0 20px; padding:10px 12px; border-radius:6px; font-size:13px;",
  "         background:rgba(0,0,0,.2); border:1px solid var(--line); color:#a9bcd0; \x7d"]

def style : Str := cp '\n' :: styleLines.flatMap fun line ↦ str line ++ [cp '\n']

def pageStart : Str :=
  str "<!doctype html><html lang=en><head><meta charset=utf-8>" ++
    str "<meta name=viewport content=\"width=device-width,initial-scale=1\">" ++
    str "<title>Datum-Sync</title><style>"

def cardStart : Str := str "</style></head><body><div class=card>"

def pageTail : Str := str "</div></body></html>"

def page (inner : Str) : Str := pageStart ++ (style ++ (cardStart ++ (inner ++ pageTail)))

def failPage (message : Str) : Str :=
  page (str "<h1>Cannot continue</h1><p>" ++ escape message ++ str "</p>")

def hiddenInput (field : Str × Str) : Str :=
  str "<input type=hidden name=\"" ++ escape field.1 ++ str "\" value=\"" ++ escape field.2 ++
    str "\">"

def banner (error : Option Str) : Str :=
  match error with
  | none => []
  | some message =>
    if message = [] then [] else str "<div class=err>" ++ escape message ++ str "</div>"

/-- `client_name or "An application"` -/
def shownName (clientName : Option Str) : Str :=
  match clientName with
  | none => str "An application"
  | some name => if name = [] then str "An application" else name

def signInText : Str :=
  str "</h1><p>Sign in with your Datum-Sync account to continue.</p>"

def formStart : Str :=
  str "</strong> will be able to run and read " ++
    str "the workspaces your account can already reach. It gains no permissions " ++
    str "of its own.</div>" ++
    str "<form method=post action=\"/oauth/authorize\" autocomplete=off>"

def formControls : Str :=
  str "<label for=u>Account</label>" ++
    str "<input id=u name=username autocomplete=username autofocus required>" ++
    str "<label for=p>Password</label>" ++
    str "<input id=p name=password type=password autocomplete=current-password required>" ++
    str "<button type=submit>Authorize</button>" ++ str "</form>"

def consentPage (clientName : Option Str) (hidden : List (Str × Str)) (error : Option Str) : Str :=
  let name := escape (shownName clientName)
  page (str "<h1>Authorize " ++ (name ++ (signInText ++ (banner error ++
    (str "<div class=scope><strong>" ++ (name ++ (formStart ++
      (hidden.flatMap hiddenInput ++ formControls))))))))

/-! ## What a browser finds -/

/-- What an input contributes to its form: its type, its name and its value. -/
structure Field where
  type : Str
  name : Str
  value : Str
  deriving DecidableEq

/-- The first attribute of a name, its references replaced. -/
def valueOf (tag : Tag) (name : String) : Str :=
  unescape ((tag.attributes.lookup (str name)).getD [])

/-- The tag opens an element of this name. -/
def opens (name : String) (tag : Tag) : Bool := !tag.closing && tag.name == str name

def fieldOf (tag : Tag) : Field := ⟨valueOf tag "type", valueOf tag "name", valueOf tag "value"⟩

/-- The inputs that a browser finds on a page. -/
def inputs (html : Str) : List Field := ((tags html).filter (opens "input")).map fieldOf

def forms (html : Str) : List (List (Str × Str)) :=
  ((tags html).filter (opens "form")).map Tag.attributes

/-- Line breaks as a form is posted with them. -/
def normalizeLines : Str → Str
  | [] => []
  | [c] => if c = cp '\r' ∨ c = cp '\n' then [cp '\r', cp '\n'] else [c]
  | c :: d :: rest =>
    if c = cp '\r' ∧ d = cp '\n' then c :: d :: normalizeLines rest
    else if c = cp '\r' ∨ c = cp '\n' then cp '\r' :: cp '\n' :: normalizeLines (d :: rest)
    else c :: normalizeLines (d :: rest)

/-- A value as it comes back from a hidden input; markup has no NUL. -/
def asPosted (value : Str) : Str :=
  normalizeLines (value.map fun c ↦ if c = 0 then 0xFFFD else c)

/-- What a browser posts once the account and its password have been typed in. -/
def submission (username password : Str) (fields : List Field) : List (Str × Str) :=
  fields.map fun field ↦ (field.name,
    if field.type = str "hidden" then asPosted field.value
    else if field.name = str "username" then username
    else if field.name = str "password" then password else field.value)

/-- A text that comes back as it is. -/
def isOneLine (s : Str) : Bool := s.all fun c ↦ c != cp '\r' && c != cp '\n' && c != 0

def hiddenTag (field : Str × Str) : Tag :=
  ⟨false, str "input", [(str "type", str "hidden"), (str "name", escape field.1),
    (str "value", escape field.2)]⟩

variable {s t : Str} {found more : List Tag} {clientName error : Option Str}
  {hidden : List (Str × Str)}

/-- A piece of a page that leaves no tag open, with its tags. -/
def Reads (s : Str) (found : List Tag) : Prop := read .text s = (.text, found)

theorem Reads.append (h : Reads s found) (ht : Reads t more) : Reads (s ++ t) (found ++ more) :=
  read_both h ht

theorem reads_escape (s : Str) : Reads (escape s) [] := read_text (not_mem_escape (by decide))

/-- A hidden input is one tag, whatever its texts are. -/
theorem reads_hiddenInput (field : Str × Str) : Reads (hiddenInput field) [hiddenTag field] := by
  let opened : Tag := ⟨false, str "input", [(str "type", str "hidden")]⟩
  have hopen : read .text (str "<input type=hidden name=\"") =
      (.quoted (cp '"') opened (str "name") [], []) := rfl
  have hname := read_quoted opened (str "name") []
    (not_mem_escape (by decide) : cp '"' ∉ escape field.1)
  have hnext : read (.quoted (cp '"') opened (str "name") (escape field.1)) (str "\" value=\"") =
      (.quoted (cp '"') (opened.with (str "name") (escape field.1)) (str "value") [], []) := rfl
  have hvalue := read_quoted (opened.with (str "name") (escape field.1)) (str "value") []
    (not_mem_escape (by decide) : cp '"' ∉ escape field.2)
  have hclose : read (.quoted (cp '"') (opened.with (str "name") (escape field.1)) (str "value")
      (escape field.2)) (str "\">") = (.text, [hiddenTag field]) := rfl
  exact read_both (read_both (read_both (read_both hopen hname) hnext) hvalue) hclose

theorem reads_hidden (hidden : List (Str × Str)) :
    Reads (hidden.flatMap hiddenInput) (hidden.map hiddenTag) := by
  induction hidden with
  | nil => exact rfl
  | cons field rest ih => exact (reads_hiddenInput field).append ih

def bannerTags (error : Option Str) : List Tag :=
  match error with
  | none => []
  | some message =>
    if message = [] then []
    else [⟨false, str "div", [(str "class", str "err")]⟩, ⟨true, str "div", []⟩]

theorem reads_banner (error : Option Str) : Reads (banner error) (bannerTags error) := by
  cases error with
  | none => exact rfl
  | some message =>
    rw [banner, bannerTags]
    split
    · exact rfl
    · have hstart : Reads (str "<div class=err>")
          [⟨false, str "div", [(str "class", str "err")]⟩] := read_str rfl
      have hend : Reads (str "</div>") [⟨true, str "div", []⟩] := read_str rfl
      exact (hstart.append (reads_escape message)).append hend

/-! ## The fixed parts -/

theorem styleLines_plain : ∀ line ∈ styleLines, cp '<' ∉ str line := by
  unfold styleLines
  repeat' refine List.forall_mem_cons.mpr ⟨not_mem_str (by decide), ?_⟩
  exact List.forall_mem_nil _

theorem reads_style : Reads style [] := by
  apply read_text
  intro hmem
  cases List.mem_cons.mp hmem with
  | inl h => exact absurd h (by decide)
  | inr h =>
    obtain ⟨line, hline, hin⟩ := List.mem_flatMap.mp h
    cases List.mem_append.mp hin with
    | inl htext => exact styleLines_plain line hline htext
    | inr hend => exact absurd (List.mem_singleton.mp hend) (by decide)

def htmlTags : List Tag :=
  [⟨false, str "html", [(str "lang", str "en")]⟩, ⟨false, str "head", []⟩,
    ⟨false, str "meta", [(str "charset", str "utf-8")]⟩]

def metaTag : Tag :=
  ⟨false, str "meta", [(str "name", str "viewport"),
    (str "content", str "width=device-width,initial-scale=1")]⟩

def titleTags : List Tag :=
  [⟨false, str "title", []⟩, ⟨true, str "title", []⟩, ⟨false, str "style", []⟩]

theorem reads_pageStart : Reads pageStart (htmlTags ++ [metaTag] ++ titleTags) := by
  have hhtml : Reads (str "<!doctype html><html lang=en><head><meta charset=utf-8>") htmlTags :=
    read_str rfl
  have hmeta : Reads (str "<meta name=viewport content=\"width=device-width,initial-scale=1\">")
      [metaTag] := read_str (by decide +kernel)
  have htitle : Reads (str "<title>Datum-Sync</title><style>") titleTags := read_str rfl
  exact (hhtml.append hmeta).append htitle

def cardTags : List Tag :=
  [⟨true, str "style", []⟩, ⟨true, str "head", []⟩, ⟨false, str "body", []⟩,
    ⟨false, str "div", [(str "class", str "card")]⟩]

theorem reads_cardStart : Reads cardStart cardTags := read_str rfl

def pageTailTags : List Tag :=
  [⟨true, str "div", []⟩, ⟨true, str "body", []⟩, ⟨true, str "html", []⟩]

theorem reads_pageTail : Reads pageTail pageTailTags := read_str rfl

/-- The page around what is put into it. -/
theorem Reads.page (h : Reads s found) :
    Reads (page s) (htmlTags ++ [metaTag] ++ titleTags ++ (cardTags ++ (found ++ pageTailTags))) :=
  reads_pageStart.append (reads_style.append (reads_cardStart.append (h.append reads_pageTail)))

def signInTags : List Tag :=
  [⟨true, str "h1", []⟩, ⟨false, str "p", []⟩, ⟨true, str "p", []⟩]

theorem reads_signInText : Reads signInText signInTags := read_str rfl

def scopeTags : List Tag :=
  [⟨false, str "div", [(str "class", str "scope")]⟩, ⟨false, str "strong", []⟩]

def formTag : Tag :=
  ⟨false, str "form", [(str "method", str "post"), (str "action", str "/oauth/authorize"),
    (str "autocomplete", str "off")]⟩

theorem reads_formStart :
    Reads formStart ([⟨true, str "strong", []⟩] ++ [] ++ [⟨true, str "div", []⟩] ++ [formTag]) := by
  have hstrong : Reads (str "</strong> will be able to run and read ")
      [⟨true, str "strong", []⟩] := read_str rfl
  have htext : Reads (str "the workspaces your account can already reach. It gains no permissions ")
      [] := read_str (by decide +kernel)
  have hdiv : Reads (str "of its own.</div>") [⟨true, str "div", []⟩] := read_str rfl
  have hform : Reads (str "<form method=post action=\"/oauth/authorize\" autocomplete=off>")
      [formTag] := read_str rfl
  exact ((hstrong.append htext).append hdiv).append hform

def usernameTag : Tag :=
  ⟨false, str "input", [(str "id", str "u"), (str "name", str "username"),
    (str "autocomplete", str "username"), (str "autofocus", []), (str "required", [])]⟩

def passwordTag : Tag :=
  ⟨false, str "input", [(str "id", str "p"), (str "name", str "password"),
    (str "type", str "password"), (str "autocomplete", str "current-password"),
    (str "required", [])]⟩

def labelTags (target : String) : List Tag :=
  [⟨false, str "label", [(str "for", str target)]⟩, ⟨true, str "label", []⟩]

def buttonTags : List Tag :=
  [⟨false, str "button", [(str "type", str "submit")]⟩, ⟨true, str "button", []⟩]

theorem reads_formControls : Reads formControls (labelTags "u" ++ [usernameTag] ++ labelTags "p" ++
    [passwordTag] ++ buttonTags ++ [⟨true, str "form", []⟩]) := by
  have haccount : Reads (str "<label for=u>Account</label>") (labelTags "u") := read_str rfl
  have husername : Reads (str "<input id=u name=username autocomplete=username autofocus required>")
      [usernameTag] := read_str rfl
  have hlabel : Reads (str "<label for=p>Password</label>") (labelTags "p") := read_str rfl
  have hpassword : Reads
      (str "<input id=p name=password type=password autocomplete=current-password required>")
      [passwordTag] := read_str (by decide +kernel)
  have hbutton : Reads (str "<button type=submit>Authorize</button>") buttonTags := read_str rfl
  have hend : Reads (str "</form>") [⟨true, str "form", []⟩] := read_str rfl
  exact ((((haccount.append husername).append hlabel).append hpassword).append hbutton).append hend

/-! ## The page -/

/-- The tags of the consent screen: none comes from the texts that are put into it. -/
theorem reads_consentPage (clientName : Option Str) (hidden : List (Str × Str))
    (error : Option Str) : Reads (consentPage clientName hidden error)
      (htmlTags ++ [metaTag] ++ titleTags ++ (cardTags ++ (([⟨false, str "h1", []⟩] ++ ([] ++
        (signInTags ++ (bannerTags error ++ (scopeTags ++ ([] ++
          (([⟨true, str "strong", []⟩] ++ [] ++ [⟨true, str "div", []⟩] ++ [formTag]) ++
            (hidden.map hiddenTag ++ (labelTags "u" ++ [usernameTag] ++ labelTags "p" ++
              [passwordTag] ++ buttonTags ++ [⟨true, str "form", []⟩]))))))))) ++
          pageTailTags))) := by
  have hname := reads_escape (shownName clientName)
  have htitle : Reads (str "<h1>Authorize ") [⟨false, str "h1", []⟩] := read_str rfl
  have hscope : Reads (str "<div class=scope><strong>") scopeTags := read_str rfl
  have hform := reads_formStart.append ((reads_hidden hidden).append reads_formControls)
  have hcard := htitle.append (hname.append (reads_signInText.append
    ((reads_banner error).append (hscope.append (hname.append hform)))))
  exact hcard.page

theorem fieldOf_hiddenTag (field : Str × Str) :
    fieldOf (hiddenTag field) = ⟨str "hidden", field.1, field.2⟩ := by
  have htype : valueOf (hiddenTag field) "type" = str "hidden" := rfl
  have hname : valueOf (hiddenTag field) "name" = unescape (escape field.1) := rfl
  have hvalue : valueOf (hiddenTag field) "value" = unescape (escape field.2) := rfl
  rw [fieldOf, htype, hname, hvalue, unescape_escape, unescape_escape]

theorem bannerTags_opens {name : String} (h : str name ≠ str "div") :
    (bannerTags error).filter (opens name) = [] := by
  apply List.filter_eq_nil_iff.mpr
  intro tag htag hopens
  rw [opens, Bool.and_eq_true, beq_iff_eq] at hopens
  cases error with
  | none => cases htag
  | some message =>
    rw [bannerTags] at htag
    split at htag
    · cases htag
    · rw [List.mem_cons, List.mem_singleton] at htag
      rcases htag with rfl | rfl
      · exact h hopens.2.symm
      · exact absurd hopens.1 Bool.false_ne_true

theorem filter_hiddenTag (hidden : List (Str × Str)) :
    (hidden.map hiddenTag).filter (opens "input") = hidden.map hiddenTag := by
  apply List.filter_eq_self.mpr
  intro tag htag
  obtain ⟨field, -, rfl⟩ := List.mem_map.mp htag
  rfl

theorem filter_hiddenTag_form (hidden : List (Str × Str)) :
    (hidden.map hiddenTag).filter (opens "form") = [] := by
  apply List.filter_eq_nil_iff.mpr
  intro tag htag
  obtain ⟨field, -, rfl⟩ := List.mem_map.mp htag
  exact Bool.false_ne_true

theorem inputs_eq (clientName : Option Str) (hidden : List (Str × Str)) (error : Option Str) :
    inputs (consentPage clientName hidden error) =
      hidden.map (fun field ↦ ⟨str "hidden", field.1, field.2⟩) ++
        [⟨[], str "username", []⟩, ⟨str "password", str "password", []⟩] := by
  rw [inputs, tags, congrArg Prod.snd (reads_consentPage clientName hidden error)]
  simp only [List.filter_append, List.append_assoc, filter_hiddenTag,
    bannerTags_opens (by decide : str "input" ≠ str "div")]
  change (hidden.map hiddenTag ++ [usernameTag, passwordTag]).map fieldOf = _
  rw [List.map_append, List.map_map]
  exact congrArg (· ++ _) (List.map_congr_left fun field _ ↦ fieldOf_hiddenTag field)

theorem forms_eq (clientName : Option Str) (hidden : List (Str × Str)) (error : Option Str) :
    forms (consentPage clientName hidden error) =
      [[(str "method", str "post"), (str "action", str "/oauth/authorize"),
        (str "autocomplete", str "off")]] := by
  rw [forms, tags, congrArg Prod.snd (reads_consentPage clientName hidden error)]
  simp only [List.filter_append, List.append_assoc, filter_hiddenTag_form,
    bannerTags_opens (by decide : str "form" ≠ str "div")]
  rfl

/-- Whatever the client calls itself, and whatever the request asks for: the page has one form, with
one hidden input for each field, which holds its name and its value, and the two inputs of the
account. -/
theorem inputs_consentPage (clientName : Option Str) (hidden : List (Str × Str))
    (error : Option Str) :
    inputs (consentPage clientName hidden error) =
      hidden.map (fun field ↦ ⟨str "hidden", field.1, field.2⟩) ++
        [⟨[], str "username", []⟩, ⟨str "password", str "password", []⟩] ∧
    forms (consentPage clientName hidden error) =
      [[(str "method", str "post"), (str "action", str "/oauth/authorize"),
        (str "autocomplete", str "off")]] :=
  ⟨inputs_eq clientName hidden error, forms_eq clientName hidden error⟩

theorem normalizeLines_of_isOneLine {s : Str} (h : isOneLine s = true) : normalizeLines s = s := by
  induction s with
  | nil => rfl
  | cons c rest ih =>
    rw [isOneLine, List.all_cons, Bool.and_eq_true, Bool.and_eq_true, Bool.and_eq_true, bne_iff_ne,
      bne_iff_ne] at h
    obtain ⟨⟨⟨hcr, hlf⟩, -⟩, hrest⟩ := h
    cases rest with
    | nil => rw [normalizeLines, if_neg (not_or.mpr ⟨hcr, hlf⟩)]
    | cons d more =>
      rw [normalizeLines, if_neg (fun hand ↦ hcr hand.1), if_neg (not_or.mpr ⟨hcr, hlf⟩), ih hrest]

theorem asPosted_of_isOneLine {s : Str} (h : isOneLine s = true) : asPosted s = s := by
  have hsame : (s.map fun c ↦ if c = 0 then 0xFFFD else c) = s := by
    calc (s.map fun c ↦ if c = 0 then 0xFFFD else c)
      _ = s.map id := List.map_congr_left fun c hc ↦ if_neg fun hzero ↦ by
        have hall := List.all_eq_true.mp h c hc
        rw [hzero] at hall
        exact absurd hall (by decide)
      _ = s := List.map_id s
  rw [asPosted, hsame, normalizeLines_of_isOneLine h]

/-- The form as the page has it. -/
theorem submission_consentPage (username password : Str) :
    submission username password (inputs (consentPage clientName hidden error)) =
      hidden.map (fun field ↦ (field.1, asPosted field.2)) ++
        [(str "username", username), (str "password", password)] := by
  rw [inputs_eq, submission, List.map_append, List.map_map]
  rfl

end DatumSync.OAuth
