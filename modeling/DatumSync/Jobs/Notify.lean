import DatumSync.Jobs.Events
import DatumSync.Python.JsonDumps

/-!
# The payloads of `job_events`

What `jobs.notify` hands to `pg_notify` for each of its callers, and when it is short enough for
the server.  Only the field `message` is truncated, and it is truncated by characters, while the
server counts the bytes of the JSON text.
-/

namespace DatumSync.Jobs

open Python

/-- `str(job_id)` of a 128-bit `uuid.UUID`. -/
def uuidText (id : Fin (2 ^ 128)) : Str :=
  lowerHexDigits 8 (id.val / 2 ^ 96) ++ [cp '-'] ++
    lowerHexDigits 4 (id.val / 2 ^ 80) ++ [cp '-'] ++
    lowerHexDigits 4 (id.val / 2 ^ 64) ++ [cp '-'] ++
    lowerHexDigits 4 (id.val / 2 ^ 48) ++ [cp '-'] ++
    lowerHexDigits 12 id.val

def JobStatus.text : JobStatus → Str
  | queued => str "queued"
  | running => str "running"
  | complete => str "complete"
  | failed => str "failed"
  | cancelled => str "cancelled"

/-- The calls of `notify`, by the function that makes them. -/
inductive Announcement where
  | submit
  | claim
  | cancel
  | log (id : ℤ) (message level : Str)
  | progress (pct : PyFloat) (message : Str)
  | finish (status : JobStatus) (error : Option Str)

/-- The keyword arguments of `notify`. -/
def Announcement.payload : Announcement → List (Str × Json)
  | submit => [(str "event", .text (str "status")), (str "status", .text (str "queued"))]
  | claim => [(str "event", .text (str "status")), (str "status", .text (str "running"))]
  | cancel => [(str "event", .text (str "status")), (str "status", .text (str "cancelled"))]
  | log id message level =>
    [(str "event", .text (str "log")), (str "id", .int id),
      (str "level", .text (logLevel level)), (str "message", .text message)]
  | progress pct message =>
    [(str "event", .text (str "progress")), (str "pct", .float pct),
      (str "message", .text message)]
  | finish status error =>
    [(str "event", .text (str "status")), (str "status", .text status.text),
      (str "error", (error.map Json.text).getD .null)]

def notifyBody (jobId : Fin (2 ^ 128)) (payload : List (Str × Json)) : List (Str × Json) :=
  let body := (str "job_id", .text (uuidText jobId)) :: payload
  match Json.field body (str "message") with
  | some (.text message) => Json.assign body (str "message") (.text (truncate message))
  | _ => body

/-- The text `notify` hands to `pg_notify`. -/
def notifyText (reprFloat : PyFloat → Str) (jobId : Fin (2 ^ 128)) (a : Announcement) : Str :=
  dumps reprFloat (.obj (notifyBody jobId a.payload))

/-- The server's limit on a payload, in bytes. -/
def notifyLimit : ℕ := 8000

/-- `pg_notify` takes the payload. -/
def Deliverable (payload : Str) : Prop :=
  ∃ bytes, encodeUtf8 payload = some bytes ∧ bytes.length < notifyLimit

example : notifyText (fun _ ↦ []) 0 .submit =
    str ("\x7b\"job_id\": \"00000000-0000-0000-0000-000000000000\", " ++
      "\"event\": \"status\", \"status\": \"queued\"\x7d") := by decide +kernel

/-- How many characters a call's payload has: the fixed part, and what its arguments take. -/
def Announcement.width (reprFloat : PyFloat → Str) : Announcement → ℕ
  | submit => 89
  | claim => 90
  | cancel => 92
  | log id message level =>
    102 + (decimal id).length + escapedWidth (logLevel level) + escapedWidth (truncate message)
  | progress pct message => 95 + (reprFloat pct).length + escapedWidth (truncate message)
  | finish status none => 98 + escapedWidth status.text
  | finish status (some error) => 96 + escapedWidth status.text + escapedWidth error

theorem escapedWidth_uuidText (jobId : Fin (2 ^ 128)) : escapedWidth (uuidText jobId) = 36 := by
  have hdash : escapedWidth [cp '-'] = 1 := by decide +kernel
  simp only [uuidText, escapedWidth_append, escapedWidth_lowerHexDigits, hdash]

/-- A call with its message cut. -/
def Announcement.truncated : Announcement → Announcement
  | log id message level => log id (truncate message) level
  | progress pct message => progress pct (truncate message)
  | a => a

/-- The body holds the id and the arguments, only the message cut. -/
theorem notifyBody_eq (jobId : Fin (2 ^ 128)) (a : Announcement) :
    notifyBody jobId a.payload = (str "job_id", .text (uuidText jobId)) :: a.truncated.payload := by
  cases a with
  | finish status error => cases error <;> rfl
  | _ => rfl

theorem notifyText_length (reprFloat : PyFloat → Str) (jobId : Fin (2 ^ 128)) (a : Announcement) :
    (notifyText reprFloat jobId a).length = a.width reprFloat := by
  have hkeys : escapedWidth (str "job_id") = 6 ∧ escapedWidth (str "event") = 5 ∧
      escapedWidth (str "id") = 2 ∧ escapedWidth (str "level") = 5 ∧
      escapedWidth (str "message") = 7 ∧ escapedWidth (str "pct") = 3 ∧
      escapedWidth (str "status") = 6 ∧ escapedWidth (str "error") = 5 := by decide +kernel
  have hvalues : escapedWidth (str "log") = 3 ∧ escapedWidth (str "progress") = 8 ∧
      escapedWidth (str "queued") = 6 ∧ escapedWidth (str "running") = 7 ∧
      escapedWidth (str "cancelled") = 9 ∧ (str "null").length = 4 := by decide +kernel
  obtain ⟨hjob, hevent, hidKey, hlevel, hmessage, hpct, hstatus, herror⟩ := hkeys
  obtain ⟨hlog, hprogress, hqueued, hrunning, hcancelled, hnull⟩ := hvalues
  have hid := escapedWidth_uuidText jobId
  rw [notifyText, notifyBody_eq, dumps_obj_length reprFloat (List.cons_ne_nil _ _)]
  cases a with
  | finish status error =>
    cases error <;>
    simp only [Announcement.truncated, Announcement.payload, Announcement.width, Option.map_some,
      Option.map_none, Option.getD_some, Option.getD_none, List.map_cons, List.map_nil,
      List.sum_cons, List.sum_nil, dumps, quoted_length, *] <;>
    omega
  | _ =>
    simp only [Announcement.truncated, Announcement.payload, Announcement.width, List.map_cons,
      List.map_nil, List.sum_cons, List.sum_nil, dumps, quoted_length, *]
    try omega

theorem deliverable_iff {payload : Str} (h : IsAscii payload) :
    Deliverable payload ↔ payload.length < notifyLimit := by
  obtain ⟨bytes, hbytes, hlength⟩ := encodeUtf8_of_isAscii h
  constructor
  · rintro ⟨bytes', hbytes', hshort⟩
    rw [hbytes, Option.some.injEq] at hbytes'
    rw [← hlength, hbytes']
    exact hshort
  · intro hshort
    exact ⟨bytes, hbytes, hlength ▸ hshort⟩

/-- What the arguments of a call may take: none of `submit`, `claim` and `cancel` is too long. -/
def Announcement.Fits (reprFloat : PyFloat → Str) : Announcement → Prop
  | submit => True
  | claim => True
  | cancel => True
  | log id message level =>
    (decimal id).length + escapedWidth (logLevel level) + escapedWidth (truncate message) < 7898
  | progress pct message => (reprFloat pct).length + escapedWidth (truncate message) < 7905
  | finish _ none => True
  | finish status (some error) => escapedWidth status.text + escapedWidth error < 7904

/-- The payload of a call is short enough for `pg_notify` exactly when its arguments, escaped, take
no more than the fixed part leaves them. -/
theorem notifyText_deliverable_iff {reprFloat : PyFloat → Str}
    (hfloat : ∀ x, IsAscii (reprFloat x)) (jobId : Fin (2 ^ 128)) (a : Announcement) :
    Deliverable (notifyText reprFloat jobId a) ↔ a.Fits reprFloat := by
  have hascii : IsAscii (notifyText reprFloat jobId a) := dumps_isAscii hfloat _
  rw [deliverable_iff hascii, notifyText_length, notifyLimit]
  cases a with
  | finish status error =>
    cases error with
    | none =>
      refine iff_of_true ?_ trivial
      rw [Announcement.width]
      cases status <;> decide +kernel
    | some error =>
      rw [Announcement.width, Announcement.Fits]
      omega
  | log id message level =>
    rw [Announcement.width, Announcement.Fits]
    omega
  | progress pct message =>
    rw [Announcement.width, Announcement.Fits]
    omega
  | _ =>
    rw [Announcement.width]
    exact iff_of_true (by decide) trivial

theorem notifyText_deliverable_iff_failed :
    Deliverable (notifyText (fun _ ↦ str "0.5") 7 (.finish .failed (some (str "timed out")))) ↔
      (Announcement.finish .failed (some (str "timed out"))).Fits fun _ ↦ str "0.5" :=
  notifyText_deliverable_iff (fun _ ↦ by decide +kernel) 7 _

/-- A log message of accented letters is under the limit of `_truncate` and over the server's. -/
theorem notifyText_accented_too_long :
    ¬ Deliverable (notifyText (fun _ ↦ str "0.5") 7
      (.log 1 (List.replicate 1400 (cp 'é')) (str "info"))) := by
  have hascii : IsAscii (notifyText (fun _ ↦ str "0.5") 7
      (.log 1 (List.replicate 1400 (cp 'é')) (str "info"))) :=
    dumps_isAscii (fun _ ↦ by decide +kernel) _
  have hkept : truncate (List.replicate 1400 (cp 'é')) = List.replicate 1400 (cp 'é') :=
    if_pos (by rw [List.length_replicate]; decide)
  have hwidth : escapeWidth (cp 'é') = 6 := by decide +kernel
  rw [deliverable_iff hascii, notifyText_length, Announcement.width, hkept, escapedWidth_replicate,
    hwidth, notifyLimit]
  omega

end DatumSync.Jobs
