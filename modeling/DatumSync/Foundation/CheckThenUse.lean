import DatumSync.Foundation.Machine

/-!
# A guard and a use that look up for themselves

A loop of hops.  At each hop a guard inspects the addresses one lookup has answered with; the
request of the hop then opens connections to addresses of a lookup of its own.  The answers are the
actions of the run, so they are as adverse as they may be.  What is opened is what was inspected,
and is as good as the guard means it to be, exactly when the second lookup keeps to the answer of
the first and none of the addresses is one that the guard lets slip.
-/

namespace DatumSync.Foundation

/-- Guard, request and redirect of each hop. -/
structure HopLoop (Pending Request Answer Response Address : Type*) where
  /-- What is requested at a hop when the guard's lookup has answered; `none` ends the loop. -/
  guard : ℕ → Pending → Answer → Option Request
  /-- The addresses of an answer, which the guard inspects. -/
  inspected : Answer → List Address
  /-- Whether the guard lets an address through. -/
  admits : Address → Bool
  /-- The next hop after a response, if there is one. -/
  follow : ℕ → Request → Response → Option Pending
  guard_admits : ∀ {hop pending answer request}, guard hop pending answer = some request →
    ∀ a ∈ inspected answer, admits a = true

namespace HopLoop

variable {Pending Request Answer Response Address : Type*}

inductive Phase (Pending Request Address : Type*) where
  | pending (hop : ℕ) (pending : Pending)
  | checked (hop : ℕ) (request : Request) (inspected : List Address)
  | sent (hop : ℕ) (request : Request)
  | ended

/-- An address to which a connection was opened, and those inspected for the hop. -/
structure Opening (Address : Type*) where
  hop : ℕ
  address : Address
  inspected : List Address

structure State (Pending Request Address : Type*) where
  phase : Phase Pending Request Address
  openings : List (Opening Address) := []

/-- The answer to the guard's lookup, the addresses a request opens connections to, and its
response. -/
inductive Action (Answer Response Address : Type*) where
  | guard (answer : Answer)
  | connect (addresses : List Address)
  | respond (response : Response)

/-- The loop before its first guard. -/
def State.start (first : Pending) : State Pending Request Address where
  phase := .pending 0 first

variable (L : HopLoop Pending Request Answer Response Address)

def machine : Machine (State Pending Request Address) (Action Answer Response Address) where
  step s
    | .guard answer =>
      match s.phase with
      | .pending hop pending =>
        match L.guard hop pending answer with
        | some request => some { s with phase := .checked hop request (L.inspected answer) }
        | none => some { s with phase := .ended }
      | _ => none
    | .connect addresses =>
      match s.phase with
      | .checked hop request inspected =>
        some { phase := .sent hop request
               openings := s.openings ++ addresses.map fun a ↦ ⟨hop, a, inspected⟩ }
      | _ => none
    | .respond response =>
      match s.phase with
      | .sent hop request =>
        match L.follow hop request response with
        | some pending => some { s with phase := .pending (hop + 1) pending }
        | none => some { s with phase := .ended }
      | _ => none

/-- Every address that was opened had been inspected for its hop and is a good one. -/
def Pinned (good : Address → Prop) (s : State Pending Request Address) : Prop :=
  ∀ o ∈ s.openings, o.address ∈ o.inspected ∧ good o.address

/-- A request opens only addresses that were inspected and that do not slip by the guard. -/
def Steady (slips : Address → Prop) (s : State Pending Request Address) :
    Action Answer Response Address → Prop
  | .connect addresses => ∀ hop request inspected, s.phase = .checked hop request inspected →
      ∀ a ∈ addresses, a ∈ inspected ∧ ¬ slips a
  | _ => True

/-- What was inspected has passed the guard. -/
structure Inv (good : Address → Prop) (s : State Pending Request Address) : Prop where
  admitted : ∀ hop request inspected, s.phase = .checked hop request inspected →
    ∀ a ∈ inspected, L.admits a = true
  pinned : Pinned good s

variable {L} {good slips : Address → Prop} {s t : State Pending Request Address}

/-- The steps that open nothing. -/
theorem Inv.step_of_openings (hs : L.Inv good s) (hopenings : t.openings = s.openings)
    (hphase : ∀ hop request inspected, t.phase = .checked hop request inspected →
      ∀ a ∈ inspected, L.admits a = true) : L.Inv good t where
  admitted := hphase
  pinned o ho := by
    rw [hopenings] at ho
    exact hs.pinned o ho

theorem Inv.guard (hs : L.Inv good s) {answer : Answer}
    (hstep : L.machine.step s (.guard answer) = some t) : L.Inv good t := by
  simp only [machine] at hstep
  split at hstep
  · split at hstep
    · next request hguard =>
      rw [← Option.some.inj hstep]
      refine Inv.step_of_openings hs rfl fun hop' request' inspected hphase ↦ ?_
      injection hphase with _ _ hinspected
      rw [← hinspected]
      exact L.guard_admits hguard
    · rw [← Option.some.inj hstep]
      exact Inv.step_of_openings hs rfl fun _ _ _ hphase ↦ by cases hphase
  · cases hstep

theorem Inv.respond (hs : L.Inv good s) {response : Response}
    (hstep : L.machine.step s (.respond response) = some t) : L.Inv good t := by
  simp only [machine] at hstep
  split at hstep
  · split at hstep
    all_goals
      rw [← Option.some.inj hstep]
      exact Inv.step_of_openings hs rfl fun _ _ _ hphase ↦ by cases hphase
  · cases hstep

/-- What a request opens. -/
theorem step_connect {addresses : List Address}
    (hstep : L.machine.step s (.connect addresses) = some t) :
    ∃ hop request inspected, s.phase = .checked hop request inspected ∧
      t.phase = .sent hop request ∧
      t.openings = s.openings ++ addresses.map fun a ↦ ⟨hop, a, inspected⟩ := by
  simp only [machine] at hstep
  split at hstep
  · next hop request inspected hphase =>
    rw [← Option.some.inj hstep]
    exact ⟨hop, request, inspected, hphase, rfl, rfl⟩
  · cases hstep

variable (hgood : ∀ a, L.admits a = true → (good a ↔ ¬ slips a))
include hgood

theorem Inv.connect (hs : L.Inv good s) {addresses : List Address}
    (hsteady : Steady slips s (.connect addresses : Action Answer Response Address))
    (hstep : L.machine.step s (.connect addresses) = some t) : L.Inv good t := by
  obtain ⟨hop, request, inspected, hchecked, hphase, hopenings⟩ := step_connect hstep
  refine ⟨fun _ _ _ h ↦ ?_, fun o ho ↦ ?_⟩
  · rw [hphase] at h
    cases h
  · rw [hopenings] at ho
    rcases List.mem_append.mp ho with hbefore | hnow
    · exact hs.pinned o hbefore
    · obtain ⟨a, ha, rfl⟩ := List.mem_map.mp hnow
      obtain ⟨hmem, hslips⟩ := hsteady hop request inspected hchecked a ha
      have hadmits := hs.admitted hop request inspected hchecked a hmem
      exact ⟨hmem, (hgood a hadmits).mpr hslips⟩

/-- A step that meets the condition keeps the invariant. -/
theorem Inv.step (hs : L.Inv good s) {a : Action Answer Response Address}
    (hsteady : Steady slips s a) (hstep : L.machine.step s a = some t) : L.Inv good t := by
  cases a with
  | guard answer => exact hs.guard hstep
  | connect addresses => exact hs.connect hgood hsteady hstep
  | respond response => exact hs.respond hstep

/-- A step that opens anything else breaks the pinning. -/
theorem Inv.unsteady (hs : L.Inv good s) {a : Action Answer Response Address}
    (hsteady : ¬ Steady slips s a) (hstep : L.machine.step s a = some t) : ¬ Pinned good t := by
  intro hpinned
  apply hsteady
  cases a with
  | connect addresses =>
    intro hop request inspected hphase a ha
    obtain ⟨hop', request', inspected', hchecked, -, hopenings⟩ := step_connect hstep
    rw [hphase] at hchecked
    injection hchecked with hhop hrequest hinspected
    have hopened : (⟨hop, a, inspected⟩ : Opening Address) ∈ t.openings := by
      rw [hopenings, ← hhop, ← hinspected]
      exact List.mem_append_right _ (List.mem_map_of_mem ha)
    obtain ⟨hmem, hroutable⟩ := hpinned _ hopened
    exact ⟨hmem, (hgood a (hs.admitted hop request inspected hphase a hmem)).mp hroutable⟩
  | guard _ | respond _ => trivial

/-- Throughout a run, whatever is opened was inspected for its hop and is good, exactly when every
request of the run opens inspected addresses that do not slip by the guard. -/
theorem pinned_iff_steady {first : Pending} {actions : List (Action Answer Response Address)}
    (hrun : L.machine.run (.start first) actions = some s) :
    L.machine.Always (Pinned good) (.start first) actions ↔
      L.machine.Meets (Steady slips) (.start first) actions := by
  refine Machine.always_iff_meets _ (I := L.Inv good) (fun _ h ↦ h.pinned)
    (fun _ _ _ h hC hstep ↦ h.step hgood hC hstep)
    (fun _ _ _ h hC hstep ↦ h.unsteady hgood hC hstep) hrun ?_
  exact ⟨fun _ _ _ hphase ↦ (by cases hphase), fun _ ho ↦ absurd ho List.not_mem_nil⟩

end HopLoop

end DatumSync.Foundation
