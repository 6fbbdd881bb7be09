import Mathlib.Data.List.Basic

/-!
# Loops that collect errors

A loop tries a step on every element.  An error of a family that it catches is put aside with its
element and the loop goes on; any other error ends it.  A loop of statements writes for every element
and ends at the first statement that raises.
-/

namespace DatumSync.Foundation

variable {α β γ ε σ : Type*}

/-! ## What a computation raises -/

/-- A computation raises no other error than of a family. -/
def OnlyRaises (family : ε → Bool) (x : Except ε α) : Prop := ∀ e, x = .error e → family e = true

@[simp]
theorem onlyRaises_ok {family : ε → Bool} {a : α} :
    OnlyRaises family (.ok a : Except ε α) := nofun

@[simp]
theorem onlyRaises_error {family : ε → Bool} {e : ε} :
    OnlyRaises family (.error e : Except ε α) ↔ family e = true :=
  ⟨fun h ↦ h e rfl, fun h _ he ↦ Except.error.inj he ▸ h⟩

theorem bind_eq_ok {β : Type _} {x : Except ε α} {f : α → Except ε β} {b : β} :
    x >>= f = .ok b ↔ ∃ a, x = .ok a ∧ f a = .ok b := by
  cases x with
  | ok a => exact ⟨fun h ↦ ⟨a, rfl, h⟩, fun ⟨_, h, h'⟩ ↦ Except.ok.inj h ▸ h'⟩
  | error e => exact iff_of_false nofun fun h ↦ nomatch h.choose_spec.1

/-- A sequence raises what its parts raise, the second where the first is done. -/
theorem onlyRaises_bind {α β : Type _} {family : ε → Bool} {x : Except ε α}
    {f : α → Except ε β} : OnlyRaises family (x >>= f) ↔
      OnlyRaises family x ∧ ∀ a, x = .ok a → OnlyRaises family (f a) := by
  cases x with
  | ok a =>
    change OnlyRaises family (f a) ↔ _
    simp
  | error e =>
    change OnlyRaises family (.error e : Except ε β) ↔ _
    simp

theorem onlyRaises_seq {β : Type _} {family : ε → Bool} {x : Except ε PUnit}
    {f : PUnit → Except ε β} : OnlyRaises family (x >>= f) ↔
      OnlyRaises family x ∧ (x = .ok ⟨⟩ → OnlyRaises family (f ⟨⟩)) :=
  onlyRaises_bind.trans (and_congr_right fun _ ↦ ⟨fun h ↦ h ⟨⟩, fun h _ ↦ h⟩)

/-- An error of a family is replaced by another one. -/
def recast (caught : ε → Bool) (turn : ε → ε) (x : Except ε α) : Except ε α :=
  match x with
  | .ok a => .ok a
  | .error e => if caught e then .error (turn e) else .error e

theorem recast_eq_ok {caught : ε → Bool} {turn : ε → ε} {x : Except ε α} {a : α} :
    recast caught turn x = .ok a ↔ x = .ok a := by
  cases x with
  | ok b => exact Iff.rfl
  | error e => exact iff_of_false (by unfold recast; dsimp only; split <;> nofun) nofun

/-- What is replaced by an error of the family need not be of the family. -/
theorem onlyRaises_recast {family caught : ε → Bool} {turn : ε → ε} {x : Except ε α}
    (hturn : ∀ e, family (turn e) = true) :
    OnlyRaises family (recast caught turn x) ↔ OnlyRaises (fun e ↦ caught e || family e) x := by
  cases x with
  | ok a => simp [recast]
  | error e => cases h : caught e <;> simp [recast, h, hturn]

/-! ## Collecting -/

/-- What the step makes of the elements, and the errors that were caught. -/
def collect (step : α → Except ε β) (caught : ε → Bool) :
    List α → Except ε (List β × List (α × ε))
  | [] => .ok ([], [])
  | a :: rest =>
    match step a with
    | .ok b =>
      match collect step caught rest with
      | .ok (found, refused) => .ok (b :: found, refused)
      | .error e => .error e
    | .error e =>
      if caught e then
        match collect step caught rest with
        | .ok (found, refused) => .ok (found, (a, e) :: refused)
        | .error e => .error e
      else .error e

/-- No element raises an error that the loop does not catch. -/
def Contained (step : α → Except ε β) (caught : ε → Bool) (elements : List α) : Prop :=
  ∀ a ∈ elements, OnlyRaises caught (step a)

variable {step : α → Except ε β} {caught : ε → Bool} {elements : List α} {a : α}

theorem contained_cons {rest : List α} : Contained step caught (a :: rest) ↔
    OnlyRaises caught (step a) ∧ Contained step caught rest :=
  List.forall_mem_cons

/-- The loop ends with a result just when every error is caught. -/
theorem collect_isOk_iff :
    (∃ result, collect step caught elements = .ok result) ↔ Contained step caught elements := by
  induction elements with
  | nil => exact iff_of_true ⟨_, rfl⟩ (List.forall_mem_nil _)
  | cons a rest ih =>
    have hno : ∀ {γ : Type _} {e : ε}, ¬ ∃ c : γ, Except.error e = .ok c :=
      fun h ↦ nomatch h.choose_spec
    rw [contained_cons, ← ih, collect]
    cases hrest : collect step caught rest with
    | error f =>
      refine iff_of_false ?_ fun h ↦ hno h.2
      cases step a with
      | ok b => exact hno
      | error e =>
        dsimp only
        split <;> exact hno
    | ok result =>
      cases hstep : step a with
      | ok b => exact iff_of_true ⟨_, rfl⟩ ⟨nofun, _, rfl⟩
      | error e =>
        dsimp only
        split
        · next hcaught =>
          refine iff_of_true ⟨_, rfl⟩ ⟨fun f hf ↦ ?_, _, rfl⟩
          rw [← Except.error.inj hf, hcaught]
        · next hcaught => exact iff_of_false hno fun h ↦ hcaught (h.1 e rfl)

/-- What is found is what the step makes of some element, and the refused elements are those on
which it raises. -/
theorem mem_of_collect {found : List β} {refused : List (α × ε)}
    (h : collect step caught elements = .ok (found, refused)) :
    (∀ b, b ∈ found ↔ ∃ a ∈ elements, step a = .ok b) ∧
      ∀ a e, (a, e) ∈ refused ↔ a ∈ elements ∧ step a = .error e := by
  induction elements generalizing found refused with
  | nil =>
    obtain ⟨rfl, rfl⟩ := Prod.mk.inj (Except.ok.inj h)
    simp
  | cons first rest ih =>
    rw [collect] at h
    cases hstep : step first with
    | ok b =>
      cases hrest : collect step caught rest with
      | error e =>
        simp [hstep, hrest] at h
      | ok result =>
        obtain ⟨others, held⟩ := result
        rw [hstep, hrest] at h
        obtain ⟨rfl, rfl⟩ := Prod.mk.inj (Except.ok.inj h)
        obtain ⟨hfound, hrefused⟩ := ih hrest
        constructor
        · intro c
          rw [List.mem_cons, hfound, List.exists_mem_cons_iff, hstep, Except.ok.injEq, eq_comm]
        · intro a e
          rw [hrefused, List.mem_cons]
          constructor
          · exact fun hmem ↦ ⟨.inr hmem.1, hmem.2⟩
          · rintro ⟨rfl | hmem, he⟩
            · rw [hstep] at he
              cases he
            · exact ⟨hmem, he⟩
    | error e =>
      rw [hstep] at h
      dsimp only at h
      split at h
      · cases hrest : collect step caught rest with
        | error f =>
          simp [hrest] at h
        | ok result =>
          obtain ⟨others, held⟩ := result
          rw [hrest] at h
          obtain ⟨rfl, rfl⟩ := Prod.mk.inj (Except.ok.inj h)
          obtain ⟨hfound, hrefused⟩ := ih hrest
          constructor
          · intro c
            rw [hfound, List.exists_mem_cons_iff, hstep]
            simp
          · intro a f
            rw [List.mem_cons, hrefused, List.mem_cons, Prod.mk.injEq]
            constructor
            · rintro (⟨rfl, rfl⟩ | hmem)
              · exact ⟨.inl rfl, hstep⟩
              · exact ⟨.inr hmem.1, hmem.2⟩
            · rintro ⟨rfl | hmem, hf⟩
              · rw [hstep] at hf
                exact .inl ⟨rfl, (Except.error.inj hf).symm⟩
              · exact .inr ⟨hmem, hf⟩
      · cases h

/-! ## Statements -/

/-- A statement for every element, until one raises. -/
def runEach (raises : α → Option ε) (write : α → σ → σ) : List α → σ → Except ε σ
  | [], state => .ok state
  | a :: rest, state =>
    match raises a with
    | some e => .error e
    | none => runEach raises write rest (write a state)

/-- The statements are done just when none of them raises, and have then all written. -/
theorem runEach_eq_ok {raises : α → Option ε} {write : α → σ → σ} {state after : σ} :
    runEach raises write elements state = .ok after ↔
      (∀ a ∈ elements, raises a = none) ∧
        after = elements.foldl (fun state a ↦ write a state) state := by
  induction elements generalizing state with
  | nil =>
    rw [runEach, Except.ok.injEq, eq_comm]
    exact (and_iff_right (List.forall_mem_nil _)).symm
  | cons a rest ih =>
    rw [runEach, List.forall_mem_cons, List.foldl_cons]
    cases raises a with
    | some e => exact iff_of_false nofun fun h ↦ nomatch h.1.1
    | none =>
      dsimp only
      rw [ih, and_iff_right rfl]

/-- What no statement touches is as it was. -/
theorem foldl_fixed {δ : Type*} (write : α → σ → σ) (f : σ → δ) (h : ∀ a s, f (write a s) = f s)
    (state : σ) : f (elements.foldl (fun state a ↦ write a state) state) = f state := by
  induction elements generalizing state with
  | nil => rfl
  | cons a rest ih => exact (ih _).trans (h a state)

end DatumSync.Foundation
