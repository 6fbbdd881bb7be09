import DatumSync.Python.Text

/-!
# Calling a function with positional arguments

Positional parameters take the values from left to right, and their defaults when the values are
used up.  Values that are left need `*args`, and a keyword-only parameter needs a default.
-/

namespace DatumSync.Python

/-- `ast.arguments`: the parameters of a function definition.  The last `defaults` of the positional
ones have a default, and so have the keyword-only ones that are marked. -/
structure Arguments where
  posonlyargs : List Str := []
  args : List Str
  vararg : Option Str := none
  kwonlyargs : List (Str × Bool) := []
  kwarg : Option Str := none
  defaults : ℕ := 0
  defaults_le : defaults ≤ posonlyargs.length + args.length
  /-- The compiler refuses two parameters of one name. -/
  distinct : (posonlyargs ++ args ++ vararg.toList ++ kwonlyargs.map Prod.fst ++ kwarg.toList).Nodup
  deriving DecidableEq

inductive Bound (V : Type*) where
  | given (value : V)
  | default
  | rest (values : List V)
  | keywords

namespace Arguments

variable (f : Arguments)

/-- How many values a call has to give. -/
def required : ℕ := f.posonlyargs.length + f.args.length - f.defaults

/-- The positional parameters, and whether they have a default. -/
def positional : List (Str × Bool) :=
  ((f.posonlyargs ++ f.args).take f.required).map (fun name ↦ (name, false)) ++
    ((f.posonlyargs ++ f.args).drop f.required).map fun name ↦ (name, true)

end Arguments

variable {V : Type*}

/-- The positional parameters with the values they take, and the values that are left. -/
def bindPositional : List (Str × Bool) → List V → Option (List (Str × Bound V) × List V)
  | [], values => some ([], values)
  | (name, _) :: params, v :: values =>
    (bindPositional params values).map fun r ↦ ((name, .given v) :: r.1, r.2)
  | (name, hasDefault) :: params, [] =>
    if hasDefault then (bindPositional params []).map fun r ↦ ((name, .default) :: r.1, r.2)
    else none

/-- The locals of a call with positional values; none for a `TypeError`. -/
def Arguments.bind (f : Arguments) (values : List V) : Option (List (Str × Bound V)) :=
  match bindPositional f.positional values with
  | none => none
  | some (bound, surplus) =>
    if f.vararg = none ∧ surplus ≠ [] then none
    else if f.kwonlyargs.all Prod.snd then
      some (bound ++ f.vararg.toList.map (fun name ↦ (name, .rest surplus)) ++
        f.kwonlyargs.map (fun param ↦ (param.1, .default)) ++
        f.kwarg.toList.map fun name ↦ (name, .keywords))
    else none

variable {params : List (Str × Bool)} {values : List V} {f : Arguments}

/-- The parameters beyond the values need a default. -/
theorem bindPositional_isSome :
    (bindPositional params values).isSome = true ↔
      ∀ param ∈ params.drop values.length, param.2 = true := by
  induction params generalizing values with
  | nil => exact iff_of_true rfl (by simp)
  | cons param params ih =>
    obtain ⟨name, hasDefault⟩ := param
    cases values with
    | nil =>
      have hrest := @ih []
      rw [List.length_nil, List.drop_zero] at hrest ⊢
      rw [bindPositional, List.forall_mem_cons, ← hrest]
      cases hasDefault with
      | false => simp
      | true => simp
    | cons v values =>
      rw [bindPositional, Option.isSome_map, List.length_cons, List.drop_succ_cons]
      exact ih

theorem bindPositional_surplus {bound : List (Str × Bound V)} {surplus : List V}
    (h : bindPositional params values = some (bound, surplus)) :
    surplus = values.drop params.length := by
  induction params generalizing values bound surplus with
  | nil => exact (Prod.mk.inj (Option.some.inj h)).2.symm
  | cons param params ih =>
    obtain ⟨name, hasDefault⟩ := param
    cases values with
    | nil =>
      rw [bindPositional] at h
      split_ifs at h
      obtain ⟨⟨b, s⟩, hrest, heq⟩ := Option.map_eq_some_iff.mp h
      rw [← (Prod.mk.inj heq).2, List.drop_nil, ih hrest, List.drop_nil]
    | cons v values =>
      rw [bindPositional] at h
      obtain ⟨⟨b, s⟩, hrest, heq⟩ := Option.map_eq_some_iff.mp h
      rw [← (Prod.mk.inj heq).2, List.length_cons, List.drop_succ_cons]
      exact ih hrest

theorem Arguments.length_positional :
    f.positional.length = f.posonlyargs.length + f.args.length := by
  rw [positional, List.length_append, List.length_map, List.length_map, ← List.length_append,
    List.take_append_drop, List.length_append]

theorem Arguments.forall_drop_positional (count : ℕ) :
    (∀ param ∈ f.positional.drop count, param.2 = true) ↔ f.required ≤ count := by
  have hlength : ((f.posonlyargs ++ f.args).take f.required).length = f.required := by
    rw [List.length_take, List.length_append]
    exact min_eq_left (Nat.sub_le _ _)
  rw [positional, List.drop_append, List.forall_mem_append, ← List.map_drop, ← List.map_drop,
    List.forall_mem_map, List.forall_mem_map]
  constructor
  · intro h
    by_contra hlt
    have hne : ((f.posonlyargs ++ f.args).take f.required).drop count ≠ [] := by
      rw [← List.length_pos_iff, List.length_drop, hlength]
      omega
    exact Bool.false_ne_true (h.1 _ (List.head_mem hne))
  · intro h
    refine ⟨fun name hname ↦ ?_, fun _ _ ↦ rfl⟩
    rw [List.drop_eq_nil_of_le (hlength.trans_le h)] at hname
    exact absurd hname List.not_mem_nil

/-- A call is possible with enough values, not too many unless there is `*args`, and defaults for
all keyword-only parameters. -/
theorem Arguments.bind_isSome : (f.bind values).isSome = true ↔
    f.required ≤ values.length ∧
      (values.length ≤ f.posonlyargs.length + f.args.length ∨ f.vararg.isSome = true) ∧
        ∀ param ∈ f.kwonlyargs, param.2 = true := by
  rw [bind, ← f.forall_drop_positional, ← bindPositional_isSome]
  cases hbind : bindPositional f.positional values with
  | none => exact iff_of_false Bool.false_ne_true fun h ↦ Bool.false_ne_true h.1
  | some r =>
    obtain ⟨bound, surplus⟩ := r
    have hsurplus : surplus ≠ [] ↔ ¬ values.length ≤ f.posonlyargs.length + f.args.length := by
      rw [bindPositional_surplus hbind, length_positional, Ne, List.drop_eq_nil_iff]
    have hstarred : ¬(f.vararg = none ∧ surplus ≠ []) ↔
        (values.length ≤ f.posonlyargs.length + f.args.length ∨ f.vararg.isSome = true) := by
      rw [hsurplus, not_and_not_right, Option.isSome_iff_ne_none]
      tauto
    rw [Option.isSome_some, ← hstarred, ← List.all_eq_true]
    dsimp only
    by_cases h : f.vararg = none ∧ surplus ≠ []
    · rw [if_pos h]
      exact iff_of_false Bool.false_ne_true fun hand ↦ hand.2.1 h
    · rw [if_neg h]
      by_cases hall : f.kwonlyargs.all Prod.snd = true
      · rw [if_pos hall]
        exact iff_of_true rfl ⟨rfl, h, hall⟩
      · rw [if_neg hall]
        exact iff_of_false Bool.false_ne_true fun hand ↦ hall hand.2.2

end DatumSync.Python
