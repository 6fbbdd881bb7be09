import DatumSync.Python.JsonLoads
import Mathlib.Algebra.Order.Field.Power
import Mathlib.Algebra.Order.Ring.Rat
import Mathlib.Data.Nat.Cast.Order.Field
import Mathlib.Tactic.Linarith
import Mathlib.Tactic.NormNum
import Mathlib.Tactic.FieldSimp
import Mathlib.Tactic.Positivity
import Mathlib.Tactic.Ring

/-!
# The doubles that numerals round to

`nearestDouble` scales a fraction by a power of two so that its integer part has 53 bits, and rounds
half to even.  A fraction overflows from the midpoint between the largest double and `2 ^ 1024` on,
and an integer that has at most 53 bits above its trailing zeros is kept as it is.
-/

namespace DatumSync.Python

/-- `math.isfinite(x)` -/
def PyFloat.isFinite : PyFloat → Bool
  | finite .. => true
  | _ => false

/-- The number a finite float stands for. -/
def PyFloat.value : PyFloat → Option ℚ
  | finite negative mantissa exponent =>
    some ((if negative then -(mantissa : ℚ) else mantissa) * 2 ^ exponent)
  | _ => none

/-- From here on a number is nearer to `2 ^ 1024` than to the largest double. -/
def doubleOverflow : ℕ := (2 ^ 54 - 1) * 2 ^ 970

theorem doubleOverflow_pos : 0 < doubleOverflow :=
  Nat.mul_pos (by norm_num) (Nat.two_pow_pos _)

/-! ## Rounding -/

/-- A fraction divided by `2 ^ k`. -/
def scaling (num den : ℕ) (k : ℤ) : ℕ × ℕ :=
  if 0 ≤ k then (num, den * 2 ^ k.toNat) else (num * 2 ^ (-k).toNat, den)

/-- The exponent that leaves the integer part of a fraction 53 or 54 bits, as far as doubles go. -/
def leadExponent (num den : ℕ) : ℤ := max (-1074) ((Nat.log2 num : ℤ) - Nat.log2 den - 53)

/-- The exponent that leaves the integer part of a fraction 53 bits, as far as doubles go. -/
def unitExponent (num den : ℕ) : ℤ :=
  if 2 ^ 53 ≤ (scaling num den (leadExponent num den)).1 / (scaling num den (leadExponent num den)).2
  then leadExponent num den + 1 else leadExponent num den

/-- The integer nearest to `n / d`, ties to even. -/
def roundHalfEven (n d : ℕ) : ℕ :=
  if 2 * (n % d) < d then n / d else if d < 2 * (n % d) then n / d + 1 else n / d + n / d % 2

theorem nearestDouble_eq (negative : Bool) (num den : ℕ) :
    nearestDouble negative num den =
      let k := unitExponent num den
      let m := roundHalfEven (scaling num den k).1 (scaling num den k).2
      if m = 2 ^ 53 then
        if 971 ≤ k then .infinite negative else .finite negative (2 ^ 52) (k + 1)
      else if 971 < k then .infinite negative else .finite negative m k := rfl

theorem scaling_snd_pos {num den : ℕ} (hden : 0 < den) (k : ℤ) : 0 < (scaling num den k).2 := by
  unfold scaling
  split
  · exact Nat.mul_pos hden (Nat.two_pow_pos _)
  · exact hden

theorem scaling_ratio (num den : ℕ) (k : ℤ) :
    ((scaling num den k).1 : ℚ) / (scaling num den k).2 = (num : ℚ) / den / 2 ^ k := by
  unfold scaling
  split
  · next hk =>
    have hpow : (2 : ℚ) ^ k = 2 ^ k.toNat := by
      rw [← zpow_natCast, Int.toNat_of_nonneg hk]
    rw [hpow]
    push_cast
    rw [div_div]
  · next hk =>
    have hpow : (2 : ℚ) ^ k = (2 ^ (-k).toNat)⁻¹ := by
      rw [← zpow_natCast, Int.toNat_of_nonneg (by omega), zpow_neg, inv_inv]
    rw [hpow]
    push_cast
    rw [div_inv_eq_mul, div_mul_eq_mul_div]

/-- The integer part of a fraction is at least a bound just when the fraction is. -/
theorem le_div_iff_cast {n d b : ℕ} (hd : 0 < d) : b ≤ n / d ↔ (b : ℚ) ≤ (n : ℚ) / d := by
  have hdq : (0 : ℚ) < d := Nat.cast_pos.mpr hd
  rw [Nat.le_div_iff_mul_le hd, le_div_iff₀ hdq]
  exact_mod_cast Iff.rfl

theorem log2_bounds {n : ℕ} (hn : 0 < n) :
    (2 : ℚ) ^ (Nat.log2 n : ℤ) ≤ n ∧ (n : ℚ) < 2 ^ ((Nat.log2 n : ℤ) + 1) := by
  constructor
  · rw [zpow_natCast]
    exact_mod_cast Nat.log2_self_le hn.ne'
  · have hlt : n < 2 ^ (Nat.log2 n + 1) := Nat.lt_log2_self
    have hcast : (n : ℚ) < 2 ^ (Nat.log2 n + 1) := by exact_mod_cast hlt
    rw [← zpow_natCast] at hcast
    exact_mod_cast hcast

/-- A fraction lies between the powers of two that its logarithms give. -/
theorem ratio_bounds {num den : ℕ} (hnum : 0 < num) (hden : 0 < den) :
    (2 : ℚ) ^ ((Nat.log2 num : ℤ) - Nat.log2 den - 1) < (num : ℚ) / den ∧
      (num : ℚ) / den < 2 ^ ((Nat.log2 num : ℤ) - Nat.log2 den + 1) := by
  obtain ⟨hnlo, hnhi⟩ := log2_bounds hnum
  obtain ⟨hdlo, hdhi⟩ := log2_bounds hden
  have hd : (0 : ℚ) < den := Nat.cast_pos.mpr hden
  have htwo : (2 : ℚ) ≠ 0 := by norm_num
  constructor
  · rw [lt_div_iff₀ hd]
    calc (2 : ℚ) ^ ((Nat.log2 num : ℤ) - Nat.log2 den - 1) * den
        < 2 ^ ((Nat.log2 num : ℤ) - Nat.log2 den - 1) * 2 ^ ((Nat.log2 den : ℤ) + 1) :=
          mul_lt_mul_of_pos_left hdhi (by positivity)
      _ = 2 ^ (Nat.log2 num : ℤ) := by
          rw [← zpow_add₀ htwo]
          congr 1
          ring
      _ ≤ num := hnlo
  · rw [div_lt_iff₀ hd]
    calc (num : ℚ) < 2 ^ ((Nat.log2 num : ℤ) + 1) := hnhi
      _ = 2 ^ ((Nat.log2 num : ℤ) - Nat.log2 den + 1) * 2 ^ (Nat.log2 den : ℤ) := by
          rw [← zpow_add₀ htwo]
          congr 1
          ring
      _ ≤ 2 ^ ((Nat.log2 num : ℤ) - Nat.log2 den + 1) * den :=
          mul_le_mul_of_nonneg_left hdlo (by positivity)

/-- The scaled fraction is below `2 ^ 53`, and it has 53 bits above the smallest exponent. -/
theorem unitExponent_spec {num den : ℕ} (hnum : 0 < num) (hden : 0 < den) :
    (num : ℚ) / den / 2 ^ unitExponent num den < 2 ^ 53 ∧
      (unitExponent num den = -1074 ∨ 2 ^ 52 ≤ (num : ℚ) / den / 2 ^ unitExponent num den) := by
  obtain ⟨hlo, hhi⟩ := ratio_bounds hnum hden
  have htwo : (2 : ℚ) ≠ 0 := by norm_num
  have hlead : (Nat.log2 num : ℤ) - Nat.log2 den - 53 ≤ leadExponent num den := le_max_right _ _
  have hcut : 2 ^ 53 ≤ (scaling num den (leadExponent num den)).1 /
      (scaling num den (leadExponent num den)).2 ↔
      (2 : ℚ) ^ 53 ≤ (num : ℚ) / den / 2 ^ leadExponent num den := by
    rw [le_div_iff_cast (scaling_snd_pos hden _), scaling_ratio num den]
    norm_num
  unfold unitExponent
  split
  · next hbig =>
    have hstep : (num : ℚ) / den / 2 ^ (leadExponent num den + 1) =
        (num : ℚ) / den / 2 ^ leadExponent num den / 2 := by
      rw [zpow_add₀ htwo, zpow_one, ← div_div]
    have hbelow : (num : ℚ) / den / 2 ^ leadExponent num den < 2 ^ 54 := by
      rw [div_lt_iff₀ (by positivity)]
      calc (num : ℚ) / den < 2 ^ ((Nat.log2 num : ℤ) - Nat.log2 den + 1) := hhi
        _ ≤ 2 ^ (54 + leadExponent num den) :=
            zpow_le_zpow_right₀ (by norm_num) (by omega)
        _ = 2 ^ 54 * 2 ^ leadExponent num den := by
            rw [zpow_add₀ htwo]
            rfl
    rw [hstep]
    have habove := hcut.mp hbig
    constructor
    · linarith
    · right
      linarith
  · next hsmall =>
    refine ⟨not_le.mp fun h ↦ hsmall (hcut.mpr h), ?_⟩
    rcases max_choice (-1074 : ℤ) ((Nat.log2 num : ℤ) - Nat.log2 den - 53) with h | h
    · exact .inl h
    · right
      have heq : leadExponent num den = (Nat.log2 num : ℤ) - Nat.log2 den - 53 := h
      rw [le_div_iff₀ (by positivity), heq]
      calc (2 : ℚ) ^ 52 * 2 ^ ((Nat.log2 num : ℤ) - Nat.log2 den - 53)
          = 2 ^ ((Nat.log2 num : ℤ) - Nat.log2 den - 1) := by
            have hsplit : (Nat.log2 num : ℤ) - Nat.log2 den - 1 =
                52 + ((Nat.log2 num : ℤ) - Nat.log2 den - 53) := by ring
            rw [hsplit, zpow_add₀ htwo]
            rfl
        _ ≤ (num : ℚ) / den := hlo.le

theorem leadExponent_ge (num den : ℕ) : -1074 ≤ unitExponent num den := by
  have hlead : (-1074 : ℤ) ≤ leadExponent num den := le_max_left _ _
  unfold unitExponent
  split <;> omega

/-- A fraction below an even `b` rounds to `b` from the midpoint below it on. -/
theorem roundHalfEven_eq_iff {n d b : ℕ} (hd : 0 < d) (hb : b % 2 = 0) (hpos : 0 < b)
    (hlt : n < b * d) : roundHalfEven n d = b ↔ 2 * (b * d) ≤ 2 * n + d := by
  have hdiv : n / d < b := (Nat.div_lt_iff_lt_mul hd).mpr hlt
  have hsplit : d * (n / d) + n % d = n := Nat.div_add_mod n d
  have hmod : n % d < d := Nat.mod_lt _ hd
  by_cases hlast : n / d = b - 1
  · have hodd : n / d % 2 = 1 := by omega
    have hmul : d * (n / d) + d = b * d := by
      rw [hlast, mul_comm b d, ← Nat.mul_succ]
      congr 1
      omega
    unfold roundHalfEven
    split
    · omega
    · split <;> omega
  · have hmul : (n / d + 2) * d ≤ b * d := Nat.mul_le_mul_right d (by omega)
    have hleft : (n / d + 2) * d = d * (n / d) + 2 * d := by ring
    unfold roundHalfEven
    split
    · omega
    · split <;> omega

/-- A whole number rounds to itself. -/
theorem roundHalfEven_of_dvd {n d : ℕ} (hd : 0 < d) (h : n % d = 0) : roundHalfEven n d = n / d := by
  rw [roundHalfEven, h, if_pos (by omega)]

/-! ## Overflow -/

theorem nearestDouble_isFinite_iff (negative : Bool) {num den : ℕ} (hnum : 0 < num)
    (hden : 0 < den) :
    (nearestDouble negative num den).isFinite = true ↔ (num : ℚ) / den < doubleOverflow := by
  obtain ⟨hbelow, hunit⟩ := unitExponent_spec hnum hden
  have hk := leadExponent_ge num den
  have htwo : (2 : ℚ) ≠ 0 := by norm_num
  have hoverflow : (doubleOverflow : ℚ) = (2 ^ 53 - 1 / 2) * 2 ^ (971 : ℤ) := by
    have hsucc : (2 : ℚ) ^ (971 : ℤ) = 2 * 2 ^ 970 := by
      rw [← zpow_natCast, ← zpow_one_add₀ htwo]
      rfl
    rw [doubleOverflow, hsucc, Nat.cast_mul, Nat.cast_pow, Nat.cast_ofNat]
    generalize (2 : ℚ) ^ 970 = t
    norm_num
    ring
  rw [nearestDouble_eq]
  generalize unitExponent num den = k at *
  have hpow : (0 : ℚ) < 2 ^ k := zpow_pos (by norm_num) k
  have hd := @scaling_snd_pos num den hden k
  have hratio := scaling_ratio num den k
  have hlt : (scaling num den k).1 < 2 ^ 53 * (scaling num den k).2 := by
    rw [← hratio, div_lt_iff₀ (Nat.cast_pos.mpr hd)] at hbelow
    exact_mod_cast hbelow
  have hround := roundHalfEven_eq_iff hd (by norm_num) (by norm_num) hlt
  have hhalf : 2 * (2 ^ 53 * (scaling num den k).2) ≤
      2 * (scaling num den k).1 + (scaling num den k).2 ↔
      (2 ^ 53 - 1 / 2) * 2 ^ k ≤ (num : ℚ) / den := by
    have hcast : 2 * (2 ^ 53 * (scaling num den k).2) ≤
        2 * (scaling num den k).1 + (scaling num den k).2 ↔
        2 * (2 ^ 53 * ((scaling num den k).2 : ℚ)) ≤
          2 * (scaling num den k).1 + (scaling num den k).2 := by exact_mod_cast Iff.rfl
    rw [hcast, ← le_div_iff₀ hpow, ← hratio, le_div_iff₀ (Nat.cast_pos.mpr hd)]
    constructor
    · intro h
      linarith
    · intro h
      linarith
  have hcut := hround.trans hhalf
  rw [hoverflow, ← not_le]
  rcases lt_trichotomy k 971 with hsmall | rfl | hlarge
  · -- below the largest exponent the fraction is below `2 ^ 1023`
    have hfar : (num : ℚ) / den < 2 ^ 53 * 2 ^ (970 : ℤ) := by
      rw [div_lt_iff₀ hpow] at hbelow
      refine hbelow.trans_le (mul_le_mul_of_nonneg_left ?_ (by norm_num))
      exact zpow_le_zpow_right₀ (by norm_num) (by omega)
    have hhi : (2 : ℚ) ^ (971 : ℤ) = 2 * 2 ^ (970 : ℤ) := by
      rw [← zpow_one_add₀ htwo]
      rfl
    have hpos : (0 : ℚ) < 2 ^ (970 : ℤ) := zpow_pos (by norm_num) _
    have hno : ¬ (2 ^ 53 - 1 / 2) * 2 ^ (971 : ℤ) ≤ (num : ℚ) / den := by
      rw [not_le, hhi]
      generalize (2 : ℚ) ^ (970 : ℤ) = t at hfar hpos ⊢
      linarith only [hfar, hpos]
    have hfits : ¬ 971 ≤ k := by omega
    have hfits' : ¬ 971 < k := by omega
    dsimp only
    rw [if_neg hfits, if_neg hfits']
    simp only [hno, not_false_eq_true, iff_true]
    split <;> rfl
  · -- at the largest exponent what rounds up to `2 ^ 53` overflows
    rw [← hcut]
    dsimp only
    split
    · next hm =>
      rw [if_pos le_rfl]
      exact iff_of_false Bool.false_ne_true (not_not.mpr hm)
    · next hm =>
      rw [if_neg (lt_irrefl _)]
      exact iff_of_true rfl hm
  · -- above it the fraction has 53 bits already
    have hnear : (2 : ℚ) ^ 52 * 2 ^ (972 : ℤ) ≤ (num : ℚ) / den := by
      have hbig := hunit.resolve_left (by omega)
      rw [le_div_iff₀ hpow] at hbig
      refine le_trans (mul_le_mul_of_nonneg_left ?_ (by norm_num)) hbig
      exact zpow_le_zpow_right₀ (by norm_num) (by omega)
    have hhi : (2 : ℚ) ^ (972 : ℤ) = 2 * 2 ^ (971 : ℤ) := by
      rw [← zpow_one_add₀ htwo]
      rfl
    have hpos : (0 : ℚ) < 2 ^ (971 : ℤ) := zpow_pos (by norm_num) _
    have hyes : (2 ^ 53 - 1 / 2) * 2 ^ (971 : ℤ) ≤ (num : ℚ) / den := by
      rw [hhi] at hnear
      generalize (2 : ℚ) ^ (971 : ℤ) = t at hnear hpos ⊢
      linarith only [hnear, hpos]
    dsimp only
    rw [if_pos hlarge.le, if_pos hlarge]
    simp only [hyes, not_true_eq_false, iff_false]
    split <;> exact Bool.false_ne_true

/-! ## Integers -/

/-- A fraction of a whole number of units is kept as it is. -/
theorem nearestDouble_value {num den : ℕ} (hnum : 0 < num) (hden : 0 < den)
    (hfits : (num : ℚ) / den < doubleOverflow) {m : ℕ}
    (hm : (num : ℚ) / den = m * 2 ^ unitExponent num den) (negative : Bool) :
    (nearestDouble negative num den).value =
      some (if negative then -((num : ℚ) / den) else (num : ℚ) / den) := by
  have hfinite := (nearestDouble_isFinite_iff negative hnum hden).mpr hfits
  have hpow : (0 : ℚ) < 2 ^ unitExponent num den := zpow_pos (by norm_num) _
  have hd := @scaling_snd_pos num den hden (unitExponent num den)
  have hratio := scaling_ratio num den (unitExponent num den)
  have hbelow := (unitExponent_spec hnum hden).1
  rw [hm, mul_div_cancel_right₀ _ hpow.ne'] at hratio hbelow
  have hwhole : (scaling num den (unitExponent num den)).1 =
      m * (scaling num den (unitExponent num den)).2 := by
    rw [div_eq_iff (Nat.cast_pos.mpr hd).ne'] at hratio
    exact_mod_cast hratio
  have hround : roundHalfEven (scaling num den (unitExponent num den)).1
      (scaling num den (unitExponent num den)).2 = m := by
    rw [hwhole, roundHalfEven_of_dvd hd (Nat.mul_mod_left _ _), Nat.mul_div_cancel _ hd]
  have hne : m ≠ 2 ^ 53 := by
    rintro rfl
    exact absurd hbelow (by norm_num)
  rw [nearestDouble_eq] at hfinite ⊢
  dsimp only at hfinite ⊢
  rw [hround, if_neg hne] at hfinite ⊢
  split at hfinite
  · exact absurd hfinite Bool.false_ne_true
  · next hk =>
    rw [if_neg hk, PyFloat.value, hm]
    cases negative <;> simp

/-- A double that is a number is a whole number of units of it. -/
theorem of_nearestDouble_value {num den : ℕ} (hnum : 0 < num) (hden : 0 < den) {negative : Bool}
    (h : (nearestDouble negative num den).value =
      some (if negative then -((num : ℚ) / den) else (num : ℚ) / den)) :
    ∃ m : ℕ, (num : ℚ) / den = m * 2 ^ unitExponent num den := by
  have hpow : (0 : ℚ) < 2 ^ unitExponent num den := zpow_pos (by norm_num) _
  have hbelow := (unitExponent_spec hnum hden).1
  have hsign : ∀ x y : ℚ, (if negative then -x else x) = (if negative then -y else y) → x = y := by
    intro x y hxy
    cases negative with
    | false => exact hxy
    | true => exact neg_injective hxy
  rw [nearestDouble_eq] at h
  dsimp only at h
  split at h
  · split at h
    · cases h
    · -- the midpoint below `2 ^ 53` units was rounded up, so the number is below the double
      have hvalue : (2 : ℚ) ^ 52 * 2 ^ (unitExponent num den + 1) = (num : ℚ) / den := by
        apply hsign
        rw [← Option.some.inj h]
        cases negative <;> norm_num
      rw [div_lt_iff₀ hpow, ← hvalue, zpow_add₀ (by norm_num), zpow_one] at hbelow
      generalize (2 : ℚ) ^ unitExponent num den = t at hbelow
      exact absurd hbelow (by linarith only)
  · split at h
    · cases h
    · refine ⟨roundHalfEven (scaling num den (unitExponent num den)).1
        (scaling num den (unitExponent num den)).2, hsign _ _ ?_⟩
      rw [← Option.some.inj h]
      cases negative <;> simp

/-- The units of an integer's double. -/
theorem unitExponent_nat {n : ℕ} (hn : 0 < n) : unitExponent n 1 = (Nat.log2 n : ℤ) - 52 := by
  have hlog : Nat.log2 1 = 0 := by decide
  have hlead : leadExponent n 1 = (Nat.log2 n : ℤ) - 53 := by
    rw [leadExponent, hlog]
    omega
  have hbig : 2 ^ 53 ≤ (scaling n 1 (leadExponent n 1)).1 / (scaling n 1 (leadExponent n 1)).2 := by
    rw [le_div_iff_cast (scaling_snd_pos Nat.one_pos _), scaling_ratio, hlead,
      le_div_iff₀ (zpow_pos (by norm_num) _)]
    have hlo := (log2_bounds hn).1
    calc ((2 ^ 53 : ℕ) : ℚ) * 2 ^ ((Nat.log2 n : ℤ) - 53)
        = 2 ^ ((53 : ℤ) + ((Nat.log2 n : ℤ) - 53)) := by
          rw [zpow_add₀ (by norm_num)]
          norm_num
      _ = 2 ^ (Nat.log2 n : ℤ) := by rw [add_sub_cancel]
      _ ≤ (n : ℚ) / (1 : ℕ) := by simpa using hlo
  rw [unitExponent, if_pos hbig, hlead]
  ring

/-- The double nearest to `n` is `n`: it is in range and has at most 53 bits above its zeros. -/
def DoubleExact (n : ℕ) : Prop := n < doubleOverflow ∧ 2 ^ (Nat.log2 n - 52) ∣ n

instance (n : ℕ) : Decidable (DoubleExact n) := inferInstanceAs (Decidable (_ ∧ _))

theorem nearestDouble_value_iff {n : ℕ} (hn : 0 < n) (negative : Bool) :
    (nearestDouble negative n 1).value = some (if negative then -(n : ℚ) else n) ↔
      DoubleExact n := by
  have hone : (n : ℚ) / (1 : ℕ) = n := by simp
  have hunits : (∃ m : ℕ, (n : ℚ) = m * 2 ^ unitExponent n 1) ↔ 2 ^ (Nat.log2 n - 52) ∣ n := by
    rw [unitExponent_nat hn]
    rcases le_total 52 (Nat.log2 n) with hlog | hlog
    · have hpow : (2 : ℚ) ^ ((Nat.log2 n : ℤ) - 52) = 2 ^ (Nat.log2 n - 52) := by
        rw [← zpow_natCast, Nat.cast_sub hlog]
        rfl
      rw [hpow]
      constructor
      · rintro ⟨m, hm⟩
        exact ⟨m, by rw [mul_comm]; exact_mod_cast hm⟩
      · rintro ⟨m, hm⟩
        exact ⟨m, by rw [mul_comm]; exact_mod_cast hm⟩
    · have hzero : Nat.log2 n - 52 = 0 := by omega
      have hpow : (2 : ℚ) ^ ((Nat.log2 n : ℤ) - 52) = (2 ^ (52 - Nat.log2 n))⁻¹ := by
        rw [← zpow_natCast, ← zpow_neg, Nat.cast_sub hlog]
        congr 1
        ring
      rw [hzero, pow_zero]
      refine ⟨fun _ ↦ one_dvd n, fun _ ↦ ⟨n * 2 ^ (52 - Nat.log2 n), ?_⟩⟩
      rw [hpow, Nat.cast_mul, Nat.cast_pow, Nat.cast_ofNat, mul_assoc,
        mul_inv_cancel₀ (by positivity), mul_one]
  rw [DoubleExact, ← hunits]
  constructor
  · intro h
    have hfinite : (nearestDouble negative n 1).isFinite = true := by
      cases hx : nearestDouble negative n 1 with
      | finite s m e => rfl
      | nan =>
        rw [hx] at h
        cases h
      | infinite s =>
        rw [hx] at h
        cases h
    have hfits := (nearestDouble_isFinite_iff negative hn Nat.one_pos).mp hfinite
    rw [← hone] at h
    obtain ⟨m, hm⟩ := of_nearestDouble_value hn Nat.one_pos h
    rw [hone] at hfits hm
    exact ⟨by exact_mod_cast hfits, m, hm⟩
  · rintro ⟨hfits, m, hm⟩
    rw [← hone] at hm
    have hcast : (n : ℚ) / (1 : ℕ) < doubleOverflow := by
      rw [hone]
      exact_mod_cast hfits
    rw [nearestDouble_value hn Nat.one_pos hcast hm negative, hone]

/-! ## Decimals -/

theorem doubleOverflow_lt : (doubleOverflow : ℚ) < 10 ^ (400 : ℤ) := by
  have hpow : (2 : ℕ) ^ 970 ≤ 10 ^ 300 := by
    calc (2 : ℕ) ^ 970 = (2 ^ 97) ^ 10 := by rw [← pow_mul]
      _ ≤ (10 ^ 30) ^ 10 := Nat.pow_le_pow_left (by norm_num) 10
      _ = 10 ^ 300 := by rw [← pow_mul]
  have hnat : doubleOverflow < 10 ^ 400 := by
    calc doubleOverflow = (2 ^ 54 - 1) * 2 ^ 970 := rfl
      _ ≤ 10 ^ 17 * 10 ^ 300 := Nat.mul_le_mul (by norm_num) hpow
      _ = 10 ^ (17 + 300) := (pow_add 10 17 300).symm
      _ < 10 ^ 400 := Nat.pow_lt_pow_right (by norm_num) (by norm_num)
  have hcast : (doubleOverflow : ℚ) < ((10 ^ 400 : ℕ) : ℚ) := Nat.cast_lt.mpr hnat
  rw [Nat.cast_pow, ← zpow_natCast] at hcast
  exact hcast

/-- A decimal lies between the powers of ten that its digits give. -/
theorem decimal_bounds {digits : ℕ} (hdigits : digits ≠ 0) (exponent : ℤ) :
    (10 : ℚ) ^ (exponent + Nat.log 10 digits) ≤ digits * 10 ^ exponent ∧
      (digits : ℚ) * 10 ^ exponent < 10 ^ (exponent + Nat.log 10 digits + 1) := by
  have hten : (10 : ℚ) ≠ 0 := by norm_num
  have hpos : (0 : ℚ) < 10 ^ exponent := zpow_pos (by norm_num) _
  have hlo : ((10 ^ Nat.log 10 digits : ℕ) : ℚ) ≤ digits :=
    Nat.cast_le.mpr (Nat.pow_log_le_self 10 hdigits)
  have hhi : (digits : ℚ) < ((10 ^ (Nat.log 10 digits + 1) : ℕ) : ℚ) :=
    Nat.cast_lt.mpr (Nat.lt_pow_succ_log_self (by norm_num) digits)
  rw [Nat.cast_pow, ← zpow_natCast] at hlo hhi
  constructor
  · rw [zpow_add₀ hten, mul_comm]
    exact mul_le_mul_of_nonneg_right (by exact_mod_cast hlo) hpos.le
  · rw [add_assoc, zpow_add₀ hten, mul_comm]
    exact mul_lt_mul_of_pos_left (by exact_mod_cast hhi) hpos

/-- A decimal reads as a finite float just below the overflow. -/
theorem decimalFloat_isFinite_iff (negative : Bool) (digits : ℕ) (exponent : ℤ) :
    (decimalFloat negative digits exponent).isFinite = true ↔
      (digits : ℚ) * 10 ^ exponent < doubleOverflow := by
  have hoverflow : (0 : ℚ) < doubleOverflow := Nat.cast_pos.mpr doubleOverflow_pos
  unfold decimalFloat
  dsimp only
  by_cases hzero : digits = 0
  · rw [if_pos hzero, hzero, Nat.cast_zero, zero_mul]
    exact iff_of_true rfl hoverflow
  obtain ⟨hlo, hhi⟩ := decimal_bounds hzero exponent
  have hpos : 0 < digits := Nat.pos_of_ne_zero hzero
  rw [if_neg hzero]
  split
  · next hlarge =>
    refine iff_of_false Bool.false_ne_true (not_lt.mpr ?_)
    calc (doubleOverflow : ℚ) ≤ 10 ^ (400 : ℤ) := doubleOverflow_lt.le
      _ ≤ 10 ^ (exponent + Nat.log 10 digits) := zpow_le_zpow_right₀ (by norm_num) (by omega)
      _ ≤ digits * 10 ^ exponent := hlo
  · split
    · next hsmall =>
      refine iff_of_true rfl ?_
      calc (digits : ℚ) * 10 ^ exponent < 10 ^ (exponent + Nat.log 10 digits + 1) := hhi
        _ ≤ 10 ^ (0 : ℤ) := zpow_le_zpow_right₀ (by norm_num) (by omega)
        _ = 1 := zpow_zero _
        _ ≤ doubleOverflow := Nat.one_le_cast.mpr doubleOverflow_pos
    · split
      · next hexp =>
        have hcast : ((digits * 10 ^ exponent.toNat : ℕ) : ℚ) / (1 : ℕ) =
            digits * 10 ^ exponent := by
          rw [Nat.cast_one, div_one, Nat.cast_mul, Nat.cast_pow, ← zpow_natCast,
            Int.toNat_of_nonneg hexp]
          rfl
        rw [nearestDouble_isFinite_iff negative (Nat.mul_pos hpos (by positivity)) Nat.one_pos,
          hcast]
      · next hexp =>
        have hcast : (digits : ℚ) / ((10 ^ (-exponent).toNat : ℕ) : ℚ) =
            digits * 10 ^ exponent := by
          rw [Nat.cast_pow, ← zpow_natCast, Int.toNat_of_nonneg (by omega), zpow_neg, div_inv_eq_mul]
          rfl
        rw [nearestDouble_isFinite_iff negative hpos (by positivity), hcast]

/-- The digits of an integer read as that number just where a double holds it. -/
theorem decimalFloat_value_iff (negative : Bool) (n : ℕ) :
    (decimalFloat negative n 0).value = some (if negative then -(n : ℚ) else n) ↔
      DoubleExact n := by
  by_cases hzero : n = 0
  · subst hzero
    refine iff_of_true ?_ ⟨doubleOverflow_pos, dvd_zero _⟩
    cases negative <;> simp [decimalFloat, PyFloat.value]
  · by_cases hfits : n < doubleOverflow
    · have hlo := (decimal_bounds hzero 0).1
      rw [zpow_zero, mul_one] at hlo
      have hsmall : ¬ (0 : ℤ) + Nat.log 10 n > 400 := by
        intro hlarge
        have hbelow : (10 : ℚ) ^ (400 : ℤ) ≤ n :=
          (zpow_le_zpow_right₀ (by norm_num) hlarge.le).trans hlo
        have habove : (n : ℚ) < doubleOverflow := Nat.cast_lt.mpr hfits
        exact absurd (hbelow.trans_lt (habove.trans doubleOverflow_lt)) (lt_irrefl _)
      have hlarge : ¬ (0 : ℤ) + Nat.log 10 n < -400 := by omega
      unfold decimalFloat
      dsimp only
      rw [if_neg hzero, if_neg hsmall, if_neg hlarge, if_pos le_rfl, Int.toNat_zero, pow_zero,
        mul_one]
      exact nearestDouble_value_iff (Nat.pos_of_ne_zero hzero) negative
    · refine iff_of_false (fun h ↦ ?_) (fun h ↦ hfits h.1)
      have hfinite : ¬ (decimalFloat negative n 0).isFinite = true := by
        rw [decimalFloat_isFinite_iff, zpow_zero, mul_one]
        exact fun hlt ↦ hfits (Nat.cast_lt.mp hlt)
      cases hx : decimalFloat negative n 0 with
      | finite s m e =>
        rw [hx] at hfinite
        exact hfinite rfl
      | nan =>
        rw [hx] at h
        cases h
      | infinite s =>
        rw [hx] at h
        cases h

/-! ## Differences -/

/-- A number rounded to a double.  One that is beyond the doubles is left as it is: an infinity
compares with every double as it does. -/
def roundDouble (x : ℚ) : ℚ :=
  if x = 0 then 0
  else (nearestDouble (decide (x < 0)) x.num.natAbs x.den).value.getD x

/-- `x - y` for floats. -/
def minusDouble (x y : ℚ) : ℚ := roundDouble (x - y)

theorem roundHalfEven_bounds (n d : ℕ) :
    n / d ≤ roundHalfEven n d ∧ roundHalfEven n d ≤ n / d + 1 := by
  unfold roundHalfEven
  split
  · omega
  · split <;> omega

/-- A fraction rounds to less than an even `b` below the midpoint beneath it. -/
theorem roundHalfEven_lt_iff {n d b : ℕ} (hd : 0 < d) (hb : b % 2 = 0) (hpos : 0 < b) :
    roundHalfEven n d < b ↔ (n : ℚ) / d < b - 1 / 2 := by
  have hcast : (n : ℚ) / d < b - 1 / 2 ↔ 2 * n + d < 2 * (b * d) := by
    have hdq : (0 : ℚ) < d := Nat.cast_pos.mpr hd
    have hnat : 2 * n + d < 2 * (b * d) ↔ 2 * (n : ℚ) + d < 2 * (b * d) := by exact_mod_cast Iff.rfl
    rw [hnat, div_lt_iff₀ hdq]
    constructor
    · intro h
      linarith
    · intro h
      linarith
  obtain ⟨hfloor, hceil⟩ := roundHalfEven_bounds n d
  rw [hcast]
  by_cases hlt : n < b * d
  · have hdiv : n / d < b := (Nat.div_lt_iff_lt_mul hd).mpr hlt
    have heq := roundHalfEven_eq_iff hd hb hpos hlt
    constructor
    · intro h
      exact Nat.not_le.mp fun hle ↦ h.ne (heq.mpr hle)
    · intro h
      have hne : roundHalfEven n d ≠ b := fun hself ↦ Nat.not_le.mpr h (heq.mp hself)
      omega
  · have hdiv : b ≤ n / d := (Nat.le_div_iff_mul_le hd).mpr (Nat.not_lt.mp hlt)
    exact iff_of_false (by omega) (by omega)

/-- A smaller fraction does not round to more. -/
theorem roundHalfEven_mono {n d m e : ℕ} (hd : 0 < d) (he : 0 < e) (h : (n : ℚ) / d ≤ (m : ℚ) / e) :
    roundHalfEven n d ≤ roundHalfEven m e := by
  have hdq : (0 : ℚ) < d := Nat.cast_pos.mpr hd
  have heq : (0 : ℚ) < e := Nat.cast_pos.mpr he
  have hcross : n * e ≤ m * d := by
    rw [div_le_div_iff₀ hdq heq] at h
    exact_mod_cast h
  have hfloor : n / d ≤ m / e := by
    rw [le_div_iff_cast he]
    calc ((n / d : ℕ) : ℚ) ≤ (n : ℚ) / d := Nat.cast_div_le
      _ ≤ (m : ℚ) / e := h
  obtain ⟨-, hupper⟩ := roundHalfEven_bounds n d
  obtain ⟨hlower, -⟩ := roundHalfEven_bounds m e
  rcases hfloor.lt_or_eq with hlt | hsame
  · omega
  · -- the same integer part: the fractional parts compare
    have hn : d * (n / d) + n % d = n := Nat.div_add_mod n d
    have hm : e * (m / e) + m % e = m := Nat.div_add_mod m e
    have hpart : n % d * e ≤ m % e * d := by
      have hexpand : (d * (n / d) + n % d) * e ≤ (e * (m / e) + m % e) * d := by
        rw [hn, hm]
        exact hcross
      rw [hsame] at hexpand
      nlinarith only [hexpand]
    unfold roundHalfEven
    rw [hsame]
    by_cases hup : d < 2 * (n % d)
    · have hup' : e < 2 * (m % e) := by
        by_contra hnot
        have h1 : d * e < 2 * (n % d) * e := Nat.mul_lt_mul_of_pos_right hup he
        have h2 : 2 * (m % e) * d ≤ e * d := Nat.mul_le_mul_right d (not_lt.mp hnot)
        nlinarith only [h1, h2, hpart]
      rw [if_neg (by omega), if_pos hup, if_neg (by omega), if_pos hup']
    · by_cases hdown : 2 * (m % e) < e
      · have hdown' : 2 * (n % d) < d := by
          by_contra hnot
          have h1 : 2 * (m % e) * d < e * d := Nat.mul_lt_mul_of_pos_right hdown hd
          have h2 : d * e ≤ 2 * (n % d) * e := Nat.mul_le_mul_right e (not_lt.mp hnot)
          nlinarith only [h1, h2, hpart]
        rw [if_pos hdown', if_pos hdown]
      · rw [if_neg hdown]
        split_ifs <;> omega

/-- The exponent of the units that a positive number is rounded to. -/
def unitOf (x : ℚ) : ℤ := unitExponent x.num.natAbs x.den

/-- How many of the units. -/
def mantissaOf (x : ℚ) : ℕ :=
  roundHalfEven (scaling x.num.natAbs x.den (unitOf x)).1 (scaling x.num.natAbs x.den (unitOf x)).2

/-- A positive number rounds to an infinity. -/
def Overflows (x : ℚ) : Prop := 971 < unitOf x ∨ unitOf x = 971 ∧ mantissaOf x = 2 ^ 53

theorem natAbs_num_div_den {x : ℚ} (hpos : 0 < x) : (x.num.natAbs : ℚ) / x.den = x := by
  have hnonneg : ((x.num.natAbs : ℤ) : ℚ) = x.num := by
    rw [Int.natAbs_of_nonneg (Rat.num_pos.mpr hpos).le]
  rw [← Int.cast_natCast, hnonneg, Rat.num_div_den]

theorem natAbs_num_pos {x : ℚ} (hpos : 0 < x) : 0 < x.num.natAbs :=
  Int.natAbs_pos.mpr (Rat.num_pos.mpr hpos).ne'

theorem lt_unitOf {x : ℚ} (hpos : 0 < x) : x < 2 ^ 53 * 2 ^ unitOf x := by
  obtain ⟨hbelow, -⟩ := unitExponent_spec (natAbs_num_pos hpos) x.den_pos
  rw [natAbs_num_div_den hpos] at hbelow
  exact (div_lt_iff₀ (by positivity)).mp hbelow

theorem unitOf_le {x : ℚ} (hpos : 0 < x) (hu : -1074 < unitOf x) : 2 ^ 52 * 2 ^ unitOf x ≤ x := by
  obtain ⟨-, hunit⟩ := unitExponent_spec (natAbs_num_pos hpos) x.den_pos
  rw [natAbs_num_div_den hpos] at hunit
  exact (le_div_iff₀ (by positivity)).mp (hunit.resolve_left hu.ne')

theorem scaled_ratio {x : ℚ} (hpos : 0 < x) (u : ℤ) :
    ((scaling x.num.natAbs x.den u).1 : ℚ) / (scaling x.num.natAbs x.den u).2 = x / 2 ^ u := by
  rw [scaling_ratio, natAbs_num_div_den hpos]

theorem mantissaOf_le {x : ℚ} (hpos : 0 < x) : mantissaOf x ≤ 2 ^ 53 := by
  have hdiv : (scaling x.num.natAbs x.den (unitOf x)).1 /
      (scaling x.num.natAbs x.den (unitOf x)).2 < 2 ^ 53 := by
    rw [← not_le, le_div_iff_cast (scaling_snd_pos x.den_pos _), scaled_ratio hpos, not_le,
      div_lt_iff₀ (by positivity)]
    exact_mod_cast lt_unitOf hpos
  have hceil := (roundHalfEven_bounds (scaling x.num.natAbs x.den (unitOf x)).1
    (scaling x.num.natAbs x.den (unitOf x)).2).2
  rw [mantissaOf]
  omega

theorem le_mantissaOf {x : ℚ} (hpos : 0 < x) (hu : -1074 < unitOf x) : 2 ^ 52 ≤ mantissaOf x := by
  refine le_trans ?_ (roundHalfEven_bounds _ _).1
  rw [le_div_iff_cast (scaling_snd_pos x.den_pos _), scaled_ratio hpos, le_div_iff₀ (by positivity)]
  exact_mod_cast unitOf_le hpos hu

/-- The numbers with the units of `u` are at most those with the units of a larger `v`. -/
theorem two_pow_step {u v : ℤ} (h : u < v) : (2 : ℚ) ^ 53 * 2 ^ u ≤ 2 ^ 52 * 2 ^ v := by
  have hsucc : (2 : ℚ) ^ (u + 1) ≤ 2 ^ v := zpow_le_zpow_right₀ (by norm_num) (by omega)
  rw [add_comm, zpow_one_add₀ (by norm_num)] at hsucc
  linarith

theorem unitOf_mono {x y : ℚ} (hpos : 0 < x) (h : x ≤ y) : unitOf x ≤ unitOf y := by
  by_contra hnot
  have hless : unitOf y < unitOf x := not_le.mp hnot
  have hge : -1074 ≤ unitOf y := leadExponent_ge _ _
  have hlt : y < x := calc
    y < 2 ^ 53 * 2 ^ unitOf y := lt_unitOf (hpos.trans_le h)
    _ ≤ 2 ^ 52 * 2 ^ unitOf x := two_pow_step hless
    _ ≤ x := unitOf_le hpos (by omega)
  exact absurd h (not_le.mpr hlt)

theorem mantissaOf_mono {x y : ℚ} (hpos : 0 < x) (h : x ≤ y) (hunit : unitOf x = unitOf y) :
    mantissaOf x ≤ mantissaOf y := by
  refine roundHalfEven_mono (scaling_snd_pos x.den_pos _) (scaling_snd_pos y.den_pos _) ?_
  rw [scaled_ratio hpos, scaled_ratio (hpos.trans_le h), hunit]
  exact div_le_div_of_nonneg_right h (by positivity)

theorem roundDouble_of_pos {x : ℚ} (hpos : 0 < x) :
    (Overflows x ∧ roundDouble x = x) ∨
      ¬ Overflows x ∧ roundDouble x = mantissaOf x * 2 ^ unitOf x := by
  have hsucc : (2 : ℚ) ^ (unitOf x + 1) = 2 * 2 ^ unitOf x := by
    rw [add_comm, zpow_one_add₀ (by norm_num)]
  have hnearest : nearestDouble false x.num.natAbs x.den =
      if mantissaOf x = 2 ^ 53 then
        if 971 ≤ unitOf x then .infinite false else .finite false (2 ^ 52) (unitOf x + 1)
      else if 971 < unitOf x then .infinite false else .finite false (mantissaOf x) (unitOf x) :=
    nearestDouble_eq ..
  rw [roundDouble, if_neg hpos.ne', decide_eq_false hpos.not_gt, hnearest, Overflows]
  split
  · next hm =>
    split
    · next hk => exact .inl ⟨by omega, rfl⟩
    · next hk =>
      refine .inr ⟨by omega, ?_⟩
      rw [PyFloat.value, Option.getD_some, if_neg Bool.false_ne_true, hsucc, hm]
      norm_num
      ring
  · next hm =>
    split
    · next hk => exact .inl ⟨.inl hk, rfl⟩
    · next hk =>
      refine .inr ⟨fun h ↦ h.elim hk fun h ↦ hm h.2, ?_⟩
      rw [PyFloat.value, Option.getD_some, if_neg Bool.false_ne_true]

theorem roundDouble_nonneg {x : ℚ} (h : 0 ≤ x) : 0 ≤ roundDouble x := by
  rcases h.eq_or_lt with rfl | hpos
  · rw [roundDouble, if_pos rfl]
  · rcases roundDouble_of_pos hpos with ⟨-, hround⟩ | ⟨-, hround⟩
    · rw [hround]
      exact h
    · rw [hround]
      positivity

theorem roundDouble_mono_of_pos {x y : ℚ} (hpos : 0 < x) (h : x ≤ y) :
    roundDouble x ≤ roundDouble y := by
  have hpos' : 0 < y := hpos.trans_le h
  have hunits := unitOf_mono hpos h
  have hge : -1074 ≤ unitOf x := leadExponent_ge _ _
  have hfits : (mantissaOf x : ℚ) ≤ 2 ^ 53 := by exact_mod_cast mantissaOf_le hpos
  have hless : unitOf x < unitOf y → (mantissaOf x : ℚ) * 2 ^ unitOf x ≤ 2 ^ 52 * 2 ^ unitOf y :=
    fun hlt ↦ (mul_le_mul_of_nonneg_right hfits (by positivity)).trans (two_pow_step hlt)
  rcases roundDouble_of_pos hpos with ⟨hx, hroundx⟩ | ⟨hx, hroundx⟩
  · rcases roundDouble_of_pos hpos' with ⟨-, hroundy⟩ | ⟨hy, -⟩
    · rw [hroundx, hroundy]
      exact h
    · exfalso
      apply hy
      rcases hx with hbeyond | ⟨hunit, hmantissa⟩
      · exact .inl (by omega)
      · rcases hunits.lt_or_eq with hlt | hsame
        · exact .inl (by omega)
        · have hle := mantissaOf_mono hpos h hsame
          have hmax := mantissaOf_le hpos'
          exact .inr ⟨by omega, by omega⟩
  · rcases roundDouble_of_pos hpos' with ⟨hy, hroundy⟩ | ⟨-, hroundy⟩
    · rw [hroundx, hroundy]
      rcases hunits.lt_or_eq with hlt | hsame
      · exact (hless hlt).trans (unitOf_le hpos' (by omega))
      · -- in the last binade `y` is past the midpoint below `2 ^ 1024`
        have hlast : unitOf y = 971 ∧ mantissaOf y = 2 ^ 53 :=
          hy.resolve_left fun hbeyond ↦ hx (.inl (by omega))
        have hbelow : mantissaOf x < 2 ^ 53 :=
          (mantissaOf_le hpos).lt_of_ne fun heq ↦ hx (.inr ⟨by omega, heq⟩)
        have hhalf : (2 : ℚ) ^ 53 - 1 / 2 ≤ y / 2 ^ unitOf y := by
          have hround := @roundHalfEven_lt_iff (scaling y.num.natAbs y.den (unitOf y)).1
            (scaling y.num.natAbs y.den (unitOf y)).2 (2 ^ 53) (scaling_snd_pos y.den_pos _)
            (by norm_num) (by norm_num)
          rw [← mantissaOf, hlast.2, scaled_ratio hpos'] at hround
          push_cast at hround
          exact not_lt.mp fun hlt ↦ absurd (hround.mpr hlt) (by simp)
        have hone : (mantissaOf x : ℚ) + 1 ≤ 2 ^ 53 := by exact_mod_cast hbelow
        rw [← le_div_iff₀ (by positivity), hsame]
        linarith
    · rw [hroundx, hroundy]
      rcases hunits.lt_or_eq with hlt | hsame
      · refine (hless hlt).trans (mul_le_mul_of_nonneg_right ?_ (by positivity))
        exact_mod_cast le_mantissaOf hpos' (by omega)
      · rw [hsame]
        refine mul_le_mul_of_nonneg_right ?_ (by positivity)
        exact_mod_cast mantissaOf_mono hpos h hsame

theorem value_nearestDouble_true (num den : ℕ) : (nearestDouble true num den).value =
    (nearestDouble false num den).value.map Neg.neg := by
  rw [nearestDouble_eq, nearestDouble_eq]
  dsimp only
  split_ifs <;> simp [PyFloat.value]

theorem roundDouble_neg (x : ℚ) : roundDouble (-x) = -roundDouble x := by
  rcases lt_trichotomy x 0 with hneg | rfl | hpos
  · rw [roundDouble, roundDouble, if_neg (neg_ne_zero.mpr hneg.ne), if_neg hneg.ne,
      decide_eq_false (by simpa using hneg.le), decide_eq_true hneg, Rat.num_neg_eq_neg_num,
      Rat.den_neg_eq_den, Int.natAbs_neg, value_nearestDouble_true]
    cases (nearestDouble false x.num.natAbs x.den).value with
    | none => rfl
    | some value => exact (neg_neg value).symm
  · rw [neg_zero, roundDouble, if_pos rfl, neg_zero]
  · rw [roundDouble, roundDouble, if_neg (neg_ne_zero.mpr hpos.ne'), if_neg hpos.ne',
      decide_eq_true (by simpa using hpos), decide_eq_false hpos.not_gt, Rat.num_neg_eq_neg_num,
      Rat.den_neg_eq_den, Int.natAbs_neg, value_nearestDouble_true]
    cases (nearestDouble false x.num.natAbs x.den).value with
    | none => rfl
    | some value => rfl

/-- Rounding keeps the order. -/
theorem roundDouble_mono {x y : ℚ} (h : x ≤ y) : roundDouble x ≤ roundDouble y := by
  rcases lt_or_ge 0 x with hpos | hx
  · exact roundDouble_mono_of_pos hpos h
  · rcases le_or_gt 0 y with hy | hneg
    · calc roundDouble x = -roundDouble (-x) := by rw [roundDouble_neg, neg_neg]
        _ ≤ 0 := neg_nonpos.mpr (roundDouble_nonneg (neg_nonneg.mpr hx))
        _ ≤ roundDouble y := roundDouble_nonneg hy
    · have hflip := roundDouble_mono_of_pos (neg_pos.mpr hneg) (neg_le_neg h)
      rw [roundDouble_neg, roundDouble_neg] at hflip
      exact neg_le_neg_iff.mp hflip

/-- A number rounds to less than a double of an even mantissa below the midpoint beneath it. -/
theorem roundDouble_lt_iff {m : ℕ} {k : ℤ} (hlo : 2 ^ 52 < m) (hhi : m < 2 ^ 53)
    (heven : m % 2 = 0) (hk : -1074 ≤ k) (hk' : k < 971) (x : ℚ) :
    roundDouble x < m * 2 ^ k ↔ x < (m - 1 / 2) * 2 ^ k := by
  have hpow : (0 : ℚ) < 2 ^ k := zpow_pos (by norm_num) k
  have hloq : (2 : ℚ) ^ 52 + 1 ≤ m := by exact_mod_cast hlo
  have hhiq : (m : ℚ) < 2 ^ 53 := by exact_mod_cast hhi
  have hhalf : (2 : ℚ) ^ 52 * 2 ^ k < (m - 1 / 2) * 2 ^ k :=
    mul_lt_mul_of_pos_right (by linarith) hpow
  have hvalue : ((m : ℚ) - 1 / 2) * 2 ^ k < m * 2 ^ k :=
    mul_lt_mul_of_pos_right (by linarith) hpow
  have hmax : (m : ℚ) * 2 ^ k < 2 ^ 53 * 2 ^ k := mul_lt_mul_of_pos_right hhiq hpow
  have hzero : (0 : ℚ) < 2 ^ 52 * 2 ^ k := by positivity
  rcases le_or_gt x 0 with hx | hpos
  · -- what is not positive does not become positive
    have hround : roundDouble x ≤ 0 := by
      rw [← neg_neg x, roundDouble_neg]
      exact neg_nonpos.mpr (roundDouble_nonneg (neg_nonneg.mpr hx))
    exact iff_of_true (by linarith) (by linarith)
  · have hfits : (mantissaOf x : ℚ) * 2 ^ unitOf x ≤ 2 ^ 53 * 2 ^ unitOf x :=
      mul_le_mul_of_nonneg_right (by exact_mod_cast mantissaOf_le hpos) (by positivity)
    have hbelow := lt_unitOf hpos
    rcases lt_trichotomy (unitOf x) k with hless | hsame | hmore
    · -- the number and what it rounds to are at most the smallest mantissa of `k`
      have hstep := two_pow_step hless
      have hround := (roundDouble_of_pos hpos).resolve_left fun h ↦
        h.1.elim (by omega) fun h ↦ by omega
      exact iff_of_true (by rw [hround.2]; linarith) (by linarith)
    · -- both sides have the same units
      have hround := (roundDouble_of_pos hpos).resolve_left fun h ↦
        h.1.elim (by omega) fun h ↦ by omega
      rw [hround.2, hsame, mul_lt_mul_iff_of_pos_right hpow, Nat.cast_lt, mantissaOf,
        roundHalfEven_lt_iff (scaling_snd_pos x.den_pos _) heven (by omega), scaled_ratio hpos,
        hsame, div_lt_iff₀ hpow]
    · -- the number and what it rounds to are beyond the largest mantissa of `k`
      have hstep := two_pow_step hmore
      have hlarge := unitOf_le hpos (by omega)
      have hmantissa : (2 : ℚ) ^ 52 * 2 ^ unitOf x ≤ mantissaOf x * 2 ^ unitOf x :=
        mul_le_mul_of_nonneg_right (by exact_mod_cast le_mantissaOf hpos (by omega))
          (by positivity)
      refine iff_of_false (not_lt.mpr ?_) (not_lt.mpr (by linarith))
      rcases roundDouble_of_pos hpos with ⟨-, hround⟩ | ⟨-, hround⟩
      · rw [hround]
        linarith
      · rw [hround]
        linarith

/-- How a program subtracts numbers: exactly, or as floats. -/
structure Subtraction where
  minus : ℚ → ℚ → ℚ
  minus_mono : ∀ {x y : ℚ} (z : ℚ), x ≤ y → minus x z ≤ minus y z

def Subtraction.exact : Subtraction where
  minus x y := x - y
  minus_mono z h := sub_le_sub_right h z

def Subtraction.doubles : Subtraction where
  minus := minusDouble
  minus_mono z h := roundDouble_mono (sub_le_sub_right h z)

end DatumSync.Python
