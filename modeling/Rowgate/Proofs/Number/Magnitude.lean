import Rowgate.Number.Decimal
import Mathlib.Algebra.Order.Field.Power
import Mathlib.Data.Rat.Cast.Order
import Mathlib.Order.Compare
import Mathlib.Tactic.FieldSimp
import Mathlib.Tactic.Linarith

/-!
# Decimals as rational numbers

A finite decimal stands for a rational number, and everything the library decides about decimals is
decided about that number: the comparison by leading digits is the order of the rationals, and
cutting an integral decimal to an integer changes nothing. The proofs never meet the shortcut again
after `compareMagnitude_eq_cmp`: the leading digit of a coefficient bounds it on both sides, so two
coefficients whose leading digits stand at different powers of ten are in the order of those powers.
-/

namespace Rowgate

theorem lt_pow_digitCount (n : Nat) : n < 10 ^ digitCount n :=
  (Nat.length_toDigits_le_iff (by omega) (digitCount_pos n)).mp (Nat.le_refl _)

theorem pow_digitCount_le {n : Nat} (h : n ≠ 0) : 10 ^ (digitCount n - 1) ≤ n := by
  by_cases hd : digitCount n = 1
  · rw [hd]
    exact Nat.pos_of_ne_zero h
  · have hpos := digitCount_pos n
    have hlt : ¬ (Nat.toDigits 10 n).length ≤ digitCount n - 1 := by
      show ¬ digitCount n ≤ digitCount n - 1
      omega
    rw [Nat.length_toDigits_le_iff (by omega) (by omega)] at hlt
    exact Nat.le_of_not_lt hlt

namespace Decimal

/-- `c · 10 ^ e`. -/
def magnitude (c : Nat) (e : Int) : ℚ := c * 10 ^ e

/-- The number that a sign, a coefficient and an exponent stand for. -/
def signed (negative : Bool) (c : Nat) (e : Int) : ℚ :=
  if negative then -magnitude c e else magnitude c e

/-- The number that a decimal stands for, if it stands for one. -/
def rational? : Decimal → Option ℚ
  | .finite n c e => some (signed n c e)
  | _ => none

theorem magnitude_zero (e : Int) : magnitude 0 e = 0 := by
  rw [magnitude, Nat.cast_zero, zero_mul]

theorem signed_zero (negative : Bool) (e : Int) : signed negative 0 e = 0 := by
  rw [signed, magnitude_zero, neg_zero, ite_self]

theorem magnitude_nonneg (c : Nat) (e : Int) : 0 ≤ magnitude c e := by
  unfold magnitude
  positivity

theorem magnitude_pos {c : Nat} (h : c ≠ 0) (e : Int) : 0 < magnitude c e := by
  have hc : (0 : ℚ) < c := by exact_mod_cast Nat.pos_of_ne_zero h
  unfold magnitude
  positivity

/-- A coefficient may be written in units of a smaller power of ten. -/
theorem magnitude_rescale (c : Nat) {e low : Int} (h : low ≤ e) :
    magnitude c e = magnitude (c * 10 ^ (e - low).toNat) low := by
  have hten : (10 : ℚ) ≠ 0 := by norm_num
  have he : e = ((e - low).toNat : Int) + low := by omega
  rw [magnitude, magnitude, Nat.cast_mul, Nat.cast_pow, mul_assoc]
  congr 1
  conv_lhs => rw [he]
  rw [zpow_add₀ hten, zpow_natCast]
  norm_num

theorem signed_ofInt (i : Int) : signed (decide (i < 0)) i.natAbs 0 = i := by
  rw [signed, magnitude, zpow_zero, mul_one]
  by_cases h : i < 0
  · rw [if_pos (by simpa using h)]
    have : (i.natAbs : Int) = -i := by omega
    rw [← Int.cast_natCast, this, Int.cast_neg, neg_neg]
  · rw [if_neg (by simpa using h)]
    have : (i.natAbs : Int) = i := by omega
    rw [← Int.cast_natCast, this]

theorem rational?_ofInt (i : Int) : (ofInt i).rational? = some (i : ℚ) := by
  rw [ofInt, rational?, signed_ofInt]

/-! ## Order

The leading digit of a coefficient bounds the number from both sides. -/

theorem pow_leadingPower_le {c : Nat} (h : c ≠ 0) (e : Int) :
    (10 : ℚ) ^ leadingPower c e ≤ magnitude c e := by
  have hd := digitCount_pos c
  have hten : (10 : ℚ) ≠ 0 := by norm_num
  have hp : leadingPower c e = ((digitCount c - 1 : Nat) : Int) + e := by
    rw [leadingPower]
    omega
  rw [hp, zpow_add₀ hten, zpow_natCast, magnitude]
  have hc : (10 : ℚ) ^ (digitCount c - 1) ≤ c := by exact_mod_cast pow_digitCount_le h
  exact mul_le_mul_of_nonneg_right hc (by positivity)

theorem magnitude_lt_pow_leadingPower (c : Nat) (e : Int) :
    magnitude c e < 10 ^ (leadingPower c e + 1) := by
  have hten : (10 : ℚ) ≠ 0 := by norm_num
  have hp : leadingPower c e + 1 = (digitCount c : Int) + e := by
    rw [leadingPower]
    omega
  rw [hp, zpow_add₀ hten, zpow_natCast, magnitude]
  have hc : (c : ℚ) < 10 ^ digitCount c := by exact_mod_cast lt_pow_digitCount c
  exact mul_lt_mul_of_pos_right hc (by positivity)

theorem magnitude_lt_of_leadingPower_lt {c₁ c₂ : Nat} {e₁ e₂ : Int} (h : c₂ ≠ 0)
    (hlt : leadingPower c₁ e₁ < leadingPower c₂ e₂) : magnitude c₁ e₁ < magnitude c₂ e₂ :=
  calc magnitude c₁ e₁ < 10 ^ (leadingPower c₁ e₁ + 1) := magnitude_lt_pow_leadingPower c₁ e₁
    _ ≤ 10 ^ leadingPower c₂ e₂ := zpow_le_zpow_right₀ (by norm_num) (by omega)
    _ ≤ magnitude c₂ e₂ := pow_leadingPower_le h e₂

/-- In units of one power of ten the coefficients are in the order of the numbers. -/
theorem cmp_magnitude (c₁ c₂ : Nat) (e : Int) :
    cmp (magnitude c₁ e) (magnitude c₂ e) = compare c₁ c₂ := by
  have hpos : (0 : ℚ) < 10 ^ e := by positivity
  have hmono : StrictMono (Nat.cast : Nat → ℚ) := fun _ _ h => by exact_mod_cast h
  have hcast : cmp (c₁ : ℚ) (c₂ : ℚ) = cmp c₁ c₂ := hmono.cmp_map_eq c₁ c₂
  rw [magnitude, magnitude, cmp_mul_pos_right hpos, hcast, cmp_eq_compare]

/-- The comparison by leading digits is the order of the numbers. -/
theorem compareMagnitude_eq_cmp (c₁ : Nat) (e₁ : Int) (c₂ : Nat) (e₂ : Int) :
    compareMagnitude c₁ e₁ c₂ e₂ = cmp (magnitude c₁ e₁) (magnitude c₂ e₂) := by
  rw [compareMagnitude]
  by_cases hzero : c₁ = 0 ∨ c₂ = 0
  · rw [if_pos hzero]
    rcases hzero with rfl | rfl
    · rcases Nat.eq_zero_or_pos c₂ with rfl | hc
      · rw [magnitude_zero, magnitude_zero, cmp_self_eq_eq, compare_eq_iff_eq]
      · rw [magnitude_zero, compare_lt_iff_lt.mpr hc, eq_comm, cmp_eq_lt_iff]
        exact magnitude_pos (by omega) e₂
    · rcases Nat.eq_zero_or_pos c₁ with rfl | hc
      · rw [magnitude_zero, magnitude_zero, cmp_self_eq_eq, compare_eq_iff_eq]
      · rw [magnitude_zero, compare_gt_iff_gt.mpr hc, eq_comm, cmp_eq_gt_iff]
        exact magnitude_pos (by omega) e₁
  · rw [if_neg hzero]
    rw [not_or] at hzero
    by_cases hne : leadingPower c₁ e₁ ≠ leadingPower c₂ e₂
    · rw [if_pos hne]
      rcases lt_or_gt_of_ne hne with hlt | hgt
      · rw [compare_lt_iff_lt.mpr hlt, eq_comm, cmp_eq_lt_iff]
        exact magnitude_lt_of_leadingPower_lt hzero.2 hlt
      · rw [compare_gt_iff_gt.mpr hgt, eq_comm, cmp_eq_gt_iff]
        exact magnitude_lt_of_leadingPower_lt hzero.1 hgt
    · rw [if_neg hne, magnitude_rescale c₁ (min_le_left e₁ e₂),
        magnitude_rescale c₂ (min_le_right e₁ e₂), cmp_magnitude]
      rfl

theorem cmp_neg (a b : ℚ) : cmp (-a) (-b) = cmp b a := by
  rcases lt_trichotomy a b with h | rfl | h
  · rw [(cmp_eq_gt_iff b a).mpr h, cmp_eq_gt_iff]
    linarith
  · rw [cmp_self_eq_eq, cmp_self_eq_eq]
  · rw [(cmp_eq_lt_iff b a).mpr h, cmp_eq_lt_iff]
    linarith

/-- Finite decimals are in the order of the numbers they stand for. -/
theorem compareValue_finite (n₁ : Bool) (c₁ : Nat) (e₁ : Int) (n₂ : Bool) (c₂ : Nat) (e₂ : Int) :
    compareValue (.finite n₁ c₁ e₁) (.finite n₂ c₂ e₂) =
      some (cmp (signed n₁ c₁ e₁) (signed n₂ c₂ e₂)) := by
  rw [compareValue.eq_def]
  refine congrArg some ?_
  by_cases h₁ : c₁ = 0
  · subst h₁
    by_cases h₂ : c₂ = 0
    · subst h₂
      rw [if_pos ⟨rfl, rfl⟩, signed_zero, signed_zero, cmp_self_eq_eq]
    · have hpos : 0 < magnitude c₂ e₂ := magnitude_pos h₂ e₂
      rw [if_neg (fun h => h₂ h.2), if_pos rfl, eq_comm, signed_zero, signed]
      cases n₂
      · exact (cmp_eq_lt_iff _ _).mpr hpos
      · exact (cmp_eq_gt_iff _ _).mpr (neg_neg_of_pos hpos)
  · have hpos₁ : 0 < magnitude c₁ e₁ := magnitude_pos h₁ e₁
    rw [if_neg (fun h => h₁ h.1), if_neg h₁]
    by_cases h₂ : c₂ = 0
    · subst h₂
      rw [if_pos rfl, eq_comm, signed_zero, signed]
      cases n₁
      · exact (cmp_eq_gt_iff _ _).mpr hpos₁
      · exact (cmp_eq_lt_iff _ _).mpr (neg_neg_of_pos hpos₁)
    · have hpos₂ : 0 < magnitude c₂ e₂ := magnitude_pos h₂ e₂
      rw [if_neg h₂]
      cases n₁ <;> cases n₂
      case false.false => exact compareMagnitude_eq_cmp c₁ e₁ c₂ e₂
      case true.true =>
        show compareMagnitude c₂ e₂ c₁ e₁ = cmp (-magnitude c₁ e₁) (-magnitude c₂ e₂)
        rw [cmp_neg, compareMagnitude_eq_cmp]
      case true.false =>
        exact ((cmp_eq_lt_iff (-magnitude c₁ e₁) (magnitude c₂ e₂)).mpr (by linarith)).symm
      case false.true =>
        exact ((cmp_eq_gt_iff (magnitude c₁ e₁) (-magnitude c₂ e₂)).mpr (by linarith)).symm

/-- Decimals that stand for numbers are in the order of those numbers. -/
theorem compareValue_of_rational {a b : Decimal} {p q : ℚ} (ha : a.rational? = some p)
    (hb : b.rational? = some q) : a.compareValue b = some (cmp p q) := by
  cases a with
  | infinite n => cases ha
  | nan n s d => cases ha
  | finite n₁ c₁ e₁ =>
      cases b with
      | infinite n => cases hb
      | nan n s d => cases hb
      | finite n₂ c₂ e₂ =>
          rw [rational?, Option.some.injEq] at ha hb
          rw [compareValue_finite, ha, hb]

/-- Where a decimal lies among the rational numbers and the two infinities. -/
def extended? : Decimal → Option (WithBot (WithTop ℚ))
  | .finite n c e => some ((signed n c e : WithTop ℚ) : WithBot (WithTop ℚ))
  | .infinite true => some ⊥
  | .infinite false => some ((⊤ : WithTop ℚ) : WithBot (WithTop ℚ))
  | .nan .. => none

/-- Decimals have an order exactly if both lie somewhere, and it is the order of where they lie. -/
theorem compareValue_eq_extended (a b : Decimal) :
    a.compareValue b = a.extended?.bind fun x => b.extended?.map fun y => cmp x y := by
  have hcoe : ∀ p q : ℚ, cmp ((p : WithTop ℚ) : WithBot (WithTop ℚ)) ((q : WithTop ℚ)) = cmp p q :=
    fun p q => (WithBot.coe_strictMono.cmp_map_eq _ _).trans (WithTop.coe_strictMono.cmp_map_eq p q)
  have hbot : ∀ x : WithTop ℚ, cmp (⊥ : WithBot (WithTop ℚ)) x = .lt :=
    fun x => (cmp_eq_lt_iff _ _).mpr (WithBot.bot_lt_coe x)
  have hbot' : ∀ x : WithTop ℚ, cmp (x : WithBot (WithTop ℚ)) ⊥ = .gt :=
    fun x => (cmp_eq_gt_iff _ _).mpr (WithBot.bot_lt_coe x)
  have htop : ∀ p : ℚ, cmp ((⊤ : WithTop ℚ) : WithBot (WithTop ℚ)) ((p : WithTop ℚ)) = .gt :=
    fun p => (cmp_eq_gt_iff _ _).mpr (WithBot.coe_lt_coe.mpr (WithTop.coe_lt_top p))
  have htop' : ∀ p : ℚ, cmp ((p : WithTop ℚ) : WithBot (WithTop ℚ)) ((⊤ : WithTop ℚ)) = .lt :=
    fun p => (cmp_eq_lt_iff _ _).mpr (WithBot.coe_lt_coe.mpr (WithTop.coe_lt_top p))
  cases a with
  | nan n s d => rfl
  | infinite n =>
      cases b with
      | nan m s d => cases n <;> rfl
      | infinite m =>
          cases n <;> cases m
          case false.false => exact congrArg some (cmp_self_eq_eq _).symm
          case false.true => exact congrArg some (hbot' _).symm
          case true.false => exact congrArg some (hbot _).symm
          case true.true => exact congrArg some (cmp_self_eq_eq _).symm
      | finite m c e =>
          cases n
          case false => exact congrArg some (htop _).symm
          case true => exact congrArg some (hbot _).symm
  | finite n c e =>
      cases b with
      | nan m s d => rfl
      | infinite m =>
          cases m
          case false => exact congrArg some (htop' _).symm
          case true => exact congrArg some (hbot' _).symm
      | finite m c' e' =>
          rw [compareValue_finite]
          exact congrArg some (hcoe _ _).symm

/-- A decimal is equal to one that stands for a number exactly if it stands for that number, too. -/
theorem compareValue_eq_iff {a b : Decimal} {q : ℚ} (ha : a.rational? = some q) :
    a.compareValue b = some .eq ↔ b.rational? = some q := by
  cases a with
  | infinite n => cases ha
  | nan n s d => cases ha
  | finite n c e =>
      rw [rational?, Option.some_inj] at ha
      cases b with
      | finite m c' e' =>
          rw [compareValue_finite, ha, rational?, Option.some_inj, Option.some_inj, cmp_eq_eq_iff]
          exact eq_comm
      | nan m s d => exact iff_of_false nofun nofun
      | infinite m =>
          refine iff_of_false ?_ nofun
          rw [compareValue_eq_extended, extended?, Option.bind_some]
          intro h
          cases m <;> cases (cmp_eq_eq_iff _ _).mp (Option.some.inj h)

/-- Whether a decimal is at most another one. -/
def atMost (a b : Decimal) : Prop := a.compareValue b = some .lt ∨ a.compareValue b = some .eq

theorem atMost_iff {a b : Decimal} :
    a.atMost b ↔ ∃ x y, a.extended? = some x ∧ b.extended? = some y ∧ x ≤ y := by
  rw [atMost, compareValue_eq_extended]
  cases a.extended? with
  | none => exact iff_of_false (by rintro (h | h) <;> cases h) (by rintro ⟨_, _, h, -⟩; cases h)
  | some x =>
      cases b.extended? with
      | none =>
          exact iff_of_false (by rintro (h | h) <;> cases h) (by rintro ⟨_, _, -, h, -⟩; cases h)
      | some y =>
          show some (cmp x y) = some .lt ∨ some (cmp x y) = some .eq ↔ _
          rw [Option.some_inj, Option.some_inj, cmp_eq_lt_iff, cmp_eq_eq_iff, ← le_iff_lt_or_eq]
          constructor
          · exact fun h => ⟨x, y, rfl, rfl, h⟩
          · rintro ⟨_, _, ⟨⟩, ⟨⟩, h⟩
            exact h

theorem atMost_trans {a b c : Decimal} (h : a.atMost b) (h' : b.atMost c) : a.atMost c := by
  obtain ⟨x, y, hx, hy, hxy⟩ := atMost_iff.mp h
  obtain ⟨y', z, hy', hz, hyz⟩ := atMost_iff.mp h'
  rw [hy, Option.some_inj] at hy'
  subst hy'
  exact atMost_iff.mpr ⟨x, z, hx, hz, hxy.trans hyz⟩

/-! ## Integral decimals -/

/-- An integral decimal is the integer that it is cut to. -/
theorem truncate_of_isIntegral {n : Bool} {c : Nat} {e : Int}
    (h : (Decimal.finite n c e).isIntegral = true) : (truncate n c e : ℚ) = signed n c e := by
  have key : ((if 0 ≤ e then c * 10 ^ e.toNat
      else if (digitCount c : Int) ≤ -e then 0 else c / 10 ^ (-e).toNat : Nat) : ℚ) =
      magnitude c e := by
    by_cases he : 0 ≤ e
    · rw [if_pos he, magnitude_rescale c he, magnitude, Int.sub_zero, zpow_zero, mul_one]
    · rw [if_neg he]
      simp only [isIntegral, he, decide_false, Bool.false_or, Bool.or_eq_true, beq_iff_eq,
        Bool.and_eq_true, decide_eq_true_eq] at h
      rcases h with rfl | ⟨hlt, hmod⟩
      · simp [magnitude_zero]
      · rw [if_neg (by omega)]
        have hdvd : 10 ^ (-e).toNat ∣ c := Nat.dvd_of_mod_eq_zero hmod
        obtain ⟨k, rfl⟩ := hdvd
        rw [Nat.mul_div_cancel_left k (by positivity)]
        have hk : magnitude k 0 = magnitude (k * 10 ^ (0 - e).toNat) e :=
          magnitude_rescale k (by omega)
        rw [Int.zero_sub, Nat.mul_comm] at hk
        rw [← hk, magnitude, zpow_zero, mul_one]
  rw [truncate, signed, ← key]
  generalize (if 0 ≤ e then c * 10 ^ e.toNat
    else if (digitCount c : Int) ≤ -e then 0 else c / 10 ^ (-e).toNat : Nat) = w
  cases n <;> simp

theorem magnitude_eq_natAbs {n : Bool} {c : Nat} {e i : Int} (h : signed n c e = i) :
    magnitude c e = i.natAbs := by
  have hnonneg := magnitude_nonneg c e
  rw [Nat.cast_natAbs, Int.cast_abs, ← h, signed]
  cases n
  · exact (abs_of_nonneg hnonneg).symm
  · exact ((abs_neg _).trans (abs_of_nonneg hnonneg)).symm

/-- What counts as integral is what stands for an integer. -/
theorem isIntegral_iff {n : Bool} {c : Nat} {e : Int} :
    (Decimal.finite n c e).isIntegral = true ↔ ∃ i : ℤ, signed n c e = i := by
  refine ⟨fun h => ⟨_, (truncate_of_isIntegral h).symm⟩, ?_⟩
  rintro ⟨i, hi⟩
  simp only [isIntegral, Bool.or_eq_true, decide_eq_true_eq, beq_iff_eq, Bool.and_eq_true]
  by_cases he : 0 ≤ e
  · exact .inl (.inl he)
  by_cases hc : c = 0
  · exact .inl (.inr hc)
  -- in units of the power of ten of the decimal the integer has the coefficient of the decimal
  have hcoefficient : c = i.natAbs * 10 ^ (-e).toNat := by
    have hscaled := magnitude_eq_natAbs hi
    have hunit : magnitude i.natAbs 0 = magnitude (i.natAbs * 10 ^ (0 - e).toNat) e :=
      magnitude_rescale i.natAbs (by omega)
    rw [Int.zero_sub, magnitude, zpow_zero, mul_one, ← hscaled, magnitude, magnitude] at hunit
    exact_mod_cast mul_right_cancel₀ (by positivity) hunit
  have hne : i.natAbs ≠ 0 := fun hzero => hc (by rw [hcoefficient, hzero, Nat.zero_mul])
  have hpow : 10 ^ (-e).toNat < 10 ^ digitCount c :=
    calc 10 ^ (-e).toNat ≤ i.natAbs * 10 ^ (-e).toNat := Nat.le_mul_of_pos_left _ (by omega)
      _ = c := hcoefficient.symm
      _ < 10 ^ digitCount c := lt_pow_digitCount c
  have hdigits := (Nat.pow_lt_pow_iff_right (by decide)).mp hpow
  refine .inr ⟨by omega, ?_⟩
  rw [hcoefficient]
  exact Nat.mul_mod_left _ _

end Decimal

end Rowgate
