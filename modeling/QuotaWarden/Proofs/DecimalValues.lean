import QuotaWarden.Proofs.Amounts
import Mathlib.Algebra.Order.Field.Power
import Mathlib.Data.Rat.Floor
import Mathlib.Tactic.NormNum

/-! # The numbers that decimals stand for

A finite decimal stands for a rational number, its `Decimal.value`.

* A number has one canonical decimal: `Decimal.Represents`, `Decimal.Represents.unique`.
* `Context.Holds` are the numbers that a context keeps as they are. Rounding one gives its canonical
  decimal (`Context.round_of_holds`), and so does a product (`Decimal.mul_of_holds`). A number of
  few digits is held if it is neither too large nor too small (`Context.holds_of_hasDigits`).
* `Decimal.add_exact`: a sum of multiples of one unit is exact as long as it stays below the number
  of units that the digits can count.
* Finite decimals compare as their numbers do (`Decimal.lt_eq_ok_true`). -/

namespace QuotaWarden

open Number

/-! ### Powers of ten -/

namespace Number

theorem ten_zpow_pos (e : Int) : (0 : ℚ) < 10 ^ e := zpow_pos (by norm_num) e

theorem tenTo_cast (k : Nat) : ((tenTo k : Nat) : ℚ) = 10 ^ (k : Int) := by
  rw [zpow_natCast]
  exact Nat.cast_pow 10 k

theorem tenTo_toNat {e : Int} (h : 0 ≤ e) : ((tenTo e.toNat : Nat) : ℚ) = 10 ^ e := by
  rw [tenTo_cast, Int.toNat_of_nonneg h]

theorem scaled_down {e g : Int} (h : g ≤ e) (c : Int) :
    (c : ℚ) * 10 ^ e = ((c * tenTo (e - g).toNat : Int) : ℚ) * 10 ^ g := by
  rw [Int.cast_mul, Int.cast_natCast, tenTo_toNat (by omega), mul_assoc,
    ← zpow_add₀ (by norm_num), Int.sub_add_cancel]

theorem scaled_inj {a b g : Int} : (a : ℚ) * 10 ^ g = b * 10 ^ g ↔ a = b := by
  rw [mul_left_inj' (ten_zpow_pos g).ne', Int.cast_inj]

theorem eq_mul_tenTo {c e d f : Int} (h : e ≤ f) (hv : (c : ℚ) * 10 ^ e = d * 10 ^ f) :
    c = d * tenTo (f - e).toNat := by
  rw [scaled_down h d, scaled_inj] at hv
  exact hv

theorem scaled_eq_zero {c e : Int} : (c : ℚ) * 10 ^ e = 0 ↔ c = 0 := by
  simp [(ten_zpow_pos e).ne']

theorem abs_scaled (c e : Int) : |(c : ℚ) * 10 ^ e| = (c.natAbs : ℚ) * 10 ^ e := by
  rw [abs_mul, abs_of_pos (ten_zpow_pos e), Nat.cast_natAbs, Int.cast_abs]

theorem abs_scaled_lt {k : Nat} {n : Int} (h : n.natAbs < tenTo k) (g : Int) :
    |(n : ℚ) * 10 ^ g| < 10 ^ ((k : Int) + g) := by
  rw [abs_scaled, zpow_add₀ (by norm_num), ← tenTo_cast]
  exact mul_lt_mul_of_pos_right (by exact_mod_cast h) (ten_zpow_pos g)

theorem digitCount_mul_tenTo {n : Nat} (h : n ≠ 0) (k : Nat) :
    digitCount (n * tenTo k) = digitCount n + k := by
  refine Nat.le_antisymm (digitCount_mul_tenTo_le n k) (Nat.le_of_not_lt fun hlt => ?_)
  have hpos := digitCount_pos n
  have upper : n * tenTo k < tenTo (digitCount n - 1 + k) :=
    Nat.lt_of_lt_of_le (lt_pow_digitCount _) (tenTo_le_iff.mpr (by omega))
  rw [tenTo_add] at upper
  exact absurd (pow_digitCount_le h) (Nat.not_le.mpr (Nat.lt_of_mul_lt_mul_right upper))

/-- `Fits k c e` compares the digits of `c`; its meaning is `|c * 10 ^ e| < 10 ^ k`. -/
theorem fits_iff {k c e : Int} : Decimal.Fits k c e ↔ |(c : ℚ) * 10 ^ e| < 10 ^ k := by
  rw [abs_scaled]
  by_cases hc : c = 0
  · simp [Decimal.Fits, hc, ten_zpow_pos k]
  have hn : c.natAbs ≠ 0 := Int.natAbs_ne_zero.mpr hc
  have hdigits := digitCount_pos c.natAbs
  constructor
  · intro h
    have hfits := h.resolve_left hc
    have upper : (c.natAbs : ℚ) < 10 ^ (digitCount c.natAbs : Int) := by
      rw [← tenTo_cast]
      exact_mod_cast lt_pow_digitCount c.natAbs
    calc (c.natAbs : ℚ) * 10 ^ e
        < 10 ^ (digitCount c.natAbs : Int) * 10 ^ e := by
          exact mul_lt_mul_of_pos_right upper (ten_zpow_pos e)
      _ = 10 ^ ((digitCount c.natAbs : Int) + e) := (zpow_add₀ (by norm_num) _ _).symm
      _ ≤ 10 ^ k := zpow_le_zpow_right₀ (by norm_num) (by omega)
  · intro h
    have lower : (10 : ℚ) ^ ((digitCount c.natAbs : Int) - 1) ≤ c.natAbs := by
      rw [show (digitCount c.natAbs : Int) - 1 = ((digitCount c.natAbs - 1 : Nat) : Int) by omega,
        ← tenTo_cast]
      exact_mod_cast pow_digitCount_le hn
    have hlt : (10 : ℚ) ^ ((digitCount c.natAbs : Int) - 1 + e) < 10 ^ k := by
      rw [zpow_add₀ (by norm_num)]
      exact lt_of_le_of_lt (mul_le_mul_of_nonneg_right lower (ten_zpow_pos e).le) h
    have := (zpow_lt_zpow_iff_right₀ (by norm_num)).mp hlt
    exact Or.inr (by omega)

end Number

/-! ### Canonical decimals -/

namespace Decimal

/-- The number that a decimal stands for; a special value stands for none, and is given zero. -/
def value : Decimal → ℚ
  | finite c e => c * 10 ^ e
  | _ => 0

theorem stripZeros_mul_tenTo {n : Nat} (h : n ≠ 0) (k : Nat) (e : Int) :
    stripZeros (n * tenTo k) e = stripZeros n (e + k) := by
  induction k generalizing e with
  | zero => simp
  | succ k ih =>
      have hpos := Nat.mul_pos (Nat.pos_of_ne_zero h) (tenTo_pos k)
      have hten : n * tenTo (k + 1) = n * tenTo k * 10 := by rw [tenTo_succ, Nat.mul_assoc]
      rw [stripZeros, hten, dif_pos (by omega), Nat.mul_div_cancel _ (by decide), ih,
        show e + 1 + (k : Int) = e + (k + 1 : Nat) by omega]

theorem stripZeros_value (n : Nat) (e : Int) :
    ((stripZeros n e).1 : ℚ) * 10 ^ (stripZeros n e).2 = n * 10 ^ e := by
  fun_induction stripZeros n e with
  | case1 n e hn ih =>
      have hten : ((n / 10 : Nat) : ℚ) * 10 = n := by
        exact_mod_cast Nat.div_mul_cancel (Nat.dvd_of_mod_eq_zero hn.2)
      rw [ih, zpow_add_one₀ (by norm_num), mul_comm (10 ^ e : ℚ), ← mul_assoc, hten]
  | case2 n e hn => rfl

theorem signed_decide_natAbs (c : Int) : signed (decide (c < 0)) c.natAbs = c := by
  unfold signed
  by_cases h : c < 0
  · simp only [h, decide_true, if_true]
    omega
  · simp only [h, decide_false, Bool.false_eq_true, if_false]
    omega

theorem signed_mul (negative : Bool) (n : Nat) (q : ℚ) :
    (signed negative n : ℚ) * q = if negative then -(n * q) else n * q := by
  cases negative <;> simp [signed]

theorem ofParts_value (c e : Int) :
    ∃ d f, ofParts c e = finite d f ∧ (d : ℚ) * 10 ^ f = c * 10 ^ e := by
  unfold ofParts
  split
  · next hc => exact ⟨0, 0, rfl, by simp [hc]⟩
  · refine ⟨_, _, rfl, ?_⟩
    rw [signed_mul, stripZeros_value, ← signed_mul, signed_decide_natAbs]

theorem ofParts_mul_tenTo (c : Int) (k : Nat) (e : Int) :
    ofParts (c * tenTo k) e = ofParts c (e + k) := by
  have hpos := tenTo_pos k
  by_cases hc : c = 0
  · simp [ofParts, hc]
  have hsign : decide (c * (tenTo k : Int) < 0) = decide (c < 0) :=
    decide_eq_decide.mpr (by
      rw [mul_neg_iff]
      omega)
  have hn : c.natAbs ≠ 0 := Int.natAbs_ne_zero.mpr hc
  have hne : c * (tenTo k : Int) ≠ 0 := mul_ne_zero hc (by exact_mod_cast hpos.ne')
  rw [ofParts, if_neg hne, ofParts, if_neg hc, hsign, Int.natAbs_mul, Int.natAbs_natCast,
    stripZeros_mul_tenTo hn]

theorem ofParts_congr {c e d f : Int} (h : (c : ℚ) * 10 ^ e = d * 10 ^ f) :
    ofParts c e = ofParts d f := by
  have aligned : ∀ {c e d f : Int}, e ≤ f → (c : ℚ) * 10 ^ e = d * 10 ^ f →
      ofParts c e = ofParts d f := by
    intro c e d f hle hv
    rw [eq_mul_tenTo hle hv, ofParts_mul_tenTo]
    congr 1
    omega
  rcases le_total e f with hle | hle
  · exact aligned hle h
  · exact (aligned hle h.symm).symm

/-- A decimal is the canonical one of a number. -/
def Represents (x : Decimal) (q : ℚ) : Prop :=
  ∃ c e : Int, x = ofParts c e ∧ (c : ℚ) * 10 ^ e = q

theorem represents_ofParts (c e : Int) : (ofParts c e).Represents (c * 10 ^ e) := ⟨c, e, rfl, rfl⟩

theorem represents_zero : (0 : Decimal).Represents 0 := ⟨0, 0, rfl, by simp⟩

/-- A number has one canonical decimal, so `Represents` is functional. -/
theorem Represents.unique {x y : Decimal} {q : ℚ} (hx : x.Represents q) (hy : y.Represents q) :
    x = y := by
  obtain ⟨c, e, rfl, hc⟩ := hx
  obtain ⟨d, f, rfl, hd⟩ := hy
  exact ofParts_congr (hc.trans hd.symm)

theorem Represents.finite {x : Decimal} {q : ℚ} (h : x.Represents q) :
    ∃ c e, x = .finite c e ∧ (c : ℚ) * 10 ^ e = q := by
  obtain ⟨c, e, rfl, rfl⟩ := h
  exact ofParts_value c e

theorem Represents.isFinite {x : Decimal} {q : ℚ} (h : x.Represents q) : x.isFinite = true := by
  obtain ⟨c, e, rfl, _⟩ := h.finite
  rfl

theorem Represents.value_eq {x : Decimal} {q : ℚ} (h : x.Represents q) : x.value = q := by
  obtain ⟨c, e, rfl, hv⟩ := h.finite
  exact hv

theorem eq_finite {x : Decimal} (h : x.isFinite = true) :
    ∃ c e, x = finite c e ∧ (c : ℚ) * 10 ^ e = x.value := by
  cases x with
  | finite c e => exact ⟨c, e, rfl, rfl⟩
  | _ => exact absurd h Bool.false_ne_true

/-! ### Whole numbers -/

/-- A number is whole if it is one in units of one. -/
theorem isWhole_iff {c e : Int} :
    isWhole c e = true ↔ ∃ n : Int, (c : ℚ) * 10 ^ e = n := by
  constructor
  · intro h
    rcases le_or_gt 0 e with he | he
    · exact ⟨c * tenTo e.toNat, by simpa using scaled_down he c⟩
    · obtain ⟨n, rfl⟩ := dvd_of_isWhole h he
      refine ⟨n, ?_⟩
      have hsame := scaled_down he.le n
      rw [zpow_zero, mul_one, Int.zero_sub] at hsame
      rw [hsame, Int.mul_comm]
  · rintro ⟨n, hn⟩
    by_cases hc : c = 0
    · simp [isWhole, hc]
    rcases le_or_gt 0 e with he | he
    · simp [isWhole, he]
    · have hmul : c = n * tenTo (-e).toNat := by
        have := eq_mul_tenTo (d := n) (f := 0) he.le (by simpa using hn)
        rwa [Int.zero_sub] at this
      have hn0 : n.natAbs ≠ 0 := by
        rintro h0
        rw [Int.natAbs_eq_zero.mp h0] at hmul
        exact hc (by simpa using hmul)
      have hpos := digitCount_pos n.natAbs
      have hcount : digitCount c.natAbs = digitCount n.natAbs + (-e).toNat := by
        rw [hmul, Int.natAbs_mul, Int.natAbs_natCast, digitCount_mul_tenTo hn0]
      have hmod : c % (tenTo (-e).toNat : Int) = 0 := by
        rw [hmul]
        exact Int.mul_emod_left _ _
      simp [isWhole, hmod]
      omega

theorem ceiling_value (c e : Int) :
    ((ceiling c e).1 : ℚ) * 10 ^ (ceiling c e).2 = (⌈(c : ℚ) * 10 ^ e⌉ : Int) := by
  unfold ceiling
  split
  · next he =>
      obtain ⟨n, hn⟩ := isWhole_iff.mp (Quantity.isWhole_of_nonneg (c := c) he)
      rw [hn, Int.ceil_intCast]
  · next he =>
      split
      · next hsmall =>
          have hfits : Fits 0 c e := Or.inr (by omega)
          have hlt := abs_lt.mp (fits_iff.mp hfits)
          rw [zpow_zero] at hlt
          rw [zpow_zero, mul_one, Int.cast_inj]
          symm
          rw [Int.ceil_eq_iff]
          have hpow := ten_zpow_pos e
          split
          · next hc =>
              have : (0 : ℚ) < c := by exact_mod_cast hc
              have := mul_pos this hpow
              constructor
              · simpa using this
              · simpa using hlt.2.le
          · next hc =>
              have : (c : ℚ) ≤ 0 := by exact_mod_cast Int.not_lt.mp hc
              have := mul_nonpos_of_nonpos_of_nonneg this hpow.le
              constructor
              · simpa using hlt.1
              · simpa using this
      · have hdiv : (c : ℚ) * 10 ^ e = c / (tenTo (-e).toNat : Nat) := by
          rw [tenTo_toNat (by omega), zpow_neg, div_inv_eq_mul]
        rw [hdiv, Rat.ceil_intCast_div_natCast, zpow_zero, mul_one]

theorem wholeValue?_eq {c e n : Int} (hn : (c : ℚ) * 10 ^ e = n)
    (hlt : |(n : ℚ)| < 10 ^ (digitLimit : Int)) : wholeValue? c e = some n := by
  have hfits : Fits digitLimit c e := fits_iff.mpr (by rwa [hn])
  unfold wholeValue?
  split
  · next hc =>
      rw [hc, Int.cast_zero, zero_mul] at hn
      exact congrArg some (by exact_mod_cast hn)
  · next hc =>
      have hdigits := hfits.resolve_left hc
      split
      · next he =>
          have hmul := eq_mul_tenTo (d := n) (f := 0) he.le (by simpa using hn)
          rw [Int.zero_sub] at hmul
          rw [hmul, Int.mul_ediv_cancel _ (by exact_mod_cast (tenTo_pos _).ne')]
      · next he =>
          rw [if_pos (by omega)]
          have hsame := scaled_down (Int.not_lt.mp he) c
          rw [hn, zpow_zero, mul_one, Int.cast_inj, Int.sub_zero] at hsame
          exact congrArg some hsame.symm

end Decimal

/-! ### What a context holds -/

/-- A number has at most so many significant digits. -/
def HasDigits (k : Nat) (q : ℚ) : Prop :=
  ∃ n g : Int, n.natAbs < tenTo k ∧ q = n * 10 ^ g

/-- A context keeps a number as it is: the number has no more digits than are kept, and neither its
first nor its last digit is out of range. -/
def Context.Holds (k : Context) (q : ℚ) : Prop :=
  ∃ n g : Int, n.natAbs < tenTo k.digits ∧ k.leastExponent ≤ g ∧
    Decimal.Fits (k.maxExponent + 1) n g ∧ q = n * 10 ^ g

theorem HasDigits.lt_of_not_whole {k : Nat} {q : ℚ} (h : HasDigits k q)
    (hq : ¬ ∃ m : Int, q = m) : |q| < 10 ^ (k : Int) := by
  obtain ⟨n, g, hn, rfl⟩ := h
  have hg : g < 0 := Int.not_le.mp fun hg =>
    hq (Decimal.isWhole_iff.mp (Quantity.isWhole_of_nonneg hg))
  exact lt_of_lt_of_le (abs_scaled_lt hn g) (zpow_le_zpow_right₀ (by norm_num) (by omega))

theorem HasDigits.shift {k : Nat} {q : ℚ} (h : HasDigits k q) (j : Int) :
    HasDigits k (q * 10 ^ j) := by
  obtain ⟨n, g, hn, rfl⟩ := h
  exact ⟨n, g + j, hn, by rw [zpow_add₀ (by norm_num), mul_assoc]⟩

theorem HasDigits.ceil_bounds {k : Nat} {q : ℚ} (h : HasDigits k q)
    (hq : ¬ ∃ m : Int, q = m) : -(tenTo k : Int) < ⌈q⌉ ∧ ⌈q⌉ ≤ tenTo k := by
  have hlt := h.lt_of_not_whole hq
  rw [← tenTo_cast] at hlt
  obtain ⟨lower, upper⟩ := abs_lt.mp hlt
  constructor
  · exact Int.lt_ceil.mpr (by exact_mod_cast lower)
  · exact Int.ceil_le.mpr (by exact_mod_cast upper.le)

theorem HasDigits.ceil {k : Nat} {q : ℚ} (h : HasDigits k q) (hk : 0 < k) :
    HasDigits k (⌈q⌉ : Int) := by
  by_cases hq : ∃ m : Int, q = m
  · obtain ⟨m, rfl⟩ := hq
    rwa [Int.ceil_intCast]
  · obtain ⟨lower, upper⟩ := h.ceil_bounds hq
    rcases eq_or_lt_of_le upper with heq | hne
    · refine ⟨1, k, ?_, ?_⟩
      · exact Nat.lt_of_lt_of_le (by decide : 1 < tenTo 1) (tenTo_le_iff.mpr hk)
      · rw [heq, Int.cast_natCast, tenTo_cast, Int.cast_one, one_mul]
    · exact ⟨⌈q⌉, 0, by omega, by simp⟩

theorem HasDigits.abs_ceil_lt {k l : Nat} {q : ℚ} (h : HasDigits k q) (hl : k < l)
    (hq : |q| < 10 ^ (l : Int)) : |((⌈q⌉ : Int) : ℚ)| < 10 ^ (l : Int) := by
  by_cases hwhole : ∃ m : Int, q = m
  · obtain ⟨m, rfl⟩ := hwhole
    rwa [Int.ceil_intCast]
  · obtain ⟨lower, upper⟩ := h.ceil_bounds hwhole
    have hpow : tenTo k < tenTo l := tenTo_lt_iff.mpr hl
    have hbound : |⌈q⌉| < tenTo l := abs_lt.mpr (by omega)
    rw [← tenTo_cast]
    exact_mod_cast hbound

namespace Context

variable {k : Context}

/-- `q` is held if `HasDigits k.digits q` and it lies within the exponents of `k`. -/
theorem holds_of_hasDigits {q : ℚ} (h : HasDigits k.digits q)
    (hlow : q = 0 ∨ 10 ^ (k.leastExponent + k.digits - 1) ≤ |q|)
    (hhigh : |q| < 10 ^ (k.maxExponent + 1)) : k.Holds q := by
  obtain ⟨n, g, hn, rfl⟩ := h
  rcases hlow with hzero | hlow
  · refine ⟨0, k.leastExponent, ?_, Int.le_refl _, Or.inl rfl, ?_⟩
    · exact tenTo_pos _
    · rw [hzero, Int.cast_zero, zero_mul]
  · refine ⟨n, g, hn, ?_, fits_iff.mpr hhigh, rfl⟩
    have hlt := lt_of_le_of_lt hlow (abs_scaled_lt hn g)
    have := (zpow_lt_zpow_iff_right₀ (by norm_num)).mp hlt
    omega

theorem halfEven_of_eq_mul {n m d : Nat} (h : n = m * tenTo d) : halfEven n d = m := by
  have hpos := tenTo_pos d
  subst h
  unfold halfEven
  split
  · next hlt =>
      by_contra hn
      have hcount := digitCount_mul_tenTo (Ne.symm hn) d
      omega
  · dsimp only
    rw [Nat.mul_mod_left, Nat.mul_div_cancel _ hpos, if_pos (by omega)]

/-- The `k.excess` digits that are dropped of a number that `k` holds are zeros. -/
theorem exists_eq_mul_excess {c e n g : Int} (hn : n.natAbs < tenTo k.digits)
    (hg : k.leastExponent ≤ g) (hv : (c : ℚ) * 10 ^ e = n * 10 ^ g) (hc : c ≠ 0) :
    ∃ m : Nat, c.natAbs = m * tenTo (k.excess c.natAbs e) := by
  have hn0 : n.natAbs ≠ 0 := by
    rw [Int.natAbs_ne_zero]
    rintro rfl
    exact hc (scaled_eq_zero.mp (by simpa using hv))
  have hdigits : digitCount n.natAbs ≤ k.digits := by
    refine digitCount_le_of_lt_pow (Nat.pos_of_ne_zero fun h0 => hn0 ?_) hn
    rw [h0, tenTo_zero] at hn
    omega
  have hcn : c.natAbs ≠ 0 := Int.natAbs_ne_zero.mpr hc
  unfold excess
  rcases le_total g e with hle | hle
  · have hmul := eq_mul_tenTo hle hv.symm
    have hcount : digitCount n.natAbs = digitCount c.natAbs + (e - g).toNat := by
      rw [hmul, Int.natAbs_mul, Int.natAbs_natCast, digitCount_mul_tenTo hcn]
    refine ⟨c.natAbs, ?_⟩
    rw [show max (digitCount c.natAbs - k.digits) (k.leastExponent - e).toNat = 0 by omega,
      tenTo_zero, Nat.mul_one]
  · have hmul := eq_mul_tenTo hle hv
    have hcount : digitCount c.natAbs = digitCount n.natAbs + (g - e).toNat := by
      rw [hmul, Int.natAbs_mul, Int.natAbs_natCast, digitCount_mul_tenTo hn0]
    obtain ⟨j, hj⟩ : ∃ j, (g - e).toNat =
        j + max (digitCount c.natAbs - k.digits) (k.leastExponent - e).toNat :=
      ⟨(g - e).toNat - max (digitCount c.natAbs - k.digits) (k.leastExponent - e).toNat, by omega⟩
    refine ⟨n.natAbs * tenTo j, ?_⟩
    conv_lhs => rw [hmul, Int.natAbs_mul, Int.natAbs_natCast, hj, tenTo_add, ← Nat.mul_assoc]

/-- **`Context.round` is exact** on what the context holds. -/
theorem round_of_holds {c e : Int} (h : k.Holds (c * 10 ^ e)) :
    ∃ z, k.round c e = .ok z ∧ z.Represents (c * 10 ^ e) := by
  obtain ⟨n, g, hn, hg, hfits, hv⟩ := h
  unfold round
  split
  · next hc => exact ⟨.finite 0 0, rfl, 0, 0, rfl, by simp [hc]⟩
  · next hc =>
      obtain ⟨m, hm⟩ := exists_eq_mul_excess hn hg hv hc
      have hm0 : m ≠ 0 := by
        rintro rfl
        exact hc (by simpa using hm)
      have hcount := digitCount_mul_tenTo hm0 (k.excess c.natAbs e)
      rw [← hm] at hcount
      have hfit : Decimal.Fits (k.maxExponent + 1) c e := fits_iff.mpr (hv ▸ fits_iff.mp hfits)
      have hrange := hfit.resolve_left hc
      have hparts : Decimal.ofParts (signed (decide (c < 0)) m) (e + k.excess c.natAbs e) =
          Decimal.ofParts c e := by
        rw [← Decimal.ofParts_mul_tenTo]
        congr 1
        conv_rhs => rw [← Decimal.signed_decide_natAbs c, hm]
        unfold signed
        split <;> push_cast <;> ring
      dsimp only
      have within : ¬ k.maxExponent <
          Decimal.adjusted m (e + k.excess c.natAbs e) := by
        unfold Decimal.adjusted
        rw [Int.natAbs_natCast]
        omega
      rw [halfEven_of_eq_mul hm, if_neg hm0, if_neg within, hparts]
      exact ⟨_, rfl, Decimal.represents_ofParts c e⟩

end Context

namespace Decimal

variable {k : Context} {x y : Decimal}

theorem mul_of_holds (hx : x.isFinite = true) (hy : y.isFinite = true)
    (h : k.Holds (x.value * y.value)) :
    ∃ z, mul k x y = .ok z ∧ z.Represents (x.value * y.value) := by
  obtain ⟨c, e, rfl, hc⟩ := eq_finite hx
  obtain ⟨d, f, rfl, hd⟩ := eq_finite hy
  have hv : (finite c e).value * (finite d f).value = ((c * d : Int) : ℚ) * 10 ^ (e + f) := by
    rw [← hc, ← hd, zpow_add₀ (by norm_num), Int.cast_mul]
    ring
  rw [hv] at h ⊢
  exact Context.round_of_holds h

theorem exactSum_value (c e d f : Int) :
    ((exactSum c e d f).1 : ℚ) * 10 ^ (exactSum c e d f).2 = c * 10 ^ e + d * 10 ^ f := by
  rw [scaled_down (min_le_left e f) c, scaled_down (min_le_right e f) d, ← add_mul, ← Int.cast_add]
  rfl

theorem adjusted_congr {c e d f : Int} (hc : c ≠ 0) (h : (c : ℚ) * 10 ^ e = d * 10 ^ f) :
    adjusted c e = adjusted d f := by
  have aligned : ∀ {c e d f : Int}, d ≠ 0 → e ≤ f → (c : ℚ) * 10 ^ e = d * 10 ^ f →
      adjusted c e = adjusted d f := by
    intro c e d f hd hle hv
    have hcount := digitCount_mul_tenTo (Int.natAbs_ne_zero.mpr hd) (f - e).toNat
    unfold adjusted
    rw [eq_mul_tenTo hle hv, Int.natAbs_mul, Int.natAbs_natCast]
    omega
  rcases le_total e f with hle | hle
  · refine aligned ?_ hle h
    rintro rfl
    exact hc (scaled_eq_zero.mp (by simpa using h))
  · exact (aligned hc hle h.symm).symm

/-- `sticky` does not replace an operand if the first digits are less than `k.digits` apart. -/
theorem orderedSum_exact {c e d f g : Int} (hd : g ≤ adjusted d f)
    (hc : adjusted c e < g + k.digits) : orderedSum k c e d f = exactSum c e d f := by
  unfold orderedSum stickyPlace
  rw [if_neg (by omega)]

/-- The first digit of `a * 10 ^ g`, where `|a| < 10 ^ k.digits`. -/
theorem adjusted_of_units {c e a g : Int} (hc : c ≠ 0) (h : (c : ℚ) * 10 ^ e = a * 10 ^ g)
    (ha : a.natAbs < tenTo k.digits) : g ≤ adjusted c e ∧ adjusted c e < g + k.digits := by
  rw [adjusted_congr hc h]
  have ha0 : a.natAbs ≠ 0 := by
    rw [Int.natAbs_ne_zero]
    rintro rfl
    exact hc (scaled_eq_zero.mp (by simpa using h))
  have hpos := digitCount_pos a.natAbs
  have hlt := Nat.lt_of_le_of_lt (pow_digitCount_le ha0) ha
  rw [tenTo_lt_iff] at hlt
  unfold adjusted
  constructor <;> omega

/-- **Multiples of `10 ^ g` are added exactly** while `|a| + |b| < 10 ^ k.digits`. -/
theorem add_exact {a b g : Int} (hx : x.isFinite = true) (hy : y.isFinite = true)
    (ha : x.value = a * 10 ^ g) (hb : y.value = b * 10 ^ g)
    (hsum : a.natAbs + b.natAbs < tenTo k.digits) (hg : k.leastExponent ≤ g)
    (hmax : g + k.digits ≤ k.maxExponent + 1) :
    ∃ z, add k x y = .ok z ∧ z.Represents (x.value + y.value) := by
  have held : ∀ n : Int, n.natAbs < tenTo k.digits → k.Holds (n * 10 ^ g) := by
    intro n hn
    refine ⟨n, g, hn, hg, fits_iff.mpr (lt_of_lt_of_le (abs_scaled_lt hn g) ?_), rfl⟩
    exact zpow_le_zpow_right₀ (by norm_num) (by omega)
  have total : x.value + y.value = ((a + b : Int) : ℚ) * 10 ^ g := by
    rw [ha, hb, Int.cast_add, add_mul]
  have holds : k.Holds (x.value + y.value) := total ▸ held (a + b) (by omega)
  obtain ⟨c, e, rfl, hc⟩ := eq_finite hx
  obtain ⟨d, f, rfl, hd⟩ := eq_finite hy
  change ∃ z, addFinite k c e d f = .ok z ∧ _
  have exact : ∀ c e d f : Int, k.Holds (c * 10 ^ e + d * 10 ^ f) →
      ∃ z, k.round (exactSum c e d f).1 (exactSum c e d f).2 = .ok z ∧
        z.Represents (c * 10 ^ e + d * 10 ^ f) := by
    intro c e d f h
    rw [← exactSum_value] at h ⊢
    exact Context.round_of_holds h
  rw [← hc, ← hd] at holds ⊢
  unfold addFinite
  split
  · next hc0 =>
      rw [hc0, Int.cast_zero, zero_mul, zero_add] at holds ⊢
      exact Context.round_of_holds holds
  · next hc0 =>
      split
      · next hd0 =>
          rw [hd0, Int.cast_zero, zero_mul, add_zero] at holds ⊢
          exact Context.round_of_holds holds
      · next hd0 =>
          have hfirst := adjusted_of_units (k := k) hc0 (hc.trans ha) (by omega)
          have hsecond := adjusted_of_units (k := k) hd0 (hd.trans hb) (by omega)
          dsimp only
          split
          · rw [orderedSum_exact hsecond.1 hfirst.2]
            exact exact c e d f holds
          · rw [orderedSum_exact hfirst.1 hsecond.2, add_comm]
            exact exact d f c e (by rwa [add_comm])

/-! ### The order of numbers -/

/-- `10 ^ adjusted c e ≤ c * 10 ^ e < 10 ^ (adjusted c e + 1)` for `0 < c`. -/
theorem adjusted_bounds {c e : Int} (hc : 0 < c) :
    10 ^ adjusted c e ≤ (c : ℚ) * 10 ^ e ∧ (c : ℚ) * 10 ^ e < 10 ^ (adjusted c e + 1) := by
  have positive : |(c : ℚ) * 10 ^ e| = c * 10 ^ e :=
    abs_of_pos (mul_pos (by exact_mod_cast hc) (ten_zpow_pos e))
  have upper := fits_iff (k := adjusted c e + 1) (c := c) (e := e)
  have lower := not_congr (fits_iff (k := adjusted c e) (c := c) (e := e))
  rw [positive] at upper lower
  refine ⟨not_lt.mp (lower.mp ?_), upper.mp (Or.inr ?_)⟩
  · unfold Fits adjusted
    omega
  · unfold adjusted
    omega

/-- By `adjusted` if these differ, else at the lower one of both exponents. -/
theorem compareMagnitudes_eq_lt {m n : Nat} {e f : Int} (hm : 0 < m) (hn : 0 < n) :
    compareMagnitudes m e n f = .lt ↔ (m : ℚ) * 10 ^ e < n * 10 ^ f := by
  have first := adjusted_bounds (e := e) (Int.natCast_pos.mpr hm)
  have second := adjusted_bounds (e := f) (Int.natCast_pos.mpr hn)
  rw [Int.cast_natCast] at first second
  unfold compareMagnitudes
  rcases Int.lt_trichotomy (adjusted m e) (adjusted n f) with hlt | heq | hgt
  · rw [compare_lt_iff_lt.mpr hlt]
    have powers : (10 : ℚ) ^ (adjusted m e + 1) ≤ 10 ^ adjusted n f :=
      zpow_le_zpow_right₀ (by norm_num) hlt
    exact iff_of_true rfl (first.2.trans_le (powers.trans second.1))
  · rw [compare_eq_iff_eq.mpr heq]
    have left := scaled_down (min_le_left e f) m
    have right := scaled_down (min_le_right e f) n
    rw [show (e - min e f).toNat = (e - f).toNat by omega, Int.cast_natCast] at left
    rw [show (f - min e f).toNat = (f - e).toNat by omega, Int.cast_natCast] at right
    rw [left, right, mul_lt_mul_iff_left₀ (ten_zpow_pos _), Int.cast_lt]
    exact compare_lt_iff_lt.trans (by exact_mod_cast Iff.rfl)
  · rw [compare_gt_iff_gt.mpr hgt]
    have powers : (10 : ℚ) ^ (adjusted n f + 1) ≤ 10 ^ adjusted m e :=
      zpow_le_zpow_right₀ (by norm_num) hgt
    exact iff_of_false (by simp) (second.2.trans_le (powers.trans first.1)).not_gt

theorem compareFinite_eq_lt (c e d f : Int) :
    compareFinite c e d f = .lt ↔ (c : ℚ) * 10 ^ e < d * 10 ^ f := by
  have negative {a g : Int} (h : a < 0) : (a : ℚ) * 10 ^ g < 0 :=
    mul_neg_of_neg_of_pos (by exact_mod_cast h) (ten_zpow_pos g)
  have positive {a g : Int} (h : 0 < a) : 0 < (a : ℚ) * 10 ^ g :=
    mul_pos (by exact_mod_cast h) (ten_zpow_pos g)
  have zero (g : Int) : ((0 : Int) : ℚ) * 10 ^ g = 0 := by simp
  unfold compareFinite
  rcases Int.lt_trichotomy c 0 with hc | rfl | hc
  · rw [Int.sign_eq_neg_one_of_neg hc]
    rcases Int.lt_trichotomy d 0 with hd | rfl | hd
    · rw [Int.sign_eq_neg_one_of_neg hd]
      change (if c = 0 then _ else if 0 < c then _ else _) = _ ↔ _
      rw [if_neg hc.ne, if_neg hc.not_gt, compareMagnitudes_eq_lt (by omega) (by omega),
        ← abs_scaled, ← abs_scaled, abs_of_neg (negative hd), abs_of_neg (negative hc),
        neg_lt_neg_iff]
    · exact iff_of_true rfl (by rw [zero]; exact negative hc)
    · rw [Int.sign_eq_one_of_pos hd]
      exact iff_of_true rfl ((negative hc).trans (positive hd))
  · rw [zero, Int.sign_zero]
    rcases Int.lt_trichotomy d 0 with hd | rfl | hd
    · rw [Int.sign_eq_neg_one_of_neg hd]
      exact iff_of_false (show Ordering.gt ≠ .lt by decide) (negative hd).not_gt
    · exact iff_of_false (show Ordering.eq ≠ .lt by decide) (by simp)
    · rw [Int.sign_eq_one_of_pos hd]
      exact iff_of_true rfl (positive hd)
  · rw [Int.sign_eq_one_of_pos hc]
    rcases Int.lt_trichotomy d 0 with hd | rfl | hd
    · rw [Int.sign_eq_neg_one_of_neg hd]
      exact iff_of_false (show Ordering.gt ≠ .lt by decide)
        ((negative hd).trans (positive hc)).not_gt
    · rw [zero]
      exact iff_of_false (show Ordering.gt ≠ .lt by decide) (positive hc).not_gt
    · rw [Int.sign_eq_one_of_pos hd]
      change (if c = 0 then _ else if 0 < c then _ else _) = _ ↔ _
      rw [if_neg hc.ne', if_pos hc, compareMagnitudes_eq_lt (by omega) (by omega),
        ← abs_scaled, ← abs_scaled, abs_of_pos (positive hc), abs_of_pos (positive hd)]

/-- On finite decimals `lt` is the order of `Decimal.value`. -/
theorem lt_eq_ok_true {x y : Decimal} (hx : x.isFinite = true) (hy : y.isFinite = true) :
    lt x y = .ok true ↔ x.value < y.value := by
  obtain ⟨c, e, rfl, hc⟩ := eq_finite hx
  obtain ⟨d, f, rfl, hd⟩ := eq_finite hy
  rw [← hc, ← hd, ← compareFinite_eq_lt]
  change Except.ok (compareFinite c e d f == .lt) = _ ↔ _
  simp

end Decimal

end QuotaWarden
