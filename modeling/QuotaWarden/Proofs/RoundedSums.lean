import QuotaWarden.Proofs.DecimalValues
import Mathlib.Tactic.Linarith

/-! # Rounded sums are nearest

A sum that is rounded is the number of few digits that is nearest to the exact sum. This alone makes
rounded sums monotone, however many digits the operands have and however far apart they are. All
numbers here are at least zero.

* `Context.Keeps` are the numbers that rounding gives if their size is not limited, and
  `Context.Nearest` is such a number with none nearer. What is larger is not rounded to less
  (`Context.Nearest.mono`).
* Rounding gives a nearest number, or overflows because that number is too large
  (`Context.round_nearest`). So does a sum, also where one operand is only hinted at
  (`Decimal.add_nearest`).
* `Decimal.IsSum` are the results of sums. Adding to one gives no less (`Decimal.IsSum.le_add`), and
  adding the same to a smaller one gives no more (`Decimal.IsSum.add_le_add`). -/

namespace QuotaWarden

open Number

/-! ### Multiples of a unit -/

/-- A number is a multiple of `10 ^ g`. -/
def Multiple (g : Int) (q : ℚ) : Prop := ∃ n : Int, q = n * 10 ^ g

namespace Multiple

variable {g h : Int} {p q r : ℚ}

theorem mono (hq : Multiple h q) (hle : g ≤ h) : Multiple g q := by
  obtain ⟨n, rfl⟩ := hq
  exact ⟨_, scaled_down hle n⟩

theorem add (hp : Multiple g p) (hq : Multiple g q) : Multiple g (p + q) := by
  obtain ⟨m, rfl⟩ := hp
  obtain ⟨n, rfl⟩ := hq
  exact ⟨m + n, by rw [Int.cast_add, add_mul]⟩

theorem sub (hp : Multiple g p) (hq : Multiple g q) : Multiple g (p - q) := by
  obtain ⟨m, rfl⟩ := hp
  obtain ⟨n, rfl⟩ := hq
  exact ⟨m - n, by rw [Int.cast_sub, sub_mul]⟩

theorem half (hq : Multiple (g + 1) q) : Multiple g (q / 2) := by
  obtain ⟨n, rfl⟩ := hq
  refine ⟨n * 5, ?_⟩
  rw [zpow_add_one₀ (by norm_num)]
  push_cast
  ring

theorem unit_le_abs (hq : Multiple g q) (h0 : q ≠ 0) : 10 ^ g ≤ |q| := by
  obtain ⟨n, rfl⟩ := hq
  have hn : n ≠ 0 := by
    rintro rfl
    simp at h0
  rw [abs_scaled]
  have one : (1 : ℚ) ≤ n.natAbs := by exact_mod_cast Int.natAbs_pos.mpr hn
  simpa using mul_le_mul_of_nonneg_right one (ten_zpow_pos g).le

/-- No multiple of `10 ^ g` is nearer to `x` than one within `10 ^ g / 2`. -/
theorem nearest {x : ℚ} (hq : Multiple g q) (hr : Multiple g r) (near : 2 * |x - q| ≤ 10 ^ g) :
    |x - q| ≤ |x - r| := by
  by_cases same : r - q = 0
  · rw [sub_eq_zero.mp same]
  · have apart := (hr.sub hq).unit_le_abs same
    have split : |r - q| ≤ |x - q| + |x - r| := by
      have := abs_sub (x - q) (x - r)
      rwa [show x - q - (x - r) = r - q by ring] at this
    linarith

end Multiple

/-- `halfEven` moves by half of `10 ^ drop` at most. -/
theorem halfEven_near (n drop : Nat) :
    2 * |(n : Int) - halfEven n drop * tenTo drop| ≤ tenTo drop := by
  have hlt := Nat.mod_lt n (tenTo_pos drop)
  have hsplit := Nat.div_add_mod' n (tenTo drop)
  have near : ∀ h : Nat, h = n / tenTo drop ∧ 2 * (n % tenTo drop) ≤ tenTo drop ∨
      h = n / tenTo drop + 1 ∧ tenTo drop ≤ 2 * (n % tenTo drop) →
      2 * |(n : Int) - h * tenTo drop| ≤ tenTo drop := by
    intro h hh
    have hcast : (n : Int) = (n / tenTo drop : Nat) * tenTo drop + (n % tenTo drop : Nat) := by
      exact_mod_cast hsplit.symm
    have lower : (0 : Int) ≤ (n % tenTo drop : Nat) := Int.natCast_nonneg _
    rcases hh with ⟨rfl, hrest⟩ | ⟨rfl, hrest⟩
    · have rest : (n : Int) - (n / tenTo drop : Nat) * tenTo drop = (n % tenTo drop : Nat) := by
        linarith
      rw [rest, abs_of_nonneg lower]
      exact_mod_cast hrest
    · have rest : (n : Int) - (n / tenTo drop + 1 : Nat) * tenTo drop =
          -(tenTo drop - (n % tenTo drop : Nat)) := by
        push_cast at hcast ⊢
        linarith
      rw [rest, abs_neg, abs_of_nonneg (by omega)]
      omega
  unfold halfEven
  split
  · next hfew =>
      have small : n < tenTo (digitCount n) := lt_pow_digitCount n
      have much : tenTo (digitCount n + 1) ≤ tenTo drop := tenTo_le_iff.mpr hfew
      rw [tenTo_succ] at much
      have hdiv : n / tenTo drop = 0 := Nat.div_eq_of_lt (by omega)
      have hmod : n % tenTo drop = n := Nat.mod_eq_of_lt (by omega)
      exact near 0 (Or.inl ⟨hdiv.symm, by omega⟩)
  · dsimp only
    split
    · exact near _ (Or.inl ⟨rfl, by omega⟩)
    · split
      · exact near _ (Or.inr ⟨rfl, by omega⟩)
      · rcases Nat.mod_two_eq_zero_or_one (n / tenTo drop) with even | odd
        · exact near _ (Or.inl ⟨by rw [even, Nat.add_zero], by omega⟩)
        · exact near _ (Or.inr ⟨by rw [odd], by omega⟩)

/-! ### Nearest numbers -/

namespace Context

/-- The numbers that rounding gives, as if there were no largest one: few digits, and the last one
not too low. -/
def Keeps (k : Context) (q : ℚ) : Prop :=
  ∃ (n : Nat) (g : Int), n < tenTo k.digits ∧ k.leastExponent ≤ g ∧ q = n * 10 ^ g

/-- A number that is kept, with no such number nearer. -/
structure Nearest (k : Context) (q r : ℚ) : Prop where
  keeps : k.Keeps r
  le : ∀ r', k.Keeps r' → |q - r| ≤ |q - r'|

variable {k : Context} {q r q' r' : ℚ}

theorem Keeps.nonneg (h : k.Keeps q) : 0 ≤ q := by
  obtain ⟨n, g, _, _, rfl⟩ := h
  exact mul_nonneg (Nat.cast_nonneg n) (ten_zpow_pos g).le

theorem keeps_zero : k.Keeps 0 := ⟨0, k.leastExponent, tenTo_pos _, Int.le_refl _, by simp⟩

theorem Keeps.nearest (h : k.Keeps q) : k.Nearest q q := ⟨h, fun r _ => by simp⟩

theorem keeps_of_le (hk : 0 < k.digits) {n : Nat} {g : Int} (hn : n ≤ tenTo k.digits)
    (hg : k.leastExponent ≤ g) : k.Keeps (n * 10 ^ g) := by
  rcases Nat.lt_or_eq_of_le hn with hn | rfl
  · exact ⟨n, g, hn, hg, rfl⟩
  · refine ⟨tenTo (k.digits - 1), g + 1, tenTo_lt_iff.mpr (by omega), by omega, ?_⟩
    rw [tenTo_cast, tenTo_cast, ← zpow_add₀ (by norm_num), ← zpow_add₀ (by norm_num)]
    congr 1
    omega

theorem Keeps.power (hk : 0 < k.digits) {g : Int} (hg : k.leastExponent ≤ g) :
    k.Keeps (10 ^ g) := by
  simpa using keeps_of_le (n := 1) hk (Nat.one_le_iff_ne_zero.mpr (tenTo_pos _).ne') hg

theorem larger_nearer_iff {x a b : ℚ} (h : a < b) : |x - b| ≤ |x - a| ↔ a + b ≤ 2 * x := by
  rw [← sq_le_sq]
  constructor <;> intro h' <;> nlinarith

theorem smaller_nearer_iff {x a b : ℚ} (h : a < b) : |x - a| ≤ |x - b| ↔ 2 * x ≤ a + b := by
  rw [← sq_le_sq]
  constructor <;> intro h' <;> nlinarith

/-- **Rounding is monotone**: `q < q'` implies `r ≤ r'`. -/
theorem Nearest.mono (h : k.Nearest q r) (h' : k.Nearest q' r') (hlt : q < q') : r ≤ r' := by
  by_contra! reversed
  have above := (larger_nearer_iff reversed).mp (h.le r' h'.keeps)
  have below := (smaller_nearer_iff reversed).mp (h'.le r h.keeps)
  linarith

/-- `halfEven` at the place of `k.excess` gives a `Nearest` number. -/
theorem nearest_halfEven (hk : 0 < k.digits) (n : Nat) (e : Int) :
    k.Nearest (n * 10 ^ e) (halfEven n (k.excess n e) * 10 ^ (e + k.excess n e)) := by
  generalize hdrop : k.excess n e = drop
  unfold excess at hdrop
  have few : halfEven n drop ≤ tenTo k.digits :=
    Nat.le_trans (halfEven_le n drop) (tenTo_le_iff.mpr (by omega))
  refine ⟨keeps_of_le hk few (by omega), ?_⟩
  have near : 2 * |(n : ℚ) * 10 ^ e - halfEven n drop * 10 ^ (e + drop)| ≤ 10 ^ (e + drop) := by
    have h : 2 * |(n : ℚ) - halfEven n drop * tenTo drop| ≤ tenTo drop := by
      exact_mod_cast halfEven_near n drop
    have unit : (10 : ℚ) ^ (e + drop) = tenTo drop * 10 ^ e := by
      rw [zpow_add₀ (by norm_num), tenTo_cast, mul_comm]
    rw [unit, ← mul_assoc, ← sub_mul, abs_mul, abs_of_pos (ten_zpow_pos e), ← mul_assoc]
    exact mul_le_mul_of_nonneg_right h (ten_zpow_pos e).le
  have rounded : Multiple (e + drop) (halfEven n drop * 10 ^ (e + drop)) :=
    ⟨halfEven n drop, by simp⟩
  rintro _ ⟨m, g, hm, hg, rfl⟩
  rcases le_or_gt (e + drop) g with hle | hlt
  · exact rounded.nearest (Multiple.mono ⟨m, by simp⟩ hle) near
  rcases Nat.eq_zero_or_pos drop with rfl | hpos
  · rw [halfEven_of_eq_mul (m := n) (by simp)]
    simp
  · have power : Multiple (e + drop) (10 ^ (e + drop + k.digits - 1)) :=
      Multiple.mono (h := e + drop + k.digits - 1) ⟨1, by simp⟩ (by omega)
    have reached : (10 : ℚ) ^ (e + drop + k.digits - 1) ≤ n * 10 ^ e := by
      have digits : tenTo (digitCount n - 1) ≤ n := pow_digitCount_le (by
        rintro rfl
        have : digitCount 0 = 1 := by simp [digitCount]
        omega)
      have scaled : (tenTo (digitCount n - 1) : ℚ) * 10 ^ e ≤ n * 10 ^ e :=
        mul_le_mul_of_nonneg_right (by exact_mod_cast digits) (ten_zpow_pos e).le
      rw [tenTo_cast, ← zpow_add₀ (by norm_num)] at scaled
      rwa [show e + drop + k.digits - 1 = ((digitCount n - 1 : Nat) : Int) + e by omega]
    have below : (m : ℚ) * 10 ^ g ≤ 10 ^ (e + drop + k.digits - 1) := by
      have scaled : (m : ℚ) * 10 ^ g ≤ tenTo k.digits * 10 ^ g :=
        mul_le_mul_of_nonneg_right (by exact_mod_cast hm.le) (ten_zpow_pos g).le
      rw [tenTo_cast, ← zpow_add₀ (by norm_num)] at scaled
      exact scaled.trans (zpow_le_zpow_right₀ (by norm_num) (by omega))
    refine (rounded.nearest power near).trans ?_
    rw [abs_of_nonneg (by linarith), abs_of_nonneg (by linarith)]
    linarith

/-- A kept `r` of at least `10 ^ a` is a multiple of `10 ^ (a - k.digits + 1)`; so is any kept
number if `a` lies below the exponents. -/
theorem Keeps.multiple (hk : 0 < k.digits) {a : Int} (hr : k.Keeps r)
    (ha : a < k.leastExponent ∨ 10 ^ a ≤ r) : Multiple (a - k.digits + 1) r := by
  obtain ⟨n, g, hn, hg, rfl⟩ := hr
  refine Multiple.mono (h := g) ⟨n, by simp⟩ ?_
  rcases ha with ha | ha
  · omega
  · have size : (n : ℚ) < tenTo k.digits := by exact_mod_cast hn
    have below := ha.trans_lt (mul_lt_mul_of_pos_right size (ten_zpow_pos g))
    rw [tenTo_cast, ← zpow_add₀ (by norm_num)] at below
    have := (zpow_lt_zpow_iff_right₀ (by norm_num)).mp below
    omega

/-- What comes of a nearest number: its canonical decimal, or an overflow if it is too large. -/
def Yields (k : Context) (r : ℚ) : Except Signal Decimal → Prop
  | .ok z => z.Represents r ∧ r < 10 ^ (k.maxExponent + 1)
  | .error s => s = .overflow ∧ 10 ^ (k.maxExponent + 1) ≤ r

theorem round_nearest (hk : 0 < k.digits) {c e : Int} (hc : 0 ≤ c) :
    ∃ r, k.Nearest (c * 10 ^ e) r ∧ k.Yields r (k.round c e) := by
  obtain ⟨n, rfl⟩ := Int.eq_ofNat_of_zero_le hc
  have zero : k.Yields 0 (.ok (.finite 0 0)) := ⟨Decimal.represents_zero, ten_zpow_pos _⟩
  refine ⟨_, nearest_halfEven hk n e, ?_⟩
  unfold round
  rw [Int.natAbs_natCast]
  split
  · next hn =>
      obtain rfl : n = 0 := by exact_mod_cast hn
      have none : halfEven 0 (k.excess 0 e) = 0 := halfEven_of_eq_mul (by simp)
      simpa [none] using zero
  · dsimp only
    generalize halfEven n (k.excess n e) = q
    generalize e + (k.excess n e : Int) = g
    split
    · next hq => simpa [hq] using zero
    · next hq =>
        have size : (q : ℚ) * 10 ^ g < 10 ^ (k.maxExponent + 1) ↔
            ¬ k.maxExponent < Decimal.adjusted q g := by
          have fits := fits_iff (k := k.maxExponent + 1) (c := q) (e := g)
          rw [abs_scaled, Int.natAbs_natCast] at fits
          rw [← fits]
          unfold Decimal.Fits Decimal.adjusted
          omega
        split
        · next large => exact ⟨rfl, not_lt.mp fun h => size.mp h large⟩
        · next within =>
            have positive : decide ((n : Int) < 0) = false := by simp
            rw [positive]
            exact ⟨⟨q, g, rfl, rfl⟩, size.mpr within⟩

end Context

/-! ### Sums -/

namespace Decimal

variable {k : Context} {c e d f : Int}

/-- **`sticky` is enough**: a summand below `stickyPlace` counts as `10 ^ (stickyPlace k c e - 1)`.
-/
theorem nearest_of_sticky (hk : 0 < k.digits) (hc : 0 < c) (hd : 0 < d)
    (far : adjusted d f + 1 < stickyPlace k c e) {r : ℚ}
    (h : k.Nearest (c * 10 ^ e + 10 ^ (stickyPlace k c e - 1)) r) :
    k.Nearest (c * 10 ^ e + d * 10 ^ f) r := by
  have first := adjusted_bounds (e := e) hc
  have rest : (d : ℚ) * 10 ^ f < 10 ^ (stickyPlace k c e - 1) :=
    (adjusted_bounds hd).2.trans_le (zpow_le_zpow_right₀ (by norm_num) (by omega))
  have positive : 0 < (d : ℚ) * 10 ^ f := mul_pos (by exact_mod_cast hd) (ten_zpow_pos f)
  have place : stickyPlace k c e ≤ e ∧ stickyPlace k c e ≤ adjusted c e - (k.digits + 2) :=
    ⟨min_le_left _ _, min_le_right _ _⟩
  generalize stickyPlace k c e = p at *
  generalize (d : ℚ) * 10 ^ f = y at *
  have high : ∀ r', k.Keeps r' → (adjusted c e < k.leastExponent ∨ 10 ^ adjusted c e ≤ r') →
      |c * 10 ^ e + y - r| ≤ |c * 10 ^ e + y - r'| := by
    intro r' hr' reach
    have nearer := h.le r' hr'
    rcases lt_trichotomy r r' with hlt | rfl | hgt
    · rw [Context.smaller_nearer_iff hlt] at nearer ⊢
      linarith
    · exact le_rfl
    · rw [Context.larger_nearer_iff hgt] at nearer ⊢
      by_contra! between
      have middle : Multiple p ((r' + r) / 2 - c * 10 ^ e) := by
        have lower := hr'.multiple hk reach
        have upper := h.keeps.multiple hk (reach.imp id fun reach => reach.trans hgt.le)
        have half := (lower.add upper).half
        exact (half.mono (by omega)).sub (Multiple.mono ⟨c, rfl⟩ place.1)
      have unit := middle.unit_le_abs (by linarith)
      rw [abs_of_pos (by linarith)] at unit
      have smaller : (10 : ℚ) ^ (p - 1) < 10 ^ p := zpow_lt_zpow_right₀ (by norm_num) (by omega)
      linarith
  refine ⟨h.keeps, fun r' hr' => ?_⟩
  rcases lt_or_ge (adjusted c e) k.leastExponent with hlow | hlow
  · exact high r' hr' (Or.inl hlow)
  rcases le_or_gt (10 ^ adjusted c e) r' with hreach | hreach
  · exact high r' hr' (Or.inr hreach)
  · refine (high _ (Context.Keeps.power hk hlow) (Or.inr le_rfl)).trans ?_
    rw [abs_of_nonneg (by linarith), abs_of_nonneg (by linarith)]
    linarith

theorem exactSum_nonneg (hc : 0 ≤ c) (hd : 0 ≤ d) : 0 ≤ (exactSum c e d f).1 :=
  Int.add_nonneg (Int.mul_nonneg hc (Int.natCast_nonneg _))
    (Int.mul_nonneg hd (Int.natCast_nonneg _))

theorem orderedSum_nearest (hk : 0 < k.digits) (hc : 0 < c) (hd : 0 < d) :
    ∃ r, k.Nearest (c * 10 ^ e + d * 10 ^ f) r ∧
      k.Yields r (k.round (orderedSum k c e d f).1 (orderedSum k c e d f).2) := by
  unfold orderedSum
  split
  · next far =>
      have hint : (sticky k c e d) = (1, stickyPlace k c e - 1) := by
        rw [sticky, Int.sign_eq_one_of_pos hd]
      rw [hint]
      dsimp only
      obtain ⟨r, nearest, yields⟩ := Context.round_nearest hk
        (e := (exactSum c e 1 (stickyPlace k c e - 1)).2) (exactSum_nonneg hc.le Int.one_nonneg)
      rw [exactSum_value, Int.cast_one, one_mul] at nearest
      exact ⟨r, nearest_of_sticky hk hc hd far nearest, yields⟩
  · rw [← exactSum_value]
    exact Context.round_nearest hk (exactSum_nonneg hc.le hd.le)

/-- **`Decimal.add` gives a `Nearest` number** to the exact sum, or overflows as `Yields` says. -/
theorem add_nearest (hk : 0 < k.digits) {x y : Decimal} (hx : x.isFinite = true)
    (hy : y.isFinite = true) (hx0 : 0 ≤ x.value) (hy0 : 0 ≤ y.value) :
    ∃ r, k.Nearest (x.value + y.value) r ∧ k.Yields r (add k x y) := by
  obtain ⟨c, e, rfl, hc⟩ := eq_finite hx
  obtain ⟨d, f, rfl, hd⟩ := eq_finite hy
  have nonneg {a g : Int} (h : 0 ≤ (a : ℚ) * 10 ^ g) : 0 ≤ a := by
    exact_mod_cast nonneg_of_mul_nonneg_left h (ten_zpow_pos g)
  rw [← hc] at hx0
  rw [← hd] at hy0
  rw [← hc, ← hd]
  change ∃ r, _ ∧ k.Yields r (addFinite k c e d f)
  unfold addFinite
  split
  · next zero =>
      rw [zero, Int.cast_zero, zero_mul, zero_add]
      exact Context.round_nearest hk (nonneg hy0)
  · next hc0 =>
      split
      · next zero =>
          rw [zero, Int.cast_zero, zero_mul, add_zero]
          exact Context.round_nearest hk (nonneg hx0)
      · next hd0 =>
          have hcpos := lt_of_le_of_ne (nonneg hx0) (Ne.symm hc0)
          have hdpos := lt_of_le_of_ne (nonneg hy0) (Ne.symm hd0)
          dsimp only
          split
          · exact orderedSum_nearest hk hcpos hdpos
          · rw [add_comm]
            exact orderedSum_nearest hk hdpos hcpos

/-! ### Running sums -/

/-- A decimal as rounding leaves it: the canonical one of a number that is kept. -/
def IsSum (k : Context) (z : Decimal) : Prop := ∃ q, k.Keeps q ∧ z.Represents q

theorem isSum_zero : IsSum k 0 := ⟨0, Context.keeps_zero, represents_zero⟩

namespace IsSum

variable {s t x s' : Decimal}

theorem isFinite (h : IsSum k s) : s.isFinite = true := h.choose_spec.2.isFinite

theorem keeps (h : IsSum k s) : k.Keeps s.value := by
  obtain ⟨q, hq, represents⟩ := h
  rwa [represents.value_eq]

theorem nonneg (h : IsSum k s) : 0 ≤ s.value := h.keeps.nonneg

theorem unique (hs : IsSum k s) (ht : IsSum k t) (h : s.value = t.value) : s = t := by
  obtain ⟨q, _, hq⟩ := hs
  obtain ⟨q', _, hq'⟩ := ht
  rw [hq.value_eq, hq'.value_eq] at h
  exact hq.unique (h ▸ hq')

variable (hk : 0 < k.digits) (hx : x.isFinite = true) (hx0 : 0 ≤ x.value)

include hk hx hx0

theorem add (hs : IsSum k s) :
    (∃ z, Decimal.add k s x = .ok z ∧ IsSum k z) ∨ Decimal.add k s x = .error .overflow := by
  obtain ⟨r, nearest, yields⟩ := add_nearest hk hs.isFinite hx hs.nonneg hx0
  cases h : Decimal.add k s x with
  | ok z =>
      rw [h] at yields
      exact Or.inl ⟨z, rfl, r, nearest.keeps, yields.1⟩
  | error f =>
      rw [h] at yields
      exact Or.inr (congrArg Except.error yields.1)

theorem nearest_add (hs : IsSum k s) (h : Decimal.add k s x = .ok s') :
    k.Nearest (s.value + x.value) s'.value ∧ s'.value < 10 ^ (k.maxExponent + 1) := by
  obtain ⟨r, nearest, yields⟩ := add_nearest hk hs.isFinite hx hs.nonneg hx0
  rw [h] at yields
  rw [yields.1.value_eq]
  exact ⟨nearest, yields.2⟩

/-- **Adding to a sum gives no less**: `s ≤ s + x` for amounts of at least zero. -/
theorem le_add (hs : IsSum k s) (h : Decimal.add k s x = .ok s') : s.value ≤ s'.value := by
  obtain ⟨nearest, _⟩ := hs.nearest_add hk hx hx0 h
  rcases hx0.lt_or_eq with positive | zero
  · exact hs.keeps.nearest.mono nearest (by linarith)
  · have same := nearest.le _ hs.keeps
    rw [← zero, add_zero, sub_self, abs_zero, abs_nonpos_iff, sub_eq_zero] at same
    exact same.le

/-- **`t ≤ s` implies `t + x ≤ s + x`**, and the lower sum overflows no sooner. -/
theorem add_le_add (hs : IsSum k s) (ht : IsSum k t) (hle : t.value ≤ s.value)
    (h : Decimal.add k s x = .ok s') :
    ∃ t', Decimal.add k t x = .ok t' ∧ IsSum k t' ∧ t'.value ≤ s'.value := by
  obtain ⟨nearest, bound⟩ := hs.nearest_add hk hx hx0 h
  rcases hle.lt_or_eq with hlt | heq
  · obtain ⟨r, nearest', yields⟩ := add_nearest hk ht.isFinite hx ht.nonneg hx0
    have smaller := nearest'.mono nearest (by linarith)
    cases h' : Decimal.add k t x with
    | ok t' =>
        rw [h'] at yields
        exact ⟨t', rfl, ⟨r, nearest'.keeps, yields.1⟩, yields.1.value_eq ▸ smaller⟩
    | error f =>
        rw [h'] at yields
        linarith [yields.2]
  · obtain rfl := ht.unique hs heq
    rcases ht.add hk hx hx0 with ⟨z, hz, hsum⟩ | overflows
    · obtain rfl : z = s' := Except.ok.inj (hz.symm.trans h)
      exact ⟨z, hz, hsum, le_rfl⟩
    · cases overflows.symm.trans h

end IsSum

end Decimal

end QuotaWarden
