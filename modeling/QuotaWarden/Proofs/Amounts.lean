import QuotaWarden.Quantity

/-! # Amounts of moderate size

Arithmetic on amounts stops when a result leaves the range of exponents, and the text of an integer
has at most `digitLimit` digits. Neither happens to amounts of moderate size.

* `Decimal.Below` and `Decimal.UpTo` bound an amount by a power of ten; `Decimal.Summed` says
  moreover that its coefficient has the length of a rounded result.
* `Decimal.add_ok`: however many amounts of moderate size are added up, the sum stays within range.
* `Decimal.Writable` are amounts whose text is not too long: `Quantity.writeCpu_ok`,
  `Quantity.writeMemory_ok`. A rounded amount below `10 ^ digitLimit` is one
  (`Decimal.Rounded.writable`). -/

namespace QuotaWarden

open Number

/-! ### Digits -/

namespace Number

theorem digitCount_mul_tenTo_le (n k : Nat) : digitCount (n * tenTo k) ≤ digitCount n + k := by
  refine digitCount_le_of_lt_pow (by have := digitCount_pos n; omega) ?_
  rw [tenTo_add]
  exact Nat.mul_lt_mul_of_pos_right (lt_pow_digitCount n) (tenTo_pos k)

theorem digitCount_le_of_le {m n : Nat} (h : m ≤ n) : digitCount m ≤ digitCount n :=
  digitCount_le_of_lt_pow (digitCount_pos n) (Nat.lt_of_le_of_lt h (lt_pow_digitCount n))

theorem natAbs_signed (negative : Bool) (n : Nat) : (signed negative n).natAbs = n := by
  cases negative <;> simp [signed]

theorem writeInteger?_ok {n : Int} (h : digitCount n.natAbs ≤ digitLimit) :
    ∃ s, writeInteger? n = some s := ⟨_, if_pos h⟩

end Number

/-- `halfEven` carries at most to the next power of ten. -/
theorem halfEven_le (n drop : Nat) : halfEven n drop ≤ tenTo (digitCount n - drop) := by
  unfold halfEven
  split
  · exact Nat.zero_le _
  · next h =>
      have hq : n / tenTo drop < tenTo (digitCount n - drop) := by
        rw [Nat.div_lt_iff_lt_mul (tenTo_pos drop), ← tenTo_add, Nat.sub_add_cancel (by omega)]
        exact lt_pow_digitCount n
      dsimp only
      split
      · omega
      · split
        · omega
        · have := Nat.mod_lt (n / tenTo drop) (y := 2) (by decide)
          omega

namespace Decimal

/-! ### Bounds -/

/-- A coefficient times a power of ten is less than `10 ^ k` in magnitude. -/
def Fits (k c e : Int) : Prop := c = 0 ∨ e + digitCount c.natAbs ≤ k

/-- An amount is finite and less than `10 ^ k` in magnitude. -/
def Below (k : Int) : Decimal → Prop
  | finite c e => Fits k c e
  | _ => False

instance (k : Int) (x : Decimal) : Decidable (x.Below k) :=
  match x with
  | finite c e => inferInstanceAs (Decidable (c = 0 ∨ e + digitCount c.natAbs ≤ k))
  | infinite _ => .isFalse id
  | quietNaN => .isFalse id
  | signalingNaN => .isFalse id

/-- A coefficient times a power of ten is at most `10 ^ k` in magnitude. -/
def FitsUpTo (k c e : Int) : Prop := c = 0 ∨ e ≤ k ∧ c.natAbs ≤ tenTo (k - e).toNat

/-- An amount is finite and at most `10 ^ k` in magnitude. -/
def UpTo (k : Int) : Decimal → Prop
  | finite c e => FitsUpTo k c e
  | _ => False

/-- An amount is finite, and its coefficient is not longer than rounding leaves it. -/
def Rounded : Decimal → Prop
  | finite c _ => c.natAbs ≤ tenTo Context.working.digits
  | _ => False

/-- A sum as rounding leaves it, of at most `10 ^ k` in magnitude. -/
structure Summed (k : Int) (x : Decimal) : Prop where
  rounded : x.Rounded
  upTo : x.UpTo k

theorem summed_zero (k : Int) : (0 : Decimal).Summed k := ⟨Nat.zero_le _, Or.inl rfl⟩

theorem Fits.mono {j k c e : Int} (h : Fits j c e) (hjk : j ≤ k) : Fits k c e :=
  h.imp id fun h => Int.le_trans h hjk

theorem fits_of_lt {k c e : Int} {j : Nat} (h : c.natAbs < tenTo j) (hj : e + j ≤ k) :
    Fits k c e := by
  by_cases hc : c = 0
  · exact Or.inl hc
  · rcases Nat.eq_zero_or_pos j with rfl | hpos
    · rw [tenTo_zero] at h
      omega
    · have := digitCount_le_of_lt_pow hpos h
      exact Or.inr (by omega)

theorem Fits.scaled_lt {k c e g : Int} (h : Fits k c e) (hg : g ≤ e) :
    c.natAbs * tenTo (e - g).toNat < tenTo (k - g).toNat := by
  rcases h with rfl | h
  · rw [Int.natAbs_zero, Nat.zero_mul]
    exact tenTo_pos _
  · calc c.natAbs * tenTo (e - g).toNat
        < tenTo (digitCount c.natAbs) * tenTo (e - g).toNat :=
          Nat.mul_lt_mul_of_pos_right (lt_pow_digitCount _) (tenTo_pos _)
      _ = tenTo (digitCount c.natAbs + (e - g).toNat) := (tenTo_add _ _).symm
      _ ≤ tenTo (k - g).toNat := tenTo_le_iff.mpr (by omega)

theorem FitsUpTo.fits {k c e : Int} (h : FitsUpTo k c e) : Fits (k + 1) c e := by
  rcases h with h | ⟨he, hc⟩
  · exact Or.inl h
  · exact fits_of_lt (Nat.lt_of_le_of_lt hc (tenTo_lt_iff.mpr (Nat.lt_succ_self _))) (by omega)

theorem FitsUpTo.scaled_le {k c e g : Int} (h : FitsUpTo k c e) (hg : g ≤ e) :
    c.natAbs * tenTo (e - g).toNat ≤ tenTo (k - g).toNat := by
  rcases h with rfl | ⟨he, hc⟩
  · rw [Int.natAbs_zero, Nat.zero_mul]
    exact Nat.zero_le _
  · calc c.natAbs * tenTo (e - g).toNat
        ≤ tenTo (k - e).toNat * tenTo (e - g).toNat := Nat.mul_le_mul_right _ hc
      _ = tenTo ((k - e).toNat + (e - g).toNat) := (tenTo_add _ _).symm
      _ = tenTo (k - g).toNat := by rw [show (k - e).toNat + (e - g).toNat = (k - g).toNat by omega]

theorem Below.mono {j k : Int} {x : Decimal} (h : x.Below j) (hjk : j ≤ k) : x.Below k := by
  cases x with
  | finite c e => exact Fits.mono h hjk
  | _ => exact absurd h id

theorem UpTo.below {k : Int} {x : Decimal} (h : x.UpTo k) : x.Below (k + 1) := by
  cases x with
  | finite c e => exact FitsUpTo.fits h
  | _ => exact absurd h id

/-! ### Rounding -/

theorem stripZeros_spec (n : Nat) (e : Int) :
    (stripZeros n e).1 ≤ n ∧ e ≤ (stripZeros n e).2 := by
  fun_induction stripZeros n e with
  | case1 n e hn ih =>
      obtain ⟨hle, hexp⟩ := ih
      exact ⟨by omega, by omega⟩
  | case2 n e hn => exact ⟨Nat.le_refl n, Int.le_refl e⟩

theorem stripZeros_upTo {k : Int} (n : Nat) (e : Int) (he : e ≤ k) (h : n ≤ tenTo (k - e).toNat) :
    (stripZeros n e).2 ≤ k ∧ (stripZeros n e).1 ≤ tenTo (k - (stripZeros n e).2).toNat := by
  fun_induction stripZeros n e with
  | case1 n e hn ih =>
      have hlt : e < k := by
        refine Int.lt_iff_le_and_ne.mpr ⟨he, fun heq => ?_⟩
        rw [heq, Int.sub_self, Int.toNat_zero, tenTo_zero] at h
        omega
      refine ih hlt ?_
      rw [show (k - e).toNat = (k - (e + 1)).toNat + 1 by omega, tenTo_succ] at h
      omega
  | case2 n e hn => exact ⟨he, h⟩

theorem ofParts_spec (c e : Int) :
    ∃ d f, ofParts c e = finite d f ∧ d.natAbs ≤ c.natAbs ∧ (d = 0 ∨ e ≤ f) ∧
      ∀ k, FitsUpTo k c e → FitsUpTo k d f := by
  unfold ofParts
  split
  · next hc =>
      exact ⟨0, 0, rfl, Nat.zero_le _, Or.inl rfl, fun _ _ => Or.inl rfl⟩
  · next hc =>
      obtain ⟨hle, hexp⟩ := stripZeros_spec c.natAbs e
      refine ⟨_, _, rfl, by rwa [natAbs_signed], Or.inr hexp, ?_⟩
      intro k hk
      obtain ⟨he, hn⟩ := hk.resolve_left hc
      refine Or.inr ?_
      rw [natAbs_signed]
      exact stripZeros_upTo c.natAbs e he hn

/-- What rounding makes of a number, if it does not get too large: no more digits than are kept, and
the last one, where it is not zero, no lower than they allow. -/
def RoundsUpTo (k c e : Int) : Prop :=
  ∃ d f, Context.working.round c e = .ok (finite d f) ∧ d.natAbs ≤ tenTo Context.working.digits ∧
    FitsUpTo k d f ∧ (d = 0 ∨ e + digitCount c.natAbs ≤ f + Context.working.digits)

theorem roundsUpTo_of_halfEven {k c e : Int} (hk : k ≤ Context.working.maxExponent)
    (hq : FitsUpTo k (halfEven c.natAbs (Context.working.excess c.natAbs e))
      (e + Context.working.excess c.natAbs e)) : RoundsUpTo k c e := by
  have hdrop : digitCount c.natAbs - Context.working.excess c.natAbs e ≤
      Context.working.digits := by
    unfold Context.excess
    omega
  have hle := halfEven_le c.natAbs (Context.working.excess c.natAbs e)
  have hfits := hq.fits
  unfold RoundsUpTo Context.round
  split
  · exact ⟨0, 0, rfl, Nat.zero_le _, Or.inl rfl, Or.inl rfl⟩
  · next hc =>
      dsimp only
      split
      · exact ⟨0, 0, rfl, Nat.zero_le _, Or.inl rfl, Or.inl rfl⟩
      · next hzero =>
          split
          · next hover =>
              have := hfits.resolve_left (by omega)
              rw [adjusted] at hover
              omega
          · obtain ⟨d, f, e', hd, hexp, hf⟩ := ofParts_spec
              (signed (decide (c < 0)) (halfEven c.natAbs (Context.working.excess c.natAbs e)))
              (e + Context.working.excess c.natAbs e)
            rw [natAbs_signed] at hd
            refine ⟨d, f, by rw [e'], ?_, hf k ?_, hexp.imp id fun hexp => by omega⟩
            · exact Nat.le_trans hd (Nat.le_trans hle (tenTo_le_iff.mpr hdrop))
            · refine hq.imp (fun h => absurd h (by omega)) fun h => ?_
              rw [natAbs_signed]
              exact h

theorem Fits.rounds {k c e : Int} (h : Fits k c e) (hk : k ≤ Context.working.maxExponent) :
    RoundsUpTo k c e := by
  refine roundsUpTo_of_halfEven hk ?_
  rcases h with rfl | h
  · exact Or.inl (by simp [halfEven, digitCount])
  · by_cases hkeep : digitCount c.natAbs < Context.working.excess c.natAbs e
    · exact Or.inl (by simp [halfEven, hkeep])
    · refine Or.inr ⟨by omega, ?_⟩
      rw [Int.natAbs_natCast]
      exact Nat.le_trans (halfEven_le _ _) (tenTo_le_iff.mpr (by omega))

theorem digitCount_tenTo_add {j t : Nat} (h : t < tenTo j) : digitCount (tenTo j + t) = j + 1 := by
  have hle := digitCount_le_of_lt_pow (n := tenTo j + t) (Nat.succ_pos j) (by
    rw [tenTo_succ]
    omega)
  have hlt := lt_pow_digitCount (tenTo j + t)
  have := tenTo_lt_iff.mp (Nat.lt_of_le_of_lt (Nat.le_add_right (tenTo j) t) hlt)
  omega

theorem halfEven_tenTo_add {j t drop : Nat} (hdrop : drop ≤ j) (ht : 2 * t < tenTo drop) :
    halfEven (tenTo j + t) drop = tenTo (j - drop) := by
  have hpos := tenTo_pos drop
  have hpow : tenTo j = tenTo drop * tenTo (j - drop) := by
    rw [← tenTo_add, Nat.add_sub_cancel' hdrop]
  have hcount := digitCount_tenTo_add (Nat.lt_of_lt_of_le (by omega : t < tenTo drop)
    (tenTo_le_iff.mpr hdrop))
  have hdiv : (tenTo j + t) / tenTo drop = tenTo (j - drop) := by
    rw [hpow, Nat.mul_add_div hpos, Nat.div_eq_of_lt (by omega), Nat.add_zero]
  have hmod : (tenTo j + t) % tenTo drop = t := by
    rw [hpow, Nat.mul_add_mod, Nat.mod_eq_of_lt (by omega)]
  unfold halfEven
  rw [if_neg (by omega)]
  dsimp only
  rw [hdiv, hmod, if_pos ht]

/-- A number less than half a unit above `10 ^ (k + digits)` is rounded to that power. -/
theorem rounds_of_near {k c e : Int} (hk : 0 ≤ k)
    (hmax : k + Context.working.digits ≤ Context.working.maxExponent)
    (he : e ≤ k + Context.working.digits)
    {t : Nat} (hc : c.natAbs = tenTo (k + Context.working.digits - e).toNat + t)
    (ht : t = 0 ∨ e ≤ k ∧ t < tenTo (k - e).toNat) :
    RoundsUpTo (k + Context.working.digits) c e := by
  have hdigits : (Context.working.digits : Int) = 28 := rfl
  have hleast : Context.working.leastExponent < 0 := by decide
  have hlt : t < tenTo (k + Context.working.digits - e).toNat := by
    rcases ht with rfl | ⟨_, ht⟩
    · exact tenTo_pos _
    · exact Nat.lt_of_lt_of_le ht (tenTo_le_iff.mpr (by omega))
  have hexcess : Context.working.excess c.natAbs e = (k + 1 - e).toNat := by
    unfold Context.excess
    rw [hc, digitCount_tenTo_add hlt]
    omega
  refine roundsUpTo_of_halfEven hmax (Or.inr ?_)
  rw [hexcess, hc, halfEven_tenTo_add (by omega), Int.natAbs_natCast]
  · refine ⟨by omega, tenTo_le_iff.mpr (by omega)⟩
  · rcases ht with rfl | ⟨he', ht⟩
    · exact tenTo_pos _
    · rw [show (k + 1 - e).toNat = (k - e).toNat + 1 by omega, tenTo_succ]
      omega

theorem FitsUpTo.rounds {k c e : Int} (h : FitsUpTo (k + Context.working.digits) c e) (hk : 0 ≤ k)
    (hmax : k + Context.working.digits ≤ Context.working.maxExponent) :
    RoundsUpTo (k + Context.working.digits) c e := by
  rcases h with h | ⟨he, hc⟩
  · exact Fits.rounds (Or.inl h) hmax
  · rcases Nat.lt_or_eq_of_le hc with hc | hc
    · exact (fits_of_lt hc (by omega)).rounds hmax
    · exact rounds_of_near hk hmax he hc (Or.inl rfl)

/-! ### Sums -/

theorem exactSum_natAbs_le (c e d f : Int) :
    (exactSum c e d f).1.natAbs ≤
      c.natAbs * tenTo (e - min e f).toNat + d.natAbs * tenTo (f - min e f).toNat := by
  have hadd := Int.natAbs_add_le (c * (tenTo (e - min e f).toNat : Int))
    (d * (tenTo (f - min e f).toNat : Int))
  rw [Int.natAbs_mul, Int.natAbs_mul, Int.natAbs_natCast, Int.natAbs_natCast] at hadd
  exact hadd

/-- `exactSum` gains at most one digit. -/
theorem exactSum_fits {k c e d f : Int} (hc : Fits k c e) (hd : Fits k d f) (hk : min e f ≤ k) :
    Fits (k + 1) (exactSum c e d f).1 (exactSum c e d f).2 := by
  have hx := hc.scaled_lt (g := min e f) (by omega)
  have hy := hd.scaled_lt (g := min e f) (by omega)
  have hadd := exactSum_natAbs_le c e d f
  refine fits_of_lt (j := (k - min e f).toNat + 1) ?_ ?_
  · rw [tenTo_succ]
    omega
  · change min e f + _ ≤ k + 1
    omega

theorem sticky_fits {k c e d : Int} (h : Fits (k + Context.working.digits + 1) c e) (hn : c ≠ 0) :
    Fits k (sticky .working c e d).1 (sticky .working c e d).2 := by
  have hce := h.resolve_left hn
  refine fits_of_lt (j := 1) ?_ ?_
  · change (Int.sign d).natAbs < tenTo 1
    rcases Int.sign_trichotomy d with h | h | h <;> rw [h] <;> decide
  · change stickyPlace .working c e - 1 + 1 ≤ k
    unfold stickyPlace adjusted
    omega

theorem orderedSum_fits {k c e d f : Int} (hc : Fits k c e) (hd : Fits k d f) (hn : c ≠ 0) :
    Fits (k + 1) (orderedSum .working c e d f).1 (orderedSum .working c e d f).2 := by
  have hce := hc.resolve_left hn
  have hpos := digitCount_pos c.natAbs
  unfold orderedSum
  split
  · exact exactSum_fits hc (sticky_fits (hc.mono (by omega)) hn) (by omega)
  · exact exactSum_fits hc hd (by omega)

/-- A summand that `Fits k` does not take a number up to `10 ^ (k + digits)` beyond it. -/
theorem exactSum_rounds {k c e d f : Int} (hc : FitsUpTo (k + Context.working.digits) c e)
    (hd : Fits k d f) (hf : f ≤ k) (hk : 0 ≤ k)
    (hmax : k + Context.working.digits ≤ Context.working.maxExponent) :
    RoundsUpTo (k + Context.working.digits) (exactSum c e d f).1 (exactSum c e d f).2 := by
  have hx := hc.scaled_le (g := min e f) (by omega)
  have hy := hd.scaled_lt (g := min e f) (by omega)
  have hadd := exactSum_natAbs_le c e d f
  rcases Nat.lt_or_ge (exactSum c e d f).1.natAbs
    (tenTo (k + Context.working.digits - min e f).toNat) with hlt | hge
  · refine Fits.rounds (fits_of_lt hlt ?_) hmax
    change min e f + _ ≤ _
    omega
  · obtain ⟨t, ht⟩ := Nat.exists_eq_add_of_le hge
    refine rounds_of_near hk hmax ?_ ht (Or.inr ⟨?_, ?_⟩)
    · change min e f ≤ _
      omega
    · change min e f ≤ _
      omega
    · change t < tenTo (k - min e f).toNat
      omega

theorem orderedSum_rounds {k c e d f : Int} (hc : FitsUpTo (k + Context.working.digits) c e)
    (hd : Fits k d f) (hcn : c ≠ 0) (hdn : d ≠ 0) (hk : 0 ≤ k)
    (hmax : k + Context.working.digits ≤ Context.working.maxExponent) :
    RoundsUpTo (k + Context.working.digits) (orderedSum .working c e d f).1
      (orderedSum .working c e d f).2 := by
  have hunit : Fits k (sticky .working c e d).1 (sticky .working c e d).2 :=
    sticky_fits hc.fits hcn
  unfold orderedSum
  split
  · refine exactSum_rounds hc hunit ?_ hk hmax
    have hce := hc.fits.resolve_left hcn
    change stickyPlace .working c e - 1 ≤ k
    unfold stickyPlace adjusted
    omega
  · exact exactSum_rounds hc hd (by have := hd.resolve_left hdn; omega) hk hmax

/-- **Sums stay within range**: amounts below `10 ^ k` never take a sum past `10 ^ (k + digits)`,
from where on rounding no longer sees them. -/
theorem add_ok {k : Int} {x y : Decimal} (hx : x.UpTo (k + Context.working.digits))
    (hy : y.Below k) (hk : 0 ≤ k)
    (hmax : k + Context.working.digits ≤ Context.working.maxExponent) :
    ∃ z, add .working x y = .ok z ∧ z.Summed (k + Context.working.digits) := by
  have summed : ∀ {c e : Int}, RoundsUpTo (k + Context.working.digits) c e →
      ∃ z, Context.working.round c e = .ok z ∧ z.Summed (k + Context.working.digits) := by
    rintro c e ⟨d, f, e', hd, hfits, _⟩
    exact ⟨finite d f, e', hd, hfits⟩
  have hdigits : (Context.working.digits : Int) = 28 := rfl
  cases x with
  | finite c e =>
      cases y with
      | finite d f =>
          change ∃ z, addFinite .working c e d f = .ok z ∧ _
          have hfits : Fits k d f := hy
          unfold addFinite
          split
          · exact summed ((hfits.mono (by omega)).rounds hmax)
          · next hc =>
              split
              · exact summed (FitsUpTo.rounds hx hk hmax)
              · next hd =>
                  dsimp only
                  split
                  · exact summed (orderedSum_rounds hx hfits hc hd hk hmax)
                  · next hplace =>
                      have hsmall : Fits k c e := Or.inr (by
                        have := hfits.resolve_left hd
                        unfold adjusted at hplace
                        omega)
                      have hsum := orderedSum_fits hfits hsmall hd
                      exact summed ((hsum.mono (by omega)).rounds hmax)
      | _ => exact absurd hy id
  | _ => exact absurd hx id

theorem lt_ok {x y : Decimal} (hx : x.isFinite = true) (hy : y.isFinite = true) :
    ∃ b, lt x y = .ok b := by
  cases x with
  | finite c e =>
      cases y with
      | finite d f => exact ⟨_, rfl⟩
      | _ => exact absurd hy Bool.false_ne_true
  | _ => exact absurd hx Bool.false_ne_true

/-! ### Texts -/

/-- The text of an amount is not too long: a whole amount has at most `digitLimit` digits; another
one has four digits less, as it is written in thousandths and rounding may carry. -/
def Writable : Decimal → Prop
  | finite c e => isWhole c e = true ∧ Fits digitLimit c e ∨ Fits (digitLimit - 4) c e
  | _ => False

theorem of_not_isWhole {c e : Int} (h : ¬ isWhole c e = true) : c ≠ 0 ∧ e < 0 := by
  constructor
  · rintro rfl
    exact h (by simp [isWhole])
  · refine Int.not_le.mp fun he => h ?_
    simp [isWhole, he]

theorem dvd_of_isWhole {c e : Int} (h : isWhole c e = true) (he : e < 0) :
    (tenTo (-e).toNat : Int) ∣ c := by
  unfold isWhole at h
  simp only [Bool.or_eq_true, Bool.and_eq_true, decide_eq_true_eq] at h
  rcases h with (rfl | h) | ⟨_, h⟩
  · exact Int.dvd_zero _
  · omega
  · exact Int.dvd_of_emod_eq_zero h

/-- A rounded amount below `10 ^ digitLimit` is `Writable`. -/
theorem Rounded.writable {x : Decimal} (h : x.Rounded) (hb : x.Below digitLimit) :
    x.Writable := by
  cases x with
  | finite c e =>
      by_cases hw : isWhole c e = true
      · exact Or.inl ⟨hw, hb⟩
      · obtain ⟨_, he⟩ := of_not_isWhole hw
        have hlt : c.natAbs < tenTo (Context.working.digits + 1) :=
          Nat.lt_of_le_of_lt h (tenTo_lt_iff.mpr (Nat.lt_succ_self _))
        refine Or.inr (fits_of_lt hlt ?_)
        have : (Context.working.digits : Int) = 28 := rfl
        have : (digitLimit : Int) = 4300 := rfl
        omega
  | _ => exact absurd h id

theorem quotient_lt {c : Int} {i j : Nat} (hd : (tenTo i : Int) ∣ c)
    (h : c.natAbs < tenTo (j + i)) : (c / tenTo i).natAbs < tenTo j := by
  rw [Int.natAbs_ediv_of_dvd hd, Int.natAbs_natCast, Nat.div_lt_iff_lt_mul (tenTo_pos i),
    ← tenTo_add]
  exact h

theorem wholeValue?_ok {c e : Int} (hw : isWhole c e = true) (h : Fits digitLimit c e) :
    ∃ n, wholeValue? c e = some n ∧ digitCount n.natAbs ≤ digitLimit := by
  unfold wholeValue?
  split
  · exact ⟨0, rfl, digitCount_le_of_lt_pow (by decide) (tenTo_pos _)⟩
  · next hc =>
      have hfit := h.resolve_left hc
      split
      · next he =>
          refine ⟨_, rfl, digitCount_le_of_lt_pow (by decide) (quotient_lt ?_ ?_)⟩
          · exact dvd_of_isWhole hw he
          · exact Nat.lt_of_lt_of_le (lt_pow_digitCount _) (tenTo_le_iff.mpr (by omega))
      · next he =>
          rw [if_pos (by omega)]
          refine ⟨_, rfl, ?_⟩
          rw [Int.natAbs_mul, Int.natAbs_natCast]
          have := digitCount_mul_tenTo_le c.natAbs e.toNat
          omega

/-- `ceiling` may carry to one digit more, unless `isWhole c e`. -/
theorem ceiling_spec {k c e : Int} (h : Fits k c e) (hk : 0 ≤ k) :
    0 ≤ (ceiling c e).2 ∧ Fits (k + 1) (ceiling c e).1 (ceiling c e).2 ∧
      (isWhole c e = true → Fits k (ceiling c e).1 (ceiling c e).2) := by
  unfold ceiling
  split
  · next he => exact ⟨he, h.mono (by omega), fun _ => h⟩
  · next he =>
      split
      · next hj =>
          refine ⟨Int.le_refl 0, ?_, ?_⟩
          · refine fits_of_lt (j := 1) ?_ (by omega)
            split <;> decide
          · intro hw
            by_cases hc : c = 0
            · exact Or.inl (by simp [hc])
            · simp only [isWhole, Bool.or_eq_true, Bool.and_eq_true, decide_eq_true_eq] at hw
              omega
      · next hj =>
          have hlt : c.natAbs < tenTo (digitCount c.natAbs - (-e).toNat + (-e).toNat) := by
            rw [Nat.sub_add_cancel (by omega)]
            exact lt_pow_digitCount _
          refine ⟨Int.le_refl 0, ?_, ?_⟩
          · rcases h with rfl | h
            · exact Or.inl (by simp)
            · refine fits_of_lt (j := digitCount c.natAbs - (-e).toNat + 1) ?_ (by omega)
              rw [tenTo_add, ← Nat.div_lt_iff_lt_mul (tenTo_pos _)] at hlt
              rw [Int.natAbs_neg, Int.natAbs_ediv, Int.natAbs_neg, Int.natAbs_natCast, tenTo_succ]
              have := tenTo_pos (digitCount c.natAbs - (-e).toNat)
              split <;> omega
          · intro hw
            rcases h with rfl | h
            · exact Or.inl (by simp)
            · refine fits_of_lt (j := digitCount c.natAbs - (-e).toNat) ?_ (by omega)
              have hd := dvd_of_isWhole hw (by omega)
              rw [Int.neg_ediv_of_dvd hd, Int.neg_neg]
              exact quotient_lt hd hlt

end Decimal

namespace Quantity

open Decimal

theorem writeWhole_ok {c e : Int} (hw : isWhole c e = true) (h : Fits digitLimit c e) :
    ∃ s, writeWhole c e = .ok s := by
  obtain ⟨n, hn, hdigits⟩ := wholeValue?_ok hw h
  obtain ⟨s, hs⟩ := writeInteger?_ok hdigits
  exact ⟨s, by simp [writeWhole, hn, hs]⟩

theorem isWhole_of_nonneg {c e : Int} (h : 0 ≤ e) : isWhole c e = true := by simp [isWhole, h]

theorem fits_mul_thousand {k c e : Int} (h : Fits k c e) : Fits (k + 3) (c * 1000) e := by
  rcases h with rfl | h
  · exact Or.inl rfl
  · refine Or.inr ?_
    have := digitCount_mul_tenTo_le c.natAbs 3
    rw [Int.natAbs_mul, show (1000 : Int).natAbs = tenTo 3 from rfl]
    omega

theorem writeCpu_ok {x : Decimal} (h : x.Writable) : ∃ s, writeCpu x = .ok s := by
  cases x with
  | finite c e =>
      rw [writeCpu]
      split
      · next hw =>
          exact writeWhole_ok hw (h.elim And.right fun h => h.mono (by decide))
      · next hw =>
          obtain ⟨hc, he⟩ := of_not_isWhole hw
          have hfit : Fits (digitLimit - 4) c e := h.resolve_left fun h => hw h.1
          obtain ⟨d, f, hmilli, _, hd, hplace⟩ := (fits_mul_thousand hfit).rounds (by decide)
          simp only [hmilli, liftSignal, bind, Except.bind]
          split
          · next hw' =>
              obtain ⟨s, hs⟩ := writeWhole_ok hw' hd.fits
              exact ⟨s ++ "m", by rw [hs]; rfl⟩
          · next hw' =>
              obtain ⟨hd0, hf⟩ := of_not_isWhole hw'
              have hsmall : Fits Context.working.digits (c * 1000) e :=
                Or.inr (by have := hplace.resolve_left hd0; omega)
              have hthousand := fits_mul_thousand hsmall
              rw [Int.mul_assoc, show (1000 : Int) * 1000 = 1000000 from rfl] at hthousand
              obtain ⟨d', f', hmicro, _, hd', _⟩ := hthousand.rounds (by decide)
              obtain ⟨hnonneg, hup, _⟩ := ceiling_spec hd'.fits (by decide)
              obtain ⟨s, hs⟩ := writeWhole_ok (isWhole_of_nonneg hnonneg) (hup.mono (by decide))
              exact ⟨s ++ "u", by simp only [hmicro, hs]; rfl⟩
  | _ => exact absurd h id

theorem writeBytes_ok {n : Int} (h : digitCount n.natAbs ≤ digitLimit) :
    ∃ s, writeBytes n = .ok s := by
  unfold writeBytes
  split
  · exact ⟨"0", rfl⟩
  · dsimp only
    obtain ⟨s, hs⟩ := writeInteger?_ok (Nat.le_trans
      (digitCount_le_of_le (Int.natAbs_ediv_le_natAbs n _)) h)
    rw [hs]
    exact ⟨_, rfl⟩

theorem isFinite_of_writeCpu {x : Decimal} {s : String} (h : writeCpu x = .ok s) :
    x.isFinite = true := by
  cases x with
  | finite c e => rfl
  | _ => exact nomatch h

theorem isFinite_of_writeMemory {x : Decimal} {s : String} (h : writeMemory x = .ok s) :
    x.isFinite = true := by
  cases x with
  | finite c e => rfl
  | _ => exact nomatch h

theorem writeMemory_ok {x : Decimal} (h : x.Writable) : ∃ s, writeMemory x = .ok s := by
  cases x with
  | finite c e =>
      have hup : 0 ≤ (ceiling c e).2 ∧ Fits digitLimit (ceiling c e).1 (ceiling c e).2 := by
        rcases h with ⟨hw, h⟩ | h
        · obtain ⟨hnonneg, _, hsame⟩ := ceiling_spec h (by decide)
          exact ⟨hnonneg, hsame hw⟩
        · obtain ⟨hnonneg, hup, _⟩ := ceiling_spec h (by decide)
          exact ⟨hnonneg, hup.mono (by decide)⟩
      obtain ⟨n, hn, hdigits⟩ := wholeValue?_ok (isWhole_of_nonneg hup.1) hup.2
      obtain ⟨s, hs⟩ := writeBytes_ok hdigits
      exact ⟨s, by simp only [writeMemory, hn, hs]⟩
  | _ => exact absurd h id

end Quantity

end QuotaWarden
