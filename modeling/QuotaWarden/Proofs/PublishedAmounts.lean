import QuotaWarden.Proofs.UnitTexts
import Mathlib.Order.Bounds.Basic
import Mathlib.Tactic.GCongr
import Mathlib.Tactic.Linarith

/-! # Published amounts are read back

The usage of a namespace is published as text. An amount of the digits of the arithmetic whose
integers are not too long is `Decimal.Presentable`: its text exists, and is read back.

* `Quantity.read_writeMemory`: as the whole number of bytes at or above the amount. `BytesText` says
  which unit is chosen.
* `Quantity.read_writeCpu`: as the least number of millionths that is not below the amount.
  `CpuText` says which of the three forms is chosen. -/

namespace QuotaWarden

open Number

/-- An amount that can be published: a finite decimal of the digits of the arithmetic, whose integer
part is not too long to be written. -/
structure Decimal.Presentable (x : Decimal) : Prop where
  finite : x.isFinite = true
  digits : HasDigits Context.working.digits x.value
  small : |x.value| < 10 ^ (digitLimit : Int)

/-! ### Integers of few digits -/

theorem digitCount_le_of_abs_lt {n : Int} {k : Nat} (hk : 0 < k) (h : |(n : ℚ)| < 10 ^ (k : Int)) :
    digitCount n.natAbs ≤ k := by
  rw [← tenTo_cast] at h
  have hlt : |n| < tenTo k := by exact_mod_cast h
  rw [Int.abs_eq_natAbs] at hlt
  exact digitCount_le_of_lt_pow hk (by exact_mod_cast hlt)

/-- `n * 10 ^ j` is held by `Context.working` if it has few digits and is moderate. -/
theorem Context.working_holds {n j : Int} (h : HasDigits Context.working.digits (n * 10 ^ j))
    (hj : -999999 ≤ j) (hhigh : |(n : ℚ) * 10 ^ j| < 10 ^ (2 * digitLimit : Int)) :
    Context.working.Holds (n * 10 ^ j) := by
  refine Context.holds_of_hasDigits h ?_ (hhigh.trans_le ?_)
  · by_cases hn : n = 0
    · exact Or.inl (scaled_eq_zero.mpr hn)
    · have hone : (1 : ℚ) ≤ n.natAbs := by exact_mod_cast Int.natAbs_pos.mpr hn
      refine Or.inr ?_
      rw [abs_scaled]
      calc (10 : ℚ) ^ (-999999 : Int) ≤ 10 ^ j := zpow_le_zpow_right₀ (by norm_num) hj
        _ = 1 * 10 ^ j := (one_mul _).symm
        _ ≤ n.natAbs * 10 ^ j := mul_le_mul_of_nonneg_right hone (ten_zpow_pos j).le
  · exact zpow_le_zpow_right₀ (by norm_num) (by decide)

namespace Quantity

theorem writeWhole_eq {c e n : Int} (hn : (c : ℚ) * 10 ^ e = n)
    (hlt : |(n : ℚ)| < 10 ^ (digitLimit : Int)) : writeWhole c e = .ok (toString n) := by
  unfold writeWhole
  rw [Decimal.wholeValue?_eq hn hlt]
  dsimp only
  rw [writeInteger?, if_pos (digitCount_le_of_abs_lt (by decide) hlt)]

/-! ### Units -/

theorem unitText_binary {c : Char} {p : Int} (h : unitPower? c = some p)
    (genuine : endsInFalseUnit ['i', c] = false) : UnitText (String.ofList [c, 'i']) ⟨true, p⟩ where
  split r := by
    rw [String.toList_ofList]
    change splitUnit ('i' :: c :: r) = _
    rw [splitUnit, h]
  genuine r := by
    rw [String.toList_ofList]
    exact genuine

theorem unitText_decimal {c : Char} {p : Int} (h : unitPower? c = some p) (hc : c ≠ 'i') :
    UnitText (String.ofList [c]) ⟨false, p⟩ where
  split r := by
    rw [String.toList_ofList]
    change splitUnit (c :: r) = _
    unfold splitUnit
    split
    · next heq => exact absurd (List.cons.inj heq).1 hc
    · next heq =>
        obtain ⟨rfl, rfl⟩ := List.cons.inj heq
        rw [h]
    · next heq => cases heq
  genuine r := by
    rw [String.toList_ofList]
    change endsInFalseUnit (c :: r) = _
    unfold endsInFalseUnit
    split
    · next heq => exact absurd (List.cons.inj heq).1 hc
    · rfl

/-! ### Bytes -/

/-- The binary units of memory and their sizes, from the largest. -/
def binaryUnits : List (String × Nat) :=
  [("Ei", 1024 ^ 6), ("Pi", 1024 ^ 5), ("Ti", 1024 ^ 4), ("Gi", 1024 ^ 3), ("Mi", 1024 ^ 2),
   ("Ki", 1024)]

/-- The decimal units of memory and their sizes, from the largest. -/
def decimalUnits : List (String × Nat) :=
  [("E", 1000 ^ 6), ("P", 1000 ^ 5), ("T", 1000 ^ 4), ("G", 1000 ^ 3), ("M", 1000 ^ 2), ("k", 1000)]

/-- None of some units divides a number. -/
def NoUnit (units : List (String × Nat)) (n : Int) : Prop := ∀ u ∈ units, ¬ (u.2 : Int) ∣ n

/-- The largest of some units that divide a number. -/
structure LargestUnit (units : List (String × Nat)) (n : Int) (u : String × Nat) : Prop where
  mem : u ∈ units
  divides : (u.2 : Int) ∣ n
  largest : ∀ v ∈ units, (v.2 : Int) ∣ n → v.2 ≤ u.2

/-- How a whole number of bytes is written. A binary unit is preferred to a decimal one. -/
inductive BytesText (n : Int) : String → Prop
  | zero (h : n = 0) : BytesText n "0"
  | binary {u : String × Nat} (h : n ≠ 0) (hu : LargestUnit binaryUnits n u) :
      BytesText n (toString (n / u.2) ++ u.1)
  | decimal {u : String × Nat} (h : n ≠ 0) (nobinary : NoUnit binaryUnits n)
      (hu : LargestUnit decimalUnits n u) : BytesText n (toString (n / u.2) ++ u.1)
  | plain (h : n ≠ 0) (nobinary : NoUnit binaryUnits n) (nodecimal : NoUnit decimalUnits n) :
      BytesText n (toString n)

theorem memoryUnits_eq : memoryUnits = binaryUnits ++ decimalUnits := by decide

/-- `find?` gives the largest unit that divides `n`, in a list from the largest on. -/
theorem largestUnit_of_find? {units : List (String × Nat)} {n : Int} {u : String × Nat}
    (sorted : units.Pairwise fun u v => v.2 < u.2)
    (h : units.find? (fun u => n % u.2 = 0) = some u) : LargestUnit units n u := by
  obtain ⟨hu, before, after, rfl, hbefore⟩ := List.find?_eq_some_iff_append.mp h
  refine ⟨by simp, Int.dvd_of_emod_eq_zero (by simpa using hu), fun v hv hdvd => ?_⟩
  have hmod := Int.emod_eq_zero_of_dvd hdvd
  rcases List.mem_append.mp hv with hv | hv
  · exact absurd hmod (by simpa using hbefore v hv)
  · rcases List.mem_cons.mp hv with rfl | hv
    · exact Nat.le_refl _
    · exact (List.rel_of_pairwise_cons (List.pairwise_append.mp sorted).2.1 hv).le

theorem noUnit_of_find? {units : List (String × Nat)} {n : Int}
    (h : units.find? (fun u => n % u.2 = 0) = none) : NoUnit units n := fun u hu hdvd =>
  List.find?_eq_none.mp h u hu (by simpa using Int.emod_eq_zero_of_dvd hdvd)

theorem writeBytes_text {n : Int} (h : digitCount n.natAbs ≤ digitLimit) :
    ∃ s, writeBytes n = .ok s ∧ BytesText n s := by
  have written : ∀ size : Nat, writeInteger? (n / size) = some (toString (n / size)) := fun size =>
    if_pos ((digitCount_le_of_le (Int.natAbs_ediv_le_natAbs n size)).trans h)
  unfold writeBytes
  split
  · next h0 => exact ⟨"0", rfl, .zero h0⟩
  next h0 =>
  rw [memoryUnits_eq, List.find?_append]
  dsimp only
  rw [written]
  refine ⟨_, rfl, ?_⟩
  cases hb : binaryUnits.find? (fun u => n % u.2 = 0) with
  | some u => exact .binary h0 (largestUnit_of_find? (by decide) hb)
  | none =>
      have nobinary := noUnit_of_find? hb
      cases hd : decimalUnits.find? (fun u => n % u.2 = 0) with
      | some u => exact .decimal h0 nobinary (largestUnit_of_find? (by decide) hd)
      | none => simpa using BytesText.plain h0 nobinary (noUnit_of_find? hd)

theorem memoryUnit_text :
    ∀ u ∈ binaryUnits ++ decimalUnits, ∃ unit, UnitText u.1 unit ∧ unit.factor.value = u.2 := by
  have size : ∀ {text : String} {unit : UnitScale} {n : Nat}, UnitText text unit →
      (if unit.binary then (1024 : ℚ) ^ unit.power.toNat else 10 ^ (3 * unit.power)) = n →
      ∃ unit, UnitText text unit ∧ unit.factor.value = n := fun hu hn =>
    ⟨_, hu, (UnitScale.factor_represents _).value_eq.trans hn⟩
  have binary : ∀ {c : Char} (p : Nat), unitPower? c = some (p : Int) →
      endsInFalseUnit ['i', c] = false →
      ∃ unit, UnitText (String.ofList [c, 'i']) unit ∧ unit.factor.value = (1024 ^ p : Nat) := by
    intro c p h genuine
    exact size (unitText_binary h genuine) (by simp)
  have decimal : ∀ {c : Char} (p : Nat), unitPower? c = some (p : Int) → c ≠ 'i' →
      ∃ unit, UnitText (String.ofList [c]) unit ∧ unit.factor.value = (1000 ^ p : Nat) := by
    intro c p h hc
    refine size (unitText_decimal h hc) ?_
    rw [if_neg Bool.false_ne_true, zpow_mul, zpow_natCast]
    push_cast
    norm_num
  unfold binaryUnits decimalUnits
  simp only [List.cons_append, List.nil_append, List.forall_mem_cons]
  exact ⟨binary 6 rfl rfl, binary 5 rfl rfl, binary 4 rfl rfl, binary 3 rfl rfl, binary 2 rfl rfl,
    binary 1 rfl rfl, decimal 6 rfl (by decide), decimal 5 rfl (by decide),
    decimal 4 rfl (by decide), decimal 3 rfl (by decide), decimal 2 rfl (by decide),
    decimal 1 rfl (by decide), fun _ h => absurd h List.not_mem_nil⟩

/-- `read` inverts `BytesText` where 28 digits can count `n`. -/
theorem read_bytesText {n : Int} {s : String} (hs : BytesText n s)
    (digits : HasDigits Context.working.digits n) (small : |(n : ℚ)| < 10 ^ (digitLimit : Int)) :
    ∃ y, read s = .ok y ∧ y.Represents n := by
  have count := digitCount_le_of_abs_lt (by decide) small
  have held : Context.working.Holds n := by
    have hlarge : (10 : ℚ) ^ (digitLimit : Int) ≤ 10 ^ (2 * digitLimit : Int) :=
      zpow_le_zpow_right₀ (by norm_num) (by decide)
    have := Context.working_holds (n := n) (j := 0) (by simpa using digits) (by decide)
      (by simpa using small.trans_le hlarge)
    simpa using this
  have unit : ∀ {u : String × Nat}, u ∈ binaryUnits ++ decimalUnits → (u.2 : Int) ∣ n →
      ∃ y, read (toString (n / u.2) ++ u.1) = .ok y ∧ y.Represents n := by
    intro u hu hdvd
    obtain ⟨scale, htext, hvalue⟩ := memoryUnit_text u hu
    have whole : ((n / u.2 : Int) : ℚ) * scale.factor.value = n := by
      rw [hvalue]
      exact_mod_cast Int.ediv_mul_cancel hdvd
    rw [← whole] at held ⊢
    have quotient := (digitCount_le_of_le (Int.natAbs_ediv_le_natAbs n u.2)).trans count
    exact read_withUnit quotient htext held
  have plain : ∃ y, read (toString n) = .ok y ∧ y.Represents n :=
    ⟨_, read_integer count, n, 0, rfl, by simp⟩
  cases hs with
  | zero h =>
      subst h
      exact plain
  | binary _ hu => exact unit (List.mem_append_left _ hu.mem) hu.divides
  | decimal _ _ hu => exact unit (List.mem_append_right _ hu.mem) hu.divides
  | plain => exact plain

variable {x : Decimal}

/-- **Published bytes.** An amount of memory is written in the largest unit that divides it, and its
text is read back as the whole number of bytes at or above it. -/
theorem read_writeMemory (h : x.Presentable) :
    ∃ s y, writeMemory x = .ok s ∧ BytesText ⌈x.value⌉ s ∧ read s = .ok y ∧
      y.Represents ⌈x.value⌉ ∧ x.value ≤ y.value ∧
      ((∃ n : Int, x.value = n) → y.value = x.value) := by
  obtain ⟨c, e, rfl, hv⟩ := Decimal.eq_finite h.finite
  have digits := h.digits.ceil (by decide)
  have small := h.digits.abs_ceil_lt (by decide) h.small
  have hceil := Decimal.ceiling_value c e
  rw [hv] at hceil
  obtain ⟨s, hs, htext⟩ := writeBytes_text (digitCount_le_of_abs_lt (by decide) small)
  obtain ⟨y, hy, hrep⟩ := read_bytesText htext digits small
  refine ⟨s, y, ?_, htext, hy, hrep, ?_, ?_⟩
  · unfold writeMemory
    dsimp only
    rw [Decimal.wholeValue?_eq hceil small]
    exact hs
  · rw [hrep.value_eq]
    exact Int.le_ceil _
  · rintro ⟨n, hn⟩
    rw [hrep.value_eq, hn, Int.ceil_intCast]

/-- Half a byte below minus five mebibytes. -/
theorem read_writeMemory_negative :
    (Decimal.finite (-52428805) (-1)).Presentable ∧
      ∃ s y, writeMemory (.finite (-52428805) (-1)) = .ok s ∧
        BytesText ⌈(Decimal.finite (-52428805) (-1)).value⌉ s ∧ read s = .ok y ∧
        y.Represents ⌈(Decimal.finite (-52428805) (-1)).value⌉ ∧
        (Decimal.finite (-52428805) (-1)).value ≤ y.value ∧
        ((∃ n : Int, (Decimal.finite (-52428805) (-1)).value = n) →
          y.value = (Decimal.finite (-52428805) (-1)).value) := by
  have presentable : (Decimal.finite (-52428805) (-1)).Presentable :=
    ⟨rfl, ⟨-52428805, -1, by decide, rfl⟩, fits_iff.mp (Or.inr (by decide +kernel))⟩
  exact ⟨presentable, read_writeMemory presentable⟩

example : (writeMemory (.finite (-52428805) (-1))).toOption = some "-5Mi" := by decide +kernel

/-! ### Cores -/

/-- How cores are written: in whole cores; in thousandths, if these are whole; else in millionths,
rounded up. -/
inductive CpuText (q : ℚ) : String → Prop
  | whole {n : Int} (h : q = n) : CpuText q (toString n)
  | milli {n : Int} (hwhole : ¬ ∃ m : Int, q = m) (h : q = n / 1000) : CpuText q (toString n ++ "m")
  | micro (h : ¬ ∃ m : Int, q = m / 1000) : CpuText q (toString ⌈q * 1000000⌉ ++ "u")

theorem unitText_milli : UnitText "m" ⟨false, -1⟩ := unitText_decimal (c := 'm') rfl (by decide)

theorem unitText_micro : UnitText "u" ⟨false, -2⟩ := unitText_decimal (c := 'u') rfl (by decide)

theorem read_smallUnit {n p : Int} {text : String} (hu : UnitText text ⟨false, p⟩) (hp : p ≤ 0)
    (hlow : -333333 ≤ p) (digits : HasDigits Context.working.digits n)
    (small : |(n : ℚ)| < 10 ^ (digitLimit : Int)) :
    ∃ y, read (toString n ++ text) = .ok y ∧ y.Represents (n * 10 ^ (3 * p)) := by
  have factor : (UnitScale.factor ⟨false, p⟩).value = 10 ^ (3 * p) :=
    (UnitScale.factor_represents _).value_eq
  rw [← factor]
  refine read_withUnit (digitCount_le_of_abs_lt (by decide) small) hu ?_
  rw [factor]
  refine Context.working_holds (digits.shift _) (by omega) ?_
  have hone : (10 : ℚ) ^ (3 * p) ≤ 1 := zpow_le_one_of_nonpos₀ (by norm_num) (by omega)
  calc |(n : ℚ) * 10 ^ (3 * p)| = |(n : ℚ)| * 10 ^ (3 * p) := by
        rw [abs_mul, abs_of_pos (ten_zpow_pos _)]
    _ ≤ |(n : ℚ)| := mul_le_of_le_one_right (abs_nonneg _) hone
    _ < 10 ^ (digitLimit : Int) := small
    _ ≤ 10 ^ (2 * digitLimit : Int) := zpow_le_zpow_right₀ (by norm_num) (by decide)

end Quantity

/-- Cores that can be published: they are not so few that the arithmetic loses them. -/
structure Decimal.PresentableCores (x : Decimal) : Prop extends x.Presentable where
  notTiny : x.value = 0 ∨ 10 ^ (-999999 : Int) ≤ |x.value|

namespace Decimal

variable {x : Decimal}

theorem PresentableCores.round {c e : Int} (h : (finite c e).PresentableCores) {k : Nat}
    (hk : k ≤ digitLimit) :
    ∃ d f, Context.working.round (c * tenTo k) e = .ok (finite d f) ∧
      (d : ℚ) * 10 ^ f = (finite c e).value * 10 ^ (k : Int) := by
  have hpow := ten_zpow_pos (k : Int)
  have hone : (1 : ℚ) ≤ 10 ^ (k : Int) := one_le_zpow₀ (by norm_num) (by omega)
  have hscaled : ((c * tenTo k : Int) : ℚ) * 10 ^ e = (finite c e).value * 10 ^ (k : Int) := by
    rw [Int.cast_mul, Int.cast_natCast, tenTo_cast]
    exact mul_right_comm _ _ _
  have held : Context.working.Holds ((finite c e).value * 10 ^ (k : Int)) := by
    refine Context.holds_of_hasDigits (h.digits.shift k) ?_ ?_
    · refine h.notTiny.imp (fun h0 => by rw [h0, zero_mul]) fun hlow => hlow.trans ?_
      rw [abs_mul, abs_of_pos hpow]
      exact le_mul_of_one_le_right (abs_nonneg _) hone
    · have hlimit : (digitLimit : Int) + k ≤ Context.working.maxExponent + 1 := by
        have : (2 * digitLimit : Int) ≤ Context.working.maxExponent + 1 := by decide
        omega
      calc |(finite c e).value * 10 ^ (k : Int)| = |(finite c e).value| * 10 ^ (k : Int) := by
            rw [abs_mul, abs_of_pos hpow]
        _ < 10 ^ (digitLimit : Int) * 10 ^ (k : Int) := mul_lt_mul_of_pos_right h.small hpow
        _ = 10 ^ ((digitLimit : Int) + k) := (zpow_add₀ (by norm_num) _ _).symm
        _ ≤ 10 ^ (Context.working.maxExponent + 1) := zpow_le_zpow_right₀ (by norm_num) hlimit
  rw [← hscaled] at held
  obtain ⟨z, hz, hrep⟩ := Context.round_of_holds held
  obtain ⟨d, f, rfl, hv⟩ := hrep.finite
  exact ⟨d, f, hz, hv.trans hscaled⟩

theorem Presentable.small_units (h : x.Presentable) (hwhole : ¬ ∃ m : Int, x.value = m) {k : Nat}
    (hk : k + Context.working.digits ≤ digitLimit) :
    |x.value * 10 ^ (k : Int)| < 10 ^ (digitLimit : Int) := by
  have hpow := ten_zpow_pos (k : Int)
  calc |x.value * 10 ^ (k : Int)| = |x.value| * 10 ^ (k : Int) := by
        rw [abs_mul, abs_of_pos hpow]
    _ < 10 ^ (Context.working.digits : Int) * 10 ^ (k : Int) :=
        mul_lt_mul_of_pos_right (h.digits.lt_of_not_whole hwhole) hpow
    _ = 10 ^ ((Context.working.digits : Int) + k) := (zpow_add₀ (by norm_num) _ _).symm
    _ ≤ 10 ^ (digitLimit : Int) := zpow_le_zpow_right₀ (by norm_num) (by omega)

end Decimal

namespace Quantity

variable {x : Decimal}

/-- `writeCpu x` has one of the forms of `CpuText x.value`. -/
theorem writeCpu_text (h : x.PresentableCores) : ∃ s, writeCpu x = .ok s ∧ CpuText x.value s := by
  obtain ⟨c, e, rfl, hv⟩ := Decimal.eq_finite h.finite
  obtain ⟨c', e', hmilli, hmilliv⟩ := h.round (k := 3) (by decide)
  obtain ⟨c'', e'', hmicro, hmicrov⟩ := h.round (k := 6) (by decide)
  change Context.working.round (c * 1000) e = _ at hmilli
  change Context.working.round (c * 1000000) e = _ at hmicro
  rw [show (10 : ℚ) ^ ((3 : Nat) : Int) = 1000 by norm_num] at hmilliv
  rw [show (10 : ℚ) ^ ((6 : Nat) : Int) = 1000000 by norm_num] at hmicrov
  unfold writeCpu
  dsimp only
  split
  · next hw =>
      obtain ⟨n, hn⟩ := Decimal.isWhole_iff.mp hw
      have small := h.small
      rw [← hv, hn] at small
      exact ⟨_, writeWhole_eq hn small, .whole (hv.symm.trans hn)⟩
  next hw =>
  have hwhole : ¬ ∃ m : Int, (Decimal.finite c e).value = m := by
    rwa [← hv, ← Decimal.isWhole_iff]
  rw [hmilli]
  change ∃ s, (if Decimal.isWhole c' e' then _ else _) = Except.ok s ∧ _
  split
  · next hw' =>
      obtain ⟨n, hn⟩ := Decimal.isWhole_iff.mp hw'
      have small := h.small_units hwhole (k := 3) (by decide)
      rw [show (10 : ℚ) ^ ((3 : Nat) : Int) = 1000 by norm_num, ← hmilliv, hn] at small
      rw [writeWhole_eq hn small]
      exact ⟨_, rfl, .milli hwhole ((eq_div_iff (by norm_num)).mpr (hmilliv.symm.trans hn))⟩
  next hw' =>
  have hthousandths : ¬ ∃ m : Int, (Decimal.finite c e).value = m / 1000 := by
    rintro ⟨m, hm⟩
    exact hw' (Decimal.isWhole_iff.mpr ⟨m, hmilliv.trans ((eq_div_iff (by norm_num)).mp hm)⟩)
  rw [hmicro]
  have hceil := Decimal.ceiling_value c'' e''
  have small := ((h.digits.shift (6 : Nat)).abs_ceil_lt (by decide)
    (h.small_units hwhole (k := 6) (by decide)))
  rw [show (10 : ℚ) ^ ((6 : Nat) : Int) = 1000000 by norm_num] at small
  rw [hmicrov] at hceil
  change ∃ s, (do
      return (← writeWhole (Decimal.ceiling c'' e'').1 (Decimal.ceiling c'' e'').2) ++ "u") =
    Except.ok s ∧ _
  rw [writeWhole_eq hceil small]
  exact ⟨_, rfl, .micro hthousandths⟩

/-- `read` gives `⌈q * 10 ^ 6⌉ / 10 ^ 6` for a text of `q` cores. -/
theorem read_cpuText (h : x.Presentable) {s : String} (hs : CpuText x.value s) :
    ∃ y, read s = .ok y ∧ y.Represents (⌈x.value * 1000000⌉ / 1000000) := by
  have small := h.small
  cases hs with
  | @whole n hn =>
      rw [hn] at small
      refine ⟨_, read_integer (digitCount_le_of_abs_lt (by decide) small), n, 0, rfl, ?_⟩
      have hceil : ⌈(n : ℚ) * 1000000⌉ = n * 1000000 := by
        exact_mod_cast Int.ceil_intCast (n * 1000000)
      rw [hn, hceil, zpow_zero, mul_one, eq_div_iff (by norm_num)]
      push_cast
      rfl
  | @milli n hwhole hn =>
      have hmul : x.value * 10 ^ ((3 : Nat) : Int) = n := by
        rw [hn, zpow_natCast]
        norm_num
      have hsmall := h.small_units hwhole (k := 3) (by decide)
      have hdigits := h.digits.shift (3 : Nat)
      rw [hmul] at hsmall hdigits
      obtain ⟨y, hy, hrep⟩ := read_smallUnit unitText_milli (by decide) (by decide) hdigits hsmall
      refine ⟨y, hy, ?_⟩
      have hceil : ⌈x.value * 1000000⌉ = n * 1000 := by
        rw [hn, show (n : ℚ) / 1000 * 1000000 = ((n * 1000 : Int) : ℚ) by push_cast; ring,
          Int.ceil_intCast]
      rw [hceil]
      convert hrep using 1
      push_cast
      norm_num
      ring
  | micro hn =>
      have hwhole : ¬ ∃ m : Int, x.value = m := by
        rintro ⟨m, hm⟩
        exact hn ⟨m * 1000, by rw [hm]; push_cast; ring⟩
      have hshift : x.value * 10 ^ ((6 : Nat) : Int) = x.value * 1000000 := by norm_num
      have hdigits := h.digits.shift (6 : Nat)
      have hsmall := h.small_units hwhole (k := 6) (by decide)
      rw [hshift] at hdigits hsmall
      obtain ⟨y, hy, hrep⟩ := read_smallUnit unitText_micro (by decide) (by decide)
        (hdigits.ceil (by decide)) (hdigits.abs_ceil_lt (by decide) hsmall)
      refine ⟨y, hy, ?_⟩
      convert hrep using 1
      rw [div_eq_mul_inv]
      norm_num

theorem isLeast_millionths (q : ℚ) :
    IsLeast {r : ℚ | (∃ n : Int, r = n / 1000000) ∧ q ≤ r} (⌈q * 1000000⌉ / 1000000) := by
  refine ⟨⟨⟨_, rfl⟩, (le_div_iff₀ (by norm_num)).mpr (Int.le_ceil _)⟩, ?_⟩
  rintro r ⟨⟨n, rfl⟩, hle⟩
  have hceil : ⌈q * 1000000⌉ ≤ n := Int.ceil_le.mpr ((le_div_iff₀ (by norm_num)).mp hle)
  exact div_le_div_of_nonneg_right (by exact_mod_cast hceil) (by norm_num)

/-- The text has no unit exactly if `q` is an integer. -/
theorem CpuText.whole_iff {q : ℚ} {s : String} (h : CpuText q s) :
    (∃ n : Int, s = toString n) ↔ ∃ n : Int, q = n := by
  cases h with
  | whole hn => exact ⟨fun _ => ⟨_, hn⟩, fun _ => ⟨_, rfl⟩⟩
  | milli hwhole _ =>
      exact ⟨fun ⟨n, hn⟩ => absurd hn.symm (toString_ne_withUnit n unitText_milli),
        fun hq => absurd hq hwhole⟩
  | micro hmicro =>
      refine ⟨fun ⟨n, hn⟩ => absurd hn.symm (toString_ne_withUnit n unitText_micro), ?_⟩
      rintro ⟨n, rfl⟩
      exact absurd ⟨n * 1000, by push_cast; ring⟩ hmicro

/-- The unit is `m` exactly if `q * 1000` is an integer and `q` is none. -/
theorem CpuText.milli_iff {q : ℚ} {s : String} (h : CpuText q s) :
    (∃ n : Int, s = toString n ++ "m") ↔ (¬ ∃ n : Int, q = n) ∧ ∃ n : Int, q = n / 1000 := by
  cases h with
  | whole hn =>
      exact ⟨fun ⟨n, h⟩ => absurd h (toString_ne_withUnit _ unitText_milli),
        fun h => absurd ⟨_, hn⟩ h.1⟩
  | milli hwhole hn => exact ⟨fun _ => ⟨hwhole, _, hn⟩, fun _ => ⟨_, rfl⟩⟩
  | micro hmicro =>
      refine ⟨fun ⟨n, h⟩ => ?_, fun h => absurd h.2 hmicro⟩
      cases unit_unique unitText_micro unitText_milli h

/-- **Published cores.** The text of an amount of cores is read back as the least number of
millionths that is not below it. -/
theorem read_writeCpu (h : x.PresentableCores) :
    ∃ s y, writeCpu x = .ok s ∧ read s = .ok y ∧ y.isFinite = true ∧
      IsLeast {r : ℚ | (∃ n : Int, r = n / 1000000) ∧ x.value ≤ r} y.value ∧
      y.value < x.value + 1 / 1000000 ∧
      ((∃ n : Int, x.value = n / 1000000) → y.value = x.value) ∧
      (∀ x' s' y', Decimal.PresentableCores x' → writeCpu x' = .ok s' → read s' = .ok y' →
        x.value ≤ x'.value → y.value ≤ y'.value) ∧
      ((∃ n : Int, s = toString n) ↔ ∃ n : Int, x.value = n) ∧
      ((∃ n : Int, s = toString n ++ "m") ↔
        (¬ ∃ n : Int, x.value = n) ∧ ∃ n : Int, x.value = n / 1000) := by
  have published : ∀ {x : Decimal}, x.PresentableCores → ∃ s y, writeCpu x = .ok s ∧
      CpuText x.value s ∧ read s = .ok y ∧ y.Represents (⌈x.value * 1000000⌉ / 1000000) := by
    intro x h
    obtain ⟨s, hs, htext⟩ := writeCpu_text h
    obtain ⟨y, hy, hrep⟩ := read_cpuText h.toPresentable htext
    exact ⟨s, y, hs, htext, hy, hrep⟩
  obtain ⟨s, y, hs, htext, hy, hrep⟩ := published h
  have least := isLeast_millionths x.value
  rw [← hrep.value_eq] at least
  refine ⟨s, y, hs, hy, hrep.isFinite, least, ?_, ?_, ?_, htext.whole_iff, htext.milli_iff⟩
  · have := Int.ceil_lt_add_one (x.value * 1000000)
    rw [hrep.value_eq, div_lt_iff₀ (by norm_num)]
    linarith
  · intro hq
    exact le_antisymm (least.2 ⟨hq, le_rfl⟩) least.1.2
  · intro x' s' y' h' hs' hy' hle
    obtain ⟨t, z, ht, _, hz, hrep'⟩ := published h'
    obtain rfl : t = s' := Except.ok.inj (ht.symm.trans hs')
    obtain rfl : z = y' := Except.ok.inj (hz.symm.trans hy')
    rw [hrep.value_eq, hrep'.value_eq]
    gcongr

/-- A core and a half and a tenth of a millionth. -/
theorem read_writeCpu_rounded :
    (Decimal.finite 15000001 (-7)).PresentableCores ∧
      ∃ s y, writeCpu (.finite 15000001 (-7)) = .ok s ∧ read s = .ok y ∧ y.isFinite = true ∧
        IsLeast {r : ℚ | (∃ n : Int, r = n / 1000000) ∧ (Decimal.finite 15000001 (-7)).value ≤ r}
          y.value ∧
        y.value < (Decimal.finite 15000001 (-7)).value + 1 / 1000000 := by
  have presentable : (Decimal.finite 15000001 (-7)).PresentableCores := by
    refine ⟨⟨rfl, ⟨15000001, -7, by decide, rfl⟩, fits_iff.mp (Or.inr (by decide +kernel))⟩, ?_⟩
    refine Or.inr ((zpow_le_one_of_nonpos₀ (by norm_num) (by decide)).trans ?_)
    norm_num [Decimal.value]
  obtain ⟨s, y, hs, hy, hfinite, hleast, hlt, _⟩ := read_writeCpu presentable
  exact ⟨presentable, s, y, hs, hy, hfinite, hleast, hlt⟩

example : (writeCpu (.finite 15000001 (-7))).toOption = some "1500001u" := by decide +kernel

end Quantity

end QuotaWarden
