import QuotaWarden.Proofs.DecimalValues

/-! # Reading integers with units

An amount is written as an integer, with a unit or without one. `Quantity.read` reads it back:
`Quantity.read_integer` gives the integer itself, and `Quantity.read_withUnit` the integer times the
factor of the unit, if the arithmetic can hold it.

`UnitText` says of a text which unit it is; `Quantity.toString_ne_withUnit` that no integer ends in
one. -/

namespace QuotaWarden

open Number Text

/-! ### Digits -/

namespace Text

theorem isDigit_bounds {c : Char} (h : c.isDigit = true) : 48 ≤ c.toNat ∧ c.toNat ≤ 57 := by
  simp only [Char.isDigit, Bool.and_eq_true, decide_eq_true_iff] at h
  exact ⟨UInt32.le_iff_toNat_le.mp h.1, UInt32.le_iff_toNat_le.mp h.2⟩

theorem digitValue?_of_isDigit {c : Char} (h : c.isDigit = true) :
    digitValue? c = some (c.toNat - 48) := by
  obtain ⟨lower, upper⟩ := isDigit_bounds h
  have first : scriptZeros.find? (fun z => z ≤ c.toNat && c.toNat ≤ z + 9) = some 48 := by
    unfold scriptZeros
    rw [List.find?_cons_of_pos (by simp; omega)]
  rw [digitValue?, first]
  rfl

theorem isBlank_of_isDigit {c : Char} (h : c.isDigit = true) : isBlank c = false := by
  obtain ⟨lower, upper⟩ := isDigit_bounds h
  simp only [isBlank, isSpace, Bool.or_eq_false_iff, Bool.and_eq_false_iff, beq_eq_false_iff_ne,
    decide_eq_false_iff_not]
  omega

theorem ne_of_isDigit {c d : Char} (h : c.isDigit = true) (hd : d.isDigit = false) : c ≠ d := by
  rintro rfl
  rw [h] at hd
  cases hd

theorem isDigit_of_mem {n : Nat} {c : Char} (h : c ∈ Nat.toDigits 10 n) : c.isDigit = true :=
  Nat.isDigit_of_mem_toDigits (by decide) (by decide) h

/-- `digitsValue` inverts `Nat.toDigits 10`. -/
theorem digitsValue_toDigits (n : Nat) :
    digitsValue ((Nat.toDigits 10 n).map fun c => c.toNat - 48) = n := by
  unfold digitsValue
  rw [List.foldl_map]
  exact Nat.ofDigitChars_ten_toDigits

/-- `toString n` is a sign and `Nat.toDigits 10`. -/
theorem toList_toString (n : Int) :
    (toString n).toList = (if n < 0 then ['-'] else []) ++ Nat.toDigits 10 n.natAbs := by
  have natural : ∀ n : Nat, (toString n).toList = Nat.toDigits 10 n := fun n => by
    rw [Nat.toString_eq_ofList_toDigits, String.toList_ofList]
  cases n with
  | ofNat n =>
      rw [if_neg (by simp)]
      exact natural n
  | negSucc n =>
      rw [if_pos (Int.negSucc_lt_zero n)]
      exact (String.toList_append (s := "-")).trans (congrArg (['-'] ++ ·) (natural (n + 1)))

theorem reverse_toString (n : Int) :
    ∃ c r, c.isDigit = true ∧ (toString n).toList.reverse = c :: r := by
  have hne : Nat.toDigits 10 n.natAbs ≠ [] := Nat.toDigits_ne_nil
  obtain ⟨front, c, h⟩ : ∃ front c, Nat.toDigits 10 n.natAbs = front ++ [c] :=
    ⟨_, _, (List.dropLast_append_getLast hne).symm⟩
  have digit : c.isDigit = true := isDigit_of_mem (n := n.natAbs) (by simp [h])
  refine ⟨c, ((if n < 0 then ['-'] else []) ++ front).reverse, digit, ?_⟩
  rw [toList_toString, h, ← List.append_assoc, List.reverse_append]
  rfl

theorem toString_append_ne (n : Int) (s : String) : toString n ++ s ≠ "" := by
  intro h
  obtain ⟨c, r, _, hr⟩ := reverse_toString n
  have empty : (toString n).toList = [] :=
    (List.append_eq_nil_iff.mp ((String.toList_append ▸ congrArg String.toList h))).1
  rw [empty] at hr
  cases hr

theorem skipped_toString (n : Int) :
    (trim isBlank (toString n).toList).filter (· != '_') = (toString n).toList := by
  have kept : ∀ c ∈ (toString n).toList, isBlank c = false ∧ (c != '_') = true := by
    intro c hc
    rw [toList_toString, List.mem_append] at hc
    rcases hc with hc | hc
    · split at hc
      · rw [List.mem_singleton.mp hc]
        decide
      · exact absurd hc List.not_mem_nil
    · have digit := isDigit_of_mem hc
      exact ⟨isBlank_of_isDigit digit, by simpa using ne_of_isDigit digit (by decide)⟩
  rw [trim_eq_self fun c hc => (kept c hc).1]
  exact List.filter_eq_self.mpr fun c hc => (kept c hc).2

theorem splitSign_toString (n : Int) :
    splitSign (toString n).toList = (decide (n < 0), Nat.toDigits 10 n.natAbs) := by
  rw [toList_toString]
  by_cases hn : n < 0
  · simp [hn, splitSign]
  · rw [if_neg hn, List.nil_append, decide_eq_false hn]
    cases hd : Nat.toDigits 10 n.natAbs with
    | nil => exact absurd hd Nat.toDigits_ne_nil
    | cons c r =>
        have digit : c.isDigit = true := isDigit_of_mem (n := n.natAbs) (by simp [hd])
        unfold splitSign
        split
        · next h => exact absurd (List.cons.inj h).1 (ne_of_isDigit digit (by decide))
        · next h => exact absurd (List.cons.inj h).1 (ne_of_isDigit digit (by decide))
        · rfl

end Text

/-! ### Integers -/

namespace Decimal

theorem takeDigits_digits (ds : List Nat) : takeDigits (ds.map .digit) = (ds, []) := by
  induction ds with
  | nil => rfl
  | cons d ds ih => rw [List.map_cons, takeDigits, ih]

theorem readMagnitude?_digits {ds : List Nat} (h : ds ≠ []) :
    readMagnitude? (ds.map .digit) = some (digitsValue ds, 0) := by
  have given : (!(ds.isEmpty && ([] : List Nat).isEmpty)) = true := by
    cases ds with
    | nil => exact absurd rfl h
    | cons d ds => rfl
  unfold readMagnitude?
  rw [takeDigits_digits]
  simp only [given, guard, readExponent?]
  simp

theorem readNumber?_toDigits {n : Nat} (h : digitCount n ≤ digitLimit) :
    readNumber? ((Nat.toDigits 10 n).map glyph) = some (n, 0) := by
  have glyphs : (Nat.toDigits 10 n).map glyph =
      ((Nat.toDigits 10 n).map fun c => c.toNat - 48).map .digit := by
    rw [List.map_map]
    refine List.map_congr_left fun c hc => ?_
    rw [glyph, digitValue?_of_isDigit (isDigit_of_mem hc)]
    rfl
  have range : inExactRange n 0 = true := by
    have hlimit : digitLimit = 4300 := rfl
    have hmax : maxExactExponent = 999999999999999999 := rfl
    have first : adjusted n 0 ≤ maxExactExponent := by
      unfold adjusted
      rw [Int.natAbs_natCast]
      omega
    unfold inExactRange
    rw [decide_eq_true first]
    rfl
  unfold readNumber?
  rw [glyphs, readMagnitude?_digits (by simp [Nat.toDigits_ne_nil]), digitsValue_toDigits]
  simp [range]

theorem read?_of_number {s : String} {negative : Bool} {rest : List Char} {n : Nat} {e : Int}
    (sign : splitSign ((trim isBlank s.toList).filter (· != '_')) = (negative, rest))
    (number : readNumber? (rest.map glyph) = some (n, e)) :
    read? s = some (ofParts (signed negative n) e) := by
  unfold read?
  dsimp only
  rw [sign]
  dsimp only
  rw [number]

theorem read?_toString {n : Int} (h : digitCount n.natAbs ≤ digitLimit) :
    read? (toString n) = some (ofParts n 0) := by
  have sign := splitSign_toString n
  rw [← skipped_toString n] at sign
  rw [read?_of_number sign (readNumber?_toDigits h), signed_decide_natAbs]

end Decimal

/-! ### Units -/

theorem UnitScale.factor_represents (u : UnitScale) :
    u.factor.Represents (if u.binary then 1024 ^ u.power.toNat else 10 ^ (3 * u.power)) := by
  unfold UnitScale.factor
  split
  · exact ⟨_, _, rfl, by rw [zpow_zero, mul_one]; exact Nat.cast_pow 1024 _⟩
  · exact ⟨_, _, rfl, by rw [Int.cast_one, one_mul]⟩

/-- A text names a unit, whatever number stands before it. -/
structure UnitText (text : String) (u : UnitScale) : Prop where
  split : ∀ r, Quantity.splitUnit (text.toList.reverse ++ r) = (r, some u)
  genuine : ∀ r, Quantity.endsInFalseUnit (text.toList.reverse ++ r) = false

namespace Quantity

variable {n : Int} {text : String} {u : UnitScale}

theorem splitUnit_toString (n : Int) :
    splitUnit (toString n).toList.reverse = ((toString n).toList.reverse, none) := by
  obtain ⟨c, r, digit, h⟩ := reverse_toString n
  have power : unitPower? c = none := by
    have other : ∀ e ∈ unitLetters, e.1 ≠ c := by
      intro e he
      have letter : e.1.isDigit = false := by revert e; decide
      exact (ne_of_isDigit digit letter).symm
    rw [unitPower?, List.find?_eq_none.mpr fun e he => by simpa using other e he]
    rfl
  have notI : c ≠ 'i' := ne_of_isDigit digit (by decide)
  rw [h]
  unfold splitUnit
  split
  · next heq => exact absurd (List.cons.inj heq).1 notI
  · next heq =>
      obtain ⟨rfl, rfl⟩ := List.cons.inj heq
      rw [power]
  · next heq => cases heq

theorem read_eq_readNonempty {s : String} (h : s ≠ "") : read s = readNonempty s := if_neg h

theorem read_unitless {s : String} {x : Decimal} (given : s ≠ "")
    (split : splitUnit s.toList.reverse = (s.toList.reverse, none))
    (h : Decimal.read? s = some x) : read s = .ok x := by
  rw [read_eq_readNonempty given]
  unfold readNonempty
  dsimp only
  rw [split]
  dsimp only
  rw [List.reverse_reverse, String.ofList_toList, h]

theorem read_integer (h : digitCount n.natAbs ≤ digitLimit) :
    read (toString n) = .ok (.ofParts n 0) :=
  read_unitless (by simpa using toString_append_ne n "") (splitUnit_toString n)
    (Decimal.read?_toString h)

/-- `read` gives `n * u.factor` for `n` with the unit `u`, if `Context.working` holds it. -/
theorem read_withUnit (h : digitCount n.natAbs ≤ digitLimit) (hu : UnitText text u)
    (held : Context.working.Holds (n * u.factor.value)) :
    ∃ y, read (toString n ++ text) = .ok y ∧ y.Represents (n * u.factor.value) := by
  have integer : (Decimal.ofParts n 0).Represents n := ⟨n, 0, rfl, by simp⟩
  rw [← integer.value_eq] at held
  obtain ⟨y, hy, hrep⟩ := Decimal.mul_of_holds integer.isFinite u.factor_represents.isFinite held
  rw [integer.value_eq] at hrep
  refine ⟨y, ?_, hrep⟩
  rw [read_eq_readNonempty (toString_append_ne n text)]
  unfold readNonempty
  dsimp only
  rw [String.toList_append, List.reverse_append, hu.split]
  dsimp only
  rw [List.reverse_reverse, String.ofList_toList, Decimal.read?_toString h]
  dsimp only
  rw [hu.genuine, if_neg Bool.false_ne_true, hy]

/-- A text with a unit is not `toString` of an integer. -/
theorem toString_ne_withUnit (m : Int) (hu : UnitText text u) :
    toString m ≠ toString n ++ text := by
  intro h
  have split := splitUnit_toString m
  rw [h, String.toList_append, List.reverse_append, hu.split] at split
  cases congrArg Prod.snd split

/-- A text has one unit. -/
theorem unit_unique {m : Int} {text' : String} {u' : UnitScale} (hu : UnitText text u)
    (hu' : UnitText text' u') (h : toString m ++ text = toString n ++ text') : u = u' := by
  have split := hu.split (toString m).toList.reverse
  rw [← List.reverse_append, ← String.toList_append, h, String.toList_append, List.reverse_append,
    hu'.split] at split
  exact (Option.some.inj (congrArg Prod.snd split)).symm

end Quantity

end QuotaWarden
