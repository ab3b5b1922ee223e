import QuotaWarden.Policy

/-! # Limits of untyped policies

Three fields of an untyped policy set its limits, and any JSON value may stand there. Each limit is
a function of the value of its own field, `podLimit` or `amountLimit`. A value that cannot be used
sets no limit and leaves one warning (`LimitRead`), whatever the other two fields hold.

Two kinds of values get past this. An infinite number of pods stops the reading of the whole policy.
A NaN is taken as an amount: `Json.WritesNaN` are the values that do this, with
`Quantity.WritesNaN` for the texts among them (`amountLimit_isNaN`). A comparison with such a limit
is not defined.

The main result is `Policy.ofJson_isolates`. -/

namespace QuotaWarden

open Number Text

/-! ### Decimals that are no number -/

namespace Decimal

/-- Whether a decimal is a NaN of either kind. -/
def IsNaN (x : Decimal) : Prop := x = quietNaN ∨ x = signalingNaN

instance (x : Decimal) : Decidable x.IsNaN := inferInstanceAs (Decidable (_ ∨ _))

theorem ofParts_not_isNaN (c e : Int) : ¬ (ofParts c e).IsNaN := by
  unfold ofParts
  split <;> simp [IsNaN]

theorem exists_lt_iff {x y : Decimal} : (∃ b, lt x y = .ok b) ↔ ¬ x.IsNaN ∧ ¬ y.IsNaN := by
  cases x <;> cases y <;> simp [lt, compare?, IsNaN]

theorem zero_not_isNaN : ¬ (0 : Decimal).IsNaN := by decide

theorem round_not_isNaN {k : Context} {c e : Int} {x : Decimal} (h : k.round c e = .ok x) :
    ¬ x.IsNaN := by
  simp only [Context.round] at h
  split at h
  · cases h
    simp [IsNaN]
  · split at h
    · cases h
      simp [IsNaN]
    · split at h
      · cases h
      · cases h
        exact ofParts_not_isNaN _ _

/-- With a finite factor the product is a NaN exactly if the other factor is `quietNaN`. -/
theorem mul_isNaN {k : Context} {x y z : Decimal} (hy : y.isFinite = true)
    (h : mul k x y = .ok z) : z.IsNaN ↔ x = quietNaN := by
  cases y with
  | finite d f =>
      cases x with
      | finite c e => simpa using round_not_isNaN h
      | infinite negative =>
          simp only [mul] at h
          split at h
          · cases h
          · cases h
            simp [IsNaN]
      | quietNaN =>
          cases h
          simp [IsNaN]
      | signalingNaN => cases h
  | _ => cases hy

theorem ne_quietNaN_of_mul {k : Context} {x y : Decimal} {signal : Signal}
    (hy : y.isFinite = true) (h : mul k x y = .error signal) : x ≠ quietNaN := by
  rintro rfl
  cases y with
  | finite d f => cases h
  | _ => cases hy

/-! ### Texts that name a NaN -/

/-- What the text of a decimal holds besides its sign, blanks around it and underscores. -/
def bareGlyphs (s : String) : List Glyph :=
  (splitSign ((trim isBlank s.toList).filter (· != '_'))).2.map glyph

/-- Whether a text is a word, with or without digits after it. -/
def IsWordWithDigits (name s : String) : Prop :=
  ∃ digits, bareGlyphs s = word name ++ digits ∧ onlyDigits digits = true

theorem afterWord?_eq_some {name : String} {gs digits : List Glyph} :
    afterWord? name gs = some digits ↔ gs = word name ++ digits := by
  have hlength : (word name).length = name.length := by simp [word, String.length_toList]
  unfold afterWord?
  constructor
  · intro h
    split at h
    · next hfront =>
        cases h
        rw [← hfront, List.take_append_drop]
    · cases h
  · rintro rfl
    rw [← hlength, List.take_left', List.drop_left', if_pos rfl] <;> rfl

theorem read?_eq (s : String) :
    ∃ negative, read? s = match readNumber? (bareGlyphs s) with
      | some (n, e) => some (ofParts (signed negative n) e)
      | none => readSpecial? negative (bareGlyphs s) := by
  unfold read? bareGlyphs
  dsimp only
  cases splitSign ((trim isBlank s.toList).filter (· != '_')) with
  | mk negative rest => exact ⟨negative, rfl⟩

/-- A NaN is read by `readSpecial?`. -/
theorem readSpecial?_of_read? {s : String} {x : Decimal} (h : read? s = some x) (hx : x.IsNaN) :
    ∃ negative, readSpecial? negative (bareGlyphs s) = some x := by
  obtain ⟨negative, hread⟩ := read?_eq s
  rw [hread] at h
  split at h
  · cases h
    exact absurd hx (ofParts_not_isNaN _ _)
  · exact ⟨negative, h⟩

/-- `quietNaN` is read from `nan` in any case, with digits after it or without. -/
theorem read?_quietNaN {s : String} : read? s = some quietNaN ↔ IsWordWithDigits "nan" s := by
  constructor
  · intro h
    obtain ⟨negative, hspecial⟩ := readSpecial?_of_read? h (.inl rfl)
    unfold readSpecial? at hspecial
    split at hspecial
    · cases hspecial
    · split at hspecial
      · next digits hafter =>
          split at hspecial
          · next hdigits => exact ⟨digits, afterWord?_eq_some.mp hafter, hdigits⟩
          · cases hspecial
      · split at hspecial <;> cases hspecial
      · cases hspecial
  · rintro ⟨digits, hgs, hdigits⟩
    obtain ⟨negative, hread⟩ := read?_eq s
    have hafter : afterWord? "nan" (word "nan" ++ digits) = some digits :=
      afterWord?_eq_some.mpr rfl
    have hnumber : readNumber? (word "nan" ++ digits) = none := rfl
    have hinf : ¬ (word "nan" ++ digits = word "inf" ∨ word "nan" ++ digits = word "infinity") := by
      simp [word]
    rw [hread, hgs, hnumber]
    simp [readSpecial?, hinf, hafter, hdigits]

theorem read?_signalingNaN {s : String} :
    read? s = some signalingNaN ↔ IsWordWithDigits "snan" s := by
  constructor
  · intro h
    obtain ⟨negative, hspecial⟩ := readSpecial?_of_read? h (.inr rfl)
    unfold readSpecial? at hspecial
    split at hspecial
    · cases hspecial
    · split at hspecial
      · split at hspecial <;> cases hspecial
      · next digits hafter _ =>
          split at hspecial
          · next hdigits => exact ⟨digits, afterWord?_eq_some.mp hafter, hdigits⟩
          · cases hspecial
      · cases hspecial
  · rintro ⟨digits, hgs, hdigits⟩
    obtain ⟨negative, hread⟩ := read?_eq s
    have hafter : afterWord? "snan" (word "snan" ++ digits) = some digits :=
      afterWord?_eq_some.mpr rfl
    have hquiet : afterWord? "nan" (word "snan" ++ digits) = none := by
      rw [Option.eq_none_iff_forall_ne_some]
      intro r hr
      have := afterWord?_eq_some.mp hr
      simp [word] at this
    have hnumber : readNumber? (word "snan" ++ digits) = none := rfl
    have hinf : ¬ (word "snan" ++ digits = word "inf" ∨
        word "snan" ++ digits = word "infinity") := by
      simp [word]
    rw [hread, hgs, hnumber]
    simp [readSpecial?, hinf, hafter, hquiet, hdigits]

theorem trim_cons {p : Char → Bool} {c : Char} {cs : List Char} (hc : p c = false) :
    ∃ rest, trim p (c :: cs) = c :: rest := by
  refine ⟨trimEnd p cs, ?_⟩
  rw [trim, List.dropWhile_cons_of_neg (by simp [hc]), List.reverse_cons, List.dropWhile_append]
  split
  · next hempty => simp [trimEnd, List.isEmpty_iff.mp hempty, hc]
  · simp [trimEnd]

theorem read?_bracket {s : String} {c : Char} {cs : List Char} (hc : c = '[' ∨ c = '\x7b')
    (hs : s.toList = c :: cs) : read? s = none := by
  obtain ⟨negative, hread⟩ := read?_eq s
  obtain ⟨rest, htrim⟩ : ∃ rest, trim isBlank s.toList = c :: rest := by
    rw [hs]
    exact trim_cons (by rcases hc with rfl | rfl <;> decide)
  have hgs : ∃ gs, bareGlyphs s = .other c :: gs := by
    refine ⟨(rest.filter (· != '_')).map glyph, ?_⟩
    rw [bareGlyphs, htrim]
    rcases hc with rfl | rfl <;> rfl
  obtain ⟨gs, hgs⟩ := hgs
  have hnumber : readNumber? (.other c :: gs) = none := by rcases hc with rfl | rfl <;> rfl
  have hafter : ∀ name ∈ ["nan", "snan"], afterWord? name (.other c :: gs) = none := by
    intro name hname
    rw [Option.eq_none_iff_forall_ne_some]
    intro r hr
    have := afterWord?_eq_some.mp hr
    simp only [List.mem_cons, List.not_mem_nil, or_false] at hname
    rcases hc with rfl | rfl <;> rcases hname with rfl | rfl <;> simp [word] at this
  have hinf : ¬ (.other c :: gs = word "inf" ∨ .other c :: gs = word "infinity") := by
    rcases hc with rfl | rfl <;> simp [word]
  rw [hread, hgs, hnumber]
  simp [readSpecial?, hinf, hafter]

end Decimal

theorem UnitScale.factor_isFinite (u : UnitScale) : u.factor.isFinite = true := by
  have hparts (c e : Int) : (Decimal.ofParts c e).isFinite = true := by
    unfold Decimal.ofParts
    split <;> rfl
  unfold factor
  split <;> exact hparts _ _

/-! ### Quantities that are no number -/

namespace Quantity

/-- The text of the number in a quantity, without the unit. -/
def numberText (s : String) : String := String.ofList (splitUnit s.toList.reverse).1.reverse

/-- Whether a text is the quantity of a NaN; a quiet one may have a unit that exists. -/
def WritesNaN (s : String) : Prop :=
  Decimal.IsWordWithDigits "nan" (numberText s) ∧ endsInFalseUnit s.toList.reverse = false ∨
    Decimal.IsWordWithDigits "snan" (numberText s) ∧ (splitUnit s.toList.reverse).2 = none

theorem endsInFalseUnit_of_none {cs : List Char} (h : (splitUnit cs).2 = none) :
    endsInFalseUnit cs = false := by
  unfold endsInFalseUnit
  split
  · next c r =>
      simp only [splitUnit] at h
      split at h
      · cases h
      · next hpower =>
          rw [Bool.eq_false_iff]
          intro hletter
          simp only [Bool.or_eq_true, decide_eq_true_eq] at hletter
          rcases hletter with ((rfl | rfl) | rfl) | rfl <;> revert hpower <;> decide
  · rfl

theorem readNonempty_isNaN {s : String} :
    (∃ x, readNonempty s = .ok x ∧ x.IsNaN) ↔ WritesNaN s := by
  unfold WritesNaN
  rw [← Decimal.read?_quietNaN, ← Decimal.read?_signalingNaN]
  cases hsplit : splitUnit s.toList.reverse with
  | mk number unit =>
      have htext : numberText s = String.ofList number.reverse := by rw [numberText, hsplit]
      unfold readNonempty
      simp only [hsplit, htext]
      cases Decimal.read? (String.ofList number.reverse) with
      | none => simp
      | some x =>
          cases unit with
          | none => simp [Decimal.IsNaN, endsInFalseUnit_of_none (congrArg Prod.snd hsplit)]
          | some u =>
              cases endsInFalseUnit s.toList.reverse with
              | true => simp
              | false =>
                  cases hmul : Decimal.mul .working x u.factor with
                  | ok y => simp [hmul, Decimal.mul_isNaN u.factor_isFinite hmul]
                  | error signal => simp [hmul, Decimal.ne_quietNaN_of_mul u.factor_isFinite hmul]

theorem read_isNaN {s : String} : (∃ x, read s = .ok x ∧ x.IsNaN) ↔ WritesNaN s := by
  unfold read
  split
  · next hs =>
      subst hs
      constructor
      · rintro ⟨_, hx, hnan⟩
        cases hx
        exact absurd hnan Decimal.zero_not_isNaN
      · rintro (⟨⟨digits, hgs, _⟩, _⟩ | ⟨⟨digits, hgs, _⟩, _⟩) <;> cases hgs
  · exact readNonempty_isNaN

/-- The `display` of a list or an object is no quantity. -/
theorem readNonempty_bracket {s : String} {first last : Char} {cs : List Char}
    (hfirst : first = '[' ∨ first = '\x7b') (hlast : last = ']' ∨ last = '\x7d')
    (hs : s.toList = first :: (cs ++ [last])) : ∃ f, readNonempty s = .error f := by
  have hsplit : splitUnit s.toList.reverse = (s.toList.reverse, none) := by
    rw [hs, List.reverse_cons, List.reverse_append]
    rcases hlast with rfl | rfl <;> rfl
  have hnumber : Decimal.read? (String.ofList s.toList) = none := by
    rw [String.ofList_toList]
    exact Decimal.read?_bracket hfirst hs
  refine ⟨.badNumber (String.ofList s.toList), ?_⟩
  unfold readNonempty
  simp only [hsplit, List.reverse_reverse, hnumber]

theorem isUnusable_of_readNonempty {s : String} {f : Fault} (h : readNonempty s = .error f) :
    f.isUnusable = true := by
  unfold readNonempty at h
  dsimp only at h
  split at h
  · cases h
    rfl
  · split at h
    · cases h
    · split at h
      · cases h
        rfl
      · split at h <;> cases h
        rfl

theorem isUnusable_of_ofJson {v : Json} {f : Fault} (h : ofJson v = .error f) :
    f.isUnusable = true := by
  unfold ofJson at h
  split at h
  · cases h
  · unfold read at h
    split at h
    · cases h
    · exact isUnusable_of_readNonempty h
  · split at h
    · cases h
    · exact isUnusable_of_readNonempty h

theorem ofJson_arr (items : List Json) : ∃ f, ofJson (.arr items) = .error f := by
  simp only [ofJson, Json.number?]
  exact readNonempty_bracket (.inl rfl) (.inl rfl) (by simp [Json.display, Json.quoted]; rfl)

theorem ofJson_obj (fields : List (String × Json)) : ∃ f, ofJson (.obj fields) = .error f := by
  simp only [ofJson, Json.number?]
  exact readNonempty_bracket (.inr rfl) (.inr rfl) (by simp [Json.display, Json.quoted]; rfl)

end Quantity

/-! ### What one field sets -/

namespace Json

/-- Whether a field is left out or empty. -/
def IsUnset (v : Json) : Prop := v = null ∨ v = str ""

/-- Whether a value is an infinite number. -/
def IsInfinite (v : Json) : Prop :=
  ∃ x negative, v = float x ∧ Binary.ofFloat x = .infinite negative

/-- Whether a value is a NaN where an amount is read. -/
def WritesNaN : Json → Prop
  | float x => Binary.ofFloat x = .nan
  | str s => Quantity.WritesNaN s
  | _ => False

/-- Whether a value is a number of pods. -/
def IsPodCount (v : Json) : Prop := ∃ n, 0 ≤ n ∧ IntegerReading.ofJson v = .value n

/-- Whether a value is an amount. -/
def IsAmount (v : Json) : Prop := ∃ x, Quantity.ofJson v = .ok x

instance (v : Json) : Decidable v.IsAmount :=
  decidable_of_iff ((Quantity.ofJson v).isOk = true) <| by
    unfold IsAmount
    cases Quantity.ofJson v <;> simp [Except.isOk, Except.toBool]

end Json

/-- The limit on pods that a value sets. -/
def podLimit (v : Json) : Int :=
  match IntegerReading.ofJson v with
  | .value n => max n 0
  | _ => 0

/-- The limit on an amount that a value sets. -/
def amountLimit (v : Json) : Decimal :=
  match Quantity.ofJson v with
  | .ok x => x
  | .error _ => 0

theorem Binary.toDecimal_isNaN (b : Binary) : b.toDecimal.IsNaN ↔ b = .nan := by
  cases b with
  | finite negative m q =>
      simp only [toDecimal]
      split <;> simp [Decimal.ofParts_not_isNaN]
  | infinite negative => simp [toDecimal, Decimal.IsNaN]
  | nan => simp [toDecimal, Decimal.IsNaN]

/-- What it means that a value was read as a limit with some warnings about a policy. -/
structure LimitRead [OfNat α 0] (usable : Prop) (label : String) (v : Json) (limit : α)
    (warnings : List String) : Prop where
  unset : v.IsUnset → limit = 0 ∧ warnings = []
  kept : usable → warnings = []
  passed : ¬ v.IsUnset → ¬ usable → limit = 0 ∧ ∃ text, warnings = [label ++ ": " ++ text]

theorem podLimit_nonneg (v : Json) : 0 ≤ podLimit v := by
  unfold podLimit
  split
  · exact Int.le_max_right _ _
  · exact Int.le_refl 0

/-- **`amountLimit v` is a NaN** exactly if `v` writes one. -/
theorem amountLimit_isNaN (v : Json) : (amountLimit v).IsNaN ↔ v.WritesNaN := by
  have hlimit : (amountLimit v).IsNaN ↔ ∃ x, Quantity.ofJson v = .ok x ∧ x.IsNaN := by
    unfold amountLimit
    cases Quantity.ofJson v with
    | ok x => simp
    | error f => simp [Decimal.zero_not_isNaN]
  rw [hlimit]
  cases v with
  | float x => simp [Quantity.ofJson, Json.number?, Json.WritesNaN, Binary.toDecimal_isNaN]
  | str s => exact Quantity.read_isNaN
  | arr items =>
      obtain ⟨f, hf⟩ := Quantity.ofJson_arr items
      simp [hf, Json.WritesNaN]
  | obj fields =>
      obtain ⟨f, hf⟩ := Quantity.ofJson_obj fields
      simp [hf, Json.WritesNaN]
  | _ =>
      simp [Quantity.ofJson, Json.number?, Json.WritesNaN, Decimal.zero_not_isNaN, Decimal.ofInt,
        Decimal.ofParts_not_isNaN]

/-- `Decimal.lt 0` gives a value on `amountLimit v` unless `v` writes a NaN. -/
theorem amountLimit_ordered (v : Json) :
    (∃ b, Decimal.lt 0 (amountLimit v) = .ok b) ↔ ¬ v.WritesNaN := by
  rw [Decimal.exists_lt_iff, amountLimit_isNaN, and_iff_right Decimal.zero_not_isNaN]

theorem ofJson_infinite {v : Json} : IntegerReading.ofJson v = .infinite ↔ v.IsInfinite := by
  cases v with
  | float x =>
      cases hx : Binary.ofFloat x <;>
        simp [IntegerReading.ofJson, Json.IsInfinite, hx, Binary.truncate?]
  | str s =>
      cases hs : readInteger? s <;> simp [IntegerReading.ofJson, Json.IsInfinite, hs]
  | _ => simp [IntegerReading.ofJson, Json.IsInfinite]

theorem readMaxPods_infinite {label : String} {v : Json} (h : v.IsInfinite)
    (before : List String) : readMaxPods label v before = (.error .infiniteFraction, before) := by
  obtain ⟨x, negative, rfl, hx⟩ := h
  have hread := ofJson_infinite.mpr ⟨x, negative, rfl, hx⟩
  simp [readMaxPods, hread]

theorem unusableWarning_eq (label field : String) (v : Json) :
    ∃ text, unusableWarning label field v = label ++ ": " ++ text := by
  have hcolon : ": invalid " = ": " ++ "invalid " := by decide
  refine ⟨"invalid " ++ field ++ " " ++ v.quoted ++ ", treating as unset", ?_⟩
  rw [unusableWarning, hcolon]
  simp only [String.append_assoc]

theorem LimitRead.of_unusable [OfNat α 0] {usable : Prop} {v : Json} {limit : α}
    {label text : String} (hset : ¬ v.IsUnset) (husable : ¬ usable) (hlimit : limit = 0) :
    LimitRead usable label v limit [label ++ ": " ++ text] :=
  ⟨fun hunset => absurd hunset hset, fun h => absurd h husable, fun _ _ => ⟨hlimit, text, rfl⟩⟩

theorem readMaxPods_ok {v : Json} (label : String) (h : ¬ v.IsInfinite) (before : List String) :
    ∃ given, readMaxPods label v before = (.ok (podLimit v), before ++ given) ∧
      LimitRead v.IsPodCount label v (podLimit v) given := by
  unfold readMaxPods
  split
  · refine ⟨[], by simp [podLimit, IntegerReading.ofJson], fun _ => ⟨rfl, rfl⟩, fun _ => rfl, ?_⟩
    exact fun hset => absurd (.inl rfl) hset
  · refine ⟨[], by rw [List.append_nil]; rfl, fun _ => ⟨rfl, rfl⟩, fun _ => rfl, ?_⟩
    exact fun hset => absurd (.inr rfl) hset
  · next hnull hempty =>
      have hset : ¬ v.IsUnset := by
        rintro (hv | hv)
        · exact hnull hv
        · exact hempty hv
      cases hread : IntegerReading.ofJson v with
      | infinite => exact absurd (ofJson_infinite.mp hread) h
      | unusable =>
          obtain ⟨text, htext⟩ := unusableWarning_eq label "maxPods" v
          have hlimit : podLimit v = 0 := by rw [podLimit, hread]
          refine ⟨[unusableWarning label "maxPods" v], ?_, htext ▸ .of_unusable hset ?_ hlimit⟩
          · simp [passUnusable, Act.bind_apply, warn, hlimit]
          · rintro ⟨n, _, hn⟩
            cases hread.symm.trans hn
      | value n =>
          have hlimit : podLimit v = max n 0 := by rw [podLimit, hread]
          by_cases hn : n < 0
          · have hzero : max n 0 = 0 := by omega
            have hcolon (text : String) :
                ": negative maxPods " ++ text = ": " ++ ("negative maxPods " ++ text) := by
              rw [← String.append_assoc]
              rfl
            refine ⟨[label ++ ": " ++ ("negative maxPods " ++ toString n ++ ", treating as unset")],
              ?_, .of_unusable hset ?_ (hlimit.trans hzero)⟩
            · simp [hn, Act.bind_apply, warn, hlimit, hzero, hcolon, String.append_assoc]
            · rintro ⟨m, hm, hread'⟩
              cases hread.symm.trans hread'
              omega
          · refine ⟨[], ?_, fun hunset => absurd hunset hset, fun _ => rfl, fun _ hnot => ?_⟩
            · simp [hn, hlimit]
              omega
            · exact absurd ⟨n, by omega, hread⟩ hnot

theorem readLimit_ok (label field : String) (v : Json) (before : List String) :
    ∃ given, readLimit label field v before = (.ok (amountLimit v), before ++ given) ∧
      LimitRead v.IsAmount label v (amountLimit v) given := by
  unfold readLimit
  cases hread : Quantity.ofJson v with
  | ok x =>
      have hlimit : amountLimit v = x := by rw [amountLimit, hread]
      refine ⟨[], by simp [hlimit], ?_, fun _ => rfl, fun _ hnot => absurd ⟨x, hread⟩ hnot⟩
      rintro (rfl | rfl) <;> exact ⟨rfl, rfl⟩
  | error f =>
      have hlimit : amountLimit v = 0 := by rw [amountLimit, hread]
      obtain ⟨text, htext⟩ := unusableWarning_eq label field v
      refine ⟨[unusableWarning label field v], ?_, htext ▸ .of_unusable ?_ ?_ hlimit⟩
      · simp [Quantity.isUnusable_of_ofJson hread, passUnusable, Act.bind_apply, warn, hlimit]
      · rintro (rfl | rfl) <;> cases hread
      · rintro ⟨x, hx⟩
        cases hread.symm.trans hx

/-! ### The whole policy -/

/-- The value under a name in a specification; a missing one is null. -/
def limitField (spec : List (String × Json)) (field : String) : Json :=
  Json.ofOption (field? field spec)

/-- Fields of an object with the name and the namespace of a policy in its metadata, whose limits
stand in `spec`; without a specification, or with null for one, they stand nowhere. -/
structure DeclaresLimits (fields : List (String × Json)) (name ns : String)
    (spec : List (String × Json)) : Prop where
  metadata : ∃ metadata, field? "metadata" fields = some (.obj metadata) ∧
    field? "name" metadata = some (.str name) ∧ field? "namespace" metadata = some (.str ns)
  spec : field? "spec" fields = some (.obj spec) ∨
    spec = [] ∧ (field? "spec" fields = none ∨ field? "spec" fields = some .null)

theorem DeclaresLimits.mapping_spec {fields spec : List (String × Json)} {name ns : String}
    (h : DeclaresLimits fields name ns spec) :
    mapping ((Json.ofOption (field? "spec" fields)).orElse (.obj [])) = .ok spec := by
  rcases h.spec with hspec | ⟨rfl, hspec | hspec⟩
  · rw [hspec]
    cases spec <;> rfl
  · rw [hspec]
    rfl
  · rw [hspec]
    rfl

/-- `Policy.ofJson` is `readMaxPods`, then `readLimit` for `maxCPU` and for `maxMemory`. -/
theorem DeclaresLimits.ofJson_eq {fields spec : List (String × Json)} {name ns : String}
    (h : DeclaresLimits fields name ns spec) (before : List String) :
    Policy.ofJson (.obj fields) before =
      (readMaxPods (policyLabel (.str ns) (.str name)) (limitField spec "maxPods") >>=
        fun maxPods =>
          readLimit (policyLabel (.str ns) (.str name)) "maxCPU" (limitField spec "maxCPU") >>=
            fun maxCpu =>
              readLimit (policyLabel (.str ns) (.str name)) "maxMemory"
                (limitField spec "maxMemory") >>= fun maxMemory =>
                  pure ⟨.str name, .str ns, maxPods, maxCpu, maxMemory⟩) before := by
  obtain ⟨metadata, hmetadata, hname, hns⟩ := h.metadata
  have hfields : mapping (.obj fields) = .ok fields := rfl
  have hmap : mapping ((field? "metadata" fields).getD (.obj [])) = .ok metadata := by
    rw [hmetadata]
    rfl
  unfold Policy.ofJson
  rw [hfields, Act.bind_of_ok (Act.lift_apply _ _), hmap, Act.bind_of_ok (Act.lift_apply _ _),
    h.mapping_spec, Act.bind_of_ok (Act.lift_apply _ _), hname, hns]
  rfl

/-- **A limit that cannot be used does not touch the others.** Reading a policy fails only at an
infinite number of pods, and then without a warning. Else each limit is a function of the value of
its own field, with the warnings that this value leaves. The number of pods is never negative, and
the amounts can be compared with zero unless their own field is a NaN. -/
theorem Policy.ofJson_isolates {fields spec : List (String × Json)} {name ns : String}
    (h : DeclaresLimits fields name ns spec) (before : List String) :
    ((limitField spec "maxPods").IsInfinite →
      Policy.ofJson (.obj fields) before = (.error .infiniteFraction, before)) ∧
    (¬ (limitField spec "maxPods").IsInfinite → ∃ p pods cpu memory,
      Policy.ofJson (.obj fields) before = (.ok p, before ++ pods ++ cpu ++ memory) ∧
      p = ⟨.str name, .str ns, podLimit (limitField spec "maxPods"),
        amountLimit (limitField spec "maxCPU"), amountLimit (limitField spec "maxMemory")⟩ ∧
      LimitRead (limitField spec "maxPods").IsPodCount (policyLabel (.str ns) (.str name))
        (limitField spec "maxPods") p.maxPods pods ∧
      LimitRead (limitField spec "maxCPU").IsAmount (policyLabel (.str ns) (.str name))
        (limitField spec "maxCPU") p.maxCpu cpu ∧
      LimitRead (limitField spec "maxMemory").IsAmount (policyLabel (.str ns) (.str name))
        (limitField spec "maxMemory") p.maxMemory memory ∧
      0 ≤ p.maxPods ∧
      ((∃ b, Decimal.lt 0 p.maxCpu = .ok b) ↔ ¬ (limitField spec "maxCPU").WritesNaN) ∧
      ((∃ b, Decimal.lt 0 p.maxMemory = .ok b) ↔ ¬ (limitField spec "maxMemory").WritesNaN)) := by
  rw [h.ofJson_eq]
  refine ⟨fun hinf => Act.bind_of_error (readMaxPods_infinite hinf before), fun hinf => ?_⟩
  obtain ⟨pods, hpods, readPods⟩ := readMaxPods_ok (policyLabel (.str ns) (.str name)) hinf before
  obtain ⟨cpu, hcpu, readCpu⟩ := readLimit_ok (policyLabel (.str ns) (.str name)) "maxCPU"
    (limitField spec "maxCPU") (before ++ pods)
  obtain ⟨memory, hmemory, readMemory⟩ := readLimit_ok (policyLabel (.str ns) (.str name))
    "maxMemory" (limitField spec "maxMemory") (before ++ pods ++ cpu)
  refine ⟨_, pods, cpu, memory, ?_, rfl, readPods, readCpu, readMemory, podLimit_nonneg _,
    amountLimit_ordered _, amountLimit_ordered _⟩
  rw [Act.bind_of_ok hpods, Act.bind_of_ok hcpu, Act.bind_of_ok hmemory, Act.pure_apply]

/-- The policy `team-a/quota` with a specification. -/
def quotaWith (spec : List (String × Json)) : List (String × Json) :=
  [("metadata", .obj [("name", .str "quota"), ("namespace", .str "team-a")]), ("spec", .obj spec)]

theorem quotaWith_declares (spec : List (String × Json)) :
    DeclaresLimits (quotaWith spec) "quota" "team-a" spec := ⟨⟨_, rfl, rfl, rfl⟩, .inl rfl⟩

/-- A list for the number of pods leaves the cores and the bytes as they are. -/
theorem Policy.ofJson_isolates_list :
    let spec := [("maxPods", .arr []), ("maxCPU", .str "500m"), ("maxMemory", .str "2Ki")]
    ∃ p text,
      Policy.ofJson (.obj (quotaWith spec)) [] = (.ok p, ["Policy team-a/quota: " ++ text]) ∧
      p.maxPods = 0 ∧ p.maxCpu = .finite 5 (-1) ∧ p.maxMemory = .finite 2048 0 := by
  intro spec
  have hinf : ¬ (limitField spec "maxPods").IsInfinite := by
    rintro ⟨_, _, ⟨⟩, _⟩
  have hcount : ¬ (limitField spec "maxPods").IsPodCount := by
    rintro ⟨_, _, ⟨⟩⟩
  have hset : ¬ (limitField spec "maxPods").IsUnset := by
    rintro (h | h) <;> cases h
  obtain ⟨p, pods, cpu, memory, hread, hp, readPods, readCpu, readMemory, _⟩ :=
    (Policy.ofJson_isolates (quotaWith_declares spec) []).2 hinf
  obtain ⟨hnone, text, htext⟩ := readPods.passed hset hcount
  have hcpu : cpu = [] := readCpu.kept (by decide +kernel)
  have hmemory : memory = [] := readMemory.kept (by decide +kernel)
  refine ⟨p, text, ?_, hnone, ?_, ?_⟩
  · rw [hread, htext, hcpu, hmemory]
    rfl
  · rw [hp]
    decide +kernel
  · rw [hp]
    decide +kernel

/-- An infinite number of pods stops the reading, and the text `NaN` is read as an amount, without a
warning, that cannot be compared with zero. -/
theorem Policy.ofJson_unguarded :
    Policy.ofJson (.obj (quotaWith [("maxPods", .float (1.0 / 0.0))])) [] =
      (.error .infiniteFraction, []) ∧
    ∃ p, Policy.ofJson (.obj (quotaWith [("maxMemory", .str "NaN")])) [] = (.ok p, []) ∧
      Decimal.lt 0 p.maxMemory = .error .invalidOperation :=
  ⟨rfl, _, rfl, rfl⟩

end QuotaWarden
