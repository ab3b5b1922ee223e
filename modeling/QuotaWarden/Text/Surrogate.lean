/-!
# Texts with unpaired surrogates

A text may hold a code point that is no character: half of a surrogate pair. Such a text is carried
in a `String` by an escape. The first private character, `U+E000`, marks an escape: after it stands
the last code point, for the marker itself, or a private character that names the surrogate. A text
without surrogates and without the marker is carried as it is. The marker stands next above the
surrogates, so that carried texts are ordered as their code points are.

* `ofPoints` carries a list of code points in a string.
* `toPoints` reads the code points back (`toPoints_ofPoints`).
-/

namespace QuotaWarden.Text

/-- Whether a code point is half of a surrogate pair. -/
def isSurrogate (n : Nat) : Bool := 0xD800 ≤ n && n ≤ 0xDFFF

/-- The character that opens an escape. -/
def marker : Char := Char.ofNat 0xE000

/-- The character that stands for the marker itself in an escape. -/
def selfMark : Char := Char.ofNat 0x10FFFF

/-- The characters that carry one code point. -/
def carry (n : Nat) : List Char :=
  if isSurrogate n then [marker, Char.ofNat (0xF0000 + (n - 0xD800))]
  else if n = 0xE000 then [marker, selfMark]
  else [Char.ofNat n]

/-- Carries code points in a string. -/
def ofPoints (ns : List Nat) : String := String.ofList (ns.flatMap carry)

/-- Reads carried characters back into code points. -/
def uncarry : List Char → List Nat
  | [] => []
  | c :: d :: r =>
    if c = marker then
      (if d = selfMark then 0xE000 else 0xD800 + (d.toNat - 0xF0000)) :: uncarry r
    else c.toNat :: uncarry (d :: r)
  | [c] => [c.toNat]

/-- The code points of a carried text. -/
def toPoints (s : String) : List Nat := uncarry s.toList

/-- Whether a carried text holds an unpaired surrogate, so that it has no UTF-8 form. -/
def hasSurrogate (s : String) : Bool := (toPoints s).any isSurrogate

/-- A code point: at most `0x10FFFF`. -/
def IsPoint (n : Nat) : Prop := n ≤ 0x10FFFF

theorem toNat_ofNat_of_point {n : Nat} (h : IsPoint n) (hs : isSurrogate n = false) :
    (Char.ofNat n).toNat = n := by
  have hv : n.isValidChar := by
    simp only [isSurrogate, Bool.and_eq_false_iff, decide_eq_false_iff_not] at hs
    simp only [IsPoint] at h
    simp only [Nat.isValidChar]
    omega
  unfold Char.ofNat
  rw [dif_pos hv]
  rfl

theorem ofNat_eq_ofNat_iff {m n : Nat} (hm : IsPoint m) (hs : isSurrogate m = false)
    (hn : IsPoint n) (ht : isSurrogate n = false) : Char.ofNat m = Char.ofNat n ↔ m = n := by
  constructor
  · intro e
    have := congrArg Char.toNat e
    rwa [toNat_ofNat_of_point hm hs, toNat_ofNat_of_point hn ht] at this
  · rintro rfl
    rfl

theorem uncarry_append_carry {n : Nat} (h : IsPoint n) (r : List Char) :
    uncarry (carry n ++ r) = n :: uncarry r := by
  unfold carry
  by_cases hs : isSurrogate n = true
  · have hr : 0xD800 ≤ n ∧ n ≤ 0xDFFF := by simpa [isSurrogate] using hs
    have hp : IsPoint (0xF0000 + (n - 0xD800)) := by simp only [IsPoint]; omega
    have hq : isSurrogate (0xF0000 + (n - 0xD800)) = false := by simp [isSurrogate]; omega
    have hm : Char.ofNat (0xF0000 + (n - 0xD800)) ≠ selfMark := by
      rw [Ne, selfMark, ofNat_eq_ofNat_iff hp hq (Nat.le_refl _) rfl]
      omega
    simp only [hs, if_true, List.cons_append, List.nil_append, uncarry]
    rw [if_neg hm, toNat_ofNat_of_point hp hq]
    simp only [List.cons.injEq, and_true]
    omega
  · have hs' : isSurrogate n = false := by simpa using hs
    by_cases hn : n = 0xE000
    · subst hn
      simp [isSurrogate, uncarry]
    · simp only [hs', hn, if_false, Bool.false_eq_true, List.cons_append, List.nil_append]
      have hm : Char.ofNat n ≠ marker := by
        rwa [Ne, marker, ofNat_eq_ofNat_iff h hs' (by simp [IsPoint]) rfl]
      cases r with
      | nil => simp [uncarry, toNat_ofNat_of_point h hs']
      | cons d r => simp [uncarry, hm, toNat_ofNat_of_point h hs']

/-- Carrying loses nothing. -/
theorem toPoints_ofPoints {ns : List Nat} (h : ∀ n ∈ ns, IsPoint n) :
    toPoints (ofPoints ns) = ns := by
  simp only [toPoints, ofPoints, String.toList_ofList]
  induction ns with
  | nil => rfl
  | cons n ns ih =>
    rw [List.flatMap_cons, uncarry_append_carry (h n (by simp)),
      ih fun m hm => h m (by simp [hm])]

end QuotaWarden.Text
