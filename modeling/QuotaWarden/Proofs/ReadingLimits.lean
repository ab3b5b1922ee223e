import QuotaWarden.Json.Reader

/-! # What is read of a JSON text does not depend on the limits

`ReadLimits` bounds how deep a text may nest and how long its integers may be. Two readings of a
text, each under limits of its own, may stop at different places, but what they give if they come
to an end is the same (`readBytes_same`).

* `SameReading` is the relation between two such readings; `andThen` and `deeper` say that what is
  done after them, and one level further down, keeps it.
* `SameReadings` puts the readings of values, items and fields together, as they call each other. -/

namespace QuotaWarden

namespace Json

/-- Two readings that both come to an end give the same. -/
def SameReading {α : Type} (x y : Except ReadFailure α) : Prop :=
  ∀ a b, x = .ok a → y = .ok b → a = b

namespace SameReading

variable {α : Type} {x y : Except ReadFailure α}

theorem refl (x : Except ReadFailure α) : SameReading x x := fun _ _ ha hb =>
  Except.ok.inj (ha.symm.trans hb)

theorem failed {e : ReadFailure} : SameReading (.error e) y := fun _ _ ha _ => nomatch ha

theorem fails {e : ReadFailure} : SameReading x (.error e) := fun _ _ _ hb => nomatch hb

/-- After `SameReading x y`, only faults and equal values have to be looked at. -/
@[elab_as_elim]
theorem andThen {motive : Except ReadFailure α → Except ReadFailure α → Prop}
    (h : SameReading x y) (left : ∀ e y, motive (.error e) y) (right : ∀ e x, motive x (.error e))
    (both : ∀ a, motive (.ok a) (.ok a)) : motive x y := by
  cases x with
  | error e => exact left e y
  | ok a =>
      cases y with
      | error e => exact right e _
      | ok b =>
          obtain rfl := h a b rfl rfl
          exact both a

theorem deeper {f g : Nat → Except ReadFailure α} (h : ∀ m n, SameReading (f m) (g n))
    (m n : Nat) :
    SameReading (match m with | 0 => .error .tooDeep | m + 1 => f m)
      (match n with | 0 => .error .tooDeep | n + 1 => g n) := by
  cases m with
  | zero => exact failed
  | succ m =>
      cases n with
      | zero => exact fails
      | succ n => exact h m n

end SameReading

open SameReading

theorem readNumber_same (l l' : ReadLimits) (negative : Bool) (cs : List Nat) :
    SameReading (readNumber l negative cs) (readNumber l' negative cs) := by
  unfold readNumber
  cases readWhole? cs with
  | none => exact failed
  | some p =>
      dsimp only
      split
      · split
        · split
          · exact refl _
          · exact fails
        · exact failed
      · exact refl _

theorem readLeaf_same (l l' : ReadLimits) (depth depth' : Nat) (cs : List Nat) :
    SameReading (readLeaf l depth cs) (readLeaf l' depth' cs) := by
  unfold readLeaf
  cases readWord? cs with
  | some p => exact refl _
  | none =>
      dsimp only
      split
      · cases readText? _ with
        | some p => exact refl _
        | none => exact failed
      · exact readNumber_same l l' true _
      · exact readNumber_same l l' false _

/-- Readings with one fuel, under the limits `l` and `l'` and wherever in the nesting, are the
same. -/
structure SameReadings (l l' : ReadLimits) (fuel : Nat) : Prop where
  value : ∀ depth depth' cs,
    SameReading (readValue l fuel depth cs) (readValue l' fuel depth' cs)
  items : ∀ depth depth' cs,
    SameReading (readItems l fuel depth cs) (readItems l' fuel depth' cs)
  fields : ∀ depth depth' cs before,
    SameReading (readFields l fuel depth cs before) (readFields l' fuel depth' cs before)

section

variable {l l' : ReadLimits} {fuel : Nat} (h : SameReadings l l' fuel) (depth depth' : Nat)
  (cs : List Nat)

include h

theorem readValue_same :
    SameReading (readValue l (fuel + 1) depth cs) (readValue l' (fuel + 1) depth' cs) := by
  by_cases list : ∃ r, cs = 91 :: r
  · obtain ⟨r, rfl⟩ := list
    simp only [readValue]
    refine deeper (fun m n => ?_) depth depth'
    split
    · exact refl _
    · have items := h.items m n (skipBlanks r)
      refine items.andThen (fun _ _ => failed) (fun _ _ => fails) fun p => ?_
      exact refl _
  by_cases object : ∃ r, cs = 123 :: r
  · obtain ⟨r, rfl⟩ := object
    simp only [readValue]
    refine deeper (fun m n => ?_) depth depth'
    split
    · exact refl _
    · have fields := h.fields m n (skipBlanks r) []
      refine fields.andThen (fun _ _ => failed) (fun _ _ => fails) fun p => ?_
      exact refl _
  · have leaf : ∀ l depth, readValue l (fuel + 1) depth cs = readLeaf l depth cs := by
      intro l depth
      rw [readValue]
      · exact fun r hr => list ⟨r, hr⟩
      · exact fun r hr => object ⟨r, hr⟩
    rw [leaf, leaf]
    exact readLeaf_same l l' depth depth' cs

theorem readItems_same :
    SameReading (readItems l (fuel + 1) depth cs) (readItems l' (fuel + 1) depth' cs) := by
  rw [readItems, readItems]
  have value := h.value depth depth' cs
  refine value.andThen (fun _ _ => failed) (fun _ _ => fails) fun ⟨v, r⟩ => ?_
  dsimp only
  split
  · exact refl _
  · next r _ =>
      have items := h.items depth depth' (skipBlanks r)
      refine items.andThen (fun _ _ => failed) (fun _ _ => fails) fun p => ?_
      exact refl _
  · exact failed

theorem readFields_same (before : List (String × Json)) :
    SameReading (readFields l (fuel + 1) depth cs before)
      (readFields l' (fuel + 1) depth' cs before) := by
  by_cases name : ∃ r, cs = 34 :: r
  · obtain ⟨r, rfl⟩ := name
    simp only [readFields]
    split
    · exact failed
    · split
      · next r _ =>
          have value := h.value depth depth' (skipBlanks r)
          refine value.andThen (fun _ _ => failed) (fun _ _ => fails) fun ⟨v, r⟩ => ?_
          dsimp only
          split
          · exact refl _
          · exact h.fields depth depth' _ _
          · exact failed
      · exact failed
  · rw [readFields]
    · exact failed
    · exact fun r hr => name ⟨r, hr⟩

end

/-- `SameReading` of values, items and fields at once, by induction on the fuel. -/
theorem readings_same (l l' : ReadLimits) (fuel : Nat) : SameReadings l l' fuel := by
  induction fuel with
  | zero =>
      constructor
      · intro depth depth' cs
        rw [readValue]
        exact failed
      · intro depth depth' cs
        rw [readItems]
        exact failed
      · intro depth depth' cs before
        rw [readFields]
        exact failed
  | succ fuel ih => exact ⟨readValue_same ih, readItems_same ih, readFields_same ih⟩

/-- `ReadLimits` decide whether bytes are read, not what is read of them. -/
theorem readBytes_same (l l' : ReadLimits) (bytes : List UInt8) :
    SameReading (readBytes l bytes) (readBytes l' bytes) := by
  unfold readBytes read
  split
  · next points _ =>
      have value := (readings_same l l' (2 * points.length + 2)).value l.depth l'.depth
        (skipBlanks points)
      refine value.andThen (fun _ _ => failed) (fun _ _ => fails) fun p => ?_
      exact refl _
  · exact failed

end Json

end QuotaWarden
