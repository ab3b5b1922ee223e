import QuotaWarden.Projection
import Mathlib.Data.List.Forall2

/-! # The texts of amounts

Counts, cores and bytes are written in ASCII, and so is the message of a decision
(`Usage.decide_ascii`). A text in ASCII holds no unpaired surrogate (`Text.Ascii.hasSurrogate`), so
it can be sent.

`Ends` says how a reading or a writing may come out: which values it may give, and which faults. -/

namespace QuotaWarden

open Number

/-! ### How a value comes out -/

section

variable {ε α β : Type}

theorem bind_eq_ok {x : Except ε α} {f : α → Except ε β} {b : β} :
    (x >>= f) = .ok b ↔ ∃ a, x = .ok a ∧ f a = .ok b := by
  cases x with
  | ok a => exact ⟨fun h => ⟨a, rfl, h⟩, fun ⟨_, ha, h⟩ => by cases ha; exact h⟩
  | error e => exact ⟨fun h => (nomatch h), fun ⟨_, ha, _⟩ => (nomatch ha)⟩

/-- `mapM` succeeds exactly with the values of its members, in their order. -/
theorem mapM_eq_ok {f : α → Except ε β} {xs : List α} {ys : List β} :
    xs.mapM f = .ok ys ↔ List.Forall₂ (fun x y => f x = .ok y) xs ys := by
  induction xs generalizing ys with
  | nil => simp [pure, Except.pure, eq_comm]
  | cons x xs ih =>
      simp only [List.mapM_cons, bind_eq_ok, List.forall₂_cons_left_iff, ih]
      constructor
      · rintro ⟨y, hy, rest, hrest, h⟩
        exact ⟨y, rest, hy, hrest, (Except.ok.inj h).symm⟩
      · rintro ⟨y, rest, hy, hrest, rfl⟩
        exact ⟨y, hy, rest, hrest, rfl⟩

theorem exists_partner {R : α → β → Prop} {xs : List α} {ys : List β} (h : List.Forall₂ R xs ys)
    {x : α} (hx : x ∈ xs) : ∃ y ∈ ys, R x y := by
  induction h with
  | nil => cases hx
  | cons hr _ ih =>
      rcases List.mem_cons.mp hx with rfl | hx
      · exact ⟨_, List.mem_cons_self, hr⟩
      · obtain ⟨y, hy, hr⟩ := ih hx
        exact ⟨y, List.mem_cons_of_mem _ hy, hr⟩

theorem mem_of_mapM_ok {f : α → Except ε β} {xs : List α} {ys : List β} (h : xs.mapM f = .ok ys)
    {y : β} (hy : y ∈ ys) : ∃ x ∈ xs, f x = .ok y := exists_partner (mapM_eq_ok.mp h).flip hy

theorem eq_ok_of_toOption {x : Except ε α} {a : α} (h : x.toOption = some a) : x = .ok a := by
  cases x with
  | ok b => exact congrArg Except.ok (Option.some.inj h)
  | error e => exact nomatch h

end

/-- An outcome is one of some values, or one of some faults. -/
def Ends {α : Type} (P : α → Prop) (Q : Fault → Prop) : Except Fault α → Prop
  | .ok x => P x
  | .error f => Q f

namespace Ends

variable {α β : Type} {P : α → Prop} {P' : β → Prop} {Q : Fault → Prop}

theorem any (x : Except Fault α) : Ends (fun _ => True) (fun _ => True) x := by
  cases x <;> exact trivial

theorem mono {P₁ : α → Prop} {Q₁ : Fault → Prop} {x : Except Fault α} (h : Ends P Q x)
    (hp : ∀ a, P a → P₁ a) (hq : ∀ f, Q f → Q₁ f) : Ends P₁ Q₁ x := by
  cases x with
  | ok a => exact hp a h
  | error f => exact hq f h

theorem known {x : Except Fault α} (h : Ends P Q x) : Ends (fun a => x = .ok a) Q x := by
  cases x with
  | ok a => exact rfl
  | error f => exact h

theorem bind {x : Except Fault α} {f : α → Except Fault β} (h : Ends P Q x)
    (hf : ∀ a, P a → Ends P' Q (f a)) : Ends P' Q (x >>= f) := by
  cases x with
  | ok a => exact hf a h
  | error e => exact h

theorem mapM {f : α → Except Fault β} (h : ∀ x, Ends (fun _ => True) Q (f x)) (xs : List α) :
    Ends (fun _ => True) Q (xs.mapM f) := by
  induction xs with
  | nil => exact trivial
  | cons x r ih =>
      rw [List.mapM_cons]
      exact bind (h x) fun _ _ => bind ih fun _ _ => trivial

/-- What one step keeps, `foldlM` keeps. -/
theorem foldlM_keeps {f : β → α → Except Fault β} {xs : List α}
    (h : ∀ x ∈ xs, ∀ y, P' y → Ends P' Q (f y x)) {y : β} (hy : P' y) :
    Ends P' Q (xs.foldlM f y) := by
  induction xs generalizing y with
  | nil => exact hy
  | cons x r ih =>
      rw [List.forall_mem_cons] at h
      rw [List.foldlM_cons]
      exact bind (h.1 y hy) fun z hz => ih h.2 hz

theorem foldlM {f : β → α → Except Fault β} (h : ∀ y x, Ends (fun _ => True) Q (f y x))
    (xs : List α) (y : β) : Ends (fun _ => True) Q (xs.foldlM f y) :=
  foldlM_keeps (fun x _ y _ => h y x) trivial

end Ends

/-! ### Texts in ASCII -/

/-- All characters of a text are in ASCII. -/
def Text.Ascii (s : String) : Prop := ∀ c ∈ s.toList, c.toNat < 128

namespace Text

instance (s : String) : Decidable (Ascii s) :=
  List.decidableBAll (fun c : Char => c.toNat < 128) s.toList

theorem Ascii.append {s t : String} (hs : Ascii s) (ht : Ascii t) : Ascii (s ++ t) := by
  intro c hc
  rw [String.toList_append] at hc
  exact (List.mem_append.mp hc).elim (hs c) (ht c)

theorem uncarry_ascii {cs : List Char} (h : ∀ c ∈ cs, c.toNat < 128) :
    uncarry cs = cs.map Char.toNat := by
  induction cs with
  | nil => rfl
  | cons c r ih =>
      rw [List.forall_mem_cons] at h
      have unmarked : c ≠ marker := by
        rintro rfl
        exact absurd h.1 (by decide)
      cases r with
      | nil => rfl
      | cons d r => rw [uncarry, if_neg unmarked, ih h.2, List.map_cons (l := d :: r)]

theorem Ascii.hasSurrogate {s : String} (h : Ascii s) : hasSurrogate s = false := by
  unfold Text.hasSurrogate toPoints
  rw [uncarry_ascii h, List.any_eq_false]
  intro n hn
  obtain ⟨c, hc, rfl⟩ := List.mem_map.mp hn
  have := h c hc
  simp only [isSurrogate, Bool.and_eq_true, decide_eq_true_iff]
  omega

theorem ascii_natural (n : Nat) : Ascii (toString n) := by
  intro c hc
  rw [Nat.toString_eq_ofList_toDigits, String.toList_ofList] at hc
  have digit : c.isDigit = true := Nat.isDigit_of_mem_toDigits (by decide) (by decide) hc
  simp only [Char.isDigit, Bool.and_eq_true, decide_eq_true_iff] at digit
  have le_nine : c.val.toNat ≤ 57 := UInt32.le_iff_toNat_le.mp digit.2
  exact Nat.lt_of_le_of_lt le_nine (by decide)

theorem ascii_integer (n : Int) : Ascii (toString n) := by
  cases n with
  | ofNat n => exact ascii_natural n
  | negSucc n => exact Ascii.append (s := "-") (by decide +kernel) (ascii_natural (n + 1))

end Text

/-! ### What is written -/

open Text

/-- A writing fails or gives a text in ASCII. -/
abbrev WritesAscii (x : Except Fault String) : Prop := Ends Ascii (fun _ => True) x

theorem writeInteger?_ascii {n : Int} {s : String} (h : writeInteger? n = some s) : Ascii s := by
  unfold writeInteger? at h
  split at h
  · rw [← Option.some.inj h]
    exact ascii_integer n
  · exact absurd h (by simp)

theorem writeCount_ascii (n : Int) : WritesAscii (writeCount n) := by
  unfold writeCount
  split
  · next h => exact writeInteger?_ascii h
  · exact trivial

namespace Quantity

theorem writeWhole_ascii (c e : Int) : WritesAscii (writeWhole c e) := by
  unfold writeWhole
  split
  · exact trivial
  · split
    · next h => exact writeInteger?_ascii h
    · exact trivial

theorem writeWhole_unit (c e : Int) {unit : String} (h : Ascii unit) :
    WritesAscii (do return (← writeWhole c e) ++ unit) :=
  (writeWhole_ascii c e).bind fun _ hs => hs.append h

theorem writeCpu_ascii (x : Decimal) : WritesAscii (writeCpu x) := by
  unfold writeCpu
  split
  · split
    · exact writeWhole_ascii _ _
    · refine (Ends.any _).bind fun milli _ => ?_
      split
      · split
        · exact writeWhole_unit _ _ (by decide +kernel)
        · refine (Ends.any _).bind fun micro _ => ?_
          split
          · exact writeWhole_unit _ _ (by decide +kernel)
          · exact trivial
      · exact trivial
  · exact trivial

theorem memoryUnits_ascii (p : String × Nat → Bool) :
    Ascii ((memoryUnits.find? p).getD ("", 1)).1 := by
  have units : ∀ u ∈ memoryUnits, Ascii u.1 := by decide +kernel
  cases hu : memoryUnits.find? p with
  | none => exact show Ascii "" by decide +kernel
  | some u => exact units u (List.mem_of_find?_eq_some hu)

theorem writeBytes_ascii (n : Int) : WritesAscii (writeBytes n) := by
  unfold writeBytes
  split
  · exact show Ascii "0" by decide +kernel
  · dsimp only
    split
    · next h => exact (writeInteger?_ascii h).append (memoryUnits_ascii _)
    · exact trivial

theorem writeMemory_ascii (x : Decimal) : WritesAscii (writeMemory x) := by
  unfold writeMemory
  split
  · split
    split
    · exact writeBytes_ascii _
    · exact trivial
  · exact trivial

end Quantity

theorem Usage.decide_ascii (u : Usage) (p : Policy) :
    Ends (fun d : Decision => Ascii d.message) (fun _ => True) (u.decide p) := by
  have denied : ∀ {amount limit : Except Fault String} (r : Reason) {what : String}, Ascii what →
      WritesAscii amount → WritesAscii limit →
      Ends (fun d : Decision => Ascii d.message) (fun _ => True)
        (do return Decision.deny r what (← amount) (← limit)) := by
    intro amount limit r what hw ha hl
    refine ha.bind fun a ha => hl.bind fun l hl => ?_
    have front : Ascii (what ++ " exceeded: " ++ a) := (hw.append (by decide +kernel)).append ha
    exact (front.append (by decide +kernel)).append hl
  unfold decide
  split
  · exact denied .pods (by decide +kernel) (writeCount_ascii _) (writeCount_ascii _)
  · refine (Ends.any _).bind fun cpu _ => ?_
    split
    · exact denied .cpu (by decide +kernel) (Quantity.writeCpu_ascii _) (Quantity.writeCpu_ascii _)
    · refine (Ends.any _).bind fun memory _ => ?_
      split
      · exact denied .memory (by decide +kernel) (Quantity.writeMemory_ascii _)
          (Quantity.writeMemory_ascii _)
      · exact show Ascii "" by decide +kernel

end QuotaWarden
