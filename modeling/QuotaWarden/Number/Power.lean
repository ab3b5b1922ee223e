/-!
# Powers of ten and two

Numbers are scaled by powers of ten and of two.

* `tenTo` and `twoTo` are the powers; `tenTo_add`, `tenTo_le_iff` and `tenTo_lt_iff` are how they
  grow. -/

namespace QuotaWarden.Number

def tenTo (k : Nat) : Nat := Nat.pow 10 k

def twoTo (k : Nat) : Nat := Nat.pow 2 k

@[simp] theorem tenTo_zero : tenTo 0 = 1 := rfl

theorem tenTo_succ (k : Nat) : tenTo (k + 1) = tenTo k * 10 := rfl

theorem tenTo_pos (k : Nat) : 0 < tenTo k := Nat.pow_pos (by decide)

theorem tenTo_add (j k : Nat) : tenTo (j + k) = tenTo j * tenTo k := Nat.pow_add 10 j k

theorem tenTo_lt_iff {j k : Nat} : tenTo j < tenTo k ↔ j < k :=
  Nat.pow_lt_pow_iff_right (by decide)

theorem tenTo_le_iff {j k : Nat} : tenTo j ≤ tenTo k ↔ j ≤ k :=
  Nat.pow_le_pow_iff_right (by decide)

end QuotaWarden.Number
