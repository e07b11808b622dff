import Mathlib

/-!
# Fixed-width words as natural numbers

`BitVec.ofNat w n` holds `n` exactly when `n < 2^w`. The lemmas below turn
the word operations a retarget uses (add, divide, compare and cap) into the
same operations on `ℕ` under that side condition, so a computation over
words can be compared with the same formula over unbounded integers.
-/
namespace Ring.Lib.Word

variable {w : Nat}

theorem toNat_ofNat_of_lt {n : Nat} (h : n < 2 ^ w) : (BitVec.ofNat w n).toNat = n := by
  rw [BitVec.toNat_ofNat, Nat.mod_eq_of_lt h]

/-- Adding a word to `ofNat a` adds its value (modulo `2^w`, as `ofNat` does). -/
theorem ofNat_add_toNat (a : Nat) (x : BitVec w) : BitVec.ofNat w a + x = BitVec.ofNat w (a + x.toNat) := by
  rw [BitVec.ofNat_add, BitVec.ofNat_toNat, BitVec.setWidth_eq]

theorem ofNat_div_ofNat {a b : Nat} (ha : a < 2 ^ w) (hb : b < 2 ^ w) :
    BitVec.ofNat w a / BitVec.ofNat w b = BitVec.ofNat w (a / b) := by
  apply BitVec.eq_of_toNat_eq
  rw [BitVec.toNat_udiv, toNat_ofNat_of_lt ha, toNat_ofNat_of_lt hb,
    toNat_ofNat_of_lt (Nat.lt_of_le_of_lt (Nat.div_le_self a b) ha)]

/-- `x / d`, with `d` a word that holds its value, is `x.toNat / d`. -/
theorem div_ofNat {d : Nat} (x : BitVec w) (hd : d < 2 ^ w) : x / BitVec.ofNat w d = BitVec.ofNat w (x.toNat / d) := by
  apply BitVec.eq_of_toNat_eq
  rw [BitVec.toNat_udiv, toNat_ofNat_of_lt hd,
    toNat_ofNat_of_lt (Nat.lt_of_le_of_lt (Nat.div_le_self _ _) x.isLt)]

theorem ofNat_ne_zero {n : Nat} (h0 : 0 < n) (h : n < 2 ^ w) : BitVec.ofNat w n ≠ 0 := by
  intro he
  have := congrArg BitVec.toNat he
  rw [toNat_ofNat_of_lt h] at this
  simp at this
  omega

/-- The cap `if (x > limit) x = limit` is `min`. -/
theorem cap_eq_min {a : Nat} (ha : a < 2 ^ w) (l : BitVec w) :
    (if BitVec.ofNat w a > l then l else BitVec.ofNat w a) = BitVec.ofNat w (min l.toNat a) := by
  simp only [gt_iff_lt, BitVec.lt_def, toNat_ofNat_of_lt ha]
  split_ifs with h
  · rw [Nat.min_eq_left (Nat.le_of_lt h), BitVec.ofNat_toNat, BitVec.setWidth_eq]
  · rw [Nat.min_eq_right (by omega)]

end Ring.Lib.Word
