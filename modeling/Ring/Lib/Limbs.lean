import Mathlib

/-!
# Numbers written as 32-bit limbs

A little-endian list of `UInt32` limbs stands for `∑ lᵢ · 2^(32 i)`
(`limbsVal`). A schoolbook loop over limbs writes each limb as the low 32
bits of a sum and carries the high bits on; `carry_step` is the arithmetic
of one such step, and the bits of a limb list are the bits of its limbs
(`testBit_limbsVal`), which is how a loop that moves bits between limbs is
read back as a number.
-/
namespace Ring.Lib

/-- The number the limbs stand for, least significant limb first. -/
def limbsVal : List UInt32 → Nat
  | [] => 0
  | x :: xs => x.toNat + 2 ^ 32 * limbsVal xs

@[simp] theorem limbsVal_nil : limbsVal [] = 0 := rfl

@[simp] theorem limbsVal_cons (x : UInt32) (xs : List UInt32) :
    limbsVal (x :: xs) = x.toNat + 2 ^ 32 * limbsVal xs := rfl

theorem limbsVal_lt : ∀ l : List UInt32, limbsVal l < 2 ^ (32 * l.length)
  | [] => by simp
  | x :: xs => by
    have hx := x.toNat_lt
    have hxs := limbsVal_lt xs
    rw [limbsVal_cons, List.length_cons, Nat.mul_succ, Nat.pow_add, Nat.mul_comm (2 ^ (32 * xs.length))]
    have : 2 ^ 32 * limbsVal xs + 2 ^ 32 ≤ 2 ^ 32 * 2 ^ (32 * xs.length) := by
      rw [← Nat.mul_succ]
      exact Nat.mul_le_mul_left _ hxs
    omega

theorem limbsVal_append : ∀ l₁ l₂ : List UInt32,
    limbsVal (l₁ ++ l₂) = limbsVal l₁ + 2 ^ (32 * l₁.length) * limbsVal l₂
  | [], l₂ => by simp
  | x :: xs, l₂ => by
    rw [List.cons_append, limbsVal_cons, limbsVal_append xs l₂, limbsVal_cons, List.length_cons, Nat.mul_succ,
      Nat.pow_add]
    ring

theorem limbsVal_replicate_zero (n : Nat) : limbsVal (List.replicate n 0) = 0 := by
  induction n with
  | zero => rfl
  | succ n ih => simp [List.replicate_succ, ih]

theorem limbsVal_eq_headD_tail (l : List UInt32) : limbsVal l = (l.headD 0).toNat + 2 ^ 32 * limbsVal l.tail := by
  cases l <;> simp

/-- Limb `j` is the digit that `take (j + 1)` adds to `take j`. -/
theorem limbsVal_take_succ (l : List UInt32) (j : Nat) :
    limbsVal (l.take (j + 1)) = limbsVal (l.take j) + 2 ^ (32 * j) * (l.getD j 0).toNat := by
  rw [List.take_add_one, limbsVal_append, List.getD_eq_getElem?_getD]
  cases h : l[j]? with
  | none => simp
  | some x =>
    have hj : j < l.length := (List.getElem?_eq_some_iff.mp h).1
    simp [List.length_take_of_le hj.le]

theorem getD_modify {f : UInt32 → UInt32} (l : List UInt32) (i j : Nat) :
    (l.modify i f).getD j 0 = if i = j ∧ j < l.length then f (l.getD j 0) else l.getD j 0 := by
  rw [List.getD_eq_getElem?_getD, List.getElem?_modify, List.getD_eq_getElem?_getD]
  by_cases hj : j < l.length
  · rw [List.getElem?_eq_getElem hj]
    by_cases hij : i = j <;> simp [hij, hj]
  · rw [List.getElem?_eq_none (by omega)]
    simp [hj]

/-! ## 64-bit carries -/

/-- The low half of a 64-bit word, as a limb. -/
theorem low32 (n : UInt64) : ((n &&& 0xffffffff).toUInt32).toNat = n.toNat % 2 ^ 32 := by
  rw [UInt64.toNat_toUInt32, UInt64.toNat_and]
  have : (0xffffffff : UInt64).toNat = 2 ^ 32 - 1 := rfl
  rw [this, Nat.and_two_pow_sub_one_eq_mod, Nat.mod_mod]

/-- The high half of a 64-bit word, as the next carry. -/
theorem shr32 (n : UInt64) : (n >>> 32).toNat = n.toNat / 2 ^ 32 := by
  rw [UInt64.toNat_shiftRight]
  simp [Nat.shiftRight_eq_div_pow]

/-- A sum of words that stays below `2^64` is computed exactly. -/
theorem toNat_add_of_lt {a b : UInt64} (h : a.toNat + b.toNat < 2 ^ 64) : (a + b).toNat = a.toNat + b.toNat := by
  rw [UInt64.toNat_add, Nat.mod_eq_of_lt h]

/-- The product of two limbs as a 64-bit word is exact. -/
theorem toNat_mul_limbs (x y : UInt32) : (x.toUInt64 * y.toUInt64).toNat = x.toNat * y.toNat := by
  have hx := x.toNat_lt
  have hy := y.toNat_lt
  rw [UInt64.toNat_mul, UInt32.toNat_toUInt64, UInt32.toNat_toUInt64, Nat.mod_eq_of_lt]
  calc x.toNat * y.toNat < 2 ^ 32 * 2 ^ 32 := Nat.mul_lt_mul'' hx hy
    _ = 2 ^ 64 := by norm_num

/-- One step of a carry chain: the low 32 bits of `n` as the limb, the rest
carried into the limbs above. -/
theorem carry_step (n R L : Nat) :
    n % 2 ^ 32 + 2 ^ 32 * ((n / 2 ^ 32 + R) % 2 ^ (32 * L)) = (n + 2 ^ 32 * R) % 2 ^ (32 * (L + 1)) := by
  rw [Nat.mul_succ, Nat.add_comm (32 * L) 32, Nat.pow_add, Nat.mod_mul, Nat.add_mul_mod_self_left,
    Nat.add_mul_div_left _ _ (by norm_num)]

/-- Bit `m` of a limb list is bit `m % 32` of limb `m / 32`. -/
theorem testBit_limbsVal : ∀ (l : List UInt32) (m : Nat),
    (limbsVal l).testBit m = (l.getD (m / 32) 0).toNat.testBit (m % 32)
  | [], m => by simp
  | x :: xs, m => by
    have hx := x.toNat_lt
    rw [limbsVal_cons]
    by_cases hm : m < 32
    · rw [Nat.div_eq_of_lt hm, Nat.mod_eq_of_lt hm, List.getD_cons_zero, Nat.add_comm,
        Nat.testBit_two_pow_mul_add _ hx, if_pos hm]
    · obtain ⟨k, rfl⟩ : ∃ k, m = k + 32 := ⟨m - 32, by omega⟩
      rw [Nat.add_comm, Nat.testBit_two_pow_mul_add _ hx, if_neg (by omega), Nat.add_sub_cancel,
        testBit_limbsVal xs k, show (k + 32) / 32 = k / 32 + 1 by omega, show (k + 32) % 32 = k % 32 by omega,
        List.getD_cons_succ]

/-- The low half of `n` as a limb, in front of limbs that hold the high half
plus `R`. -/
theorem limbsVal_low32_cons (n : UInt64) (l : List UInt32) (R : Nat)
    (hl : limbsVal l = (n.toNat / 2 ^ 32 + R) % 2 ^ (32 * l.length)) :
    limbsVal ((n &&& 0xffffffff).toUInt32 :: l) = (n.toNat + 2 ^ 32 * R) % 2 ^ (32 * (l.length + 1)) := by
  rw [limbsVal_cons, low32, hl, carry_step]

/-! ## Bits of shifted limbs -/

theorem toUInt32_mod_32 {s : Nat} (h : s < 32) : s.toUInt32.toNat % 32 = s := by
  rw [Nat.toUInt32_eq, UInt32.toNat_ofNat', Nat.mod_eq_of_lt (show s < 2 ^ 32 by omega), Nat.mod_eq_of_lt h]

theorem testBit_limb_of_le (x : UInt32) {b : Nat} (hb : 32 ≤ b) : x.toNat.testBit b = false :=
  Nat.testBit_eq_false_of_lt (x.toNat_lt.trans_le (Nat.pow_le_pow_right (by norm_num) hb))

theorem testBit_limb_shiftLeft (x : UInt32) {s b : Nat} (hs : s < 32) (hb : b < 32) :
    (x <<< s.toUInt32).toNat.testBit b = (decide (s ≤ b) && x.toNat.testBit (b - s)) := by
  rw [UInt32.toNat_shiftLeft, toUInt32_mod_32 hs, Nat.testBit_mod_two_pow, Nat.testBit_shiftLeft]
  simp [hb]

theorem testBit_limb_shiftRight (x : UInt32) {s : Nat} (hs : s < 32) (b : Nat) :
    (x >>> s.toUInt32).toNat.testBit b = x.toNat.testBit (s + b) := by
  rw [UInt32.toNat_shiftRight, toUInt32_mod_32 hs, Nat.testBit_shiftRight]

/-- A digit block below a sum taken modulo the block above it. -/
theorem add_two_pow_mul_mod {t p q : Nat} (ht : t < 2 ^ p) (X : Nat) :
    t + 2 ^ p * (X % 2 ^ q) = (t + 2 ^ p * X) % 2 ^ (p + q) := by
  rw [Nat.pow_add, Nat.mod_mul, Nat.add_mul_mod_self_left, Nat.mod_eq_of_lt ht,
    Nat.add_mul_div_left _ _ (Nat.two_pow_pos p), Nat.div_eq_of_lt ht, Nat.zero_add]

/-- A loop over a list whose every round keeps the length of its list. -/
theorem length_foldl {α β : Type} {f : List α → β → List α} (hf : ∀ l b, (f l b).length = l.length) :
    ∀ (bs : List β) (l : List α), (bs.foldl f l).length = l.length
  | [], _ => rfl
  | b :: bs, l => by rw [List.foldl_cons, length_foldl hf bs, hf]

end Ring.Lib
