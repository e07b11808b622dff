import Mathlib
import Ring.Arith.Uint256

/-!
# The compact target encoding (`nBits`)

`arith_uint256::SetCompact` and `GetCompact` (src/arith_uint256.cpp:191-239)
translate between a 256-bit target and the 32-bit form stored in a header:
an exponent byte `nSize` (the length in bytes) over a 23-bit mantissa, bit
`0x00800000` a sign. `SetCompact` also reports whether the form was negative
or overflowed 256 bits, which `CheckProofOfWork` and `GetBlockProof` test.

`bits` (`base_uint::bits`) is the position of the highest set bit plus one.

Results:
* `getCompact_false`: `GetCompact` writes the value aligned under bit 23 as
  mantissa and `compactSize` of its bit length as exponent.
* `setCompact_ofNat`: `SetCompact` of such a form moves the mantissa back,
  with neither flag.
* `getCompact_rounds_down`: `GetCompact` is a sound rounding: its form decodes
  without flags to a value at most the original, short of it only below the
  top sixteen bits, and with the same form.
-/
namespace Ring.Arith

/-- The number of bits of `x`, scanning at most `k` of them. -/
def bitLength : Nat → Nat → Nat
  | 0, _ => 0
  | k + 1, x => if x = 0 then 0 else bitLength k (x / 2) + 1

/-- `base_uint::bits`: one more than the index of the highest set bit, `0`
for zero.
mirrors src/arith_uint256.cpp:207-220 -/
def bits (a : ArithUint256) : Nat := bitLength 256 a.toNat

/-- `arith_uint256::SetCompact`: the value, then `*pfNegative` and
`*pfOverflow`. The mantissa is shifted in place when the exponent is at most
3, and both flags read the shifted mantissa.
mirrors src/arith_uint256.cpp:191-210 -/
def setCompact (nCompact : UInt32) : ArithUint256 × Bool × Bool :=
  let nSize := (nCompact >>> 24).toNat
  let nWord0 := (nCompact &&& 0x007fffff).toNat
  let nWord := if nSize ≤ 3 then nWord0 >>> (8 * (3 - nSize)) else nWord0
  let value : ArithUint256 :=
    if nSize ≤ 3 then BitVec.ofNat 256 nWord else BitVec.ofNat 256 nWord <<< (8 * (nSize - 3))
  (value,
   nWord != 0 && (nCompact &&& 0x00800000) != 0,
   nWord != 0 && (decide (nSize > 34) || (decide (nWord > 0xff) && decide (nSize > 33)) ||
     (decide (nWord > 0xffff) && decide (nSize > 32))))

/-- `arith_uint256().SetCompact(nBits)`, the value alone. -/
def targetOf (nBits : UInt32) : ArithUint256 := (setCompact nBits).1

/-- `arith_uint256::GetCompact(fNegative)`: the top three bytes as mantissa,
moved down a byte when its top bit would read as the sign.
mirrors src/arith_uint256.cpp:212-239 -/
def getCompact (a : ArithUint256) (fNegative : Bool) : UInt32 :=
  let nSize := (bits a + 7) / 8
  -- `GetLow64()` is a `uint64_t`; the assignment to `nCompact` keeps 32 bits
  let nCompact : Nat :=
    if nSize ≤ 3 then (a.toNat % 2 ^ 64) <<< (8 * (3 - nSize)) % 2 ^ 64 % 2 ^ 32
    else (a >>> (8 * (nSize - 3))).toNat % 2 ^ 64 % 2 ^ 32
  let moved := nCompact &&& 0x00800000 != 0
  let nCompact := if moved then nCompact >>> 8 else nCompact
  let nSize := if moved then nSize + 1 else nSize
  let nCompact := nCompact ||| (nSize <<< 24)
  let nCompact := nCompact ||| (if fNegative && (nCompact &&& 0x007fffff != 0) then 0x00800000 else 0)
  UInt32.ofNat nCompact

example : getCompact (BitVec.ofNat 256 0x12345600) false = 0x04123456 := by decide
example : targetOf 0x04123456 = BitVec.ofNat 256 0x12345600 := by decide

/-! ## `GetCompact` rounds down -/

theorem bitLength_eq_size {k x : Nat} (hx : x < 2 ^ k) : bitLength k x = x.size := by
  induction k generalizing x with
  | zero =>
    obtain rfl : x = 0 := by simpa using hx
    rfl
  | succ k ih =>
    rw [bitLength]
    split
    · subst_vars; rfl
    · rename_i hne
      rw [ih (by rw [Nat.pow_succ] at hx; omega)]
      -- `x` has one bit more than `x / 2`
      have hlt := Nat.lt_size_self (x / 2)
      have hle : x.size ≤ (x / 2).size + 1 := Nat.size_le.mpr (by rw [Nat.pow_succ]; omega)
      have hge : (x / 2).size < x.size := by
        apply Nat.lt_size.mpr
        rcases Nat.eq_zero_or_pos (x / 2) with h0 | hpos
        · rw [h0, Nat.size_zero]; omega
        · have hs := Nat.size_pos.mpr hpos
          have htop := Nat.lt_size.mp (show (x / 2).size - 1 < (x / 2).size by omega)
          calc 2 ^ (x / 2).size = 2 * 2 ^ ((x / 2).size - 1) := by
                rw [← Nat.pow_succ']; congr 1; omega
            _ ≤ x := by omega
      omega

theorem bits_eq_size (x : ArithUint256) : bits x = x.toNat.size := bitLength_eq_size x.isLt

theorem and_two_pow_ne_zero (n i : Nat) : n &&& 2 ^ i ≠ 0 ↔ n.testBit i = true := by
  constructor
  · intro h
    by_contra hb
    apply h
    apply Nat.eq_of_testBit_eq
    intro j
    rw [Nat.testBit_and, Nat.testBit_two_pow]
    by_cases hj : i = j
    · subst hj; simpa using hb
    · simp [hj]
  · intro hb h0
    have := congrArg (Nat.testBit · i) h0
    simp [Nat.testBit_and, hb] at this

/-- Bit 23 of a 24-bit mantissa is set exactly from `2 ^ 23` on. -/
theorem and_0x800000_ne_zero {w : Nat} (hw : w < 2 ^ 24) : w &&& 0x00800000 ≠ 0 ↔ 2 ^ 23 ≤ w := by
  rw [show (0x00800000 : Nat) = 2 ^ 23 from rfl, and_two_pow_ne_zero, Nat.testBit_eq_decide_div_mod_eq,
    decide_eq_true_iff]
  omega


/-- The exponent `GetCompact` writes for a value of `b` bits: its bytes, one
more when the top bit of the top byte is set. -/
def compactSize (b : Nat) : Nat := if b = 0 then 0 else b / 8 + 1

/-- The three bytes `GetCompact` starts from, read in place for a value of at
most three bytes and shifted down otherwise: the value aligned under bit 24. -/
theorem getCompact_window (x : ArithUint256) :
    (if (bits x + 7) / 8 ≤ 3 then (x.toNat % 2 ^ 64) <<< (8 * (3 - (bits x + 7) / 8)) % 2 ^ 64 % 2 ^ 32
      else (x >>> (8 * ((bits x + 7) / 8 - 3))).toNat % 2 ^ 64 % 2 ^ 32) =
      x.toNat * 2 ^ 24 / 2 ^ (8 * ((bits x + 7) / 8)) := by
  have hX : x.toNat < 2 ^ (8 * ((bits x + 7) / 8)) := Nat.size_le.mp (by rw [← bits_eq_size]; omega)
  split_ifs with hS
  -- a short value is shifted up into the window
  · have hsplit : (2 : Nat) ^ 24 = 2 ^ (8 * ((bits x + 7) / 8)) * 2 ^ (8 * (3 - (bits x + 7) / 8)) := by
      rw [← Nat.pow_add]; congr 1; omega
    have h24 : (2 : Nat) ^ (8 * ((bits x + 7) / 8)) ≤ 2 ^ 24 := Nat.pow_le_pow_right (by decide) (by omega)
    have hup : x.toNat * 2 ^ (8 * (3 - (bits x + 7) / 8)) < 2 ^ 24 := by
      rw [hsplit]; exact Nat.mul_lt_mul_of_pos_right hX (Nat.two_pow_pos _)
    have h64 : x.toNat % 2 ^ 64 = x.toNat := Nat.mod_eq_of_lt (by omega)
    have hup64 : x.toNat * 2 ^ (8 * (3 - (bits x + 7) / 8)) % 2 ^ 64 = x.toNat * 2 ^ (8 * (3 - (bits x + 7) / 8)) :=
      Nat.mod_eq_of_lt (by omega)
    have hup32 : x.toNat * 2 ^ (8 * (3 - (bits x + 7) / 8)) % 2 ^ 32 = x.toNat * 2 ^ (8 * (3 - (bits x + 7) / 8)) :=
      Nat.mod_eq_of_lt (by omega)
    rw [h64, Nat.shiftLeft_eq, hup64, hup32, hsplit, Nat.mul_left_comm,
      Nat.mul_div_cancel_left _ (Nat.two_pow_pos _)]
  -- a long value is shifted down into it
  · have hsplit : (2 : Nat) ^ (8 * ((bits x + 7) / 8)) = 2 ^ 24 * 2 ^ (8 * ((bits x + 7) / 8 - 3)) := by
      rw [← Nat.pow_add]; congr 1; omega
    have hdown : x.toNat / 2 ^ (8 * ((bits x + 7) / 8 - 3)) < 2 ^ 24 := by
      rw [Nat.div_lt_iff_lt_mul (Nat.two_pow_pos _), ← hsplit]; exact hX
    have h64 : x.toNat / 2 ^ (8 * ((bits x + 7) / 8 - 3)) % 2 ^ 64 = x.toNat / 2 ^ (8 * ((bits x + 7) / 8 - 3)) :=
      Nat.mod_eq_of_lt (by omega)
    have h32 : x.toNat / 2 ^ (8 * ((bits x + 7) / 8 - 3)) % 2 ^ 32 = x.toNat / 2 ^ (8 * ((bits x + 7) / 8 - 3)) :=
      Nat.mod_eq_of_lt (by omega)
    rw [BitVec.toNat_ushiftRight, Nat.shiftRight_eq_div_pow, h64, h32, hsplit, Nat.mul_comm x.toNat,
      Nat.mul_div_mul_left _ _ (Nat.two_pow_pos _)]


theorem window_lt_iff (X S : Nat) : X * 2 ^ 24 / 2 ^ (8 * S) < 2 ^ 23 ↔ 2 * X < 2 ^ (8 * S) := by
  rw [Nat.div_lt_iff_lt_mul (Nat.two_pow_pos _), show (2 : Nat) ^ 24 = 2 * 2 ^ 23 from rfl,
    ← Nat.mul_assoc, Nat.mul_comm X 2, Nat.mul_comm (2 ^ 23)]
  exact Nat.mul_lt_mul_right (Nat.two_pow_pos _)

/-- A mantissa below bit 24 and an exponent above it. -/
theorem or_shiftLeft_24 {m : Nat} (hm : m < 2 ^ 24) (n : Nat) : m ||| n <<< 24 = m + n * 2 ^ 24 := by
  rw [Nat.or_comm, ← Nat.shiftLeft_add_eq_or_of_lt hm, Nat.shiftLeft_eq]
  omega

/-- `GetCompact(false)`: the value aligned under bit 23 as mantissa, and
`compactSize` of its bit length as exponent. -/
theorem getCompact_false (x : ArithUint256) :
    getCompact x false =
      UInt32.ofNat (x.toNat * 2 ^ 24 / 2 ^ (8 * compactSize (bits x)) + compactSize (bits x) * 2 ^ 24) := by
  have hB := bits_eq_size x
  have hXlt := Nat.lt_size_self x.toNat
  have hX : x.toNat < 2 ^ (8 * ((bits x + 7) / 8)) :=
    lt_of_lt_of_le hXlt (Nat.pow_le_pow_right (by decide) (by omega))
  have hW : x.toNat * 2 ^ 24 / 2 ^ (8 * ((bits x + 7) / 8)) < 2 ^ 24 := by
    rw [Nat.div_lt_iff_lt_mul (Nat.two_pow_pos _), Nat.mul_comm (2 ^ 24)]
    exact Nat.mul_lt_mul_of_pos_right hX (Nat.two_pow_pos _)
  unfold getCompact
  simp only [Bool.false_and, Bool.false_eq_true, if_false, Nat.or_zero]
  rw [getCompact_window]
  simp only [bne_iff_ne, and_0x800000_ne_zero hW]
  congr 1
  rcases Nat.eq_zero_or_pos (bits x) with hB0 | hBpos
  -- zero is written as zero
  · have hX0 : x.toNat = 0 := Nat.size_eq_zero.mp (hB ▸ hB0)
    simp [compactSize, hB0, hX0]
  by_cases hfull : bits x % 8 = 0
  -- the top bit of the top byte is set: the mantissa moves down a byte
  · have hS : (bits x + 7) / 8 = bits x / 8 := by omega
    have hge : 2 ^ (bits x - 1) ≤ x.toNat := Nat.lt_size.mp (by omega)
    have hmoved : 2 ^ 23 ≤ x.toNat * 2 ^ 24 / 2 ^ (8 * ((bits x + 7) / 8)) := by
      rw [← Nat.not_lt, window_lt_iff, Nat.not_lt, hS, show 8 * (bits x / 8) = bits x - 1 + 1 by omega,
        Nat.pow_succ]
      omega
    have hsize : compactSize (bits x) = (bits x + 7) / 8 + 1 := by rw [compactSize, if_neg (by omega)]; omega
    rw [if_pos hmoved, if_pos hmoved, hsize, Nat.shiftRight_eq_div_pow, Nat.div_div_eq_div_mul,
      ← Nat.pow_add, Nat.mul_add, Nat.mul_one]
    exact or_shiftLeft_24 (lt_of_le_of_lt (Nat.div_le_div_left (Nat.pow_le_pow_right (by decide) (by omega))
      (Nat.two_pow_pos _)) hW) _
  -- else the mantissa stays
  · have hsize : compactSize (bits x) = (bits x + 7) / 8 := by rw [compactSize, if_neg (by omega)]; omega
    have hlow : x.toNat * 2 ^ 24 / 2 ^ (8 * ((bits x + 7) / 8)) < 2 ^ 23 := by
      rw [window_lt_iff]
      calc 2 * x.toNat < 2 * 2 ^ x.toNat.size := by omega
        _ = 2 ^ (x.toNat.size + 1) := by rw [Nat.pow_succ, Nat.mul_comm]
        _ ≤ 2 ^ (8 * ((bits x + 7) / 8)) := Nat.pow_le_pow_right (by decide) (by omega)
    rw [if_neg (by omega), if_neg (by omega), hsize]
    exact or_shiftLeft_24 hW _


/-- `SetCompact` of a mantissa below bit 23 under an exponent `n` that does not
overflow: the mantissa moved to byte `n - 3`, with neither flag. -/
theorem setCompact_ofNat {m n : Nat} (hm : m < 2 ^ 23) (hn : n ≤ 32 ∨ (n = 33 ∧ m < 2 ^ 16)) :
    setCompact (UInt32.ofNat (m + n * 2 ^ 24)) = (BitVec.ofNat 256 (m * 2 ^ (8 * n) / 2 ^ 24), false, false) := by
  have hc : (UInt32.ofNat (m + n * 2 ^ 24)).toNat = m + n * 2 ^ 24 := by
    rw [UInt32.toNat_ofNat']; exact Nat.mod_eq_of_lt (by omega)
  have hsize : (UInt32.ofNat (m + n * 2 ^ 24) >>> 24).toNat = n := by
    rw [UInt32.toNat_shiftRight, hc, Nat.shiftRight_eq_div_pow]
    simp only [UInt32.reduceToNat, Nat.reduceMod]
    omega
  have hword : (UInt32.ofNat (m + n * 2 ^ 24) &&& 0x007fffff).toNat = m := by
    rw [UInt32.toNat_and, hc, show (0x007fffff : UInt32).toNat = 2 ^ 23 - 1 from rfl,
      Nat.and_two_pow_sub_one_eq_mod]
    omega
  -- bit 23 is the mantissa's, which is clear
  have hsign : UInt32.ofNat (m + n * 2 ^ 24) &&& 0x00800000 = 0 := by
    apply UInt32.toNat_inj.mp
    rw [UInt32.toNat_and, hc, show (0x00800000 : UInt32).toNat = 2 ^ 23 from rfl]
    by_contra hne
    rw [UInt32.toNat_zero] at hne
    have hbit := (and_two_pow_ne_zero _ _).mp hne
    rw [Nat.testBit_eq_decide_div_mod_eq, decide_eq_true_iff] at hbit
    omega
  unfold setCompact
  simp only [hsize, hword, hsign, bne_self_eq_false, Bool.and_false]
  by_cases hsmall : n ≤ 3
  -- a short mantissa is shifted down in place
  · have hsplit : (2 : Nat) ^ 24 = 2 ^ (8 * n) * 2 ^ (8 * (3 - n)) := by rw [← Nat.pow_add]; congr 1; omega
    have hover : decide (n > 34) = false := by simp; omega
    simp only [if_pos hsmall, Nat.shiftRight_eq_div_pow, hover]
    refine Prod.ext (by rw [hsplit, Nat.mul_comm m, Nat.mul_div_mul_left _ _ (Nat.two_pow_pos _)]) ?_
    simp only [Prod.mk.injEq, true_and]
    simp
    omega
  -- a long one is shifted up
  · have hsplit : (2 : Nat) ^ (8 * n) = 2 ^ 24 * 2 ^ (8 * (n - 3)) := by rw [← Nat.pow_add]; congr 1; omega
    simp only [if_neg hsmall]
    refine Prod.ext ?_ ?_
    · apply BitVec.eq_of_toNat_eq
      have hm256 : m % 2 ^ 256 = m := Nat.mod_eq_of_lt (by omega)
      rw [BitVec.toNat_shiftLeft, BitVec.toNat_ofNat, BitVec.toNat_ofNat, hm256, Nat.shiftLeft_eq, hsplit,
        Nat.mul_left_comm, Nat.mul_div_cancel_left _ (Nat.two_pow_pos _)]
    · simp only [Prod.mk.injEq, true_and]
      simp
      omega


/-- The mantissa `GetCompact` writes is below bit 23: the exponent leaves a
spare bit over the value's top bit. -/
theorem mantissa_lt {X b : Nat} (hX : X < 2 ^ b) : X * 2 ^ 24 / 2 ^ (8 * compactSize b) < 2 ^ 23 := by
  rcases Nat.eq_zero_or_pos b with rfl | hb
  · obtain rfl : X = 0 := by simpa using hX
    simp
  have hsize : compactSize b = b / 8 + 1 := by rw [compactSize, if_neg (by omega)]
  rw [Nat.div_lt_iff_lt_mul (Nat.two_pow_pos _), hsize]
  calc X * 2 ^ 24 < 2 ^ b * 2 ^ 24 := Nat.mul_lt_mul_of_pos_right hX (Nat.two_pow_pos _)
    _ ≤ 2 ^ (8 * (b / 8 + 1) - 1) * 2 ^ 24 :=
      Nat.mul_le_mul_right _ (Nat.pow_le_pow_right (by decide) (by omega))
    _ = 2 ^ 23 * 2 ^ (8 * (b / 8 + 1)) := by rw [← Nat.pow_add, ← Nat.pow_add]; congr 1; omega

/-- Decoding the mantissa rounds the value down to a multiple of
`2 ^ (8 * n - 24)`. -/
theorem window_round (X n : Nat) :
    X * 2 ^ 24 / 2 ^ (8 * n) * 2 ^ (8 * n) / 2 ^ 24 = X / 2 ^ (8 * n - 24) * 2 ^ (8 * n - 24) := by
  by_cases hn : 8 * n ≤ 24
  -- a short value comes back whole
  · have hsplit : (2 : Nat) ^ 24 = 2 ^ (8 * n) * 2 ^ (24 - 8 * n) := by rw [← Nat.pow_add]; congr 1; omega
    rw [show 8 * n - 24 = 0 by omega, Nat.pow_zero, Nat.div_one, Nat.mul_one, hsplit, Nat.mul_left_comm,
      Nat.mul_div_cancel_left _ (Nat.two_pow_pos _), Nat.mul_assoc, Nat.mul_comm (2 ^ (24 - 8 * n)),
      Nat.mul_div_cancel _ (Nat.mul_pos (Nat.two_pow_pos _) (Nat.two_pow_pos _))]
  · have hsplit : (2 : Nat) ^ (8 * n) = 2 ^ 24 * 2 ^ (8 * n - 24) := by rw [← Nat.pow_add]; congr 1; omega
    rw [hsplit, Nat.mul_comm X, Nat.mul_div_mul_left _ _ (Nat.two_pow_pos _), Nat.mul_left_comm,
      Nat.mul_div_cancel_left _ (Nat.two_pow_pos _)]

/-- The rounded value is written with the same mantissa. -/
theorem window_of_round (X n : Nat) :
    X / 2 ^ (8 * n - 24) * 2 ^ (8 * n - 24) * 2 ^ 24 / 2 ^ (8 * n) = X * 2 ^ 24 / 2 ^ (8 * n) := by
  by_cases hn : 8 * n ≤ 24
  · rw [show 8 * n - 24 = 0 by omega, Nat.pow_zero, Nat.div_one, Nat.mul_one]
  · have hsplit : (2 : Nat) ^ (8 * n) = 2 ^ 24 * 2 ^ (8 * n - 24) := by rw [← Nat.pow_add]; congr 1; omega
    rw [hsplit, Nat.mul_comm _ (2 ^ 24), Nat.mul_comm X, Nat.mul_div_mul_left _ _ (Nat.two_pow_pos _),
      Nat.mul_div_mul_left _ _ (Nat.two_pow_pos _), Nat.mul_div_cancel _ (Nat.two_pow_pos _)]

/-- Clearing bits below the top one keeps the bit length. -/
theorem size_round {X r : Nat} (h : r < X.size) : (X / 2 ^ r * 2 ^ r).size = X.size := by
  apply le_antisymm (Nat.size_le_size (Nat.div_mul_le_self X _))
  have htop : 2 ^ (X.size - 1) ≤ X := Nat.lt_size.mp (by omega)
  have hsplit : (2 : Nat) ^ (X.size - 1) = 2 ^ (X.size - 1 - r) * 2 ^ r := by
    rw [← Nat.pow_add]; congr 1; omega
  have hdiv : 2 ^ (X.size - 1 - r) ≤ X / 2 ^ r := by
    rw [Nat.le_div_iff_mul_le (Nat.two_pow_pos _), ← hsplit]; exact htop
  have hkept : 2 ^ (X.size - 1) ≤ X / 2 ^ r * 2 ^ r := by
    rw [hsplit]; exact Nat.mul_le_mul_right _ hdiv
  have := Nat.lt_size.mpr hkept
  omega

/-- Compact difficulty encoding is a sound rounding: `GetCompact` of any
256-bit value decodes under `SetCompact` without the negative or the overflow
flag, to a value at most the original that differs from it only below its top
sixteen bits, and whose own `GetCompact` is the same. -/
theorem getCompact_rounds_down (x : ArithUint256) :
    (setCompact (getCompact x false)).2 = (false, false) ∧
      (setCompact (getCompact x false)).1 ≤ x ∧
      x.toNat - (setCompact (getCompact x false)).1.toNat < 2 ^ (bits x - 16) ∧
      getCompact (setCompact (getCompact x false)).1 false = getCompact x false := by
  have hB := bits_eq_size x
  have hBle : bits x ≤ 256 := hB ▸ Nat.size_le.mpr x.isLt
  have hXlt : x.toNat < 2 ^ bits x := hB ▸ Nat.lt_size_self x.toNat
  have hm := mantissa_lt hXlt
  -- the exponent is 33 only for a full 256 bits, whose mantissa then has 16 bits
  have hover : compactSize (bits x) ≤ 32 ∨
      (compactSize (bits x) = 33 ∧ x.toNat * 2 ^ 24 / 2 ^ (8 * compactSize (bits x)) < 2 ^ 16) := by
    by_cases h33 : compactSize (bits x) ≤ 32
    · exact .inl h33
    have h33' : compactSize (bits x) = 33 := by
      unfold compactSize at h33 ⊢; split_ifs at h33 ⊢ <;> omega
    refine .inr ⟨h33', ?_⟩
    have hpow : (2 : Nat) ^ (8 * compactSize (bits x)) = 2 ^ 256 * 2 ^ 8 := by
      rw [← Nat.pow_add]; congr 1; omega
    rw [hpow, Nat.div_lt_iff_lt_mul (Nat.mul_pos (Nat.two_pow_pos _) (Nat.two_pow_pos _))]
    calc x.toNat * 2 ^ 24 < 2 ^ 256 * 2 ^ 24 := Nat.mul_lt_mul_of_pos_right x.isLt (Nat.two_pow_pos _)
      _ = 2 ^ 16 * (2 ^ 256 * 2 ^ 8) := by
        rw [show (2 : Nat) ^ 24 = 2 ^ 16 * 2 ^ 8 from rfl, Nat.mul_left_comm]
  rw [getCompact_false, setCompact_ofNat hm hover, window_round]
  -- the decoded value clears the bits of `x` below `r`, and `r` is at most `bits x - 16`
  have hr : 8 * compactSize (bits x) - 24 ≤ bits x - 16 := by unfold compactSize; split_ifs <;> omega
  have hY : x.toNat / 2 ^ (8 * compactSize (bits x) - 24) * 2 ^ (8 * compactSize (bits x) - 24) ≤ x.toNat :=
    Nat.div_mul_le_self _ _
  have hYnat : (BitVec.ofNat 256 (x.toNat / 2 ^ (8 * compactSize (bits x) - 24) *
      2 ^ (8 * compactSize (bits x) - 24))).toNat =
      x.toNat / 2 ^ (8 * compactSize (bits x) - 24) * 2 ^ (8 * compactSize (bits x) - 24) := by
    rw [BitVec.toNat_ofNat]; exact Nat.mod_eq_of_lt (lt_of_le_of_lt hY x.isLt)
  refine ⟨rfl, ?_, ?_, ?_⟩
  · rw [BitVec.le_def, hYnat]; exact hY
  · have hsplit := Nat.div_add_mod' x.toNat (2 ^ (8 * compactSize (bits x) - 24))
    have hmod := Nat.mod_lt x.toNat (Nat.two_pow_pos (8 * compactSize (bits x) - 24))
    have hpow := Nat.pow_le_pow_right (show 0 < 2 by decide) hr
    rw [hYnat]
    omega
  · have hbits : bits (BitVec.ofNat 256 (x.toNat / 2 ^ (8 * compactSize (bits x) - 24) *
        2 ^ (8 * compactSize (bits x) - 24))) = bits x := by
      rw [bits_eq_size, hYnat, hB]
      rcases Nat.eq_zero_or_pos x.toNat.size with h0 | hpos
      · rw [Nat.size_eq_zero.mp h0]; simp
      · exact size_round (by rw [← hB]; unfold compactSize; split_ifs <;> omega)
    rw [getCompact_false, hbits, hYnat, window_of_round]


end Ring.Arith
