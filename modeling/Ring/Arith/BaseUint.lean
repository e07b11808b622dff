import Mathlib
import Ring.Arith.Uint256
import Ring.Lib.Limbs
import Ring.Lib.Loop

/-!
# `base_uint` arithmetic limb by limb (src/arith_uint256.cpp)

`base_uint<BITS>` keeps its value in `WIDTH = BITS / 32` limbs `pn`, least
significant first. Its operators are schoolbook loops over the limbs: `+=`
and both `*=` with a 64-bit carry, the shifts by moving bits between
neighbouring limbs, unary `-` as `~` then `++`, `CompareTo` from the top limb
down, `bits()` as one more than the position of the top set bit, and `/=` as
shift and subtract.

The rest of the model computes with `arith_uint256` as `BitVec 256`. The
results here say that the loops compute exactly that arithmetic.

Results:
* `toNat_add`, `toNat_neg`, `toNat_sub_of_le`, `compareTo_nonneg_iff`,
  `bits_eq_size`: the helpers `/=` is built from.
* `toNat_shiftLeft`, `toNat_shiftRight`: the shifts multiply and divide by
  `2^shift`, modulo `2^BITS`, for every shift, `256` and above included.
* `toNat_mulU32`, `toNat_mul`: both products modulo `2^BITS`.
* `toNat_div`: `/=` is the floor of the quotient, and it throws exactly for
  a zero divisor; its loop keeps `DivInv`, the invariant of restoring
  division.
* `baseUint256_exact`: the five operators of `arith_uint256`.
-/
namespace Ring.Arith

open Ring.Lib

/-- `base_uint<32 * WIDTH>`: the limbs `pn`, least significant first. -/
structure BaseUint (WIDTH : Nat) where
  pn : List UInt32
  length_pn : pn.length = WIDTH

/-- `uint_error`, thrown by `/=` with its message. -/
structure uint_error where
  what : String

namespace BaseUint

variable {WIDTH : Nat}

/-- The number the limbs stand for. -/
def toNat (a : BaseUint WIDTH) : Nat := limbsVal a.pn

/-- `base_uint()`: every limb zero. -/
def zero (WIDTH : Nat) : BaseUint WIDTH := ⟨List.replicate WIDTH 0, List.length_replicate⟩

/-! ## Addition, complement and negation -/

/-- The loop of `operator+=`: `n = carry + pn[i] + b.pn[i]`, the low 32 bits
as the limb, the high ones carried.
mirrors src/arith_uint256.h:134-144 -/
def addLoop : UInt64 → List UInt32 → List UInt32 → List UInt32
  | _, [], _ => []
  | carry, x :: xs, bs =>
    let n := carry + x.toUInt64 + (bs.headD 0).toUInt64
    (n &&& 0xffffffff).toUInt32 :: addLoop (n >>> 32) xs bs.tail

theorem length_addLoop : ∀ (carry : UInt64) (xs bs : List UInt32), (addLoop carry xs bs).length = xs.length
  | _, [], _ => rfl
  | _, _ :: xs, _ => by simp [addLoop, length_addLoop _ xs]

/-- `operator+=`. -/
def add (a b : BaseUint WIDTH) : BaseUint WIDTH :=
  ⟨addLoop 0 a.pn b.pn, by rw [length_addLoop, a.length_pn]⟩

/-- `operator~`.
mirrors src/arith_uint256.h:68-74 -/
def complement (a : BaseUint WIDTH) : BaseUint WIDTH :=
  ⟨a.pn.map (~~~ ·), by rw [List.length_map, a.length_pn]⟩

/-- The loop of prefix `operator++`: `while (i < WIDTH && ++pn[i] == 0) i++`.
mirrors src/arith_uint256.h:172-179 -/
def incrementLoop : List UInt32 → List UInt32
  | [] => []
  | x :: xs => if x + 1 = 0 then 0 :: incrementLoop xs else (x + 1) :: xs

theorem length_incrementLoop : ∀ xs : List UInt32, (incrementLoop xs).length = xs.length
  | [] => rfl
  | x :: xs => by
    unfold incrementLoop
    split_ifs <;> simp [length_incrementLoop xs]

/-- Prefix `operator++`. -/
def increment (a : BaseUint WIDTH) : BaseUint WIDTH :=
  ⟨incrementLoop a.pn, by rw [length_incrementLoop, a.length_pn]⟩

/-- Unary `operator-`: the complement, plus one.
mirrors src/arith_uint256.h:76-83 -/
def neg (a : BaseUint WIDTH) : BaseUint WIDTH := a.complement.increment

/-- `operator-=`: `*this += -b`.
mirrors src/arith_uint256.h:146-150 -/
def sub (a b : BaseUint WIDTH) : BaseUint WIDTH := a.add b.neg

/-! ## Comparison and bit length -/

/-- `CompareTo` on the limbs: from the most significant limb down, the first
that differs decides.
mirrors src/arith_uint256.cpp:111-121 -/
def compareLimbs : List UInt32 → List UInt32 → Int
  | x :: xs, y :: ys =>
    let c := compareLimbs xs ys
    if c ≠ 0 then c else if x < y then -1 else if x > y then 1 else 0
  | _, _ => 0

def compareTo (a b : BaseUint WIDTH) : Int := compareLimbs a.pn b.pn

/-- The inner loop of `bits()`: the highest `nbits` from `n` down to `1` whose
bit is set in the limb, `0` when none is. -/
def topBit (x : UInt32) : Nat → Nat
  | 0 => 0
  | n + 1 => if x &&& ((1 : UInt32) <<< (n + 1).toUInt32) ≠ 0 then n + 1 else topBit x n

/-- `bits()` on the limbs: the top non-zero limb decides, at `32` bits per
limb below it.
mirrors src/arith_uint256.cpp:173-186 -/
def bitsLoop : List UInt32 → Nat
  | [] => 0
  | x :: xs =>
    let b := bitsLoop xs
    if b ≠ 0 then 32 + b else if x ≠ 0 then topBit x 31 + 1 else 0

def bits (a : BaseUint WIDTH) : Nat := bitsLoop a.pn

/-! ## Shifts -/

/-- One round `i` of the loop of `operator<<=`, at `k = shift / 32` limbs and
`s = shift % 32` bits. -/
def shiftLeftStep (WIDTH : Nat) (a : List UInt32) (k s : Nat) (pn : List UInt32) (i : Nat) : List UInt32 :=
  let pn := if i + k + 1 < WIDTH ∧ s ≠ 0 then
    pn.modify (i + k + 1) (· ||| (a.getD i 0 >>> (32 - s).toUInt32)) else pn
  if i + k < WIDTH then pn.modify (i + k) (· ||| (a.getD i 0 <<< s.toUInt32)) else pn

/-- `operator<<=`.
mirrors src/arith_uint256.cpp:23-37 -/
def shiftLeft (a : BaseUint WIDTH) (shift : UInt32) : BaseUint WIDTH :=
  ⟨(List.range WIDTH).foldl (shiftLeftStep WIDTH a.pn (shift.toNat / 32) (shift.toNat % 32))
      (List.replicate WIDTH 0),
    by
      rw [length_foldl (fun pn i => by unfold shiftLeftStep; split_ifs <;> simp), List.length_replicate]⟩

/-- One round `i` of the loop of `operator>>=`. -/
def shiftRightStep (a : List UInt32) (k s : Nat) (pn : List UInt32) (i : Nat) : List UInt32 :=
  let pn := if k + 1 ≤ i ∧ s ≠ 0 then
    pn.modify (i - k - 1) (· ||| (a.getD i 0 <<< (32 - s).toUInt32)) else pn
  if k ≤ i then pn.modify (i - k) (· ||| (a.getD i 0 >>> s.toUInt32)) else pn

/-- `operator>>=`.
mirrors src/arith_uint256.cpp:39-53 -/
def shiftRight (a : BaseUint WIDTH) (shift : UInt32) : BaseUint WIDTH :=
  ⟨(List.range WIDTH).foldl (shiftRightStep a.pn (shift.toNat / 32) (shift.toNat % 32))
      (List.replicate WIDTH 0),
    by
      rw [length_foldl (fun pn i => by unfold shiftRightStep; split_ifs <;> simp), List.length_replicate]⟩

/-! ## Products -/

/-- The loop of `operator*=(uint32_t)`: `n = carry + b32 * pn[i]`.
mirrors src/arith_uint256.cpp:57-67 -/
def mulU32Loop (b32 : UInt32) : UInt64 → List UInt32 → List UInt32
  | _, [] => []
  | carry, x :: xs =>
    let n := carry + b32.toUInt64 * x.toUInt64
    (n &&& 0xffffffff).toUInt32 :: mulU32Loop b32 (n >>> 32) xs

theorem length_mulU32Loop (b32 : UInt32) :
    ∀ (carry : UInt64) (xs : List UInt32), (mulU32Loop b32 carry xs).length = xs.length
  | _, [] => rfl
  | _, _ :: xs => by simp [mulU32Loop, length_mulU32Loop b32 _ xs]

/-- `operator*=(uint32_t)`. -/
def mulU32 (a : BaseUint WIDTH) (b32 : UInt32) : BaseUint WIDTH :=
  ⟨mulU32Loop b32 0 a.pn, by rw [length_mulU32Loop, a.length_pn]⟩

/-- The inner loop of `operator*=(const base_uint&)` for limb `x = pn[j]`,
over `a.pn[j ..]` and `b.pn[0 ..]`: `n = carry + a.pn[i + j] + pn[j] * b.pn[i]`. -/
def mulRowLoop (x : UInt32) : UInt64 → List UInt32 → List UInt32 → List UInt32
  | _, [], _ => []
  | carry, y :: ys, bs =>
    let n := carry + y.toUInt64 + x.toUInt64 * (bs.headD 0).toUInt64
    (n &&& 0xffffffff).toUInt32 :: mulRowLoop x (n >>> 32) ys bs.tail

theorem length_mulRowLoop (x : UInt32) :
    ∀ (carry : UInt64) (ys bs : List UInt32), (mulRowLoop x carry ys bs).length = ys.length
  | _, [], _ => rfl
  | _, _ :: ys, _ => by simp [mulRowLoop, length_mulRowLoop x _ ys]

/-- One round `j` of the outer loop of `operator*=(const base_uint&)`: the
limbs below `j` stay, those from `j` up get `pn[j] * b` added. -/
def mulStep (pn bpn : List UInt32) (a : List UInt32) (j : Nat) : List UInt32 :=
  a.take j ++ mulRowLoop (pn.getD j 0) 0 (a.drop j) bpn

/-- `operator*=(const base_uint&)`.
mirrors src/arith_uint256.cpp:69-83 -/
def mul (a b : BaseUint WIDTH) : BaseUint WIDTH :=
  ⟨(List.range WIDTH).foldl (mulStep a.pn b.pn) (List.replicate WIDTH 0),
    by
      rw [length_foldl (fun l j => by simp only [mulStep, List.length_append, length_mulRowLoop]; simp; omega),
        List.length_replicate]⟩

/-! ## Division -/

/-- `pn[shift / 32] |= (1 << (shift & 31))`: sets bit `shift` of the quotient. -/
def setBit (a : BaseUint WIDTH) (shift : Nat) : BaseUint WIDTH :=
  ⟨a.pn.modify (shift / 32) (· ||| ((1 : UInt32) <<< (shift % 32).toUInt32)), by rw [List.length_modify, a.length_pn]⟩

/-- The loop `while (shift >= 0)` of `operator/=`, from bit `shift` of the
quotient down to bit `0`.
mirrors src/arith_uint256.cpp:100-107 -/
def divLoop : Nat → BaseUint WIDTH → BaseUint WIDTH → BaseUint WIDTH → BaseUint WIDTH
  | shift, num, div, quot =>
    let (num, quot) := if num.compareTo div ≥ 0 then (num.sub div, quot.setBit shift) else (num, quot)
    let div := div.shiftRight 1
    match shift with
    | 0 => quot
    | shift + 1 => divLoop shift num div quot

/-- `operator/=`: the quotient, or the `uint_error` it throws.
mirrors src/arith_uint256.cpp:85-109 -/
def div (a b : BaseUint WIDTH) : Except uint_error (BaseUint WIDTH) :=
  let num_bits := a.bits
  let div_bits := b.bits
  if div_bits = 0 then .error ⟨"Division by zero"⟩
  else if div_bits > num_bits then .ok (zero WIDTH)
  else
    let shift := num_bits - div_bits
    .ok (divLoop shift a (b.shiftLeft shift.toUInt32) (zero WIDTH))

/-! ## The value of a sum -/

theorem toNat_lt (a : BaseUint WIDTH) : a.toNat < 2 ^ (32 * WIDTH) := by
  have h := limbsVal_lt a.pn
  rwa [a.length_pn] at h

theorem limbsVal_addLoop : ∀ (carry : UInt64) (xs bs : List UInt32), carry.toNat < 2 ^ 32 →
    limbsVal (addLoop carry xs bs) = (carry.toNat + limbsVal xs + limbsVal bs) % 2 ^ (32 * xs.length)
  | _, [], _, _ => by simp [addLoop, Nat.mod_one]
  | carry, x :: xs, bs, hc => by
    have hx := x.toNat_lt
    have hb := (bs.headD 0).toNat_lt
    have hn : (carry + x.toUInt64 + (bs.headD 0).toUInt64).toNat = carry.toNat + x.toNat + (bs.headD 0).toNat := by
      rw [toNat_add_of_lt, toNat_add_of_lt] <;> simp only [UInt32.toNat_toUInt64, UInt64.toNat_add] <;> omega
    rw [addLoop, limbsVal_low32_cons _ _ (limbsVal xs + limbsVal bs.tail), hn, length_addLoop, List.length_cons,
      limbsVal_cons, limbsVal_eq_headD_tail bs]
    · congr 1
      ring
    · rw [limbsVal_addLoop _ xs bs.tail (by rw [shr32]; omega), shr32, hn, length_addLoop, Nat.add_assoc]

theorem toNat_add (a b : BaseUint WIDTH) : (a.add b).toNat = (a.toNat + b.toNat) % 2 ^ (32 * WIDTH) := by
  simp only [toNat, add]
  rw [limbsVal_addLoop 0 a.pn b.pn (by decide), a.length_pn, UInt64.toNat_zero, Nat.zero_add]

/-! ## The value of a negation -/

theorem two_pow_32_succ (n : Nat) : 2 ^ (32 * (n + 1)) = 2 ^ 32 * 2 ^ (32 * n) := by
  rw [Nat.mul_succ, Nat.pow_add, Nat.mul_comm]

theorem limbsVal_map_not : ∀ l : List UInt32,
    limbsVal (l.map (~~~ ·)) = 2 ^ (32 * l.length) - 1 - limbsVal l
  | [] => rfl
  | x :: xs => by
    have hx := x.toNat_lt
    have hxs := limbsVal_lt xs
    have hsize : UInt32.size = 2 ^ 32 := rfl
    rw [List.map_cons, limbsVal_cons, limbsVal_map_not xs, UInt32.toNat_not, limbsVal_cons, List.length_cons,
      two_pow_32_succ, Nat.mul_sub, Nat.mul_sub, Nat.mul_one]
    omega

theorem limbsVal_incrementLoop : ∀ l : List UInt32,
    limbsVal (incrementLoop l) = (limbsVal l + 1) % 2 ^ (32 * l.length)
  | [] => rfl
  | x :: xs => by
    have hx := x.toNat_lt
    have hxs := limbsVal_lt xs
    have hsucc : (x + 1).toNat = (x.toNat + 1) % 2 ^ 32 := by rw [UInt32.toNat_add, UInt32.toNat_one]
    rw [incrementLoop, List.length_cons, limbsVal_cons, two_pow_32_succ]
    by_cases hw : x + 1 = 0
    · have hxm : x.toNat = 2 ^ 32 - 1 := by
        rw [hw, UInt32.toNat_zero] at hsucc
        omega
      rw [if_pos hw, limbsVal_cons, limbsVal_incrementLoop xs, UInt32.toNat_zero, Nat.zero_add, hxm,
        show 2 ^ 32 - 1 + 2 ^ 32 * limbsVal xs + 1 = 2 ^ 32 * (limbsVal xs + 1) by omega, Nat.mul_mod_mul_left]
    · have hx1 : x.toNat + 1 < 2 ^ 32 := by
        by_contra hge
        exact hw (UInt32.toNat_inj.mp (by rw [hsucc, UInt32.toNat_zero]; omega))
      have hlt : x.toNat + 2 ^ 32 * limbsVal xs + 1 < 2 ^ 32 * 2 ^ (32 * xs.length) :=
        calc x.toNat + 2 ^ 32 * limbsVal xs + 1 < 2 ^ 32 * (limbsVal xs + 1) := by omega
          _ ≤ 2 ^ 32 * 2 ^ (32 * xs.length) := Nat.mul_le_mul_left _ hxs
      rw [if_neg hw, limbsVal_cons, hsucc, Nat.mod_eq_of_lt hx1, Nat.mod_eq_of_lt hlt]
      omega

theorem toNat_neg (a : BaseUint WIDTH) : a.neg.toNat = (2 ^ (32 * WIDTH) - a.toNat) % 2 ^ (32 * WIDTH) := by
  have ha := a.toNat_lt
  simp only [toNat, neg, increment, complement] at ha ⊢
  rw [limbsVal_incrementLoop, limbsVal_map_not, List.length_map, a.length_pn]
  congr 1
  omega

theorem toNat_sub (a b : BaseUint WIDTH) :
    (a.sub b).toNat = (a.toNat + (2 ^ (32 * WIDTH) - b.toNat)) % 2 ^ (32 * WIDTH) := by
  rw [sub, toNat_add, toNat_neg, Nat.add_mod_mod]

theorem toNat_sub_of_le {a b : BaseUint WIDTH} (h : b.toNat ≤ a.toNat) : (a.sub b).toNat = a.toNat - b.toNat := by
  have ha := a.toNat_lt
  rw [toNat_sub, show a.toNat + (2 ^ (32 * WIDTH) - b.toNat) = a.toNat - b.toNat + 2 ^ (32 * WIDTH) by omega,
    Nat.add_mod_right, Nat.mod_eq_of_lt (by omega)]

/-! ## Comparison is the order of the values -/

theorem compareLimbs_eq : ∀ xs ys : List UInt32, xs.length = ys.length →
    compareLimbs xs ys = if limbsVal xs < limbsVal ys then -1 else if limbsVal ys < limbsVal xs then 1 else 0
  | [], [], _ => rfl
  | x :: xs, y :: ys, h => by
    have hx := x.toNat_lt
    have hy := y.toNat_lt
    simp only [compareLimbs, compareLimbs_eq xs ys (by simpa using h), UInt32.lt_iff_toNat_lt, gt_iff_lt]
    by_cases hlt : limbsVal xs < limbsVal ys
    · have h' : limbsVal (x :: xs) < limbsVal (y :: ys) := by rw [limbsVal_cons, limbsVal_cons]; omega
      rw [if_pos hlt, if_pos (by decide), if_pos h']
    by_cases hgt : limbsVal ys < limbsVal xs
    · have h' : limbsVal (y :: ys) < limbsVal (x :: xs) := by rw [limbsVal_cons, limbsVal_cons]; omega
      rw [if_neg hlt, if_pos hgt, if_pos (by decide), if_neg (Nat.lt_asymm h'), if_pos h']
    have heq : limbsVal xs = limbsVal ys := by omega
    have hxy : x.toNat < y.toNat ↔ limbsVal (x :: xs) < limbsVal (y :: ys) := by
      rw [limbsVal_cons, limbsVal_cons, heq]
      omega
    have hyx : y.toNat < x.toNat ↔ limbsVal (y :: ys) < limbsVal (x :: xs) := by
      rw [limbsVal_cons, limbsVal_cons, heq]
      omega
    rw [if_neg hlt, if_neg hgt, if_neg (by decide)]
    simp only [hxy, hyx]

theorem compareTo_nonneg_iff (a b : BaseUint WIDTH) : 0 ≤ a.compareTo b ↔ b.toNat ≤ a.toNat := by
  rw [compareTo, compareLimbs_eq a.pn b.pn (by rw [a.length_pn, b.length_pn])]
  simp only [toNat]
  split_ifs <;> omega

/-! ## `bits()` is the bit length -/

theorem toNat_one_shiftLeft {k : Nat} (hk : k < 32) : ((1 : UInt32) <<< k.toUInt32).toNat = 2 ^ k := by
  rw [UInt32.toNat_shiftLeft, toUInt32_mod_32 hk, UInt32.toNat_one, Nat.one_shiftLeft,
    Nat.mod_eq_of_lt (Nat.pow_lt_pow_right (by norm_num) hk)]

theorem and_one_shiftLeft_ne_zero (x : UInt32) {k : Nat} (hk : k < 32) :
    x &&& (1 : UInt32) <<< k.toUInt32 ≠ 0 ↔ x.toNat.testBit k = true := by
  rw [Ne, ← UInt32.toNat_inj, UInt32.toNat_and, toNat_one_shiftLeft hk, UInt32.toNat_zero, Nat.and_two_pow]
  cases x.toNat.testBit k <;> simp

/-- The scan of `bits()` inside the top limb finds its top set bit. -/
theorem topBit_add_one (x : UInt32) :
    ∀ n, n < 32 → 0 < x.toNat → x.toNat < 2 ^ (n + 1) → topBit x n + 1 = x.toNat.size
  | 0, _, h0, h1 => by
    rw [topBit, show x.toNat = 1 by omega, Nat.size_one]
  | n + 1, hn, h0, h1 => by
    rw [topBit]
    by_cases hb : x.toNat.testBit (n + 1) = true
    · rw [if_pos ((and_one_shiftLeft_ne_zero x hn).mpr hb)]
      exact le_antisymm (Nat.lt_size.mpr (Nat.ge_two_pow_of_testBit hb)) (Nat.size_le.mpr h1)
    · rw [if_neg (fun h => hb ((and_one_shiftLeft_ne_zero x hn).mp h))]
      apply topBit_add_one x n (by omega) h0
      apply Nat.lt_pow_two_of_testBit
      intro i hi
      rcases Nat.eq_or_lt_of_le hi with rfl | hi
      · simpa using hb
      · exact Nat.testBit_eq_false_of_lt (h1.trans_le (Nat.pow_le_pow_right (by norm_num) hi))

theorem size_limb_cons {x v : Nat} (hx : x < 2 ^ 32) (hv : 0 < v) : (x + 2 ^ 32 * v).size = 32 + v.size := by
  have hlt := Nat.lt_size_self v
  have hpos : 0 < v.size := Nat.size_pos.mpr hv
  have hge : 2 ^ (v.size - 1) ≤ v := Nat.lt_size.mp (by omega)
  apply le_antisymm
  · apply Nat.size_le.mpr
    calc x + 2 ^ 32 * v < 2 ^ 32 * (v + 1) := by omega
      _ ≤ 2 ^ 32 * 2 ^ v.size := Nat.mul_le_mul_left _ hlt
      _ = 2 ^ (32 + v.size) := by rw [Nat.pow_add]
  · have : 32 + v.size - 1 < (x + 2 ^ 32 * v).size := by
      apply Nat.lt_size.mpr
      calc 2 ^ (32 + v.size - 1) = 2 ^ 32 * 2 ^ (v.size - 1) := by rw [← Nat.pow_add]; congr 1; omega
        _ ≤ 2 ^ 32 * v := Nat.mul_le_mul_left _ hge
        _ ≤ x + 2 ^ 32 * v := Nat.le_add_left _ _
    omega

theorem bitsLoop_eq_size : ∀ l : List UInt32, bitsLoop l = (limbsVal l).size
  | [] => by rw [bitsLoop, limbsVal_nil, Nat.size_zero]
  | x :: xs => by
    have hx := x.toNat_lt
    simp only [bitsLoop]
    rw [bitsLoop_eq_size xs, limbsVal_cons]
    by_cases hb : (limbsVal xs).size = 0
    · rw [if_neg (not_not.mpr hb), Nat.size_eq_zero.mp hb, Nat.mul_zero, Nat.add_zero]
      by_cases hx0 : x = 0
      · rw [if_neg (not_not.mpr hx0), hx0, UInt32.toNat_zero, Nat.size_zero]
      · rw [if_pos hx0]
        exact topBit_add_one x 31 (by norm_num) (Nat.pos_of_ne_zero (fun h => hx0 (UInt32.toNat_inj.mp h))) hx
    · rw [if_pos hb, size_limb_cons hx (Nat.pos_of_ne_zero (fun h => hb (by rw [h, Nat.size_zero])))]

/-- `bits()` is the bit length of the value. -/
theorem bits_eq_size (a : BaseUint WIDTH) : a.bits = a.toNat.size := bitsLoop_eq_size a.pn

/-! ## The value of a product -/

theorem mul_limbs_le (x y : UInt32) : x.toNat * y.toNat ≤ (2 ^ 32 - 1) * (2 ^ 32 - 1) :=
  Nat.mul_le_mul (by have := x.toNat_lt; omega) (by have := y.toNat_lt; omega)

theorem limbsVal_mulU32Loop (b32 : UInt32) : ∀ (carry : UInt64) (xs : List UInt32), carry.toNat < 2 ^ 32 →
    limbsVal (mulU32Loop b32 carry xs) = (carry.toNat + b32.toNat * limbsVal xs) % 2 ^ (32 * xs.length)
  | _, [], _ => by simp [mulU32Loop, Nat.mod_one]
  | carry, x :: xs, hc => by
    have hbx := mul_limbs_le b32 x
    have hn : (carry + b32.toUInt64 * x.toUInt64).toNat = carry.toNat + b32.toNat * x.toNat := by
      rw [toNat_add_of_lt (by rw [toNat_mul_limbs]; omega), toNat_mul_limbs]
    rw [mulU32Loop, limbsVal_low32_cons _ _ (b32.toNat * limbsVal xs), hn, length_mulU32Loop, List.length_cons,
      limbsVal_cons]
    · congr 1
      ring
    · rw [limbsVal_mulU32Loop b32 _ xs (by rw [shr32, hn]; omega), shr32, hn, length_mulU32Loop]

theorem toNat_mulU32 (a : BaseUint WIDTH) (b32 : UInt32) :
    (a.mulU32 b32).toNat = a.toNat * b32.toNat % 2 ^ (32 * WIDTH) := by
  simp only [toNat, mulU32]
  rw [limbsVal_mulU32Loop b32 0 a.pn (by decide), a.length_pn, UInt64.toNat_zero, Nat.zero_add, Nat.mul_comm]

theorem limbsVal_mulRowLoop (x : UInt32) : ∀ (carry : UInt64) (ys bs : List UInt32), carry.toNat < 2 ^ 32 →
    limbsVal (mulRowLoop x carry ys bs) = (carry.toNat + limbsVal ys + x.toNat * limbsVal bs) % 2 ^ (32 * ys.length)
  | _, [], _, _ => by simp [mulRowLoop, Nat.mod_one]
  | carry, y :: ys, bs, hc => by
    have hy := y.toNat_lt
    have hxb := mul_limbs_le x (bs.headD 0)
    have hn : (carry + y.toUInt64 + x.toUInt64 * (bs.headD 0).toUInt64).toNat =
        carry.toNat + y.toNat + x.toNat * (bs.headD 0).toNat := by
      rw [toNat_add_of_lt, toNat_add_of_lt, toNat_mul_limbs, UInt32.toNat_toUInt64] <;>
        simp only [toNat_mul_limbs, UInt32.toNat_toUInt64, UInt64.toNat_add] <;> omega
    rw [mulRowLoop, limbsVal_low32_cons _ _ (limbsVal ys + x.toNat * limbsVal bs.tail), hn, length_mulRowLoop,
      List.length_cons, limbsVal_cons, limbsVal_eq_headD_tail bs]
    · congr 1
      ring
    · rw [limbsVal_mulRowLoop x _ ys bs.tail (by rw [shr32, hn]; omega), shr32, hn, length_mulRowLoop,
        Nat.add_assoc]

theorem length_mulStep (pn bpn a : List UInt32) {j : Nat} (hj : j ≤ a.length) : (mulStep pn bpn a j).length = a.length := by
  rw [mulStep, List.length_append, length_mulRowLoop, List.length_take_of_le hj, List.length_drop]
  omega

/-- Round `j` of the product adds `pn[j] * b`, shifted up by `j` limbs. -/
theorem limbsVal_mulStep (pn bpn a : List UInt32) {j : Nat} (hj : j ≤ a.length) :
    limbsVal (mulStep pn bpn a j) =
      (limbsVal a + 2 ^ (32 * j) * ((pn.getD j 0).toNat * limbsVal bpn)) % 2 ^ (32 * a.length) := by
  have ht := limbsVal_lt (a.take j)
  rw [List.length_take_of_le hj] at ht
  have hsplit : limbsVal a = limbsVal (a.take j) + 2 ^ (32 * j) * limbsVal (a.drop j) := by
    conv_lhs => rw [← List.take_append_drop j a]
    rw [limbsVal_append, List.length_take_of_le hj]
  rw [mulStep, limbsVal_append, limbsVal_mulRowLoop _ 0 _ _ (by decide), UInt64.toNat_zero, Nat.zero_add,
    List.length_take_of_le hj, List.length_drop, add_two_pow_mul_mod ht, hsplit,
    show 32 * j + 32 * (a.length - j) = 32 * a.length by omega]
  congr 1
  ring

theorem toNat_mul (a b : BaseUint WIDTH) : (a.mul b).toNat = a.toNat * b.toNat % 2 ^ (32 * WIDTH) := by
  let I := fun j (acc : List UInt32) =>
    acc.length = WIDTH ∧ limbsVal acc = limbsVal (a.pn.take j) * limbsVal b.pn % 2 ^ (32 * WIDTH)
  have h : I WIDTH (a.mul b).pn := by
    apply foldl_range_inv I
    · exact ⟨List.length_replicate, by rw [limbsVal_replicate_zero, List.take_zero, limbsVal_nil, Nat.zero_mul,
        Nat.zero_mod]⟩
    · rintro j acc hj ⟨hlen, hval⟩
      refine ⟨by rw [length_mulStep _ _ _ (by omega), hlen], ?_⟩
      rw [limbsVal_mulStep _ _ _ (by omega), hval, hlen, Nat.mod_add_mod, limbsVal_take_succ]
      congr 1
      ring
  rw [toNat, h.2, List.take_of_length_le (by rw [a.length_pn]), toNat, toNat]

/-! ## The value of a shift -/

theorem getD_shiftLeftStep {a pn : List UInt32} {k s i m : Nat} (hlen : pn.length = WIDTH) (hm : m < WIDTH) :
    (shiftLeftStep WIDTH a k s pn i).getD m 0 =
      if m = i + k then pn.getD m 0 ||| a.getD i 0 <<< s.toUInt32
      else if m = i + k + 1 ∧ s ≠ 0 then pn.getD m 0 ||| a.getD i 0 >>> (32 - s).toUInt32
      else pn.getD m 0 := by
  unfold shiftLeftStep
  split_ifs <;> simp only [getD_modify, List.length_modify, hlen] <;> (try split_ifs) <;> first | rfl | omega

theorem length_shiftLeftStep (a pn : List UInt32) (k s i : Nat) : (shiftLeftStep WIDTH a k s pn i).length = pn.length := by
  unfold shiftLeftStep
  split_ifs <;> simp

/-- Limb `m` of `a <<= 32 k + s` once the rounds `i < j` of the loop have run:
the rounds `m - k` and `m - k - 1` are the only ones that write it. -/
def shiftLeftPartial (a : List UInt32) (k s j m : Nat) : UInt32 :=
  (if k ≤ m ∧ m < j + k then a.getD (m - k) 0 <<< s.toUInt32 else 0) |||
    (if s ≠ 0 ∧ k + 1 ≤ m ∧ m < j + k + 1 then a.getD (m - k - 1) 0 >>> (32 - s).toUInt32 else 0)

theorem shiftLeftPartial_zero (a : List UInt32) (k s m : Nat) : shiftLeftPartial a k s 0 m = 0 := by
  unfold shiftLeftPartial
  rw [if_neg (by omega), if_neg (by omega), UInt32.zero_or]

theorem shiftLeftPartial_succ (a : List UInt32) (k s j m : Nat) :
    shiftLeftPartial a k s (j + 1) m =
      if m = j + k then shiftLeftPartial a k s j m ||| a.getD j 0 <<< s.toUInt32
      else if m = j + k + 1 ∧ s ≠ 0 then shiftLeftPartial a k s j m ||| a.getD j 0 >>> (32 - s).toUInt32
      else shiftLeftPartial a k s j m := by
  unfold shiftLeftPartial
  by_cases h1 : m = j + k
  · subst h1
    have e : j + k - k = j := by omega
    simp only [if_true, e]
    split_ifs <;> first | omega | simp [UInt32.or_comm]
  · by_cases h2 : m = j + k + 1 ∧ s ≠ 0
    · obtain ⟨rfl, hs⟩ := h2
      have e : j + k + 1 - k - 1 = j := by omega
      rw [if_neg h1, if_pos (show j + k + 1 = j + k + 1 ∧ s ≠ 0 from ⟨rfl, hs⟩), e]
      split_ifs <;> first | omega | simp
    · rw [if_neg h1, if_neg h2]
      have c1 : (k ≤ m ∧ m < j + 1 + k) ↔ (k ≤ m ∧ m < j + k) := by omega
      have c2 : (s ≠ 0 ∧ k + 1 ≤ m ∧ m < j + 1 + k + 1) ↔ (s ≠ 0 ∧ k + 1 ≤ m ∧ m < j + k + 1) := by omega
      simp only [c1, c2]

theorem getD_shiftLeft (a : BaseUint WIDTH) (shift : UInt32) {m : Nat} (hm : m < WIDTH) :
    (a.shiftLeft shift).pn.getD m 0 = shiftLeftPartial a.pn (shift.toNat / 32) (shift.toNat % 32) WIDTH m := by
  let I := fun j (pn : List UInt32) =>
    pn.length = WIDTH ∧ ∀ m < WIDTH, pn.getD m 0 = shiftLeftPartial a.pn (shift.toNat / 32) (shift.toNat % 32) j m
  have h : I WIDTH (a.shiftLeft shift).pn := by
    apply foldl_range_inv I
    · refine ⟨List.length_replicate, fun m _ => ?_⟩
      rw [shiftLeftPartial_zero]
      simp
    · rintro j pn - ⟨hlen, hget⟩
      refine ⟨by rw [length_shiftLeftStep, hlen], fun m hm => ?_⟩
      rw [getD_shiftLeftStep hlen hm, shiftLeftPartial_succ, hget m hm]
  exact h.2 m hm

theorem testBit_shiftLeftPartial {a : List UInt32} {k s m b : Nat} (hs : s < 32) (hb : b < 32) (hm : m < WIDTH) :
    (shiftLeftPartial a k s WIDTH m).toNat.testBit b =
      (decide (32 * k + s ≤ 32 * m + b) && (limbsVal a).testBit (32 * m + b - (32 * k + s))) := by
  unfold shiftLeftPartial
  rw [UInt32.toNat_or, Nat.testBit_or, testBit_limbsVal]
  by_cases hsb : s ≤ b
  · have hlow : (if s ≠ 0 ∧ k + 1 ≤ m ∧ m < WIDTH + k + 1 then a.getD (m - k - 1) 0 >>> (32 - s).toUInt32
        else 0).toNat.testBit b = false := by
      split_ifs
      · rw [testBit_limb_shiftRight _ (by omega), testBit_limb_of_le _ (by omega)]
      · rw [UInt32.toNat_zero, Nat.zero_testBit]
    rw [hlow, Bool.or_false]
    by_cases hkm : k ≤ m
    · rw [if_pos ⟨hkm, by omega⟩, testBit_limb_shiftLeft _ hs hb, decide_eq_true hsb, decide_eq_true (by omega),
        Bool.true_and, Bool.true_and, show (32 * m + b - (32 * k + s)) / 32 = m - k by omega,
        show (32 * m + b - (32 * k + s)) % 32 = b - s by omega]
    · rw [if_neg (by omega), decide_eq_false (by omega), Bool.false_and, UInt32.toNat_zero, Nat.zero_testBit]
  · have hhigh : (if k ≤ m ∧ m < WIDTH + k then a.getD (m - k) 0 <<< s.toUInt32 else 0).toNat.testBit b = false := by
      split_ifs
      · rw [testBit_limb_shiftLeft _ hs hb, decide_eq_false hsb, Bool.false_and]
      · rw [UInt32.toNat_zero, Nat.zero_testBit]
    rw [hhigh, Bool.false_or]
    by_cases hkm : k + 1 ≤ m
    · rw [if_pos ⟨by omega, hkm, by omega⟩, testBit_limb_shiftRight _ (by omega), decide_eq_true (by omega),
        Bool.true_and, show (32 * m + b - (32 * k + s)) / 32 = m - k - 1 by omega,
        show (32 * m + b - (32 * k + s)) % 32 = 32 - s + b by omega]
    · rw [if_neg (by omega), decide_eq_false (by omega), Bool.false_and, UInt32.toNat_zero, Nat.zero_testBit]

theorem toNat_shiftLeft (a : BaseUint WIDTH) (shift : UInt32) :
    (a.shiftLeft shift).toNat = a.toNat * 2 ^ shift.toNat % 2 ^ (32 * WIDTH) := by
  apply Nat.eq_of_testBit_eq
  intro p
  rw [Nat.testBit_mod_two_pow, Nat.testBit_mul_two_pow, toNat, testBit_limbsVal]
  by_cases hp : p < 32 * WIDTH
  · rw [getD_shiftLeft a shift (by omega), testBit_shiftLeftPartial (Nat.mod_lt _ (by norm_num))
      (Nat.mod_lt _ (by norm_num)) (by omega), decide_eq_true hp, Bool.true_and, toNat,
      Nat.div_add_mod, Nat.div_add_mod]
  · rw [List.getD_eq_default _ _ (by rw [(a.shiftLeft shift).length_pn]; omega), decide_eq_false hp, Bool.false_and, UInt32.toNat_zero, Nat.zero_testBit]

theorem getD_shiftRightStep {a pn : List UInt32} {k s i m : Nat} (hm : m < pn.length) :
    (shiftRightStep a k s pn i).getD m 0 =
      if m + k = i then pn.getD m 0 ||| a.getD i 0 >>> s.toUInt32
      else if m + k + 1 = i ∧ s ≠ 0 then pn.getD m 0 ||| a.getD i 0 <<< (32 - s).toUInt32
      else pn.getD m 0 := by
  unfold shiftRightStep
  split_ifs <;> simp only [getD_modify, List.length_modify] <;> (try split_ifs) <;> first | rfl | omega

theorem length_shiftRightStep (a pn : List UInt32) (k s i : Nat) : (shiftRightStep a k s pn i).length = pn.length := by
  unfold shiftRightStep
  split_ifs <;> simp

/-- Limb `m` of `a >>= 32 k + s` once the rounds `i < j` of the loop have run:
the rounds `m + k` and `m + k + 1` are the only ones that write it. -/
def shiftRightPartial (a : List UInt32) (k s j m : Nat) : UInt32 :=
  (if m + k < j then a.getD (m + k) 0 >>> s.toUInt32 else 0) |||
    (if s ≠ 0 ∧ m + k + 1 < j then a.getD (m + k + 1) 0 <<< (32 - s).toUInt32 else 0)

theorem shiftRightPartial_zero (a : List UInt32) (k s m : Nat) : shiftRightPartial a k s 0 m = 0 := by
  unfold shiftRightPartial
  rw [if_neg (by omega), if_neg (by omega), UInt32.zero_or]

theorem shiftRightPartial_succ (a : List UInt32) (k s j m : Nat) :
    shiftRightPartial a k s (j + 1) m =
      if m + k = j then shiftRightPartial a k s j m ||| a.getD j 0 >>> s.toUInt32
      else if m + k + 1 = j ∧ s ≠ 0 then shiftRightPartial a k s j m ||| a.getD j 0 <<< (32 - s).toUInt32
      else shiftRightPartial a k s j m := by
  unfold shiftRightPartial
  by_cases h1 : m + k = j
  · subst h1
    rw [if_pos rfl, if_pos (by omega), if_neg (by omega), if_neg (by omega), if_neg (by omega)]
    simp
  · by_cases h2 : m + k + 1 = j ∧ s ≠ 0
    · obtain ⟨rfl, hs⟩ := h2
      rw [if_neg h1, if_pos (show m + k + 1 = m + k + 1 ∧ s ≠ 0 from ⟨rfl, hs⟩), if_pos (by omega),
        if_pos (by omega), if_pos (by omega), if_neg (by omega)]
      simp
    · rw [if_neg h1, if_neg h2]
      have c1 : m + k < j + 1 ↔ m + k < j := by omega
      have c2 : (s ≠ 0 ∧ m + k + 1 < j + 1) ↔ (s ≠ 0 ∧ m + k + 1 < j) := by omega
      simp only [c1, c2]

theorem getD_shiftRight (a : BaseUint WIDTH) (shift : UInt32) {m : Nat} (hm : m < WIDTH) :
    (a.shiftRight shift).pn.getD m 0 = shiftRightPartial a.pn (shift.toNat / 32) (shift.toNat % 32) WIDTH m := by
  let I := fun j (pn : List UInt32) =>
    pn.length = WIDTH ∧ ∀ m < WIDTH, pn.getD m 0 = shiftRightPartial a.pn (shift.toNat / 32) (shift.toNat % 32) j m
  have h : I WIDTH (a.shiftRight shift).pn := by
    apply foldl_range_inv I
    · refine ⟨List.length_replicate, fun m _ => ?_⟩
      rw [shiftRightPartial_zero]
      simp
    · rintro j pn - ⟨hlen, hget⟩
      refine ⟨by rw [length_shiftRightStep, hlen], fun m hm => ?_⟩
      rw [getD_shiftRightStep (by omega), shiftRightPartial_succ, hget m hm]
  exact h.2 m hm

theorem testBit_shiftRightPartial {a : List UInt32} {k s m b : Nat} (hs : s < 32) (hb : b < 32)
    (ha : a.length = WIDTH) :
    (shiftRightPartial a k s WIDTH m).toNat.testBit b = (limbsVal a).testBit (32 * m + b + (32 * k + s)) := by
  unfold shiftRightPartial
  rw [UInt32.toNat_or, Nat.testBit_or, testBit_limbsVal]
  have hout : ∀ i, WIDTH ≤ i → ∀ c, (a.getD i 0).toNat.testBit c = false := by
    intro i hi c
    rw [List.getD_eq_default _ _ (by omega), UInt32.toNat_zero, Nat.zero_testBit]
  by_cases hbs : b + s < 32
  · have hhigh : (if s ≠ 0 ∧ m + k + 1 < WIDTH then a.getD (m + k + 1) 0 <<< (32 - s).toUInt32
        else 0).toNat.testBit b = false := by
      split_ifs
      · rw [testBit_limb_shiftLeft _ (by omega) hb, decide_eq_false (by omega), Bool.false_and]
      · rw [UInt32.toNat_zero, Nat.zero_testBit]
    rw [hhigh, Bool.or_false, show (32 * m + b + (32 * k + s)) / 32 = m + k by omega,
      show (32 * m + b + (32 * k + s)) % 32 = s + b by omega]
    split_ifs with hmk
    · rw [testBit_limb_shiftRight _ hs]
    · rw [UInt32.toNat_zero, Nat.zero_testBit, hout _ (by omega)]
  · have hlow : (if m + k < WIDTH then a.getD (m + k) 0 >>> s.toUInt32 else 0).toNat.testBit b = false := by
      split_ifs
      · rw [testBit_limb_shiftRight _ hs, testBit_limb_of_le _ (by omega)]
      · rw [UInt32.toNat_zero, Nat.zero_testBit]
    rw [hlow, Bool.false_or, show (32 * m + b + (32 * k + s)) / 32 = m + k + 1 by omega,
      show (32 * m + b + (32 * k + s)) % 32 = b - (32 - s) by omega]
    split_ifs with hmk
    · rw [testBit_limb_shiftLeft _ (by omega) hb, decide_eq_true (by omega), Bool.true_and]
    · rw [UInt32.toNat_zero, Nat.zero_testBit, hout _ (by omega)]

theorem toNat_shiftRight (a : BaseUint WIDTH) (shift : UInt32) :
    (a.shiftRight shift).toNat = a.toNat / 2 ^ shift.toNat := by
  apply Nat.eq_of_testBit_eq
  intro p
  rw [Nat.testBit_div_two_pow, toNat, testBit_limbsVal]
  by_cases hp : p < 32 * WIDTH
  · rw [getD_shiftRight a shift (by omega), testBit_shiftRightPartial (Nat.mod_lt _ (by norm_num))
      (Nat.mod_lt _ (by norm_num)) a.length_pn, Nat.div_add_mod, Nat.div_add_mod, toNat]
  · rw [List.getD_eq_default _ _ (by rw [(a.shiftRight shift).length_pn]; omega), UInt32.toNat_zero,
      Nat.zero_testBit]
    exact (Nat.testBit_eq_false_of_lt (a.toNat_lt.trans_le (Nat.pow_le_pow_right (by norm_num) (by omega)))).symm

/-! ## Restoring division -/

theorem toNat_setBit (a : BaseUint WIDTH) {shift : Nat} (h : shift < 32 * WIDTH) :
    (a.setBit shift).toNat = a.toNat ||| 2 ^ shift := by
  apply Nat.eq_of_testBit_eq
  intro p
  rw [Nat.testBit_or, Nat.testBit_two_pow, toNat, toNat, testBit_limbsVal, testBit_limbsVal]
  simp only [setBit]
  rw [getD_modify, a.length_pn]
  by_cases hq : shift / 32 = p / 32
  · rw [if_pos ⟨hq, by omega⟩, UInt32.toNat_or, Nat.testBit_or, toNat_one_shiftLeft (Nat.mod_lt _ (by norm_num)),
      Nat.testBit_two_pow]
    congr 2
    apply propext
    omega
  · rw [if_neg (fun h => hq h.1), decide_eq_false (by omega), Bool.or_false]

/-- What `operator/=` keeps true at the top of each round `shift` of its loop,
dividing `N` by `B`: `div` is the divisor moved up by `shift` bits, the
remainder and the quotient so far still make up `N`, the remainder is below
twice `div`, and the quotient has no bit at `shift` or below. -/
structure DivInv (B N shift : Nat) (num div quot : BaseUint WIDTH) : Prop where
  div_eq : div.toNat = B * 2 ^ shift
  conserve : num.toNat + B * quot.toNat = N
  num_lt : num.toNat < B * 2 ^ (shift + 1)
  dvd : 2 ^ (shift + 1) ∣ quot.toNat
  shift_lt : shift < 32 * WIDTH

/-- One round: the remainder drops below `div`, and bit `shift` of the
quotient is set exactly when `div` was subtracted. -/
theorem divRound_inv {B N shift : Nat} {num div quot : BaseUint WIDTH} (h : DivInv B N shift num div quot) :
    let r := if num.compareTo div ≥ 0 then (num.sub div, quot.setBit shift) else (num, quot)
    r.1.toNat < B * 2 ^ shift ∧ r.1.toNat + B * r.2.toNat = N ∧ 2 ^ shift ∣ r.2.toNat := by
  have hdiv := h.div_eq
  have hcons := h.conserve
  have hlt := h.num_lt
  have hsh := h.shift_lt
  obtain ⟨c, hc⟩ := h.dvd
  have hpow : B * 2 ^ (shift + 1) = 2 * (B * 2 ^ shift) := by rw [Nat.pow_succ]; ring
  by_cases hge : num.compareTo div ≥ 0
  · have hle := (compareTo_nonneg_iff num div).mp hge
    have hq : (quot.setBit shift).toNat = quot.toNat + 2 ^ shift := by
      rw [toNat_setBit quot hsh, hc, ← Nat.two_pow_add_eq_or_of_lt (Nat.pow_lt_pow_succ (by norm_num))]
    simp only [if_pos hge]
    refine ⟨by rw [toNat_sub_of_le hle]; omega, by rw [toNat_sub_of_le hle, hq, Nat.mul_add]; omega,
      ⟨2 * c + 1, by rw [hq, hc, Nat.pow_succ]; ring⟩⟩
  · have hlt' : num.toNat < div.toNat := Nat.lt_of_not_le fun h => hge ((compareTo_nonneg_iff num div).mpr h)
    simp only [if_neg hge]
    exact ⟨by omega, hcons, ⟨2 * c, by rw [hc, Nat.pow_succ]; ring⟩⟩

theorem divLoop_zero (num div quot : BaseUint WIDTH) :
    divLoop 0 num div quot = (if num.compareTo div ≥ 0 then (num.sub div, quot.setBit 0) else (num, quot)).2 := by
  rw [divLoop]

theorem divLoop_succ (shift : Nat) (num div quot : BaseUint WIDTH) :
    divLoop (shift + 1) num div quot =
      let r := if num.compareTo div ≥ 0 then (num.sub div, quot.setBit (shift + 1)) else (num, quot)
      divLoop shift r.1 (div.shiftRight 1) r.2 := by
  rw [divLoop]

theorem divLoop_spec {B N : Nat} (hB : 0 < B) :
    ∀ (shift : Nat) (num div quot : BaseUint WIDTH), DivInv B N shift num div quot →
      (divLoop shift num div quot).toNat = N / B
  | 0, num, div, quot, h => by
    obtain ⟨hlt, hcons, -⟩ := divRound_inv h
    rw [Nat.pow_zero, Nat.mul_one] at hlt
    rw [divLoop_zero, ← hcons, Nat.add_mul_div_left _ _ hB, Nat.div_eq_of_lt hlt, Nat.zero_add]
  | shift + 1, num, div, quot, h => by
    obtain ⟨hlt, hcons, hdvd⟩ := divRound_inv h
    rw [divLoop_succ]
    apply divLoop_spec hB shift
    refine ⟨?_, hcons, hlt, hdvd, by have := h.shift_lt; omega⟩
    rw [toNat_shiftRight, h.div_eq, UInt32.toNat_one, Nat.pow_succ, ← Nat.mul_assoc, Nat.pow_one,
      Nat.mul_div_cancel _ (by norm_num)]

theorem toNat_zero : (zero WIDTH).toNat = 0 := limbsVal_replicate_zero WIDTH

/-- The state `operator/=` enters its loop in, for a non-zero divisor whose
bit length does not exceed the dividend's. -/
theorem divInv_init (a b : BaseUint WIDTH) (hW : 32 * WIDTH < 2 ^ 32) (hB : 0 < b.toNat)
    (hle : b.toNat.size ≤ a.toNat.size) :
    DivInv b.toNat a.toNat (a.toNat.size - b.toNat.size) a
      (b.shiftLeft (a.toNat.size - b.toNat.size).toUInt32) (zero WIDTH) := by
  have hsN : a.toNat.size ≤ 32 * WIDTH := Nat.size_le.mpr a.toNat_lt
  have hsB : 0 < b.toNat.size := Nat.size_pos.mpr hB
  have hBlt := Nat.lt_size_self b.toNat
  have hBge : 2 ^ (b.toNat.size - 1) ≤ b.toNat := Nat.lt_size.mp (by omega)
  have hNlt := Nat.lt_size_self a.toNat
  set s := a.toNat.size - b.toNat.size with hs
  have hsN' : a.toNat.size = b.toNat.size + s := by omega
  have hdiv : b.toNat * 2 ^ s < 2 ^ (32 * WIDTH) :=
    calc b.toNat * 2 ^ s < 2 ^ b.toNat.size * 2 ^ s := Nat.mul_lt_mul_of_pos_right hBlt (Nat.two_pow_pos s)
      _ = 2 ^ a.toNat.size := by rw [← Nat.pow_add, hsN']
      _ ≤ 2 ^ (32 * WIDTH) := Nat.pow_le_pow_right (by norm_num) hsN
  refine ⟨?_, by rw [toNat_zero, Nat.mul_zero, Nat.add_zero], ?_, ⟨0, by rw [toNat_zero, Nat.mul_zero]⟩, by omega⟩
  · rw [toNat_shiftLeft, Nat.toUInt32_eq, UInt32.toNat_ofNat', Nat.mod_eq_of_lt (show s < 2 ^ 32 by omega),
      Nat.mod_eq_of_lt hdiv]
  · calc a.toNat < 2 ^ a.toNat.size := hNlt
      _ = 2 ^ (b.toNat.size - 1) * 2 ^ (s + 1) := by rw [← Nat.pow_add]; congr 1; omega
      _ ≤ b.toNat * 2 ^ (s + 1) := Nat.mul_le_mul_right _ hBge

/-- `operator/=` is the floor of the quotient, and it throws exactly for a
zero divisor. -/
theorem toNat_div (a b : BaseUint WIDTH) (hW : 32 * WIDTH < 2 ^ 32) :
    (a.div b).map toNat = if b.toNat = 0 then .error ⟨"Division by zero"⟩ else .ok (a.toNat / b.toNat) := by
  unfold div
  simp only [bits_eq_size]
  by_cases hB : b.toNat = 0
  · rw [if_pos (by rw [hB, Nat.size_zero]), if_pos hB]
    rfl
  rw [if_neg (fun h => hB (Nat.size_eq_zero.mp h)), if_neg hB]
  by_cases hgt : b.toNat.size > a.toNat.size
  · have hlt : a.toNat < b.toNat := Nat.lt_of_not_le fun h => Nat.not_le_of_gt hgt (Nat.size_le_size h)
    rw [if_pos hgt, Nat.div_eq_of_lt hlt, ← @toNat_zero WIDTH]
    rfl
  · rw [if_neg hgt]
    exact congrArg Except.ok
      (divLoop_spec (Nat.pos_of_ne_zero hB) _ _ _ _ (divInv_init a b hW (Nat.pos_of_ne_zero hB) (by omega)))

/-! ## `arith_uint256` -/

/-- `arith_uint256` is `base_uint<256>`, eight limbs: both `*=`, `/=`, `<<=`
and `>>=` compute the arithmetic of numbers below `2^256` exactly, the shifts
for every shift count. -/
theorem baseUint256_exact (a b : BaseUint 8) (b32 shift : UInt32) :
    (a.mulU32 b32).toNat = a.toNat * b32.toNat % 2 ^ 256 ∧
    (a.mul b).toNat = a.toNat * b.toNat % 2 ^ 256 ∧
    (a.div b).map toNat = (if b.toNat = 0 then .error ⟨"Division by zero"⟩ else .ok (a.toNat / b.toNat)) ∧
    (a.shiftLeft shift).toNat = a.toNat * 2 ^ shift.toNat % 2 ^ 256 ∧
    (a.shiftRight shift).toNat = a.toNat / 2 ^ shift.toNat :=
  ⟨toNat_mulU32 a b32, toNat_mul a b, toNat_div a b (by norm_num), toNat_shiftLeft a shift, toNat_shiftRight a shift⟩

end BaseUint

end Ring.Arith
