import Mathlib

/-!
# Base conversion in a fixed buffer

A number kept as the digits of base `B` of a buffer of fixed size, most
significant first, is multiplied by `M` and has a carry added by a loop that
walks the buffer from its least significant digit. The loop stops at the end
of the buffer, or as soon as the carry is spent and the digits still ahead
are known to be zero: `length` counts the digits that may be non-zero.
Converting a number to base `B` from its digits of base `M` is one such pass
per digit.

`mulAddLoop_spec` is what one pass computes: the new digits and the carry
left over make up `M * value + carry` exactly, and the digits from the last
one visited on are still zero. `Buffer.mulAdd` reads it on the buffer: when
the product fits, no carry is left. `Buffer.digits` reads the buffer back:
without its leading zeros it is the list of digits of its value.
`pow_lt_pow_mul_div_add_one` is the size a buffer needs: `n * p / q + 1`
digits of base `b` hold any `n` digits of base `a` once `a ^ q ≤ b ^ p`.
-/
namespace Ring.Lib

/-- The value of a little-endian list of digits of base `B`. -/
def digitsVal (B : Nat) (l : List UInt8) : Nat := Nat.ofDigits B (l.map UInt8.toNat)

@[simp] theorem digitsVal_nil (B : Nat) : digitsVal B [] = 0 := rfl

@[simp] theorem digitsVal_cons (B : Nat) (d : UInt8) (l : List UInt8) :
    digitsVal B (d :: l) = d.toNat + B * digitsVal B l := by
  simp [digitsVal, Nat.ofDigits_cons]

theorem digitsVal_append (B : Nat) (l₁ l₂ : List UInt8) :
    digitsVal B (l₁ ++ l₂) = digitsVal B l₁ + B ^ l₁.length * digitsVal B l₂ := by
  simp [digitsVal, Nat.ofDigits_append]

theorem digitsVal_eq_zero {B : Nat} : ∀ {l : List UInt8}, (∀ d ∈ l, d = 0) → digitsVal B l = 0
  | [], _ => rfl
  | d :: l, h => by
    rw [digitsVal_cons, h d (by simp), digitsVal_eq_zero (fun x hx => h x (by simp [hx]))]
    rfl

theorem digitsVal_lt {B : Nat} (hB : 1 < B) {l : List UInt8} (h : ∀ d ∈ l, d.toNat < B) :
    digitsVal B l < B ^ l.length := by
  have := Nat.ofDigits_lt_base_pow_length hB (l := l.map UInt8.toNat) (by simpa using h)
  rwa [List.length_map] at this

theorem eq_zero_of_getD {l : List UInt8} (h : ∀ j, l.getD j 0 = 0) : ∀ d ∈ l, d = 0 := by
  intro d hd
  obtain ⟨j, hj, rfl⟩ := List.getElem_of_mem hd
  simpa [List.getElem?_eq_getElem hj] using h j

/-! ## One pass of multiply and add -/

/-- `digits = digits * M + carry` in base `B`, over the little-endian digits
from position `i`, while there is a carry or a digit below `length`: the
carry left, the position reached, and the new digits. -/
def mulAddLoop (M B length : Nat) : Nat → Nat → List UInt8 → Nat × Nat × List UInt8
  | carry, i, [] => (carry, i, [])
  | carry, i, d :: ds =>
    if carry ≠ 0 ∨ i < length then
      let carry := carry + M * d.toNat
      let r := mulAddLoop M B length (carry / B) (i + 1) ds
      (r.1, r.2.1, UInt8.ofNat (carry % B) :: r.2.2)
    else (carry, i, d :: ds)

/-- What a pass from position `i` over `ds` with `carry` leaves in `r`. -/
structure MulAddOut (M B i carry : Nat) (ds : List UInt8) (r : Nat × Nat × List UInt8) : Prop where
  length_eq : r.2.2.length = ds.length
  digits_lt : ∀ d ∈ r.2.2, d.toNat < B
  value : digitsVal B r.2.2 + B ^ ds.length * r.1 = M * digitsVal B ds + carry
  start_le : i ≤ r.2.1
  zero_from : ∀ j, r.2.1 ≤ i + j → r.2.2.getD j 0 = 0

theorem toNat_ofNat_mod {B : Nat} (hB0 : 0 < B) (hB : B ≤ 256) (c : Nat) :
    (UInt8.ofNat (c % B)).toNat = c % B := by
  rw [UInt8.toNat_ofNat', Nat.mod_eq_of_lt]
  exact (Nat.mod_lt _ hB0).trans_le (by norm_num; omega)

section
variable {M B length : Nat}

/-- A pass adds `carry` to `M` times the digits, exactly, when every digit at
or above `length` is zero. -/
theorem mulAddLoop_spec (hB : 1 < B) (hB' : B ≤ 256) :
    ∀ (ds : List UInt8) (carry i : Nat), (∀ j, length ≤ i + j → ds.getD j 0 = 0) →
      MulAddOut M B i carry ds (mulAddLoop M B length carry i ds)
  | [], carry, i, _ => ⟨rfl, by simp [mulAddLoop], by simp [mulAddLoop], le_refl i, by simp [mulAddLoop]⟩
  | d :: ds, carry, i, hz => by
    by_cases hc : carry ≠ 0 ∨ i < length
    · obtain ⟨hlen, hlt, hval, hle, hzero⟩ := mulAddLoop_spec hB hB' ds ((carry + M * d.toNat) / B) (i + 1)
        (fun j hj => by simpa using hz (j + 1) (by omega))
      have hdiv := Nat.mod_add_div (carry + M * d.toNat) B
      rw [mulAddLoop, if_pos hc]
      dsimp only
      generalize mulAddLoop M B length ((carry + M * d.toNat) / B) (i + 1) ds = r at hlen hlt hval hle hzero ⊢
      obtain ⟨c', i', ds'⟩ := r
      dsimp only at hlen hlt hval hle hzero ⊢
      refine ⟨?_, ?_, ?_, ?_, ?_⟩ <;> dsimp only
      · simp [hlen]
      · intro x hx
        rcases List.mem_cons.mp hx with rfl | hx
        · rw [toNat_ofNat_mod (by omega) hB']
          exact Nat.mod_lt _ (by omega)
        · exact hlt x hx
      · rw [digitsVal_cons, digitsVal_cons, toNat_ofNat_mod (by omega) hB', List.length_cons, Nat.pow_succ]
        calc (carry + M * d.toNat) % B + B * digitsVal B ds' + B ^ ds.length * B * c'
            = (carry + M * d.toNat) % B + B * (digitsVal B ds' + B ^ ds.length * c') := by ring
          _ = M * (d.toNat + B * digitsVal B ds) + carry := by rw [hval]; linarith
      · omega
      · intro j hj
        cases j with
        | zero => omega
        | succ j => simpa using hzero j (by omega)
    · have hzeros : ∀ x ∈ d :: ds, x = 0 := eq_zero_of_getD fun j => hz j (by omega)
      push Not at hc
      obtain ⟨rfl, hli⟩ := hc
      rw [mulAddLoop, if_neg (by omega)]
      refine ⟨rfl, fun x hx => by rw [hzeros x hx]; exact (by omega : (0 : Nat) < B), ?_, le_refl i,
        fun j _ => hz j (by omega)⟩
      simp only [digitsVal_eq_zero hzeros]
      rfl

end

/-! ## A big-endian buffer -/

/-- A buffer of digits of base `B`, most significant first, whose digits
from position `length` up, counted from the least significant, are zero. -/
structure Buffer (B : Nat) (buf : List UInt8) (length : Nat) : Prop where
  digits_lt : ∀ d ∈ buf, d.toNat < B
  zero_from : ∀ j, length ≤ j → buf.reverse.getD j 0 = 0

theorem Buffer.replicate_zero {B : Nat} (hB : 0 < B) (size : Nat) : Buffer B (List.replicate size 0) 0 where
  digits_lt := fun d hd => by rw [List.eq_of_mem_replicate hd]; exact hB
  zero_from := fun j _ => by
    rw [List.reverse_replicate, List.getD_eq_getElem?_getD, List.getElem?_replicate]
    split <;> rfl

section
variable {B : Nat} {buf : List UInt8} {length : Nat}

/-- One pass on a buffer whose new value still fits: no carry is left, and
the buffer holds `M * value + carry`. -/
theorem Buffer.mulAdd (hB : 1 < B) (hB' : B ≤ 256) (h : Buffer B buf length) (M carry : Nat)
    (hfit : M * digitsVal B buf.reverse + carry < B ^ buf.length) :
    ∃ buf' length', mulAddLoop M B length carry 0 buf.reverse = (0, length', buf'.reverse) ∧
      buf'.length = buf.length ∧ Buffer B buf' length' ∧ digitsVal B buf'.reverse = M * digitsVal B buf.reverse + carry := by
  obtain ⟨hlen, hlt, hval, -, hzero⟩ := @mulAddLoop_spec M B length hB hB' buf.reverse carry 0
    (fun j hj => h.zero_from j (by omega))
  set r := mulAddLoop M B length carry 0 buf.reverse with hr
  rw [List.length_reverse] at hlen hval
  have hc : r.1 = 0 := by
    by_contra hne
    have : B ^ buf.length ≤ B ^ buf.length * r.1 := Nat.le_mul_of_pos_right _ (Nat.pos_of_ne_zero hne)
    omega
  refine ⟨r.2.2.reverse, r.2.1, ?_, by rw [List.length_reverse, hlen], ⟨fun d hd => hlt d (List.mem_reverse.mp hd),
    fun j hj => by rw [List.reverse_reverse]; exact hzero j (by omega)⟩, ?_⟩
  · rw [List.reverse_reverse, ← hc]
  · rw [List.reverse_reverse, ← hval, hc, Nat.mul_zero, Nat.add_zero]

end

/-! ## Reading a buffer back -/

/-- Without its leading zeros, a big-endian digit list is the list of digits
of its value. -/
theorem dropWhile_reverse_eq_digits {B : Nat} (hB : 1 < B) :
    ∀ l : List Nat, (∀ x ∈ l, x < B) → l.reverse.dropWhile (· = 0) = (Nat.digits B (Nat.ofDigits B l)).reverse
  | [], _ => by simp
  | d :: l, h => by
    have hd : d < B := h d (by simp)
    rw [List.reverse_cons, Nat.ofDigits_cons, List.dropWhile_append,
      dropWhile_reverse_eq_digits hB l (fun x hx => h x (by simp [hx]))]
    by_cases hv : Nat.ofDigits B l = 0
    · rw [hv, Nat.digits_zero, Nat.mul_zero, Nat.add_zero]
      by_cases hd0 : d = 0
      · simp [hd0]
      · simp [hd0, Nat.digits_of_lt B d hd0 hd]
    · have hpos : 0 < d + B * Nat.ofDigits B l := by positivity
      have hne : (Nat.digits B (Nat.ofDigits B l)).reverse.isEmpty = false := by
        simpa using Nat.digits_ne_nil_iff_ne_zero.mpr hv
      rw [if_neg (by simp [hne]), Nat.digits_def' hB hpos, Nat.add_mul_mod_self_left, Nat.mod_eq_of_lt hd,
        Nat.add_mul_div_left _ _ (by omega), Nat.div_eq_of_lt hd, Nat.zero_add, List.reverse_cons]

/-- A big-endian digit list with no leading zero is the list of digits of
its value. -/
theorem digits_digitsVal_reverse {B : Nat} (hB : 1 < B) {l : List UInt8} (hl : ∀ d ∈ l, d.toNat < B)
    (hhead : ∀ d ∈ l.head?, d.toNat ≠ 0) : (Nat.digits B (digitsVal B l.reverse)).reverse = l.map UInt8.toNat := by
  rw [digitsVal, Nat.digits_ofDigits B hB _ (by simpa using hl), List.map_reverse, List.reverse_reverse]
  intro hne
  have hl0 : l ≠ [] := by simpa using hne
  rw [List.getLast_map, List.getLast_reverse]
  exact hhead _ (List.head?_eq_some_head hl0)

theorem Buffer.digits {B : Nat} {buf : List UInt8} {length : Nat} (hB : 1 < B) (h : Buffer B buf length) :
    ((buf.drop (buf.length - length)).dropWhile (· = 0)).map UInt8.toNat =
      (Nat.digits B (digitsVal B buf.reverse)).reverse := by
  have hpre : ∀ x ∈ buf.take (buf.length - length), x = 0 := by
    intro x hx
    obtain ⟨p, hp, rfl⟩ := List.getElem_of_mem hx
    rw [List.length_take] at hp
    have hz := h.zero_from (buf.length - 1 - p) (by omega)
    rw [List.getD_eq_getElem?_getD, List.getElem?_eq_getElem (by rw [List.length_reverse]; omega), Option.getD_some,
      List.getElem_reverse] at hz
    rw [List.getElem_take]
    simpa [show buf.length - 1 - (buf.length - 1 - p) = p by omega] using hz
  have hdrop : (buf.drop (buf.length - length)).dropWhile (· = 0) = buf.dropWhile (· = 0) := by
    conv_rhs => rw [← List.take_append_drop (buf.length - length) buf]
    rw [List.dropWhile_append, if_pos]
    simpa [List.dropWhile_eq_nil_iff] using hpre
  have hp : (fun x : UInt8 => decide (x = 0)) = (fun n : Nat => decide (n = 0)) ∘ UInt8.toNat := by
    funext x
    simp only [Function.comp, ← UInt8.toNat_inj, UInt8.toNat_zero]
  rw [hdrop, hp, ← List.dropWhile_map, digitsVal, ← dropWhile_reverse_eq_digits hB _ (by simpa using h.digits_lt),
    List.map_reverse, List.reverse_reverse]

/-! ## The size of a buffer -/

/-- `n * p / q + 1` digits of base `b` hold every number of `n` digits of
base `a`, when `a ^ q ≤ b ^ p`. -/
theorem pow_lt_pow_mul_div_add_one {a b p q : Nat} (hb : 1 < b) (hq : 0 < q) (h : a ^ q ≤ b ^ p) (n : Nat) :
    a ^ n < b ^ (n * p / q + 1) := by
  have hlt : n * p < q * (n * p / q + 1) := Nat.lt_mul_div_succ _ hq
  rw [← Nat.pow_lt_pow_iff_left (Nat.pos_iff_ne_zero.mp hq)]
  calc (a ^ n) ^ q = (a ^ q) ^ n := by rw [← Nat.pow_mul, ← Nat.pow_mul, Nat.mul_comm]
    _ ≤ (b ^ p) ^ n := Nat.pow_le_pow_left h n
    _ = b ^ (n * p) := by rw [← Nat.pow_mul, Nat.mul_comm]
    _ < b ^ (q * (n * p / q + 1)) := Nat.pow_lt_pow_right hb hlt
    _ = (b ^ (n * p / q + 1)) ^ q := by rw [← Nat.pow_mul, Nat.mul_comm]

end Ring.Lib
