import Mathlib
import Ring.Lib.Wire
import Ring.Script.Script

/-!
# Script numbers (`CScriptNum`, src/script/script.h)

A script number is stored as the bytes `CScriptNum::serialize` writes
(`scriptNumSerialize`): the magnitude little-endian with no zero byte at the
top, and the sign in bit 7 of the last byte, a byte added when the magnitude
already uses that bit. Reading one back, `CScriptNum(vch, fRequireMinimal,
nMaxNumSize)` refuses a vector longer than `nMaxNumSize`, and with
`fRequireMinimal` one whose last byte is `0x00` or `0x80` unless the byte
before it has bit 7 set; `set_vch` then ORs the bytes into an `int64_t` and
clears the sign bit.

`set_vch` shifts `static_cast<int64_t>(vch[i])` left by `8*i`, which C++
leaves undefined once `8*i` reaches 64: the model stops there with
`shiftPastInt64`, as it stops at the other faults of the code. The interpreter
never gets there, since its `nMaxNumSize` is 4 or 5.

Results:
* `scriptNumOfVch_serialize`: every `int64_t` but `INT64_MIN` is read back
  from its serialization, under the minimal rule and the serialization's own
  length as the size limit.
* `scriptNumSerialize_ofVch`: every vector accepted under the minimal rule is
  the serialization of the value read from it.
* `scriptNum_roundTrip`: the two together.
* `scriptNumOfVch_range`: an accepted vector reads as a value strictly inside
  the `int64_t` range.
-/
namespace Ring.Script

open Ring.Lib

/-- What reading a `CScriptNum` can end in besides a value: a
`scriptnum_error`, or a shift of an `int64_t` by 64 bits or more in
`set_vch`, which C++ leaves undefined. -/
inductive ScriptNumFault where
  | scriptnum_error (what : String)
  | shiftPastInt64
  deriving DecidableEq, Repr

/-- The loop of `set_vch` from byte `i` on:
`result |= static_cast<int64_t>(vch[i]) << 8*i`. -/
def setVchLoop : Nat → Nat → List UInt8 → Except ScriptNumFault Nat
  | _, result, [] => .ok result
  | i, result, b :: bs =>
    if 8 * i ≥ 64 then .error .shiftPastInt64
    else setVchLoop (i + 1) (result ||| b.toNat <<< (8 * i)) bs

/-- `CScriptNum::set_vch`. The complement `~(0x80ULL << k)` is taken in 64
bits, as the XOR with `2 ^ 64 - 1`; the value returned without a sign is
below `2 ^ 63` whenever the loop ends (`scriptNumSetVch_append`), so the
`int64_t` reads it as it is.
mirrors src/script/script.h:365-380 -/
def scriptNumSetVch (vch : List UInt8) : Except ScriptNumFault Int :=
  match vch.getLast? with
  | none => .ok 0
  | some back => do
    let result ← setVchLoop 0 0 vch
    if back &&& 0x80 ≠ 0 then
      return -((result &&& ((2 ^ 64 - 1) ^^^ (0x80 <<< (8 * (vch.length - 1)))) : Nat) : Int)
    return (result : Int)

/-- `CScriptNum::nDefaultMaxNumSize`. -/
def nDefaultMaxNumSize : Nat := 4

/-- `CScriptNum(vch, fRequireMinimal, nMaxNumSize)`.
mirrors src/script/script.h:229-254 -/
def scriptNumOfVch (vch : List UInt8) (fRequireMinimal : Bool) (nMaxNumSize : Nat) :
    Except ScriptNumFault Int :=
  if vch.length > nMaxNumSize then .error (.scriptnum_error "script number overflow")
  else if fRequireMinimal = true ∧ vch.length > 0 ∧ vch.getLastD 0 &&& 0x7f = 0 ∧
      (vch.length ≤ 1 ∨ vch.getD (vch.length - 2) 0 &&& 0x80 = 0) then
    .error (.scriptnum_error "non-minimally encoded script number")
  else scriptNumSetVch vch

/-! ## The bit operations of `set_vch` on `Nat` values -/

/-- The loop ORs byte `i` into bits that are still clear, so it adds. -/
theorem setVchLoop_eq (bs : List UInt8) :
    ∀ i result, i + bs.length ≤ 8 → result < 256 ^ i →
      setVchLoop i result bs = .ok (result + readLE bs * 256 ^ i) := by
  induction bs with
  | nil => intro i result _ _; simp [setVchLoop, readLE]
  | cons b bs ih =>
    intro i result hlen hres
    have hpow : (2 : Nat) ^ (8 * i) = 256 ^ i := by rw [Nat.pow_mul]
    have hb256 := b.toNat_lt
    have hor : result ||| b.toNat <<< (8 * i) = result + b.toNat * 256 ^ i := by
      rw [Nat.or_comm, ← Nat.shiftLeft_add_eq_or_of_lt (hpow ▸ hres), Nat.shiftLeft_eq, hpow]
      omega
    have hnext : result + b.toNat * 256 ^ i < 256 ^ (i + 1) := by
      have hb : b.toNat * 256 ^ i ≤ 255 * 256 ^ i := Nat.mul_le_mul_right _ (by omega)
      rw [Nat.pow_succ]
      omega
    simp only [List.length_cons] at hlen
    rw [setVchLoop, if_neg (by omega), hor, ih (i + 1) _ (by omega) hnext]
    simp only [readLE, Nat.pow_succ]
    ring_nf

/-- Past the eighth byte the loop shifts by 64 bits. -/
theorem setVchLoop_long (bs : List UInt8) :
    ∀ i result, i ≤ 8 → 8 < i + bs.length → setVchLoop i result bs = .error .shiftPastInt64 := by
  induction bs with
  | nil => intro i _ hi hlen; simp at hlen; omega
  | cons b bs ih =>
    intro i result hi hlen
    simp only [List.length_cons] at hlen
    rw [setVchLoop]
    split
    · rfl
    · exact ih (i + 1) _ (by omega) (by omega)

/-- Clearing bit `j` of a value below `2 ^ (j + 1)` with the 64-bit mask
`~(1 << j)` keeps its bits below `j`. -/
theorem and_clear_top_bit {v j : Nat} (hv : v < 2 ^ (j + 1)) (hj : j < 64) :
    v &&& ((2 ^ 64 - 1) ^^^ 2 ^ j) = v % 2 ^ j := by
  apply Nat.eq_of_testBit_eq
  intro i
  rw [Nat.testBit_and, Nat.testBit_xor, Nat.testBit_two_pow_sub_one, Nat.testBit_two_pow,
    Nat.testBit_mod_two_pow]
  rcases Nat.lt_trichotomy i j with hij | rfl | hij
  · simp [hij, Nat.ne_of_gt hij, show i < 64 by omega]
  · simp [hj]
  -- above bit `j` the value has no bits at all
  · have hzero : v.testBit i = false :=
      Nat.testBit_lt_two_pow (lt_of_lt_of_le hv (Nat.pow_le_pow_right (by decide) hij))
    simp [hzero]

/-- `set_vch` on at most eight bytes: the bytes as a little-endian magnitude,
with the sign bit of the last byte taken off as the sign. -/
theorem scriptNumSetVch_append (init : List UInt8) (back : UInt8) (hlen : init.length < 8) :
    scriptNumSetVch (init ++ [back]) =
      .ok (if 128 ≤ back.toNat then -((readLE init + (back.toNat - 128) * 256 ^ init.length : Nat) : Int)
        else ((readLE init + back.toNat * 256 ^ init.length : Nat) : Int)) := by
  have hloop := setVchLoop_eq (init ++ [back]) 0 0 (by simp; omega) (by simp)
  rw [readLE_append_singleton] at hloop
  have hlo := readLE_lt init
  have hb := back.toNat_lt
  simp only [scriptNumSetVch, List.getLast?_append, List.getLast?_singleton, Option.some_or,
    hloop, Reader.ok_bind]
  by_cases hsign : 128 ≤ back.toNat
  · have hpow : (2 : Nat) ^ (8 * init.length + 7) = 128 * 256 ^ init.length := by
      rw [Nat.pow_add, Nat.pow_mul, Nat.mul_comm]
    have hmask : (0x80 : Nat) <<< (8 * ((init ++ [back]).length - 1)) = 2 ^ (8 * init.length + 7) := by
      simp only [List.length_append, List.length_singleton, Nat.add_sub_cancel, Nat.shiftLeft_eq]
      rw [Nat.pow_add, Nat.mul_comm]
    have hsplit : 0 + (readLE init + back.toNat * 256 ^ init.length) * 256 ^ 0 =
        (readLE init + (back.toNat - 128) * 256 ^ init.length) + 2 ^ (8 * init.length + 7) := by
      rw [hpow, Nat.pow_zero, Nat.mul_one, Nat.zero_add, Nat.add_assoc, ← Nat.add_mul,
        Nat.sub_add_cancel hsign]
    have hrest : readLE init + (back.toNat - 128) * 256 ^ init.length < 2 ^ (8 * init.length + 7) := by
      have : (back.toNat - 128) * 256 ^ init.length ≤ 127 * 256 ^ init.length :=
        Nat.mul_le_mul_right _ (by omega)
      omega
    have hclear := and_clear_top_bit (v := 0 + (readLE init + back.toNat * 256 ^ init.length) * 256 ^ 0)
      (j := 8 * init.length + 7) (by rw [hsplit, Nat.pow_succ 2 (8 * init.length + 7)]; omega) (by omega)
    rw [hsplit, Nat.add_mod_right, Nat.mod_eq_of_lt hrest, ← hsplit] at hclear
    rw [if_pos ((and_0x80_ne_zero back).mpr hsign), hmask, hclear, if_pos hsign]
    rfl
  · rw [if_neg (fun h => hsign ((and_0x80_ne_zero back).mp h)), if_neg hsign]
    simp

theorem scriptNumSetVch_long {vch : List UInt8} (h : 8 < vch.length) :
    scriptNumSetVch vch = .error .shiftPastInt64 := by
  obtain ⟨init, back, rfl⟩ := List.eq_nil_or_concat' vch |>.resolve_left (by rintro rfl; simp at h)
  simp only [scriptNumSetVch, List.getLast?_append, List.getLast?_singleton, Option.some_or,
    setVchLoop_long (init ++ [back]) 0 0 (by omega) (by simpa using h), Reader.error_bind]

/-! ## The minimal rule -/

/-- The minimal rule on a vector `init ++ [back]`: the last byte carries
magnitude bits, or the byte before it has bit 7 set. -/
def MinimalTop (init : List UInt8) (back : UInt8) : Prop :=
  back.toNat % 128 ≠ 0 ∨ ∃ p ∈ init.getLast?, 128 ≤ p.toNat

theorem minimal_check_iff (init : List UInt8) (back : UInt8) :
    ¬ ((init ++ [back]).getLastD 0 &&& 0x7f = 0 ∧
      ((init ++ [back]).length ≤ 1 ∨ (init ++ [back]).getD ((init ++ [back]).length - 2) 0 &&& 0x80 = 0)) ↔
      MinimalTop init back := by
  have hlow : back &&& 0x7f = 0 ↔ back.toNat % 128 = 0 := by
    rw [← UInt8.toNat_inj, toNat_and_0x7F]; rfl
  rcases List.eq_nil_or_concat' init with rfl | ⟨init', p, rfl⟩
  · simp [MinimalTop, hlow]
  · have hp : p &&& 0x80 = 0 ↔ ¬ 128 ≤ p.toNat := by
      rw [← and_0x80_ne_zero, not_not]
    simp [MinimalTop, hlow, hp, List.getD_eq_getElem?_getD]
    tauto

/-- An accepted vector is empty (the value 0), or at most eight bytes, meeting
the minimal rule when it is asked for, that read as the value. -/
theorem scriptNumOfVch_ok {vch : List UInt8} {fRequireMinimal : Bool} {nMaxNumSize : Nat} {v : Int}
    (h : scriptNumOfVch vch fRequireMinimal nMaxNumSize = .ok v) :
    vch = [] ∧ v = 0 ∨
      ∃ init back, vch = init ++ [back] ∧ init.length < 8 ∧
        (fRequireMinimal = true → MinimalTop init back) ∧ scriptNumSetVch (init ++ [back]) = .ok v := by
  rcases List.eq_nil_or_concat' vch with rfl | ⟨init, back, rfl⟩
  · left
    simp [scriptNumOfVch, scriptNumSetVch] at h
    exact ⟨rfl, h.symm⟩
  · right
    unfold scriptNumOfVch at h
    split at h
    · cases h
    split at h
    · cases h
    rename_i hmin
    have hshort : init.length < 8 := by
      by_contra hlong
      rw [scriptNumSetVch_long (by simp; omega)] at h
      cases h
    refine ⟨init, back, rfl, hshort, fun hreq => ?_, h⟩
    rw [← minimal_check_iff]
    simp [hreq] at hmin
    simpa using hmin

theorem scriptNumOfVch_of_minimal {init : List UInt8} {back : UInt8} {nMaxNumSize : Nat}
    (hsize : (init ++ [back]).length ≤ nMaxNumSize) (hmin : MinimalTop init back) :
    scriptNumOfVch (init ++ [back]) true nMaxNumSize = scriptNumSetVch (init ++ [back]) := by
  rw [← minimal_check_iff] at hmin
  unfold scriptNumOfVch
  rw [if_neg (by omega), if_neg (by simpa using hmin)]

/-! ## The bytes `serialize` writes -/

@[simp] theorem magnitudeBytes_zero (fuel : Nat) : magnitudeBytes fuel 0 = [] := by
  cases fuel <;> simp [magnitudeBytes]

theorem length_magnitudeBytes_le (fuel v : Nat) : (magnitudeBytes fuel v).length ≤ fuel := by
  induction fuel generalizing v with
  | zero => simp [magnitudeBytes]
  | succ fuel ih =>
    simp only [magnitudeBytes]
    split
    · simp
    · simpa using ih (v / 256)

theorem readLE_magnitudeBytes (fuel v : Nat) (hv : v < 256 ^ fuel) :
    readLE (magnitudeBytes fuel v) = v := by
  induction fuel generalizing v with
  | zero => simp at hv; simp [hv, magnitudeBytes, readLE]
  | succ fuel ih =>
    simp only [magnitudeBytes]
    split
    · simp [readLE, *]
    · rw [readLE, ih (v / 256) (by rw [Nat.pow_succ] at hv; omega), UInt8.toNat_ofNat']
      omega

/-- The loop stops at the magnitude's top byte, which is not zero. -/
theorem magnitudeBytes_getLast (fuel v : Nat) (hv : v < 256 ^ fuel) :
    (magnitudeBytes fuel v).getLast? ≠ some 0 := by
  induction fuel generalizing v with
  | zero => simp [magnitudeBytes]
  | succ fuel ih =>
    have hrest := ih (v / 256) (by rw [Nat.pow_succ] at hv; omega)
    simp only [magnitudeBytes]
    split
    · simp
    · rename_i hv0
      cases hbs : magnitudeBytes fuel (v / 256) with
      -- the top byte: the rest of the magnitude is zero, so this byte is all of it
      | nil =>
        have hzero : v / 256 = 0 := by
          have := readLE_magnitudeBytes fuel (v / 256) (by rw [Nat.pow_succ] at hv; omega)
          rwa [hbs, readLE, eq_comm] at this
        simp only [List.getLast?_singleton, ne_eq, Option.some.injEq]
        rw [← UInt8.toNat_inj, UInt8.toNat_ofNat']
        simp
        omega
      | cons c cs =>
        rw [hbs] at hrest
        simpa [List.getLast?_cons_cons] using hrest

/-- Bytes with no zero byte at the top are the loop's bytes of the value they
read as. -/
theorem magnitudeBytes_readLE (bs : List UInt8) (fuel : Nat) (hlast : bs.getLast? ≠ some 0)
    (hlen : bs.length ≤ fuel) : magnitudeBytes fuel (readLE bs) = bs := by
  induction bs generalizing fuel with
  | nil => simp [readLE]
  | cons b bs ih =>
    obtain ⟨fuel, rfl⟩ : ∃ f, fuel = f + 1 := ⟨fuel - 1, by simp at hlen; omega⟩
    have hb := b.toNat_lt
    have hrest : magnitudeBytes fuel (readLE bs) = bs :=
      ih fuel (by cases bs <;> simp_all [List.getLast?_cons_cons]) (by simp at hlen; omega)
    have hne : b.toNat + 256 * readLE bs ≠ 0 := by
      cases bs with
      | nil =>
        have : b ≠ 0 := by simpa using hlast
        simp [readLE]
        exact fun h => this (UInt8.toNat_inj.mp (by simpa using h))
      | cons c cs =>
        intro h0
        have : readLE (c :: cs) = 0 := by omega
        rw [this, magnitudeBytes_zero] at hrest
        cases hrest
    have hmod : (b.toNat + 256 * readLE bs) % 256 = b.toNat := by omega
    have hdiv : (b.toNat + 256 * readLE bs) / 256 = readLE bs := by omega
    rw [readLE, magnitudeBytes, if_neg hne, hmod, hdiv, hrest, UInt8.ofNat_toNat]

/-- `serialize` of a non-zero value from the loop's bytes `init ++ [last]` of its
magnitude: a sign byte is added when `last` uses bit 7, else the sign goes
into `last`. -/
theorem scriptNumSerialize_eq {value : Int} {init : List UInt8} {last : UInt8} (hv : value ≠ 0)
    (hmag : magnitudeBytes 8 value.natAbs = init ++ [last]) :
    scriptNumSerialize value =
      if 128 ≤ last.toNat then init ++ [last, if value < 0 then 0x80 else 0]
      else if value < 0 then init ++ [last ||| 0x80] else init ++ [last] := by
  simp only [scriptNumSerialize, if_neg hv, hmag, List.getLast?_append, List.getLast?_singleton,
    Option.some_or, bne_iff_ne, and_0x80_ne_zero, List.dropLast_concat]
  by_cases hsign : 128 ≤ last.toNat
  · simp [hsign]
  · simp [hsign]

/-- The sign set in a byte below `0x80`. -/
theorem toNat_or_0x80 {b : UInt8} (h : b.toNat < 128) : (b ||| 0x80).toNat = b.toNat + 128 := by
  rw [UInt8.toNat_or]
  have : (0x80 : UInt8).toNat = 2 ^ 7 := rfl
  rw [this, Nat.or_two_pow_eq_add_of_lt h]

/-! ## The two directions -/

/-- Every `int64_t` but `INT64_MIN` round trips through `serialize` and the
reader under the minimal rule. -/
theorem scriptNumOfVch_serialize (v : Int) (hlo : -2 ^ 63 < v) (hhi : v < 2 ^ 63) :
    scriptNumOfVch (scriptNumSerialize v) true (scriptNumSerialize v).length = .ok v := by
  rcases eq_or_ne v 0 with rfl | hv
  · rfl
  have habs : v.natAbs < 2 ^ 63 := by omega
  have hfit : v.natAbs < 256 ^ 8 := by omega
  have hread := readLE_magnitudeBytes 8 v.natAbs hfit
  have htop := magnitudeBytes_getLast 8 v.natAbs hfit
  have hlen := length_magnitudeBytes_le 8 v.natAbs
  obtain ⟨init, last, hmag⟩ := List.eq_nil_or_concat' (magnitudeBytes 8 v.natAbs) |>.resolve_left
    (fun h => by rw [h, readLE] at hread; omega)
  rw [hmag] at hread htop hlen
  rw [readLE_append_singleton] at hread
  simp only [List.getLast?_append, List.getLast?_singleton, Option.some_or, ne_eq,
    Option.some.injEq] at htop
  have hlast0 : last.toNat ≠ 0 := fun h => htop (UInt8.toNat_inj.mp h)
  simp only [List.length_append, List.length_singleton] at hlen
  rw [scriptNumSerialize_eq hv hmag]
  by_cases hsign : 128 ≤ last.toNat
  -- a sign byte after `last`: the magnitude fits in seven bytes
  · have hshort : init.length < 7 := by
      have hge : 128 * 256 ^ init.length ≤ v.natAbs := by
        rw [← hread]; exact le_add_left (Nat.mul_le_mul_right _ hsign)
      have : 256 ^ init.length < 256 ^ 7 := by omega
      exact (Nat.pow_lt_pow_iff_right (by decide)).mp this
    have hvch : init ++ [last, if v < 0 then 0x80 else 0] = (init ++ [last]) ++ [if v < 0 then 0x80 else 0] := by
      simp
    rw [if_pos hsign, hvch, scriptNumOfVch_of_minimal le_rfl (.inr ⟨last, by simp, hsign⟩),
      scriptNumSetVch_append _ _ (by simp; omega), readLE_append_singleton]
    by_cases hneg : v < 0
    · have h128 : (if v < 0 then (0x80 : UInt8) else 0).toNat = 128 := by rw [if_pos hneg]; rfl
      rw [h128, if_pos le_rfl, Nat.sub_self, Nat.zero_mul, Nat.add_zero, hread]
      congr 1
      omega
    · have h0 : (if v < 0 then (0x80 : UInt8) else 0).toNat = 0 := by rw [if_neg hneg]; rfl
      rw [h0, if_neg (by decide), Nat.zero_mul, Nat.add_zero, hread]
      congr 1
      omega
  -- the sign in `last`
  · have hlow : last.toNat % 128 ≠ 0 := by omega
    by_cases hneg : v < 0
    · rw [if_neg hsign, if_pos hneg]
      have hset := toNat_or_0x80 (b := last) (by omega)
      rw [scriptNumOfVch_of_minimal le_rfl (.inl (by rw [hset]; omega)),
        scriptNumSetVch_append _ _ (by omega), hset, if_pos (by omega), Nat.add_sub_cancel, hread]
      congr 1
      omega
    · rw [if_neg hsign, if_neg hneg, scriptNumOfVch_of_minimal le_rfl (.inl hlow),
        scriptNumSetVch_append _ _ (by omega), if_neg hsign, hread]
      congr 1
      omega

/-- Every vector the reader accepts under the minimal rule is the
serialization of the value it reads. -/
theorem scriptNumSerialize_ofVch {vch : List UInt8} {nMaxNumSize : Nat} {v : Int}
    (h : scriptNumOfVch vch true nMaxNumSize = .ok v) : scriptNumSerialize v = vch := by
  rcases scriptNumOfVch_ok h with ⟨rfl, rfl⟩ | ⟨init, back, rfl, hlen, hmin, hset⟩
  · rfl
  rw [scriptNumSetVch_append _ _ hlen] at hset
  have hb := back.toNat_lt
  have hlo := readLE_lt init
  by_cases hlow : back.toNat % 128 ≠ 0
  -- `back` carries magnitude bits: the magnitude's bytes end in `back` without its sign
  · have hlast : (back &&& 0x7f).toNat = back.toNat % 128 := toNat_and_0x7F back
    have hlastNe : (init ++ [back &&& 0x7f]).getLast? ≠ some 0 := by
      simp only [List.getLast?_append, List.getLast?_singleton, Option.some_or, ne_eq,
        Option.some.injEq, ← UInt8.toNat_inj, hlast, UInt8.toNat_zero]
      exact hlow
    have hmagBytes := magnitudeBytes_readLE _ 8 hlastNe (by simp; omega)
    rw [readLE_append_singleton, hlast] at hmagBytes
    have hpos : 0 < readLE init + back.toNat % 128 * 256 ^ init.length :=
      Nat.add_pos_right _ (Nat.mul_pos (by omega) (Nat.pow_pos (by decide)))
    by_cases hsign : 128 ≤ back.toNat
    · have hbyte : (back &&& 0x7f) ||| 0x80 = back := by
        apply UInt8.toNat_inj.mp
        rw [toNat_or_0x80 (by omega), hlast]
        omega
      rw [if_pos hsign, show back.toNat - 128 = back.toNat % 128 by omega] at hset
      cases hset
      have hmagV := hmagBytes
      rw [← Int.natAbs_natCast (readLE init + _), ← Int.natAbs_neg] at hmagV
      rw [scriptNumSerialize_eq (by omega) hmagV, if_neg (by omega), if_pos (by omega), hbyte]
    · have hbyte : back &&& 0x7f = back := by
        apply UInt8.toNat_inj.mp
        rw [hlast]
        omega
      rw [if_neg hsign, show back.toNat = back.toNat % 128 by omega] at hset
      cases hset
      have hmagV := hmagBytes
      rw [← Int.natAbs_natCast (readLE init + _)] at hmagV
      rw [scriptNumSerialize_eq (by omega) hmagV, if_neg (by omega), if_neg (by omega), hbyte]
  -- `back` is the sign byte alone: the magnitude's bytes are `init`, ending in a byte with bit 7 set
  · have hzero : back.toNat % 128 = 0 := not_not.mp hlow
    obtain ⟨p, hp, hptop⟩ := (hmin rfl).resolve_left hlow
    obtain ⟨init', rfl⟩ := List.getLast?_eq_some_iff.mp hp
    have hmagBytes : magnitudeBytes 8 (readLE (init' ++ [p])) = init' ++ [p] :=
      magnitudeBytes_readLE _ 8 (by simp [← UInt8.toNat_inj]; omega) (by simp at hlen ⊢; omega)
    have hpos : 0 < readLE (init' ++ [p]) := by
      rw [readLE_append_singleton]
      exact Nat.add_pos_right _ (Nat.mul_pos (by omega) (Nat.pow_pos (by decide)))
    by_cases hsign : 128 ≤ back.toNat
    · have hsignByte : back = 0x80 := UInt8.toNat_inj.mp (by simp; omega)
      rw [if_pos hsign, show back.toNat - 128 = 0 by omega, Nat.zero_mul, Nat.add_zero] at hset
      cases hset
      have hmagV := hmagBytes
      rw [← Int.natAbs_natCast (readLE _), ← Int.natAbs_neg] at hmagV
      rw [scriptNumSerialize_eq (by omega) hmagV, if_pos hptop, if_pos (by omega), hsignByte]
      simp
    · have hsignByte : back = 0 := UInt8.toNat_inj.mp (by simp; omega)
      rw [if_neg hsign, show back.toNat = 0 by omega, Nat.zero_mul, Nat.add_zero] at hset
      cases hset
      have hmagV := hmagBytes
      rw [← Int.natAbs_natCast (readLE _)] at hmagV
      rw [scriptNumSerialize_eq (by omega) hmagV, if_pos hptop, if_neg (by omega), hsignByte]
      simp

/-- Script numbers round trip minimally: `serialize` is read back under the
minimal rule for every `int64_t` but `INT64_MIN`, and every vector accepted
under it is `serialize` of its value. -/
theorem scriptNum_roundTrip :
    (∀ v : Int, -2 ^ 63 < v → v < 2 ^ 63 →
      scriptNumOfVch (scriptNumSerialize v) true (scriptNumSerialize v).length = .ok v) ∧
    (∀ vch nMaxNumSize v, scriptNumOfVch vch true nMaxNumSize = .ok v → scriptNumSerialize v = vch) :=
  ⟨scriptNumOfVch_serialize, fun _ _ _ h => scriptNumSerialize_ofVch h⟩

example : scriptNumOfVch [0xff, 0x80] true nDefaultMaxNumSize = .ok (-255) := by decide
example : scriptNumOfVch [0x80] true nDefaultMaxNumSize =
    .error (.scriptnum_error "non-minimally encoded script number") := by decide

/-- An accepted vector reads as a value strictly inside the `int64_t` range. -/
theorem scriptNumOfVch_range {vch : List UInt8} {fRequireMinimal : Bool} {nMaxNumSize : Nat} {v : Int}
    (h : scriptNumOfVch vch fRequireMinimal nMaxNumSize = .ok v) : -2 ^ 63 < v ∧ v < 2 ^ 63 := by
  rcases scriptNumOfVch_ok h with ⟨-, rfl⟩ | ⟨init, back, -, hlen, -, hset⟩
  · decide
  rw [scriptNumSetVch_append _ _ hlen] at hset
  have hb := back.toNat_lt
  have hlo := readLE_lt init
  -- the magnitude is at most seven bytes and seven bits
  have hmag : ∀ x < 128, readLE init + x * 256 ^ init.length < 2 ^ 63 := by
    intro x hx
    have hx' : x * 256 ^ init.length ≤ 127 * 256 ^ init.length := Nat.mul_le_mul_right _ (by omega)
    have hpow : 256 ^ init.length ≤ 256 ^ 7 := Nat.pow_le_pow_right (by decide) (by omega)
    omega
  by_cases hsign : 128 ≤ back.toNat
  · rw [if_pos hsign] at hset
    cases hset
    have := hmag (back.toNat - 128) (by omega)
    omega
  · rw [if_neg hsign] at hset
    cases hset
    have := hmag back.toNat (by omega)
    omega

/-- `0xff 0x80` reads as `-255`, inside the range. -/
theorem scriptNumOfVch_range_neg :
    scriptNumOfVch [0xff, 0x80] true nDefaultMaxNumSize = .ok (-255) ∧ -2 ^ 63 < (-255 : Int) ∧ (-255 : Int) < 2 ^ 63 :=
  have h : scriptNumOfVch [0xff, 0x80] true nDefaultMaxNumSize = .ok (-255) := by decide
  ⟨h, scriptNumOfVch_range h⟩

end Ring.Script
