import Mathlib

/-!
# Bech32 decoding (src/bech32.cpp) and `ConvertBits` (src/util/strencodings.h)

A Bech32 string is a human-readable part, the separator `1`, and 5-bit values
in the character set `CHARSET`, the last six of them a BCH checksum over the
expanded human-readable part and the values (`PolyMod`). `bech32::Decode`
returns the lower-cased human-readable part and the values without the
checksum, or an empty pair. `ConvertBits` regroups a list of `frombits`-bit
values into `tobits`-bit ones, most significant bits first.

Results:
* `decode_length`: a decoded string of at most 90 characters has at most 82
  values.
* `convertBits_length`: `ConvertBits` without padding returns
  `frombits * n / tobits` values for `n` inputs.
-/
namespace Ring.Addr

/-- The Bech32 character set for encoding. -/
def CHARSET : List Char := "qpzry9x8gf2tvdw0s3jn54khce6mua7l".toList

/-- The Bech32 character set for decoding, indexed by a 7-bit character.
mirrors src/bech32.cpp:16-25 -/
def CHARSET_REV : List Int :=
  [-1, -1, -1, -1, -1, -1, -1, -1, -1, -1, -1, -1, -1, -1, -1, -1,
   -1, -1, -1, -1, -1, -1, -1, -1, -1, -1, -1, -1, -1, -1, -1, -1,
   -1, -1, -1, -1, -1, -1, -1, -1, -1, -1, -1, -1, -1, -1, -1, -1,
   15, -1, 10, 17, 21, 20, 26, 30, 7, 5, -1, -1, -1, -1, -1, -1,
   -1, 29, -1, 24, 13, 25, 9, 8, 23, -1, 18, 22, 31, 27, 19, -1,
   1, 0, 3, 16, 11, 28, 12, 14, 6, 4, 2, -1, -1, -1, -1, -1,
   -1, 29, -1, 24, 13, 25, 9, 8, 23, -1, 18, 22, 31, 27, 19, -1,
   1, 0, 3, 16, 11, 28, 12, 14, 6, 4, 2, -1, -1, -1, -1, -1]

/-- One round of `PolyMod`: multiply the remainder by `x`, add `v_i`, and
reduce by the generator through the five multiples of `k(x) = x^6 mod g(x)`.
mirrors src/bech32.cpp:74-87 -/
def polyModStep (c : UInt32) (v_i : UInt8) : UInt32 :=
  let c0 := (c >>> 25).toUInt8
  let c := ((c &&& 0x1ffffff) <<< 5) ^^^ v_i.toUInt32
  let c := if c0 &&& 1 != 0 then c ^^^ 0x3b6a57b2 else c
  let c := if c0 &&& 2 != 0 then c ^^^ 0x26508e6d else c
  let c := if c0 &&& 4 != 0 then c ^^^ 0x1ea119fa else c
  let c := if c0 &&& 8 != 0 then c ^^^ 0x3d4233dd else c
  if c0 &&& 16 != 0 then c ^^^ 0x2a1462b3 else c

/-- `PolyMod`: the checksum remainder of `v`, with the implicit leading 1.
mirrors src/bech32.cpp:37-89 -/
def polyMod (v : List UInt8) : UInt32 := v.foldl polyModStep 1

/-- `LowerCase`. -/
def lowerCase (c : Char) : Char :=
  if 'A' ≤ c ∧ c ≤ 'Z' then Char.ofNat (c.toNat - 'A'.toNat + 'a'.toNat) else c

/-- `ExpandHRP`: the high bits of each character, a zero, the low five bits.
mirrors src/bech32.cpp:97-109 -/
def expandHRP (hrp : List Char) : List UInt8 :=
  hrp.map (fun c => UInt8.ofNat c.toNat >>> 5) ++ [0] ++ hrp.map (fun c => UInt8.ofNat c.toNat &&& 0x1f)

/-- `VerifyChecksum`.
mirrors src/bech32.cpp:112-119 -/
def verifyChecksum (hrp : List Char) (values : List UInt8) : Bool := polyMod (expandHRP hrp ++ values) == 1

/-- `str.rfind(c)`: the index of the last `c`. -/
def rfind (c : Char) (str : List Char) : Option Nat :=
  (str.reverse.findIdx? (· == c)).map (str.length - 1 - ·)

/-- The character test of `Decode`'s first loop: outside the letters, only
printable ASCII. -/
def isBech32Printable (c : Char) : Bool :=
  ('a' ≤ c && c ≤ 'z') || ('A' ≤ c && c ≤ 'Z') || !(c.toNat < 33 || c.toNat > 126)

/-- `CHARSET_REV[c]` as a value, `none` for `-1`. -/
def charsetRev (c : Char) : Option UInt8 :=
  let rev := CHARSET_REV.getD c.toNat (-1)
  if rev = -1 then none else some (UInt8.ofNat rev.toNat)

/-- `bech32::Decode`: the lower-cased human-readable part and the values
without the checksum; the empty pair for a string that is not Bech32.
mirrors src/bech32.cpp:145-183 -/
def decode (str : List Char) : List Char × List UInt8 :=
  if !str.all isBech32Printable then ([], []) else
  if (str.any fun c => 'a' ≤ c && c ≤ 'z') && (str.any fun c => 'A' ≤ c && c ≤ 'Z') then ([], []) else
  match rfind '1' str with
  | none => ([], [])
  | some pos =>
    if str.length > 90 || pos = 0 || pos + 7 > str.length then ([], []) else
    match (str.drop (pos + 1)).mapM charsetRev with
    | none => ([], [])
    | some values =>
      if !verifyChecksum ((str.take pos).map lowerCase) values then ([], []) else
      ((str.take pos).map lowerCase, values.take (values.length - 6))

/-- The inner `while (bits >= tobits)` of `ConvertBits`: the values it emits
from the accumulator, and the bits left. -/
def convertBitsOut (tobits acc : Nat) (bits : Nat) : List UInt8 × Nat :=
  if tobits ≤ bits ∧ 0 < tobits then
    let bits' := bits - tobits
    let (outs, left) := convertBitsOut tobits acc bits'
    (UInt8.ofNat ((acc >>> bits') &&& (2 ^ tobits - 1)) :: outs, left)
  else ([], bits)
termination_by bits
decreasing_by omega

/-- One input of `ConvertBits`: shift it into the accumulator, keeping
`frombits + tobits - 1` bits, and emit what is complete. -/
def convertBitsStep (frombits tobits : Nat) (st : List UInt8 × Nat × Nat) (x : UInt8) :
    List UInt8 × Nat × Nat :=
  let acc := ((st.2.1 <<< frombits) ||| x.toNat) &&& (2 ^ (frombits + tobits - 1) - 1)
  let out := convertBitsOut tobits acc (st.2.2 + frombits)
  (st.1 ++ out.1, acc, out.2)

/-- `ConvertBits<frombits, tobits, pad>`: the values it passes to `outfn`,
and its result.
mirrors src/util/strencodings.h:177-198 -/
def convertBitsPush (frombits tobits : Nat) (pad : Bool) (input : List UInt8) : List UInt8 × Bool :=
  let st := input.foldl (convertBitsStep frombits tobits) ([], 0, 0)
  let outs := st.1
  let acc := st.2.1
  let bits := st.2.2
  if pad then
    (if bits ≠ 0 then outs ++ [UInt8.ofNat ((acc <<< (tobits - bits)) &&& (2 ^ tobits - 1))] else outs, true)
  else if bits ≥ frombits || (acc <<< (tobits - bits)) &&& (2 ^ tobits - 1) ≠ 0 then (outs, false)
  else (outs, true)

/-- `ConvertBits` into an empty vector: the values, `none` where it returns
false. -/
def convertBits (frombits tobits : Nat) (pad : Bool) (input : List UInt8) : Option (List UInt8) :=
  match convertBitsPush frombits tobits pad input with
  | (outs, true) => some outs
  | (_, false) => none

/-! ## Lengths -/

theorem rfind_lt {c : Char} {str : List Char} {pos : Nat} (h : rfind c str = some pos) : pos < str.length := by
  unfold rfind at h
  rcases hidx : str.reverse.findIdx? (· == c) with _ | i
  · simp [hidx] at h
  · simp only [hidx, Option.map_some, Option.some.injEq] at h
    have hi := List.findIdx?_eq_some_iff_getElem.mp hidx
    obtain ⟨hlt, -⟩ := hi
    rw [List.length_reverse] at hlt
    omega

theorem length_mapM_of_some {α β : Type} {f : α → Option β} :
    ∀ {l : List α} {r : List β}, l.mapM f = some r → r.length = l.length
  | [], r, h => by
    simp only [List.mapM_nil, pure, Option.some.injEq] at h
    subst h
    rfl
  | a :: l, r, h => by
    rw [List.mapM_cons] at h
    rcases hfa : f a with _ | b
    · simp [hfa, bind] at h
    rcases hl : l.mapM f with _ | bs
    · simp [hfa, hl, bind] at h
    simp only [hfa, hl, bind, Option.bind_some, pure, Option.some.injEq] at h
    subst h
    simp [length_mapM_of_some hl]

/-- What `Decode` accepts: at most 90 characters, the separator after at
least one character and before at least six values, so at most 82 values
are returned. -/
theorem decode_length {str : List Char} {hrp : List Char} {values : List UInt8}
    (h : decode str = (hrp, values)) (hne : values ≠ []) : values.length + 8 ≤ str.length ∧ str.length ≤ 90 := by
  -- every early return is the empty pair
  have hfail : (([] : List Char), ([] : List UInt8)) ≠ (hrp, values) := fun h' => hne (congrArg Prod.snd h').symm
  unfold decode at h
  split at h
  · exact absurd h hfail
  split at h
  · exact absurd h hfail
  split at h
  · exact absurd h hfail
  rename_i pos hpos
  have hlt := rfind_lt hpos
  split at h
  · exact absurd h hfail
  rename_i hbounds
  split at h
  · exact absurd h hfail
  rename_i revs hrevs
  split at h
  · exact absurd h hfail
  simp only [Prod.mk.injEq] at h
  obtain ⟨-, rfl⟩ := h
  have hlen : revs.length = str.length - (pos + 1) := by
    rw [length_mapM_of_some hrevs, List.length_drop]
  simp only [Bool.or_eq_true, decide_eq_true_eq, not_or, Nat.not_lt] at hbounds
  rw [List.length_take, hlen]
  omega

/-- The inner loop emits one value per whole `tobits` bits and keeps the
rest. -/
theorem convertBitsOut_length (tobits acc : Nat) (htobits : 0 < tobits) (bits : Nat) :
    (convertBitsOut tobits acc bits).1.length = bits / tobits ∧
      (convertBitsOut tobits acc bits).2 = bits % tobits := by
  rw [convertBitsOut]
  by_cases hb : tobits ≤ bits
  · have ih := convertBitsOut_length tobits acc htobits (bits - tobits)
    simp only [hb, htobits, and_self, if_true, List.length_cons]
    rw [ih.1, ih.2, Nat.div_eq_sub_div htobits hb, Nat.mod_eq_sub_mod hb]
    exact ⟨rfl, rfl⟩
  · simp only [hb, false_and, if_false, List.length_nil]
    exact ⟨(Nat.div_eq_of_lt (by omega)).symm, (Nat.mod_eq_of_lt (by omega)).symm⟩
termination_by bits
decreasing_by omega

/-- Each input adds `frombits` bits, and what is emitted is counted in whole
`tobits` values. -/
theorem convertBitsStep_length (frombits tobits : Nat) (htobits : 0 < tobits) (st : List UInt8 × Nat × Nat)
    (x : UInt8) :
    (convertBitsStep frombits tobits st x).1.length * tobits + (convertBitsStep frombits tobits st x).2.2 =
        st.1.length * tobits + st.2.2 + frombits ∧
      (convertBitsStep frombits tobits st x).2.2 < tobits := by
  obtain ⟨hlen, hbits⟩ := convertBitsOut_length tobits
    (((st.2.1 <<< frombits) ||| x.toNat) &&& (2 ^ (frombits + tobits - 1) - 1)) htobits (st.2.2 + frombits)
  simp only [convertBitsStep, List.length_append, hlen, hbits]
  refine ⟨?_, Nat.mod_lt _ htobits⟩
  rw [Nat.add_mul, Nat.add_assoc, Nat.div_add_mod']
  omega

theorem foldl_convertBitsStep_length (frombits tobits : Nat) (htobits : 0 < tobits) :
    ∀ (input : List UInt8) (st : List UInt8 × Nat × Nat), st.2.2 < tobits →
      (input.foldl (convertBitsStep frombits tobits) st).1.length * tobits +
          (input.foldl (convertBitsStep frombits tobits) st).2.2 =
        st.1.length * tobits + st.2.2 + frombits * input.length ∧
      (input.foldl (convertBitsStep frombits tobits) st).2.2 < tobits
  | [], _, hst => ⟨by simp, hst⟩
  | x :: xs, st, _ => by
    obtain ⟨hstep, hlt⟩ := convertBitsStep_length frombits tobits htobits st x
    obtain ⟨ih, ihlt⟩ := foldl_convertBitsStep_length frombits tobits htobits xs _ hlt
    refine ⟨?_, ihlt⟩
    rw [List.foldl_cons, ih, hstep, List.length_cons, Nat.mul_succ]
    omega

/-- Without padding, what `ConvertBits` passes on is what the fold emitted. -/
theorem convertBitsPush_fst (frombits tobits : Nat) (input : List UInt8) :
    (convertBitsPush frombits tobits false input).1 = (input.foldl (convertBitsStep frombits tobits) ([], 0, 0)).1 := by
  unfold convertBitsPush
  simp only [Bool.false_eq_true, if_false]
  split_ifs <;> rfl

/-- `ConvertBits` without padding turns `n` inputs into `frombits * n / tobits`
values. -/
theorem convertBits_length {frombits tobits : Nat} (htobits : 0 < tobits) {input out : List UInt8}
    (h : convertBits frombits tobits false input = some out) : out.length = frombits * input.length / tobits := by
  obtain ⟨hlen, hlt⟩ := foldl_convertBitsStep_length frombits tobits htobits input ([], 0, 0) htobits
  have hout : out = (convertBitsPush frombits tobits false input).1 := by
    rcases hp : convertBitsPush frombits tobits false input with ⟨outs, _ | _⟩
    · simp [convertBits, hp] at h
    · simp only [convertBits, hp, Option.some.injEq] at h
      exact h.symm
  rw [hout, convertBitsPush_fst]
  simp only [List.length_nil, Nat.zero_mul, Nat.add_zero, Nat.zero_add] at hlen
  rw [← hlen, Nat.mul_comm, Nat.mul_add_div htobits, Nat.div_eq_of_lt hlt, Nat.add_zero]

end Ring.Addr
