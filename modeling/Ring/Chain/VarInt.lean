import Ring.Chain.Serialize

/-!
# Variable-length integers (`WriteVarInt` / `ReadVarInt`)

A VarInt is an MSB-first base-128 encoding: every byte but the last has bit
`0x80` set, and one is subtracted from every digit but the last, so that every
integer has exactly one encoding (src/serialize.h:309-335).
`WriteVarInt` fills a buffer from the least significant digit and writes it
backwards; `ReadVarInt<I>` for an unsigned `I` of `w` bits reads digits into
an `I`, refusing a value that would not fit.

Results:
* `writeVarInt_eq`: the writer as a recursion on the value, the continuation
  digits of `n / 128 - 1` (with their last bit `0x80` set) before the last digit
  of `n`.
* `length_writeVarInt`: the writer writes `GetSizeOfVarInt(n)` bytes.
* `readVarInt_readsBack`, `readVarInt_canonical`: for every width, the reader
  reads back what the writer writes of every value that fits, and every string
  it accepts starts with the writer's output for the value it read.
* `varInt_bijective`: the two together, the claim about every `I`.
-/
namespace Ring.Chain

open Ring.Lib Ring.Lib.Reader

/-- The digits of `WriteVarInt(n)` in the order the loop fills `tmp`, from
`tmp[len]` on: the low seven bits, with `0x80` on every digit after the first.
mirrors src/serialize.h:368-376 -/
def varIntDigits (n len : Nat) : List UInt8 :=
  let digit := UInt8.ofNat ((n &&& 0x7F) ||| (if len = 0 then 0x00 else 0x80))
  if n ≤ 0x7F then [digit] else digit :: varIntDigits ((n >>> 7) - 1) (len + 1)
termination_by n
decreasing_by
  rw [Nat.shiftRight_eq_div_pow]
  omega

/-- `WriteVarInt(os, n)`: `tmp[len]` down to `tmp[0]`.
mirrors src/serialize.h:364-381 -/
def writeVarInt (n : Nat) : List UInt8 := (varIntDigits n 0).reverse

/-- `GetSizeOfVarInt(n)`.
mirrors src/serialize.h:349-359 -/
def getSizeOfVarInt (n : Nat) : Nat :=
  if n ≤ 0x7F then 1 else getSizeOfVarInt ((n >>> 7) - 1) + 1
termination_by n
decreasing_by
  rw [Nat.shiftRight_eq_div_pow]
  omega

/-- The loop of `ReadVarInt<I>` for an `I` of `w` bits, with `n` read so far.
The first test keeps `n << 7` inside `I`.
mirrors src/serialize.h:383-402 -/
def readVarIntFrom (w : Nat) : Nat → StreamReader Nat
  | _, [] => .error endOfData
  | n, chData :: s =>
    if n > (2 ^ w - 1) >>> 7 then .error "ReadVarInt(): size too large"
    else
      let n := (n <<< 7) ||| (chData &&& 0x7F).toNat
      if chData &&& 0x80 ≠ 0 then
        if n = 2 ^ w - 1 then .error "ReadVarInt(): size too large"
        else readVarIntFrom w (n + 1) s
      else .ok (n, s)

/-- `ReadVarInt<I>(is)` for an `I` of `w` bits. -/
def readVarInt (w : Nat) : StreamReader Nat := readVarIntFrom w 0

/-! ## The bit operations on `Nat` values -/

theorem shiftLeft_or_low (n d : Nat) (hd : d < 128) : (n <<< 7) ||| d = n * 128 + d := by
  rw [← Nat.shiftLeft_add_eq_or_of_lt (i := 7) hd, Nat.shiftLeft_eq]

/-- A digit of the writer: the low seven bits of `n`, with `0x80` after the first. -/
theorem toNat_digit (n len : Nat) :
    (UInt8.ofNat ((n &&& 0x7F) ||| (if len = 0 then 0x00 else 0x80))).toNat =
      n % 128 + if len = 0 then 0 else 128 := by
  have hmod : n &&& 0x7F = n % 2 ^ 7 := Nat.and_two_pow_sub_one_eq_mod n 7
  have hlt : n % 2 ^ 7 < 2 ^ 7 := Nat.mod_lt _ (by decide)
  split
  · rw [hmod, Nat.or_zero, UInt8.toNat_ofNat', Nat.mod_eq_of_lt (by omega)]
    rfl
  · rw [hmod, show (0x80 : Nat) = 2 ^ 7 from rfl, Nat.or_two_pow_eq_add_of_lt hlt, UInt8.toNat_ofNat',
      Nat.mod_eq_of_lt (by omega)]

/-! ## The writer -/

/-- One round of the writer's loop, on `Nat` values. -/
theorem varIntDigits_eq (n len : Nat) :
    varIntDigits n len =
      if n ≤ 0x7F then [UInt8.ofNat (n % 128 + if len = 0 then 0 else 128)]
      else UInt8.ofNat (n % 128 + if len = 0 then 0 else 128) :: varIntDigits (n / 128 - 1) (len + 1) := by
  have hdigit : UInt8.ofNat ((n &&& 0x7F) ||| (if len = 0 then 0x00 else 0x80)) =
      UInt8.ofNat (n % 128 + if len = 0 then 0 else 128) := by
    have hlt : n % 128 + (if len = 0 then 0 else 128) < 2 ^ 8 := by split <;> omega
    apply UInt8.toNat_inj.mp
    rw [toNat_digit, UInt8.toNat_ofNat', Nat.mod_eq_of_lt hlt]
  rw [varIntDigits, hdigit, Nat.shiftRight_eq_div_pow]

/-- Every digit after the first carries `0x80`, wherever the loop is. -/
theorem varIntDigits_succ (n len : Nat) : varIntDigits n (len + 1) = varIntDigits n 1 := by
  induction n using Nat.strongRecOn generalizing len with
  | ind n ih =>
    rw [varIntDigits_eq, varIntDigits_eq n 1]
    split
    · rfl
    · rename_i hn
      rw [ih (n / 128 - 1) (by omega) (len + 1), ih (n / 128 - 1) (by omega) 1]
      rfl

/-- The writer as a recursion on the value: the digits of `n / 128 - 1`, every
one with `0x80`, then the last digit of `n`. -/
theorem writeVarInt_eq (n : Nat) :
    writeVarInt n =
      if n ≤ 0x7F then [UInt8.ofNat n]
      else (varIntDigits (n / 128 - 1) 1).reverse ++ [UInt8.ofNat (n % 128)] := by
  rw [writeVarInt, varIntDigits_eq]
  split
  · rename_i hn
    simp [Nat.mod_eq_of_lt (show n < 128 by omega)]
  · simp

theorem length_varIntDigits (n len : Nat) : (varIntDigits n len).length = getSizeOfVarInt n := by
  induction n using Nat.strongRecOn generalizing len with
  | ind n ih =>
    rw [varIntDigits_eq, getSizeOfVarInt, Nat.shiftRight_eq_div_pow]
    split
    · rfl
    · rename_i hn
      rw [List.length_cons, ih (n / 128 - 1) (by omega)]

/-- `WriteVarInt(n)` writes `GetSizeOfVarInt(n)` bytes. -/
theorem length_writeVarInt (n : Nat) : (writeVarInt n).length = getSizeOfVarInt n := by
  rw [writeVarInt, List.length_reverse, length_varIntDigits]

/-! ## The reader -/

variable {w : Nat}

/-- A digit with `0x80` read after `acc`: the value so far, plus one. -/
theorem readVarIntFrom_cont {acc : Nat} {b : UInt8} (hacc : acc ≤ (2 ^ w - 1) / 128)
    (hb : 128 ≤ b.toNat) (hmax : acc * 128 + b.toNat % 128 ≠ 2 ^ w - 1) (s : List UInt8) :
    readVarIntFrom w acc (b :: s) = readVarIntFrom w (acc * 128 + b.toNat % 128 + 1) s := by
  have hcont : b &&& 0x80 ≠ 0 := (and_0x80_ne_zero b).2 hb
  simp only [readVarIntFrom, Nat.shiftRight_eq_div_pow, toNat_and_0x7F,
    shiftLeft_or_low acc _ (Nat.mod_lt _ (by decide))]
  rw [if_neg (by omega), if_pos hcont, if_neg hmax]

/-- The last digit read after `acc`. -/
theorem readVarIntFrom_last {acc : Nat} {b : UInt8} (hacc : acc ≤ (2 ^ w - 1) / 128)
    (hb : b.toNat < 128) (s : List UInt8) :
    readVarIntFrom w acc (b :: s) = .ok (acc * 128 + b.toNat, s) := by
  have hlast : ¬ b &&& 0x80 ≠ 0 := fun h => by have := (and_0x80_ne_zero b).1 h; omega
  simp only [readVarIntFrom, Nat.shiftRight_eq_div_pow, toNat_and_0x7F,
    shiftLeft_or_low acc _ (Nat.mod_lt _ (by decide))]
  rw [if_neg (by omega), if_neg hlast, Nat.mod_eq_of_lt hb]

/-- The continuation digits of `m`, read from the start, leave `m + 1`: by strong
induction on `m`, the digits of `m / 128 - 1` first. -/
theorem readVarIntFrom_varIntDigits (m : Nat) (hm : m + 1 < 2 ^ w) (rest : List UInt8) :
    readVarIntFrom w 0 ((varIntDigits m 1).reverse ++ rest) = readVarIntFrom w (m + 1) rest := by
  induction m using Nat.strongRecOn generalizing rest with
  | ind m ih =>
    have hbyte : (UInt8.ofNat (m % 128 + 128)).toNat = m % 128 + 128 := by
      rw [UInt8.toNat_ofNat', Nat.mod_eq_of_lt (by omega)]
    rw [varIntDigits_eq]
    simp only [Nat.one_ne_zero, ↓reduceIte]
    split
    · rename_i hm'
      rw [List.reverse_singleton, List.singleton_append,
        readVarIntFrom_cont (Nat.zero_le _) (by simp only [hbyte]; omega) (by simp only [hbyte]; omega)]
      simp only [hbyte]
      congr 1
      omega
    · rename_i hm'
      rw [List.reverse_cons, List.append_assoc, List.singleton_append, varIntDigits_succ,
        ih (m / 128 - 1) (by omega) (by omega),
        readVarIntFrom_cont (by omega) (by simp only [hbyte]; omega) (by simp only [hbyte]; omega)]
      simp only [hbyte]
      congr 1
      omega

/-- `ReadVarInt<I>` reads back what `WriteVarInt` writes of every value of `I`. -/
theorem readVarInt_readsBack (w : Nat) : ReadsBack (readVarInt w) writeVarInt (· < 2 ^ w) := by
  intro n rest hn
  rw [readVarInt, writeVarInt_eq]
  split
  · rename_i hn'
    rw [List.singleton_append, readVarIntFrom_last (Nat.zero_le _)
      (by rw [UInt8.toNat_ofNat', Nat.mod_eq_of_lt (by omega)]; omega)]
    rw [UInt8.toNat_ofNat', Nat.mod_eq_of_lt (by omega)]
    simp
  · rename_i hn'
    have hlow : (UInt8.ofNat (n % 128)).toNat = n % 128 := by
      rw [UInt8.toNat_ofNat', Nat.mod_eq_of_lt (by omega)]
    rw [List.append_assoc, List.singleton_append, readVarIntFrom_varIntDigits _ (by omega),
      readVarIntFrom_last (by omega) (by omega), hlow]
    congr 2
    omega

/-- What the reader holding `acc` has read: nothing, or the continuation digits
of `acc - 1`. -/
def varIntPrefix (acc : Nat) : List UInt8 :=
  if acc = 0 then [] else (varIntDigits (acc - 1) 1).reverse

/-- A digit with `0x80` extends what was read. -/
theorem varIntPrefix_cont (acc : Nat) {b : UInt8} (hb : 128 ≤ b.toNat) :
    varIntPrefix acc ++ [b] = varIntPrefix (acc * 128 + b.toNat % 128 + 1) := by
  have hb256 := b.toNat_lt
  have hdigit : UInt8.ofNat ((acc * 128 + b.toNat % 128) % 128 + if 1 = 0 then 0 else 128) = b := by
    apply UInt8.toNat_inj.mp
    rw [if_neg Nat.one_ne_zero, UInt8.toNat_ofNat', Nat.mod_eq_of_lt (by omega)]
    omega
  have hhigh : (acc * 128 + b.toNat % 128) / 128 - 1 = acc - 1 := by omega
  rw [varIntPrefix, varIntPrefix, if_neg (show acc * 128 + b.toNat % 128 + 1 ≠ 0 by omega),
    Nat.add_sub_cancel, varIntDigits_eq (acc * 128 + b.toNat % 128) 1, hdigit, hhigh]
  by_cases h0 : acc = 0
  · rw [if_pos h0, if_pos (by omega)]
    rfl
  · rw [if_neg h0, if_neg (by omega), List.reverse_cons, varIntDigits_succ (acc - 1) 1]

/-- The last digit ends what was read as the writer's output. -/
theorem writeVarInt_of_last (acc : Nat) {b : UInt8} (hb : b.toNat < 128) :
    writeVarInt (acc * 128 + b.toNat) = varIntPrefix acc ++ [b] := by
  have hb256 := b.toNat_lt
  rw [writeVarInt_eq, varIntPrefix]
  split
  · rename_i hsmall
    rw [if_pos (by omega)]
    simp only [List.nil_append, List.singleton_inj]
    apply UInt8.toNat_inj.mp
    rw [UInt8.toNat_ofNat', Nat.mod_eq_of_lt (by omega)]
    omega
  · rename_i hbig
    rw [if_neg (by omega)]
    congr 4
    · omega
    · apply UInt8.toNat_inj.mp
      rw [UInt8.toNat_ofNat', Nat.mod_eq_of_lt (by omega)]
      omega

/-- What the reader accepts after `acc` is what it had read and the rest of the
writer's output, by induction on the input. -/
theorem readVarIntFrom_canonical (hw : 7 ≤ w) : ∀ (s : List UInt8) (acc x : Nat) (rest : List UInt8),
    readVarIntFrom w acc s = .ok (x, rest) → x < 2 ^ w ∧ varIntPrefix acc ++ s = writeVarInt x ++ rest
  | [], _, _, _, h => by cases h
  | b :: s, acc, x, rest, h => by
    have hpow : 2 ^ 7 ∣ 2 ^ w := Nat.pow_dvd_pow 2 hw
    by_cases hacc : acc ≤ (2 ^ w - 1) / 128
    · by_cases hb : 128 ≤ b.toNat
      · by_cases hmax : acc * 128 + b.toNat % 128 = 2 ^ w - 1
        · have hcont : b &&& 0x80 ≠ 0 := (and_0x80_ne_zero b).2 hb
          simp only [readVarIntFrom, Nat.shiftRight_eq_div_pow, toNat_and_0x7F,
            shiftLeft_or_low acc _ (Nat.mod_lt _ (by decide))] at h
          rw [if_neg (by omega), if_pos hcont, if_pos hmax] at h
          cases h
        · rw [readVarIntFrom_cont hacc hb hmax] at h
          obtain ⟨hx, hs⟩ := readVarIntFrom_canonical hw s _ x rest h
          refine ⟨hx, ?_⟩
          rw [← hs, ← varIntPrefix_cont acc hb, List.append_assoc, List.singleton_append]
      · rw [readVarIntFrom_last hacc (by omega)] at h
        cases h
        refine ⟨?_, by rw [writeVarInt_of_last acc (by omega), List.append_assoc, List.singleton_append]⟩
        obtain ⟨k, hk⟩ := hpow
        have : 0 < k := by
          rcases Nat.eq_zero_or_pos k with rfl | hk0
          · simp at hk
          · exact hk0
        rw [hk] at hacc ⊢
        simp only [Nat.reducePow] at hacc ⊢
        omega
    · simp only [readVarIntFrom, Nat.shiftRight_eq_div_pow] at h
      rw [if_pos (by omega)] at h
      cases h

/-- Every string `ReadVarInt<I>` accepts, for an `I` of at least seven bits,
starts with the writer's output for the value it read. -/
theorem readVarInt_canonical (hw : 7 ≤ w) : Canonical (readVarInt w) writeVarInt (· < 2 ^ w) := by
  intro s x rest h
  obtain ⟨hx, hs⟩ := readVarIntFrom_canonical hw s 0 x rest h
  exact ⟨hx, hs.symm⟩

/-- VarInt is a bijection for every unsigned `I` (of at least seven bits, as
every C++ unsigned type is): the reader reads back, in `GetSizeOfVarInt(n)`
bytes, what the writer writes of every value of `I`, and every string it accepts
starts with the writer's output for the value it read. -/
theorem varInt_bijective {w : Nat} (hw : 7 ≤ w) :
    (∀ n rest, n < 2 ^ w →
      readVarInt w (writeVarInt n ++ rest) = .ok (n, rest) ∧ (writeVarInt n).length = getSizeOfVarInt n) ∧
    (∀ s n rest, readVarInt w s = .ok (n, rest) → n < 2 ^ w ∧ writeVarInt n ++ rest = s) :=
  ⟨fun n rest hn => ⟨readVarInt_readsBack w n rest hn, length_writeVarInt n⟩,
    readVarInt_canonical hw⟩

theorem varInt_bijective_uint64 :
    (∀ n rest, n < 2 ^ 64 →
      readVarInt 64 (writeVarInt n ++ rest) = .ok (n, rest) ∧ (writeVarInt n).length = getSizeOfVarInt n) ∧
    (∀ s n rest, readVarInt 64 s = .ok (n, rest) → n < 2 ^ 64 ∧ writeVarInt n ++ rest = s) :=
  varInt_bijective (by decide)

/-- The table of src/serialize.h: `65535` is `[0x82 0xFE 0x7F]`. -/
example : writeVarInt 65535 = [0x82, 0xFE, 0x7F] := by
  simp [writeVarInt, varIntDigits_eq]

end Ring.Chain
