import Mathlib
import Ring.Addr.KeyIO
import Ring.Lib.Radix
import Ring.Lib.Wire

/-!
# Base58 and Base58Check encoding (src/base58.cpp)

`EncodeBase58` writes a `1` for each leading zero byte, then the rest of the
bytes as a number in base 58, most significant digit first, in the alphabet
`pszBase58`. It converts with a buffer `b58` of `n * 138 / 100 + 1` digits
for `n` bytes, one pass of `b58 = b58 * 256 + byte` per byte, and asserts
that no carry is left after a pass. `DecodeBase58` (in `KeyIO.lean`) is the
same conversion the other way, into `n * 733 / 1000 + 1` bytes for `n`
digits. `EncodeBase58Check` appends the first four bytes of the double
SHA-256 of the payload, which `DecodeBase58Check` checks and strips.

Both inner loops are `mulAddLoop` of `Ring.Lib.Radix`: the decoder's
`base58MulAdd` computes it (`base58MulAdd_eq`), the encoder's is it at
`M = 256`, `B = 58`.

Results:
* `base58Bytes_spec`, `base58Digits_ok`, `base58Digits_digits`: the byte
  loop of the encoder and the digit loop of the decoder convert exactly, and
  their buffers are large enough that no carry assertion fires: the decoder's
  for every string.
* `encodeBase58_eq`: the encoding is the `1`s of the leading zero bytes and
  the base-58 digits of the rest, without leading zeros.
* `base58_round_trip`: decoding an encoding gives the bytes back, with and
  without the check bytes, and the decoder never faults.
-/
namespace Ring.Addr

open Ring.Arith Ring.Chain Ring.Node Ring.Lib

/-! ## The encoder -/

/-- The alphabet `pszBase58`.
mirrors src/base58.cpp:15 -/
def pszBase58 : List Char := "123456789ABCDEFGHJKLMNPQRSTUVWXYZabcdefghijkmnopqrstuvwxyz".toList

/-- The inner loop of `EncodeBase58`: `b58 = b58 * 256 + carry` over the
digits from the least significant, while there is a carry or a digit below
`length`. -/
def base256MulAdd (length : Nat) : Nat → Nat → List UInt8 → Nat × Nat × List UInt8 :=
  mulAddLoop 256 58 length

/-- The byte loop of `EncodeBase58` over the big-endian `b58` and its
`length` of significant digits. -/
def base58Bytes (length : Nat) (b58 : List UInt8) : List UInt8 → Except Fault (List UInt8 × Nat)
  | [] => pure (b58, length)
  | c :: cs =>
    let r := base256MulAdd length c.toNat 0 b58.reverse
    if r.1 ≠ 0 then throw .assertion else
    base58Bytes r.2.1 r.2.2.reverse cs

/-- `EncodeBase58` of a byte vector: a `1` for each leading zero byte, then
the base-58 digits of the rest without leading zeros.
mirrors src/base58.cpp:84-127 -/
def encodeBase58 (vch : List UInt8) : Except Fault (List Char) := do
  let zeroes := (vch.takeWhile (· = 0)).length
  let pbegin := vch.dropWhile (· = 0)
  let size := pbegin.length * 138 / 100 + 1
  let (b58, length) ← base58Bytes 0 (List.replicate size 0) pbegin
  let it := (b58.drop (size - length)).dropWhile (· = 0)
  return List.replicate zeroes '1' ++ it.map (fun d => pszBase58.getD d.toNat (Char.ofNat 0))

/-- `EncodeBase58Check`: the payload and the first four bytes of its double
SHA-256.
mirrors src/base58.cpp:134-141 -/
def encodeBase58Check (env : Env) (vchIn : List UInt8) : Except Fault (List Char) :=
  encodeBase58 (vchIn ++ (env.hashWriter vchIn).data.take 4)

/-! ## The alphabet -/

theorem mapBase58_pszBase58 : ∀ d < 58, mapBase58.getD (pszBase58.getD d (Char.ofNat 0)).toNat (-1) = d := by
  decide

theorem pszBase58_chars : ∀ d < 58, isSpace (pszBase58.getD d (Char.ofNat 0)) = false ∧
    pszBase58.getD d (Char.ofNat 0) ≠ Char.ofNat 0 ∧ (pszBase58.getD d (Char.ofNat 0) = '1' ↔ d = 0) := by
  decide

set_option maxRecDepth 20000 in
theorem mapBase58_range : ∀ x ∈ mapBase58, x = -1 ∨ (0 ≤ x ∧ x < 58) := by
  decide

/-- A character the decoder does not reject is a digit. -/
theorem mapBase58_digit (c : Char) (h : mapBase58.getD c.toNat (-1) ≠ -1) :
    ∃ v : Nat, mapBase58.getD c.toNat (-1) = v ∧ v < 58 := by
  rw [List.getD_eq_getElem?_getD] at h ⊢
  cases hc : mapBase58[c.toNat]? with
  | none => rw [hc] at h; exact absurd rfl h
  | some x =>
    rw [hc] at h
    simp only [Option.getD_some] at h ⊢
    rcases mapBase58_range x (List.mem_of_getElem? hc) with hx | ⟨h0, h58⟩
    · exact absurd hx h
    · exact ⟨x.toNat, by simp [h0], by omega⟩

/-! ## The two loops convert exactly -/

theorem base58MulAdd_eq (length : Nat) :
    ∀ carry i l, base58MulAdd length carry i l = mulAddLoop 58 256 length carry i l
  | _, _, [] => rfl
  | carry, i, b :: bs => by
    simp only [base58MulAdd, mulAddLoop, base58MulAdd_eq length _ (i + 1) bs]

/-- The encoder's loop over the bytes: the buffer ends up holding its value
followed by the bytes, as long as that fits. -/
theorem base58Bytes_spec : ∀ (cs b58 : List UInt8) (length : Nat), Buffer 58 b58 length →
    digitsVal 58 b58.reverse * 256 ^ cs.length + digitsVal 256 cs.reverse < 58 ^ b58.length →
    ∃ b58' length', base58Bytes length b58 cs = .ok (b58', length') ∧ b58'.length = b58.length ∧
      Buffer 58 b58' length' ∧
      digitsVal 58 b58'.reverse = digitsVal 58 b58.reverse * 256 ^ cs.length + digitsVal 256 cs.reverse
  | [], b58, length, h, _ => ⟨b58, length, rfl, rfl, h, by simp⟩
  | c :: cs, b58, length, h, hfit => by
    have hX : digitsVal 256 (c :: cs).reverse = digitsVal 256 cs.reverse + 256 ^ cs.length * c.toNat := by
      rw [List.reverse_cons, digitsVal_append, List.length_reverse, digitsVal_cons, digitsVal_nil, Nat.mul_zero,
        Nat.add_zero]
    have hpow : 0 < 256 ^ cs.length := by positivity
    have hstep : 256 * digitsVal 58 b58.reverse + c.toNat < 58 ^ b58.length :=
      calc 256 * digitsVal 58 b58.reverse + c.toNat
          ≤ (256 * digitsVal 58 b58.reverse + c.toNat) * 256 ^ cs.length := Nat.le_mul_of_pos_right _ hpow
        _ ≤ digitsVal 58 b58.reverse * 256 ^ (c :: cs).length + digitsVal 256 (c :: cs).reverse := by
          rw [hX, List.length_cons, Nat.pow_succ]
          nlinarith
        _ < 58 ^ b58.length := hfit
    obtain ⟨b1, l1, hr, hlen1, hb1, hv1⟩ := h.mulAdd (by norm_num) (by norm_num) 256 c.toNat hstep
    obtain ⟨b2, l2, hr2, hlen2, hb2, hv2⟩ := base58Bytes_spec cs b1 l1 hb1 (by
      rw [hv1, hlen1]
      calc (256 * digitsVal 58 b58.reverse + c.toNat) * 256 ^ cs.length + digitsVal 256 cs.reverse
          = digitsVal 58 b58.reverse * 256 ^ (c :: cs).length + digitsVal 256 (c :: cs).reverse := by
            rw [hX, List.length_cons, Nat.pow_succ]
            ring
        _ < 58 ^ b58.length := hfit)
    refine ⟨b2, l2, ?_, by rw [hlen2, hlen1], hb2, ?_⟩
    · simp only [base58Bytes, base256MulAdd, hr]
      rw [if_neg (by decide), List.reverse_reverse, hr2]
    · rw [hv2, hv1, hX, List.length_cons, Nat.pow_succ]
      ring

/-- One digit of the decoder's loop. -/
theorem base58Digits_cons {c : Char} {v : Nat} (hc : mapBase58.getD c.toNat (-1) = v) (cs : List Char)
    {b256 : List UInt8} {length : Nat} (h : Buffer 256 b256 length)
    (hfit : 58 * digitsVal 256 b256.reverse + v < 256 ^ b256.length) :
    ∃ b1 l1, base58Digits length b256 (c :: cs) = base58Digits l1 b1 cs ∧ b1.length = b256.length ∧
      Buffer 256 b1 l1 ∧ digitsVal 256 b1.reverse = 58 * digitsVal 256 b256.reverse + v := by
  obtain ⟨b1, l1, hr, hlen1, hb1, hv1⟩ := h.mulAdd (by norm_num) (by norm_num) 58 v hfit
  refine ⟨b1, l1, ?_, hlen1, hb1, hv1⟩
  simp only [base58Digits, hc, base58MulAdd_eq, Int.toNat_natCast, hr]
  rw [if_neg (by omega), if_neg (by decide), List.reverse_reverse]

/-- The decoder's loop never faults when its buffer holds every number of
as many digits as are left. -/
theorem base58Digits_ok : ∀ (cs : List Char) (b256 : List UInt8) (length : Nat), Buffer 256 b256 length →
    (digitsVal 256 b256.reverse + 1) * 58 ^ cs.length ≤ 256 ^ b256.length →
    ∃ r, base58Digits length b256 cs = .ok r
  | [], _, _, _, _ => ⟨_, rfl⟩
  | c :: cs, b256, length, h, hfit => by
    by_cases hc : mapBase58.getD c.toNat (-1) = -1
    · refine ⟨none, ?_⟩
      simp only [base58Digits, hc]
      rfl
    obtain ⟨v, hv, hv58⟩ := mapBase58_digit c hc
    have hpow : 58 ≤ 58 ^ (cs.length + 1) := Nat.le_self_pow (by omega) 58
    have hstep : 58 * digitsVal 256 b256.reverse + v < 256 ^ b256.length :=
      calc 58 * digitsVal 256 b256.reverse + v < (digitsVal 256 b256.reverse + 1) * 58 := by omega
        _ ≤ (digitsVal 256 b256.reverse + 1) * 58 ^ (c :: cs).length := Nat.mul_le_mul_left _ hpow
        _ ≤ 256 ^ b256.length := hfit
    obtain ⟨b1, l1, hr, hlen1, hb1, hv1⟩ := base58Digits_cons hv cs h hstep
    rw [hr]
    apply base58Digits_ok cs b1 l1 hb1
    rw [hv1, hlen1]
    calc (58 * digitsVal 256 b256.reverse + v + 1) * 58 ^ cs.length
        ≤ (58 * (digitsVal 256 b256.reverse + 1)) * 58 ^ cs.length := Nat.mul_le_mul_right _ (by omega)
      _ = (digitsVal 256 b256.reverse + 1) * 58 ^ (c :: cs).length := by rw [List.length_cons, Nat.pow_succ]; ring
      _ ≤ 256 ^ b256.length := hfit

/-- The decoder's loop on the characters of base-58 digits: the buffer ends
up holding its value followed by the digits. -/
theorem base58Digits_digits : ∀ (ds b256 : List UInt8) (length : Nat), (∀ d ∈ ds, d.toNat < 58) →
    Buffer 256 b256 length →
    (digitsVal 256 b256.reverse + 1) * 58 ^ ds.length ≤ 256 ^ b256.length →
    ∃ b256' length', base58Digits length b256 (ds.map fun d => pszBase58.getD d.toNat (Char.ofNat 0)) =
        .ok (some (b256', length')) ∧ b256'.length = b256.length ∧ Buffer 256 b256' length' ∧
      digitsVal 256 b256'.reverse = digitsVal 256 b256.reverse * 58 ^ ds.length + digitsVal 58 ds.reverse
  | [], b256, length, _, h, _ => ⟨b256, length, rfl, rfl, h, by simp⟩
  | d :: ds, b256, length, hds, h, hfit => by
    have hd := hds d (by simp)
    have hX : digitsVal 58 (d :: ds).reverse = digitsVal 58 ds.reverse + 58 ^ ds.length * d.toNat := by
      rw [List.reverse_cons, digitsVal_append, List.length_reverse, digitsVal_cons, digitsVal_nil, Nat.mul_zero,
        Nat.add_zero]
    have hpow : 58 ≤ 58 ^ (ds.length + 1) := Nat.le_self_pow (by omega) 58
    have hstep : 58 * digitsVal 256 b256.reverse + d.toNat < 256 ^ b256.length :=
      calc 58 * digitsVal 256 b256.reverse + d.toNat < (digitsVal 256 b256.reverse + 1) * 58 := by omega
        _ ≤ (digitsVal 256 b256.reverse + 1) * 58 ^ (d :: ds).length := Nat.mul_le_mul_left _ hpow
        _ ≤ 256 ^ b256.length := hfit
    obtain ⟨b1, l1, hr, hlen1, hb1, hv1⟩ :=
      base58Digits_cons (mapBase58_pszBase58 d.toNat hd) (ds.map fun d => pszBase58.getD d.toNat (Char.ofNat 0))
        h hstep
    obtain ⟨b2, l2, hr2, hlen2, hb2, hv2⟩ := base58Digits_digits ds b1 l1 (fun x hx => hds x (by simp [hx])) hb1 (by
      rw [hv1, hlen1]
      calc (58 * digitsVal 256 b256.reverse + d.toNat + 1) * 58 ^ ds.length
          ≤ (58 * (digitsVal 256 b256.reverse + 1)) * 58 ^ ds.length := Nat.mul_le_mul_right _ (by omega)
        _ = (digitsVal 256 b256.reverse + 1) * 58 ^ (d :: ds).length := by rw [List.length_cons, Nat.pow_succ]; ring
        _ ≤ 256 ^ b256.length := hfit)
    refine ⟨b2, l2, by rw [List.map_cons, hr, hr2], by rw [hlen2, hlen1], hb2, ?_⟩
    rw [hv2, hv1, hX, List.length_cons, Nat.pow_succ]
    ring

/-! ## Leading zeros and ones -/

section
variable {α : Type} (p : α → Bool)

theorem dropWhile_eq_self {l : List α} (h : ∀ x ∈ l, p x = false) : l.dropWhile p = l := by
  cases l with
  | nil => rfl
  | cons x xs => rw [List.dropWhile_cons_of_neg (by simp [h x (by simp)])]

theorem takeWhile_replicate_append {a : α} (ha : p a = true) (z : Nat) (t : List α) :
    (List.replicate z a ++ t).takeWhile p = List.replicate z a ++ t.takeWhile p := by
  induction z with
  | zero => rfl
  | succ z ih => rw [List.replicate_succ, List.cons_append, List.takeWhile_cons_of_pos ha, ih, List.cons_append]

theorem dropWhile_replicate_append {a : α} (ha : p a = true) (z : Nat) (t : List α) :
    (List.replicate z a ++ t).dropWhile p = t.dropWhile p := by
  induction z with
  | zero => rfl
  | succ z ih => rw [List.replicate_succ, List.cons_append, List.dropWhile_cons_of_pos ha, ih]

end

theorem takeWhile_zero_eq_replicate (v : List UInt8) :
    v.takeWhile (· = 0) = List.replicate (v.takeWhile (· = 0)).length 0 :=
  List.eq_replicate_iff.mpr ⟨rfl, fun b hb => by simpa using List.mem_takeWhile_imp hb⟩

/-! ## Encoding, then decoding -/

/-- `EncodeBase58` never faults: a `1` for each leading zero byte, then the
base-58 digits of the rest, most significant first. -/
theorem encodeBase58_eq (v : List UInt8) :
    ∃ it : List UInt8, encodeBase58 v = .ok (List.replicate (v.takeWhile (· = 0)).length '1' ++
        it.map fun d => pszBase58.getD d.toNat (Char.ofNat 0)) ∧
      it.map UInt8.toNat = (Nat.digits 58 (digitsVal 256 (v.dropWhile (· = 0)).reverse)).reverse := by
  set p := v.dropWhile (· = 0)
  have hX : digitsVal 256 p.reverse < 256 ^ p.length := by
    simpa using digitsVal_lt (B := 256) (by norm_num) (l := p.reverse) (fun d _ => d.toNat_lt)
  have hsize := pow_lt_pow_mul_div_add_one (by norm_num : 1 < 58) (by norm_num : 0 < 100)
    (by norm_num : (256 : Nat) ^ 100 ≤ 58 ^ 138) p.length
  obtain ⟨b58, l, hr, hlen, hb, hv⟩ := base58Bytes_spec p (List.replicate (p.length * 138 / 100 + 1) 0) 0
    (Buffer.replicate_zero (by norm_num) _)
    (by rw [List.reverse_replicate, digitsVal_eq_zero (fun x hx => List.eq_of_mem_replicate hx), List.length_replicate]
        omega)
  rw [List.length_replicate] at hlen
  refine ⟨(b58.drop (p.length * 138 / 100 + 1 - l)).dropWhile (· = 0), ?_, ?_⟩
  · simp only [encodeBase58]
    rw [show v.dropWhile (· = 0) = p from rfl, hr]
    rfl
  · rw [← hlen, hb.digits (by norm_num), hv, List.reverse_replicate,
      digitsVal_eq_zero (fun x hx => List.eq_of_mem_replicate hx), Nat.zero_mul, Nat.zero_add]

/-- The characters of the base-58 digits of a number, without leading zeros:
no space, no `NUL`, and no leading `1`. -/
theorem digitChars_facts {it : List UInt8} {X : Nat} (hit : it.map UInt8.toNat = (Nat.digits 58 X).reverse) :
    (∀ d ∈ it, d.toNat < 58) ∧
      (∀ c ∈ it.map (fun d => pszBase58.getD d.toNat (Char.ofNat 0)), isSpace c = false ∧ c ≠ Char.ofNat 0) ∧
      (it.map fun d => pszBase58.getD d.toNat (Char.ofNat 0)).takeWhile (· = '1') = [] := by
  have hlt : ∀ d ∈ it, d.toNat < 58 := fun d hd =>
    Nat.digits_lt_base (by norm_num) (List.mem_reverse.mp (hit ▸ List.mem_map_of_mem hd))
  refine ⟨hlt, ?_, ?_⟩
  · intro c hc
    obtain ⟨d, hd, rfl⟩ := List.mem_map.mp hc
    exact ⟨(pszBase58_chars d.toNat (hlt d hd)).1, (pszBase58_chars d.toNat (hlt d hd)).2.1⟩
  · cases hit' : it with
    | nil => rfl
    | cons d ds =>
      have hd0 : d.toNat ≠ 0 := by
        have hX0 : X ≠ 0 := by rintro rfl; simp [hit'] at hit
        have hlast := Nat.getLast_digit_ne_zero 58 hX0
        rw [← List.head_reverse (by simpa using Nat.digits_ne_nil_iff_ne_zero.mpr hX0)] at hlast
        simpa [← hit, hit'] using hlast
      have h1 := (pszBase58_chars d.toNat (hlt d (by simp [hit']))).2.2
      rw [List.map_cons]
      exact List.takeWhile_cons_of_neg (by simpa using fun h => hd0 (h1.mp h))

/-- `log 58 / log 256 < 733 / 1000`: the decoder's buffer of `n * 733 / 1000 + 1`
bytes is large enough. -/
theorem pow58_le_pow256 : (58 : Nat) ^ 1000 ≤ 256 ^ 733 := by
  decide +kernel

/-- `DecodeBase58` reads back an encoding: the `1`s as zero bytes, then the
bytes of the number the digits stand for. -/
theorem decodeBase58_encoding (z : Nat) (it : List UInt8) (X : Nat)
    (hit : it.map UInt8.toNat = (Nat.digits 58 X).reverse) :
    ∃ q : List UInt8, decodeBase58 (List.replicate z '1' ++ it.map fun d => pszBase58.getD d.toNat (Char.ofNat 0)) =
        .ok (some (List.replicate z 0 ++ q)) ∧ q.map UInt8.toNat = (Nat.digits 256 X).reverse := by
  obtain ⟨hlt, hchar, hone⟩ := digitChars_facts hit
  obtain ⟨cs, hcs_eq⟩ : ∃ cs, cs = it.map fun d => pszBase58.getD d.toNat (Char.ofNat 0) := ⟨_, rfl⟩
  rw [← hcs_eq] at hchar hone ⊢
  have hdrop1 : cs.dropWhile (· = '1') = cs := by
    have h := List.takeWhile_append_dropWhile (p := fun x => decide (x = '1')) (l := cs)
    rwa [hone, List.nil_append] at h
  have hsize := pow_lt_pow_mul_div_add_one (by norm_num : 1 < 256) (by norm_num : 0 < 1000)
    pow58_le_pow256 it.length
  obtain ⟨b256, l, hr, hlen, hb, hv⟩ := base58Digits_digits it (List.replicate (it.length * 733 / 1000 + 1) 0) 0 hlt
    (Buffer.replicate_zero (by norm_num) _)
    (by rw [List.reverse_replicate, digitsVal_eq_zero (fun x hx => List.eq_of_mem_replicate hx), List.length_replicate]
        omega)
  rw [← hcs_eq] at hr
  rw [List.length_replicate] at hlen
  have hval : digitsVal 256 b256.reverse = X := by
    rw [hv, List.reverse_replicate, digitsVal_eq_zero (fun x hx => List.eq_of_mem_replicate hx), Nat.zero_mul,
      Nat.zero_add, digitsVal, List.map_reverse, hit, List.reverse_reverse, Nat.ofDigits_digits]
  refine ⟨(b256.drop (it.length * 733 / 1000 + 1 - l)).dropWhile (· = 0), ?_, ?_⟩
  · have hnul : (List.replicate z '1' ++ cs).takeWhile (· ≠ Char.ofNat 0) = List.replicate z '1' ++ cs := by
      apply List.takeWhile_eq_self_iff.mpr
      intro c hc
      rcases List.mem_append.mp hc with hc | hc
      · rw [List.eq_of_mem_replicate hc]
        decide
      · simpa using (hchar c hc).2
    have hsp : (List.replicate z '1' ++ cs).dropWhile isSpace = List.replicate z '1' ++ cs := by
      apply dropWhile_eq_self
      intro c hc
      rcases List.mem_append.mp hc with hc | hc
      · rw [List.eq_of_mem_replicate hc]
        decide
      · exact (hchar c hc).1
    have hcs : cs.takeWhile (!isSpace ·) = cs := List.takeWhile_eq_self_iff.mpr fun c hc => by simp [(hchar c hc).1]
    have htrail : (cs.dropWhile (!isSpace ·)).dropWhile isSpace = [] := by
      have hall : cs.dropWhile (!isSpace ·) = [] := List.dropWhile_eq_nil_iff.mpr fun c hc => by simp [(hchar c hc).1]
      rw [hall]
      rfl
    have h1 : decide ('1' = '1') = true := by decide
    have hlen_cs : cs.length = it.length := by rw [hcs_eq, List.length_map]
    simp only [decodeBase58]
    rw [hnul, hsp, dropWhile_replicate_append (fun x => decide (x = '1')) h1, hdrop1,
      takeWhile_replicate_append (fun x => decide (x = '1')) h1, hone, List.append_nil, List.length_replicate, hcs,
      hlen_cs, hr, Reader.ok_bind]
    simp only [htrail, ne_eq, not_true_eq_false, if_false]
    rfl
  · rw [← hlen, hb.digits (by norm_num), hval]

/-- Decoding an encoding gives the bytes back, and the encoding has one
leading `1` for each leading zero byte. -/
theorem decodeBase58_encodeBase58 (v : List UInt8) :
    ∃ s, encodeBase58 v = .ok s ∧ (s.takeWhile (· = '1')).length = (v.takeWhile (· = 0)).length ∧
      decodeBase58 s = .ok (some v) := by
  obtain ⟨it, henc, hit⟩ := encodeBase58_eq v
  obtain ⟨q, hdec, hq⟩ := decodeBase58_encoding (v.takeWhile (· = 0)).length it _ hit
  have h1 : decide ('1' = '1') = true := by decide
  refine ⟨_, henc, ?_, ?_⟩
  · rw [takeWhile_replicate_append (fun x => decide (x = '1')) h1, (digitChars_facts hit).2.2, List.append_nil,
      List.length_replicate]
  · have hhead : ∀ d ∈ (v.dropWhile (· = 0)).head?, d.toNat ≠ 0 := by
      intro d hd
      have hne : v.dropWhile (· = 0) ≠ [] := fun h => by simp [h] at hd
      have h0 := List.head_dropWhile_not (fun x : UInt8 => decide (x = 0)) hne
      rw [List.head?_eq_some_head hne, Option.mem_some_iff] at hd
      rw [← hd, Ne, ← UInt8.toNat_zero, UInt8.toNat_inj]
      simpa using h0
    have hp : q = v.dropWhile (· = 0) := by
      apply List.map_injective_iff.mpr (fun a b h => UInt8.toNat_inj.mp h)
      rw [hq, digits_digitsVal_reverse (by norm_num) (fun d _ => d.toNat_lt) hhead]
    rw [hdec, hp, ← takeWhile_zero_eq_replicate, List.takeWhile_append_dropWhile]

/-- The decoder's carry assertion never fires: its buffer of
`n * 733 / 1000 + 1` bytes holds every number of `n` base-58 digits. -/
theorem decodeBase58_ok (str : List Char) : ∃ r, decodeBase58 str = .ok r := by
  obtain ⟨psz, hpsz⟩ : ∃ psz, psz = ((str.takeWhile (· ≠ Char.ofNat 0)).dropWhile isSpace).dropWhile (· = '1') :=
    ⟨_, rfl⟩
  have hk : (psz.takeWhile (!isSpace ·)).length ≤ psz.length := (List.takeWhile_sublist _).length_le
  have hsize := pow_lt_pow_mul_div_add_one (by norm_num : 1 < 256) (by norm_num : 0 < 1000)
    pow58_le_pow256 psz.length
  obtain ⟨r, hr⟩ := base58Digits_ok (psz.takeWhile (!isSpace ·)) (List.replicate (psz.length * 733 / 1000 + 1) 0) 0
    (Buffer.replicate_zero (by norm_num) _) (by
      rw [List.reverse_replicate, digitsVal_eq_zero (fun x hx => List.eq_of_mem_replicate hx), List.length_replicate,
        Nat.zero_add, Nat.one_mul]
      exact (Nat.pow_le_pow_right (by norm_num) hk).trans hsize.le)
  simp only [decodeBase58]
  rw [← hpsz, hr, Reader.ok_bind]
  rcases r with _ | ⟨b256, length⟩
  · exact ⟨_, rfl⟩
  · dsimp only
    split <;> exact ⟨_, rfl⟩

/-- `DecodeBase58Check` reads back `EncodeBase58Check`. -/
theorem decodeBase58Check_encodeBase58Check (env : Env) (v : List UInt8) :
    ∃ s, encodeBase58Check env v = .ok s ∧ decodeBase58Check env s = .ok (some v) := by
  obtain ⟨s, henc, -, hdec⟩ := decodeBase58_encodeBase58 (v ++ (env.hashWriter v).data.take 4)
  have h4 : ((env.hashWriter v).data.take 4).length = 4 := by
    rw [List.length_take, (env.hashWriter v).size_eq]
    rfl
  have hl : (v ++ (env.hashWriter v).data.take 4).length - 4 = v.length := by
    rw [List.length_append, h4, Nat.add_sub_cancel]
  refine ⟨s, henc, ?_⟩
  simp only [decodeBase58Check, hdec, Reader.ok_bind]
  rw [hl, List.take_left' rfl, List.drop_left' rfl, if_neg (by rw [List.length_append, h4]; omega)]
  simp

/-! ## The round trip -/

/-- Base58 round-trips every byte vector, the leading zero bytes as `1`s,
with the check bytes too, and neither conversion's carry assertion fires:
the encoder's for every byte vector, the decoder's for every string. -/
theorem base58_round_trip (env : Env) :
    (∀ v : List UInt8, ∃ s, encodeBase58 v = .ok s ∧
      (s.takeWhile (· = '1')).length = (v.takeWhile (· = 0)).length ∧ decodeBase58 s = .ok (some v)) ∧
    (∀ str : List Char, ∃ r, decodeBase58 str = .ok r) ∧
    (∀ v : List UInt8, ∃ s, encodeBase58Check env v = .ok s ∧ decodeBase58Check env s = .ok (some v)) :=
  ⟨decodeBase58_encodeBase58, decodeBase58_ok, decodeBase58Check_encodeBase58Check env⟩

end Ring.Addr
