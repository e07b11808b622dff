import Mathlib
import Ring.Lib.Bytes

/-!
# `uint256`, `arith_uint256` and the compact target encoding

`uint256` (`base_blob<256>`, src/uint256.h) is 32 opaque bytes; its text form
`GetHex` prints them from the last to the first, and `SetHex` / `uint256S`
parse such text back, filling the bytes from the end of the digit run.
`arith_uint256` (`base_uint<256>`, src/arith_uint256.h) is the same 256 bits
read as a number, with arithmetic modulo 2^256; it is `BitVec 256` here.
`SetCompact` / `GetCompact` translate between a number and the 32-bit
"compact" mantissa-exponent form carried in a header's `nBits`.

Results:
* `setHex_hexStr`: `SetHex` of the hex text of 32 bytes yields those bytes in
  reverse order, so `uint256S (GetHex a) = a` (`uint256S_getHex`).
-/
namespace Ring.Arith

open Ring.Lib

/-- `uint256`: 32 bytes, `data[0]` first in memory. -/
@[ext] structure Uint256 where
  data : List UInt8
  size_eq : data.length = 32
  deriving DecidableEq

/-- The all-zero value (`SetNull`, the default constructor). -/
def Uint256.null : Uint256 := ⟨List.replicate 32 0, by simp⟩

instance : Inhabited Uint256 := ⟨Uint256.null⟩

/-- `base_blob::IsNull`: every byte is zero.
mirrors src/uint256.h:32-38 -/
def Uint256.isNull (a : Uint256) : Bool := a.data.all (· == 0)

/-- `HexStr(itbegin, itend)` without spaces: two lowercase digits per byte.
mirrors src/util/strencodings.h:124-140 -/
def hexStr (bs : List UInt8) : List Char := bs.flatMap hexPair

/-- `base_blob::GetHex` (and `ToString`): the bytes from last to first.
mirrors src/uint256.cpp:22-26 -/
def Uint256.getHex (a : Uint256) : List Char := hexStr a.data.reverse

/-- `uint256::ByteAt(n)`: `data[n]`, for `n < 32`.
mirrors src/uint256.h:148-151 -/
def Uint256.byteAt (a : Uint256) (n : Nat) : UInt8 := a.data.getD n 0

/-- The order of `base_blob::operator<`, a `memcmp` of the bytes from `data[0]`:
blobs compare as the big-endian numbers their bytes spell.
mirrors src/uint256.h:45-49 -/
def Uint256.memcmpKey (a : Uint256) : Nat := a.data.foldl (fun acc b => acc * 256 + b.toNat) 0

/-- `IsSpace`: the C locale's white space. -/
def isSpace (c : Char) : Bool :=
  c == ' ' || c == '\x0c' || c == '\n' || c == '\r' || c == '\t' || c == '\x0b'

/-- `ToLower` on ASCII letters. -/
def toLower (c : Char) : Char := if 'A' ≤ c ∧ c ≤ 'Z' then Char.ofNat (c.toNat + 32) else c

/-- Bytes from nibbles given least significant first: each byte takes a low
nibble and, when one is left, a high nibble. -/
def nibblesToBytes : List Nat → List UInt8
  | [] => []
  | [lo] => [UInt8.ofNat lo]
  | lo :: hi :: rest => UInt8.ofNat (lo + 16 * hi) :: nibblesToBytes rest

/-- Pad or cut to 32 bytes. -/
def fit32 (bs : List UInt8) : List UInt8 := bs.take 32 ++ List.replicate (32 - bs.length) 0

theorem length_fit32 (bs : List UInt8) : (fit32 bs).length = 32 := by
  simp only [fit32, List.length_append, List.length_take, List.length_replicate]
  omega

/-- `base_blob::SetHex(const char*)` on the C string of `s`: skip white space
and a `0x` prefix, take the run of hex digits, and fill `data[0]`, `data[1]`,
... from the end of that run, two digits a byte; the rest stays zero.
mirrors src/uint256.cpp:28-54 -/
def setHex (s : List Char) : Uint256 :=
  let s := (s.takeWhile (· ≠ '\x00')).dropWhile isSpace
  let s := if s.getD 0 '\x00' = '0' ∧ toLower (s.getD 1 '\x00') = 'x' then s.drop 2 else s
  let digits := (s.takeWhile fun c => (hexValue c).isSome).filterMap hexValue
  ⟨fit32 (nibblesToBytes digits.reverse), length_fit32 _⟩

/-- `uint256S`. -/
def uint256S (s : List Char) : Uint256 := setHex s

/-- `arith_uint256` as its value modulo 2^256. -/
abbrev ArithUint256 := BitVec 256

/-- `UintToArith256`: limb `x` is `ReadLE32(a.begin() + 4 * x)`, so the number
is the 32 bytes read little-endian.
mirrors src/arith_uint256.cpp:249-255 -/
def uintToArith256 (a : Uint256) : ArithUint256 := BitVec.ofNat 256 (readLE a.data)

/-- `ArithToUint256`: limb `x` written with `WriteLE32` at `4 * x`.
mirrors src/arith_uint256.cpp:241-247 -/
def arithToUint256 (a : ArithUint256) : Uint256 := ⟨writeLE 32 a.toNat, length_writeLE _ _⟩

/-! ## Text round trip -/

theorem hexValue_isSome_hexChar {n : Nat} (h : n < 16) : (hexValue (hexChar n)).isSome = true := by
  rw [hexValue_hexChar h]; rfl

theorem hexPair_valid (b : UInt8) : ∀ c ∈ hexPair b, (hexValue c).isSome = true := by
  have := b.toNat_lt
  intro c hc
  simp only [hexPair, List.mem_cons, List.not_mem_nil, or_false] at hc
  rcases hc with rfl | rfl
  · exact hexValue_isSome_hexChar (by omega)
  · exact hexValue_isSome_hexChar (by omega)

theorem hexStr_valid (bs : List UInt8) : ∀ c ∈ hexStr bs, (hexValue c).isSome = true := by
  intro c hc
  obtain ⟨b, -, hb⟩ := List.mem_flatMap.mp hc
  exact hexPair_valid b c hb

theorem filterMap_hexPair (b : UInt8) :
    (hexPair b).filterMap hexValue = [b.toNat / 16, b.toNat % 16] := by
  have := b.toNat_lt
  simp [hexPair, hexValue_hexChar (show b.toNat / 16 < 16 by omega),
    hexValue_hexChar (show b.toNat % 16 < 16 by omega)]

/-- The digit values of `HexStr`, least significant first, are each byte's
low then high nibble, in the bytes' reverse order. -/
theorem filterMap_hexStr_reverse (bs : List UInt8) :
    ((hexStr bs).filterMap hexValue).reverse =
      (bs.reverse.flatMap fun b => [b.toNat % 16, b.toNat / 16]) := by
  induction bs with
  | nil => rfl
  | cons b bs ih =>
    simp only [hexStr, List.flatMap_cons, List.filterMap_append, List.reverse_append] at ih ⊢
    rw [ih, filterMap_hexPair]
    simp [List.flatMap_append]

theorem nibblesToBytes_flatMap (bs : List UInt8) :
    nibblesToBytes (bs.flatMap fun b => [b.toNat % 16, b.toNat / 16]) = bs := by
  induction bs with
  | nil => rfl
  | cons b bs ih =>
    have hb : UInt8.ofNat (b.toNat % 16 + 16 * (b.toNat / 16)) = b := by
      rw [show b.toNat % 16 + 16 * (b.toNat / 16) = b.toNat by omega]; simp
    simp only [List.flatMap_cons, List.cons_append, List.nil_append, nibblesToBytes, hb, ih]

theorem hexChar_facts : ∀ n : Fin 16,
    hexChar n ≠ '\x00' ∧ isSpace (hexChar n) = false ∧ toLower (hexChar n) ≠ 'x' := by
  decide

theorem mem_hexStr {bs : List UInt8} {c : Char} (h : c ∈ hexStr bs) : ∃ n < 16, c = hexChar n := by
  obtain ⟨b, -, hb⟩ := List.mem_flatMap.mp h
  have := b.toNat_lt
  simp only [hexPair, List.mem_cons, List.not_mem_nil, or_false] at hb
  rcases hb with rfl | rfl
  · exact ⟨_, by omega, rfl⟩
  · exact ⟨_, by omega, rfl⟩

/-- `SetHex` of the text of 32 bytes yields them in reverse order. -/
theorem setHex_hexStr (bs : List UInt8) (h : bs.length = 32) :
    (setHex (hexStr bs)).data = bs.reverse := by
  obtain ⟨b, rest, rfl⟩ : ∃ b rest, bs = b :: rest := by
    cases bs with
    | nil => simp at h
    | cons b rest => exact ⟨b, rest, rfl⟩
  have hb := b.toNat_lt
  have hnul : (hexStr (b :: rest)).takeWhile (· ≠ '\x00') = hexStr (b :: rest) := by
    rw [List.takeWhile_eq_self_iff]
    intro c hc
    obtain ⟨n, hn, rfl⟩ := mem_hexStr hc
    simpa using (hexChar_facts ⟨n, hn⟩).1
  have hcons : hexStr (b :: rest) = hexChar (b.toNat / 16) :: hexChar (b.toNat % 16) :: hexStr rest := rfl
  have hsp : (hexStr (b :: rest)).dropWhile isSpace = hexStr (b :: rest) := by
    rw [hcons, List.dropWhile_cons_of_neg]
    simpa using (hexChar_facts ⟨b.toNat / 16, by omega⟩).2.1
  have hx : toLower ((hexStr (b :: rest)).getD 1 '\x00') ≠ 'x' := by
    rw [hcons]
    exact (hexChar_facts ⟨b.toNat % 16, by omega⟩).2.2
  have hdig : (hexStr (b :: rest)).takeWhile (fun c => (hexValue c).isSome) = hexStr (b :: rest) :=
    List.takeWhile_eq_self_iff.mpr (hexStr_valid _)
  simp only [setHex, hnul, hsp, hx, and_false, if_false, hdig]
  rw [filterMap_hexStr_reverse, nibblesToBytes_flatMap]
  have h31 : rest.length = 31 := by simpa using h
  have ht : (rest.reverse ++ [b]).take 32 = rest.reverse ++ [b] :=
    List.take_of_length_le (by simp [h31])
  simp [fit32, ht, h31]

/-- `uint256S(a.GetHex()) == a`. -/
theorem uint256S_getHex (a : Uint256) : uint256S a.getHex = a := by
  have h := setHex_hexStr a.data.reverse (by simp [a.size_eq])
  rw [List.reverse_reverse] at h
  cases a
  simp only [uint256S, Uint256.getHex]
  exact Uint256.ext h

end Ring.Arith
