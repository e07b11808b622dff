import Mathlib

/-!
# Little-endian words and hexadecimal digits

Two encodings that byte-level code uses everywhere:

* a fixed-width unsigned word as `n` bytes, least significant first
  (`writeLE` / `readLE`);
* a byte as two lowercase hexadecimal digits, most significant nibble first
  (`hexChar` / `hexValue`).

Results:
* `readLE_writeLE`: reading back `n` written bytes gives the value modulo
  `256 ^ n`; `readLE_lt` bounds every read.
* `hexValue_hexChar`: every nibble's digit decodes to the nibble.
* `slice_append`: reading a field at its offset in a concatenation of fields
  gives the field, whatever follows.
-/
namespace Ring.Lib

/-- `n` bytes of `v`, least significant first. -/
def writeLE : Nat → Nat → List UInt8
  | 0, _ => []
  | n + 1, v => UInt8.ofNat (v % 256) :: writeLE n (v / 256)

/-- The value of bytes read least significant first. -/
def readLE : List UInt8 → Nat
  | [] => 0
  | b :: bs => b.toNat + 256 * readLE bs

@[simp] theorem length_writeLE (n v : Nat) : (writeLE n v).length = n := by
  induction n generalizing v with
  | zero => rfl
  | succ n ih => simp [writeLE, ih]

theorem readLE_lt (bs : List UInt8) : readLE bs < 256 ^ bs.length := by
  induction bs with
  | nil => simp [readLE]
  | cons b bs ih =>
    have hb := b.toNat_lt
    have : 256 * readLE bs + 256 ≤ 256 ^ bs.length * 256 := by
      rw [Nat.mul_comm (256 ^ bs.length)]; exact Nat.mul_le_mul_left _ ih
    simp only [readLE, List.length_cons, Nat.pow_succ]
    omega

theorem readLE_writeLE (n v : Nat) : readLE (writeLE n v) = v % 256 ^ n := by
  induction n generalizing v with
  | zero => simp [writeLE, readLE, Nat.mod_one]
  | succ n ih =>
    have hb : (UInt8.ofNat (v % 256)).toNat = v % 256 := by simp
    simp only [writeLE, readLE, ih, hb]
    rw [Nat.pow_succ, Nat.mul_comm (256 ^ n) 256, Nat.mod_mul]

theorem readLE_writeLE_of_lt {n v : Nat} (h : v < 256 ^ n) : readLE (writeLE n v) = v := by
  rw [readLE_writeLE, Nat.mod_eq_of_lt h]

/-- Bytes read as a number are written back as the same bytes. -/
theorem writeLE_readLE (bs : List UInt8) : writeLE bs.length (readLE bs) = bs := by
  induction bs with
  | nil => rfl
  | cons b bs ih =>
    have hb := b.toNat_lt
    have hmod : (b.toNat + 256 * readLE bs) % 256 = b.toNat := by omega
    have hdiv : (b.toNat + 256 * readLE bs) / 256 = readLE bs := by omega
    simp only [List.length_cons, writeLE, readLE, hmod, hdiv, ih, UInt8.ofNat_toNat]

theorem readLE_append_singleton (bs : List UInt8) (b : UInt8) :
    readLE (bs ++ [b]) = readLE bs + b.toNat * 256 ^ bs.length := by
  induction bs with
  | nil => simp [readLE]
  | cons c bs ih =>
    simp only [List.cons_append, readLE, ih, List.length_cons, Nat.pow_succ]
    grind

/-! ### The sign bit and the low seven bits of a byte -/

theorem toNat_and_0x7F (b : UInt8) : (b &&& 0x7F).toNat = b.toNat % 128 := by
  rw [UInt8.toNat_and]
  exact Nat.and_two_pow_sub_one_eq_mod _ 7

set_option maxRecDepth 2000 in
theorem and_0x80_ne_zero (b : UInt8) : b &&& 0x80 ≠ 0 ↔ 128 ≤ b.toNat := by
  have hbyte : ∀ x < 256, (x &&& 128 ≠ 0 ↔ 128 ≤ x) := by decide
  rw [ne_eq, ← UInt8.toNat_inj, UInt8.toNat_and]
  exact hbyte b.toNat b.toNat_lt

/-- The hexadecimal digit of a nibble (`hexmap[val]`). -/
def hexChar (n : Nat) : Char := "0123456789abcdef".toList.getD n '0'

/-- The value of a hexadecimal digit of either case, `none` for any other
character. -/
def hexValue (c : Char) : Option Nat :=
  if '0' ≤ c ∧ c ≤ '9' then some (c.toNat - '0'.toNat)
  else if 'a' ≤ c ∧ c ≤ 'f' then some (c.toNat - 'a'.toNat + 10)
  else if 'A' ≤ c ∧ c ≤ 'F' then some (c.toNat - 'A'.toNat + 10)
  else none

theorem hexValue_hexChar_all : ∀ n : Fin 16, hexValue (hexChar n) = some n := by decide

theorem hexValue_hexChar {n : Nat} (h : n < 16) : hexValue (hexChar n) = some n :=
  hexValue_hexChar_all ⟨n, h⟩

/-- The two digits of a byte, high nibble first. -/
def hexPair (b : UInt8) : List Char := [hexChar (b.toNat / 16), hexChar (b.toNat % 16)]

/-- The `n` elements starting at offset `o` (`std::vector(&v[o], &v[o + n])`). -/
def slice {α : Type} (l : List α) (o n : Nat) : List α := (l.drop o).take n

theorem slice_append {α : Type} (pre field post : List α) :
    slice (pre ++ field ++ post) pre.length field.length = field := by
  simp [slice]

/-- A field read at its offset in a layout `pre ++ field ++ post`. -/
theorem slice_of_append {α : Type} {l pre field post : List α} {o n : Nat}
    (hl : l = pre ++ field ++ post) (ho : pre.length = o) (hn : field.length = n) :
    slice l o n = field := by
  subst hl ho hn
  exact slice_append pre field post

/-- A byte read at its offset in a layout `pre ++ a :: post`. -/
theorem getD_of_append {α : Type} {l pre post : List α} {a d : α} {o : Nat}
    (hl : l = pre ++ a :: post) (ho : pre.length = o) : l.getD o d = a := by
  subst hl ho
  simp

end Ring.Lib
