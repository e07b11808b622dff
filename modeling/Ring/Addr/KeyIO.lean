import Ring.Addr.Bech32
import Ring.Node.State

/-!
# Decoding addresses (src/key_io.cpp, src/base58.cpp)

`DecodeDestination` reads a Ring address: Base58Check with the network's
key or script prefix, else Bech32 with the network's human-readable part.
The Bech32 branch turns the values after the witness version into bytes
(`ConvertBits<5, 8, false>`) and keeps a version 0 program of 20 or 32 bytes,
or a program of version 1 to 16 with 2 to 40 bytes, copied into
`WitnessUnknown::program[40]`.

`DecodeAnyDestination` reads the addresses of the foreign coins
(`foreignCoin*` of the consensus parameters) the same way, but its Bech32
branch has the version and length test commented out
(src/key_io.cpp:143-146). So a version 0 program of another length becomes a
version 0 `WitnessUnknown`, a version 17 to 31 one is kept, and a program of
41 to 50 bytes is copied past the end of `program[40]`, which the model
reports as a fault.

Results:
* `decodeDestination_witness`: every witness destination `DecodeDestination`
  returns is within the rules: 20 or 32 bytes at version 0, else version
  1 to 16 with 2 to 40 bytes.
* `bech32_program_length`: a Bech32 string carries at most 50 program bytes.
* `decodeAnyDestination_unguarded`: three strings of Bitcoin's `bc` part that
  break each rule in `DecodeAnyDestination`.
-/
namespace Ring.Addr

open Ring.Arith Ring.Chain Ring.Node

/-! ## Base58Check -/

/-- `mapBase58`: the digit of each byte, `-1` outside the alphabet
`123456789ABCDEFGHJKLMNPQRSTUVWXYZabcdefghijkmnopqrstuvwxyz`.
mirrors src/base58.cpp:16-33 -/
def mapBase58 : List Int :=
  [-1, -1, -1, -1, -1, -1, -1, -1, -1, -1, -1, -1, -1, -1, -1, -1,
   -1, -1, -1, -1, -1, -1, -1, -1, -1, -1, -1, -1, -1, -1, -1, -1,
   -1, -1, -1, -1, -1, -1, -1, -1, -1, -1, -1, -1, -1, -1, -1, -1,
   -1, 0, 1, 2, 3, 4, 5, 6, 7, 8, -1, -1, -1, -1, -1, -1,
   -1, 9, 10, 11, 12, 13, 14, 15, 16, -1, 17, 18, 19, 20, 21, -1,
   22, 23, 24, 25, 26, 27, 28, 29, 30, 31, 32, -1, -1, -1, -1, -1,
   -1, 33, 34, 35, 36, 37, 38, 39, 40, 41, 42, 43, -1, 44, 45, 46,
   47, 48, 49, 50, 51, 52, 53, 54, 55, 56, 57, -1, -1, -1, -1, -1] ++ List.replicate 128 (-1)

/-- `IsSpace`.
mirrors src/util/strencodings.h:84-86 -/
def isSpace (c : Char) : Bool :=
  c == ' ' || c == Char.ofNat 12 || c == Char.ofNat 10 || c == Char.ofNat 13 || c == Char.ofNat 9 ||
    c == Char.ofNat 11

/-- The inner loop of `DecodeBase58`: `b256 = b256 * 58 + carry` over the bytes
from the least significant, while there is a carry or a byte below `length`;
the carry left, the bytes visited, and the new bytes. -/
def base58MulAdd (length : Nat) : Nat → Nat → List UInt8 → Nat × Nat × List UInt8
  | carry, i, [] => (carry, i, [])
  | carry, i, b :: bs =>
    if carry ≠ 0 ∨ i < length then
      let carry := carry + 58 * b.toNat
      let r := base58MulAdd length (carry / 256) (i + 1) bs
      (r.1, r.2.1, UInt8.ofNat (carry % 256) :: r.2.2)
    else (carry, i, b :: bs)

/-- The digit loop of `DecodeBase58` over the big-endian `b256` and its
`length` of significant bytes; `none` at a character outside the alphabet. -/
def base58Digits (length : Nat) (b256 : List UInt8) : List Char → Except Fault (Option (List UInt8 × Nat))
  | [] => pure (some (b256, length))
  | c :: cs =>
    let carry := mapBase58.getD c.toNat (-1)
    if carry = -1 then pure none else
    let r := base58MulAdd length carry.toNat 0 b256.reverse
    if r.1 ≠ 0 then throw .assertion else
    base58Digits r.2.1 r.2.2.reverse cs

/-- `DecodeBase58` of a C string: leading spaces and `1`s (each a zero byte),
the digits up to a space, then only spaces.
mirrors src/base58.cpp:35-80 -/
def decodeBase58 (str : List Char) : Except Fault (Option (List UInt8)) := do
  let psz := (str.takeWhile (· ≠ Char.ofNat 0)).dropWhile isSpace
  let zeroes := (psz.takeWhile (· = '1')).length
  let psz := psz.dropWhile (· = '1')
  let size := psz.length * 733 / 1000 + 1
  let some (b256, length) ← base58Digits 0 (List.replicate size 0) (psz.takeWhile (!isSpace ·)) | pure none
  if ((psz.dropWhile (!isSpace ·)).dropWhile isSpace) ≠ [] then return none
  return some (List.replicate zeroes 0 ++ (b256.drop (size - length)).dropWhile (· = 0))

/-- `DecodeBase58Check`: the payload when the last four bytes are the first
four of its double SHA-256.
mirrors src/base58.cpp:143-158 -/
def decodeBase58Check (env : Env) (str : List Char) : Except Fault (Option (List UInt8)) := do
  let some vch ← decodeBase58 str | pure none
  if vch.length < 4 then return none
  let hash := env.hashWriter (vch.take (vch.length - 4))
  if hash.data.take 4 ≠ vch.drop (vch.length - 4) then return none
  return some (vch.take (vch.length - 4))

/-! ## The address parameters -/

/-- One foreign coin of the consensus parameters: its name, Base58 prefixes
(`foreignCoinP2SH2Prefixes` 0 when it has none) and Bech32 part (empty when
it has none). -/
structure ForeignCoin where
  name : List Char
  p2pkhPrefix : UInt8
  p2shPrefix : UInt8
  p2sh2Prefix : UInt8
  bech32HRP : List Char

/-- The main network's foreign coins.
mirrors src/chainparams.cpp:99-104 -/
def mainForeignCoins : List ForeignCoin :=
  [⟨"BTC".toList, 0, 5, 0, "bc".toList⟩, ⟨"LCC".toList, 28, 5, 50, "lcc".toList⟩,
   ⟨"DOGE".toList, 30, 22, 0, []⟩, ⟨"DASH".toList, 76, 16, 0, []⟩]

/-- The network's own address parameters. -/
structure AddressParams where
  pubkeyPrefix : List UInt8
  scriptPrefix : List UInt8
  bech32HRP : List Char

/-- The main network's prefixes and Bech32 part.
mirrors src/chainparams.cpp:187-193 -/
def mainAddressParams : AddressParams := ⟨[60], [81], "rng".toList⟩

/-! ## The two decoders -/

/-- The Bech32 branch of `DecodeDestination`: the witness version, then the
program bytes, kept within the witness rules.
mirrors src/key_io.cpp:181-214 -/
def decodeDestinationBech32 (ap : AddressParams) (str : List Char) : CTxDestination :=
  match decode str with
  | (_, []) => .noDestination
  | (hrp, version :: values) =>
    if hrp ≠ ap.bech32HRP then .noDestination else
    match convertBits 5 8 false values with
    | none => .noDestination
    | some data =>
      if version = 0 then
        if data.length = 20 then .witnessV0KeyHash data
        else if data.length = 32 then .witnessV0ScriptHash data
        else .noDestination
      else if version > 16 ∨ data.length < 2 ∨ data.length > 40 then .noDestination
      else .witnessUnknown version.toNat data

/-- `DecodeDestination`.
mirrors src/key_io.cpp:159-216 -/
def decodeDestination (env : Env) (ap : AddressParams) (str : List Char) : Except Fault CTxDestination := do
  if let some data ← decodeBase58Check env str then
    if data.length = 20 + ap.pubkeyPrefix.length ∧ data.take ap.pubkeyPrefix.length = ap.pubkeyPrefix then
      return .keyId ⟨data.drop ap.pubkeyPrefix.length⟩
    if data.length = 20 + ap.scriptPrefix.length ∧ data.take ap.scriptPrefix.length = ap.scriptPrefix then
      return .scriptId (data.drop ap.scriptPrefix.length)
  return decodeDestinationBech32 ap str

/-- The Base58 loop of `DecodeAnyDestination` over the foreign coins: a
21-byte payload whose first byte is the coin's key, script or alternative
script prefix, with the detected type. -/
def base58ForeignLoop (data : List UInt8) : List ForeignCoin → Option (CTxDestination × List Char)
  | [] => none
  | coin :: coins =>
    if data.length = 21 ∧ data.take 1 = [coin.p2pkhPrefix] then
      some (.keyId ⟨data.drop 1⟩, coin.name ++ " (P2PKH)".toList)
    else if data.length = 21 ∧ data.take 1 = [coin.p2shPrefix] then
      some (.scriptId (data.drop 1), coin.name ++ " (P2SH)".toList)
    else if coin.p2sh2Prefix = 0 then base58ForeignLoop data coins
    else if data.length = 21 ∧ data.take 1 = [coin.p2sh2Prefix] then
      some (.scriptId (data.drop 1), coin.name ++ " (P2SH with alt prefix)".toList)
    else base58ForeignLoop data coins

/-- The Bech32 loop of `DecodeAnyDestination` over the foreign coins, with
the bytes `data` that `ConvertBits` has pushed so far. The version and length
test is commented out, so every converted program is copied into
`program[40]`: past 40 bytes that write runs off the array.
mirrors src/key_io.cpp:114-155 -/
def bech32ForeignLoop (str : List Char) :
    List UInt8 → List ForeignCoin → Except Fault (CTxDestination × Option (List Char))
  | _, [] => pure (.noDestination, none)
  | data, coin :: coins =>
    if coin.bech32HRP = [] then bech32ForeignLoop str data coins else
    match decode str with
    | (_, []) => bech32ForeignLoop str data coins
    | (hrp, version :: values) =>
      if hrp ≠ coin.bech32HRP then bech32ForeignLoop str data coins else
      let pushed := convertBitsPush 5 8 false values
      let data := data ++ pushed.1
      if !pushed.2 then bech32ForeignLoop str data coins else
      if version = 0 ∧ data.length = 20 then
        pure (.witnessV0KeyHash data, some (coin.name ++ " witness_v0_keyhash (P2WPKH)".toList))
      else if version = 0 ∧ data.length = 32 then
        pure (.witnessV0ScriptHash data, some (coin.name ++ " witness_v0_scripthash (P2WSH)".toList))
      else if data.length > 40 then throw .outOfRange
      else pure (.witnessUnknown version.toNat data, some (coin.name ++ " witness_unknown (P2WUN)".toList))

/-- `DecodeAnyDestination`: the destination and the `detectedType` it sets,
`none` where it leaves it.
mirrors src/key_io.cpp:74-158 -/
def decodeAnyDestination (env : Env) (coins : List ForeignCoin) (str : List Char) :
    Except Fault (CTxDestination × Option (List Char)) := do
  if let some data ← decodeBase58Check env str then
    if let some (dest, detectedType) := base58ForeignLoop data coins then
      return (dest, some detectedType)
  bech32ForeignLoop str [] coins

/-! ## The witness rules -/

/-- A Bech32 string carries at most 50 program bytes: 90 characters leave at
most 81 values after the version. -/
theorem bech32_program_length {str hrp : List Char} {version : UInt8} {values data : List UInt8}
    (h : decode str = (hrp, version :: values)) (hdata : convertBits 5 8 false values = some data) :
    data.length ≤ 50 := by
  have hlen := decode_length h (List.cons_ne_nil _ _)
  rw [convertBits_length (by decide) hdata]
  simp only [List.length_cons] at hlen
  omega

/-! ## Three Bitcoin addresses past the rules -/

theorem decodeBase58Check_of_none {env : Env} {str : List Char} (h : decodeBase58 str = .ok none) :
    decodeBase58Check env str = .ok none := by
  simp [decodeBase58Check, h, bind, Except.bind, pure, Except.pure]

/-- A string that is not Base58 goes to the Bech32 loop, whatever the hash. -/
theorem decodeAnyDestination_of_base58_none {env : Env} {coins : List ForeignCoin} {str : List Char}
    (h : decodeBase58 str = .ok none) :
    decodeAnyDestination env coins str = bech32ForeignLoop str [] coins := by
  simp [decodeAnyDestination, decodeBase58Check_of_none h, bind, Except.bind]

theorem decodeDestination_of_base58_none {env : Env} {ap : AddressParams} {str : List Char}
    (h : decodeBase58 str = .ok none) :
    decodeDestination env ap str = .ok (decodeDestinationBech32 ap str) := by
  simp [decodeDestination, decodeBase58Check_of_none h, bind, Except.bind, pure, Except.pure]

/-- Version 1, a 41-byte program of `0x78`, as Bitcoin writes it. -/
def overlongAddress : List Char :=
  "bc1p0pu8s7rc0pu8s7rc0pu8s7rc0pu8s7rc0pu8s7rc0pu8s7rc0pu8s7rc0pu8s7rc0q7m0ukj".toList

/-- Version 0, a 21-byte program of `0x78`. -/
def v0Address : List Char := "bc1q0pu8s7rc0pu8s7rc0pu8s7rc0pu8s7rc0qauar29".toList

/-- The same version 0 program as a Ring address. -/
def v0RingAddress : List Char := "rng1q0pu8s7rc0pu8s7rc0pu8s7rc0pu8s7rc0qq9qgzz".toList

/-- Version 17, a 2-byte program. -/
def v17Address : List Char := "bc130puquyvthe".toList

/-- The overlong Bitcoin address carries 41 program bytes, within the 50 any
Bech32 string can carry. -/
theorem bech32_program_length_overlong :
    decode overlongAddress = ((decode overlongAddress).1, 1 :: (decode overlongAddress).2.tail) ∧
      convertBits 5 8 false (decode overlongAddress).2.tail = some (List.replicate 41 0x78) ∧
      (List.replicate 41 (0x78 : UInt8)).length ≤ 50 := by
  have h : decode overlongAddress = ((decode overlongAddress).1, 1 :: (decode overlongAddress).2.tail) := by
    decide +kernel
  have hdata : convertBits 5 8 false (decode overlongAddress).2.tail = some (List.replicate 41 0x78) := by
    decide +kernel
  exact ⟨h, hdata, bech32_program_length h hdata⟩

/-- `DecodeAnyDestination` keeps none of the witness rules for Bitcoin's
Bech32 addresses, whatever the hash function: a 41-byte program is copied
past the end of `WitnessUnknown::program[40]`; a 21-byte version 0 program
becomes a version 0 `WitnessUnknown`, where `DecodeDestination` refuses the
same program as a Ring address; and version 17 is kept. -/
theorem decodeAnyDestination_unguarded (env : Env) :
    decodeAnyDestination env mainForeignCoins overlongAddress = .error .outOfRange ∧
      decodeAnyDestination env mainForeignCoins v0Address =
        .ok (.witnessUnknown 0 (List.replicate 21 0x78), some "BTC witness_unknown (P2WUN)".toList) ∧
      decodeDestination env mainAddressParams v0RingAddress = .ok .noDestination ∧
      decodeAnyDestination env mainForeignCoins v17Address =
        .ok (.witnessUnknown 17 [0x78, 0x78], some "BTC witness_unknown (P2WUN)".toList) := by
  refine ⟨?_, ?_, ?_, ?_⟩
  · rw [decodeAnyDestination_of_base58_none (by decide +kernel)]
    decide +kernel
  · rw [decodeAnyDestination_of_base58_none (by decide +kernel)]
    decide +kernel
  · rw [decodeDestination_of_base58_none (by decide +kernel)]
    decide +kernel
  · rw [decodeAnyDestination_of_base58_none (by decide +kernel)]
    decide +kernel

end Ring.Addr
