import Ring.Hive.Proof

/-!
# The hive miner's side (src/miner.cpp:821-853, 1041-1094)

`BusyDwarves` splits the wallet's mature dwarves into ranges, and `CheckBin`
hashes each dwarf `i` of a range: the double Minotaur hash of
`deterministicRandString + txid + std::to_string(i)`, against the hive
target. For the first dwarf under the target, `BusyDwarves` writes the proof
script `OP_RETURN OP_DWARF <i:LE32> <dctHeight:LE32> OP_TRUE|OP_FALSE <txid>
<signature>` into the coinbase.

`CheckHiveProof` reads that script at fixed offsets without looking at the
push sizes. The round trip below shows that every field comes back, and that
the preimage it hashes is the one `CheckBin` hashed.
-/
namespace Ring.Hive

open Ring.Lib Ring.Arith Ring.Script Ring.Chain Ring.Node

/-- `CDwarfRange`: the dwarves `offset .. offset + count - 1` of one DCT. -/
structure CDwarfRange where
  txid : List Char
  rewardAddress : List Char
  communityContrib : Bool
  offset : Int
  count : Int
  deriving DecidableEq

/-- The preimage `CheckBin` hashes for dwarf `i`: `deterministicRandString +
dwarfRange.txid + std::to_string(i)`, `i` an `int`.
mirrors src/miner.cpp:838 -/
def checkBinPreimage (drs txid : List Char) (i : Int) : List Char := drs ++ txid ++ (toString i).toList

/-- `CheckBin` for one thread with no abort requested: the first dwarf of the
bin whose hash is below the target, with its range.
mirrors src/miner.cpp:821-853 -/
def checkBin (env : Env) (bin : List CDwarfRange) (drs : List Char) (dwarfHashTarget : ArithUint256) :
    Option (CDwarfRange × Int) :=
  bin.findSome? fun dwarfRange =>
    ((List.range dwarfRange.count.toNat).map fun k => dwarfRange.offset + (k : Int)).find?
        (fun i => dwarfHash env (checkBinPreimage drs dwarfRange.txid i) < dwarfHashTarget)
      |>.map fun i => (dwarfRange, i)

/-- The proof script `BusyDwarves` assembles: the solving dwarf (an `int`,
written with `WriteLE32`), the DCT's height, the contribution flag, the
txid's characters and the compact signature.
mirrors src/miner.cpp:1081-1091 -/
def hiveProofScript (solvingDwarf : Int) (dctHeight : UInt32) (communityContrib : Bool)
    (txid : List Char) (messageProofVec : List UInt8) : CScript :=
  let dwarfNonceVec := writeLE 4 (toUInt32 solvingDwarf).toNat
  let dctHeightVec := writeLE 4 dctHeight.toNat
  let communityContribFlag := if communityContrib then OP_TRUE else OP_FALSE
  let s := pushOpcode (pushOpcode [] OP_RETURN) OP_DWARF
  let s := pushData (pushData s dwarfNonceVec) dctHeightVec
  let s := pushOpcode s communityContribFlag
  pushData (pushData s (stringBytes txid)) messageProofVec

/-! ## The script, byte by byte -/

theorem length_stringBytes (s : List Char) : (stringBytes s).length = s.length := by
  simp [stringBytes]

/-- Characters below 256 come back from their bytes. -/
theorem bytesString_stringBytes {s : List Char} (h : ∀ c ∈ s, c.toNat < 256) :
    bytesString (stringBytes s) = s := by
  induction s with
  | nil => rfl
  | cons c s ih =>
    have hc : c.toNat < 256 := h c List.mem_cons_self
    have hcs : bytesString (stringBytes s) = s := ih fun d hd => h d (List.mem_cons_of_mem c hd)
    simp only [bytesString, stringBytes, List.map_cons, List.map_map] at hcs ⊢
    refine congrArg₂ List.cons ?_ hcs
    have hbyte : (UInt8.ofNat c.toNat).toNat = c.toNat := by
      rw [UInt8.toNat_ofNat']; omega
    simp [hbyte]

/-- The script's layout: fixed bytes and push sizes around the five fields. -/
theorem hiveProofScript_eq (i : Int) (h : UInt32) (b : Bool) (s : List Char) (sig : List UInt8)
    (hs : s.length = 64) (hsig : sig.length = 65) :
    hiveProofScript i h b s sig =
      [OP_RETURN, OP_DWARF, 4] ++ writeLE 4 (toUInt32 i).toNat ++ [4] ++ writeLE 4 h.toNat ++
        [if b then OP_TRUE else OP_FALSE, 64] ++ stringBytes s ++ [65] ++ sig := by
  have h64 : (stringBytes s).length = 64 := by rw [length_stringBytes, hs]
  simp only [hiveProofScript, pushOpcode, pushData_short _ _ (by simp : (writeLE 4 _).length < 76),
    pushData_short _ _ (by omega : (stringBytes s).length < 76),
    pushData_short _ _ (by omega : sig.length < 76), length_writeLE, h64, hsig, List.append_assoc,
    List.cons_append, List.nil_append]
  rfl

/-- A 4-byte little-endian field reads back as the `uint32_t` written. -/
theorem ofNat_readLE_writeLE (n : UInt32) : UInt32.ofNat (readLE (writeLE 4 n.toNat)) = n := by
  rw [readLE_writeLE_of_lt (by have := n.toNat_lt; omega), UInt32.ofNat_toNat]

/-- `std::to_string` of a non-negative `int` and of the same `uint32_t`. -/
theorem toString_eq_repr_toUInt32 {i : Int} (h0 : 0 ≤ i) (h1 : i < 2 ^ 31) :
    (toString i).toList = (Nat.repr (toUInt32 i).toNat).toList := by
  have hnat : (toUInt32 i).toNat = i.toNat := by
    simp only [toUInt32, UInt32.toNat_ofNat']
    omega
  rw [hnat]
  obtain ⟨n, rfl⟩ := Int.eq_ofNat_of_zero_le h0
  rfl

/-- The hive proof round trip. The script `BusyDwarves` builds for dwarf `i`
(an `int`), DCT height `h`, flag `b`, a 64-character txid `s` and a 65-byte
signature is 144 bytes long and starts `OP_RETURN OP_DWARF`; `CheckHiveProof`
reads back the nonce `i` as a `uint32_t`, the height, the flag, the txid and
the signature; and for a dwarf `CheckBin` can hash (`0 ≤ i < 2^31`) the
preimage `CheckHiveProof` hashes is `CheckBin`'s. -/
theorem hiveProofScript_decode (drs : List Char) (i : Int) (h : UInt32) (b : Bool) (s : List Char)
    (sig : List UInt8) (hs : s.length = 64) (hchars : ∀ c ∈ s, c.toNat < 256) (hsig : sig.length = 65) :
    (hiveProofScript i h b s sig).length = 144 ∧
      (hiveProofScript i h b s sig).getD 0 0 = OP_RETURN ∧
      (hiveProofScript i h b s sig).getD 1 0 = OP_DWARF ∧
      decodeHiveProof (hiveProofScript i h b s sig) = ⟨toUInt32 i, h, b, s, sig⟩ ∧
      (0 ≤ i → i < 2 ^ 31 →
        dwarfPreimage drs (decodeHiveProof (hiveProofScript i h b s sig)).txidStr
            (decodeHiveProof (hiveProofScript i h b s sig)).dwarfNonce.toNat =
          checkBinPreimage drs s i) := by
  set spk := hiveProofScript i h b s sig
  -- each field sits at its offset in the layout of `hiveProofScript_eq`
  set nv := writeLE 4 (toUInt32 i).toNat
  set hv := writeLE 4 h.toNat
  set flag : UInt8 := if b then OP_TRUE else OP_FALSE
  have hspk : spk = [OP_RETURN, OP_DWARF, 4] ++ nv ++ [4] ++ hv ++ [flag, 64] ++ stringBytes s ++
      [65] ++ sig := hiveProofScript_eq i h b s sig hs hsig
  have h64 : (stringBytes s).length = 64 := by rw [length_stringBytes, hs]
  have hdecode : decodeHiveProof spk = ⟨toUInt32 i, h, b, s, sig⟩ := by
    have hnonce : slice spk 3 4 = nv :=
      slice_of_append (by rw [hspk]; simp only [List.append_assoc] :
        spk = [OP_RETURN, OP_DWARF, 4] ++ nv ++ ([4] ++ hv ++ [flag, 64] ++ stringBytes s ++ [65] ++ sig))
        rfl (length_writeLE 4 _)
    have hheight : slice spk 8 4 = hv :=
      slice_of_append (by rw [hspk]; simp only [List.append_assoc] :
        spk = [OP_RETURN, OP_DWARF, 4] ++ nv ++ [4] ++ hv ++ ([flag, 64] ++ stringBytes s ++ [65] ++ sig))
        (by simp [nv]) (length_writeLE 4 _)
    have hflag : spk.getD 12 0 = flag :=
      getD_of_append (by rw [hspk]; simp only [List.append_assoc, List.cons_append, List.nil_append] :
        spk = [OP_RETURN, OP_DWARF, 4] ++ nv ++ [4] ++ hv ++ flag :: ([64] ++ stringBytes s ++ [65] ++ sig))
        (by simp [nv, hv])
    have htxid : slice spk 14 64 = stringBytes s :=
      slice_of_append (by rw [hspk]; simp only [List.append_assoc] :
        spk = [OP_RETURN, OP_DWARF, 4] ++ nv ++ [4] ++ hv ++ [flag, 64] ++ stringBytes s ++ ([65] ++ sig))
        (by simp [nv, hv]) h64
    have hsigAt : slice spk 79 65 = sig :=
      slice_of_append (by rw [hspk]; simp :
        spk = [OP_RETURN, OP_DWARF, 4] ++ nv ++ [4] ++ hv ++ [flag, 64] ++ stringBytes s ++ [65] ++ sig ++ [])
        (by simp [nv, hv, h64]) hsig
    simp only [decodeHiveProof, hnonce, hheight, hflag, htxid, hsigAt, nv, hv, flag,
      ofNat_readLE_writeLE, bytesString_stringBytes hchars]
    cases b <;> rfl
  refine ⟨?length, ?op0, ?op1, hdecode, ?preimage⟩
  case length => simp [hspk, nv, hv, h64, hsig]
  case op0 => simp [spk, hspk]
  case op1 => simp [spk, hspk]
  case preimage =>
    intro h0 h1
    rw [hdecode]
    simp only [dwarfPreimage, checkBinPreimage, toString_eq_repr_toUInt32 h0 h1]

/-- Dwarf 7 of a DCT at height 100 with a contribution, a txid of 64 `a`s and
a zero signature. -/
theorem hiveProofScript_decode_seven :
    let s := List.replicate 64 'a'
    let sig := List.replicate 65 (0 : UInt8)
    s.length = 64 ∧ (∀ c ∈ s, c.toNat < 256) ∧ sig.length = 65 ∧
      decodeHiveProof (hiveProofScript 7 100 true s sig) = ⟨toUInt32 7, 100, true, s, sig⟩ := by
  intro s sig
  have hs : s.length = 64 := rfl
  have hchars : ∀ c ∈ s, c.toNat < 256 := by
    intro c hc
    rw [List.eq_of_mem_replicate hc]
    decide
  have hsig : sig.length = 65 := rfl
  exact ⟨hs, hchars, hsig, (hiveProofScript_decode [] 7 100 true s sig hs hchars hsig).2.2.2.1⟩

end Ring.Hive
