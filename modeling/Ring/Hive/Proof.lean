import Ring.Node.State

/-!
# `CheckHiveProof` (src/pow.cpp:276-562)

A hive block's coinbase carries, in `vout[0]`, the script
`OP_RETURN OP_DWARF <nonce:4> <dctHeight:4> OP_TRUE|OP_FALSE <txid:64> <sig:65>`.
`CheckHiveProof` reads it at fixed offsets, checks the dwarf hash against the
hive target, the signature against the reward address, and the dwarf
creation transaction (DCT) the proof names: found through the coins view or
by the deep drill `GetTxByHashAndHeight`, old enough and young enough, paying
enough for the claimed dwarf nonce.

The check is written as `Check` stages over the node state after the parent
lookup (`lookupPrev`), the only step that changes that state.
-/
namespace Ring.Hive

open Ring.Lib Ring.Arith Ring.Script Ring.Chain Ring.Node

/-- Walk back to the ancestor at `nHeight`, asserting `pprev` before each step. -/
def walkToHeight (nHeight : Int) : CBlockIndex → Except Fault CBlockIndex
  | [] => .error .nullDeref
  | r :: rest =>
    if r.nHeight > nHeight then
      if rest = [] then .error .assertion else walkToHeight nHeight rest
    else .ok (r :: rest)

/-- `GetTxByHashAndHeight`: the transaction with hash `txHash` in the block at
height `nHeight` behind `pindex`, with that block's height.
mirrors src/validation.cpp:3264-3296 -/
def getTxByHashAndHeight (env : Env) (st : NodeState) (txHash : Uint256) (nHeight : Int)
    (pindex : CBlockIndex) : Except Fault (Option (CTransaction × Int)) := do
  match pindex with
  | [] => throw .nullDeref
  | r :: _ =>
    if r.nHeight < nHeight then return none
    let p ← walkToHeight nHeight pindex
    match p with
    | [] => throw .nullDeref
    | q :: _ =>
      if st.fHavePruned && (q.nStatus &&& BLOCK_HAVE_DATA) == 0 && q.nTx > 0 then
        throw (.thrown "GetTxByHashAndHeight: Block not available (pruned data)")
      match readBlockFromDisk st p with
      | none => throw (.thrown "GetTxByHashAndHeight: Block not found on disk")
      | some block =>
        -- `CMerkleBlock(block, txids)` builds its tree first, and `CalcHash` asserts a transaction
        if block.vtx.isEmpty then throw .assertion
        if !block.vtx.isEmpty && env.merkleMatch block txHash then
          return (block.vtx.find? fun tx => env.txHash tx == txHash).map fun tx => (tx, q.nHeight)
        else return none

/-- The hive blocks since the last PoW block: the `while` over pop and hive
blocks from `pindexPrev`, asserting `pprev` before each step.
mirrors src/pow.cpp:306-315 -/
def hiveBlocksSincePow (params : Params) : CBlockIndex → Nat → Except Fault Nat
  | [], _ => .error .nullDeref
  | r :: rest, n =>
    if r.isPopMined params || r.isHiveMined params then
      let n := if r.isHiveMined params then n + 1 else n
      if rest = [] then .error .assertion else hiveBlocksSincePow params rest n
    else .ok n

/-- The fields of a hive proof script, read at fixed offsets.
mirrors src/pow.cpp:347-369,389-392 -/
structure HiveProofFields where
  dwarfNonce : UInt32
  dctClaimedHeight : UInt32
  communityContrib : Bool
  txidStr : List Char
  messageSig : List UInt8
  deriving DecidableEq

/-- `ReadLE32` at 3 and 8, `[12] == OP_TRUE`, 64 characters from 14, 65 bytes
from 79. The script is at least 144 bytes long when this runs. -/
def decodeHiveProof (spk : CScript) : HiveProofFields where
  dwarfNonce := UInt32.ofNat (readLE (slice spk 3 4))
  dctClaimedHeight := UInt32.ofNat (readLE (slice spk 8 4))
  communityContrib := spk.getD 12 0 == OP_TRUE
  txidStr := bytesString (slice spk 14 64)
  messageSig := slice spk 79 65

/-- The preimage of the dwarf hash: `deterministicRandString + txidStr +
std::to_string(dwarfNonce)`. -/
def dwarfPreimage (drs txidStr : List Char) (nonce : Nat) : List Char :=
  drs ++ txidStr ++ (Nat.repr nonce).toList

/-- The dwarf hash: Minotaur of the preimage, then Minotaur of that hash's hex
text, each read back through `arith_uint256(std::string)`.
mirrors src/pow.cpp:378-379 -/
def dwarfHash (env : Env) (preimage : List Char) : ArithUint256 :=
  let h1 := uintToArith256 (uint256S (env.minotaurHashArbitrary preimage).getHex)
  uintToArith256 (uint256S (env.minotaurHashArbitrary (arithToUint256 h1).getHex).getHex)

/-- The coinbase checks: no DCT after the coinbase, a coinbase with 2 or 3
outputs whose `vout[0]` is at least 144 bytes and starts
`OP_RETURN OP_DWARF`. `vtx[0]` is read without a size check.
mirrors src/pow.cpp:319-345 -/
def hiveCoinbase (env : Env) (vtx : List CTransaction) : Check CTransaction := do
  noDCTAfterCoinbase env vtx
  let txCoinbase ← Guarded.lift (at! vtx 0)
  if !txCoinbase.isCoinBase then failure
  if txCoinbase.vout.length < 2 || txCoinbase.vout.length > 3 then failure
  let out0 ← Guarded.lift (at! txCoinbase.vout 0)
  if out0.scriptPubKey.length < 144 then failure
  if out0.scriptPubKey.getD 0 0 != OP_RETURN || out0.scriptPubKey.getD 1 0 != OP_DWARF then failure
  return txCoinbase

/-- The reward destination of `vout[1]`, its key id, and the key recovered
from the proof's signature over the deterministic random string.
mirrors src/pow.cpp:394-430 -/
def hiveRewardKey (env : Env) (txCoinbase : CTransaction) (drs : List Char) (sig : List UInt8) :
    Check CTxDestination := do
  let out1 ← Guarded.lift (at! txCoinbase.vout 1)
  let some rewardDestination := env.extractDestination out1.scriptPubKey | failure
  if !isValidDestination rewardDestination then failure
  checkMessageSig env rewardDestination drs sig
  return rewardDestination

/-- What the DCT lookup establishes: the height the DCT was found at, the
value paid (with the donation once checked) and the DCT's `vout[0]` script. -/
structure DctFound where
  dctFoundHeight : UInt32
  dctValue : Int
  dctScriptPubKey : CScript
  deriving DecidableEq

/-- A drilled DCT's community fund output: `vout[1]` must pay the fund. -/
def donationOfTx (env : Env) (dct : CTransaction) : Check Int := do
  if dct.vout.length < 2 then failure
  let out1 ← Guarded.lift (at! dct.vout 1)
  if out1.scriptPubKey != env.scriptPubKeyCF then failure
  return out1.nValue

/-- The DCT lookup: the coins view first (`pcoinsTip->GetCoin`), else the deep
drill into the block at the claimed height; with the community-contribution
flag, the fund output (from the coins view while no DCT was drilled) and the
donation amount check.
mirrors src/pow.cpp:432-498 -/
def hiveDctLookup (env : Env) (params : Params) (st : NodeState) (pindexPrev : CBlockIndex)
    (f : HiveProofFields) : Check DctFound := do
  let txid := uint256S f.txidStr
  let drill : Check (CTransaction × Int) := do
    let some found ← Guarded.lift
      (getTxByHashAndHeight env st txid (toInt32 f.dctClaimedHeight) pindexPrev) | failure
    return found
  let (dct, found) ← match getCoin st ⟨txid, 0⟩ with
    | some coin =>
      pure (none, DctFound.mk coin.nHeight coin.out.nValue coin.out.scriptPubKey)
    | none => do
      let (tx, h) ← drill
      let out0 ← Guarded.lift (at! tx.vout 0)
      pure (some tx, DctFound.mk (toUInt32 h) out0.nValue out0.scriptPubKey)
  if !f.communityContrib then return found
  let donationAmount ← match dct with
    | some tx => donationOfTx env tx
    | none =>
      match getCoin st ⟨txid, 1⟩ with
      | some coin => do
        if coin.out.scriptPubKey != env.scriptPubKeyCF then failure
        pure coin.out.nValue
      | none => do
        let (tx, _) ← drill
        donationOfTx env tx
  let expectedDonationAmount := (found.dctValue + donationAmount).tdiv params.communityContribFactor
  if donationAmount != expectedDonationAmount then failure
  return { found with dctValue := found.dctValue + donationAmount }

/-- The DCT's claimed height, age, script and reward address, and the dwarf
count that bounds the nonce.
mirrors src/pow.cpp:500-557 -/
def hiveDctChecks (env : Env) (params : Params) (blockHeight : Int)
    (rewardDestination : CTxDestination) (f : HiveProofFields) (found : DctFound) : Check Unit := do
  if found.dctFoundHeight != f.dctClaimedHeight then failure
  -- `blockHeight - dctFoundHeight` is computed as `unsigned int`, then stored in an `int`
  let dctDepth := toInt32 (toUInt32 blockHeight - found.dctFoundHeight)
  if dctDepth < params.dwarfGestationBlocks then failure
  if dctDepth > params.dwarfGestationBlocks + params.dwarfLifespanBlocks then failure
  let some scriptPubKeyReward := isDCTScript found.dctScriptPubKey env.scriptPubKeyBCF | failure
  let some rewardDestinationDCT := env.extractDestination scriptPubKeyReward | failure
  if rewardDestination != rewardDestinationDCT then failure
  if found.dctValue < params.dwarfCost then failure
  let dwarfCount := toUInt32 (found.dctValue.tdiv params.dwarfCost)
  if f.dwarfNonce >= dwarfCount then failure

/-- `CheckHiveProof` once the parent `pindexPrev` and the height are known.
mirrors src/pow.cpp:298-561 -/
def checkHiveProofFrom (env : Env) (params : Params) (st : NodeState) (block : CBlock)
    (pindexPrev : CBlockIndex) (blockHeight : Int) : Check Unit := do
  if blockHeight < params.lastInitialDistributionHeight + params.slowStartBlocks then failure
  let hiveBlocks ← Guarded.lift (hiveBlocksSincePow params pindexPrev 0)
  if (hiveBlocks : Int) ≥ params.maxConsecutiveHiveBlocks then failure
  let txCoinbase ← hiveCoinbase env block.vtx
  let out0 ← Guarded.lift (at! txCoinbase.vout 0)
  let f := decodeHiveProof out0.scriptPubKey
  let drs := getDeterministicRandString pindexPrev
  let target := targetOf (← Guarded.lift (getNextHiveWorkRequired params pindexPrev))
  if dwarfHash env (dwarfPreimage drs f.txidStr f.dwarfNonce.toNat) ≥ target then failure
  let rewardDestination ← hiveRewardKey env txCoinbase drs f.messageSig
  let found ← hiveDctLookup env params st pindexPrev f
  hiveDctChecks env params blockHeight rewardDestination f found

/-- `CheckHiveProof(pblock, params)`: the verdict, and the node state after
the parent lookup.
mirrors src/pow.cpp:276-562 -/
def checkHiveProof (env : Env) (params : Params) (st : NodeState) (block : CBlock) :
    Except Fault Bool × NodeState :=
  let (prev, st') := lookupPrev st block.hashPrevBlock
  match prev with
  | .error e => (.error e, st')
  | .ok (pindexPrev, blockHeight) =>
    (Guarded.verdict (checkHiveProofFrom env params st' block pindexPrev blockHeight), st')

/-- Up to the DCT lookup `CheckHiveProof` reads nothing of the node state:
once the stages before it pass, the run is the lookup followed by the DCT
checks, and the state enters only there. -/
theorem checkHiveProofFrom_eq_lookup {env : Env} {params : Params} {st : NodeState} {block : CBlock}
    {pindexPrev : CBlockIndex} {blockHeight : Int} {hiveBlocks : Nat} {txCoinbase : CTransaction}
    {out0 : CTxOut} {nBits : UInt32} {rewardDestination : CTxDestination}
    (hslow : ¬ blockHeight < params.lastInitialDistributionHeight + params.slowStartBlocks)
    (hhive : hiveBlocksSincePow params pindexPrev 0 = .ok hiveBlocks)
    (hrun : ¬ (hiveBlocks : Int) ≥ params.maxConsecutiveHiveBlocks)
    (hcb : (hiveCoinbase env block.vtx).run = .ok (some txCoinbase))
    (hout0 : at! txCoinbase.vout 0 = .ok out0)
    (hbits : getNextHiveWorkRequired params pindexPrev = .ok nBits)
    (hhash : ¬ dwarfHash env (dwarfPreimage (getDeterministicRandString pindexPrev)
      (decodeHiveProof out0.scriptPubKey).txidStr (decodeHiveProof out0.scriptPubKey).dwarfNonce.toNat) ≥
        targetOf nBits)
    (hkey : (hiveRewardKey env txCoinbase (getDeterministicRandString pindexPrev)
      (decodeHiveProof out0.scriptPubKey).messageSig).run = .ok (some rewardDestination)) :
    (checkHiveProofFrom env params st block pindexPrev blockHeight).run =
      (hiveDctLookup env params st pindexPrev (decodeHiveProof out0.scriptPubKey) >>=
        hiveDctChecks env params blockHeight rewardDestination (decodeHiveProof out0.scriptPubKey)).run := by
  unfold checkHiveProofFrom
  dsimp only
  rw [if_neg hslow, Guarded.run_bind_of_run (by rw [hhive]; rfl), if_neg hrun,
    Guarded.run_bind_of_run hcb, Guarded.run_bind_of_run (by rw [hout0]; rfl),
    Guarded.run_bind_of_run (by rw [hbits]; rfl), if_neg hhash, Guarded.run_bind_of_run hkey]

/-! ## The deep drill -/

/-- The deep drill finds a transaction with the hash it is asked for: when the
walk from `pindex` stops at a stored block whose header commits to its
transactions, where the hash names one of them and no two sibling subtrees
hash alike, `GetTxByHashAndHeight` returns a transaction of that block with
that hash, and the block's height. -/
theorem getTxByHashAndHeight_finds (env : Env) {st : NodeState} {txHash : Uint256} {nHeight : Int}
    {r : IndexRecord} {rest : CBlockIndex} {q : IndexRecord} {qrest : CBlockIndex} {block : CBlock}
    (hge : nHeight ≤ r.nHeight) (hwalk : walkToHeight nHeight (r :: rest) = .ok (q :: qrest))
    (hpruned : st.fHavePruned = false) (hread : readBlockFromDisk st (q :: qrest) = some block)
    (hne : block.vtx ≠ []) (hmax : block.vtx.length ≤ MAX_BLOCK_WEIGHT / MIN_TRANSACTION_WEIGHT)
    (hsib : ∀ height pos, pos * 2 + 1 < calcTreeWidth block.vtx.length height →
      calcHash env.hashPair (block.vtx.map env.txHash) height (pos * 2) ≠
        calcHash env.hashPair (block.vtx.map env.txHash) height (pos * 2 + 1))
    (hroot : (env.blockMerkleRoot block.vtx).1 = block.hashMerkleRoot)
    (honce : (block.vtx.map env.txHash).count txHash = 1) :
    ∃ tx ∈ block.vtx, env.txHash tx = txHash ∧
      getTxByHashAndHeight env st txHash nHeight (r :: rest) = .ok (some (tx, q.nHeight)) := by
  have hmatch := env.merkleMatch_of_committed hne hmax hsib hroot honce
  -- the hash occurs among the block's, so the scan over `vtx` stops at a transaction with it
  obtain ⟨tx, hfind⟩ : ∃ tx, block.vtx.find? (fun tx => env.txHash tx == txHash) = some tx := by
    have hpos : 0 < (block.vtx.map env.txHash).count txHash := by omega
    obtain ⟨tx, htx, hh⟩ := List.mem_map.mp (List.count_pos_iff.mp hpos)
    exact Option.isSome_iff_exists.mp (List.find?_isSome.mpr ⟨tx, htx, by simp [hh]⟩)
  refine ⟨tx, List.mem_of_find?_eq_some hfind, by simpa using List.find?_some hfind, ?_⟩
  simp [getTxByHashAndHeight, not_lt.mpr hge, hwalk, hpruned, hread, hne, hmatch, hfind]

/-- A coinbase and a second transaction, with distinct hashes. -/
def drillEnv : Env :=
  { (default : Env) with
    txHash := fun tx =>
      if tx.isCoinBase then ⟨List.replicate 32 0x31, by simp⟩ else ⟨List.replicate 32 0x32, by simp⟩ }

/-- The stored block: the coinbase and the second transaction, under their
merkle root. -/
def drillBlock : CBlock :=
  { (default : CBlock) with
    vtx := [{ (default : CTransaction) with vin := [⟨⟨Uint256.null, 0xffffffff⟩, [1, 5], 0, ⟨[]⟩⟩] }, default]
    hashMerkleRoot := (drillEnv.blockMerkleRoot
      [{ (default : CTransaction) with vin := [⟨⟨Uint256.null, 0xffffffff⟩, [1, 5], 0, ⟨[]⟩⟩] }, default]).1 }

/-- The block's index entry, at height 5, and a node that stores it. -/
def drillRecord : IndexRecord := { (default : IndexRecord) with nHeight := 5 }

def drillState : NodeState := { (default : NodeState) with blockStore := fun _ => some drillBlock }

theorem getTxByHashAndHeight_finds_second :
    ∃ tx ∈ drillBlock.vtx, drillEnv.txHash tx = ⟨List.replicate 32 0x32, by simp⟩ ∧
      getTxByHashAndHeight drillEnv drillState ⟨List.replicate 32 0x32, by simp⟩ 5 [drillRecord] =
        .ok (some (tx, 5)) := by
  -- two leaves: siblings only at height 0, where the two hashes differ
  have hsib : ∀ height pos, pos * 2 + 1 < calcTreeWidth drillBlock.vtx.length height →
      calcHash drillEnv.hashPair (drillBlock.vtx.map drillEnv.txHash) height (pos * 2) ≠
        calcHash drillEnv.hashPair (drillBlock.vtx.map drillEnv.txHash) height (pos * 2 + 1) := by
    intro height pos hpos
    cases height with
    | zero =>
      obtain rfl : pos = 0 := by
        rw [calcTreeWidth_zero] at hpos
        change pos * 2 + 1 < 2 at hpos
        omega
      decide
    | succ height =>
      have := @calcTreeWidth_le_one 2 (height + 1)
        (by rw [Nat.pow_succ]; have := Nat.one_le_two_pow (n := height); omega)
      change pos * 2 + 1 < calcTreeWidth 2 (height + 1) at hpos
      omega
  exact @getTxByHashAndHeight_finds drillEnv drillState _ 5 drillRecord [] drillRecord [] drillBlock
    (by decide) rfl rfl rfl (by decide) (by decide) hsib rfl (by decide)

end Ring.Hive
