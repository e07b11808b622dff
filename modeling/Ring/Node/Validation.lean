import Ring.Hive.Proof
import Ring.Pop.Proof

/-!
# Block checks (src/validation.cpp:3148-3232, 3369-3413)

`CheckBlockHeader` checks proof of work, for PoW blocks only.
`ContextualCheckBlockHeader` checks `nBits` against the next hive or PoW
target (a pop block's `nBits` is not checked), then checkpoints, time and
version. `CheckBlock` runs `CheckBlockHeader`, the hive or pop proof check,
then the merkle root and the transaction-list checks.

A rejection is its reject reason (`CValidationState`'s `strRejectReason`);
`CheckBlock` also returns the node state its proof check leaves.
-/
namespace Ring.Node

open Ring.Lib Ring.Arith Ring.Script Ring.Chain Ring.Hive Ring.Pop

/-- `MAX_FUTURE_BLOCK_TIME`. -/
def MAX_FUTURE_BLOCK_TIME : Int := 2 * 60 * 60

/-- `CheckBlockHeader`: proof of work, for blocks neither hive nor pop mined.
mirrors src/validation.cpp:3148-3158 -/
def checkBlockHeader (env : Env) (params : Params) (block : CBlockHeader) (fCheckPOW : Bool) :
    Except String Unit :=
  if fCheckPOW && !block.isHiveMined params && !block.isPopMined params &&
      !checkProofOfWork (env.getPowHash block) block.nBits params then
    .error "high-hash"
  else .ok ()

/-- `strprintf("bad-version(0x%08x)", nVersion)`. -/
def badVersion (nVersion : Int32) : String :=
  String.ofList ("bad-version(0x".toList ++ hexStr (writeLE 4 nVersion.toUInt32.toNat).reverse ++ [')'])

/-- `ContextualCheckBlockHeader`; `pcheckpointHeight` is the height of the
last checkpoint in `mapBlockIndex` while checkpoints are enabled.
mirrors src/validation.cpp:3369-3413 -/
def contextualCheckBlockHeader (params : Params) (pcheckpointHeight : Option Int)
    (block : CBlockHeader) (pindexPrev : CBlockIndex) (nAdjustedTime : Int) :
    Except Fault (Except String Unit) := do
  let prev :: _ := pindexPrev | throw .assertion
  let nHeight := prev.nHeight + 1
  if block.isHiveMined params then
    if block.nBits != (← getNextHiveWorkRequired params pindexPrev) then
      return .error "bad-hive-diffbits"
  else if !block.isPopMined params then
    if block.nBits != (← getNextWorkRequired params pindexPrev block.nTime.toNat) then
      return .error "bad-diffbits"
  if let some h := pcheckpointHeight then
    if nHeight < h then return .error "bad-fork-prior-to-checkpoint"
  if (block.nTime.toNat : Int) ≤ getMedianTimePast pindexPrev then return .error "time-too-old"
  if (block.nTime.toNat : Int) > nAdjustedTime + MAX_FUTURE_BLOCK_TIME then
    return .error "time-too-new"
  if (block.nVersion.toInt < 2 ∧ nHeight ≥ params.BIP34Height) ∨
      (block.nVersion.toInt < 3 ∧ nHeight ≥ params.BIP66Height) ∨
      (block.nVersion.toInt < 4 ∧ nHeight ≥ params.BIP65Height) then
    return .error (badVersion block.nVersion)
  return .ok ()

/-- `::GetSerializeSize(block, ... NO_WITNESS)`: the 80-byte header, the
transaction count and the transactions. -/
def blockSerializeSize (vtx : List CTransaction) : Nat :=
  80 + (writeCompactSize vtx.length).length + (vtx.map txSerializeSize).sum

/-- The checks of `CheckBlock` after the proof check: merkle root, sizes,
coinbase placement, each transaction, signature operations.
mirrors src/validation.cpp:3184-3226 -/
def checkBlockBody (env : Env) (hashMerkleRoot : Uint256) (vtx : List CTransaction)
    (fCheckMerkleRoot : Bool) : Except String Unit := do
  if fCheckMerkleRoot then
    let (hashMerkleRoot2, mutated) := env.blockMerkleRoot vtx
    if hashMerkleRoot != hashMerkleRoot2 then throw "bad-txnmrklroot"
    if mutated then throw "bad-txns-duplicate"
  if vtx.isEmpty || vtx.length * WITNESS_SCALE_FACTOR > MAX_BLOCK_WEIGHT ||
      blockSerializeSize vtx * WITNESS_SCALE_FACTOR > MAX_BLOCK_WEIGHT then
    throw "bad-blk-length"
  match vtx with
  | [] => throw "bad-cb-missing"
  | tx0 :: rest =>
    if !tx0.isCoinBase then throw "bad-cb-missing"
    if rest.any CTransaction.isCoinBase then throw "bad-cb-multiple"
  for tx in vtx do
    checkTransaction tx true
  if (vtx.map getLegacySigOpCount).sum * WITNESS_SCALE_FACTOR > MAX_BLOCK_SIGOPS_COST then
    throw "bad-blk-sigops"

/-- The hive or pop proof check of `CheckBlock`, as a reject reason. -/
def checkBlockProof (env : Env) (params : Params) (st : NodeState) (block : CBlock)
    (fPopCheckActiveChain : Bool) : Except Fault (Except String Unit) × NodeState :=
  let verdictOf (reason : String) (v : Except Fault Bool) : Except Fault (Except String Unit) :=
    v.map fun ok => if ok then .ok () else .error reason
  if block.isHiveMined params then
    let (v, st') := checkHiveProof env params st block
    (verdictOf "bad-hive-proof" v, st')
  else if block.isPopMined params then
    let (v, st') := checkPopProof env params st fPopCheckActiveChain block
    (verdictOf "bad-pop-proof" v, st')
  else (.ok (.ok ()), st)

/-- `CheckBlock(block, state, params, fCheckPOW, fCheckMerkleRoot,
fPopCheckActiveChain)`; `fChecked` is the block's cached result.
mirrors src/validation.cpp:3161-3232 -/
def checkBlock (env : Env) (params : Params) (st : NodeState) (block : CBlock) (fChecked : Bool)
    (fCheckPOW fCheckMerkleRoot fPopCheckActiveChain : Bool) :
    Except Fault (Except String Unit) × NodeState :=
  if fChecked then (.ok (.ok ()), st) else
  match checkBlockHeader env params block.toCBlockHeader fCheckPOW with
  | .error reason => (.ok (.error reason), st)
  | .ok () =>
    match checkBlockProof env params st block fPopCheckActiveChain with
    | (.ok (.ok ()), st') =>
      (.ok (checkBlockBody env block.hashMerkleRoot block.vtx fCheckMerkleRoot), st')
    | other => other

end Ring.Node
